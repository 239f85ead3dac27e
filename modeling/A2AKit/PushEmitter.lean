/-
Webhooks of a task.

`PushDeliveryEmitter.update_task` commits, loads the task, looks up the configurations and calls
`deliver`; a writer is suspended between any two of these.  Any number of writers do so at once,
while configurations are set and deleted and the delivery workers take their steps.

* `Effect` — what a step commits, loads or enqueues;
* `deliverAll_spec` — what a call of `deliver` puts into the queues.
-/
import A2AKit.PushConfigs
import A2AKit.StorageRuns
import A2AKit.WebhookQueue

namespace A2AKit

/-- A task as a call of `update_task` has loaded it, with the version it had. -/
structure Snapshot where
  call : CallId
  task : Task
  version : Nat

/-- What `deliver` enqueues is the task alone; `config` is the configuration it was called with. -/
structure Dispatch extends Snapshot where
  config : TaskPushNotificationConfig

/-- `item.status.state` is one of the terminal states. -/
def Snapshot.ended (s : Snapshot) : Bool := s.task.status.state.isTerminal

/-- Where a call of `update_task` stands. -/
inductive EmitterCall
  | idle
  | committed
  | loaded (snapshot : Snapshot)
  | lookedUp (snapshot : Snapshot) (configs : List TaskPushNotificationConfig)
  | returned

/-- What a call has loaded and not enqueued yet. -/
def EmitterCall.snapshot : EmitterCall → Option Snapshot
  | .loaded snapshot => some snapshot
  | .lookedUp snapshot _ => some snapshot
  | _ => none

abbrev Lanes := String → Lane TaskPushNotificationConfig Dispatch

/-- The stored task with its version, its configurations, the writers, and the delivery service. -/
structure PushSystem where
  stored : Option (Task × Nat)
  configs : TaskConfigs := []
  calls : CallId → EmitterCall := fun _ => .idle
  lanes : Lanes := fun _ => {}

inductive PushAction
  | commit (c : CallId) (heap : Heap) (args : UpdateArgs Ref) (now : Timestamp)
  | load (c : CallId)
  | lookUp (c : CallId)
  | enqueue (c : CallId)
  | fail (c : CallId)
  | setConfig (config : PushNotificationConfig) (uuid : String)
  | deleteConfig (configId : String)
  | deleteTask
  | work (configId : String) (worker : Nat) (move : WorkerMove)

/-- What a step does to the order of things. -/
inductive PushEvent
  | committed
  | loaded (c : CallId)
  | enqueued (c : CallId) (configIds : List String)
  | other
  deriving DecidableEq

/-- `config.id or "default"` -/
def TaskPushNotificationConfig.key (config : TaskPushNotificationConfig) : String :=
  textOr config.id "default"

/-- `deliver`; a `KeyError` would end its loop. -/
def deliverAll (maxsize : Nat) (lanes : Lanes) (snapshot : Snapshot) :
    List TaskPushNotificationConfig → Lanes
  | [] => lanes
  | config :: rest =>
    let r := (lanes config.key).deliver maxsize config { snapshot with config }
    let lanes := Function.update lanes config.key r.1
    match r.2 with
    | .ok => deliverAll maxsize lanes snapshot rest
    | .keyError => lanes

namespace PushSystem

def setCall (s : PushSystem) (c : CallId) (call : EmitterCall) : PushSystem :=
  { s with calls := Function.update s.calls c call }

/-- One step of a writer, of the store of the configurations, or of a delivery worker.  The commit
is the one step of `InMemoryStorage.update_task`, to which the updates of the other backends come
down. -/
def step (taskId : TaskId) (maxsize : Nat) (s : PushSystem) :
    PushAction → Option (PushSystem × PushEvent)
  | .commit c heap args now =>
    match s.calls c with
    | .idle =>
      match InMemoryStorage.updateTask taskId heap s.stored args now with
      | .error _ => some (s.setCall c .returned, .other)
      | .ok stored =>
        -- only a new state is announced
        some ({ s with stored := some stored }.setCall c
          (if args.state.isSome then .committed else .returned), .committed)
    | _ => none
  | .load c =>
    match s.calls c with
    | .committed =>
      match s.stored with
      | none => some (s.setCall c .returned, .other)
      | some (task, version) => some (s.setCall c (.loaded { call := c, task, version }), .loaded c)
    | _ => none
  | .lookUp c =>
    match s.calls c with
    | .loaded snapshot =>
      match InMemoryPushConfigStore.getConfigsForDelivery s.configs with
      | [] => some (s.setCall c .returned, .other)
      | configs => some (s.setCall c (.lookedUp snapshot configs), .other)
    | _ => none
  | .enqueue c =>
    match s.calls c with
    | .lookedUp snapshot configs =>
      some ({ s with lanes := deliverAll maxsize s.lanes snapshot configs }.setCall c .returned,
        .enqueued c (configs.map TaskPushNotificationConfig.key))
    | _ => none
  | .fail c =>
    -- `except Exception` around everything that follows the commit
    match s.calls c with
    | .idle => none
    | .returned => none
    | _ => some (s.setCall c .returned, .other)
  | .setConfig config uuid =>
    some ({ s with configs := InMemoryPushConfigStore.setConfig s.configs taskId config uuid },
      .other)
  | .deleteConfig configId =>
    some ({ s with configs := (InMemoryPushConfigStore.deleteConfig s.configs configId).1 }, .other)
  | .deleteTask => some ({ s with stored := none }, .other)
  | .work configId i move =>
    match (s.lanes configId).step maxsize (fun d => d.toSnapshot.ended) (.work i move) with
    | none => none
    | some (lane, _) => some ({ s with lanes := Function.update s.lanes configId lane }, .other)

/-! ### What one step does -/

/-- A call has come to an end, or has looked up the configurations, or stays where it is. -/
def GoesOn (call call' : EmitterCall) : Prop :=
  call' = call ∨ call' = .returned ∨
    ∃ snapshot configs, call = .loaded snapshot ∧ call' = .lookedUp snapshot configs

/-- What the steps come to; all that is known of a quiet one is that nothing is committed, loaded
or enqueued. -/
inductive Effect (maxsize : Nat) (s : PushSystem) : PushEvent → PushSystem → Prop
  | quiet (s' : PushSystem) : (s'.stored = s.stored ∨ s'.stored = none) →
      (∀ c, GoesOn (s.calls c) (s'.calls c)) →
      (∀ k, (s'.lanes k).Sound maxsize ∧ (s'.lanes k).delivered = (s.lanes k).delivered) →
      Effect maxsize s .other s'
  | committed (c : CallId) (t t' : Task) (v : Nat) (call : EmitterCall) :
      s.calls c = .idle → s.stored = some (t, v) →
      (t.status.state.isTerminal = true → t'.status.state.isTerminal = true) →
      (call = .committed ∨ call = .returned) →
      Effect maxsize s .committed ({ s with stored := some (t', v + 1) }.setCall c call)
  | loaded (c : CallId) (t : Task) (v : Nat) : s.calls c = .committed → s.stored = some (t, v) →
      Effect maxsize s (.loaded c)
        (s.setCall c (.loaded { call := c, task := t, version := v }))
  | enqueued (c : CallId) (snapshot : Snapshot) (configs : List TaskPushNotificationConfig) :
      s.calls c = .lookedUp snapshot configs →
      Effect maxsize s (.enqueued c (configs.map TaskPushNotificationConfig.key))
        ({ s with lanes := deliverAll maxsize s.lanes snapshot configs }.setCall c .returned)

variable {taskId : TaskId} {maxsize : Nat} {s s' : PushSystem} {a : PushAction} {e : PushEvent}

theorem goesOn_setCall {c : CallId} {call : EmitterCall} (h : GoesOn (s.calls c) call)
    (c' : CallId) : GoesOn (s.calls c') ((s.setCall c call).calls c') := by
  show GoesOn (s.calls c') (Function.update s.calls c call c')
  by_cases hc : c' = c
  · subst hc
    rwa [Function.update_self]
  · rw [Function.update_of_ne hc]
    exact Or.inl rfl

theorem terminal_of_guard {t : Task} {heap : Heap} {args : UpdateArgs Ref} {now : Timestamp}
    (hguard : terminalGuard taskId t.status.state args.state = none)
    (hterminal : t.status.state.isTerminal = true) :
    (InMemoryStorage.updatedTask heap t args now).status.state.isTerminal = true := by
  rw [InMemoryStorage.updatedTask_state]
  cases hstate : args.state with
  | none => exact hterminal
  | some state =>
    rw [hstate] at hguard
    have hraised : (if t.status.state.isTerminal = true then
        some (terminalTransition taskId t.status.state state) else none) = none := hguard
    rw [if_pos hterminal] at hraised
    exact nomatch hraised

theorem effect_of_step (hsound : ∀ k, (s.lanes k).Sound maxsize)
    (h : s.step taskId maxsize a = some (s', e)) : Effect maxsize s e s' := by
  have hlanes : ∀ k, (s.lanes k).Sound maxsize ∧ (s.lanes k).delivered = (s.lanes k).delivered :=
    fun k => ⟨hsound k, rfl⟩
  cases a with
  -- a refused commit ends the call; an accepted one may find that the state does not push
  | commit c heap args now =>
    rw [step] at h
    split at h
    · rename_i hcall
      split at h
      · cases h
        exact .quiet _ (Or.inl rfl) (goesOn_setCall (Or.inr (Or.inl rfl))) hlanes
      · rename_i stored hok
        cases h
        obtain ⟨t, v, hstored, hv, ht, -, hguard⟩ := InMemoryStorage.updateTask_ok hok
        obtain ⟨t', v'⟩ := stored
        obtain rfl := hv
        -- the guard of the store has refused every write after a terminal state
        refine .committed c t t' v _ hcall hstored (fun hterminal => ?_) ?_
        · have ht : t' = InMemoryStorage.updatedTask heap t args now := ht
          rw [ht]
          exact terminal_of_guard hguard hterminal
        · split
          · exact Or.inl rfl
          · exact Or.inr rfl
    · exact nomatch h
  | load c =>
    rw [step] at h
    split at h
    · rename_i hcall
      split at h
      · cases h
        exact .quiet _ (Or.inl rfl) (goesOn_setCall (Or.inr (Or.inl rfl))) hlanes
      · rename_i t v hstored
        cases h
        exact .loaded c t v hcall hstored
    · exact nomatch h
  | lookUp c =>
    rw [step] at h
    split at h
    · rename_i snapshot hcall
      split at h
      · cases h
        exact .quiet _ (Or.inl rfl) (goesOn_setCall (Or.inr (Or.inl rfl))) hlanes
      · cases h
        refine .quiet _ (Or.inl rfl) (goesOn_setCall (Or.inr (Or.inr ⟨_, _, hcall, rfl⟩))) hlanes
    · exact nomatch h
  | enqueue c =>
    rw [step] at h
    split at h
    · rename_i snapshot configs hcall
      cases h
      exact .enqueued c snapshot configs hcall
    · exact nomatch h
  -- an idle call and one that has returned cannot raise
  | fail c =>
    rw [step] at h
    split at h
    · exact nomatch h
    · exact nomatch h
    · cases h
      exact .quiet _ (Or.inl rfl) (goesOn_setCall (Or.inr (Or.inl rfl))) hlanes
  | setConfig config uuid =>
    cases h
    exact .quiet _ (Or.inl rfl) (fun _ => Or.inl rfl) hlanes
  | deleteConfig configId =>
    cases h
    exact .quiet _ (Or.inl rfl) (fun _ => Or.inl rfl) hlanes
  | deleteTask =>
    cases h
    exact .quiet _ (Or.inr rfl) (fun _ => Or.inl rfl) hlanes
  | work configId i move =>
    rw [step] at h
    split at h
    · exact nomatch h
    · rename_i lane o hlane
      cases h
      -- the worker of one configuration leaves the lanes of the others
      refine .quiet _ (Or.inl rfl) (fun _ => Or.inl rfl) fun k => ?_
      show (Function.update s.lanes configId lane k).Sound maxsize ∧
        (Function.update s.lanes configId lane k).delivered = _
      by_cases hk : k = configId
      · subst hk
        rw [Function.update_self]
        exact ⟨((hsound k).step hlane).2, (Lane.delivered_work hlane).1⟩
      · rw [Function.update_of_ne hk]
        exact hlanes k

/-- `deliver` gives every configuration its snapshot, and no `KeyError` ends it. -/
theorem deliverAll_spec {lanes : Lanes} (snapshot : Snapshot)
    (configs : List TaskPushNotificationConfig) (hsound : ∀ k, (lanes k).Sound maxsize) (k : String) :
    (deliverAll maxsize lanes snapshot configs k).Sound maxsize ∧
      (deliverAll maxsize lanes snapshot configs k).delivered = (lanes k).delivered ++
        (configs.filter (·.key = k)).map fun config => { snapshot with config } := by
  induction configs generalizing lanes with
  | nil => exact ⟨hsound k, (List.append_nil _).symm⟩
  | cons config rest ih =>
    obtain ⟨hok, hdelivered⟩ := (hsound config.key).deliver config { snapshot with config }
    unfold deliverAll
    generalize (lanes config.key).deliver maxsize config { snapshot with config } = r at hok hdelivered ⊢
    obtain ⟨lane, o⟩ := r
    obtain rfl : o = .ok := hok
    have hnext : ∀ k', (Function.update lanes config.key lane k').Sound maxsize := by
      intro k'
      by_cases hk : k' = config.key
      · subst hk
        rw [Function.update_self]
        exact hdelivered.sound
      · rw [Function.update_of_ne hk]
        exact hsound k'
    obtain ⟨hlast, hrest⟩ := ih hnext
    refine ⟨hlast, hrest.trans ?_⟩
    by_cases hk : config.key = k
    · subst hk
      have hfilter : (config :: rest).filter (·.key = config.key) =
          config :: rest.filter (·.key = config.key) := List.filter_cons_of_pos (by simp)
      rw [Function.update_self, hfilter, List.map_cons]
      show lane.delivered ++ _ = _
      rw [hdelivered.delivered, List.append_assoc]
      rfl
    · rw [Function.update_of_ne (Ne.symm hk), List.filter_cons_of_neg (by simpa using hk)]

end PushSystem

end A2AKit
