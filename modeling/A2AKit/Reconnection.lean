/-
Clients that come back.

`subscribe_task` registers at the bus, loads the task and then goes through the events of
`_iter_events`: with an `after_event_id` first through what the replay buffer has behind it.  The
buffer outlives the end of a task by a minute, but the call does not look into it once the stored
task is terminal.

* `missed_replayed_iff` — a call yields what the buffer has behind its event id, in order and up to
  the first terminal event, if and only if the stored task is not terminal when it is loaded, or
  there is nothing behind the id;
* `terminal_not_replayed` — the last event of a task that has ended is not replayed.
-/
import A2AKit.EventDelivery

namespace A2AKit

/-- What `subscribe_task` yields: the stored task, or an event with its id. -/
inductive StreamItem (ε : Type) where
  | snapshot (state : TaskState)
  | event (entry : LogEntry ε)
  deriving DecidableEq

inductive SubscribeError where
  | taskNotFound
  | unsupportedOperation
  deriving DecidableEq

/-- Where a call of `subscribe_task` stands. -/
inductive SubscribePhase where
  | idle
  | loading
  | iterating
  | returned
  | raised (e : SubscribeError)
  deriving DecidableEq

namespace TaskManager

/-- `subscribe_task` after the task was loaded, up to the iteration. -/
def afterLoad {ε : Type} (afterEventId : Option Nat) (task : Option TaskState) :
    SubscribePhase × List (StreamItem ε) :=
  match task with
  | none => (.raised .taskNotFound, [])
  | some state =>
    if state.isTerminal && afterEventId.isNone then (.raised .unsupportedOperation, [])
    else
      let first := if afterEventId.isNone then [.snapshot state] else []
      if afterEventId.isSome && state.isTerminal then (.returned, first ++ [.snapshot state])
      else (.iterating, first)

end TaskManager

/-- The bus, the states of the stored tasks, and a call of `subscribe_task` with what it has
yielded. -/
structure SubscribeCall (ε : Type) where
  bus : InMemoryEventBus ε := {}
  tasks : TaskId → Option TaskState := fun _ => none
  phase : SubscribePhase := .idle
  taskId : TaskId := ""
  afterEventId : Option Nat := none
  yielded : List (StreamItem ε) := []

/-- What may happen: a step of the bus that is not one of the call, a write to the storage, and the
steps of the call. -/
inductive SubscribeAction (ε : Type) where
  | bus (a : BusAction ε)
  | write (taskId : TaskId) (state : Option TaskState)
  | call (taskId : TaskId) (afterEventId : Option Nat)
  | load
  | next

namespace SubscribeCall

variable {ε : Type}

/-- The subscriber of the call is `u`. -/
def mine (u : SubId) : BusAction ε → Bool
  | .subscribe v _ _ | .unsubscribe v | .next v => v = u
  | _ => false

/-- The bus after a step of the call that cannot fail. -/
def advance (cfg : BusConfig) (isTerminal : ε → Bool) (bus : InMemoryEventBus ε)
    (a : BusAction ε) : InMemoryEventBus ε :=
  match bus.step cfg isTerminal a with
  | some (bus, _) => bus
  | none => bus

/-- One step.  A call that goes on to the events reads the replay buffer at once: no other task
runs between `load_task` and that. -/
def step (cfg : BusConfig) (isTerminal : ε → Bool) (u : SubId) (w : SubscribeCall ε) :
    SubscribeAction ε → Option (SubscribeCall ε × Unit)
  | .bus a =>
    if mine u a then none
    else (w.bus.step cfg isTerminal a).map fun (bus, _) => ({ w with bus }, ())
  | .write taskId state => some ({ w with tasks := Function.update w.tasks taskId state }, ())
  | .call taskId afterEventId =>
    match w.phase with
    | .idle => (w.bus.step cfg isTerminal (.subscribe u taskId afterEventId)).map fun (bus, _) =>
        ({ w with bus, phase := .loading, taskId, afterEventId }, ())
    | _ => none
  | .load =>
    match w.phase, w.bus.subscribers u with
    | .loading, some sub =>
      if sub.phase.isStart then
        match TaskManager.afterLoad w.afterEventId (w.tasks w.taskId) with
        | (.iterating, items) =>
          let bus := if w.afterEventId.isSome then advance cfg isTerminal w.bus (.next u) else w.bus
          some ({ w with bus, phase := .iterating, yielded := w.yielded ++ items }, ())
        | (phase, items) =>
          some ({ w with
            bus := advance cfg isTerminal w.bus (.unsubscribe u)
            phase
            yielded := w.yielded ++ items }, ())
      else none
    | _, _ => none
  | .next =>
    match w.phase with
    | .iterating =>
      match w.bus.step cfg isTerminal (.next u) with
      | none => none
      | some (bus, out) =>
        let yielded := w.yielded ++ out.toList.map fun o => .event o.2
        if (bus.subscribers u).any fun sub => sub.phase.isEnded then
          some ({ w with
            bus := advance cfg isTerminal bus (.unsubscribe u), phase := .returned, yielded }, ())
        else some ({ w with bus, yielded }, ())
    | _ => none

/-- The entries of the replay buffer behind an event id. -/
def missed (w : SubscribeCall ε) (k : Nat) : List (LogEntry ε) :=
  (w.bus.replayBuffers w.taskId).filter fun entry => decide (k < entry.id)

def isNext : SubscribeAction ε → Bool
  | .next => true
  | _ => false

/-- From `w` on the call yields the events in order, before anything else and up to the first
terminal one: whatever else happens, as long as some of them are missing it can take another step,
and it takes a bounded number of them. -/
def Yields (cfg : BusConfig) (isTerminal : ε → Bool) (u : SubId) (w : SubscribeCall ε)
    (events : List (LogEntry ε)) : Prop :=
  ∃ bound, ∀ tr w', Run (step cfg isTerminal u) (fun _ _ => True) w tr w' →
    (untilFirst (fun entry => isTerminal entry.event) events).map .event <+: w'.yielded ∨
      w'.yielded <+: (untilFirst (fun entry => isTerminal entry.event) events).map .event ∧
        (step cfg isTerminal u w' .next).isSome ∧ tr.countP (fun p => isNext p.1) < bound

/-! ### What the others do to the subscriber -/

section

variable {cfg : BusConfig} {isTerminal : ε → Bool} {u : SubId} {bus bus' : InMemoryEventBus ε}

def registers (u : SubId) : Waiter ε → Bool
  | .register v => v = u
  | _ => false

/-- The arguments of a subscription stay, and so does the place of its iteration, unless it is
registered. -/
structure Kept (u : SubId) (bus bus' : InMemoryEventBus ε) : Prop where
  absent : bus.subscribers u = none → bus'.subscribers u = none ∧
    bus'.lock.countP (registers u) ≤ bus.lock.countP (registers u)
  present : ∀ sub, bus.subscribers u = some sub → ∃ sub', bus'.subscribers u = some sub' ∧
    sub'.taskId = sub.taskId ∧ sub'.afterEventId = sub.afterEventId ∧ sub'.left = sub.left ∧
    (sub'.phase = sub.phase ∧
        bus'.lock.countP (registers u) = bus.lock.countP (registers u) ∨
      sub'.phase = .start ∧
        bus.lock.countP (registers u) = bus'.lock.countP (registers u) + 1)

theorem Kept.of_same (hsub : bus'.subscribers u = bus.subscribers u)
    (hlock : bus'.lock.countP (registers u) = bus.lock.countP (registers u)) : Kept u bus bus' := by
  refine ⟨fun hnone => ⟨hsub.trans hnone, le_of_eq hlock⟩, fun sub h => ?_⟩
  exact ⟨sub, hsub.trans h, rfl, rfl, rfl, Or.inl ⟨rfl, hlock⟩⟩

theorem countP_concat {w : Waiter ε} (hw : registers u w = false) (lock : List (Waiter ε)) :
    (lock ++ [w]).countP (registers u) = lock.countP (registers u) := by
  rw [List.countP_append, List.countP_singleton, hw]
  rfl

theorem kept_of_grant {w : Waiter ε} {rest : List (Waiter ε)} (hlock : bus.lock = w :: rest) :
    Kept u bus ({ bus with lock := rest }.runWaiter cfg w) := by
  -- only a `register` of `u` is counted
  have hcount : ∀ w' : Waiter ε, bus.lock = w' :: rest → registers u w' = false →
      rest.countP (registers u) = bus.lock.countP (registers u) := by
    intro w' hlock' hw'
    rw [hlock', List.countP_cons_of_neg (by simp [hw'])]
  cases w with
  | publish t entry =>
    have hsub : ({ bus with lock := rest }.runWaiter cfg (.publish t entry)).subscribers u =
        if u ∈ bus.subs t then (bus.subscribers u).map (Subscriber.send cfg.eventBuffer entry)
        else bus.subscribers u := rfl
    have hrest : rest.countP (registers u) = bus.lock.countP (registers u) := hcount _ hlock rfl
    refine ⟨fun hnone => ⟨?_, le_of_eq hrest⟩, fun sub h => ?_⟩
    · rw [hsub, hnone]
      exact ite_self _
    · rw [hsub, h]
      by_cases hmem : u ∈ bus.subs t
      · obtain ⟨htask, hleft, hafter, -, -⟩ := InMemoryEventBus.send_frame sub cfg.eventBuffer entry
        rw [if_pos hmem]
        refine ⟨_, rfl, htask, hafter, hleft, Or.inl ⟨?_, hrest⟩⟩
        exact InMemoryEventBus.send_phase _ _
      · rw [if_neg hmem]
        exact ⟨sub, rfl, rfl, rfl, rfl, Or.inl ⟨rfl, hrest⟩⟩
  | register v =>
    cases hv : bus.subscribers v with
    | none =>
      rw [(InMemoryEventBus.runWaiter_unknown rest hv).1]
      refine ⟨fun hnone => ⟨hnone, ?_⟩, fun sub h => ?_⟩
      · rw [hlock]
        exact (List.sublist_cons_self _ _).countP_le
      · have hne : v ≠ u := fun heq => nomatch (heq ▸ hv).symm.trans h
        exact ⟨sub, h, rfl, rfl, rfl, Or.inl ⟨rfl, hcount _ hlock (by simpa [registers] using hne)⟩⟩
    | some sub₀ =>
      rw [InMemoryEventBus.runWaiter_register rest hv]
      by_cases hvu : v = u
      · subst hvu
        refine ⟨fun hnone => (nomatch hnone.symm.trans hv), fun sub h => ?_⟩
        obtain rfl := Option.some.inj (hv.symm.trans h)
        -- this is where `u` starts, and its one request leaves the queue
        refine ⟨_, Function.update_self _ _ _, rfl, rfl, rfl, Or.inr ⟨rfl, ?_⟩⟩
        rw [hlock, List.countP_cons_of_pos (by simp [registers])]
      · refine Kept.of_same (Function.update_of_ne (Ne.symm hvu) _ _) ?_
        exact hcount _ hlock (by simpa [registers] using hvu)
  | unregister v =>
    cases hv : bus.subscribers v with
    | none =>
      rw [(InMemoryEventBus.runWaiter_unknown rest hv).2]
      exact Kept.of_same rfl (hcount _ hlock rfl)
    | some sub₀ =>
      rw [InMemoryEventBus.runWaiter_unregister rest hv]
      exact Kept.of_same rfl (hcount _ hlock rfl)
  | cleanup t => exact Kept.of_same rfl (hcount _ hlock rfl)

theorem kept_of_step {a : BusAction ε} {o : Option (SubId × LogEntry ε)}
    (h : bus.step cfg isTerminal a = some (bus', o)) (ha : mine u a = false) : Kept u bus bus' := by
  have hne : ∀ v, decide (v = u) = false → u ≠ v := fun v hv => Ne.symm (of_decide_eq_false hv)
  cases InMemoryEventBus.busTurn_of_step h with
  | publish t event => exact Kept.of_same rfl (countP_concat rfl _)
  | subscribe => exact Kept.of_same (Function.update_of_ne (hne _ ha) _ _) (countP_concat (w := .register _) ha _)
  | unsubscribe => exact Kept.of_same (Function.update_of_ne (hne _ ha) _ _) (countP_concat rfl _)
  | cleanup t => exact Kept.of_same rfl (countP_concat rfl _)
  | grant hlock => exact kept_of_grant hlock
  | next => exact Kept.of_same (Function.update_of_ne (hne _ ha) _ _) rfl
  | tick dt => exact Kept.of_same rfl rfl

/-! ### A call up to the load -/

variable {w w' : SubscribeCall ε} {k : Nat}

/-- A call that has not loaded the task yet. -/
def Started (u : SubId) (w : SubscribeCall ε) : Prop :=
  match w.phase with
  | .idle => w.yielded = [] ∧ w.bus.subscribers u = none ∧ w.bus.lock.countP (registers u) = 0
  | .loading => w.yielded = [] ∧ ∃ sub, w.bus.subscribers u = some sub ∧ sub.taskId = w.taskId ∧
      sub.afterEventId = w.afterEventId ∧ sub.left = false ∧
      (sub.phase = .subscribing ∧ w.bus.lock.countP (registers u) = 1 ∨
        sub.phase = .start ∧ w.bus.lock.countP (registers u) = 0)
  | _ => True

/-- The call has loaded the task. -/
def Loaded (phase : SubscribePhase) : Prop :=
  match phase with
  | .idle | .loading => False
  | _ => True

theorem Started.of_loaded (h : Loaded w.phase) : Started u w := by
  unfold Started
  split
  · rename_i hphase
    rw [hphase] at h
    exact h.elim
  · rename_i hphase
    rw [hphase] at h
    exact h.elim
  · exact trivial

theorem loaded_afterLoad (afterEventId : Option Nat) (task : Option TaskState) :
    Loaded (TaskManager.afterLoad (ε := ε) afterEventId task).1 := by
  unfold TaskManager.afterLoad
  split
  · exact trivial
  · split
    · exact trivial
    · dsimp only
      split <;> exact trivial

theorem Started.of_kept (h : Started u w) {bus' : InMemoryEventBus ε} (hkept : Kept u w.bus bus') :
    Started u { w with bus := bus' } := by
  unfold Started at h ⊢
  dsimp only
  split at h
  · obtain ⟨hyielded, hnone, hcount⟩ := h
    obtain ⟨hnone', hle⟩ := hkept.absent hnone
    exact ⟨hyielded, hnone', by omega⟩
  · obtain ⟨hyielded, sub, hsub, htask, hafter, hleft, hplace⟩ := h
    obtain ⟨sub', hsub', htask', hafter', hleft', hmove⟩ := hkept.present sub hsub
    refine ⟨hyielded, sub', hsub', htask'.trans htask, hafter'.trans hafter,
      hleft'.trans hleft, ?_⟩
    rcases hmove with ⟨hph, hcount⟩ | ⟨hph, hcount⟩
    · rw [hph, hcount]
      exact hplace
    · refine Or.inr ⟨hph, ?_⟩
      rcases hplace with ⟨-, hone⟩ | ⟨-, hzero⟩ <;> omega
  · exact trivial

/-- A step of the others is a step of the bus, and changes nothing else. -/
theorem bus_of_step {a : BusAction ε} {o : Unit}
    (h : step cfg isTerminal u w (.bus a) = some (w', o)) :
    mine u a = false ∧ ∃ bus' o', w.bus.step cfg isTerminal a = some (bus', o') ∧
      w' = { w with bus := bus' } := by
  rw [SubscribeCall.step] at h
  split at h
  · cases h
  · rename_i hmine
    obtain ⟨⟨bus', o'⟩, hbus, heq⟩ := Option.map_eq_some_iff.mp h
    exact ⟨Bool.eq_false_iff.mpr hmine, bus', o', hbus, (Prod.mk.inj heq).1.symm⟩

/-- The call registers a new subscriber. -/
theorem call_of_step {t : TaskId} {afterEventId : Option Nat} {o : Unit}
    (h : step cfg isTerminal u w (.call t afterEventId) = some (w', o)) :
    w.phase = .idle ∧ ∃ bus' o',
      w.bus.step cfg isTerminal (.subscribe u t afterEventId) = some (bus', o') ∧
      w' = { w with bus := bus', phase := .loading, taskId := t, afterEventId } := by
  rw [SubscribeCall.step] at h
  split at h
  · rename_i hphase
    obtain ⟨⟨bus', o'⟩, hbus, heq⟩ := Option.map_eq_some_iff.mp h
    exact ⟨hphase, bus', o', hbus, (Prod.mk.inj heq).1.symm⟩
  · cases h

theorem Started.step {a : SubscribeAction ε} {o : Unit} (h : Started u w)
    (hstep : step cfg isTerminal u w a = some (w', o)) : Started u w' := by
  cases a with
  | bus a =>
    obtain ⟨hmine, bus', o', hbus, rfl⟩ := bus_of_step hstep
    exact h.of_kept (kept_of_step hbus hmine)
  | write t state =>
    obtain ⟨rfl, -⟩ := Prod.mk.inj (Option.some.inj hstep)
    exact h
  | call t afterEventId =>
    obtain ⟨hphase, bus', o', hbus, rfl⟩ := call_of_step hstep
    rw [Started, hphase] at h
    obtain ⟨hyielded, hnone, hcount⟩ := h
    cases InMemoryEventBus.busTurn_of_step hbus with
    | subscribe =>
      refine ⟨hyielded, _, Function.update_self _ _ _, rfl, rfl, rfl, Or.inl ⟨rfl, ?_⟩⟩
      show (w.bus.lock ++ [Waiter.register u]).countP (registers u) = 1
      rw [List.countP_append, hcount, List.countP_singleton]
      simp [registers]
  -- what the call does after loading the task depends on its state only
  | load =>
    have hloaded := @loaded_afterLoad ε w.afterEventId (w.tasks w.taskId)
    rw [SubscribeCall.step] at hstep
    split at hstep
    · split at hstep
      · split at hstep
        · obtain ⟨rfl, -⟩ := Prod.mk.inj (Option.some.inj hstep)
          exact Started.of_loaded trivial
        · rename_i hresult
          obtain ⟨rfl, -⟩ := Prod.mk.inj (Option.some.inj hstep)
          rw [hresult] at hloaded
          exact Started.of_loaded hloaded
      · exact nomatch hstep
    · exact nomatch hstep
  | next =>
    rw [SubscribeCall.step] at hstep
    split at hstep
    · rename_i hphase
      split at hstep
      · exact nomatch hstep
      · dsimp only at hstep
        split at hstep
        · obtain ⟨rfl, -⟩ := Prod.mk.inj (Option.some.inj hstep)
          exact Started.of_loaded trivial
        · obtain ⟨rfl, -⟩ := Prod.mk.inj (Option.some.inj hstep)
          refine Started.of_loaded ?_
          rw [hphase]
          exact trivial
    · exact nomatch hstep

/-- The task has been loaded by a call that has not done more. -/
theorem Started.of_load (h : Started u w)
    (hload : SubscribeCall.step cfg isTerminal u w .load = some (w', ())) : w.phase = .loading ∧ w.yielded = [] ∧
    ∃ sub, w.bus.subscribers u = some sub ∧ sub.taskId = w.taskId ∧
      sub.afterEventId = w.afterEventId ∧ sub.left = false ∧ sub.phase = .start ∧
      w.bus.lock.countP (registers u) = 0 := by
  rw [SubscribeCall.step] at hload
  split at hload
  · rename_i sub hphase hsub
    split at hload
    · rename_i hstart
      rw [Started, hphase] at h
      obtain ⟨hyielded, sub', hsub', htask, hafter, hleft, hplace⟩ := h
      obtain rfl := Option.some.inj (hsub.symm.trans hsub')
      refine ⟨hphase, hyielded, sub, hsub, htask, hafter, hleft, ?_⟩
      rcases hplace with ⟨hph, -⟩ | hplace
      · rw [hph] at hstart
        exact nomatch hstart
      · exact hplace
    · exact nomatch hload
  · exact nomatch hload

/-! ### The replay -/

/-- The call goes through what is left of the replay buffer. -/
structure Replaying (isTerminal : ε → Bool) (u : SubId) (k : Nat) (events : List (LogEntry ε))
    (w : SubscribeCall ε) (rest : List (LogEntry ε)) : Prop where
  phase : w.phase = .iterating
  registered : w.bus.lock.countP (registers u) = 0
  subscriber : ∃ sub, w.bus.subscribers u = some sub ∧ sub.left = false ∧
    sub.afterEventId = some k ∧ sub.phase = .replaying rest
  yielded : ∃ out, w.yielded = out.map .event ∧
    untilFirst (fun entry => isTerminal entry.event) events =
      out ++ untilFirst (fun entry => isTerminal entry.event)
        (rest.filter fun entry => decide (k < entry.id))

/-- After `n` steps of the iteration, the events are all yielded, or the rest of the buffer is
`n` entries shorter. -/
def Progress (isTerminal : ε → Bool) (u : SubId) (k : Nat) (events : List (LogEntry ε))
    (total n : Nat) (w : SubscribeCall ε) : Prop :=
  (untilFirst (fun entry => isTerminal entry.event) events).map .event <+: w.yielded ∨
    ∃ rest, Replaying isTerminal u k events w rest ∧ n + rest.length = total

variable {events : List (LogEntry ε)} {total n : Nat}

/-- Nothing that was yielded is taken back. -/
theorem step_yielded {a : SubscribeAction ε} {o : Unit}
    (hstep : step cfg isTerminal u w a = some (w', o)) : w.yielded <+: w'.yielded := by
  cases a with
  | bus a =>
    obtain ⟨-, bus', o', -, rfl⟩ := bus_of_step hstep
    exact List.prefix_rfl
  | write t state =>
    obtain ⟨rfl, -⟩ := Prod.mk.inj (Option.some.inj hstep)
    exact List.prefix_rfl
  | call t afterEventId =>
    obtain ⟨-, bus', o', -, rfl⟩ := call_of_step hstep
    exact List.prefix_rfl
  | load =>
    rw [SubscribeCall.step] at hstep
    split at hstep
    · split at hstep
      · split at hstep <;> obtain ⟨rfl, -⟩ := Prod.mk.inj (Option.some.inj hstep) <;>
          exact List.prefix_append _ _
      · exact nomatch hstep
    · exact nomatch hstep
  | next =>
    rw [SubscribeCall.step] at hstep
    split at hstep
    · split at hstep
      · exact nomatch hstep
      · dsimp only at hstep
        split at hstep <;> obtain ⟨rfl, -⟩ := Prod.mk.inj (Option.some.inj hstep) <;>
          exact List.prefix_append _ _
    · exact nomatch hstep

/-- A step of the iteration, from a step of the subscriber. -/
theorem step_next (cfg : BusConfig) {sub sub' : Subscriber ε} {out : Option (LogEntry ε)}
    (hphase : w.phase = .iterating) (hsub : w.bus.subscribers u = some sub)
    (hleft : sub.left = false)
    (hnext : sub.next isTerminal (w.bus.replayBuffers sub.taskId) = some (sub', out)) :
    ∃ w', step cfg isTerminal u w .next = some (w', ()) ∧
      w'.yielded = w.yielded ++ out.toList.map .event ∧
      (sub'.phase.isEnded = false → w' =
        { w with
          bus := w.bus.setSubscriber u sub', yielded := w.yielded ++ out.toList.map .event }) := by
  have hbus : w.bus.step cfg isTerminal (.next u) =
      some (w.bus.setSubscriber u sub', out.map fun entry => (u, entry)) := by
    simp only [InMemoryEventBus.step, hsub, hleft, hnext]
    rfl
  have hfound : (w.bus.setSubscriber u sub').subscribers u = some sub' :=
    Function.update_self _ _ _
  have hyield : ((out.map fun entry => (u, entry)).toList.map fun o => StreamItem.event o.2) =
      out.toList.map .event := by
    cases out <;> rfl
  rw [SubscribeCall.step, hphase]
  dsimp only
  rw [hbus]
  dsimp only
  rw [hfound, hyield, Option.any_some]
  cases hended : sub'.phase.isEnded
  · exact ⟨_, rfl, rfl, fun _ => rfl⟩
  · exact ⟨_, rfl, rfl, fun h => nomatch h⟩

/-- **While the buffer is replayed, the call can go on, and every step of it uses up an entry.** -/
theorem Replaying.next (cfg : BusConfig) {rest : List (LogEntry ε)} (h : Replaying isTerminal u k events w rest)
    (htotal : n + rest.length = total) :
    ∃ w', step cfg isTerminal u w .next = some (w', ()) ∧
      Progress isTerminal u k events total (n + 1) w' := by
  obtain ⟨sub, hsub, hleft, hafter, hph⟩ := h.subscriber
  obtain ⟨out, hyielded, hevents⟩ := h.yielded
  cases rest with
  | nil =>
    -- the replay is over: everything that was due has been yielded
    have hnext : sub.next isTerminal (w.bus.replayBuffers sub.taskId) =
        some ({ sub with phase := .live }, none) := by
      simp only [Subscriber.next, hph]
    obtain ⟨w', hstep, hyields, -⟩ := step_next cfg h.phase hsub hleft hnext
    refine ⟨w', hstep, Or.inl ?_⟩
    rw [hyields, hyielded, hevents]
    simp [untilFirst]
  | cons entry rest =>
    rw [List.length_cons] at htotal
    by_cases hid : k < entry.id
    · have hnext : sub.next isTerminal (w.bus.replayBuffers sub.taskId) =
          some ({ sub with
            lastYieldedId := entry.id
            phase := if isTerminal entry.event then .ended else .replaying rest }, some entry) := by
        have hid' : entry.id > sub.afterEventId.getD 0 := by rwa [hafter]
        simp only [Subscriber.next, hph, if_pos hid']
      obtain ⟨w', hstep, hyields, hw'⟩ := step_next cfg h.phase hsub hleft hnext
      have hkeep : (entry :: rest).filter (fun entry => decide (k < entry.id)) =
          entry :: rest.filter fun entry => decide (k < entry.id) :=
        List.filter_cons_of_pos (decide_eq_true hid)
      rw [hkeep, untilFirst] at hevents
      refine ⟨w', hstep, ?_⟩
      by_cases hterm : isTerminal entry.event = true
      · refine Or.inl ?_
        rw [if_pos hterm] at hevents
        rw [hyields, hyielded, hevents, List.map_append]
        exact List.prefix_rfl
      · rw [if_neg hterm] at hevents
        have hph' : (if isTerminal entry.event = true then IterPhase.ended else .replaying rest) =
            .replaying rest := if_neg hterm
        rw [hph'] at hw'
        refine Or.inr ⟨rest, ?_, by omega⟩
        rw [hw' rfl]
        refine ⟨h.phase, h.registered, ⟨_, Function.update_self _ _ _, hleft, hafter, rfl⟩,
          out ++ [entry], ?_, ?_⟩
        · rw [hyielded, List.map_append]
          rfl
        · rw [hevents, List.append_assoc]
          rfl
    · have hnext : sub.next isTerminal (w.bus.replayBuffers sub.taskId) =
          some ({ sub with phase := .replaying rest }, none) := by
        have hid' : ¬ entry.id > sub.afterEventId.getD 0 := by rwa [hafter]
        simp only [Subscriber.next, hph, if_neg hid']
      obtain ⟨w', hstep, -, hw'⟩ := step_next cfg h.phase hsub hleft hnext
      -- an entry that the client has seen already is skipped
      have hkeep : (entry :: rest).filter (fun entry => decide (k < entry.id)) =
          rest.filter fun entry => decide (k < entry.id) :=
        List.filter_cons_of_neg (by simpa using hid)
      rw [hkeep] at hevents
      refine ⟨w', hstep, Or.inr ⟨rest, ?_, by omega⟩⟩
      rw [hw' rfl]
      refine ⟨h.phase, h.registered, ⟨_, Function.update_self _ _ _, hleft, hafter, rfl⟩,
        out, ?_, hevents⟩
      rw [hyielded]
      exact List.append_nil _

theorem Progress.step {a : SubscribeAction ε} {o : Unit}
    (h : Progress isTerminal u k events total n w)
    (hstep : SubscribeCall.step cfg isTerminal u w a = some (w', o)) :
    Progress isTerminal u k events total (n + if isNext a then 1 else 0) w' := by
  rcases h with hall | ⟨rest, h, htotal⟩
  · exact Or.inl (hall.trans (step_yielded hstep))
  · cases a with
    | bus a =>
      obtain ⟨hmine, bus', o', hbus, rfl⟩ := bus_of_step hstep
      obtain ⟨sub, hsub, hleft, hafter, hph⟩ := h.subscriber
      obtain ⟨sub', hsub', -, hafter', hleft', hmove⟩ :=
        (kept_of_step hbus hmine).present sub hsub
      -- the subscriber is registered once only
      have hcount := h.registered
      rcases hmove with ⟨hph', hcount'⟩ | ⟨-, hcount'⟩
      · refine Or.inr ⟨rest, ⟨h.phase, hcount'.trans hcount, ⟨sub', hsub', ?_, ?_, ?_⟩,
          h.yielded⟩, htotal⟩
        · exact hleft'.trans hleft
        · exact hafter'.trans hafter
        · exact hph'.trans hph
      · omega
    | write t state =>
      obtain ⟨rfl, -⟩ := Prod.mk.inj (Option.some.inj hstep)
      exact Or.inr ⟨rest, ⟨h.phase, h.registered, h.subscriber, h.yielded⟩, htotal⟩
    | call t afterEventId =>
      obtain ⟨hidle, -⟩ := call_of_step hstep
      cases h.phase.symm.trans hidle
    | load =>
      rw [SubscribeCall.step, h.phase] at hstep
      exact nomatch hstep
    | next =>
      obtain ⟨w₁, hstep₁, hprogress⟩ := h.next cfg htotal
      obtain ⟨rfl, -⟩ := Prod.mk.inj (Option.some.inj (hstep₁.symm.trans hstep))
      exact hprogress

/-- **A call that has begun to replay yields all the events.** -/
theorem Replaying.yields {rest : List (LogEntry ε)} (h : Replaying isTerminal u k events w rest) :
    Yields cfg isTerminal u w events := by
  refine ⟨rest.length + 1, fun tr w' hrun => ?_⟩
  have hprogress : Progress isTerminal u k events rest.length (tr.countP fun p => isNext p.1) w' := by
    refine hrun.forward (P := fun tr w => Progress isTerminal u k events rest.length
      (tr.countP fun p => isNext p.1) w) ?_ (Or.inr ⟨rest, h, Nat.zero_add _⟩)
    intro tr w a w' o hp _ hstep
    rw [List.countP_append, List.countP_singleton]
    exact hp.step hstep
  rcases hprogress with hall | ⟨rest', h', htotal⟩
  · exact Or.inl hall
  · obtain ⟨w₁, hstep, -⟩ := h'.next cfg htotal
    obtain ⟨out, hyielded, hevents⟩ := h'.yielded
    refine Or.inr ⟨?_, by rw [hstep]; rfl, by omega⟩
    rw [hyielded, hevents, List.map_append]
    exact List.prefix_append _ _

/-- A call that is over yields nothing more. -/
theorem not_yields (hphase : w.phase ≠ .iterating)
    (hyielded : ∀ item ∈ w.yielded, ∀ entry, item ≠ .event entry) (hne : events ≠ []) :
    ¬ Yields cfg isTerminal u w events := by
  rintro ⟨bound, hall⟩
  rcases hall [] w (.nil w) with hpre | ⟨-, hnext, -⟩
  · cases events with
    | nil => exact hne rfl
    | cons entry rest =>
      have hmem : StreamItem.event entry ∈ w.yielded := by
        refine hpre.subset (List.mem_map_of_mem ?_)
        rw [untilFirst]
        split
        · exact List.mem_singleton.mpr rfl
        · exact List.mem_cons_self
      exact hyielded _ hmem entry rfl
  · rw [SubscribeCall.step] at hnext
    split at hnext
    · rename_i hiter
      exact hphase hiter
    · cases hnext

/-- A task that can still change is replayed. -/
theorem replaying_of_load {state : TaskState} (h : Started u w) (hafter : w.afterEventId = some k)
    (hload : SubscribeCall.step cfg isTerminal u w .load = some (w', ()))
    (htask : w.tasks w.taskId = some state) (hstate : state.isTerminal = false) :
    Replaying isTerminal u k (w.missed k) w' (w.bus.replayBuffers w.taskId) := by
  obtain ⟨hphase, hyielded, sub, hsub, hid, hsame, hleft, hstart, hcount⟩ := h.of_load hload
  have hnext : sub.next isTerminal (w.bus.replayBuffers sub.taskId) =
      some ({ sub with
        lastYieldedId := 0, phase := .replaying (w.bus.replayBuffers w.taskId) }, none) := by
    simp only [Subscriber.next, hstart, hsame, hafter, hid]
  have hbus : advance cfg isTerminal w.bus (.next u) = w.bus.setSubscriber u { sub with
      lastYieldedId := 0, phase := .replaying (w.bus.replayBuffers w.taskId) } := by
    simp only [advance, InMemoryEventBus.step, hsub, hleft, hnext]
    rfl
  rw [SubscribeCall.step, hphase, hsub] at hload
  dsimp only at hload
  rw [hstart, htask, hafter] at hload
  simp only [IterPhase.isStart, TaskManager.afterLoad, hstate, Option.isNone_some, hbus, hyielded,
    Option.isSome_some, Bool.and_false, Bool.false_eq_true, if_false, if_true] at hload
  obtain ⟨rfl, -⟩ := Prod.mk.inj (Option.some.inj hload)
  exact ⟨rfl, hcount, ⟨_, Function.update_self _ _ _, hleft, hsame.trans hafter, rfl⟩, [], rfl, rfl⟩

/-- A task that has ended, or is gone, is not. -/
theorem over_of_load (h : Started u w) (hafter : w.afterEventId = some k)
    (hload : SubscribeCall.step cfg isTerminal u w .load = some (w', ()))
    (htask : ∀ state, w.tasks w.taskId = some state → state.isTerminal = true) :
    w'.phase ≠ .iterating ∧ ∀ item ∈ w'.yielded, ∀ entry, item ≠ .event entry := by
  obtain ⟨hphase, hyielded, sub, hsub, -, -, -, hstart, -⟩ := h.of_load hload
  rw [SubscribeCall.step, hphase, hsub] at hload
  dsimp only at hload
  rw [hstart, hafter] at hload
  cases htask' : w.tasks w.taskId with
  | none =>
    rw [htask'] at hload
    simp only [IterPhase.isStart, TaskManager.afterLoad, hyielded, if_true] at hload
    obtain ⟨rfl, -⟩ := Prod.mk.inj (Option.some.inj hload)
    exact ⟨nofun, nofun⟩
  | some state =>
    rw [htask'] at hload
    simp only [IterPhase.isStart, TaskManager.afterLoad, hyielded, htask state htask',
      Option.isNone_some, Option.isSome_some, Bool.and_false, Bool.and_self, Bool.false_eq_true,
      if_false, if_true] at hload
    obtain ⟨rfl, -⟩ := Prod.mk.inj (Option.some.inj hload)
    refine ⟨nofun, ?_⟩
    rintro item hitem entry rfl
    exact nomatch List.mem_singleton.mp hitem

/-- **A call yields what the buffer has behind its event id if and only if the task is not terminal
when it is loaded, or the buffer has nothing behind the id.** -/
theorem missed_replayed_iff {tr : List (SubscribeAction ε × Unit)}
    (hrun : Run (SubscribeCall.step cfg isTerminal u) (fun _ _ => True) {} tr w)
    (hafter : w.afterEventId = some k)
    (hload : SubscribeCall.step cfg isTerminal u w .load = some (w', ())) :
    Yields cfg isTerminal u w' (w.missed k) ↔
      (∃ state, w.tasks w.taskId = some state ∧ state.isTerminal = false) ∨ w.missed k = [] := by
  have hstarted : Started u w :=
    hrun.inv (fun _ _ _ _ h _ hstep => h.step hstep) ⟨rfl, rfl, rfl⟩
  constructor
  · intro hyields
    by_contra hnot
    rw [not_or, not_exists] at hnot
    obtain ⟨hphase, hitems⟩ := over_of_load hstarted hafter hload fun state htask => by
      by_contra hstate
      exact hnot.1 state ⟨htask, by simpa using hstate⟩
    exact not_yields hphase hitems hnot.2 hyields
  · rintro (⟨state, htask, hstate⟩ | hnone)
    · exact (replaying_of_load hstarted hafter hload htask hstate).yields
    · refine ⟨0, fun tr w'' _ => Or.inl ?_⟩
      rw [hnone]
      exact List.nil_prefix

end

/-! ### Two calls for what follows event 1 -/

/-- Two events, the second of which ends the stream, and then a call for what follows the first. -/
def twoEvents (state : TaskState) : List (SubscribeAction String) :=
  [.bus (.publish "t" "progress"), .bus .grant, .write "t" (some state),
    .bus (.publish "t" "end"), .bus .grant, .bus (.cleanup "t"), .bus .grant,
    .call "t" (some 1), .bus .grant]

def busOfEight : BusConfig := ⟨8, 8, 60⟩

/-- The call before the task is loaded. -/
def beforeLoad (state : TaskState) : SubscribeCall String :=
  finalState (step busOfEight (· == "end") 0) (fun _ _ => True) {} (twoEvents state)

/-- The call after it. -/
def loaded (state : TaskState) : SubscribeCall String :=
  finalState (step busOfEight (· == "end") 0) (fun _ _ => True) (beforeLoad state) [.load]

/-- The task is paused. -/
theorem paused_replayed : Yields busOfEight (· == "end") 0 (loaded .inputRequired)
    ((beforeLoad .inputRequired).missed 1) ↔
      (∃ state, (beforeLoad .inputRequired).tasks (beforeLoad .inputRequired).taskId = some state ∧
        state.isTerminal = false) ∨ (beforeLoad .inputRequired).missed 1 = [] :=
  missed_replayed_iff (run_finalState (step busOfEight (· == "end") 0) (fun _ _ => True) {}
    (twoEvents .inputRequired) (by decide +kernel)) (by decide +kernel) rfl

/-- **A task has ended, its last event is in the buffer, and a client that missed it gets the task
alone.** -/
theorem terminal_not_replayed :
    (beforeLoad .completed).missed 1 = [⟨2, "end"⟩] ∧
    (loaded .completed).yielded = [.snapshot .completed] ∧
    ¬ Yields busOfEight (· == "end") 0 (loaded .completed) ((beforeLoad .completed).missed 1) := by
  have hmissed : (beforeLoad .completed).missed 1 = [⟨2, "end"⟩] := by decide +kernel
  have hyielded : (loaded .completed).yielded = [.snapshot .completed] := by decide +kernel
  refine ⟨hmissed, hyielded, not_yields ?_ ?_ ?_⟩
  · decide +kernel
  · rw [hyielded]
    rintro item hitem entry rfl
    exact nomatch List.mem_singleton.mp hitem
  · rw [hmissed]
    exact List.cons_ne_nil _ _

end SubscribeCall

end A2AKit
