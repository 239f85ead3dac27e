/-
The emitters of the server, one around the other.

Programs write and publish through an `EventEmitter`.  The server wraps `DefaultEventEmitter` into
`HookableEmitter`, `TracingEmitter` and `PushDeliveryEmitter`, each of which does something more
after a new state is stored.

* `Faithful.decorated` — a decorator keeps what the emitter it wraps does, and adds its own;
* `emitters_transparent` — a program gets the answers of the storage and of the bus, except that a
  state that was stored may be reported as an exception, and the hooks of every stored state are
  called once and in order, up to such an exception.
-/
import A2AKit.Interfaces
import A2AKit.Ladders
import A2AKit.PushConfigs

namespace A2AKit

/-- What a program asks of its emitter. -/
inductive EmitterOp : Type → Type
  | updateTask (taskId : TaskId) (args : UpdateArgs Ref) : EmitterOp (Except Exc Nat)
  | sendEvent (taskId : TaskId) (event : StreamEvent Ref) : EmitterOp (Except Exc Unit)

/-- A call of a lifecycle hook. -/
inductive HookCall
  | onStateChange (taskId : TaskId) (state : TaskState) (message : Option Message)
  | onWorking (taskId : TaskId)
  | onTurnEnd (taskId : TaskId) (state : TaskState) (message : Option Message)
  | onTerminal (taskId : TaskId) (state : TaskState) (message : Option Message)
  deriving DecidableEq, Repr

/-- What the emitters do; `callHook` makes the coroutine that `awaitHook` awaits. -/
inductive StackOp : Type → Type
  | storageUpdate (taskId : TaskId) (args : UpdateArgs Ref) : StackOp (Except Exc Nat)
  | busPublish (taskId : TaskId) (event : StreamEvent Ref) : StackOp (Except Exc Unit)
  | callHook (hook : HookCall) : StackOp (Except Exc Unit)
  | awaitHook (hook : HookCall) : StackOp (Except Exc Unit)
  | record (taskId : TaskId) (state : TaskState) : StackOp (Except Exc Unit)
  | loadTask (taskId : TaskId) : StackOp (Except Exc (Option Task))
  | getConfigsForDelivery (taskId : TaskId) :
      StackOp (Except Exc (List TaskPushNotificationConfig))
  | deliver (configs : List TaskPushNotificationConfig) (task : Task) : StackOp (Except Exc Unit)

abbrev StackM := Act StackOp Unit Exc

/-- The interface of the emitters. -/
structure EventEmitter where
  updateTask : TaskId → UpdateArgs Ref → StackM Nat
  sendEvent : TaskId → StreamEvent Ref → StackM Unit

/-- Which hooks are set. -/
structure LifecycleHooks where
  onStateChange : Bool := false
  onWorking : Bool := false
  onTurnEnd : Bool := false
  onTerminal : Bool := false

namespace EventEmitter

def ask {α : Type} (e : StackOp (Except Exc α)) : StackM α := do
  match ← Act.perform e with
  | .ok a => pure a
  | .error x => throw x

/-- `except Exception: logger.exception(…)` -/
def logged (x : Exc) : StackM Unit := if x.isException then pure () else throw x

/-- `DefaultEventEmitter` -/
def default : EventEmitter where
  updateTask taskId args := ask (.storageUpdate taskId args)
  sendEvent taskId event := tryCatchThe Exc (ask (.busPublish taskId event)) logged

/-- `_safe_call`; the coroutine is made before it is called. -/
def safeCall (hook : HookCall) : StackM Unit := do
  ask (.callHook hook)
  tryCatchThe Exc (ask (.awaitHook hook)) logged

/-- `TURN_END_STATES` -/
def isTurnEnd (state : TaskState) : Bool := state == .inputRequired || state == .authRequired

/-- What `HookableEmitter` does after a state is stored. -/
def fireHooks (hooks : LifecycleHooks) (taskId : TaskId) (state : TaskState)
    (message : Option Message) : StackM Unit := do
  (if hooks.onStateChange then safeCall (.onStateChange taskId state message) else pure ())
  (if state.isTerminal && hooks.onTerminal then safeCall (.onTerminal taskId state message)
  else if state == .working && hooks.onWorking then safeCall (.onWorking taskId)
  else if isTurnEnd state && hooks.onTurnEnd then safeCall (.onTurnEnd taskId state message)
  else pure ())

/-- What `PushDeliveryEmitter` does after a state is stored. -/
def triggerDelivery (taskId : TaskId) : StackM Unit :=
  tryCatchThe Exc (do
    match ← ask (.loadTask taskId) with
    | none => pure ()
    | some snapshot =>
      let configs ← ask (.getConfigsForDelivery taskId)
      if configs.isEmpty then pure () else ask (.deliver configs snapshot)) logged

/-- An emitter that does more after a new state is stored. -/
def decorated (inner : EventEmitter)
    (after : TaskId → TaskState → Option Message → StackM Unit) : EventEmitter where
  updateTask taskId args := do
    let result ← inner.updateTask taskId args
    match args.state with
    | none => pure result
    | some state =>
      after taskId state args.statusMessage
      pure result
  sendEvent := inner.sendEvent

/-- `HookableEmitter` -/
def hookable (inner : EventEmitter) (hooks : LifecycleHooks) : EventEmitter :=
  inner.decorated (fireHooks hooks)

/-- `TracingEmitter`; `record` is the event of the span with `_record_state_metric`. -/
def tracing (inner : EventEmitter) : EventEmitter :=
  inner.decorated fun taskId state _ => ask (.record taskId state)

/-- `PushDeliveryEmitter` -/
def pushDelivery (inner : EventEmitter) : EventEmitter :=
  inner.decorated fun taskId _ _ => triggerDelivery taskId

/-- The emitter that `lifespan` builds. -/
def ofServer (hooks : Option LifecycleHooks) (telemetry pushNotifications : Bool) : EventEmitter :=
  let emitter := match hooks with
    | some hooks => default.hookable hooks
    | none => default
  let emitter := if telemetry then emitter.tracing else emitter
  if pushNotifications then emitter.pushDelivery else emitter

/-- The operations of a program, as the emitter runs them. -/
def impl (emitter : EventEmitter) {β : Type} : EmitterOp β → Prog StackOp β
  | .updateTask taskId args => (emitter.updateTask taskId args).answer
  | .sendEvent taskId event => (emitter.sendEvent taskId event).answer

end EventEmitter

/-! ### What a run shows -/

/-- A hook that is called, or a transition that is recorded. -/
inductive Notice
  | hook (hook : HookCall)
  | recorded (taskId : TaskId) (state : TaskState)
  deriving DecidableEq, Repr

/-- The hooks for a stored state: `on_state_change`, and one for the kind of state. -/
def LifecycleHooks.fired (hooks : LifecycleHooks) (taskId : TaskId) (state : TaskState)
    (message : Option Message) : List HookCall :=
  (if hooks.onStateChange then [.onStateChange taskId state message] else []) ++
    if state.isTerminal && hooks.onTerminal then [.onTerminal taskId state message]
    else if state == .working && hooks.onWorking then [.onWorking taskId]
    else if EventEmitter.isTurnEnd state && hooks.onTurnEnd then [.onTurnEnd taskId state message]
    else []

/-- The notices that are due for a write that was stored. -/
def noticesOf (hooks : Option LifecycleHooks) (telemetry : Bool) (write : TaskId × UpdateArgs Ref) :
    List Notice :=
  match write.2.state with
  | none => []
  | some state =>
    ((hooks.toList.flatMap fun hooks => hooks.fired write.1 state write.2.statusMessage).map
      Notice.hook) ++ if telemetry then [.recorded write.1 state] else []

/-- A call of the storage's `update_task` or of the bus's `publish`. -/
def isCore : Asked StackOp → Bool
  | ⟨.storageUpdate _ _, _⟩ => true
  | ⟨.busPublish _ _, _⟩ => true
  | _ => false

/-- A write that was stored. -/
def storedWrite : Asked StackOp → Option (TaskId × UpdateArgs Ref)
  | ⟨.storageUpdate taskId args, .ok _⟩ => some (taskId, args)
  | _ => none

def noticed : Asked StackOp → Option Notice
  | ⟨.callHook hook, _⟩ => some (.hook hook)
  | ⟨.record taskId state, _⟩ => some (.recorded taskId state)
  | _ => none

def wasCancelled {α : Type} : Except Exc α → Bool
  | .error .cancelled => true
  | _ => false

/-- No cancellation arrives after the state is stored, no hook raises before it can be awaited, and
the instruments raise nothing. -/
def unhindered : Asked StackOp → Bool
  | ⟨.storageUpdate _ _, _⟩ => true
  | ⟨.busPublish _ _, _⟩ => true
  | ⟨.callHook _, r⟩ => r.toBool
  | ⟨.awaitHook _, r⟩ => !wasCancelled r
  | ⟨.record _ _, r⟩ => r.toBool
  | ⟨.loadTask _, r⟩ => !wasCancelled r
  | ⟨.getConfigsForDelivery _, r⟩ => !wasCancelled r
  | ⟨.deliver _ _, r⟩ => !wasCancelled r

/-- What `send_event` answers if the bus answers `r`. -/
def swallowed : Except Exc Unit → Except Exc Unit
  | .ok _ => .ok ()
  | .error x => if x.isException then .ok () else .error x

/-- What is done after a state is stored: no write and no event, but the notices `ns`, all of them
unless it raises. -/
structure AddsTo (ns : List Notice) (r : Except Exc Unit) (tr : List (Asked StackOp)) : Prop where
  core : tr.filter isCore = []
  started : tr.filterMap noticed <+: ns
  full : r = .ok () → tr.filterMap noticed = ns
  unhindered : (∀ q ∈ tr, unhindered q = true) → r = .ok ()

/-- A write, and what the emitter does for it: the storage refuses it, or it is stored, and what is
due for a new state follows, which may raise. -/
inductive UpdateTrace (due : List Notice) (taskId : TaskId) (args : UpdateArgs Ref) :
    Except Exc Nat → List (Asked StackOp) → Prop
  | refused (x : Exc) :
      UpdateTrace due taskId args (.error x) [⟨.storageUpdate taskId args, .error x⟩]
  | stored {version : Nat} {r : Except Exc Nat} {rest : List (Asked StackOp)} :
      (args.state.isSome = true ∧ r.toBool = false) ∨ r = .ok version →
      AddsTo due (r.map fun _ => ()) rest →
      UpdateTrace due taskId args r (⟨.storageUpdate taskId args, .ok version⟩ :: rest)

/-- A call of a program, with what the emitter does for it. -/
def CallTrace (due : TaskId × UpdateArgs Ref → List Notice) :
    Asked EmitterOp → List (Asked StackOp) → Prop
  | ⟨.updateTask taskId args, r⟩, tr => UpdateTrace (due (taskId, args)) taskId args r tr
  | ⟨.sendEvent taskId event, r⟩, tr => ∃ c, tr = [⟨.busPublish taskId event, c⟩] ∧ r = swallowed c

/-- What is done behind `except Exception`: no write, no event and no notice. -/
structure Unnoticed {α : Type} (r : Except Exc α) (tr : List (Asked StackOp)) : Prop where
  core : tr.filter isCore = []
  notices : tr.filterMap noticed = []
  calm : (∀ q ∈ tr, unhindered q = true) → r ≠ .error .cancelled

namespace EventEmitter

section

variable {α β : Type} {ns ns' : List Notice} {m n : StackM Unit}

theorem adds_pure : (pure () : StackM Unit).Answers (AddsTo []) := by
  refine (Act.answers_pure ()).mono ?_
  rintro r tr ⟨rfl, rfl⟩
  exact ⟨rfl, List.prefix_rfl, (fun _ => rfl), fun _ => rfl⟩

theorem answers_ask (e : StackOp (Except Exc α)) :
    (ask e).Answers fun r tr => tr = [⟨e, r⟩] := by
  refine (Act.answers_bind (Act.answers_perform e) (Q := fun r r' tr => r' = r ∧ tr = [])
    fun r => ?_).mono ?_
  · cases r with
    | ok a => exact Act.answers_pure a
    | error x => exact Act.answers_throw x
  · rintro r tr (⟨x, -, _, heq, -⟩ | ⟨a, _, _, rfl, ⟨_, heq, rfl⟩, rfl, rfl⟩)
    · exact nomatch heq
    · obtain rfl := Except.ok.inj heq
      rfl

/-- One thing after the other. -/
theorem adds_bind (hm : m.Answers (AddsTo ns)) (hn : n.Answers (AddsTo ns')) :
    (m >>= fun _ => n).Answers (AddsTo (ns ++ ns')) := by
  refine (Act.answers_bind hm fun _ => hn).mono ?_
  rintro r tr (⟨x, rfl, h⟩ | ⟨_, tr₁, tr₂, rfl, h₁, h₂⟩)
  · exact ⟨h.core, h.started.trans (List.prefix_append _ _), (fun heq => nomatch heq),
      fun hq => nomatch h.unhindered hq⟩
  · have hfull := h₁.full rfl
    refine ⟨?_, ?_, fun heq => ?_, fun hq => h₂.unhindered fun q h =>
      hq q (List.mem_append_right _ h)⟩
    · rw [List.filter_append, h₁.core, h₂.core, List.append_nil]
    · rw [List.filterMap_append, hfull]
      exact (List.prefix_append_right_inj ns).mpr h₂.started
    · rw [List.filterMap_append, hfull, h₂.full heq]

theorem unnoticed_pure (a : α) : (pure a : StackM α).Answers Unnoticed := by
  refine (Act.answers_pure a).mono ?_
  rintro r tr ⟨rfl, rfl⟩
  exact ⟨rfl, rfl, fun _ heq => nomatch heq⟩

theorem unnoticed_ask {e : StackOp (Except Exc α)} (hcore : ∀ r, isCore ⟨e, r⟩ = false)
    (hnotice : ∀ r, noticed ⟨e, r⟩ = none) (hcalm : ∀ r, unhindered ⟨e, r⟩ = !wasCancelled r) :
    (ask e).Answers Unnoticed := by
  refine (answers_ask e).mono ?_
  rintro r tr rfl
  refine ⟨by simp [hcore], by simp [hnotice], fun hq heq => ?_⟩
  have hnot := hq _ List.mem_cons_self
  rw [hcalm, heq] at hnot
  exact nomatch hnot

theorem unnoticed_bind {m : StackM α} {f : α → StackM β} (hm : m.Answers Unnoticed)
    (hf : ∀ a, (f a).Answers Unnoticed) : (m >>= f).Answers Unnoticed := by
  refine (Act.answers_bind hm hf).mono ?_
  rintro r tr (⟨x, rfl, h⟩ | ⟨a, tr₁, tr₂, rfl, h₁, h₂⟩)
  · exact ⟨h.core, h.notices, fun hq heq => h.calm hq (congrArg _ (Except.error.inj heq))⟩
  · refine ⟨?_, ?_, fun hq => h₂.calm fun q h => hq q (List.mem_append_right _ h)⟩
    · rw [List.filter_append, h₁.core, h₂.core, List.append_nil]
    · rw [List.filterMap_append, h₁.notices, h₂.notices, List.append_nil]

/-- What is caught is no longer raised. -/
theorem adds_logged (hm : m.Answers Unnoticed) :
    (tryCatchThe Exc m logged).Answers (AddsTo []) := by
  refine (Act.answers_tryCatch hm (Q := fun x r tr => tr = [] ∧ (x ≠ .cancelled → r = .ok ()))
    fun x => ?_).mono ?_
  · rw [logged]
    split
    · exact (Act.answers_pure ()).mono fun r tr h => ⟨h.2, fun _ => h.1⟩
    · rename_i hx
      refine (Act.answers_throw x).mono fun r tr h => ⟨h.2, fun hne => absurd ?_ hx⟩
      cases x with
      | cancelled => exact absurd rfl hne
      | _ => rfl
  · rintro r tr (⟨a, rfl, h⟩ | ⟨x, tr₁, _, rfl, h, rfl, hr⟩)
    · exact ⟨h.core, by rw [h.notices], (fun _ => h.notices), fun _ => rfl⟩
    · rw [List.append_nil]
      exact ⟨h.core, by rw [h.notices], (fun _ => h.notices),
        fun hq => hr fun heq => h.calm hq (congrArg Except.error heq)⟩

theorem adds_callHook (hook : HookCall) :
    (ask (.callHook hook)).Answers (AddsTo [.hook hook]) := by
  refine (answers_ask _).mono ?_
  rintro r tr rfl
  refine ⟨rfl, List.prefix_rfl, (fun _ => rfl), fun hq => ?_⟩
  have hok : r.toBool = true := hq _ List.mem_cons_self
  cases r with
  | ok _ => rfl
  | error x => exact nomatch hok

theorem adds_record (taskId : TaskId) (state : TaskState) :
    (ask (.record taskId state)).Answers (AddsTo [.recorded taskId state]) := by
  refine (answers_ask _).mono ?_
  rintro r tr rfl
  refine ⟨rfl, List.prefix_rfl, (fun _ => rfl), fun hq => ?_⟩
  have hok : r.toBool = true := hq _ List.mem_cons_self
  cases r with
  | ok _ => rfl
  | error x => exact nomatch hok

theorem adds_safeCall (hook : HookCall) : (safeCall hook).Answers (AddsTo [.hook hook]) := by
  have hawait : (ask (.awaitHook hook)).Answers Unnoticed :=
    unnoticed_ask (fun _ => rfl) (fun _ => rfl) fun _ => rfl
  exact adds_bind (adds_callHook hook) (adds_logged hawait)

theorem adds_ite {c : Bool} {ns ns' : List Notice} {m n : StackM Unit}
    (hm : m.Answers (AddsTo ns)) (hn : n.Answers (AddsTo ns')) :
    (if c then m else n).Answers (AddsTo (if c then ns else ns')) := by
  cases c with
  | true => exact hm
  | false => exact hn

theorem adds_fireHooks (hooks : LifecycleHooks) (taskId : TaskId) (state : TaskState)
    (message : Option Message) : (fireHooks hooks taskId state message).Answers
      (AddsTo ((hooks.fired taskId state message).map .hook)) := by
  have hfired : (hooks.fired taskId state message).map Notice.hook =
      (if hooks.onStateChange then [.hook (.onStateChange taskId state message)] else []) ++
        (if state.isTerminal && hooks.onTerminal then [.hook (.onTerminal taskId state message)]
        else if state == .working && hooks.onWorking then [.hook (.onWorking taskId)]
        else if isTurnEnd state && hooks.onTurnEnd then [.hook (.onTurnEnd taskId state message)]
        else []) := by
    rw [LifecycleHooks.fired, List.map_append]
    congr 1
    all_goals split_ifs <;> rfl
  rw [hfired]
  exact adds_bind (adds_ite (adds_safeCall _) adds_pure)
    (adds_ite (adds_safeCall _) (adds_ite (adds_safeCall _) (adds_ite (adds_safeCall _) adds_pure)))

theorem adds_triggerDelivery (taskId : TaskId) :
    (triggerDelivery taskId).Answers (AddsTo []) := by
  refine adds_logged (unnoticed_bind (unnoticed_ask (fun _ => rfl) (fun _ => rfl) fun _ => rfl)
    fun task => ?_)
  cases task with
  | none => exact unnoticed_pure ()
  | some snapshot =>
    refine unnoticed_bind (unnoticed_ask (fun _ => rfl) (fun _ => rfl) fun _ => rfl)
      fun configs => ?_
    split
    · exact unnoticed_pure ()
    · exact unnoticed_ask (fun _ => rfl) (fun _ => rfl) fun _ => rfl

end

/-! ### Decorators -/

/-- The emitter writes and publishes what it is asked to, and gives the notices `due`. -/
structure Faithful (due : TaskId × UpdateArgs Ref → List Notice) (emitter : EventEmitter) :
    Prop where
  update : ∀ taskId args, (emitter.updateTask taskId args).Answers fun r tr =>
    UpdateTrace (due (taskId, args)) taskId args r tr
  send : ∀ taskId event, (emitter.sendEvent taskId event).Answers fun r tr =>
    ∃ c, tr = [⟨.busPublish taskId event, c⟩] ∧ r = swallowed c

theorem faithful_default : Faithful (fun _ => []) default where
  update taskId args := by
    refine (answers_ask _).mono ?_
    rintro r tr rfl
    cases r with
    | error x => exact .refused x
    | ok v =>
      exact .stored (Or.inr rfl) ⟨rfl, List.prefix_rfl, (fun _ => rfl), fun _ => rfl⟩
  send taskId event := by
    refine (Act.answers_tryCatch (answers_ask _)
      (Q := fun x r tr => tr = [] ∧ r = swallowed (.error x)) fun x => ?_).mono ?_
    · rw [logged, swallowed]
      split
      · exact (Act.answers_pure ()).mono fun r tr h => ⟨h.2, h.1⟩
      · exact (Act.answers_throw x).mono fun r tr h => ⟨h.2, h.1⟩
    · rintro r tr (⟨a, rfl, rfl⟩ | ⟨x, _, _, rfl, rfl, rfl, rfl⟩)
      · exact ⟨.ok a, rfl, rfl⟩
      · exact ⟨.error x, rfl, rfl⟩

/-- What a decorator does when the emitter that it wraps has returned. -/
theorem answers_after {after : TaskId → TaskState → Option Message → StackM Unit}
    {added : TaskId → TaskState → Option Message → List Notice}
    (hafter : ∀ taskId state message,
      (after taskId state message).Answers (AddsTo (added taskId state message)))
    (taskId : TaskId) (args : UpdateArgs Ref) (result : Nat) :
    (match args.state with
      | none => pure result
      | some state => do
        after taskId state args.statusMessage
        pure result : StackM Nat).Answers fun r tr =>
      ((args.state.isSome = true ∧ r.toBool = false) ∨ r = .ok result) ∧
        AddsTo (args.state.toList.flatMap fun state => added taskId state args.statusMessage)
          (r.map fun _ => ()) tr := by
  cases args.state with
  | none =>
    refine (Act.answers_pure result).mono ?_
    rintro r tr ⟨rfl, rfl⟩
    exact ⟨Or.inr rfl, rfl, List.prefix_rfl, (fun _ => rfl), fun _ => rfl⟩
  | some state =>
    refine (Act.answers_bind (hafter taskId state args.statusMessage)
      fun _ => Act.answers_pure result).mono ?_
    rw [Option.toList_some, List.flatMap_singleton]
    rintro r tr (⟨x, rfl, h⟩ | ⟨_, tr₁, _, rfl, h, rfl, rfl⟩)
    · exact ⟨Or.inl ⟨rfl, rfl⟩, h⟩
    · rw [List.append_nil]
      exact ⟨Or.inr rfl, h⟩

/-- A decorator adds its notices behind those of the emitter it wraps. -/
theorem Faithful.decorated {due : TaskId × UpdateArgs Ref → List Notice} {emitter : EventEmitter}
    (h : Faithful due emitter) {after : TaskId → TaskState → Option Message → StackM Unit}
    {added : TaskId → TaskState → Option Message → List Notice}
    (hafter : ∀ taskId state message,
      (after taskId state message).Answers (AddsTo (added taskId state message))) :
    Faithful (fun write => due write ++ (write.2.state.toList.flatMap fun state =>
      added write.1 state write.2.statusMessage)) (emitter.decorated after) where
  send := h.send
  update taskId args := by
    refine (Act.answers_bind (h.update taskId args) (answers_after hafter taskId args)).mono ?_
    rintro r tr (⟨x, rfl, hcall⟩ | ⟨v, _, tr₂, rfl, hcall, hend, hadds⟩)
    · cases hcall with
      | refused => exact .refused x
      | stored hend hadds =>
        exact .stored (hend.imp_right fun heq => nomatch heq) ⟨hadds.core,
          hadds.started.trans (List.prefix_append _ _), (fun heq => nomatch heq),
          fun hq => nomatch hadds.unhindered hq⟩
    · -- the wrapped emitter has returned, so its notices are complete
      cases hcall with
      | @stored _ _ rest hreturned hwrapped =>
        obtain rfl := Except.ok.inj (hreturned.resolve_left fun hlate => nomatch hlate.2)
        have hfull := hwrapped.full rfl
        refine .stored hend ⟨?_, ?_, fun heq => ?_, fun hq => ?_⟩
        · show (rest ++ tr₂).filter isCore = []
          rw [List.filter_append, hwrapped.core, hadds.core, List.append_nil]
        · show (rest ++ tr₂).filterMap noticed <+: _
          rw [List.filterMap_append, hfull]
          exact (List.prefix_append_right_inj _).mpr hadds.started
        · show (rest ++ tr₂).filterMap noticed = _
          rw [List.filterMap_append, hfull, hadds.full heq]
        · exact hadds.unhindered fun q h => hq q (List.mem_append_right _ h)

theorem Faithful.congr {due due' : TaskId × UpdateArgs Ref → List Notice} {emitter : EventEmitter}
    (h : Faithful due emitter) (heq : ∀ write, due' write = due write) : Faithful due' emitter := by
  obtain rfl := funext heq
  exact h

theorem faithful_none : Faithful (noticesOf none false) default := by
  refine faithful_default.congr fun write => ?_
  rw [noticesOf]
  split <;> rfl

theorem faithful_hookable (hooks : LifecycleHooks) :
    Faithful (noticesOf (some hooks) false) (default.hookable hooks) := by
  refine (faithful_default.decorated (adds_fireHooks hooks)).congr fun write => ?_
  rw [noticesOf]
  split <;> rename_i hstate <;> simp [hstate]

theorem faithful_tracing {hooks : Option LifecycleHooks} {emitter : EventEmitter}
    (h : Faithful (noticesOf hooks false) emitter) :
    Faithful (noticesOf hooks true) emitter.tracing := by
  refine (h.decorated fun taskId state _ => adds_record taskId state).congr fun write => ?_
  rw [noticesOf, noticesOf]
  split <;> rename_i hstate <;> simp [hstate]

theorem Faithful.pushDelivery {due : TaskId × UpdateArgs Ref → List Notice}
    {emitter : EventEmitter} (h : Faithful due emitter) : Faithful due emitter.pushDelivery := by
  refine (h.decorated fun taskId _ _ => adds_triggerDelivery taskId).congr fun write => ?_
  cases write.2.state <;> simp

theorem faithful_ofServer (hooks : Option LifecycleHooks) (telemetry pushNotifications : Bool) :
    Faithful (noticesOf hooks telemetry) (ofServer hooks telemetry pushNotifications) := by
  have htelemetry : ∀ {emitter}, Faithful (noticesOf hooks false) emitter →
      Faithful (noticesOf hooks telemetry) (if telemetry then emitter.tracing else emitter) := by
    intro emitter h
    cases telemetry with
    | false => exact h
    | true => exact faithful_tracing h
  have hpush : ∀ {emitter}, Faithful (noticesOf hooks telemetry) emitter →
      Faithful (noticesOf hooks telemetry)
        (if pushNotifications then emitter.pushDelivery else emitter) := by
    intro emitter h
    cases pushNotifications with
    | false => exact h
    | true => exact h.pushDelivery
  cases hooks with
  | none => exact hpush (htelemetry faithful_none)
  | some hooks => exact hpush (htelemetry (faithful_hookable hooks))

/-! ### Programs -/

theorem traces_ask {α : Type} (e : StackOp (Except Exc α)) (r : Except Exc α) :
    Prog.Traces (ask e).answer [⟨e, r⟩] r := by
  refine .op e _ r ?_
  cases r with
  | ok a => exact .ret _
  | error x => exact .ret _

theorem Faithful.callTrace {due : TaskId × UpdateArgs Ref → List Notice} {emitter : EventEmitter}
    (h : Faithful due emitter) {q : Asked EmitterOp} {tr : List (Asked StackOp)}
    (htr : Prog.Traces (emitter.impl q.op) tr q.answer) : CallTrace due q tr := by
  obtain ⟨op, r⟩ := q
  cases op with
  | updateTask taskId args => exact (h.update taskId args).traces htr
  | sendEvent taskId event => exact (h.send taskId event).traces htr

section

variable {due : TaskId × UpdateArgs Ref → List Notice}

/-- A call in which nothing comes in between. -/
theorem unhindered_call {q : Asked EmitterOp} {tr : List (Asked StackOp)}
    (h : CallTrace due q tr) (hq : ∀ q ∈ tr, unhindered q = true) :
    ∃ c, tr.filter isCore = [c] ∧ Prog.Traces (default.impl q.op) [c] q.answer ∧
      tr.filterMap noticed = (storedWrite c).toList.flatMap due := by
  obtain ⟨op, r⟩ := q
  cases op with
  | updateTask taskId args =>
    have h : UpdateTrace (due (taskId, args)) taskId args r tr := h
    cases h with
    | refused x => exact ⟨_, rfl, traces_ask _ _, rfl⟩
    | @stored version _ rest hend hadds =>
      have hok := hadds.unhindered fun q hmem => hq q (List.mem_cons_of_mem _ hmem)
      obtain rfl : r = .ok version := by
        refine hend.resolve_left fun hlate => ?_
        cases r with
        | ok _ => exact nomatch hlate.2
        | error x => exact nomatch hok
      refine ⟨⟨.storageUpdate taskId args, .ok version⟩, ?_, traces_ask _ _, ?_⟩
      · rw [List.filter_cons_of_pos rfl, hadds.core]
      · exact (hadds.full rfl).trans (List.append_nil _).symm
  | sendEvent taskId event =>
    obtain ⟨c, rfl, rfl⟩ := h
    refine ⟨_, rfl, .op _ _ c ?_, rfl⟩
    cases c with
    | ok _ => exact .ret _
    | error x => cases x <;> exact .ret _

/-- Calls in which nothing comes in between are those of the bare emitter. -/
theorem unhindered_calls {calls : List (Asked EmitterOp)} {blocks : List (List (Asked StackOp))}
    (h : List.Forall₂ (CallTrace due) calls blocks)
    (hq : ∀ q ∈ blocks.flatten, unhindered q = true) :
    List.Forall₂ (fun q tr => Prog.Traces (default.impl q.op) tr q.answer) calls
        ((blocks.flatten.filter isCore).map fun c => [c]) ∧
      blocks.flatten.filterMap noticed =
        ((blocks.flatten.filter isCore).filterMap storedWrite).flatMap due := by
  induction h with
  | nil => exact ⟨.nil, rfl⟩
  | cons hcall _ ih =>
    obtain ⟨c, hcore, htrace, hnotices⟩ :=
      unhindered_call hcall fun q hmem => hq q (List.mem_append_left _ hmem)
    obtain ⟨htraces, hnoticed⟩ := ih fun q hmem => hq q (List.mem_append_right _ hmem)
    rw [List.flatten_cons, List.filter_append, hcore, List.filterMap_append, hnotices, hnoticed]
    refine ⟨.cons htrace htraces, ?_⟩
    cases hwrite : storedWrite c <;> simp [hwrite]

end

end EventEmitter

/-- **The emitters are transparent.**  A program runs on the emitter of a server, while hooks,
instruments, deliveries, storage and bus answer in any way.  What happens is made up of one piece
for each call of the program: the call of the storage or of the bus, whose answer the program gets,
and behind a new state that was stored its notices, in order and once, unless one of them is cut off
and the call raises.  If nothing comes in between, the program runs as on `DefaultEventEmitter`, and
all notices are given. -/
theorem emitters_transparent (hooks : Option LifecycleHooks) (telemetry pushNotifications : Bool)
    {α : Type} (p : Prog EmitterOp α) (tr : List (Asked StackOp)) (a : α)
    (htr : Prog.Traces (p.through (EventEmitter.ofServer hooks telemetry pushNotifications).impl)
      tr a) :
    (∃ calls blocks, Prog.Traces p calls a ∧ tr = blocks.flatten ∧
        List.Forall₂ (CallTrace (noticesOf hooks telemetry)) calls blocks) ∧
      ((∀ q ∈ tr, unhindered q = true) →
        Prog.Traces (p.through EventEmitter.default.impl) (tr.filter isCore) a ∧
          tr.filterMap noticed =
            ((tr.filter isCore).filterMap storedWrite).flatMap (noticesOf hooks telemetry)) := by
  have hfaithful := EventEmitter.faithful_ofServer hooks telemetry pushNotifications
  obtain ⟨calls, blocks, hp, htraces, rfl⟩ := Prog.traces_through.mp htr
  have hblocks : List.Forall₂ (CallTrace (noticesOf hooks telemetry)) calls blocks :=
    htraces.imp fun _ _ h => hfaithful.callTrace h
  refine ⟨⟨calls, blocks, hp, rfl, hblocks⟩, fun hq => ?_⟩
  obtain ⟨hbase, hnoticed⟩ := EventEmitter.unhindered_calls hblocks hq
  exact ⟨Prog.traces_through.mpr ⟨calls, _, hp, hbase, (List.flatMap_singleton' _).symm⟩, hnoticed⟩

/-- Everything works but the hooks, which raise when they are awaited. -/
def failingHooks : {β : Type} → StackOp β → β
  | _, .storageUpdate _ _ => .ok 2
  | _, .busPublish _ _ => .ok ()
  | _, .callHook _ => .ok ()
  | _, .awaitHook _ => .error (.runtime "hook")
  | _, .record _ _ => .ok ()
  | _, .loadTask _ => .ok none
  | _, .getConfigsForDelivery _ => .ok []
  | _, .deliver _ _ => .ok ()

/-- A worker sets its task to working, and answers with the version. -/
def startsWorking : Prog EmitterOp (Except Exc Nat) :=
  .op (.updateTask "t" { state := some .working }) .ret

/-- The hooks that are called raise, and the worker does not notice. -/
theorem failingHooks_transparent :
    let tr := ((startsWorking.through
      (EventEmitter.ofServer (some ⟨true, true, true, true⟩) true true).impl).asked failingHooks).1
    Prog.Traces (startsWorking.through EventEmitter.default.impl) (tr.filter isCore) (.ok 2) ∧
      tr.filterMap noticed = [.hook (.onStateChange "t" .working none), .hook (.onWorking "t"),
        .recorded "t" .working] := by
  intro tr
  have htransparent := (emitters_transparent (some ⟨true, true, true, true⟩) true true startsWorking
    tr _ (Prog.traces_asked failingHooks _)).2 (by decide)
  exact ⟨htransparent.1, htransparent.2⟩

end A2AKit
