/-
What a turn is put together from.

A turn reads the task, waits, writes with `update_task` and sends events; everything else is
sequence and exception handling.  `TurnParts P` says that the predicate `P` on programs is closed
under these constructs and holds of the parts.  All writes outside of `reply_directly` are plain
ones, which append messages only together with a new state and leave the mark of a direct reply
alone, and no other event is a direct reply; so `reply_directly` is a part of its own.

* `TurnParts.run` — a handler, for every tree of calls;
* `TurnParts.runTaskInner` — the whole turn.
-/
import A2AKit.Footprint

namespace A2AKit

/-- The write appends messages only together with a new state, and does not mark a reply. -/
structure UpdateArgs.Plain (args : UpdateArgs Ref) : Prop where
  unmarked : directReplyKey ∉ args.taskMetadata.entries
  messages : args.state = none → args.messages = []

def StreamEvent.isReply {α : Type} : StreamEvent α → Bool
  | .directReply _ => true
  | _ => false

/-- `P` holds of every program that is put together from the parts of a turn. -/
structure TurnParts (k : StorageKind) (P : {σ α : Type} → TaskM σ α → Prop) : Prop where
  pure : ∀ {σ α : Type} (a : α), P (Pure.pure a : TaskM σ α)
  throw : ∀ {σ α : Type} (x : Exc), P (MonadExcept.throw x : TaskM σ α)
  get : ∀ {σ : Type}, P (Act.get : TaskM σ σ)
  modify : ∀ {σ : Type} (f : σ → σ), P (Act.modify f : TaskM σ Unit)
  bind : ∀ {σ α β : Type} {m : TaskM σ α} {f : α → TaskM σ β}, P m → (∀ a, P (f a)) → P (m >>= f)
  tryCatch : ∀ {σ α : Type} {m : TaskM σ α} {f : Exc → TaskM σ α}, P m → (∀ x, P (f x)) →
    P (tryCatchThe Exc m f)
  ask : ∀ {σ α : Type} (e : Op α), e.local = true → P (Act.perform e : TaskM σ α)
  update : ∀ {σ : Type} (site : Site) (args : UpdateArgs Ref), args.Plain →
    P (Emitter.updateTask k site args : TaskM σ Nat)
  sendEvent : ∀ {σ : Type} (shielded : Bool) (event : StreamEvent Ref), event.isReply = false →
    P (Emitter.sendEvent shielded event : TaskM σ Unit)

/-- A write that passes no metadata. -/
theorem UpdateArgs.plain_of_empty {args : UpdateArgs Ref} (hmd : args.taskMetadata = {})
    (hmessages : args.state = none → args.messages = []) : args.Plain := by
  refine ⟨?_, hmessages⟩
  rw [hmd]
  exact AList.notMem_empty _

theorem UpdateArgs.Plain.pinned {args : UpdateArgs Ref} (h : args.Plain) (version : Option Nat) :
    UpdateArgs.Plain { args with expectedVersion := version } := ⟨h.unmarked, h.messages⟩

theorem endingArgs_plain (st : TaskState) (message : Message) (ws : List (ArtifactWrite Ref))
    (version : Option Nat) : (endingArgs st message ws version).Plain :=
  UpdateArgs.plain_of_empty rfl fun h => nomatch h

namespace TurnParts

variable {k : StorageKind} {taskId : TaskId} {contextId : Option ContextId}
  {P : {σ α : Type} → TaskM σ α → Prop} {σ α : Type}

theorem ite (_ : TurnParts k P) {c : Prop} [Decidable c] {m n : TaskM σ α}
    (hm : P m) (hn : P n) : P (if c then m else n) := by
  split
  · exact hm
  · exact hn

variable (hP : TurnParts k P)
include hP

theorem checkpoint (pt : AwaitPoint) : P (checkpoint pt : TaskM σ Unit) :=
  hP.bind (hP.ask _ rfl) fun _ => hP.ite (hP.throw _) (hP.pure ())

theorem storageCheckpoint : P (k.checkpoint : TaskM σ Unit) := by
  cases k with
  | memory => exact hP.pure ()
  | split b => exact hP.checkpoint .plain

theorem getVersion : P (getVersion k : TaskM σ _) :=
  hP.bind hP.storageCheckpoint fun _ => hP.ask _ rfl

theorem loadTask (site : Site) : P (loadTask k site : TaskM σ _) :=
  hP.bind hP.storageCheckpoint fun _ => hP.ask _ rfl

/-! ### The ladders -/

theorem artifactFallback (ws : List (ArtifactWrite Ref)) :
    P (artifactFallback k ws : TaskM σ Unit) := by
  refine hP.ite (hP.pure ()) (hP.tryCatch ?_ fun x => hP.ite (hP.pure ()) (hP.throw x))
  exact hP.bind (hP.update .fallback _ (UpdateArgs.plain_of_empty rfl fun _ => rfl))
    fun _ => hP.pure ()

theorem fallbackFalse (ws : List (ArtifactWrite Ref)) :
    P (do
      A2AKit.artifactFallback k ws
      Pure.pure false : TaskM σ Bool) :=
  hP.bind (hP.artifactFallback ws) fun _ => hP.pure false

/-- A write that ends the task. -/
theorem ending (site : Site) (st : TaskState) (message : Message) (ws : List (ArtifactWrite Ref))
    (version : Option Nat) :
    P (do
      let _ ← Emitter.updateTask k site (endingArgs st message ws version)
      Pure.pure true : TaskM σ Bool) :=
  hP.bind (hP.update site _ (endingArgs_plain st message ws version)) fun _ => hP.pure true

theorem reloadAndRetry (st : TaskState) (message : Message) (ws : List (ArtifactWrite Ref)) :
    P (reloadAndRetry k st message ws : TaskM σ Bool) := by
  refine hP.bind hP.getVersion fun version => hP.bind (hP.loadTask .retry) fun task => ?_
  rcases task with _ | task
  · exact hP.fallbackFalse ws
  refine hP.ite (hP.fallbackFalse ws) (hP.tryCatch (hP.ending .retry st message ws version) ?_)
  intro x
  split
  · exact hP.fallbackFalse ws
  · exact hP.fallbackFalse ws
  · exact hP.throw _

theorem announce (st : TaskState) (context : ContextId) (message : Message) (written : Bool) :
    P (announce taskId context st message written : TaskM σ Unit) :=
  hP.ite (hP.bind (hP.ask _ rfl) fun _ => hP.sendEvent false _ rfl) (hP.pure ())

theorem cancelTaskInStorage (reason : String) (ws : List (ArtifactWrite Ref)) :
    P (cancelTaskInStorage k taskId contextId reason ws : TaskM σ Unit) := by
  refine hP.bind hP.getVersion fun version => hP.bind (hP.loadTask .guarded) fun task => ?_
  rcases task with _ | task
  · exact hP.pure ()
  refine hP.ite (hP.pure ()) (hP.bind (hP.ask _ rfl) fun messageId => ?_)
  refine hP.bind (hP.tryCatch (hP.ending .guarded .canceled _ ws version) fun x => ?_)
    fun written => hP.announce .canceled _ _ written
  split
  · exact hP.reloadAndRetry .canceled _ ws
  · exact hP.reloadAndRetry .canceled _ ws
  · exact hP.throw _

theorem markFailed (reason : String) (ws : List (ArtifactWrite Ref)) :
    P (markFailed k taskId contextId reason ws : TaskM σ Unit) := by
  refine hP.bind (hP.ask _ rfl) fun messageId => hP.bind hP.getVersion fun version => ?_
  refine hP.bind (hP.tryCatch (hP.ending .guarded .failed _ ws version) fun x => ?_)
    fun written => hP.announce .failed _ _ written
  split
  · exact hP.fallbackFalse ws
  · exact hP.reloadAndRetry .failed _ ws
  · exact hP.throw _

/-! ### The calls of a handler -/

theorem makeAgentMessage (parts : List Part) :
    P (TaskContext.makeAgentMessage taskId contextId parts) :=
  hP.bind (hP.ask _ rfl) fun _ => hP.pure _

theorem freshVersion (currentVersion : Option Nat) :
    P (TaskContext.freshVersion k currentVersion) := by
  rw [TaskContext.freshVersion]
  split
  · exact hP.pure _
  · exact hP.getVersion

theorem versionedUpdate (batch : List (ArtifactWrite Ref)) {args : UpdateArgs Ref}
    (hargs : args.Plain) : P (TaskContext.versionedUpdate k taskId batch args) := by
  have hwrite : ∀ second version, P (do
      let newVersion ← Emitter.updateTask k (.turn batch second)
        { args with expectedVersion := version }
      TaskContext.setVersion (some newVersion) : TurnM Unit) := fun second version =>
    hP.bind (hP.update _ _ (hargs.pinned version)) fun _ => hP.modify _
  refine hP.bind hP.get fun ctx => hP.tryCatch (hwrite false ctx.version) fun x => ?_
  split
  · refine hP.bind (hP.loadTask .other) fun task => ?_
    rcases task with _ | task
    · exact hP.throw _
    · exact hP.ite (hP.throw _) (hP.bind (hP.freshVersion _) fun fresh => hwrite true fresh)
  · exact hP.throw _

theorem takePending : P TaskContext.takePending :=
  hP.bind hP.get fun _ => hP.bind (hP.modify _) fun _ => hP.pure _

theorem writeOrSkip (batch : List (ArtifactWrite Ref)) {args : UpdateArgs Ref}
    (hargs : args.Plain) :
    P (TaskContext.writeOrSkip k taskId batch args) := by
  refine hP.tryCatch (hP.bind (hP.versionedUpdate batch hargs) fun _ => hP.pure true) fun x => ?_
  split
  · refine hP.bind (hP.modify _) fun _ => ?_
    split
    · exact hP.bind (hP.modify _) fun _ => hP.pure false
    · exact hP.bind hP.getVersion fun _ => hP.bind (hP.modify _) fun _ => hP.pure false
  · exact hP.bind (hP.modify _) fun _ => hP.throw _

theorem touchFlush : P TaskContext.touchFlush :=
  hP.bind (hP.ask _ rfl) fun _ => hP.modify _

theorem maybeFlush : P (TaskContext.maybeFlush k taskId) := by
  have hflush : P (TaskContext.flushArtifacts k taskId) :=
    hP.bind hP.takePending fun batch =>
      hP.bind (hP.writeOrSkip batch (UpdateArgs.plain_of_empty rfl fun _ => rfl)) fun _ =>
        hP.ite hP.touchFlush (hP.pure ())
  refine hP.bind hP.get fun ctx => hP.ite (hP.pure ()) (hP.bind (hP.ask _ rfl) fun now => ?_)
  exact hP.ite hflush (hP.pure ())

theorem emitStatus (shielded : Bool) (state : TaskState) (message : Option Message) (final : Bool) :
    P (TaskContext.emitStatus taskId contextId shielded state message final) := by
  refine hP.bind (hP.ask _ rfl) fun timestamp => hP.sendEvent shielded _ ?_
  cases final <;> rfl

theorem sendStatus (message : Option String) :
    P (TaskContext.sendStatus k taskId contextId message) := by
  refine hP.bind hP.get fun ctx => hP.ite (hP.pure ()) ?_
  rcases message with _ | text
  · exact hP.emitStatus false _ _ _
  refine hP.bind (hP.makeAgentMessage _) fun statusMsg => hP.bind hP.takePending fun pending => ?_
  refine hP.bind (hP.writeOrSkip pending (UpdateArgs.plain_of_empty rfl fun _ => rfl)) fun _ => ?_
  exact hP.ite (hP.bind hP.touchFlush fun _ => hP.emitStatus false _ _ _) (hP.pure ())

theorem emitArtifact (a : EmitArgs) : P (TaskContext.emitArtifact k taskId contextId a) := by
  refine hP.bind hP.get fun ctx => hP.ite (hP.pure ()) (hP.ite (hP.throw _) ?_)
  refine hP.bind (hP.ask _ rfl) fun r => hP.bind (hP.sendEvent false _ rfl) fun _ => ?_
  exact hP.bind (hP.modify _) fun _ => hP.maybeFlush

theorem sendEvents {events : List (StreamEvent Ref)} (hevents : ∀ e ∈ events, e.isReply = false) :
    P (TaskContext.sendEvents events) := by
  induction events with
  | nil => exact hP.pure ()
  | cons e events ih =>
    exact hP.bind (hP.sendEvent true e (hevents e List.mem_cons_self)) fun _ =>
      ih fun e he => hevents e (List.mem_cons_of_mem _ he)

/-- A transition that is no direct reply. -/
theorem terminalTransition (state : TaskState) (message : Option Message)
    (artifacts : List (ArtifactWrite Ref)) {events : List (StreamEvent Ref)}
    (hevents : ∀ e ∈ events, e.isReply = false) :
    P (TaskContext.terminalTransition k taskId contextId state message artifacts {} events) := by
  refine hP.bind hP.get fun ctx => hP.ite (hP.throw _) (hP.bind hP.takePending fun pending => ?_)
  refine hP.bind (hP.tryCatch ?_ fun x => hP.bind (hP.modify _) fun _ => hP.throw x) fun _ => ?_
  · exact hP.versionedUpdate pending (UpdateArgs.plain_of_empty rfl fun h => nomatch h)
  · exact hP.bind (hP.modify _) fun _ => hP.bind (hP.sendEvents hevents) fun _ =>
      hP.emitStatus true _ _ _

theorem endWithMessage (state : TaskState) (parts : List Part) :
    P (TaskContext.endWithMessage k taskId contextId state parts) :=
  hP.bind (hP.makeAgentMessage parts) fun _ =>
    hP.terminalTransition state _ [] fun _ he => absurd he List.not_mem_nil

theorem completeWith (artifact : Artifact) :
    P (TaskContext.completeWith k taskId contextId artifact) := by
  refine hP.bind (hP.ask _ rfl) fun r => hP.terminalTransition .completed none _ fun e he => ?_
  obtain rfl := List.mem_singleton.mp he
  rfl

variable (hreply : ∀ text, P (TaskContext.replyDirectly k taskId contextId text))
include hreply

theorem runLifecycle (l : Lifecycle) : P (TaskContext.runLifecycle k taskId contextId l) := by
  cases l with
  | complete text artifactId =>
    rcases text with _ | text
    · exact hP.terminalTransition .completed none [] fun _ he => absurd he List.not_mem_nil
    · exact hP.completeWith _
  | completeJson data artifactId => exact hP.completeWith _
  | fail reason => exact hP.endWithMessage _ _
  | reject reason => exact hP.endWithMessage _ _
  | requestInput question => exact hP.endWithMessage _ _
  | requestAuth details authData => exact hP.endWithMessage _ _
  | respond text => exact hP.endWithMessage _ _
  | replyDirectly text => exact hreply text

theorem runCall (c : HandlerCall) : P (TaskContext.runCall k taskId contextId c) := by
  cases c with
  | emitArtifact a => exact hP.emitArtifact a
  | sendStatus message => exact hP.sendStatus message
  | lifecycle l => exact hP.runLifecycle hreply l
  | wait => exact hP.checkpoint .plain

/-- A handler, by induction on its calls. -/
theorem run (h : Handler) : P (TaskContext.run k taskId contextId h) := by
  induction h with
  | done r =>
    cases r with
    | ok u => exact hP.pure ()
    | error x => exact hP.throw x
  | call c next ih =>
    refine hP.bind (hP.tryCatch ?_ fun x => hP.pure _) ih
    exact hP.bind (hP.runCall hreply c) fun _ => hP.pure _

/-! ### The turn -/

omit hreply in
theorem cancelPending : P (WorkerAdapter.cancelPending k taskId contextId) :=
  hP.bind hP.takePending fun pending => hP.cancelTaskInStorage _ pending

theorem runGroup (h : Handler) :
    P (WorkerAdapter.runGroup k taskId contextId (TaskContext.run k taskId contextId h)) := by
  have hcancelled : ∀ {m : TurnM Unit}, P m → P (do
      if ← Act.perform .isCancelled then m else Pure.pure () : TurnM Unit) :=
    fun hm => hP.bind (hP.ask _ rfl) fun _ => hP.ite hm (hP.pure ())
  have hhandle : P (WorkerAdapter.handle k taskId contextId
      (TaskContext.run k taskId contextId h)) :=
    hP.bind (hP.run hreply h) fun _ => hP.bind hP.get fun _ => hP.ite (hP.pure ())
      (hP.bind (hP.ask _ rfl) fun _ => hP.ite (hP.pure ()) (hP.runLifecycle hreply _))
  refine hP.bind (hP.bind (hP.ask _ rfl) fun _ => hP.bind (hP.tryCatch hhandle fun x => ?_)
    fun _ => hP.ask _ rfl) fun _ => hcancelled (hP.bind hP.get fun _ =>
      hP.ite (hP.pure ()) hP.cancelPending)
  split
  · exact hP.pure ()
  · exact hP.bind (hP.ask _ rfl) fun _ => hP.throw _

omit hreply in
theorem recover (x : Exc) : P (WorkerAdapter.recover k taskId contextId x) := by
  rw [WorkerAdapter.recover.eq_def]
  split
  · exact hP.bind (hP.ask _ rfl) fun _ => hP.ite hP.cancelPending (hP.throw _)
  · exact hP.bind hP.takePending fun pending => hP.artifactFallback pending
  · exact hP.bind hP.get fun _ => hP.ite (hP.pure ())
      (hP.bind hP.takePending fun pending => hP.markFailed _ pending)

theorem runTurn (h : Handler) :
    P (WorkerAdapter.runTurn k taskId contextId (TaskContext.run k taskId contextId h)) := by
  have hearly : P (WorkerAdapter.cancelEarly k taskId contextId) := by
    refine hP.bind (hP.loadTask .other) fun task => ?_
    rcases task with _ | task
    · exact hP.cancelTaskInStorage _ []
    · exact hP.ite (hP.pure ()) (hP.cancelTaskInStorage _ [])
  refine hP.bind (hP.ask _ rfl) fun _ => hP.ite hearly (hP.bind (hP.tryCatch ?_ fun x => ?_) ?_)
  · exact hP.bind (hP.update .other _ (UpdateArgs.plain_of_empty rfl fun _ => rfl))
      fun v => hP.pure (some v)
  · split
    · exact hP.pure none
    · exact hP.pure none
    · exact hP.throw _
  · intro version
    rcases version with _ | v
    · exact hP.pure ()
    · exact hP.bind (hP.modify _) fun _ => hP.bind (hP.sendStatus none) fun _ =>
        hP.tryCatch (hP.runGroup hreply h) hP.recover

omit hreply in
theorem cleanup : P (WorkerAdapter.cleanup k) := by
  refine hP.bind (hP.tryCatch (hP.loadTask .other) fun x => hP.ite (hP.pure none) (hP.throw x))
    fun current => hP.bind ?_ fun _ => hP.ask _ rfl
  exact hP.ite (hP.ask _ rfl) (hP.pure ())

/-- `_run_task_inner` -/
theorem runTaskInner (h : Handler) :
    P (WorkerAdapter.runTaskInner k taskId contextId (TaskContext.run k taskId contextId h)) :=
  hP.bind (hP.tryCatch (hP.runTurn hreply h) fun x => hP.bind hP.cleanup fun _ => hP.throw x)
    fun _ => hP.cleanup

end TurnParts

end A2AKit
