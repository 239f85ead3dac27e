/-
Which operations the programs of a task perform.

Some facts about a program do not depend on the state of the task: a ladder never hands an
operation back to the broker, the only states it writes are the one it was called for, and
every artifact that is published is an object that the program has built before.
`Permits P states` describes a predicate on operations that such a fact is about, and every
program of the emitter, the ladders and the turn is shown to stay within it.
-/
import A2AKit.Discipline
import A2AKit.Knowledge
import Mathlib.Data.Set.BooleanAlgebra
import Mathlib.Order.CompletePartialOrder

namespace A2AKit

open Act (uses_pure uses_throw uses_get uses_modify uses_perform uses_bind uses_tryCatch
  uses_learn)

/-- The operation neither writes the task, nor publishes, nor talks to the broker. -/
def Op.local : {β : Type} → Op β → Bool
  | _, .update .. => false
  | _, .updateRead .. => false
  | _, .updateWrite .. => false
  | _, .publish _ => false
  | _, .dispatch => false
  | _, .ack _ => false
  | _, .nack _ => false
  | _, _ => true

/-- The artifact object that an answer hands over. -/
def Op.built : {β : Type} → Op β → β → Set Ref
  | _, .newArtifact _, r => {r}
  | _, _, _ => ∅

/-- What may be done with the artifact objects that were built so far. -/
def building (P : Set Ref → {β : Type} → Op β → Prop) : Knowledge Op (Set Ref) where
  admits := P
  learn built _ e b := built ∪ e.built b
  grows _ _ _ _ := Set.subset_union_left

/-- `m` keeps to `P`, knowing at least the objects `built`. -/
abbrev KeepsTo {σ α : Type} (P : Set Ref → {β : Type} → Op β → Prop) (built : Set Ref)
    (m : TaskM σ α) : Prop := Act.Uses (building P) built m

/-- Where it does not matter what was built. -/
theorem KeepsTo.only {σ α : Type} {P : {β : Type} → Op β → Prop} {m : TaskM σ α}
    (hm : KeepsTo (fun _ => P) ∅ m) : Act.Only P m :=
  Act.only_of_uses (fun _ _ _ h => h) hm

/-- `P` admits every local operation, every event whose artifact was built before, and every
write whose state is one of `states`. -/
structure Permits (P : Set Ref → {β : Type} → Op β → Prop) (states : TaskState → Prop) :
    Prop where
  quiet : ∀ {β : Type} built (e : Op β), e.local = true → P built e
  publish : ∀ built event, (∀ r ∈ refs event.writes, r ∈ built) → P built (.publish event)
  update : ∀ built site args, (∀ st, args.state = some st → states st) →
    P built (.update site args)
  read : ∀ built b site args, (∀ st, args.state = some st → states st) →
    P built (.updateRead b site args)
  write : ∀ built b site args attempt row values, (∀ st, args.state = some st → states st) →
    P built (.updateWrite b site args attempt row values)

namespace Permits

variable {P : Set Ref → {β : Type} → Op β → Prop} {states : TaskState → Prop} {σ : Type}
  {built : Set Ref} (hP : Permits P states) (k : StorageKind)
include hP

theorem perform {α : Type} {e : Op α} (he : e.local = true) :
    KeepsTo P built (Act.perform e : TaskM σ α) :=
  uses_perform fun _ _ => hP.quiet _ e he

theorem checkpoint (pt : AwaitPoint) : KeepsTo P built (checkpoint pt : TaskM σ Unit) := by
  refine uses_bind (hP.perform rfl) fun raised => ?_
  cases raised with
  | true => exact uses_throw _
  | false => exact uses_pure ()

theorem storageCheckpoint : KeepsTo P built (k.checkpoint : TaskM σ Unit) := by
  cases k with
  | memory => exact uses_pure ()
  | split b => exact hP.checkpoint .plain

theorem getVersion : KeepsTo P built (getVersion k : TaskM σ _) :=
  uses_bind (hP.storageCheckpoint k) fun _ => hP.perform rfl

theorem loadTask (site : Site) : KeepsTo P built (loadTask k site : TaskM σ _) :=
  uses_bind (hP.storageCheckpoint k) fun _ => hP.perform rfl

/-- The retry loop, by induction on the attempts that are left. -/
theorem updateLoop (b : SplitStorage) (site : Site) {args : UpdateArgs Ref}
    (hargs : ∀ st, args.state = some st → states st) (n attempt : Nat) :
    KeepsTo P built (updateLoop b site args n attempt : TaskM σ Nat) := by
  induction n generalizing attempt with
  | zero => exact uses_throw _
  | succ n ih =>
    refine uses_bind (hP.checkpoint .plain) fun _ => ?_
    refine uses_bind (uses_perform fun _ _ => hP.read _ b site args hargs) fun out => ?_
    rcases out with e | ⟨row, values⟩
    · exact uses_throw _
    refine uses_bind (hP.checkpoint _) fun _ => ?_
    refine uses_bind (uses_perform fun _ _ => hP.write _ b site args attempt row values hargs)
      fun out => ?_
    rcases out with row' | _ | e
    · exact uses_bind (hP.checkpoint _) fun _ => uses_pure _
    · exact ih (attempt + 1)
    · exact uses_throw _

theorem notify (site : Site) (args : UpdateArgs Ref) :
    KeepsTo P built (Emitter.notify site args : TaskM σ Unit) := by
  rw [Emitter.notify]
  split
  · exact uses_pure ()
  · refine uses_bind (hP.checkpoint _) fun _ => uses_bind (hP.checkpoint _) fun _ => ?_
    refine uses_bind (hP.checkpoint _) fun _ => uses_bind (hP.checkpoint _) fun _ => ?_
    exact hP.checkpoint _

/-- `update_task` of the emitter. -/
theorem emitterUpdate (site : Site) (args : UpdateArgs Ref)
    (hargs : ∀ st, args.state = some st → states st) :
    KeepsTo P built (Emitter.updateTask k site args : TaskM σ Nat) := by
  refine uses_bind ?_ fun v => uses_bind (hP.notify site args) fun _ => uses_pure v
  cases k with
  | split b => exact hP.updateLoop b site hargs _ _
  | memory =>
    refine uses_bind (uses_perform fun _ _ => hP.update _ site args hargs) fun out => ?_
    cases out with
    | error e => exact uses_throw _
    | ok v => exact uses_pure v

theorem sendEvent (shielded : Bool) {event : StreamEvent Ref}
    (hevent : ∀ r ∈ refs event.writes, r ∈ built) :
    KeepsTo P built (Emitter.sendEvent shielded event : TaskM σ Unit) := by
  refine uses_bind (uses_perform fun _ hb => hP.publish _ event fun r hr => hb (hevent r hr))
    fun id => ?_
  split
  · exact hP.perform rfl
  · refine uses_tryCatch (uses_bind (hP.checkpoint .plain) fun _ => hP.perform rfl) fun x => ?_
    exact uses_bind (hP.perform rfl) fun _ => uses_throw x

/-! ### The ladders -/

omit hP in
/-- `except Exception` around a program. -/
theorem orRaise (x : Exc) :
    KeepsTo P built (if x.isException then pure () else throw x : TaskM σ Unit) := by
  split
  · exact uses_pure ()
  · exact uses_throw x

theorem artifactFallback (ws : List (ArtifactWrite Ref)) :
    KeepsTo P built (artifactFallback k ws : TaskM σ Unit) := by
  rw [A2AKit.artifactFallback]
  split
  · exact uses_pure ()
  · refine uses_tryCatch ?_ fun x => orRaise x
    exact uses_bind (hP.emitterUpdate k .fallback { artifacts := ws } fun _ h => by cases h)
      fun _ => uses_pure ()

theorem fallbackFalse (ws : List (ArtifactWrite Ref)) :
    KeepsTo P built (do
      A2AKit.artifactFallback k ws
      pure false : TaskM σ Bool) :=
  uses_bind (hP.artifactFallback k ws) fun _ => uses_pure false

/-- A write that ends the task in `st`. -/
theorem ending (site : Site) {st : TaskState} (hst : states st) (message : Message)
    (ws : List (ArtifactWrite Ref)) (version : Option Nat) :
    KeepsTo P built (do
      let _ ← Emitter.updateTask k site (endingArgs st message ws version)
      pure true : TaskM σ Bool) := by
  refine uses_bind (hP.emitterUpdate k site _ fun st' hst' => ?_) fun _ => uses_pure true
  obtain rfl : st = st' := Option.some_inj.mp hst'
  exact hst

theorem reloadAndRetry {st : TaskState} (hst : states st) (message : Message)
    (ws : List (ArtifactWrite Ref)) :
    KeepsTo P built (reloadAndRetry k st message ws : TaskM σ Bool) := by
  refine uses_bind (hP.getVersion k) fun version => ?_
  refine uses_bind (hP.loadTask k .retry) fun task => ?_
  rcases task with _ | task
  · exact hP.fallbackFalse k ws
  dsimp only
  split
  · exact hP.fallbackFalse k ws
  refine uses_tryCatch (hP.ending k .retry hst message ws version) fun x => ?_
  split
  · exact hP.fallbackFalse k ws
  · exact hP.fallbackFalse k ws
  · exact uses_throw _

theorem announce (taskId : TaskId) (contextId : ContextId) (st : TaskState) (message : Message)
    (written : Bool) :
    KeepsTo P built (announce taskId contextId st message written : TaskM σ Unit) := by
  rw [A2AKit.announce]
  split
  · exact uses_bind (hP.perform rfl) fun _ => hP.sendEvent false fun _ h => nomatch h
  · exact uses_pure ()

theorem cancelTaskInStorage (hst : states .canceled) (taskId : TaskId)
    (contextId : Option ContextId) (reason : String) (ws : List (ArtifactWrite Ref)) :
    KeepsTo P built (cancelTaskInStorage k taskId contextId reason ws : TaskM σ Unit) := by
  refine uses_bind (hP.getVersion k) fun version => ?_
  refine uses_bind (hP.loadTask k .guarded) fun task => ?_
  rcases task with _ | task
  · exact uses_pure ()
  dsimp only
  split
  · exact uses_pure ()
  refine uses_bind (hP.perform rfl) fun messageId => ?_
  refine uses_bind (uses_tryCatch (hP.ending k .guarded hst _ ws version) fun x => ?_)
    fun written => hP.announce taskId _ .canceled _ written
  split
  · exact hP.reloadAndRetry k hst _ ws
  · exact hP.reloadAndRetry k hst _ ws
  · exact uses_throw _

theorem markFailed (hst : states .failed) (taskId : TaskId) (contextId : Option ContextId)
    (reason : String) (ws : List (ArtifactWrite Ref)) :
    KeepsTo P built (markFailed k taskId contextId reason ws : TaskM σ Unit) := by
  refine uses_bind (hP.perform rfl) fun messageId => ?_
  refine uses_bind (hP.getVersion k) fun version => ?_
  refine uses_bind (uses_tryCatch (hP.ending k .guarded hst _ ws version) fun x => ?_)
    fun written => hP.announce taskId _ .failed _ written
  split
  · exact hP.fallbackFalse k ws
  · exact hP.reloadAndRetry k hst _ ws
  · exact uses_throw _

theorem markFailedThenAck (hack : ∀ built, P built (.ack true)) (hst : states .failed)
    (taskId : TaskId) (contextId : Option ContextId) (reason : String) :
    KeepsTo P built (markFailedThenAck k taskId contextId reason : TaskM σ Unit) := by
  refine uses_bind (uses_tryCatch (hP.markFailed k hst taskId contextId reason []) fun x => ?_)
    fun _ => uses_bind (uses_perform fun _ _ => hack _) fun _ => uses_pure ()
  split
  · exact uses_pure ()
  · exact uses_bind (uses_perform fun _ _ => hack _) fun _ => uses_throw x

theorem handleOpInner (hdispatch : ∀ built, P built .dispatch)
    (hack : ∀ built last, P built (.ack last)) (hst : states .failed) (taskId : TaskId)
    (contextId : Option ContextId) {attempt maxRetries : Nat}
    (hnack : attempt < maxRetries → ∀ built delay, P built (.nack delay)) :
    KeepsTo P built (handleOpInner k taskId contextId attempt maxRetries : TaskM σ Unit) := by
  have hfail : ∀ reason,
      KeepsTo P built (A2AKit.markFailedThenAck k taskId contextId reason : TaskM σ Unit) :=
    hP.markFailedThenAck k (fun built => hack built true) hst taskId contextId
  have hfailed :
      KeepsTo P built (handleFailedOp k taskId contextId attempt maxRetries : TaskM σ Unit) := by
    rw [handleFailedOp]
    split
    · rename_i hleft
      refine uses_bind (uses_perform fun _ _ => hnack hleft _ _) fun raised => ?_
      split
      · exact hfail _
      · exact uses_pure ()
    · exact hfail _
  rw [A2AKit.handleOpInner]
  split
  · exact hfail _
  refine uses_bind (uses_perform fun _ _ => hdispatch _) fun raised => ?_
  split
  · exact hfailed
  refine uses_bind (uses_perform fun _ _ => hack _ false) fun raised => ?_
  split
  · exact hfailed
  · exact uses_pure ()

theorem forceCancelAfter (hst : states .canceled) (taskId : TaskId) :
    KeepsTo P built (forceCancelAfter k taskId : TaskM σ Unit) := by
  refine uses_tryCatch (uses_bind (hP.loadTask k .other) fun task => ?_) fun x => orRaise x
  rcases task with _ | task
  · exact uses_pure ()
  refine uses_bind ?_ fun _ => uses_bind (hP.perform rfl) fun _ => hP.perform rfl
  rw [forceCancel]
  split
  · exact uses_pure ()
  · exact hP.cancelTaskInStorage k hst taskId _ _ []

/-! ### The turn -/

section Turn

variable (hst : ∀ st, st ≠ .submitted → states st) (taskId : TaskId) (contextId : Option ContextId)

theorem makeAgentMessage (parts : List Part) :
    KeepsTo P built (TaskContext.makeAgentMessage taskId contextId parts) :=
  uses_bind (hP.perform rfl) fun _ => uses_pure _

theorem freshVersion (currentVersion : Option Nat) :
    KeepsTo P built (TaskContext.freshVersion k currentVersion) := by
  rw [TaskContext.freshVersion]
  split
  · exact uses_pure _
  · exact hP.getVersion k

theorem versionedUpdate (batch : List (ArtifactWrite Ref)) {args : UpdateArgs Ref}
    (hargs : ∀ st, args.state = some st → states st) :
    KeepsTo P built (TaskContext.versionedUpdate k taskId batch args) := by
  refine uses_bind uses_get fun ctx => uses_tryCatch ?_ fun x => ?_
  · exact uses_bind (hP.emitterUpdate k _ _ hargs) fun _ => uses_modify _
  split
  · refine uses_bind (hP.loadTask k .other) fun task => ?_
    rcases task with _ | task
    · exact uses_throw _
    dsimp only
    split
    · exact uses_throw _
    · refine uses_bind (hP.freshVersion k _) fun fresh => ?_
      exact uses_bind (hP.emitterUpdate k _ _ hargs) fun _ => uses_modify _
  · exact uses_throw _

omit hP in
theorem takePending : KeepsTo P built TaskContext.takePending :=
  uses_bind uses_get fun _ => uses_bind (uses_modify _) fun _ => uses_pure _

theorem writeOrSkip (batch : List (ArtifactWrite Ref)) {args : UpdateArgs Ref}
    (hargs : ∀ st, args.state = some st → states st) :
    KeepsTo P built (TaskContext.writeOrSkip k taskId batch args) := by
  refine uses_tryCatch (uses_bind (hP.versionedUpdate k taskId batch hargs) fun _ => uses_pure true)
    fun x => ?_
  split
  · refine uses_bind (uses_modify _) fun _ => ?_
    split
    · exact uses_bind (uses_modify _) fun _ => uses_pure false
    · exact uses_bind (hP.getVersion k) fun _ => uses_bind (uses_modify _) fun _ => uses_pure false
  · exact uses_bind (uses_modify _) fun _ => uses_throw _

theorem touchFlush : KeepsTo P built TaskContext.touchFlush :=
  uses_bind (hP.perform rfl) fun _ => uses_modify _

theorem flushArtifacts : KeepsTo P built (TaskContext.flushArtifacts k taskId) := by
  refine uses_bind takePending fun batch => ?_
  refine uses_bind (hP.writeOrSkip k taskId batch fun _ h => by cases h) fun written => ?_
  cases written with
  | true => exact hP.touchFlush
  | false => exact uses_pure ()

theorem maybeFlush : KeepsTo P built (TaskContext.maybeFlush k taskId) := by
  refine uses_bind uses_get fun ctx => ?_
  split
  · exact uses_pure ()
  · refine uses_bind (hP.perform rfl) fun now => ?_
    split
    · exact hP.flushArtifacts k taskId
    · exact uses_pure ()

theorem emitStatus (shielded : Bool) (state : TaskState) (message : Option Message) (final : Bool) :
    KeepsTo P built (TaskContext.emitStatus taskId contextId shielded state message final) := by
  refine uses_bind (hP.perform rfl) fun timestamp => hP.sendEvent shielded ?_
  cases final with
  | true => exact fun _ h => nomatch h
  | false => exact fun _ h => nomatch h

theorem sendEvents {events : List (StreamEvent Ref)}
    (hevents : ∀ event ∈ events, ∀ r ∈ refs event.writes, r ∈ built) :
    KeepsTo P built (TaskContext.sendEvents events) := by
  induction events with
  | nil => exact uses_pure ()
  | cons event events ih =>
    refine uses_bind (hP.sendEvent true (hevents event List.mem_cons_self)) fun _ => ?_
    exact ih fun event hmem => hevents event (List.mem_cons_of_mem _ hmem)

theorem sendStatus (message : Option String) :
    KeepsTo P built (TaskContext.sendStatus k taskId contextId message) := by
  refine uses_bind uses_get fun ctx => ?_
  split
  · exact uses_pure ()
  rcases message with _ | text
  · exact hP.emitStatus taskId contextId false _ _ _
  refine uses_bind (hP.makeAgentMessage taskId contextId _) fun statusMsg => ?_
  refine uses_bind takePending fun pending => ?_
  refine uses_bind (hP.writeOrSkip k taskId pending fun _ h => by cases h) fun written => ?_
  cases written with
  | true =>
    exact uses_bind hP.touchFlush fun _ => hP.emitStatus taskId contextId false _ _ _
  | false => exact uses_pure ()

/-- What follows the building of an artifact may use it. -/
theorem newArtifact {α : Type} (artifact : Artifact) {f : Ref → TaskM σ α}
    (hf : ∀ r built, r ∈ built → KeepsTo P built (f r)) :
    KeepsTo P built (Act.perform (.newArtifact artifact) >>= f) :=
  uses_learn (fun _ _ => hP.quiet _ _ rfl) fun r _ _ => hf r _ (Or.inr rfl)

theorem emitArtifact (a : EmitArgs) :
    KeepsTo P built (TaskContext.emitArtifact k taskId contextId a) := by
  refine uses_bind uses_get fun ctx => ?_
  split
  · exact uses_pure ()
  split
  · exact uses_throw _
  · refine hP.newArtifact a.artifact fun r built hr => ?_
    refine uses_bind (hP.sendEvent false ?_) fun _ => ?_
    · intro q hq
      obtain rfl := List.mem_singleton.mp hq
      exact hr
    · exact uses_bind (uses_modify _) fun _ => hP.maybeFlush k taskId

theorem terminalTransition {state : TaskState} (hstate : states state) (message : Option Message)
    (artifacts : List (ArtifactWrite Ref)) (taskMetadata : TaskMetadata)
    {preEvents : List (StreamEvent Ref)}
    (hevents : ∀ event ∈ preEvents, ∀ r ∈ refs event.writes, r ∈ built) :
    KeepsTo P built (TaskContext.terminalTransition k taskId contextId state message artifacts
      taskMetadata preEvents) := by
  refine uses_bind uses_get fun ctx => ?_
  split
  · exact uses_throw _
  refine uses_bind takePending fun pending => uses_bind (uses_tryCatch ?_ fun x => ?_) fun _ => ?_
  · refine hP.versionedUpdate k taskId pending fun st h => ?_
    obtain rfl := Option.some_inj.mp h
    exact hstate
  · exact uses_bind (uses_modify _) fun _ => uses_throw x
  · refine uses_bind (uses_modify _) fun _ => uses_bind (hP.sendEvents hevents) fun _ => ?_
    exact hP.emitStatus taskId contextId true _ _ _

/-- A transition that publishes nothing but its end. -/
theorem transition_plain {state : TaskState} (hstate : states state) (message : Option Message) :
    KeepsTo P built
      (TaskContext.terminalTransition k taskId contextId state message [] {} []) :=
  hP.terminalTransition k taskId contextId hstate message [] {} fun _ h => nomatch h

theorem endWithMessage {state : TaskState} (hstate : states state) (parts : List Part) :
    KeepsTo P built (TaskContext.endWithMessage k taskId contextId state parts) :=
  uses_bind (hP.makeAgentMessage taskId contextId parts) fun _ =>
    hP.transition_plain k taskId contextId hstate _

theorem completeWith (hstate : states .completed) (artifact : Artifact) :
    KeepsTo P built (TaskContext.completeWith k taskId contextId artifact) := by
  refine hP.newArtifact artifact fun r built hr => ?_
  refine hP.terminalTransition k taskId contextId hstate _ _ _ fun event hevent q hq => ?_
  obtain rfl := List.mem_singleton.mp hevent
  obtain rfl := List.mem_singleton.mp hq
  exact hr

include hst

/-- No lifecycle method submits the task. -/
theorem runLifecycle (l : Lifecycle) :
    KeepsTo P built (TaskContext.runLifecycle k taskId contextId l) := by
  have hcompleted : states .completed := hst _ (by decide)
  cases l with
  | complete text artifactId =>
    rcases text with _ | text
    · exact hP.transition_plain k taskId contextId hcompleted none
    · exact hP.completeWith k taskId contextId hcompleted _
  | completeJson data artifactId => exact hP.completeWith k taskId contextId hcompleted _
  | fail reason => exact hP.endWithMessage k taskId contextId (hst _ (by decide)) _
  | reject reason => exact hP.endWithMessage k taskId contextId (hst _ (by decide)) _
  | requestInput question => exact hP.endWithMessage k taskId contextId (hst _ (by decide)) _
  | requestAuth details authData => exact hP.endWithMessage k taskId contextId (hst _ (by decide)) _
  | respond text => exact hP.endWithMessage k taskId contextId hcompleted _
  | replyDirectly text =>
    refine uses_bind (hP.makeAgentMessage taskId contextId _) fun message => ?_
    refine hP.terminalTransition k taskId contextId hcompleted _ _ _ fun event hevent => ?_
    obtain rfl := List.mem_singleton.mp hevent
    exact fun _ h => nomatch h

theorem runCall (c : HandlerCall) : KeepsTo P built (TaskContext.runCall k taskId contextId c) := by
  cases c with
  | emitArtifact a => exact hP.emitArtifact k taskId contextId a
  | sendStatus message => exact hP.sendStatus k taskId contextId message
  | lifecycle l => exact hP.runLifecycle k hst taskId contextId l
  | wait => exact hP.checkpoint .plain

/-- Every handler, by induction on its calls. -/
theorem run (h : Handler) : KeepsTo P built (TaskContext.run k taskId contextId h) := by
  induction h with
  | done r =>
    cases r with
    | ok u => exact uses_pure ()
    | error x => exact uses_throw x
  | call c next ih =>
    refine uses_bind (uses_tryCatch ?_ fun x => uses_pure _) ih
    exact uses_bind (hP.runCall k hst taskId contextId c) fun _ => uses_pure _

omit hst in
theorem cancelPending (hcanceled : states .canceled) :
    KeepsTo P built (WorkerAdapter.cancelPending k taskId contextId) :=
  uses_bind takePending fun pending => hP.cancelTaskInStorage k hcanceled taskId contextId _ pending

omit hst in
theorem cleanup : KeepsTo P built (WorkerAdapter.cleanup k) := by
  refine uses_bind (uses_tryCatch (hP.loadTask k .other) fun x => ?_) fun current => ?_
  · split
    · exact uses_pure none
    · exact uses_throw x
  refine uses_bind ?_ fun _ => hP.perform rfl
  rw [WorkerAdapter.releaseBus]
  split
  · exact hP.perform rfl
  · exact uses_pure ()

theorem runGroup (h : Handler) :
    KeepsTo P built
      (WorkerAdapter.runGroup k taskId contextId (TaskContext.run k taskId contextId h)) := by
  refine uses_bind (uses_bind (hP.perform rfl) fun _ => uses_bind (uses_tryCatch ?_ fun x => ?_)
    fun _ => hP.perform rfl) fun _ => ?_
  · refine uses_bind (hP.run k hst taskId contextId h) fun _ => uses_bind uses_get fun ctx => ?_
    split
    · exact uses_pure ()
    refine uses_bind (hP.perform rfl) fun cancelled => ?_
    split
    · exact uses_pure ()
    · exact hP.runLifecycle k hst taskId contextId _
  · split
    · exact uses_pure ()
    · exact uses_bind (hP.perform rfl) fun _ => uses_throw _
  · refine uses_bind (hP.perform rfl) fun cancelled => ?_
    split
    · refine uses_bind uses_get fun ctx => ?_
      split
      · exact uses_pure ()
      · exact hP.cancelPending k taskId contextId (hst _ (by decide))
    · exact uses_pure ()

theorem recover (x : Exc) : KeepsTo P built (WorkerAdapter.recover k taskId contextId x) := by
  rw [WorkerAdapter.recover.eq_def]
  split
  · refine uses_bind (hP.perform rfl) fun cancelled => ?_
    split
    · exact hP.cancelPending k taskId contextId (hst _ (by decide))
    · exact uses_throw _
  · exact uses_bind takePending fun pending => hP.artifactFallback k pending
  · refine uses_bind uses_get fun ctx => ?_
    split
    · exact uses_pure ()
    · exact uses_bind takePending fun pending =>
        hP.markFailed k (hst _ (by decide)) taskId contextId _ pending

theorem runTurn (h : Handler) :
    KeepsTo P built
      (WorkerAdapter.runTurn k taskId contextId (TaskContext.run k taskId contextId h)) := by
  have hcancel : ∀ ws, KeepsTo P built (A2AKit.cancelTaskInStorage k taskId contextId
      WorkerAdapter.cancelReason ws : TurnM Unit) :=
    fun ws => hP.cancelTaskInStorage k (hst _ (by decide)) taskId contextId _ ws
  refine uses_bind (hP.perform rfl) fun cancelled => ?_
  split
  · refine uses_bind (hP.loadTask k .other) fun task => ?_
    rcases task with _ | task
    · exact hcancel []
    dsimp only
    split
    · exact uses_pure ()
    · exact hcancel []
  refine uses_bind (uses_tryCatch ?_ fun x => ?_) fun version => ?_
  · refine uses_bind (hP.emitterUpdate k .other _ fun st h => ?_) fun v => uses_pure _
    obtain rfl := Option.some_inj.mp h
    exact hst _ (by decide)
  · split
    · exact uses_pure none
    · exact uses_pure none
    · exact uses_throw _
  rcases version with _ | v
  · exact uses_pure ()
  refine uses_bind (uses_modify _) fun _ => ?_
  refine uses_bind (hP.sendStatus k taskId contextId none) fun _ => ?_
  exact uses_tryCatch (hP.runGroup k hst taskId contextId h) fun x =>
    hP.recover k hst taskId contextId x

/-- `_run_task_inner` -/
theorem runTaskInner (h : Handler) :
    KeepsTo P built (WorkerAdapter.runTaskInner k taskId contextId
      (TaskContext.run k taskId contextId h)) := by
  refine uses_bind (uses_tryCatch (hP.runTurn k hst taskId contextId h) fun x => ?_)
    fun _ => hP.cleanup k
  exact uses_bind (hP.cleanup k) fun _ => uses_throw x

end Turn

end Permits

end A2AKit
