/-
`TaskManager._submit_task` for a follow-up message.

A message to an existing task is checked against the task, appended under the version
that was read before the check, and, if the task was waiting for it, moves the task back
to submitted.  That transition is announced after the write.
-/
import A2AKit.Discipline

namespace A2AKit

namespace TaskManager

variable {σ : Type} (k : StorageKind)

/-- The task waits for a message of the user. -/
def awaitsInput (state : TaskState) : Bool := state == .inputRequired || state == .authRequired

/-- `_compute_state_transition` -/
def computeStateTransition (task : Task) : Option TaskState :=
  if awaitsInput task.status.state then some .submitted else none

/-- The message was appended before. -/
def isDuplicate (message : Message) (task : Task) : Bool :=
  task.history.any fun m => m.messageId == message.messageId

/-- `_load_and_validate` -/
def loadAndValidate (message : Message) : TaskM σ Task := do
  match ← loadTask k .validation with
  | none => throw (.storage (.taskNotFound s!"Task {message.taskId} not found"))
  | some task =>
    if task.status.state.isTerminal then throw (.storage (.taskTerminalState "task is terminal"))
    else if message.contextId ≠ "" ∧ task.contextId ≠ message.contextId then
      throw (.runtime (s!"contextId '{message.contextId}' does not match " ++
        s!"task '{message.taskId}' contextId '{task.contextId}'"))
    else if !awaitsInput task.status.state ∧ message.role ≠ .agent then
      throw (.runtime "Task is not accepting messages")
    else pure task

/-- A lost race: a twin of the request may have appended the message. -/
def resolveConflict (message : Message) (x : Exc) : TaskM σ (Task × Bool) := do
  match ← loadTask k .conflict with
  | none => throw x
  | some reloaded =>
    if isDuplicate message reloaded then pure (reloaded, false)
    else if reloaded.status.state.isTerminal then
      throw (.storage (.taskTerminalState "task is terminal"))
    else throw x

/-- The write of the message; `some` if another request has done it. -/
def appendMessage (message : Message) (task : Task) (version : Option Nat) :
    TaskM σ (Option (Task × Bool)) :=
  let boundMessage := { message with
    contextId := if message.contextId = "" then task.contextId else message.contextId }
  tryCatchThe Exc (do
    let _ ← Emitter.updateTask k .other
      { state := computeStateTransition task, messages := [boundMessage], expectedVersion := version }
    pure none) fun
    | .storage (.concurrency m v) => do
      let r ← resolveConflict k message (.storage (.concurrency m v))
      pure (some r)
    | x => throw x

/-- The event of the transition. -/
def announceTransition (task : Task) : TaskM σ Unit :=
  match computeStateTransition task with
  | none => pure ()
  | some state => do
    let timestamp ← Act.perform .now
    Emitter.sendEvent false
      (.statusUpdate task.id task.contextId { state, timestamp, message := none })

/-- `_submit_task`, with a message that names a task; whether it has to be enqueued. -/
def submitTask (message : Message) : TaskM σ (Task × Bool) := do
  let version ← getVersion k
  let task ← loadAndValidate k message
  if isDuplicate message task then pure (task, false)
  else do
    match ← appendMessage k message task version with
    | some r => pure r
    | none => do
      announceTransition task
      match ← loadTask k .other with
      | none => throw (.runtime s!"Task {task.id} vanished after update")
      | some updated => pure (updated, true)

end TaskManager

/-! ### Its discipline -/

namespace Discipline

open Act (Triple)

variable {T : Setting} {req : {β : Type} → Op β → World → Prop} {k : StorageKind}
  {J : World → Prop} {V : Option Nat → World → Prop} {S : Nat → World → Prop}
  {O : TaskState → World → Prop} {σ : Type}

variable (hd : Discipline T req k (fun _ => True) J V S O)
include hd

theorem loadAndValidate {I : World → Prop} (hI : Quiet T I) (message : Message) :
    Frames T req I (TaskManager.loadAndValidate k message : TaskM σ Task) := by
  refine Frames.bind (hI.loadTask hd.req_quiet k .validation) fun task => ?_
  rcases task with _ | task
  · exact Frames.throw hI.stable _
  dsimp only
  split
  · exact Frames.throw hI.stable _
  split
  · exact Frames.throw hI.stable _
  split
  · exact Frames.throw hI.stable _
  · exact Frames.pure hI.stable task

theorem resolveConflict (message : Message) (x : Exc) :
    Frames T req J (TaskManager.resolveConflict k message x : TaskM σ (Task × Bool)) := by
  refine Frames.bind (hd.quiet.loadTask hd.req_quiet k .conflict) fun task => ?_
  rcases task with _ | task
  · exact Frames.throw hd.quiet.stable x
  dsimp only
  split
  · exact Frames.pure hd.quiet.stable _
  split
  · exact Frames.throw hd.quiet.stable _
  · exact Frames.throw hd.quiet.stable x

omit hd in
/-- The transition to submitted does not end the stream. -/
theorem computeStateTransition_ending (task : Task) :
    (TaskManager.computeStateTransition task).filter endsStream = none := by
  rw [TaskManager.computeStateTransition]
  split
  · rfl
  · rfl

theorem appendMessage (message : Message) (task : Task) (version : Option Nat) (F : σ → Prop) :
    Triple (T.systemWith req) (fun s w => F s ∧ J w ∧ V version w)
      (TaskManager.appendMessage k message task version) (fun _ s w => F s ∧ J w)
      fun _ s w => F s ∧ J w := by
  refine Triple.tryCatch (X := fun _ s w => F s ∧ J w) (Triple.bind
    ((hd.update .other trivial _ version F).conseq
      (fun s w hw => ⟨hw.1, hw.2.1, hw.2.2, hw.2.2⟩) (fun _ _ _ hw => hw)
      fun _ _ _ hw => ⟨hw.1, hw.2.1⟩) fun v => ?_) fun x => ?_
  · refine Triple.pure (fun s => ((stable_afterWrite hd.quiet hd.known hd.open_ _ v).and
      (hd.known version).stable).framed _) fun s w hw => ⟨hw.1, ?_⟩
    have hwrite := hw.2.1
    rw [AfterWrite, UpdateArgs.ending, computeStateTransition_ending task] at hwrite
    exact hwrite.1
  · split
    · exact Triple.bind (hd.resolveConflict message _ F) fun r =>
        Frames.pure hd.quiet.stable (some r) F
    · exact Frames.throw hd.quiet.stable x F

theorem announceTransition (task : Task) :
    Frames T req J (TaskManager.announceTransition task : TaskM σ Unit) := by
  rw [TaskManager.announceTransition]
  split
  · exact Frames.pure hd.quiet.stable ()
  · exact Frames.bind (fun F => hd.quiet.perform hd.req_quiet rfl F) fun timestamp =>
      hd.quiet.sendEvent hd.req_quiet false rfl

/-- `_submit_task` -/
theorem submitTask (message : Message) :
    Frames T req J (TaskManager.submitTask k message : TaskM σ (Task × Bool)) := by
  intro F
  refine Triple.bind (hd.readVersion F) fun version => ?_
  have hquiet := hd.quiet.and (hd.known version)
  refine Triple.bind ((hd.loadAndValidate hquiet message F).conseq (fun _ _ hw => hw)
    (fun _ _ _ hw => hw) fun _ _ _ hw => ⟨hw.1, hw.2.1⟩) fun task => ?_
  split
  · exact Triple.pure (fun _ => hquiet.stable.framed _) fun _ _ hw => ⟨hw.1, hw.2.1⟩
  refine Triple.bind (hd.appendMessage message task version F) fun done => ?_
  rcases done with _ | r
  · refine Triple.bind (hd.announceTransition task F) fun _ => ?_
    refine Triple.bind (hd.quiet.loadTask hd.req_quiet k .other F) fun updated => ?_
    rcases updated with _ | updated
    · exact Frames.throw hd.quiet.stable _ F
    · exact Frames.pure hd.quiet.stable _ F
  · exact Frames.pure hd.quiet.stable r F

end Discipline

end A2AKit
