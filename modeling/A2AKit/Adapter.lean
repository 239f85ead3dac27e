/-
`WorkerAdapter._run_task_inner`: one turn of a task.

The turn moves the task to working, runs the handler (`body`) inside a task group whose
scope the cancel watcher cancels, and then ends the task if the handler was cancelled or
has raised.  The task group swallows its own cancellation and wraps every other exception.
Whatever happens, the turn's resources are released at the end.
-/
import A2AKit.Ladders
import A2AKit.TaskContext

namespace A2AKit

/-- `str(exc)` -/
def Exc.text : Exc → String
  | .storage (.taskNotFound message) => message
  | .storage (.taskTerminalState message) => message
  | .storage (.concurrency message _) => message
  | .cancelled => ""
  | .runtime message => message
  | .group _ => "unhandled errors in a TaskGroup (1 sub-exception)"

namespace WorkerAdapter

variable (k : StorageKind) (taskId : TaskId) (contextId : Option ContextId)

/-- The reason of a cancellation that a user has requested. -/
def cancelReason : String := "Task was canceled."

/-- The reason of a failure of a handler that has not ended its turn. -/
def noLifecycleReason : String :=
  "Worker returned without calling a lifecycle method " ++
    "(complete/fail/reject/respond/request_input/request_auth)"

/-- The transition to working; `none` if another writer was faster. -/
def startWorking : TurnM (Option Nat) :=
  tryCatchThe Exc (do
    let version ← Emitter.updateTask k .other { state := some .working }
    pure (some version)) fun
    | .storage (.taskTerminalState _) => pure none
    | .storage (.concurrency ..) => pure none
    | x => throw x

/-- What runs inside the task group: the handler, and `fail` if it has not ended its
turn although nobody has cancelled the task. -/
def handle (body : TurnM Unit) : TurnM Unit := do
  body
  let ctx ← Act.get
  if ctx.turnEnded then pure ()
  else do
    if ← Act.perform .isCancelled then pure ()
    else TaskContext.runLifecycle k taskId contextId (.fail noLifecycleReason)

/-- `async with anyio.create_task_group()` around a body. -/
def inTaskGroup (body : TurnM Unit) : TurnM Unit := do
  Act.perform (.setInScope true)
  tryCatchThe Exc body fun
    | .cancelled => pure ()
    | x => do
      Act.perform (.setInScope false)
      throw (.group x)
  Act.perform (.setInScope false)

/-- Cancel the task with the artifacts that are still buffered. -/
def cancelPending : TurnM Unit := do
  let pending ← TaskContext.takePending
  cancelTaskInStorage k taskId contextId cancelReason pending

/-- The task group, and the cancel branch after it. -/
def runGroup (body : TurnM Unit) : TurnM Unit := do
  inTaskGroup (handle k taskId contextId body)
  if ← Act.perform .isCancelled then do
    let ctx ← Act.get
    if ctx.turnEnded then pure () else cancelPending k taskId contextId
  else pure ()

/-- `except Exception` -/
def failPending (x : Exc) : TurnM Unit := do
  let ctx ← Act.get
  if ctx.turnEnded then pure ()
  else do
    let pending ← TaskContext.takePending
    markFailed k taskId contextId x.text pending

/-- The handlers around the task group. -/
def recover : Exc → TurnM Unit
  | .cancelled => do
    if ← Act.perform .isCancelled then cancelPending k taskId contextId
    else throw .cancelled
  | .storage (.taskTerminalState _) => do
    let pending ← TaskContext.takePending
    artifactFallback k pending
  | x => failPending k taskId contextId x

/-- A cancellation that was requested before the turn. -/
def cancelEarly : TurnM Unit := do
  match ← loadTask k .other with
  | none => cancelTaskInStorage k taskId contextId cancelReason []
  | some task =>
    if task.status.state.isTerminal then pure ()
    else cancelTaskInStorage k taskId contextId cancelReason []

/-- Release the bus of a task that has ended. -/
def releaseBus (isTerminal : Bool) : TurnM Unit :=
  if isTerminal then Act.perform .busCleanup else pure ()

/-- The `finally` block; a deleted task counts as ended. -/
def cleanup : TurnM Unit := do
  let current ← tryCatchThe Exc (loadTask k .other) fun x =>
    if x.isException then pure none else throw x
  let isTerminal := current.all fun task => task.status.state.isTerminal
  releaseBus isTerminal
  Act.perform (.registryCleanup isTerminal)

/-- The turn without its `finally` block. -/
def runTurn (body : TurnM Unit) : TurnM Unit := do
  if ← Act.perform .isCancelled then cancelEarly k taskId contextId
  else do
    match ← startWorking k with
    | none => pure ()
    | some version => do
      TaskContext.setVersion (some version)
      TaskContext.sendStatus k taskId contextId none
      tryCatchThe Exc (runGroup k taskId contextId body) (recover k taskId contextId)

/-- `_run_task_inner` -/
def runTaskInner (body : TurnM Unit) : TurnM Unit := do
  tryCatchThe Exc (runTurn k taskId contextId body) fun x => do
    cleanup k
    throw x
  cleanup k

/-- The turn of a handler that is a sequence of calls. -/
def runCalls (calls : List HandlerCall) : TurnM Unit :=
  runTaskInner k taskId contextId (TaskContext.runHandler k taskId contextId calls)

end WorkerAdapter

end A2AKit
