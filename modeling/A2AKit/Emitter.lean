/-
The emitter: storage writes and events of one task.

`updateTask` is `update_task` of the storage as a program: one operation on
`InMemoryStorage`, and on SQL and Redis the retry loop with an await before the read,
between read and write, and after the write.  `Emitter.updateTask` adds what the
emitter stack awaits after the write of a new state, lifecycle hooks and push
delivery.  `Emitter.sendEvent` publishes.

`UpdateRule.wp` is the rule by which the proofs about the stored artifacts go.  It makes a
write atomic: an assertion `J` that other parties and lost merges keep holds up to
the commit, the commit happens at once on the row that is then stored, and every
other outcome leaves the row alone.
-/
import A2AKit.World

namespace A2AKit

/-- `group` is the `ExceptionGroup` in which a task group wraps what its body raises. -/
inductive Exc
  | storage (e : StorageError)
  | cancelled
  | runtime (message : String)
  | group (x : Exc)
  deriving DecidableEq, Repr

abbrev TaskM (σ : Type) := Act Op σ Exc

section Programs

variable {σ : Type}

/-- An await at which a cancellation can be delivered. -/
def checkpoint (pt : AwaitPoint) : TaskM σ Unit := do
  if ← Act.perform (.await pt) then throw Exc.cancelled

/-- The await of a storage call; `InMemoryStorage` never suspends. -/
def StorageKind.checkpoint : StorageKind → TaskM σ Unit
  | .memory => pure ()
  | .split _ => A2AKit.checkpoint .plain

def getVersion (k : StorageKind) : TaskM σ (Option Nat) := do
  k.checkpoint
  Act.perform .getVersion

def loadTask (k : StorageKind) (site : Site) : TaskM σ (Option Task) := do
  k.checkpoint
  Act.perform (.loadTask site)

/-- The attempts that are left of `for attempt in range(max_attempts)`. -/
def updateLoop (b : SplitStorage) (site : Site) (args : UpdateArgs Ref) : Nat → Nat → TaskM σ Nat
  | 0, _ => throw (.runtime "update_task retry loop exited without result")
  | n + 1, attempt => do
    checkpoint .plain
    match ← Act.perform (.updateRead b site args) with
    | .error e => throw (.storage e)
    | .ok (row, values) => do
      checkpoint (.merged site args row)
      match ← Act.perform (.updateWrite b site args attempt row values) with
      | .committed row' => do
        checkpoint (.committed site args)
        pure row'.version
      | .retry => updateLoop b site args n (attempt + 1)
      | .raised e => throw (.storage e)

def updateTask (k : StorageKind) (site : Site) (args : UpdateArgs Ref) : TaskM σ Nat :=
  match k with
  | .memory => do
    match ← Act.perform (.update site args) with
    | .error e => throw (.storage e)
    | .ok version => pure version
  | .split b => updateLoop b site args (maxAttempts args) 0

namespace Emitter

/-- What `HookableEmitter` and `PushDeliveryEmitter` await after a new state is
written: `on_state_change`, the hook for the kind of state, and the delivery's
`load_task`, `get_configs_for_delivery` and `deliver`. -/
def notify (site : Site) (args : UpdateArgs Ref) : TaskM σ Unit :=
  match args.state with
  | none => pure ()
  | some _ => do
    checkpoint (.committed site args)
    checkpoint (.committed site args)
    checkpoint (.committed site args)
    checkpoint (.committed site args)
    checkpoint (.committed site args)

def updateTask (k : StorageKind) (site : Site) (args : UpdateArgs Ref) : TaskM σ Nat := do
  let version ← A2AKit.updateTask k site args
  notify site args
  pure version

/-- `send_event`: the event gets its id and is buffered at once, and then waits for the
subscriber lock. -/
def sendEvent (shielded : Bool) (event : StreamEvent Ref) : TaskM σ Unit := do
  let id ← Act.perform (.publish event)
  if shielded then Act.perform (.published id)
  else
    tryCatchThe Exc (do
      checkpoint .plain
      Act.perform (.published id)) fun x => do
        Act.perform (.withdraw id)
        throw x

end Emitter

end Programs

end A2AKit
