/-
Tasks, messages, artifacts and storage errors.

The data model that every storage backend persists: `Task` with its
`TaskStatus`, its `history`, its `artifacts` and its `Metadata`.  The JSON text
columns of the SQL and Redis backends are modelled by the values they encode.

Two keys of `task.metadata` matter to the storage layer and are kept apart from
the rest of the dict: `stateTransitions`, the log of state changes, is a field of
its own, and every other key lives in `Metadata.entries`.  What a caller may pass
as `task_metadata` is a `TaskMetadata`, a dict without a `stateTransitions` key.
-/
import Mathlib.Data.List.AList

namespace A2AKit

/-- `v10.TaskState`. -/
inductive TaskState
  | submitted
  | working
  | completed
  | canceled
  | failed
  | rejected
  | inputRequired
  | authRequired
  deriving DecidableEq, Repr

/-- The wire value of a state. -/
def TaskState.value : TaskState → String
  | .submitted => "TASK_STATE_SUBMITTED"
  | .working => "TASK_STATE_WORKING"
  | .completed => "TASK_STATE_COMPLETED"
  | .canceled => "TASK_STATE_CANCELED"
  | .failed => "TASK_STATE_FAILED"
  | .rejected => "TASK_STATE_REJECTED"
  | .inputRequired => "TASK_STATE_INPUT_REQUIRED"
  | .authRequired => "TASK_STATE_AUTH_REQUIRED"

/-- `TERMINAL_STATES` of `storage/base.py`. -/
def terminalStates : List TaskState := [.completed, .canceled, .failed, .rejected]

/-- Membership in `TERMINAL_STATES`. -/
def TaskState.isTerminal (s : TaskState) : Bool := terminalStates.contains s

/-- The wall clock as `datetime.now(UTC).isoformat()` prints it. -/
abbrev Timestamp := String

abbrev TaskId := String

abbrev ContextId := String

/-- `v10.Part`; JSON data and raw bytes are kept as text. -/
structure Part where
  text : Option String := none
  data : Option String := none
  raw : Option String := none
  url : Option String := none
  mediaType : Option String := none
  filename : Option String := none
  deriving DecidableEq, Repr

/-- `v10.Role`. -/
inductive Role
  | user
  | agent
  deriving DecidableEq, Repr

/-- `v10.Message`. -/
structure Message where
  role : Role
  parts : List Part
  messageId : String
  taskId : TaskId
  contextId : ContextId
  deriving DecidableEq, Repr

/-- `v10.Artifact`. -/
structure Artifact where
  artifactId : String
  name : String := ""
  description : String := ""
  parts : List Part
  deriving DecidableEq, Repr

/-- `ArtifactWrite`, over the way the artifact is represented: as a value, or as
a reference to the caller's object. -/
structure ArtifactWrite (α : Type) where
  artifact : α
  append : Bool := false
  deriving DecidableEq, Repr

/-- A record of `metadata["stateTransitions"]`. -/
structure TransitionRecord where
  state : TaskState
  timestamp : Timestamp
  messageText : Option String := none
  deriving DecidableEq, Repr

/-- `_build_transition_record`: the text is that of the first part with a
non-empty text. -/
def buildTransitionRecord (state : TaskState) (timestamp : Timestamp)
    (statusMessage : Option Message) : TransitionRecord :=
  { state
    timestamp
    messageText := statusMessage.bind fun m =>
      m.parts.findSome? fun p => p.text.filter (· ≠ "") }

def stateTransitionsKey : String := "stateTransitions"

def metaCreatedAtKey : String := "_a2akit_createdAt"

def metaLastModifiedKey : String := "_a2akit_lastModified"

def metaTenantKey : String := "_a2akit_tenant"

def idempotencyMetaKey : String := "_idempotency_key"

/-- A dict with JSON values, each kept as its text. -/
abbrev Dict := AList fun _ : String => String

/-- `task.metadata`. -/
structure Metadata where
  stateTransitions : Option (List TransitionRecord) := none
  entries : Dict := ∅

theorem noTransitions_empty : stateTransitionsKey ∉ (∅ : Dict) := AList.notMem_empty _

/-- What callers may pass as `task_metadata`. -/
structure TaskMetadata where
  entries : Dict := ∅
  noTransitions : stateTransitionsKey ∉ entries := by exact noTransitions_empty

/-- `if task_metadata:` -/
def TaskMetadata.isEmpty (tm : TaskMetadata) : Bool := tm.entries.entries.isEmpty

/-- The recorded state changes, oldest first. -/
def Metadata.transitions (md : Metadata) : List TransitionRecord := md.stateTransitions.getD []

/-- `md.update(task_metadata)` -/
def Metadata.update (md : Metadata) (tm : TaskMetadata) : Metadata :=
  { md with entries := tm.entries ∪ md.entries }

/-- `md[META_LAST_MODIFIED_KEY] = now` -/
def Metadata.touch (md : Metadata) (now : Timestamp) : Metadata :=
  { md with entries := md.entries.insert metaLastModifiedKey now }

/-- `md.setdefault("stateTransitions", []).append(record)` -/
def Metadata.appendTransition (md : Metadata) (record : TransitionRecord) : Metadata :=
  { md with stateTransitions := some (md.transitions ++ [record]) }

@[simp] theorem Metadata.update_transitions (md : Metadata) (tm : TaskMetadata) :
    (md.update tm).transitions = md.transitions := rfl

@[simp] theorem Metadata.touch_transitions (md : Metadata) (now : Timestamp) :
    (md.touch now).transitions = md.transitions := rfl

@[simp] theorem Metadata.appendTransition_transitions (md : Metadata) (r : TransitionRecord) :
    (md.appendTransition r).transitions = md.transitions ++ [r] := rfl

/-- `v10.TaskStatus`. -/
structure TaskStatus where
  state : TaskState
  timestamp : Timestamp
  message : Option Message := none
  deriving DecidableEq, Repr

/-- `v10.Task`. -/
structure Task where
  id : TaskId
  contextId : ContextId
  status : TaskStatus
  history : List Message
  artifacts : List Artifact
  metadata : Metadata

/-- The exceptions of `storage/base.py` that `update_task` raises. -/
inductive StorageError
  | taskNotFound (message : String)
  | concurrency (message : String) (currentVersion : Option Nat)
  | taskTerminalState (message : String)
  deriving DecidableEq, Repr

/-- The arguments of `update_task`; an absent list and an empty one are the same
to every backend (`if messages:`, `if artifacts:`). -/
structure UpdateArgs (α : Type) where
  state : Option TaskState := none
  statusMessage : Option Message := none
  artifacts : List (ArtifactWrite α) := []
  messages : List Message := []
  taskMetadata : TaskMetadata := {}
  expectedVersion : Option Nat := none

/-- The metadata `create_task` writes. -/
def initialMetadata (idempotencyKey : Option String) (now : Timestamp) : Metadata :=
  { stateTransitions := some [buildTransitionRecord .submitted now none]
    entries :=
      ((match idempotencyKey with
        | some key => (∅ : Dict).insert idempotencyMetaKey key
        | none => ∅).insert metaCreatedAtKey now).insert metaLastModifiedKey now }

/-- The task `create_task` writes: submitted, with the initial message bound to
it as its history. -/
def initialTask (taskId : TaskId) (contextId : ContextId) (message : Message)
    (idempotencyKey : Option String) (now : Timestamp) : Task :=
  { id := taskId
    contextId
    status := { state := .submitted, timestamp := now }
    history := [{ message with taskId, contextId }]
    artifacts := []
    metadata := initialMetadata idempotencyKey now }

end A2AKit
