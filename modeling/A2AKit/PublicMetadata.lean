/-
What the server shows of the metadata of tasks.

The storages and the context keep entries of their own in the metadata of a task, under keys that
begin with an underscore.  `_sanitize_task_for_client` and `sanitize_task_v10` leave them out where
a task goes to a client or to a webhook: in the answers of the four bindings, in their streams, and
in the bodies of deliveries.

* `internal_metadata_stays` — a task that is emitted has no such key, everything else of it is as
  it was, and no object that a storage holds is modified;
* `frameworkKeys_hidden` — the keys of the framework are among those left out.
-/
import A2AKit.Creation
import A2AKit.JsonPaths
import A2AKit.StreamDecoding
import A2AKit.TaskContext
import A2AKit.WebhookPinning

namespace A2AKit.Sse

/-- `key.startswith("_")` -/
def isInternal (key : String) : Bool := "_".isPrefixOf key

/-- `task.metadata or {}` -/
def Version.metadataOf (v : Version) (task : v.task.Value) : JsonFields :=
  (v.metadata task).getD .nil

/-- `model_copy(update={"metadata": metadata})` and `model_dump`, as far as metadata goes. -/
structure Version.ModelCopy (v : Version) : Prop where
  metadata_withMetadata : ∀ task md, v.metadata (v.withMetadata task md) = md
  withMetadata_withMetadata : ∀ task md md',
    v.withMetadata (v.withMetadata task md) md' = v.withMetadata task md'
  dump_metadata : ∀ task, (v.task.dump task).get "metadata" = (v.metadata task).map .object
  dump_rest : ∀ task md key, key ≠ "metadata" →
    (v.task.dump (v.withMetadata task md)).get key = (v.task.dump task).get key

/-- What the code relies on: `convert_to_v03` keeps the entries of the metadata. -/
structure Protocol.KeepsMetadata (P : Protocol) : Prop where
  v03 : P.v03.ModelCopy
  v10 : P.v10.ModelCopy
  convertTask : ∀ task key,
    (P.v03.metadataOf (P.convertTask task)).get key = (P.v10.metadataOf task).get key

/-- The metadata of a task that was dumped. -/
def emittedMetadata (emitted : JsonFields) : JsonFields :=
  match emitted.get "metadata" with
  | some (.object md) => md
  | _ => .nil

/-- What is emitted of a task with some metadata, where `raw` is all there is to emit: no key begins
with an underscore, and all other entries and members are as they were. -/
structure Public (metadata raw emitted : JsonFields) : Prop where
  object : ∀ j, emitted.get "metadata" = some j → ∃ md, j = .object md
  hidden : ∀ key ∈ (emittedMetadata emitted).keys, isInternal key = false
  kept : ∀ key, isInternal key = false → (emittedMetadata emitted).get key = metadata.get key
  rest : ∀ key, key ≠ "metadata" → emitted.get key = raw.get key

/-! ### The answers -/

variable (P : Protocol)

/-- What `send_message` returns. -/
inductive SendResult
  | task (task : P.v10.task.Value)
  | message (message : P.v10.message.Value)

/-- What `list_tasks` returns. -/
structure TaskPage where
  tasks : List P.v10.task.Value
  nextPageToken : String
  pageSize : Nat
  totalSize : Nat

/-- What the task manager returns to a call without a stream. -/
inductive CallResult
  | send (result : SendResult P)
  | get (task : P.v10.task.Value)
  | list (page : TaskPage P)
  | cancel (task : P.v10.task.Value)

variable {P}

/-- `model_dump` of a page, with the tasks as they were dumped. -/
def TaskPage.payload (page : TaskPage P) (tasks : List JsonFields) : JsonFields :=
  .cons "tasks" (.array (.ofList (tasks.map .object)))
    (.cons "nextPageToken" (.string page.nextPageToken)
      (.cons "pageSize" (.number (.ofNat page.pageSize))
        (.cons "totalSize" (.number (.ofNat page.totalSize)) .nil)))

namespace RestV03

def messageSend : SendResult P → JsonFields
  | .task task => (V03Object.task (P.convertTask task)).sanitized.dump
  | .message message => (V03Object.message (P.convertMessage message)).sanitized.dump

def tasksGet (task : P.v10.task.Value) : JsonFields :=
  P.v03.task.dump (sanitizeTask P.v03 (P.convertTask task))

def tasksList (page : TaskPage P) : JsonFields :=
  page.payload ((page.tasks.map fun t => sanitizeTask P.v03 (P.convertTask t)).map P.v03.task.dump)

def tasksCancel (task : P.v10.task.Value) : JsonFields :=
  P.v03.task.dump (sanitizeTask P.v03 (P.convertTask task))

end RestV03

namespace JsonrpcV03

/-- `_handle_message_send` -/
def handleMessageSend : SendResult P → JsonFields
  | .task task => serialize (.task task)
  | .message message => serialize (.message message)

/-- `_handle_tasks_get` -/
def handleTasksGet (task : P.v10.task.Value) : JsonFields := serialize (P := P) (.task task)

/-- `_handle_tasks_list` -/
def handleTasksList (page : TaskPage P) : JsonFields :=
  page.payload ((page.tasks.map fun t => sanitizeTask P.v03 (P.convertTask t)).map P.v03.task.dump)

/-- `_handle_tasks_cancel` -/
def handleTasksCancel (task : P.v10.task.Value) : JsonFields := serialize (P := P) (.task task)

end JsonrpcV03

namespace RestV10

def messageSend : SendResult P → JsonFields
  | .task task => .cons "task" (.object (P.v10.task.dump (sanitizeTask P.v10 task))) .nil
  | .message message => .cons "message" (.object (P.v10.message.dump message)) .nil

def tasksGet (task : P.v10.task.Value) : JsonFields := P.v10.task.dump (sanitizeTask P.v10 task)

def tasksList (page : TaskPage P) : JsonFields :=
  page.payload ((page.tasks.map (sanitizeTask P.v10)).map P.v10.task.dump)

def tasksCancel (task : P.v10.task.Value) : JsonFields := P.v10.task.dump (sanitizeTask P.v10 task)

end RestV10

namespace JsonrpcV10

/-- `_serialize_task` -/
def serializeTask (task : P.v10.task.Value) : JsonFields :=
  P.v10.task.dump (sanitizeTask P.v10 task)

/-- `_handle_send_message` -/
def handleSendMessage : SendResult P → JsonFields
  | .task task => .cons "task" (.object (serializeTask task)) .nil
  | .message message => .cons "message" (.object (P.v10.message.dump message)) .nil

/-- `_handle_get_task` -/
def handleGetTask (task : P.v10.task.Value) : JsonFields := serializeTask task

/-- `_handle_list_tasks` -/
def handleListTasks (page : TaskPage P) : JsonFields :=
  page.payload ((page.tasks.map (sanitizeTask P.v10)).map P.v10.task.dump)

/-- `_handle_cancel_task` -/
def handleCancelTask (task : P.v10.task.Value) : JsonFields := serializeTask task

end JsonrpcV10

/-- The body of the answer of a binding. -/
def Binding.answer (b : Binding) (reqId : Json) (call : CallResult P) : Json :=
  match b, call with
  | .restV03, .send result => .object (RestV03.messageSend result)
  | .restV03, .get task => .object (RestV03.tasksGet task)
  | .restV03, .list page => .object (RestV03.tasksList page)
  | .restV03, .cancel task => .object (RestV03.tasksCancel task)
  | .jsonrpcV03, .send result => rpcEnvelope reqId (JsonrpcV03.handleMessageSend result)
  | .jsonrpcV03, .get task => rpcEnvelope reqId (JsonrpcV03.handleTasksGet task)
  | .jsonrpcV03, .list page => rpcEnvelope reqId (JsonrpcV03.handleTasksList page)
  | .jsonrpcV03, .cancel task => rpcEnvelope reqId (JsonrpcV03.handleTasksCancel task)
  | .restV10, .send result => .object (RestV10.messageSend result)
  | .restV10, .get task => .object (RestV10.tasksGet task)
  | .restV10, .list page => .object (RestV10.tasksList page)
  | .restV10, .cancel task => .object (RestV10.tasksCancel task)
  | .jsonrpcV10, .send result => rpcEnvelope reqId (JsonrpcV10.handleSendMessage result)
  | .jsonrpcV10, .get task => rpcEnvelope reqId (JsonrpcV10.handleGetTask task)
  | .jsonrpcV10, .list page => rpcEnvelope reqId (JsonrpcV10.handleListTasks page)
  | .jsonrpcV10, .cancel task => rpcEnvelope reqId (JsonrpcV10.handleCancelTask task)

/-- The tasks of an answer. -/
def CallResult.tasks : CallResult P → List P.v10.task.Value
  | .send (.task task) => [task]
  | .send (.message _) => []
  | .get task => [task]
  | .list page => page.tasks
  | .cancel task => [task]

/-- Where the result of a call stands. -/
def Binding.resultPlace : Binding → List JsonStep
  | .restV03 => []
  | .jsonrpcV03 => [.key "result"]
  | .restV10 => []
  | .jsonrpcV10 => [.key "result"]

/-- Where a task that was sent stands in the result. -/
def Binding.sentPlace : Binding → List JsonStep
  | .restV03 => []
  | .jsonrpcV03 => []
  | .restV10 => [.key "task"]
  | .jsonrpcV10 => [.key "task"]

/-- Where the tasks of an answer stand. -/
def Binding.taskPlace (b : Binding) (call : CallResult P) (i : Nat) : List JsonStep :=
  b.resultPlace ++
    match call with
    | .send _ => b.sentPlace
    | .get _ => []
    | .list _ => [.key "tasks", .item i]
    | .cancel _ => []

/-- All that a binding could emit of a task. -/
def Binding.rawDump (b : Binding) (task : P.v10.task.Value) : JsonFields :=
  match b with
  | .restV03 => P.v03.task.dump (P.convertTask task)
  | .jsonrpcV03 => P.v03.task.dump (P.convertTask task)
  | .restV10 => P.v10.task.dump task
  | .jsonrpcV10 => P.v10.task.dump task

/-- What a binding emits of a task. -/
def Binding.emitted (b : Binding) (task : P.v10.task.Value) : JsonFields :=
  match b with
  | .restV03 => P.v03.task.dump (sanitizeTask P.v03 (P.convertTask task))
  | .jsonrpcV03 => P.v03.task.dump (sanitizeTask P.v03 (P.convertTask task))
  | .restV10 => P.v10.task.dump (sanitizeTask P.v10 task)
  | .jsonrpcV10 => P.v10.task.dump (sanitizeTask P.v10 task)

/-- A value that shows no more of a task than it may. -/
def Binding.Shows (b : Binding) (task : P.v10.task.Value) (j : Json) : Prop :=
  ∃ emitted, j = .object emitted ∧ Public (P.v10.metadataOf task) (b.rawDump task) emitted

/-! ### The streams and the deliveries -/

/-- The text of a block with some payload. -/
def Binding.frame (P : Protocol) (b : Binding) (eventId : Option EventId) (payload : Json) :
    List Char :=
  match b with
  | .restV03 => serverSentEvent P (Json.write ⟨false, false⟩ payload) eventId
  | .jsonrpcV03 => rpcBlock payload eventId
  | .restV10 => serverSentEvent P (jsonDumps payload) eventId
  | .jsonrpcV10 => rpcBlock payload eventId

/-- Where a task stands in the payload of its event. -/
def Binding.eventPlace : Binding → List JsonStep
  | .restV03 => []
  | .jsonrpcV03 => [.key "result"]
  | .restV10 => []
  | .jsonrpcV10 => [.key "result", .key "task"]

/-- The payload of a task. -/
def Binding.taskPayload (b : Binding) (reqId : Json) (emitted : JsonFields) : Json :=
  match b with
  | .restV03 => .object emitted
  | .jsonrpcV03 => rpcEnvelope reqId emitted
  | .restV10 => .object emitted
  | .jsonrpcV10 => rpcEnvelope reqId (.cons "task" (.object emitted) .nil)

/-- The block of an event: if it is a task, the payload shows no more of it than it may. -/
def Binding.Covers (b : Binding) (sent : Option EventId × StreamEvent P) (block : List Char) :
    Prop :=
  ∀ task, sent.2 = .task task → ∃ payload j, block = b.frame P sent.1 payload ∧
    payload.valueAt b.eventPlace = some j ∧ b.Shows task j

/-- `_deliver_single` with the bodies of the requests. -/
def deliverTask (lib : AddressLibrary) (policy : DeliveryPolicy) (maxRetries : Nat)
    (ask : List Char → Option (List (List Char))) (responses : Nat → WebhookResponse)
    (config : TaskPushNotificationConfig) (url : ParsedUrl) (task : P.v10.task.Value) :
    List (WebhookRequest × Json) :=
  let payload := Json.object (P.v10.task.dump (sanitizeTask P.v10 task))
  (deliverSingle lib policy maxRetries ask responses config url).1.map fun request =>
    (request, payload)

/-! ### Objects -/

/-- A task object, with a reference to its metadata. -/
structure TaskObject (v : Version) where
  fields : v.task.Value
  metadata : Option Nat

/-- The dictionaries and the task objects that were built; their positions are the references. -/
structure Heap (v : Version) where
  dicts : List JsonFields
  tasks : List (TaskObject v)
  held : ∀ task ∈ tasks, ∀ d, task.metadata = some d → d < dicts.length

namespace Heap

variable {v : Version}

/-- `task.metadata` -/
def metadata (heap : Heap v) (task : TaskObject v) : Option JsonFields :=
  task.metadata.bind fun d => heap.dicts[d]?

/-- What an object is as a value. -/
def value (heap : Heap v) (task : TaskObject v) : v.task.Value :=
  v.withMetadata task.fields (heap.metadata task)

def taskAt (heap : Heap v) (ref : Nat) : Option v.task.Value :=
  heap.tasks[ref]?.map heap.value

/-- A new dictionary; its reference is the number of those before it. -/
def newDict (heap : Heap v) (dict : JsonFields) : Heap v where
  dicts := heap.dicts ++ [dict]
  tasks := heap.tasks
  held task htask d hd := by
    have hlt := heap.held task htask d hd
    rw [List.length_append, List.length_singleton]
    omega

/-- `model_copy(update={"metadata": metadata})` -/
def modelCopy (heap : Heap v) (task : TaskObject v) (metadata : Option Nat)
    (hmetadata : ∀ d, metadata = some d → d < heap.dicts.length) : Heap v where
  dicts := heap.dicts
  tasks := heap.tasks ++ [{ task with metadata }]
  held copied hcopied d hd := by
    rcases List.mem_append.mp hcopied with hold | hnew
    · exact heap.held copied hold d hd
    · rw [List.mem_singleton] at hnew
      subst hnew
      exact hmetadata d hd

/-- `cleaned or None`, for the newest dictionary. -/
def cleanedOrNone (heap : Heap v) (cleaned : JsonFields) : Option Nat :=
  if cleaned.keys = [] then none else some heap.dicts.length

theorem cleanedOrNone_lt {heap : Heap v} {cleaned : JsonFields} {d : Nat}
    (h : heap.cleanedOrNone cleaned = some d) : d < (heap.newDict cleaned).dicts.length := by
  unfold cleanedOrNone at h
  split at h
  · cases h
  · cases h
    rw [newDict, List.length_append, List.length_singleton]
    omega

/-- `task.model_copy(update={"metadata": cleaned or None})` -/
def cleanedCopy (heap : Heap v) (task : TaskObject v) (cleaned : JsonFields) : Heap v :=
  (heap.newDict cleaned).modelCopy task (heap.cleanedOrNone cleaned) fun _ hd =>
    cleanedOrNone_lt hd

/-- `_sanitize_task_for_client` and `sanitize_task_v10`, on the object with a reference: what was
built, and the reference to the result. -/
def sanitizeTask (heap : Heap v) (ref : Nat) : Heap v × Nat :=
  match heap.tasks[ref]? with
  | none => (heap, ref)
  | some task =>
    match heap.metadata task with
    | none => (heap, ref)
    | some .nil => (heap, ref)
    | some md =>
      let cleaned := md.filterKeys fun k => !("_".isPrefixOf k)
      if cleaned.keys.length = md.keys.length then (heap.newDict cleaned, ref)
      else (heap.cleanedCopy task cleaned, heap.tasks.length)

/-- `[sanitize(t) for t in tasks]` -/
def sanitizeTasks (heap : Heap v) : List Nat → Heap v × List Nat
  | [] => (heap, [])
  | ref :: rest =>
    let (heap, sanitized) := heap.sanitizeTask ref
    let (heap, others) := heap.sanitizeTasks rest
    (heap, sanitized :: others)

/-- Every object that was built before is still there, with its contents. -/
structure Extends (heap later : Heap v) : Prop where
  dicts : heap.dicts <+: later.dicts
  tasks : heap.tasks <+: later.tasks

end Heap

/-- The tasks of a list are sanitized, and no object that was there is modified. -/
def Version.LeavesStored (v : Version) : Prop :=
  ∀ (heap : Heap v) (refs : List Nat), (∀ ref ∈ refs, ref < heap.tasks.length) →
    (heap.sanitizeTasks refs).2.map (heap.sanitizeTasks refs).1.taskAt =
        refs.map (fun ref => (heap.taskAt ref).map (sanitizeTask v)) ∧
      heap.Extends (heap.sanitizeTasks refs).1 ∧
      ∀ ref, ref < heap.tasks.length → (heap.sanitizeTasks refs).1.taskAt ref = heap.taskAt ref

/-! ### One task -/

section

variable {v : Version}

/-- Either nothing is internal and the task stays as it is, or it gets what is left. -/
theorem sanitizeTask_cases (v : Version) (task : v.task.Value) :
    (sanitizeTask v task = task ∧
        (v.metadataOf task).filterKeys (fun k => !isInternal k) = v.metadataOf task) ∨
      ∃ kept, sanitizeTask v task = v.withMetadata task kept ∧
        kept.getD .nil = (v.metadataOf task).filterKeys fun k => !isInternal k := by
  unfold sanitizeTask Version.metadataOf
  cases hmd : v.metadata task with
  | none => exact Or.inl ⟨rfl, rfl⟩
  | some md =>
    cases md with
    | nil => exact Or.inl ⟨rfl, rfl⟩
    | cons k j rest =>
      dsimp only [Option.getD_some]
      split
      · rename_i hlength
        exact Or.inl ⟨rfl, JsonFields.filterKeys_eq_self hlength⟩
      · refine Or.inr ⟨_, rfl, ?_⟩
        split
        · rename_i hempty
          -- `cleaned or None`: an empty dictionary is the same as none
          exact (JsonFields.keys_eq_nil hempty).symm
        · rfl

theorem metadataOf_sanitizeTask (hv : v.ModelCopy) (task : v.task.Value) :
    v.metadataOf (sanitizeTask v task) =
      (v.metadataOf task).filterKeys fun k => !isInternal k := by
  rcases sanitizeTask_cases v task with ⟨hsame, hall⟩ | ⟨kept, hcopy, hkept⟩
  · rw [hsame, hall]
  · rw [hcopy, Version.metadataOf, hv.metadata_withMetadata, hkept]

/-- The copy differs in nothing but the metadata. -/
theorem dump_sanitizeTask (hv : v.ModelCopy) (task : v.task.Value) {key : String}
    (hkey : key ≠ "metadata") :
    (v.task.dump (sanitizeTask v task)).get key = (v.task.dump task).get key := by
  rcases sanitizeTask_cases v task with ⟨hsame, -⟩ | ⟨kept, hcopy, -⟩
  · rw [hsame]
  · rw [hcopy, hv.dump_rest task kept key hkey]

theorem emittedMetadata_dump (hv : v.ModelCopy) (task : v.task.Value) :
    emittedMetadata (v.task.dump task) = v.metadataOf task := by
  unfold emittedMetadata Version.metadataOf
  rw [hv.dump_metadata]
  cases v.metadata task <;> rfl

/-- A task that was sanitized shows no more than it may. -/
theorem public_sanitizeTask (hv : v.ModelCopy) (task : v.task.Value) :
    Public (v.metadataOf task) (v.task.dump task) (v.task.dump (sanitizeTask v task)) where
  object := by
    intro j hj
    rw [hv.dump_metadata] at hj
    obtain ⟨md, -, rfl⟩ := Option.map_eq_some_iff.mp hj
    exact ⟨md, rfl⟩
  hidden := by
    intro key hkey
    rw [emittedMetadata_dump hv, metadataOf_sanitizeTask hv, JsonFields.keys_filterKeys,
      List.mem_filter] at hkey
    have hpublic := hkey.2
    rwa [Bool.not_eq_true'] at hpublic
  kept := by
    intro key hkey
    rw [emittedMetadata_dump hv, metadataOf_sanitizeTask hv, JsonFields.get_filterKeys, hkey]
    rfl
  rest := by
    intro key hkey
    exact dump_sanitizeTask hv task hkey

theorem Public.of_same {md md' raw emitted : JsonFields} (h : Public md raw emitted)
    (hsame : ∀ key, md.get key = md'.get key) : Public md' raw emitted where
  object := h.object
  hidden := h.hidden
  kept key hkey := (h.kept key hkey).trans (hsame key)
  rest := h.rest

/-- What the framework keeps in the metadata of tasks. -/
def frameworkKeys : List String :=
  [metaCreatedAtKey, metaLastModifiedKey, metaTenantKey, idempotencyMetaKey, justCreatedKey,
    directReplyKey]

theorem frameworkKeys_hidden {md raw emitted : JsonFields} (h : Public md raw emitted) :
    ∀ key ∈ frameworkKeys, (emittedMetadata emitted).get key = none := by
  intro key hkey
  have hinternal : ∀ key ∈ frameworkKeys, isInternal key = true := by decide +kernel
  refine JsonFields.get_of_not_mem fun hmem => ?_
  have hpublic := h.hidden key hmem
  rw [hinternal key hkey] at hpublic
  cases hpublic

end

/-! ### Objects that are sanitized -/

namespace Heap

variable {v : Version} {heap later : Heap v} {ref : Nat}

theorem Extends.refl (heap : Heap v) : heap.Extends heap :=
  ⟨List.prefix_refl _, List.prefix_refl _⟩

theorem Extends.trans {last : Heap v} (h : heap.Extends later) (h' : later.Extends last) :
    heap.Extends last :=
  ⟨h.dicts.trans h'.dicts, h.tasks.trans h'.tasks⟩

theorem extends_newDict (heap : Heap v) (dict : JsonFields) : heap.Extends (heap.newDict dict) :=
  ⟨List.prefix_append _ _, List.prefix_refl _⟩

theorem extends_cleanedCopy (heap : Heap v) (task : TaskObject v) (cleaned : JsonFields) :
    heap.Extends (heap.cleanedCopy task cleaned) :=
  ⟨List.prefix_append _ _, List.prefix_append _ _⟩

/-- The dictionary that an object refers to is found later on too. -/
theorem Extends.metadata (h : heap.Extends later) {task : TaskObject v}
    (hmem : task ∈ heap.tasks) : later.metadata task = heap.metadata task := by
  unfold Heap.metadata
  cases hd : task.metadata with
  | none => rfl
  | some d =>
    have hlt := heap.held task hmem d hd
    obtain ⟨more, hmore⟩ := h.dicts
    rw [Option.bind_some, Option.bind_some, ← hmore, List.getElem?_append_left hlt]

theorem Extends.taskAt (h : heap.Extends later) (href : ref < heap.tasks.length) :
    later.taskAt ref = heap.taskAt ref := by
  obtain ⟨more, hmore⟩ := h.tasks
  unfold Heap.taskAt
  rw [← hmore, List.getElem?_append_left href, List.getElem?_eq_getElem href, Option.map_some,
    Option.map_some]
  unfold value
  rw [h.metadata (List.getElem_mem href)]

/-- The newest dictionary, unless it is empty. -/
theorem metadata_cleaned (heap : Heap v) (cleaned : JsonFields) (task : TaskObject v) :
    (heap.newDict cleaned).metadata { task with metadata := heap.cleanedOrNone cleaned } =
      if cleaned.keys = [] then none else some cleaned := by
  unfold metadata cleanedOrNone
  dsimp only [newDict]
  split
  · rfl
  · rw [Option.bind_some, List.getElem?_append_right (Nat.le_refl _), Nat.sub_self]
    rfl

/-- The copy stands behind all tasks that were there. -/
theorem taskAt_cleanedCopy (hv : v.ModelCopy) (heap : Heap v) (task : TaskObject v)
    (cleaned : JsonFields) :
    (heap.cleanedCopy task cleaned).taskAt heap.tasks.length =
      some (v.withMetadata (heap.value task)
        (if cleaned.keys = [] then none else some cleaned)) := by
  unfold Heap.taskAt value
  rw [hv.withMetadata_withMetadata, ← metadata_cleaned heap cleaned task]
  dsimp only [cleanedCopy, modelCopy, newDict]
  rw [List.getElem?_append_right (Nat.le_refl _), Nat.sub_self]
  rfl

/-- What one sanitization does: it builds, and the object of the result is the sanitized task. -/
theorem sanitizeTask_spec (hv : v.ModelCopy) (heap : Heap v) (href : ref < heap.tasks.length) :
    heap.Extends (heap.sanitizeTask ref).1 ∧
      (heap.sanitizeTask ref).2 < (heap.sanitizeTask ref).1.tasks.length ∧
      (heap.sanitizeTask ref).1.taskAt (heap.sanitizeTask ref).2 =
        (heap.taskAt ref).map (Sse.sanitizeTask v) := by
  have htask : heap.tasks[ref]? = some heap.tasks[ref] := List.getElem?_eq_getElem href
  generalize heap.tasks[ref] = task at htask
  have hvalue : v.metadata (heap.value task) = heap.metadata task :=
    hv.metadata_withMetadata _ _
  have hat : heap.taskAt ref = some (heap.value task) := by rw [Heap.taskAt, htask, Option.map_some]
  rw [hat, Option.map_some]
  unfold Heap.sanitizeTask Sse.sanitizeTask
  rw [htask, hvalue]
  dsimp only
  cases heap.metadata task with
  | none => exact ⟨.refl heap, href, hat⟩
  | some md =>
    cases md with
    | nil => exact ⟨.refl heap, href, hat⟩
    | cons k j rest =>
      dsimp only
      split
      · -- nothing was stripped: the dictionary is dropped
        have hextends := extends_newDict heap
          ((JsonFields.cons k j rest).filterKeys fun k => !("_".isPrefixOf k))
        exact ⟨hextends, href, (hextends.taskAt href).trans hat⟩
      · refine ⟨extends_cleanedCopy heap task _, ?_, taskAt_cleanedCopy hv heap task _⟩
        dsimp only [cleanedCopy, modelCopy, newDict]
        rw [List.length_append, List.length_singleton]
        omega

/-- One after another, the tasks of a list are sanitized. -/
theorem sanitizeTasks_spec (hv : v.ModelCopy) (heap : Heap v) (refs : List Nat)
    (hrefs : ∀ ref ∈ refs, ref < heap.tasks.length) :
    heap.Extends (heap.sanitizeTasks refs).1 ∧
      (∀ ref ∈ (heap.sanitizeTasks refs).2, ref < (heap.sanitizeTasks refs).1.tasks.length) ∧
      (heap.sanitizeTasks refs).2.map (heap.sanitizeTasks refs).1.taskAt =
        refs.map fun ref => (heap.taskAt ref).map (Sse.sanitizeTask v) := by
  induction refs generalizing heap with
  | nil => exact ⟨.refl heap, nofun, rfl⟩
  | cons ref rest ih =>
    obtain ⟨hfirst, hlt, hvalue⟩ :=
      sanitizeTask_spec hv heap (hrefs ref List.mem_cons_self)
    have hlater : ∀ other ∈ rest, other < (heap.sanitizeTask ref).1.tasks.length := by
      intro other hother
      have hold := hrefs other (List.mem_cons_of_mem ref hother)
      exact hold.trans_le hfirst.tasks.length_le
    obtain ⟨hrest, hothers, hvalues⟩ := ih (heap.sanitizeTask ref).1 hlater
    refine ⟨hfirst.trans hrest, ?_, ?_⟩
    · intro other hother
      rcases List.mem_cons.mp hother with rfl | hother
      · exact hlt.trans_le hrest.tasks.length_le
      · exact hothers other hother
    · rw [sanitizeTasks, List.map_cons, List.map_cons]
      refine List.cons_eq_cons.mpr ⟨(hrest.taskAt hlt).trans hvalue, hvalues.trans ?_⟩
      refine List.map_congr_left fun other hother => ?_
      rw [hfirst.taskAt (hrefs other (List.mem_cons_of_mem ref hother))]

end Heap

theorem Version.ModelCopy.leavesStored {v : Version} (hv : v.ModelCopy) : v.LeavesStored := by
  intro heap refs hrefs
  obtain ⟨hextends, -, hvalues⟩ := heap.sanitizeTasks_spec hv refs hrefs
  exact ⟨hvalues, hextends, fun ref href => hextends.taskAt href⟩

/-! ### What is emitted -/

section

variable {P : Protocol}

theorem shows_emitted (hP : P.KeepsMetadata) (b : Binding) (task : P.v10.task.Value) :
    b.Shows task (.object (b.emitted task)) := by
  refine ⟨b.emitted task, rfl, ?_⟩
  have h03 := (public_sanitizeTask hP.v03 (P.convertTask task)).of_same (hP.convertTask task)
  have h10 := public_sanitizeTask hP.v10 task
  cases b with
  | restV03 => exact h03
  | jsonrpcV03 => exact h03
  | restV10 => exact h10
  | jsonrpcV10 => exact h10

theorem valueAt_rpcEnvelope (reqId : Json) (result : JsonFields) (path : List JsonStep) :
    (rpcEnvelope reqId result).valueAt (.key "result" :: path) =
      (Json.object result).valueAt path := by
  have hresult : (rpcEnvelope reqId result).step (.key "result") = some (.object result) := by
    simp [rpcEnvelope, Json.step, JsonFields.get]
  rw [Json.valueAt, hresult, Option.bind_some]

/-- A page has nothing among its tasks but the tasks as they were dumped. -/
theorem valueAt_payload (page : TaskPage P) (tasks : List JsonFields) (i : Nat) :
    (Json.object (page.payload tasks)).valueAt [.key "tasks", .item i] =
      tasks[i]?.map .object := by
  have htasks : (Json.object (page.payload tasks)).step (.key "tasks") =
      some (.array (.ofList (tasks.map .object))) := by
    simp [TaskPage.payload, Json.step, JsonFields.get]
  rw [Json.valueAt, htasks, Option.bind_some, Json.valueAt, Json.step, JsonItems.get_ofList,
    List.getElem?_map]
  cases tasks[i]? <;> rfl

theorem valueAt_list (b : Binding) (reqId : Json) (page : TaskPage P) (i : Nat) :
    (b.answer reqId (.list page)).valueAt (b.taskPlace (.list page) i) =
      page.tasks[i]?.map fun task => .object (b.emitted task) := by
  cases b <;>
  · simp only [Binding.answer, Binding.taskPlace, Binding.resultPlace, List.nil_append,
      List.cons_append, valueAt_rpcEnvelope]
    refine (valueAt_payload page _ i).trans ?_
    rw [List.getElem?_map, List.getElem?_map]
    cases page.tasks[i]? <;> rfl

theorem valueAt_task (task : JsonFields) :
    (Json.object (.cons "task" (.object task) .nil)).valueAt [.key "task"] =
      some (.object task) := by
  simp [Json.valueAt, Json.step, JsonFields.get]

theorem valueAt_sent (b : Binding) (reqId : Json) (task : P.v10.task.Value) (i : Nat) :
    (b.answer reqId (.send (.task task) : CallResult P)).valueAt
      (b.taskPlace (.send (.task task) : CallResult P) i) = some (.object (b.emitted task)) := by
  cases b with
  | restV03 => rfl
  | jsonrpcV03 => exact valueAt_rpcEnvelope reqId _ []
  | restV10 => exact valueAt_task _
  | jsonrpcV10 => exact (valueAt_rpcEnvelope reqId _ _).trans (valueAt_task _)

/-- `tasks/get` and `tasks/cancel` answer alike. -/
theorem valueAt_single (b : Binding) (reqId : Json) (task : P.v10.task.Value) (i : Nat) :
    (b.answer reqId (.get task)).valueAt (b.taskPlace (.get task : CallResult P) i) =
        some (.object (b.emitted task)) ∧
      b.answer reqId (.cancel task) = b.answer reqId (.get task : CallResult P) := by
  cases b with
  | restV03 => exact ⟨rfl, rfl⟩
  | jsonrpcV03 => exact ⟨valueAt_rpcEnvelope reqId _ [], rfl⟩
  | restV10 => exact ⟨rfl, rfl⟩
  | jsonrpcV10 => exact ⟨valueAt_rpcEnvelope reqId _ [], rfl⟩

/-- Every task of an answer stands at its place. -/
theorem valueAt_answer (b : Binding) (reqId : Json) {call : CallResult P} {i : Nat}
    {task : P.v10.task.Value} (h : call.tasks[i]? = some task) :
    (b.answer reqId call).valueAt (b.taskPlace call i) = some (.object (b.emitted task)) := by
  have hone : ∀ t : P.v10.task.Value, [t][i]? = some task → t = task := by
    intro t ht
    exact (List.mem_singleton.mp (List.mem_of_getElem? ht)).symm
  cases call with
  | send result =>
    cases result with
    | task t =>
      rw [hone t h]
      exact valueAt_sent b reqId task i
    | message m => cases h
  | get t =>
    rw [hone t h]
    exact (valueAt_single b reqId task i).1
  | list page =>
    have hpage : page.tasks[i]? = some task := h
    rw [valueAt_list, hpage, Option.map_some]
  | cancel t =>
    rw [hone t h, (valueAt_single b reqId task i).2]
    exact (valueAt_single b reqId task i).1

/-! ### What is streamed -/

theorem block_task (b : Binding) (reqId : Json) (cache : TaskCache P) (eventId : Option EventId)
    (task : P.v10.task.Value) :
    (b.block reqId cache eventId (.task task)).1 =
      b.frame P eventId (b.taskPayload reqId (b.emitted task)) := by
  cases b with
  | restV03 => rfl
  | jsonrpcV03 => rfl
  | restV10 => simp [Binding.block, sseDataV10, wrapStreamEventV10, Binding.frame,
      Binding.taskPayload, Binding.emitted]
  | jsonrpcV10 => rfl

theorem valueAt_taskPayload (b : Binding) (reqId : Json) (task : JsonFields) :
    (b.taskPayload reqId task).valueAt b.eventPlace = some (.object task) := by
  cases b with
  | restV03 => rfl
  | jsonrpcV03 => exact valueAt_rpcEnvelope reqId _ []
  | restV10 => rfl
  | jsonrpcV10 => exact (valueAt_rpcEnvelope reqId _ _).trans (valueAt_task _)

theorem covers_block (hP : P.KeepsMetadata) (b : Binding) (reqId : Json) (cache : TaskCache P)
    (sent : Option EventId × StreamEvent P) :
    b.Covers sent (b.block reqId cache sent.1 sent.2).1 := by
  intro task htask
  refine ⟨b.taskPayload reqId (b.emitted task), _, ?_, valueAt_taskPayload b reqId _,
    shows_emitted hP b task⟩
  rw [htask, block_task]

/-- Block by block, a stream shows no more of its tasks than it may, whatever was sent before. -/
theorem covers_blocks (hP : P.KeepsMetadata) (b : Binding) (reqId : Json) (cache : TaskCache P)
    (sent : List (Option EventId × StreamEvent P)) :
    ∃ blocks : List (List Char), b.blocks reqId cache sent = blocks.flatten ∧
      List.Forall₂ b.Covers sent blocks := by
  induction sent generalizing cache with
  | nil => exact ⟨[], rfl, .nil⟩
  | cons first rest ih =>
    obtain ⟨eventId, event⟩ := first
    obtain ⟨blocks, htext, hcovers⟩ := ih (b.block reqId cache eventId event).2
    refine ⟨(b.block reqId cache eventId event).1 :: blocks, ?_, ?_⟩
    · rw [Binding.blocks, htext, List.flatten_cons]
    · exact .cons (covers_block hP b reqId cache (eventId, event)) hcovers

/-- **No internal metadata leaves the server.**  The tasks of every answer, every stream and every
delivery have no key that begins with an underscore, and are otherwise what they were; what is
stored is not modified. -/
theorem internal_metadata_stays (hP : P.KeepsMetadata) :
    (∀ (b : Binding) (reqId : Json) (call : CallResult P) (i : Nat) (task : P.v10.task.Value),
      call.tasks[i]? = some task → ∃ j,
        (b.answer reqId call).valueAt (b.taskPlace call i) = some j ∧ b.Shows task j) ∧
    (∀ (b : Binding) (reqId : Json) (page : TaskPage P) (i : Nat),
      page.tasks[i]? = none → (b.answer reqId (.list page)).valueAt
        (b.taskPlace (.list page) i) = none) ∧
    (∀ (b : Binding) (operation : Operation) (reqId : Json)
      (events : List (Option EventId × StreamEvent P)), ∃ blocks : List (List Char),
        b.stream operation reqId events = blocks.flatten ∧
          List.Forall₂ b.Covers (b.sent operation events) blocks) ∧
    (∀ (lib : AddressLibrary) (policy : DeliveryPolicy) (maxRetries : Nat)
      (ask : List Char → Option (List (List Char))) (responses : Nat → WebhookResponse)
      (config : TaskPushNotificationConfig) (url : ParsedUrl) (task : P.v10.task.Value),
      ∀ post ∈ deliverTask lib policy maxRetries ask responses config url task,
        ∃ emitted, post.2 = .object emitted ∧
          Public (P.v10.metadataOf task) (P.v10.task.dump task) emitted) ∧
    P.v03.LeavesStored ∧ P.v10.LeavesStored := by
  refine ⟨?_, ?_, ?_, ?_, hP.v03.leavesStored, hP.v10.leavesStored⟩
  · intro b reqId call i task htask
    exact ⟨_, valueAt_answer b reqId htask, shows_emitted hP b task⟩
  · intro b reqId page i hnone
    rw [valueAt_list, hnone, Option.map_none]
  · intro b operation reqId events
    rw [stream_eq]
    exact covers_blocks hP b reqId [] _
  · intro lib policy maxRetries ask responses config url task post hpost
    obtain ⟨request, -, rfl⟩ := List.mem_map.mp hpost
    exact ⟨_, rfl, public_sanitizeTask hP.v10 task⟩

end

/-! ### Tasks with metadata -/

/-- The members of a task, and its metadata if it has one. -/
def noted (metadata : Option JsonFields) (rest : JsonFields) : JsonFields :=
  match metadata with
  | none => rest
  | some md => .cons "metadata" (.object md) rest

def notedTask (head : List (String × Json)) : Model where
  Value := String × Option JsonFields
  dump task := noted task.2 ((textTask head).dump task.1)
  validate j := (memberText "id" j).map fun id => (id, memberObject j "metadata")

def notedVersion (v : Version) (head : List (String × Json)) : Version where
  task := notedTask head
  message := v.message
  statusUpdate := v.statusUpdate
  artifactUpdate := v.artifactUpdate
  metadata := fun task => task.2
  withMetadata := fun task md => (task.1, md)

theorem get_noted (metadata : Option JsonFields) (rest : JsonFields) {key : String}
    (h : key ≠ "metadata") : (noted metadata rest).get key = rest.get key := by
  cases metadata with
  | none => rfl
  | some md =>
    rw [noted, JsonFields.get, if_neg h.symm]
    cases rest.get key <;> rfl

theorem notedVersion_modelCopy (v : Version) {head : List (String × Json)}
    (hhead : ∀ id, ((textTask head).dump id).get "metadata" = none) :
    (notedVersion v head).ModelCopy where
  metadata_withMetadata _ _ := rfl
  withMetadata_withMetadata _ _ _ := rfl
  dump_metadata := by
    rintro ⟨id, metadata⟩
    cases metadata with
    | none => exact hhead id
    | some md =>
      show (JsonFields.cons "metadata" (.object md) ((textTask head).dump id)).get "metadata" = _
      rw [JsonFields.get, hhead id]
      exact if_pos rfl
  dump_rest := by
    rintro ⟨id, metadata⟩ md key hkey
    exact (get_noted md _ hkey).trans (get_noted metadata _ hkey).symm

/-- The protocol for texts, with metadata. -/
def notedProtocol : Protocol where
  v03 := notedVersion textProtocol.v03 [("kind", .string "task")]
  v10 := notedVersion textProtocol.v10 []
  taskId := fun task => task.1
  artifactIds := fun _ => []
  updateTaskId := textProtocol.updateTaskId
  updateArtifactId := textProtocol.updateArtifactId
  convertTask := fun task => task
  convertMessage := textProtocol.convertMessage
  convertStatusUpdate := textProtocol.convertStatusUpdate
  convertArtifactUpdate := textProtocol.convertArtifactUpdate
  setFinal := textProtocol.setFinal
  idFirst := false

theorem notedProtocol_keepsMetadata : notedProtocol.KeepsMetadata where
  v03 := notedVersion_modelCopy _ fun _ => rfl
  v10 := notedVersion_modelCopy _ fun _ => rfl
  convertTask _ _ := rfl

/-- A task of a tenant. -/
def tenantTask : notedProtocol.v10.task.Value :=
  ("t1", some (members [(metaTenantKey, .string "acme"), ("project", .string "x")]))

/-- The tenant is not told, the project is. -/
theorem tenant_stays : ∃ emitted,
    (Binding.jsonrpcV10.answer .null (.get tenantTask : CallResult notedProtocol)).valueAt
      [.key "result"] = some (.object emitted) ∧
    (emittedMetadata emitted).get metaTenantKey = none ∧
    (emittedMetadata emitted).get "project" = some (.string "x") := by
  obtain ⟨answers, -⟩ := internal_metadata_stays notedProtocol_keepsMetadata
  obtain ⟨j, hplace, emitted, rfl, hpublic⟩ :=
    answers .jsonrpcV10 .null (.get tenantTask) 0 tenantTask rfl
  refine ⟨emitted, hplace, ?_, ?_⟩
  · exact frameworkKeys_hidden hpublic metaTenantKey (by simp [frameworkKeys])
  · exact hpublic.kept "project" (by decide +kernel)

end A2AKit.Sse
