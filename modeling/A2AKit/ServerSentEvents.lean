/-
The streams of the four server bindings, and the clients that read them.

The models of the protocol are parameters: how they are dumped and validated, and how those of
version 1.0 are converted to those of version 0.3.  `Protocol.Documented` says what the code relies
on: a dumped value is validated to itself, and the members that tell the kinds apart.
-/
import A2AKit.EventStream
import A2AKit.JsonText

namespace A2AKit.Sse

open EventStream

/-- A class of models: `model_dump(mode="json", by_alias=True, exclude_none=True)` and
`model_validate`. -/
structure Model where
  Value : Type
  dump : Value → JsonFields
  validate : Json → Option Value

/-- The models of one version. -/
structure Version where
  task : Model
  message : Model
  statusUpdate : Model
  artifactUpdate : Model
  metadata : task.Value → Option JsonFields
  withMetadata : task.Value → Option JsonFields → task.Value

structure Protocol where
  v03 : Version
  v10 : Version
  taskId : v10.task.Value → String
  artifactIds : v10.task.Value → List String
  updateTaskId : v10.artifactUpdate.Value → String
  updateArtifactId : v10.artifactUpdate.Value → String
  convertTask : v10.task.Value → v03.task.Value
  convertMessage : v10.message.Value → v03.message.Value
  convertStatusUpdate : v10.statusUpdate.Value → v03.statusUpdate.Value
  convertArtifactUpdate : v10.artifactUpdate.Value → v03.artifactUpdate.Value
  /-- `model_copy(update={"final": True})` -/
  setFinal : v03.statusUpdate.Value → v03.statusUpdate.Value
  /-- whether the writer of `ServerSentEvent`s has the id before the data -/
  idFirst : Bool

def Model.Lossless (m : Model) : Prop := ∀ x, m.validate (.object (m.dump x)) = some x

structure Version.Lossless (v : Version) : Prop where
  task : v.task.Lossless
  message : v.message.Lossless
  statusUpdate : v.statusUpdate.Lossless
  artifactUpdate : v.artifactUpdate.Lossless

/-- Every model of version 0.3 has a member `kind`. -/
structure Version.Kinds (v : Version) : Prop where
  task : ∀ x, (v.task.dump x).get "kind" = some (.string "task")
  message : ∀ x, (v.message.dump x).get "kind" = some (.string "message")
  statusUpdate : ∀ x, (v.statusUpdate.dump x).get "kind" = some (.string "status-update")
  artifactUpdate : ∀ x, (v.artifactUpdate.dump x).get "kind" = some (.string "artifact-update")

/-- The members of the tasks and the messages of version 1.0. -/
structure Version.Shapes (v : Version) : Prop where
  task : ∀ x, (v.task.dump x).has "status" = true ∧ (v.task.dump x).has "id" = true
  message : ∀ x, (v.message.dump x).has "role" = true ∧ (v.message.dump x).has "parts" = true ∧
    (v.message.dump x).has "status" = false
  task_bare : ∀ x, (v.task.dump x).has "taskStatusUpdate" = false ∧
    (v.task.dump x).has "taskArtifactUpdate" = false
  message_bare : ∀ x, (v.message.dump x).has "taskStatusUpdate" = false ∧
    (v.message.dump x).has "taskArtifactUpdate" = false

structure Protocol.Documented (P : Protocol) : Prop where
  lossless03 : P.v03.Lossless
  lossless10 : P.v10.Lossless
  kinds : P.v03.Kinds
  shapes : P.v10.Shapes

/-- The id of an event on a bus: a word. -/
structure EventId where
  text : String
  nonempty : text ≠ ""
  word : ∀ c ∈ text.toList, isSpace c = false

variable (P : Protocol)

inductive StreamEvent
  | task (task : P.v10.task.Value)
  | message (message : P.v10.message.Value)
  | statusUpdate (event : P.v10.statusUpdate.Value)
  | artifactUpdate (event : P.v10.artifactUpdate.Value)
  | directReply (message : P.v10.message.Value)
  | terminalMarker (event : P.v10.statusUpdate.Value)

/-- An object of version 0.3. -/
inductive V03Object
  | task (task : P.v03.task.Value)
  | message (message : P.v03.message.Value)
  | statusUpdate (event : P.v03.statusUpdate.Value)
  | artifactUpdate (event : P.v03.artifactUpdate.Value)

/-- What a client yields. -/
structure ClientEvent where
  raw : V03Object P
  eventId : Option (List Char)

variable {P}

namespace StreamEvent

def isDirectReply : StreamEvent P → Bool
  | .directReply _ => true
  | _ => false

def isTerminalMarker : StreamEvent P → Bool
  | .terminalMarker _ => true
  | _ => false

end StreamEvent

def V03Object.dump : V03Object P → JsonFields
  | .task t => P.v03.task.dump t
  | .message m => P.v03.message.dump m
  | .statusUpdate e => P.v03.statusUpdate.dump e
  | .artifactUpdate e => P.v03.artifactUpdate.dump e

/-! ### What the servers write -/

/-- `_sanitize_task_for_client`, `sanitize_task_v10` -/
def sanitizeTask (v : Version) (task : v.task.Value) : v.task.Value :=
  match v.metadata task with
  | none => task
  | some .nil => task
  | some md =>
    let cleaned := md.filterKeys fun k => !("_".isPrefixOf k)
    if cleaned.keys.length = md.keys.length then task
    else v.withMetadata task (if cleaned.keys = [] then none else some cleaned)

/-- `_v10_to_v03_wire` -/
def v10ToV03Wire : StreamEvent P → V03Object P × Bool
  | .directReply message => (.message (P.convertMessage message), false)
  | .terminalMarker event => (.statusUpdate (P.setFinal (P.convertStatusUpdate event)), true)
  | .task task => (.task (P.convertTask task), false)
  | .message message => (.message (P.convertMessage message), false)
  | .statusUpdate event => (.statusUpdate (P.convertStatusUpdate event), false)
  | .artifactUpdate event => (.artifactUpdate (P.convertArtifactUpdate event), false)

def V03Object.sanitized : V03Object P → V03Object P
  | .task t => .task (sanitizeTask P.v03 t)
  | obj => obj

/-- `model_dump_json` -/
def modelDumpJson (obj : V03Object P) : List Char :=
  Json.write ⟨false, false⟩ (.object obj.dump)

/-- `json.dumps` -/
def jsonDumps (j : Json) : List Char := Json.write ⟨true, true⟩ j

/-- `_wrap_stream_event` -/
def wrapStreamEvent : StreamEvent P → List Char
  | .directReply message => modelDumpJson (.message (P.convertMessage message))
  | event => modelDumpJson (v10ToV03Wire event).1.sanitized

/-- `_serialize` -/
def serialize : StreamEvent P → JsonFields
  | .terminalMarker event =>
    (V03Object.statusUpdate (P.setFinal (P.convertStatusUpdate event))).sanitized.dump
  | .directReply message => (V03Object.message (P.convertMessage message)).sanitized.dump
  | .task task => (V03Object.task (P.convertTask task)).sanitized.dump
  | .message message => (V03Object.message (P.convertMessage message)).sanitized.dump
  | .statusUpdate event =>
    (V03Object.statusUpdate (P.convertStatusUpdate event)).sanitized.dump
  | .artifactUpdate event =>
    (V03Object.artifactUpdate (P.convertArtifactUpdate event)).sanitized.dump

/-- The tasks that a stream of version 1.0 has sent, by id. -/
abbrev TaskCache (P : Protocol) := List (String × P.v10.task.Value)

/-- The position of an artifact in the task that was sent. -/
def artifactIndex (cache : TaskCache P) (event : P.v10.artifactUpdate.Value) : Option Nat :=
  match cache.lookup (P.updateTaskId event) with
  | none => none
  | some task => (P.artifactIds task).findIdx? (· = P.updateArtifactId event)

/-- `wrap_stream_event_v10` -/
def wrapStreamEventV10 (event : StreamEvent P) (cache : TaskCache P) :
    JsonFields × TaskCache P :=
  match event with
  | .directReply message =>
    (.cons "message" (.object (P.v10.message.dump message)) .nil, cache)
  | .terminalMarker event =>
    (.cons "taskStatusUpdate" (.object (P.v10.statusUpdate.dump event)) .nil, cache)
  | .task task =>
    let sanitized := sanitizeTask P.v10 task
    (.cons "task" (.object (P.v10.task.dump sanitized)) .nil,
      (P.taskId sanitized, sanitized) :: cache)
  | .message message =>
    (.cons "message" (.object (P.v10.message.dump message)) .nil, cache)
  | .statusUpdate event =>
    (.cons "taskStatusUpdate" (.object (P.v10.statusUpdate.dump event)) .nil, cache)
  | .artifactUpdate event =>
    (.cons "taskArtifactUpdate" (.object (P.v10.artifactUpdate.dump event))
      (match artifactIndex cache event with
        | none => .nil
        | some i => .cons "index" (.number (.ofNat i)) .nil), cache)

/-- `_sse_data_v10`: a task or a message is sent bare. -/
def sseDataV10 (event : StreamEvent P) (cache : TaskCache P) : List Char × TaskCache P :=
  let (payload, cache) := wrapStreamEventV10 event cache
  match payload with
  | .cons key inner .nil =>
    if key = "task" ∨ key = "message" then (jsonDumps inner, cache)
    else (jsonDumps (.object payload), cache)
  | _ => (jsonDumps (.object payload), cache)

/-- The block of a `ServerSentEvent(raw_data=payload, id=eid)`. -/
def serverSentEvent (P : Protocol) (payload : List Char) (eventId : Option EventId) : List Char :=
  textOf (blockLines P.idFirst (eventId.map (·.text.toList)) payload)

/-- `{"jsonrpc": "2.0", "id": req_id, "result": result}` -/
def rpcEnvelope (reqId : Json) (result : JsonFields) : Json :=
  .object (.cons "jsonrpc" (.string "2.0") (.cons "id" reqId (.cons "result" (.object result) .nil)))

/-- `f"id: {eid or ''}\ndata: {json.dumps(payload)}\n\n"` -/
def rpcBlock (payload : Json) (eventId : Option EventId) : List Char :=
  "id: ".toList ++ ((eventId.map (·.text.toList)).getD [] ++
    ("\ndata: ".toList ++ (jsonDumps payload ++ "\n\n".toList)))

/-- The operations with a stream. -/
inductive Operation
  | messageStream
  | subscribe
  deriving DecidableEq, Repr

inductive Binding
  | restV03
  | jsonrpcV03
  | restV10
  | jsonrpcV10
  deriving DecidableEq, Repr

/-- A block of a binding's stream. -/
def Binding.block (b : Binding) (reqId : Json) (cache : TaskCache P) (eventId : Option EventId)
    (event : StreamEvent P) : List Char × TaskCache P :=
  match b with
  | .restV03 => (serverSentEvent P (wrapStreamEvent event) eventId, cache)
  | .jsonrpcV03 => (rpcBlock (rpcEnvelope reqId (serialize event)) eventId, cache)
  | .restV10 =>
    let (payload, cache) := sseDataV10 event cache
    (serverSentEvent P payload eventId, cache)
  | .jsonrpcV10 =>
    let (payload, cache) := wrapStreamEventV10 event cache
    (rpcBlock (rpcEnvelope reqId payload) eventId, cache)

/-- Whether the stream ends with a marker; the one of `tasks/resubscribe` goes on. -/
def Binding.breaks : Binding → Operation → Bool
  | .jsonrpcV03, .subscribe => false
  | _, _ => true

/-- The loop over the events after the first: direct replies are left out. -/
def Binding.streamRest (b : Binding) (operation : Operation) (reqId : Json) :
    TaskCache P → List (Option EventId × StreamEvent P) → List Char
  | _, [] => []
  | cache, (eventId, event) :: rest =>
    if event.isDirectReply then b.streamRest operation reqId cache rest
    else
      (b.block reqId cache eventId event).1 ++
        if event.isTerminalMarker ∧ b.breaks operation = true then []
        else b.streamRest operation reqId (b.block reqId cache eventId event).2 rest

/-- The text of a stream; the first event is sent as it is. -/
def Binding.stream (b : Binding) (operation : Operation) (reqId : Json)
    (events : List (Option EventId × StreamEvent P)) : List Char :=
  match events with
  | [] => []
  | (eventId, event) :: rest =>
    (b.block reqId [] eventId event).1 ++
      b.streamRest operation reqId (b.block reqId [] eventId event).2 rest

/-! ### What the clients read -/

inductive ClientError
  | invalidJson
  | jsonRpcError (code message : Option Json)
  | failedToDeserialize
  | unknownKind (kind : Option Json)
  | unknownShape (keys : List String)
  | unexpectedPayload
  | validationError
  | attributeError

/-- Whether the exception is a `ProtocolError`; the other ones are pydantic's, and Python's. -/
def ClientError.isProtocolError : ClientError → Bool
  | .validationError => false
  | .attributeError => false
  | _ => true

/-- The exception of an error envelope. -/
def errorEnvelope : Json → ClientError
  | .object err => .jsonRpcError (err.get "code") (err.get "message")
  | _ => .attributeError

/-- `_parse_json_payload` -/
def parseJsonPayload (payload : List Char) (unwrapJsonrpc : Bool) : Except ClientError Json :=
  match Json.read payload with
  | none => .error .invalidJson
  | some (.object raw) =>
    if unwrapJsonrpc then
      match raw.get "error" with
      | some err => .error (errorEnvelope err)
      | none => .ok ((raw.get "result").getD (.object raw))
    else .ok (.object raw)
  | some raw => .ok raw

/-- `Model.model_validate` in a `try` that makes every exception a `ProtocolError`. -/
def Model.deserialize (m : Model) (data : Json) : Except ClientError m.Value :=
  match m.validate data with
  | some x => .ok x
  | none => .error .failedToDeserialize

def Model.modelValidate (m : Model) (data : Json) : Except ClientError m.Value :=
  match m.validate data with
  | some x => .ok x
  | none => .error .validationError

/-- `_deserialize_event` -/
def deserializeEvent (P : Protocol) : Json → Except ClientError (V03Object P)
  | .object data =>
    match data.get "kind" with
    | some (.string kind) =>
      if kind = "task" then (P.v03.task.deserialize (.object data)).map .task
      else if kind = "status-update" then
        (P.v03.statusUpdate.deserialize (.object data)).map .statusUpdate
      else if kind = "artifact-update" then
        (P.v03.artifactUpdate.deserialize (.object data)).map .artifactUpdate
      else .error (.unknownKind (some (.string kind)))
    | kind => .error (.unknownKind kind)
  | _ => .error .attributeError

/-- A client that yields an event or raises. -/
def decoded (eventId : Option (List Char)) :
    Except ClientError (V03Object P) → Decoded (ClientEvent P) ClientError
  | .ok raw => .yields ⟨raw, eventId⟩
  | .error error => .raises error

/-- The decoding in `parse_sse_stream` -/
def decodeV03 (P : Protocol) (unwrapJsonrpc : Bool) (eventId : Option (List Char))
    (payload : List Char) : Decoded (ClientEvent P) ClientError :=
  decoded eventId ((parseJsonPayload payload unwrapJsonrpc).bind (deserializeEvent P))

/-- A bare task or message: a task has a `status`. -/
def decodeBare (P : Protocol) (raw : JsonFields) : Except ClientError (V03Object P) :=
  if raw.has "status" && raw.has "id" then
    (P.v10.task.modelValidate (.object raw)).map fun t => .task (P.convertTask t)
  else if raw.has "role" && raw.has "parts" then
    (P.v10.message.modelValidate (.object raw)).map fun m => .message (P.convertMessage m)
  else .error (.unknownShape raw.keys)

/-- `_decode_v10_sse_payload`, after `json.loads` -/
def decodeV10Object (P : Protocol) (raw : JsonFields) : Except ClientError (V03Object P) :=
  match raw.get "taskStatusUpdate" with
  | some j => (P.v10.statusUpdate.modelValidate j).map fun e => .statusUpdate (P.convertStatusUpdate e)
  | none =>
    match raw.get "taskArtifactUpdate" with
    | some j =>
      (P.v10.artifactUpdate.modelValidate j).map fun e => .artifactUpdate (P.convertArtifactUpdate e)
    | none => decodeBare P raw

/-- `_decode_v10_sse_payload` -/
def decodeV10SsePayload (P : Protocol) (eventId : Option (List Char)) (payload : List Char) :
    Decoded (ClientEvent P) ClientError :=
  match Json.read payload with
  | none => .raises .invalidJson
  | some (.object raw) => decoded eventId (decodeV10Object P raw)
  | some _ => .nothing

/-- The members of a result, in `_decode_sse_payload` -/
def decodeRpcResult (P : Protocol) (raw : JsonFields) : Except ClientError (V03Object P) :=
  match raw.get "taskStatusUpdate" with
  | some j => (P.v10.statusUpdate.modelValidate j).map fun e => .statusUpdate (P.convertStatusUpdate e)
  | none =>
    match raw.get "taskArtifactUpdate" with
    | some j =>
      (P.v10.artifactUpdate.modelValidate j).map fun e => .artifactUpdate (P.convertArtifactUpdate e)
    | none =>
      match raw.get "task" with
      | some j => (P.v10.task.modelValidate j).map fun t => .task (P.convertTask t)
      | none =>
        match raw.get "message" with
        | some j => (P.v10.message.modelValidate j).map fun m => .message (P.convertMessage m)
        | none => decodeBare P raw

/-- `_decode_sse_payload`; the exceptions of `_handle_response` are those of an error envelope. -/
def decodeSsePayload (P : Protocol) (eventId : Option (List Char)) (payload : List Char) :
    Decoded (ClientEvent P) ClientError :=
  match Json.read payload with
  | none => .raises .invalidJson
  | some (.object outer) =>
    match outer.get "error" with
    | some err => .raises (errorEnvelope err)
    | none =>
      match (outer.get "result").getD (.object outer) with
      | .object raw => decoded eventId (decodeRpcResult P raw)
      | _ => .raises .unexpectedPayload
  | some _ => .raises .unexpectedPayload

/-- The decoding of a binding's client. -/
def Binding.decode (P : Protocol) :
    Binding → Option (List Char) → List Char → Decoded (ClientEvent P) ClientError
  | .restV03 => decodeV03 P false
  | .jsonrpcV03 => decodeV03 P true
  | .restV10 => decodeV10SsePayload P
  | .jsonrpcV10 => decodeSsePayload P

/-- What a client yields for the text of a stream, and the exception that ends it. -/
def Binding.receive (P : Protocol) (b : Binding) (text : List Char) :
    List (ClientEvent P) × Option ClientError :=
  parse (b.decode P) .empty (splitLines text)

end A2AKit.Sse
