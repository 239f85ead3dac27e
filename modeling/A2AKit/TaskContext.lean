/-
The task context: what a handler calls during its turn.

`TaskContextImpl` buffers the artifacts a handler emits and writes them in batches:
when the buffer is old or long enough, together with a status text, or with the
lifecycle call that ends the turn.  Every write takes the buffer out first and puts it
back in front if the write raises; a lost race is retried once with a fresh version.

The private state of these programs is the context.  `emitted` is a history variable:
the writes that `emit_artifact` has buffered so far, with the artifacts as they were
built.
-/
import A2AKit.Emitter

namespace A2AKit

structure TaskContext where
  version : Option Nat := none
  turnEnded : Bool := false
  pending : List (ArtifactWrite Ref) := []
  lastFlush : Nat := 0
  emitted : List (ArtifactWrite Artifact) := []

abbrev TurnM := TaskM TaskContext

/-- `_flush_interval`, in milliseconds. -/
def flushInterval : Nat := 500

/-- `_flush_count` -/
def flushCount : Nat := 10

/-- The content arguments of `emit_artifact`. -/
structure Content where
  text : Option String := none
  data : Option String := none
  fileBytes : Option String := none
  fileUrl : Option String := none
  mediaType : Option String := none
  filename : Option String := none

/-- `_build_parts`; the list is empty when no content parameter is given. -/
def buildParts (c : Content) : List Part :=
  (c.text.map fun t => { text := some t, mediaType := c.mediaType : Part }).toList ++
  (c.data.map fun d =>
    { data := some d, mediaType := some ((c.mediaType.filter (· ≠ "")).getD "application/json") :
      Part }).toList ++
  (c.fileBytes.map fun b =>
    { raw := some b, mediaType := c.mediaType, filename := c.filename : Part }).toList ++
  (c.fileUrl.map fun u =>
    { url := some u, mediaType := c.mediaType, filename := c.filename : Part }).toList

/-- The arguments of `emit_artifact`. -/
structure EmitArgs where
  artifactId : String
  content : Content
  name : Option String := none
  description : Option String := none
  append : Bool := false
  lastChunk : Bool := false

def EmitArgs.artifact (a : EmitArgs) : Artifact :=
  { artifactId := a.artifactId
    name := a.name.getD ""
    description := a.description.getD ""
    parts := buildParts a.content }

/-- The lifecycle methods.  The data of `request_auth` is the JSON of what was given of
schemes, credentials hint and URL. -/
inductive Lifecycle
  | complete (text : Option String) (artifactId : String)
  | completeJson (data : String) (artifactId : String)
  | fail (reason : String)
  | reject (reason : Option String)
  | requestInput (question : String)
  | requestAuth (details authData : Option String)
  | respond (text : Option String)
  | replyDirectly (text : String)

/-- The artifact that a lifecycle call adds itself. -/
def Lifecycle.ownArtifact : Lifecycle → Option Artifact
  | .complete (some text) artifactId => some { artifactId, parts := [{ text := some text }] }
  | .completeJson data artifactId =>
    some { artifactId, parts := [{ data := some data, mediaType := some "application/json" }] }
  | _ => none

/-- What a handler does: calls on its context, and awaits of its own. -/
inductive HandlerCall
  | emitArtifact (a : EmitArgs)
  | sendStatus (message : Option String)
  | lifecycle (l : Lifecycle)
  | wait

/-- A handler as the tree of its calls; it sees what each of them raises, and ends with a
return or an exception of its own. -/
inductive Handler
  | done (r : Except Exc Unit)
  | call (c : HandlerCall) (next : Except Exc Unit → Handler)

def directReplyKey : String := "_a2akit_direct_reply"

/-- `{DIRECT_REPLY_KEY: message_id}` -/
def directReplyMetadata (messageId : String) : TaskMetadata where
  entries := (∅ : Dict).insert directReplyKey messageId
  noTransitions := by
    rw [AList.mem_insert]
    decide

/-- The states whose event ends the stream. -/
def endsStream (state : TaskState) : Bool :=
  state.isTerminal || state == .authRequired || state == .inputRequired

namespace TaskContext

variable (k : StorageKind) (taskId : TaskId) (contextId : Option ContextId)

/-- `_make_agent_message` -/
def makeAgentMessage (parts : List Part) : TurnM Message := do
  let messageId ← Act.perform .uuid
  pure { role := .agent, parts, messageId, taskId, contextId := contextId.getD "" }

/-- `exc.current_version or await self._storage.get_version(task_id)` -/
def freshVersion (currentVersion : Option Nat) : TurnM (Option Nat) :=
  match currentVersion.filter (· ≠ 0) with
  | some v => pure (some v)
  | none => getVersion k

def setVersion (version : Option Nat) : TurnM Unit :=
  Act.modify fun ctx => { ctx with version }

/-- `_versioned_update`; `batch` is what the caller has taken from the buffer. -/
def versionedUpdate (batch : List (ArtifactWrite Ref)) (args : UpdateArgs Ref) : TurnM Unit := do
  let ctx ← Act.get
  tryCatchThe Exc (do
    let newVersion ← Emitter.updateTask k (.turn batch false)
      { args with expectedVersion := ctx.version }
    setVersion (some newVersion)) fun
    | .storage (.concurrency _ currentVersion) => do
      match ← loadTask k .other with
      | none =>
        throw (.storage (.taskTerminalState s!"Task {taskId} vanished during update"))
      | some task =>
        if task.status.state.isTerminal && (args.state.isSome || args.statusMessage.isSome) then
          throw (.storage (.taskTerminalState s!"Task {taskId} reached terminal state during update"))
        else do
          let fresh ← freshVersion k currentVersion
          let newVersion ← Emitter.updateTask k (.turn batch true) { args with expectedVersion := fresh }
          setVersion (some newVersion)
    | x => throw x

/-- Take the buffered writes. -/
def takePending : TurnM (List (ArtifactWrite Ref)) := do
  let ctx ← Act.get
  Act.modify fun ctx => { ctx with pending := [] }
  pure ctx.pending

/-- Put a batch back, in front of what was buffered since. -/
def rebuffer (batch : List (ArtifactWrite Ref)) : TurnM Unit :=
  Act.modify fun ctx => { ctx with pending := batch ++ ctx.pending }

/-- The handlers of `_flush_artifacts` and `send_status` around a write of `batch`: a
lost race is skipped, and everything else is raised again.  Whether the write was made. -/
def writeOrSkip (batch : List (ArtifactWrite Ref)) (args : UpdateArgs Ref) : TurnM Bool :=
  tryCatchThe Exc (do
    versionedUpdate k taskId batch args
    pure true) fun
    | .storage (.concurrency _ currentVersion) => do
      rebuffer batch
      match currentVersion with
      | some v => setVersion (some v)
      | none => do
        let version ← getVersion k
        setVersion version
      pure false
    | x => do
      rebuffer batch
      throw x

def touchFlush : TurnM Unit := do
  let now ← Act.perform .monotonic
  Act.modify fun ctx => { ctx with lastFlush := now }

/-- `_flush_artifacts`, with a buffer that is not empty. -/
def flushArtifacts : TurnM Unit := do
  let batch ← takePending
  if ← writeOrSkip k taskId batch { artifacts := batch } then touchFlush

/-- `_maybe_flush` -/
def maybeFlush : TurnM Unit := do
  let ctx ← Act.get
  if ctx.pending.isEmpty then pure ()
  else do
    let now ← Act.perform .monotonic
    if ctx.lastFlush + flushInterval ≤ now ∨ flushCount ≤ ctx.pending.length then
      flushArtifacts k taskId

/-- `_emit_status` -/
def emitStatus (shielded : Bool) (state : TaskState) (message : Option Message) (final : Bool) :
    TurnM Unit := do
  let timestamp ← Act.perform .now
  let status : TaskStatus := { state, timestamp, message }
  Emitter.sendEvent shielded
    (if final then .terminalMarker taskId (contextId.getD "") status
      else .statusUpdate taskId (contextId.getD "") status)

/-- Events sent in order under the shield. -/
def sendEvents : List (StreamEvent Ref) → TurnM Unit
  | [] => pure ()
  | event :: events => do
    Emitter.sendEvent true event
    sendEvents events

/-- `_terminal_transition` -/
def terminalTransition (state : TaskState) (message : Option Message)
    (artifacts : List (ArtifactWrite Ref)) (taskMetadata : TaskMetadata)
    (preEvents : List (StreamEvent Ref)) : TurnM Unit := do
  let ctx ← Act.get
  if ctx.turnEnded then
    throw (.runtime (s!"Cannot transition to {state.value}: turn already ended. " ++
      "Only one lifecycle method (complete/fail/reject/respond/" ++
      "request_input/request_auth/reply_directly) may be called per turn."))
  else do
    let pending ← takePending
    tryCatchThe Exc (versionedUpdate k taskId pending
      { state := some state
        artifacts := pending ++ artifacts
        statusMessage := message
        messages := message.toList
        taskMetadata }) fun x => do
      rebuffer pending
      throw x
    Act.modify fun ctx => { ctx with turnEnded := true }
    sendEvents preEvents
    emitStatus taskId contextId true state message (endsStream state)

/-- `complete` and `complete_json` with an artifact. -/
def completeWith (artifact : Artifact) : TurnM Unit := do
  let r ← Act.perform (.newArtifact artifact)
  terminalTransition k taskId contextId .completed none [⟨r, false⟩] {}
    [.artifactUpdate taskId (contextId.getD "") r false true]

/-- A lifecycle method that only leaves a message. -/
def endWithMessage (state : TaskState) (parts : List Part) : TurnM Unit := do
  let message ← makeAgentMessage taskId contextId parts
  terminalTransition k taskId contextId state (some message) [] {} []

/-- The parts of the message of `request_auth`. -/
def authParts (details authData : Option String) : List Part :=
  let parts :=
    (details.map fun d => { text := some d : Part }).toList ++
    (authData.map fun d => { data := some d, mediaType := some "application/json" : Part }).toList
  if parts.isEmpty then [{ text := some "Authentication required." }] else parts

/-- `reply_directly` -/
def replyDirectly (text : String) : TurnM Unit := do
  let message ← makeAgentMessage taskId contextId [{ text := some text }]
  terminalTransition k taskId contextId .completed (some message) []
    (directReplyMetadata message.messageId) [.directReply message]

/-- A lifecycle method. -/
def runLifecycle : Lifecycle → TurnM Unit
  | .complete (some text) artifactId =>
    completeWith k taskId contextId { artifactId, parts := [{ text := some text }] }
  | .complete none _ => terminalTransition k taskId contextId .completed none [] {} []
  | .completeJson data artifactId =>
    completeWith k taskId contextId
      { artifactId, parts := [{ data := some data, mediaType := some "application/json" }] }
  | .fail reason => endWithMessage k taskId contextId .failed [{ text := some reason }]
  | .reject reason =>
    endWithMessage k taskId contextId .rejected
      [{ text := some ((reason.filter (· ≠ "")).getD "Task rejected.") }]
  | .requestInput question =>
    endWithMessage k taskId contextId .inputRequired [{ text := some question }]
  | .requestAuth details authData =>
    endWithMessage k taskId contextId .authRequired (authParts details authData)
  | .respond text =>
    endWithMessage k taskId contextId .completed (text.map fun t => { text := some t : Part }).toList
  | .replyDirectly text => replyDirectly k taskId contextId text

/-- `send_status` with a text, before the turn has ended. -/
def sendStatusText (message : String) : TurnM Unit := do
  let statusMsg ← makeAgentMessage taskId contextId [{ text := some message }]
  let pending ← takePending
  if ← writeOrSkip k taskId pending { statusMessage := some statusMsg, artifacts := pending } then do
    touchFlush
    emitStatus taskId contextId false .working (some statusMsg) false

/-- `send_status` -/
def sendStatus (message : Option String) : TurnM Unit := do
  let ctx ← Act.get
  if ctx.turnEnded then pure ()
  else
    match message with
    | none => emitStatus taskId contextId false .working none false
    | some text => sendStatusText k taskId contextId text

/-- `emit_artifact` -/
def emitArtifact (a : EmitArgs) : TurnM Unit := do
  let ctx ← Act.get
  if ctx.turnEnded then pure ()
  else if (buildParts a.content).isEmpty then
    throw (.runtime
      "At least one content parameter (text, data, file_bytes, file_url) must be provided.")
  else do
    let r ← Act.perform (.newArtifact a.artifact)
    -- streaming clients see the chunk first, the buffer is for the storage
    Emitter.sendEvent false
      (.artifactUpdate taskId (contextId.getD "") r a.append a.lastChunk)
    Act.modify fun ctx => { ctx with
      pending := ctx.pending ++ [⟨r, a.append⟩]
      emitted := ctx.emitted ++ [⟨a.artifact, a.append⟩] }
    maybeFlush k taskId

def runCall : HandlerCall → TurnM Unit
  | .emitArtifact a => emitArtifact k taskId contextId a
  | .sendStatus message => sendStatus k taskId contextId message
  | .lifecycle l => runLifecycle k taskId contextId l
  | .wait => checkpoint .plain

/-- A handler, as the sequence of its calls. -/
def runHandler : List HandlerCall → TurnM Unit
  | [] => pure ()
  | c :: cs => do
    runCall k taskId contextId c
    runHandler cs

/-- A handler whose next call may depend on how the calls before it have ended. -/
def run : Handler → TurnM Unit
  | .done (.ok _) => pure ()
  | .done (.error x) => throw x
  | .call c next => do
    let r ← tryCatchThe Exc (do
      runCall k taskId contextId c
      pure (.ok ())) fun x => pure (.error x)
    run (next r)

end TaskContext

end A2AKit
