/-
The requests of the task manager.

`send_message` and `stream_message` submit a message, as a new task or to an existing one,
and hand an operation to the broker unless the submission was a repetition.  The hand-over
runs in a background task (`_enqueue_or_fail`), which the request starts and does not await.

A request works on the `Office`: the world, and for every party a `Account` of the writes
that it has committed and the operations that it has handed over.  Its operations are those
of `Op`, the creation of the task, the start of the background task and, inside of it, the
call into the broker.
-/
import A2AKit.Hosted
import A2AKit.Submission

namespace A2AKit

/-- `createTask` returns the task and the just-created marker, `enqueue` is
`_track_background(_enqueue_or_fail(...))`, and `runTask` is `broker.run_task`, which answers
whether it has raised. -/
inductive DeskOp : Type → Type
  | createTask (contextId : ContextId) (message : Message) : DeskOp (Task × Bool)
  | enqueue (message : Message) : DeskOp Unit
  | runTask : DeskOp Bool

/-- An operation of a request: on the task, or beside it. -/
abbrev Call (β : Type) : Type := Op β ⊕ DeskOp β

/-- What a party has done: the number of its writes that were committed, and the operations
that it has handed over. -/
structure Account where
  commits : Nat := 0
  handed : List Message := []
  deriving DecidableEq

structure Office (ι : Type) where
  world : World
  accounts : ι → Account := fun _ => {}

abbrev RequestM := Act Call Unit Exc

/-- A program of the emitter inside of a request. -/
abbrev onTask {α : Type} (m : TaskM Unit α) : RequestM α := Act.lift (fun _ => Sum.inl) m

namespace Office

variable {ι : Type} [DecidableEq ι]

/-- Party `i` has left the world as `w`. -/
def put (o : Office ι) (i : ι) (w : World) : Office ι where
  world := w
  accounts :=
    if w.row.map Row.version = o.world.row.map Row.version then o.accounts
    else Function.update o.accounts i
      { o.accounts i with commits := (o.accounts i).commits + 1 }

/-- What an operation of party `i` does and answers. -/
def perform (cfg : BusConfig) (taskId : TaskId) (i : ι) {β : Type} (e : Call β) (o : Office ι) :
    Option (Office ι × β) :=
  match e with
  | .inl e => (World.perform cfg taskId e o.world).map fun r => (o.put i r.1, r.2)
  | .inr (.createTask contextId message) =>
    match o.world.row with
    | some row => some (o, row.task, false)
    | none =>
      let key := some message.messageId
      let task := initialTask taskId contextId message key o.world.ambient.now
      some (o.put i { o.world with row := some { task, version := 1, idempotencyKey := key } },
        task, true)
  | .inr (.enqueue message) =>
    let entry := { o.accounts i with handed := (o.accounts i).handed ++ [message] }
    some ({ o with accounts := Function.update o.accounts i entry }, ())
  | .inr .runTask => some (o, o.world.ambient.raises)

theorem put_self (o : Office ι) (i : ι) : o.put i o.world = o := by
  simp [put]

@[simp] theorem put_world (o : Office ι) (i : ι) (w : World) : (o.put i w).world = w := rfl

/-- A commit is entered into the account of the party that has made it. -/
theorem put_commit {o : Office ι} {i : ι} {w : World} {row row' : Row}
    (hrow : o.world.row = some row) (hrow' : w.row = some row') (hlt : row.version < row'.version) :
    (o.put i w).accounts = Function.update o.accounts i
      { o.accounts i with commits := (o.accounts i).commits + 1 } := by
  have hne : w.row.map Row.version ≠ o.world.row.map Row.version := by
    rw [hrow, hrow', Option.map_some, Option.map_some]
    intro heq
    have hver := Option.some_inj.mp heq
    omega
  simp [put, hne]

/-- Without a new row nothing is entered. -/
theorem put_same {o : Office ι} {i : ι} {w : World} (hrow : w.row = o.world.row) :
    (o.put i w).accounts = o.accounts := by
  simp [put, hrow]

theorem perform_op {cfg : BusConfig} {taskId : TaskId} {i : ι} {β : Type} {e : Op β}
    {o o' : Office ι} {b : β} (h : perform cfg taskId i (.inl e : Call β) o = some (o', b)) :
    World.perform cfg taskId e o.world = some (o'.world, b) ∧ o' = o.put i o'.world := by
  obtain ⟨⟨w, b'⟩, hperf, hput⟩ := Option.map_eq_some_iff.mp h
  obtain ⟨rfl, rfl⟩ := Prod.mk.inj hput
  exact ⟨hperf, rfl⟩

/-- An operation that does not commit leaves the row and the accounts alone. -/
theorem unchanged_of_perform {cfg : BusConfig} {taskId : TaskId} {i : ι} {β : Type} {e : Op β}
    {o o' : Office ι} {b : β} (h : perform cfg taskId i (.inl e : Call β) o = some (o', b))
    (he : e.commits = false) : o'.world.row = o.world.row ∧ o'.accounts = o.accounts := by
  obtain ⟨hperf, hput⟩ := perform_op h
  have hrow := (World.row_of_perform hperf he).1
  exact ⟨hrow, by rw [hput]; exact put_same hrow⟩

/-- A request hosts the programs of the emitter. -/
theorem hosts {cfg : BusConfig} {taskId : TaskId} {i : ι} {env : Office ι → Office ι → Prop}
    {ok req : {β : Type} → Call β → Office ι → Prop}
    (henv : ∀ o o', env o o' → MovesOn o.world.row o'.world.row) :
    Hosts cfg taskId (System.comap ⟨perform cfg taskId i, env, ok, req⟩ fun _ => Sum.inl)
      (Office.world (ι := ι)) where
  perform _ _ _ _ hperf := (perform_op hperf).1
  same e o o' b hperf hworld := by
    rw [(perform_op hperf).2, hworld, put_self]
  moves := henv

end Office

/-! ### Programs -/

/-- What the client waits for. -/
inductive Mode
  | blocking
  | returnImmediately
  | stream
  deriving DecidableEq, Repr

/-- The parameters of a request.  `inlineConfig` says that it carries a push configuration and
that there is a store for it, `historyLength` that it asks for a part of the history. -/
structure SendParams where
  message : Message
  tenant : Option String := none
  inlineConfig : Bool := false
  historyLength : Bool := false
  mode : Mode := .blocking

/-- `{META_TENANT_KEY: tenant}` -/
def tenantMetadata (tenant : String) : TaskMetadata where
  entries := (∅ : Dict).insert metaTenantKey tenant
  noTransitions := by
    rw [AList.mem_insert]
    rintro (hkey | hempty)
    · exact absurd hkey (by decide)
    · exact AList.notMem_empty _ hempty

namespace TaskManager

variable (k : StorageKind)

/-- `msg.context_id or str(uuid.uuid4())` -/
def resolveContext (message : Message) : RequestM ContextId :=
  if message.contextId = "" then onTask (Act.perform .uuid) else pure message.contextId

/-- `_submit_task` -/
def submit (message : Message) : RequestM (Task × Bool) := do
  if message.taskId = "" then do
    let contextId ← resolveContext message
    onTask k.checkpoint
    let created ← Act.perform (.inr (.createTask contextId message))
    onTask k.checkpoint
    pure created
  else onTask (submitTask k message)

/-- The tenant of a new task. -/
def persistTenant (params : SendParams) (shouldEnqueue : Bool) : RequestM Unit :=
  match params.tenant with
  | none => pure ()
  | some tenant =>
    if params.message.taskId = "" ∧ shouldEnqueue ∧ tenant ≠ "" then do
      let _ ← onTask (updateTask k .other { taskMetadata := tenantMetadata tenant })
      pure ()
    else pure ()

/-- The inline push configuration. -/
def setConfig (params : SendParams) : RequestM Unit :=
  if params.inlineConfig then onTask (checkpoint .plain) else pure ()

/-- `_bind_message` -/
def bindMessage (message : Message) (task : Task) : Message :=
  { message with
    contextId :=
      if message.taskId = "" ∧ message.contextId ≠ "" then message.contextId else task.contextId
    taskId := task.id }

/-- `load_task`, and once more for the trimmed history; a task that is gone is answered with
what is known of it. -/
def currentTask (params : SendParams) (task : Task) : RequestM Task := do
  let latest ← onTask (loadTask k .other)
  if params.historyLength then do
    let trimmed ← onTask (loadTask k .other)
    pure ((trimmed <|> latest).getD task)
  else pure (latest.getD task)

/-- A blocking request subscribes before the hand-over, and waits for a marker after it. -/
def handOver (params : SendParams) (bound : Message) : RequestM Unit :=
  if params.mode = .blocking then do
    onTask (checkpoint .plain)
    Act.perform (.inr (.enqueue bound))
    onTask (checkpoint .plain)
  else Act.perform (.inr (.enqueue bound))

/-- `send_message`, after the submission. -/
def sendRest (params : SendParams) (task : Task) (shouldEnqueue : Bool) : RequestM Task :=
  if shouldEnqueue then do
    setConfig params
    handOver params (bindMessage params.message task)
    currentTask k params task
  else currentTask k params task

/-- The trimmed task of `stream_message`. -/
def snapshot (params : SendParams) : RequestM (Option Task) :=
  if params.historyLength then onTask (loadTask k .other) else pure none

/-- `stream_message`, from the submission to the first snapshot. -/
def streamRest (params : SendParams) (task : Task) (shouldEnqueue : Bool) : RequestM Task := do
  setConfig params
  let trimmed ← snapshot k params
  onTask (checkpoint .plain)
  if shouldEnqueue then do
    Act.perform (.inr (.enqueue (bindMessage params.message task)))
    pure (trimmed.getD task)
  else do
    let fresh ← onTask (loadTask k .other)
    pure (fresh.getD (trimmed.getD task))

/-- `send_message` and `stream_message` -/
def sendMessage (params : SendParams) : RequestM Task := do
  let (task, shouldEnqueue) ← submit k params.message
  persistTenant k params shouldEnqueue
  if params.mode = .stream then streamRest k params task shouldEnqueue
  else sendRest k params task shouldEnqueue

/-- The marker of a task that was loaded again. -/
def announceStored (taskId : TaskId) (task : Option Task) : RequestM Unit :=
  match task with
  | none => pure ()
  | some task => onTask (Emitter.sendEvent false (.terminalMarker taskId task.contextId task.status))

/-- The handler of `_enqueue_or_fail`. -/
def failSubmitted (taskId : TaskId) : RequestM Unit := do
  let version ← onTask (getVersion k)
  match ← onTask (loadTask k .other) with
  | none => pure ()
  | some task =>
    if task.status.state ≠ .submitted then pure ()
    else do
      let errorMsg := agentMessage taskId task.contextId (← onTask (Act.perform .uuid))
        "Failed to enqueue task"
      let written ← tryCatchThe Exc (do
        let _ ← onTask (Emitter.updateTask k .other (endingArgs .failed errorMsg [] version))
        pure true) fun
        | .storage (.concurrency ..) => pure false
        | .storage (.taskTerminalState _) => pure false
        | x => throw x
      if written then do
        let task ← onTask (loadTask k .other)
        announceStored taskId task
      else pure ()

/-- `_enqueue_or_fail` -/
def enqueueOrFail (taskId : TaskId) : RequestM Unit := do
  if ← Act.perform (.inr .runTask) then
    tryCatchThe Exc (failSubmitted k taskId) fun x => if x.isException then pure () else throw x
  else pure ()

end TaskManager

end A2AKit
