/-
One task and everything that acts on it.

The worker turn and the two ladders that end a task are programs over the operations
`Op`: storage calls, publishing, clocks, await points.  They work on a `World`: the
stored row, the artifact objects that the process has built, and the event bus.
Other parties act on the same world between any two operations (`EnvStep`), as far
as the `Setting` allows:

* other writers of the task commit an `update_task`, or delete the task;
* a cancellation is requested, and is then delivered at some await or not;
* subscribers and the bus take steps, and `subscribe_task` loads its snapshot.

Artifact objects are shared by reference.  What another writer passes to
`update_task` are objects of its own, so its write is a write by value.
-/
import A2AKit.EventDelivery
import A2AKit.Interleave
import A2AKit.StorageInvariant

namespace A2AKit

/-- `StreamEvent`, over the way the artifact is represented. -/
inductive StreamEvent (α : Type)
  | artifactUpdate (taskId : TaskId) (contextId : ContextId) (artifact : α)
      (append lastChunk : Bool)
  | statusUpdate (taskId : TaskId) (contextId : ContextId) (status : TaskStatus)
  | terminalMarker (taskId : TaskId) (contextId : ContextId) (status : TaskStatus)
  | directReply (message : Message)
  deriving DecidableEq, Repr

namespace StreamEvent

/-- `_is_stream_terminal` -/
def isStreamTerminal {α : Type} : StreamEvent α → Bool
  | .terminalMarker .. => true
  | _ => false

/-- The event as it currently reads. -/
def read (h : Heap) : StreamEvent Ref → StreamEvent Artifact
  | .artifactUpdate taskId contextId r append lastChunk =>
    .artifactUpdate taskId contextId (h r) append lastChunk
  | .statusUpdate taskId contextId status => .statusUpdate taskId contextId status
  | .terminalMarker taskId contextId status => .terminalMarker taskId contextId status
  | .directReply message => .directReply message

/-- What a client does with an event: an artifact update is applied as a write. -/
def writes {α : Type} : StreamEvent α → List (ArtifactWrite α)
  | .artifactUpdate _ _ a append _ => [⟨a, append⟩]
  | _ => []

end StreamEvent

/-- A step of the bus, with the artifact objects as they were then. -/
structure BusRecord where
  action : BusAction (StreamEvent Ref)
  out : Option (SubId × LogEntry (StreamEvent Ref))
  heap : Heap

/-- What the surroundings decide: the clocks, `uuid4`, whether a requested cancellation
is delivered at the next await, and whether a call into the broker or the dispatched
operation raises. -/
structure Ambient where
  now : Timestamp
  monotonic : Nat
  uuid : String
  interrupt : Bool := false
  raises : Bool := false

/-- `next` is the next artifact object to be built, `cancelled` whether the task's
cancellation was requested, `inScope` whether the program is inside the cancel scope that
such a request cancels, and `snapshots` what `subscribe_task` has loaded.  `others`
are the artifact writes that other writers have committed, `written` the states that the
modelled programs have committed, `published` the events that they have published, as they
read then, and `history` the steps of the bus. -/
structure World where
  row : Option Row
  heap : Heap
  next : Ref
  ambient : Ambient
  cancelled : Bool := false
  inScope : Bool := false
  bus : InMemoryEventBus (StreamEvent Ref) := {}
  snapshots : SubId → Option Task := fun _ => none
  others : List (ArtifactWrite Artifact) := []
  written : List TaskState := []
  published : List (StreamEvent Artifact) := []
  history : List BusRecord := []

/-- A storage whose `update_task` is split into a read and a guarded write. -/
inductive SplitStorage
  | sql
  | redis
  deriving DecidableEq, Repr

def SplitStorage.backend : SplitStorage → Backend
  | .sql => SQLStorageBase.backend
  | .redis => RedisStorage.backend

/-- The storage behind the emitter. -/
inductive StorageKind
  | memory
  | split (b : SplitStorage)
  deriving DecidableEq, Repr

/-- Which part of the code makes a storage call: the turn, which puts `buffered` back
if the call raises and whose `second` attempt follows a lost race, the first attempt, the
retry or the artifact-only fallback of a ladder, the validation of a follow-up message, the
reload after its write has lost a race, or something else. -/
inductive Site
  | turn (buffered : List (ArtifactWrite Ref)) (second : Bool)
  | guarded
  | retry
  | fallback
  | validation
  | conflict
  | other

/-- Where a cancellation can be delivered: between merge and commit of a write, after
the commit and before `update_task` of the emitter returns, or elsewhere. -/
inductive AwaitPoint
  | plain
  | merged (site : Site) (args : UpdateArgs Ref) (row : Row)
  | committed (site : Site) (args : UpdateArgs Ref)

inductive Op : Type → Type
  | getVersion : Op (Option Nat)
  | loadTask (site : Site) : Op (Option Task)
  | update (site : Site) (args : UpdateArgs Ref) : Op (Except StorageError Nat)
  | updateRead (b : SplitStorage) (site : Site) (args : UpdateArgs Ref) :
      Op (Except StorageError (Row × Values))
  | updateWrite (b : SplitStorage) (site : Site) (args : UpdateArgs Ref) (attempt : Nat) (row : Row)
      (values : Values) : Op WriteOutcome
  | newArtifact (artifact : Artifact) : Op Ref
  | publish (event : StreamEvent Ref) : Op Nat
  | published (id : Nat) : Op Unit
  | withdraw (id : Nat) : Op Unit
  | await (pt : AwaitPoint) : Op Bool
  | setInScope (inScope : Bool) : Op Unit
  | isCancelled : Op Bool
  | now : Op Timestamp
  | monotonic : Op Nat
  | uuid : Op String
  | busCleanup : Op Unit
  | registryCleanup (releaseKey : Bool) : Op Unit
  | dispatch : Op Bool
  | ack (last : Bool) : Op Bool
  | nack (delaySeconds : Nat) : Op Bool

namespace World

/-- A publisher still waits for the subscriber lock. -/
def isWaiting (taskId : TaskId) (id : Nat) : Waiter (StreamEvent Ref) → Bool
  | .publish t entry => t == taskId && entry.id == id
  | _ => false

def busStep (cfg : BusConfig) (w : World) (a : BusAction (StreamEvent Ref)) : Option World :=
  (w.bus.step cfg StreamEvent.isStreamTerminal a).map fun out =>
    { w with bus := out.1, history := w.history ++ [⟨a, out.2, w.heap⟩] }

/-- A cancellation was requested and is delivered. -/
def interrupted (w : World) : Bool := w.cancelled && w.inScope && w.ambient.interrupt

/-- What an operation does and answers; `none` while it is blocked. -/
def perform (cfg : BusConfig) (taskId : TaskId) {β : Type} (e : Op β) (w : World) :
    Option (World × β) :=
  match e with
  | .getVersion => some (w, w.row.map Row.version)
  | .loadTask _ => some (w, w.row.map Row.task)
  | .update _ args =>
    match w.row with
    | none => some (w, .error (.taskNotFound "task not found"))
    | some row =>
      match InMemoryStorage.updateTask taskId w.heap (some (row.task, row.version)) args
          w.ambient.now with
      | .error e => some (w, .error e)
      | .ok (task, version) =>
        some ({ w with
          row := some { row with task, version }
          written := w.written ++ args.state.toList }, .ok version)
  | .updateRead b _ args =>
    let out := b.backend.updateRead taskId w.heap w.row args w.ambient.now
    some ({ w with heap := out.1 }, out.2)
  | .updateWrite b _ args attempt row values =>
    match b.backend.updateWrite taskId w.row args attempt row values with
    | .committed row' =>
      some ({ w with row := some row', written := w.written ++ args.state.toList },
        .committed row')
    | out => some (w, out)
  | .newArtifact artifact =>
    some ({ w with heap := Function.update w.heap w.next artifact, next := w.next + 1 }, w.next)
  | .publish event =>
    (w.busStep cfg (.publish taskId event)).map fun w' =>
      ({ w' with published := w.published ++ [event.read w.heap] }, w'.bus.counters taskId)
  | .published id => if w.bus.lock.any (isWaiting taskId id) then none else some (w, ())
  | .withdraw id =>
    -- a publisher leaves the lock queue only when it is cancelled
    if w.cancelled && w.inScope then
      some ({ w with bus :=
        { w.bus with lock := w.bus.lock.filter fun q => !isWaiting taskId id q } }, ())
    else none
  | .await _ => some (w, w.interrupted)
  | .setInScope inScope => some ({ w with inScope }, ())
  | .isCancelled => some (w, w.cancelled)
  | .now => some (w, w.ambient.now)
  | .monotonic => some (w, w.ambient.monotonic)
  | .uuid => some (w, w.ambient.uuid)
  | .busCleanup => (w.busStep cfg (.cleanup taskId)).map fun w' => (w', ())
  | .registryCleanup _ => some (w, ())
  | .dispatch => some (w, w.ambient.raises)
  | .ack _ => some (w, w.ambient.raises)
  | .nack _ => some (w, w.ambient.raises)

/-- Another writer's `update_task` with the artifact objects `h`. -/
def otherWrite (w : World) (row : Row) (h : Heap) (args : UpdateArgs Ref) (now : Timestamp) :
    World :=
  { w with
    row := some { row with
      task := InMemoryStorage.updatedTask h row.task args now, version := row.version + 1 }
    others := w.others ++ resolve h args.artifacts }

end World

/-- A stored task, and nothing else yet. -/
def World.holding (task : Task) (version : Nat) : World :=
  { row := some { task, version }
    heap := fun _ => { artifactId := "", parts := [] }
    next := 0
    ambient := { now := "", monotonic := 0, uuid := "" } }

def workingTask : Task :=
  { id := "t", contextId := "c", status := { state := .working, timestamp := "" }
    history := [], artifacts := [], metadata := {} }

/-- The task is terminal or gone. -/
def World.ended (w : World) : Prop :=
  ∀ row, w.row = some row → row.task.status.state.isTerminal = true

/-- What the code takes for granted where it releases a task's resources, or
acknowledges an operation for the last time. -/
def World.required {β : Type} (e : Op β) (w : World) : Prop :=
  match e with
  | .busCleanup => w.ended
  | .registryCleanup true => w.ended
  | .ack true => w.ended
  | _ => True

/-! ### What an operation changes -/

/-- The operation neither writes the task, nor announces an end, nor moves the scope. -/
def Op.quiet {β : Type} : Op β → Bool
  | .update .. => false
  | .updateRead .. => false
  | .updateWrite .. => false
  | .publish event => !event.isStreamTerminal
  | .setInScope _ => false
  | _ => true

/-- The worlds that an operation can lead to. -/
inductive Performed (cfg : BusConfig) (taskId : TaskId) (w : World) :
    {β : Type} → Op β → World → Prop
  | same {β : Type} {e : Op β} : Performed cfg taskId w e w
  | commit {β : Type} {e : Op β} {row row' : Row} {states : List TaskState} :
      e.quiet = false → w.row = some row →
      Performed cfg taskId w e { w with row := some row', written := w.written ++ states }
  | merge {b : SplitStorage} {site : Site} {args : UpdateArgs Ref} :
      Performed cfg taskId w (.updateRead b site args)
        { w with heap := (b.backend.updateRead taskId w.heap w.row args w.ambient.now).1 }
  | alloc {artifact : Artifact} : Performed cfg taskId w (.newArtifact artifact)
      { w with heap := Function.update w.heap w.next artifact, next := w.next + 1 }
  | publish {event : StreamEvent Ref} {w' : World} :
      w.busStep cfg (.publish taskId event) = some w' →
      Performed cfg taskId w (.publish event)
        { w' with published := w.published ++ [event.read w.heap] }
  | withdraw {id : Nat} : (w.cancelled && w.inScope) = true →
      Performed cfg taskId w (.withdraw id) { w with bus :=
        { w.bus with lock := w.bus.lock.filter fun q => !World.isWaiting taskId id q } }
  | scope {inScope : Bool} : Performed cfg taskId w (.setInScope inScope) { w with inScope }
  | cleanup {w' : World} : w.busStep cfg (.cleanup taskId) = some w' →
      Performed cfg taskId w .busCleanup w'

theorem World.busStep_some {cfg : BusConfig} {w w' : World} {a : BusAction (StreamEvent Ref)}
    (h : w.busStep cfg a = some w') :
    ∃ out, w.bus.step cfg StreamEvent.isStreamTerminal a = some out ∧
      w' = { w with bus := out.1, history := w.history ++ [⟨a, out.2, w.heap⟩] } := by
  obtain ⟨out, hout, rfl⟩ := Option.map_eq_some_iff.mp h
  exact ⟨out, hout, rfl⟩

theorem SplitStorage.stored_of_committed {b : SplitStorage} {taskId : TaskId} {stored : Option Row}
    {args : UpdateArgs Ref} {attempt : Nat} {row row' : Row} {values : Values}
    (h : b.backend.updateWrite taskId stored args attempt row values = .committed row') :
    ∃ cur, stored = some cur := by
  rcases stored with _ | cur
  · cases b with
    | sql =>
      change SQLStorageBase.updateWrite taskId none args attempt row values = _ at h
      simp only [SQLStorageBase.updateWrite, Option.filter_none] at h
      split at h <;> simp at h
    | redis =>
      change RedisStorage.updateWrite taskId none args attempt row values = _ at h
      simp [RedisStorage.updateWrite, RedisStorage.updateTaskLua] at h
  · exact ⟨cur, rfl⟩

theorem World.performed {cfg : BusConfig} {taskId : TaskId} {β : Type} {e : Op β} {w w' : World}
    {b : β} (h : World.perform cfg taskId e w = some (w', b)) : Performed cfg taskId w e w' := by
  cases e with
  -- an update commits to a row that is there, or changes nothing
  | update site args =>
    simp only [World.perform] at h
    split at h
    · rw [← (Prod.mk.inj (Option.some_inj.mp h)).1]
      exact .same
    · rename_i row hrow
      split at h
      · rw [← (Prod.mk.inj (Option.some_inj.mp h)).1]
        exact .same
      · rw [← (Prod.mk.inj (Option.some_inj.mp h)).1]
        exact .commit rfl hrow
  | updateRead b site args =>
    rw [← (Prod.mk.inj (Option.some_inj.mp h)).1]
    exact .merge
  | updateWrite b site args attempt row values =>
    simp only [World.perform] at h
    split at h
    · rename_i hwrite
      obtain ⟨cur, hcur⟩ := SplitStorage.stored_of_committed hwrite
      rw [← (Prod.mk.inj (Option.some_inj.mp h)).1]
      exact .commit rfl hcur
    · rw [← (Prod.mk.inj (Option.some_inj.mp h)).1]
      exact .same
  | newArtifact artifact =>
    rw [← (Prod.mk.inj (Option.some_inj.mp h)).1]
    exact .alloc
  | publish event =>
    simp only [World.perform, Option.map_eq_some_iff] at h
    obtain ⟨w₁, hbus, hw'⟩ := h
    rw [← (Prod.mk.inj hw').1]
    exact .publish hbus
  | published id =>
    simp only [World.perform] at h
    split at h
    · simp at h
    · rw [← (Prod.mk.inj (Option.some_inj.mp h)).1]
      exact .same
  | withdraw id =>
    simp only [World.perform] at h
    split at h
    · rename_i hc
      rw [← (Prod.mk.inj (Option.some_inj.mp h)).1]
      exact .withdraw hc
    · simp at h
  | setInScope inScope =>
    rw [← (Prod.mk.inj (Option.some_inj.mp h)).1]
    exact .scope
  | busCleanup =>
    simp only [World.perform, Option.map_eq_some_iff] at h
    obtain ⟨w₁, hbus, hw'⟩ := h
    rw [← (Prod.mk.inj hw').1]
    exact .cleanup hbus
  | _ =>
    rw [← (Prod.mk.inj (Option.some_inj.mp h)).1]
    exact .same

/-- No operation deletes the task. -/
theorem Performed.isSome_row {cfg : BusConfig} {taskId : TaskId} {β : Type} {e : Op β}
    {w w' : World} (h : Performed cfg taskId w e w') (hw : w.row.isSome = true) :
    w'.row.isSome = true := by
  cases h with
  | commit _ hrow => rfl
  | publish hbus =>
    obtain ⟨out, -, rfl⟩ := World.busStep_some hbus
    exact hw
  | cleanup hbus =>
    obtain ⟨out, -, rfl⟩ := World.busStep_some hbus
    exact hw
  | _ => exact hw

/-- A quiet operation leaves the stored task and the committed states alone, and publishes
no marker. -/
theorem Performed.of_quiet {cfg : BusConfig} {taskId : TaskId} {β : Type} {e : Op β}
    {w w' : World} (h : Performed cfg taskId w e w') (he : e.quiet = true) :
    w'.row = w.row ∧ w'.written = w.written ∧
      ∃ events, w'.published = w.published ++ events ∧
        ∀ ev ∈ events, ev.isStreamTerminal = false := by
  have hsame : ∀ w' : World, w'.row = w.row → w'.written = w.written →
      w'.published = w.published → w'.row = w.row ∧ w'.written = w.written ∧
        ∃ events, w'.published = w.published ++ events ∧
          ∀ ev ∈ events, ev.isStreamTerminal = false :=
    fun w' hrow hwritten hpub => ⟨hrow, hwritten, [], by simp [hpub], by simp⟩
  cases h with
  | same => exact hsame _ rfl rfl rfl
  | commit hloud _ => simp [he] at hloud
  | merge => simp [Op.quiet] at he
  | alloc => exact hsame _ rfl rfl rfl
  | @publish event w₁ hbus =>
    obtain ⟨out, -, rfl⟩ := World.busStep_some hbus
    refine ⟨rfl, rfl, [event.read w.heap], rfl, fun ev hev => ?_⟩
    obtain rfl := List.mem_singleton.mp hev
    have hevent : event.isStreamTerminal = false := by simpa [Op.quiet] using he
    cases event <;> first | rfl | exact absurd hevent (by simp [StreamEvent.isStreamTerminal])
  | withdraw _ => exact hsame _ rfl rfl rfl
  | scope => simp [Op.quiet] at he
  | cleanup hbus =>
    obtain ⟨out, -, rfl⟩ := World.busStep_some hbus
    exact hsame _ rfl rfl rfl

/-- The task and its bus, what the other parties may do, and which operations of the
modelled programs a run is assumed to make. -/
structure Setting where
  cfg : BusConfig
  taskId : TaskId
  writes : UpdateArgs Ref → Prop := fun _ => False
  deletes : Prop := False
  cancels : Prop := False
  bus : World → BusAction (StreamEvent Ref) → Prop := fun _ _ => False
  loads : World → SubId → Prop := fun _ _ => False
  ok : {β : Type} → Op β → World → Prop := fun _ _ => True

/-- A step of the other parties. -/
inductive EnvStep (T : Setting) : World → World → Prop
  | write {w : World} {row : Row} {h : Heap} {args : UpdateArgs Ref} {now : Timestamp} :
      T.writes args → w.row = some row →
      terminalGuard T.taskId row.task.status.state args.state = none →
      EnvStep T w (w.otherWrite row h args now)
  | delete {w : World} : T.deletes → EnvStep T w { w with row := none }
  | cancel {w : World} : T.cancels → EnvStep T w { w with cancelled := true }
  | ambient {w : World} {a : Ambient} : EnvStep T w { w with ambient := a }
  | bus {w w' : World} {a : BusAction (StreamEvent Ref)} : T.bus w a →
      w.busStep T.cfg a = some w' → EnvStep T w w'
  | load {w : World} {row : Row} {u : SubId} : T.loads w u → w.row = some row →
      row.task.status.state.isTerminal = false → w.snapshots u = none →
      EnvStep T w { w with snapshots := Function.update w.snapshots u (some row.task) }

def Setting.system (T : Setting) : System Op World where
  perform := World.perform T.cfg T.taskId
  env := EnvStep T
  ok := T.ok
  req := World.required

/-- The same system with another requirement on the operations. -/
def Setting.systemWith (T : Setting) (req : {β : Type} → Op β → World → Prop) : System Op World where
  perform := World.perform T.cfg T.taskId
  env := EnvStep T
  ok := T.ok
  req := req

/-- The requirement does not change the runs. -/
theorem Setting.reaches_systemWith {T : Setting} (req : {β : Type} → Op β → World → Prop) {α : Type}
    {c c' : Prog Op α × World} (h : T.system.Reaches c c') : (T.systemWith req).Reaches c c' := by
  refine Relation.ReflTransGen.mono (fun c₁ c₂ hstep => ?_) c c' h
  cases hstep with
  | env hw => exact System.Step.env hw
  | op hok hperf => exact System.Step.op hok hperf

/-- Another writer bumps the version and keeps the state. -/
theorem env_bump {T : Setting} {w : World} {row : Row} (hT : T.writes {}) (hrow : w.row = some row) :
    T.system.env w (w.otherWrite row w.heap {} "") :=
  EnvStep.write hT hrow rfl

/-- A task that nobody deletes stays. -/
theorem Setting.isSome_row (T : Setting) (hT : ¬ T.deletes) {α : Type} {p p' : Prog Op α}
    {w w' : World} (h : T.system.Reaches (p, w) (p', w')) (hw : w.row.isSome = true) :
    w'.row.isSome = true := by
  refine T.system.inv_of_reaches (I := fun w => w.row.isSome = true) ?_ ?_ h hw
  · intro w w' hstep hw
    cases hstep with
    | write _ hrow _ => rfl
    | delete hdel => exact absurd hdel hT
    | cancel _ => exact hw
    | ambient => exact hw
    | bus _ hbus =>
      obtain ⟨out, -, rfl⟩ := World.busStep_some hbus
      exact hw
    | load _ _ _ _ => exact hw
  · intro β e w w' b _ hperf hw
    exact (World.performed hperf).isSome_row hw

end A2AKit
