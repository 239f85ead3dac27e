/-
The index of an artifact on the v1.0 stream.

`wrap_stream_event_v10` looks an artifact up in the last snapshot of its task that was on the
stream, and gives the update the place it finds.  Artifacts that the updates themselves bring are not
in that snapshot.

* `indexed_iff` — every update on a stream has the place of its artifact in what the snapshot and
  the updates up to it amount to, if and only if it is about an artifact of the snapshot;
* `new_artifact_without_index` — the first update of a new artifact has no index;
* `wrapStreamEventV10_encoded` — what the bindings dump is the payload of this module, whatever the
  classes of models look like.
-/
import A2AKit.ServerSentEvents
import A2AKit.World

namespace A2AKit

/-- What a stream of the v1.0 endpoints may carry. -/
inductive StreamItemV10 where
  | task (task : Task)
  | message (message : Message)
  | event (event : StreamEvent Artifact)

/-- The payloads of the v1.0 stream, before they are dumped. -/
inductive PayloadV10 where
  | task (task : Task)
  | message (message : Message)
  | taskStatusUpdate (taskId : TaskId) (contextId : ContextId) (status : TaskStatus)
  | taskArtifactUpdate (taskId : TaskId) (contextId : ContextId) (artifact : Artifact)
      (append lastChunk : Bool) (index : Option Nat)

/-- A key that does not start with an underscore. -/
def isPublicKey (key : String) : Bool := key.toList.head? != some '_'

/-- `sanitize_task_v10` -/
def sanitizeTaskV10 (task : Task) : Task :=
  { task with metadata := { task.metadata with
      entries := ⟨task.metadata.entries.entries.filter fun e => isPublicKey e.1,
        task.metadata.entries.nodupKeys.sublist List.filter_sublist⟩ } }

/-- The place of the first artifact with the id. -/
def artifactIndex (artifactId : String) (artifacts : List Artifact) : Option Nat :=
  artifacts.findIdx? fun a => a.artifactId = artifactId

/-- The tasks that were on the stream, by their ids. -/
abbrev TaskCache : Type := TaskId → Option Task

/-- `wrap_stream_event_v10`; the cache is changed in place. -/
def wrapStreamEventV10 (item : StreamItemV10) (taskCache : TaskCache) : PayloadV10 × TaskCache :=
  match item with
  | .event (.directReply message) => (.message message, taskCache)
  | .event (.terminalMarker taskId contextId status) =>
    (.taskStatusUpdate taskId contextId status, taskCache)
  | .task task =>
    let sanitized := sanitizeTaskV10 task
    (.task sanitized, Function.update taskCache sanitized.id (some sanitized))
  | .message message => (.message message, taskCache)
  | .event (.statusUpdate taskId contextId status) =>
    (.taskStatusUpdate taskId contextId status, taskCache)
  | .event (.artifactUpdate taskId contextId artifact append lastChunk) =>
    let index := (taskCache taskId).bind fun cached =>
      artifactIndex artifact.artifactId cached.artifacts
    (.taskArtifactUpdate taskId contextId artifact append lastChunk index, taskCache)

/-- The payloads of a stream; every stream has a cache of its own. -/
def wrapStream (taskCache : TaskCache) : List StreamItemV10 → List PayloadV10
  | [] => []
  | item :: items =>
    let (payload, taskCache) := wrapStreamEventV10 item taskCache
    payload :: wrapStream taskCache items

/-- The artifact writes that events announce. -/
def StreamEvent.write? : StreamEvent Artifact → Option (ArtifactWrite Artifact)
  | .artifactUpdate _ _ artifact append _ => some ⟨artifact, append⟩
  | _ => none

/-- The artifacts of a task after some events. -/
def artifactsAfter (task : Task) (events : List (StreamEvent Artifact)) : List Artifact :=
  applyWrites task.artifacts (events.filterMap StreamEvent.write?)

/-- A stream of a snapshot and events. -/
def streamOf (task : Task) (events : List (StreamEvent Artifact)) : List StreamItemV10 :=
  .task task :: events.map .event

/-- Every artifact update of the stream carries the place of its artifact, after all updates up to
this one. -/
def IndexedAsListed (task : Task) (events : List (StreamEvent Artifact)) : Prop :=
  ∀ before taskId contextId artifact append lastChunk after,
    events = before ++ .artifactUpdate taskId contextId artifact append lastChunk :: after →
    ∃ index,
      artifactIndex artifact.artifactId (artifactsAfter task
        (before ++ [.artifactUpdate taskId contextId artifact append lastChunk])) = some index ∧
      (wrapStream (fun _ => none) (streamOf task events))[before.length + 1]? =
        some (.taskArtifactUpdate taskId contextId artifact append lastChunk (some index))

/-! ### Places -/

variable {task : Task} {l l' : List Artifact} {id : String} {index : Nat}

theorem artifactIndex_eq (id : String) (l : List Artifact) :
    artifactIndex id l = (artifactIds l).findIdx? fun x => x = id := by
  rw [artifactIndex, artifactIds, List.findIdx?_map]
  rfl

theorem artifactIndex_isSome : (artifactIndex id l).isSome ↔ id ∈ artifactIds l := by
  rw [artifactIndex_eq, List.findIdx?_isSome, List.any_eq_true]
  constructor
  · rintro ⟨x, hx, heq⟩
    rwa [← of_decide_eq_true heq]
  · intro hmem
    exact ⟨id, hmem, decide_eq_true rfl⟩

/-- An artifact keeps its place in a list that grows behind it. -/
theorem artifactIndex_of_prefix (hpre : artifactIds l <+: artifactIds l')
    (h : artifactIndex id l = some index) : artifactIndex id l' = some index := by
  obtain ⟨rest, hrest⟩ := hpre
  rw [artifactIndex_eq] at h ⊢
  rw [← hrest, List.findIdx?_append, h]
  rfl

theorem artifactIds_isPrefix (l : List Artifact) (ws : List (ArtifactWrite Artifact)) :
    artifactIds l <+: artifactIds (applyWrites l ws) := by
  induction ws generalizing l with
  | nil => exact List.prefix_rfl
  | cons w ws ih =>
    refine List.IsPrefix.trans ?_ (ih _)
    rw [artifactIds_applyArtifact]
    split
    · exact List.prefix_rfl
    · exact List.prefix_append _ _

theorem artifactsAfter_append (task : Task) (events more : List (StreamEvent Artifact)) :
    artifactsAfter task (events ++ more) =
      applyWrites (artifactsAfter task events) (more.filterMap StreamEvent.write?) := by
  rw [artifactsAfter, List.filterMap_append, applyWrites_append]
  rfl

/-! ### The payloads -/

theorem wrapStream_append (cache : TaskCache) (events : List (StreamEvent Artifact))
    (item : StreamItemV10) (items : List StreamItemV10) :
    (wrapStream cache (events.map .event ++ item :: items))[events.length]? =
      some (wrapStreamEventV10 item cache).1 := by
  induction events with
  | nil => rfl
  | cons e es ih =>
    -- events leave the cache alone
    have hcache : (wrapStreamEventV10 (.event e) cache).2 = cache := by
      cases e <;> rfl
    rw [List.map_cons, List.cons_append, wrapStream]
    dsimp only
    rw [hcache, List.length_cons, List.getElem?_cons_succ]
    exact ih

/-- The payload of an artifact update. -/
theorem payload_of_update (task : Task) (before after : List (StreamEvent Artifact))
    (taskId : TaskId) (contextId : ContextId) (artifact : Artifact) (append lastChunk : Bool) :
    (wrapStream (fun _ => none) (streamOf task
        (before ++ .artifactUpdate taskId contextId artifact append lastChunk :: after)))[
          before.length + 1]? =
      some (.taskArtifactUpdate taskId contextId artifact append lastChunk
        (if taskId = task.id then artifactIndex artifact.artifactId task.artifacts else none)) := by
  rw [streamOf, wrapStream]
  dsimp only
  rw [List.getElem?_cons_succ, List.map_append, List.map_cons, wrapStream_append]
  refine congrArg some ?_
  simp only [wrapStreamEventV10, sanitizeTaskV10, Function.update_apply]
  split <;> rfl

/-- An update with an index is about an artifact of the snapshot. -/
theorem IndexedAsListed.in_snapshot {events : List (StreamEvent Artifact)} (h : IndexedAsListed task events)
    {taskId : TaskId} {contextId : ContextId} {artifact : Artifact} {append lastChunk : Bool}
    (hmem : .artifactUpdate taskId contextId artifact append lastChunk ∈ events) :
    taskId = task.id ∧ artifact.artifactId ∈ artifactIds task.artifacts := by
  obtain ⟨before, after, rfl⟩ := List.append_of_mem hmem
  obtain ⟨index, -, hpayload⟩ := h before _ _ _ _ _ after rfl
  rw [payload_of_update] at hpayload
  have hfound : (if taskId = task.id then artifactIndex artifact.artifactId task.artifacts
      else none) = some index := by
    injection Option.some.inj hpayload
  obtain ⟨htask, hindex⟩ := (Option.ite_none_right_eq_some).mp hfound
  exact ⟨htask, artifactIndex_isSome.mp (by rw [hindex]; rfl)⟩

/-- **Every update of a stream has the place of its artifact if and only if it is about an artifact
that is in the snapshot.** -/
theorem indexed_iff (task : Task) (events : List (StreamEvent Artifact)) :
    IndexedAsListed task events ↔
      ∀ taskId contextId artifact append lastChunk,
        .artifactUpdate taskId contextId artifact append lastChunk ∈ events →
          taskId = task.id ∧ artifact.artifactId ∈ artifactIds task.artifacts := by
  constructor
  · intro hindexed taskId contextId artifact append lastChunk hmem
    exact hindexed.in_snapshot hmem
  · rintro hsnapshot before taskId contextId artifact append lastChunk after rfl
    obtain ⟨rfl, hmem⟩ := hsnapshot _ _ _ _ _ (List.mem_append_right _ List.mem_cons_self)
    obtain ⟨index, hindex⟩ := Option.isSome_iff_exists.mp (artifactIndex_isSome.mpr hmem)
    refine ⟨index, artifactIndex_of_prefix (artifactIds_isPrefix _ _) hindex, ?_⟩
    rw [payload_of_update, if_pos rfl, hindex]

/-- Updates of one artifact on an indexed stream have one index. -/
theorem IndexedAsListed.same {events before between after : List (StreamEvent Artifact)}
    {taskId taskId' : TaskId} {contextId contextId' : ContextId} {artifact artifact' : Artifact}
    {append append' lastChunk lastChunk' : Bool} (h : IndexedAsListed task events)
    (hid : artifact'.artifactId = artifact.artifactId)
    (hevents : events = before ++ .artifactUpdate taskId contextId artifact append lastChunk ::
      (between ++ .artifactUpdate taskId' contextId' artifact' append' lastChunk' :: after)) :
    ∃ index, (wrapStream (fun _ => none) (streamOf task events))[before.length + 1]? =
        some (.taskArtifactUpdate taskId contextId artifact append lastChunk (some index)) ∧
      (wrapStream (fun _ => none) (streamOf task events))[before.length + between.length + 2]? =
        some (.taskArtifactUpdate taskId' contextId' artifact' append' lastChunk' (some index)) := by
  obtain ⟨index, hindex, hpayload⟩ := h _ _ _ _ _ _ _ hevents
  let first : StreamEvent Artifact := .artifactUpdate taskId contextId artifact append lastChunk
  obtain ⟨index', hindex', hpayload'⟩ := h (before ++ first :: between) _ _ _ _ _ after (by
    rw [hevents, List.append_assoc]
    rfl)
  -- the later list is the earlier one after more writes
  have hmore : before ++ first :: between ++
      [.artifactUpdate taskId' contextId' artifact' append' lastChunk'] =
      (before ++ [first]) ++
        (between ++ [.artifactUpdate taskId' contextId' artifact' append' lastChunk']) := by
    simp
  rw [hmore, artifactsAfter_append, hid,
    artifactIndex_of_prefix (artifactIds_isPrefix _ _) hindex] at hindex'
  obtain rfl := Option.some.inj hindex'
  refine ⟨index, hpayload, ?_⟩
  rw [← hpayload']
  congr 1
  rw [List.length_append, List.length_cons]
  omega

/-! ### A new artifact -/

/-- A task without artifacts. -/
def bareTask : Task :=
  { id := "t", contextId := "c", status := { state := .working, timestamp := "" }
    history := [], artifacts := [], metadata := {} }

/-- **An artifact that comes with its first update is at place 0, and the update does not say so.** -/
theorem new_artifact_without_index :
    ¬ IndexedAsListed bareTask [.artifactUpdate "t" "c" ⟨"a", "", "", []⟩ false true] := by
  intro hindexed
  exact absurd (hindexed.in_snapshot List.mem_cons_self).2 List.not_mem_nil

/-! ### What is dumped -/

/-- The tasks, messages and events of this model, as models of a protocol. -/
structure Encoding (P : Sse.Protocol) where
  task : Task → P.v10.task.Value
  message : Message → P.v10.message.Value
  statusUpdate : TaskId → ContextId → TaskStatus → P.v10.statusUpdate.Value
  artifactUpdate : TaskId → ContextId → Artifact → Bool → Bool → P.v10.artifactUpdate.Value

variable {P : Sse.Protocol}

/-- The ids are those of the encoded values, and the same keys are public. -/
structure Encoding.Faithful (E : Encoding P) : Prop where
  taskId : ∀ task, P.taskId (E.task task) = task.id
  artifactIds : ∀ task, P.artifactIds (E.task task) = artifactIds task.artifacts
  updateTaskId : ∀ taskId contextId artifact append lastChunk,
    P.updateTaskId (E.artifactUpdate taskId contextId artifact append lastChunk) = taskId
  updateArtifactId : ∀ taskId contextId artifact append lastChunk,
    P.updateArtifactId (E.artifactUpdate taskId contextId artifact append lastChunk) =
      artifact.artifactId
  sanitized : ∀ task, Sse.sanitizeTask P.v10 (E.task task) = E.task (sanitizeTaskV10 task)

def Encoding.item (E : Encoding P) : StreamItemV10 → Sse.StreamEvent P
  | .task task => .task (E.task task)
  | .message message => .message (E.message message)
  | .event (.statusUpdate taskId contextId status) =>
    .statusUpdate (E.statusUpdate taskId contextId status)
  | .event (.artifactUpdate taskId contextId artifact append lastChunk) =>
    .artifactUpdate (E.artifactUpdate taskId contextId artifact append lastChunk)
  | .event (.directReply message) => .directReply (E.message message)
  | .event (.terminalMarker taskId contextId status) =>
    .terminalMarker (E.statusUpdate taskId contextId status)

/-- The members of a payload. -/
def Encoding.payload (E : Encoding P) : PayloadV10 → JsonFields
  | .task task => .cons "task" (.object (P.v10.task.dump (E.task task))) .nil
  | .message message => .cons "message" (.object (P.v10.message.dump (E.message message))) .nil
  | .taskStatusUpdate taskId contextId status =>
    .cons "taskStatusUpdate"
      (.object (P.v10.statusUpdate.dump (E.statusUpdate taskId contextId status))) .nil
  | .taskArtifactUpdate taskId contextId artifact append lastChunk index =>
    .cons "taskArtifactUpdate" (.object (P.v10.artifactUpdate.dump
      (E.artifactUpdate taskId contextId artifact append lastChunk)))
      (match index with
        | none => .nil
        | some index => .cons "index" (.number (.ofNat index)) .nil)

/-- The two caches hold the same tasks. -/
def Encoding.Holds (E : Encoding P) (cache : Sse.TaskCache P) (taskCache : TaskCache) : Prop :=
  ∀ taskId, cache.lookup taskId = (taskCache taskId).map E.task

section

variable {E : Encoding P} {cache : Sse.TaskCache P} {taskCache : TaskCache}

theorem Encoding.Faithful.artifactIndex (hE : E.Faithful) (hcache : E.Holds cache taskCache)
    (taskId : TaskId) (contextId : ContextId) (artifact : Artifact) (append lastChunk : Bool) :
    Sse.artifactIndex cache (E.artifactUpdate taskId contextId artifact append lastChunk) =
      (taskCache taskId).bind fun cached =>
        A2AKit.artifactIndex artifact.artifactId cached.artifacts := by
  rw [Sse.artifactIndex, hE.updateTaskId, hcache taskId]
  cases taskCache taskId with
  | none => rfl
  | some cached =>
    simp only [Option.map_some, Option.bind_some]
    rw [hE.artifactIds, hE.updateArtifactId, artifactIndex_eq]

theorem Encoding.Faithful.cached (hE : E.Faithful) (hcache : E.Holds cache taskCache) (task : Task) :
    E.Holds ((P.taskId (E.task task), E.task task) :: cache)
      (Function.update taskCache task.id (some task)) := by
  intro taskId
  rw [List.lookup_cons, hE.taskId, Function.update_apply]
  by_cases htask : taskId = task.id
  · simp [htask]
  · rw [beq_false_of_ne htask, if_neg htask]
    exact hcache taskId

/-- The bindings dump the payload of an item, and remember the same tasks. -/
theorem wrapStreamEventV10_encoded (hE : E.Faithful) (hcache : E.Holds cache taskCache)
    (item : StreamItemV10) :
    (Sse.wrapStreamEventV10 (E.item item) cache).1 =
        E.payload (wrapStreamEventV10 item taskCache).1 ∧
      E.Holds (Sse.wrapStreamEventV10 (E.item item) cache).2
        (wrapStreamEventV10 item taskCache).2 := by
  rcases item with task | message | event
  · simp only [Encoding.item, Sse.wrapStreamEventV10, wrapStreamEventV10, hE.sanitized]
    exact ⟨rfl, hE.cached hcache _⟩
  · exact ⟨rfl, hcache⟩
  · cases event with
    | artifactUpdate taskId contextId artifact append lastChunk =>
      simp only [Encoding.item, Sse.wrapStreamEventV10, wrapStreamEventV10,
        hE.artifactIndex hcache]
      exact ⟨rfl, hcache⟩
    | _ => exact ⟨rfl, hcache⟩

end

end A2AKit
