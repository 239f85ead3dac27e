/-
Equal answers from the three backends.

A sequence of calls gets the same answers and the same classes of errors from all three, if no
artifact object is passed twice and an update that is going to be refused finds a list, or
nothing, under `stateTransitions`.  The first is needed by SQL and Redis, whose merge extends the
objects of the caller in place; the second by Redis, which merges before its script looks at the
version and the state.

* `backends_agree` — the condition is sufficient, and its second half necessary;
* `refused_after_merge` — a refused update on which Redis raises `AttributeError`.
-/
import A2AKit.BackendRefinement

namespace A2AKit

namespace Sequential

/-- A sequence of calls; `uuid4` does not repeat itself. -/
structure CallSequence where
  requests : List Request
  fresh : (requests.flatMap drawn).Nodup := by decide

/-- The three backends cannot be told apart by the calls. -/
def BackendsAgree (h : Heap) (calls : CallSequence) : Prop :=
  Storage.sql.run {} h calls.requests = Storage.inMemory.run {} h calls.requests ∧
    Storage.redis.run {} h calls.requests = Storage.inMemory.run {} h calls.requests

/-- No artifact object is passed to two writes. -/
def ObjectsOnce (calls : CallSequence) : Prop := (calls.requests.flatMap refsOf).Nodup

instance (calls : CallSequence) : Decidable (ObjectsOnce calls) :=
  inferInstanceAs (Decidable (List.Nodup _))

/-- An update of a stored task that is refused, and that has a transition to record, finds a list
to append it to. -/
def ListWhenRefused (s : InMemoryStorage.State) : Request → Prop
  | .updateTask taskId args _ => ∀ task, s.tasks.lookup taskId = some task →
      (refusal taskId task ((s.versions.lookup taskId).getD 1) args).isSome → args.state.isSome →
      CanAppend (updateMetadata task.metadata args.taskMetadata)
  | _ => True

/-- At every call of a run on `InMemoryStorage`. -/
def ListsWhenRefused (h : Heap) : InMemoryStorage.State → List Request → Prop
  | _, [] => True
  | s, r :: rs => ListWhenRefused s r ∧ ListsWhenRefused h (Storage.inMemory.answer s h r).1 rs

section

variable {s : InMemoryStorage.State} {c : Contents}

theorem listWhenRefused_iff (hrep : InMemoryStorage.Represents s c) (r : Request) :
    ListWhenRefused s r ↔ c.MergesFirst r := by
  cases r with
  | updateTask taskId args now =>
    constructor
    · intro hlist task version hstored hrefused hstate
      have htask : s.tasks.lookup taskId = some task := by
        rw [hrep.tasks taskId, hstored]
        rfl
      have hversion : (s.versions.lookup taskId).getD 1 = version := by
        rw [hrep.versions taskId, hstored]
        rfl
      refine hlist task htask ?_ hstate
      rw [hversion]
      exact hrefused
    · intro hmerges task htask hrefused hstate
      exact hmerges task _ (hrep.stored htask) hrefused hstate
  | _ => exact Iff.rfl

theorem listsWhenRefused_iff (hrep : InMemoryStorage.Represents s c) (h : Heap)
    (rs : List Request) : ListsWhenRefused h s rs ↔ c.Merging h rs := by
  induction rs generalizing s c with
  | nil => exact Iff.rfl
  | cons r rs ih =>
    show _ ∧ _ ↔ _ ∧ _
    rw [listWhenRefused_iff hrep r, ih (hrep.answer h r).1]

end

theorem inMemory_represents_empty : InMemoryStorage.Represents {} Contents.empty :=
  ⟨fun _ => rfl, fun _ => rfl, fun _ => rfl⟩

theorem sql_represents_empty : SQLStorageBase.Represents {} Contents.empty :=
  ⟨fun _ => rfl, fun _ => rfl⟩

theorem redis_represents_empty : RedisStorage.Represents {} Contents.empty where
  hashes _ := rfl
  members contextId x := by
    constructor
    · exact nofun
    · rintro ⟨task, version, hstored, -⟩
      exact nomatch hstored
  nodup := List.nodup_nil
  contexts _ := rfl

/-- **The backends agree** on every sequence of calls in which no artifact object is passed twice
and every refused update finds a list; and where the objects are distinct, they agree only on
these. -/
theorem backends_agree (h : Heap) (calls : CallSequence) :
    (ObjectsOnce calls ∧ ListsWhenRefused h {} calls.requests → BackendsAgree h calls) ∧
      (ObjectsOnce calls → BackendsAgree h calls → ListsWhenRefused h {} calls.requests) := by
  have hmemory : Storage.inMemory.run {} h calls.requests = Contents.empty.run h calls.requests :=
    inMemory_run inMemory_represents_empty h calls.requests
  have hsql (honce : ObjectsOnce calls) :
      Storage.sql.run {} h calls.requests = Contents.empty.run h calls.requests :=
    sql_run sql_represents_empty honce fun _ _ => rfl
  have hredis (honce : ObjectsOnce calls) :
      Storage.redis.run {} h calls.requests = Contents.empty.run h calls.requests ↔
        Contents.empty.Merging h calls.requests :=
    redis_run redis_represents_empty honce (fun _ _ => rfl) calls.fresh fun _ _ => rfl
  have hlists := listsWhenRefused_iff inMemory_represents_empty h calls.requests
  unfold BackendsAgree
  rw [hmemory, hlists]
  constructor
  · rintro ⟨honce, hmerging⟩
    exact ⟨hsql honce, (hredis honce).mpr hmerging⟩
  · intro honce hagree
    exact (hredis honce).mp hagree.2

/-- A task with two chunks of an artifact, which is loaded and deleted. -/
theorem backends_agree_chunks :
    BackendsAgree (fun _ => { artifactId := "a", parts := [{ text := some "x" }] })
      { requests :=
          [.createTask "t" "t0" "ctx" ⟨.user, [], "m", "", ""⟩,
            .updateTask "t" { artifacts := [⟨0, false⟩, ⟨1, true⟩] } "t1",
            .loadTask "t", .deleteTask "t"] } := by
  refine (backends_agree _ _).1 ⟨by decide, trivial, ?_, trivial, trivial, trivial⟩
  intro task _ _ hstate
  exact absurd hstate (by decide)

/-! ### Where they differ -/

def seenError : Seen → Option ErrorClass
  | .ok _ => none
  | .error e => some e

/-- A task that is completed, and then an update that would start it again with a `null` for its
transitions. -/
def lateRefusal : CallSequence where
  requests :=
    [.createTask "t" "t0" "ctx" ⟨.user, [], "m", "", ""⟩,
      .updateTask "t" { state := some .completed } "t1",
      .updateTask "t"
        { state := some .working
          taskMetadata := Dictionary.set ∅ stateTransitionsKey .null } "t2"]

/-- `InMemoryStorage` raises `TaskTerminalStateError` here, and `RedisStorage` what `null.append`
comes to. -/
theorem refused_after_merge : ¬ BackendsAgree (fun _ => { artifactId := "", parts := [] })
    lateRefusal := by
  intro hagree
  have herrors := congrArg (List.map seenError) hagree.2
  revert herrors
  decide +kernel

/-- The lengths of the artifacts of a task that was loaded. -/
def partCounts : Seen → List Nat
  | .ok (.loaded (some task)) => task.artifacts.map fun a => a.parts.length
  | _ => []

/-- An artifact that is passed as its own first and next chunk. -/
example : ¬ BackendsAgree (fun _ => { artifactId := "a", parts := [{ text := some "x" }] })
    { requests :=
        [.createTask "t" "t0" "ctx" ⟨.user, [], "m", "", ""⟩,
          .updateTask "t" { artifacts := [⟨0, false⟩, ⟨0, true⟩, ⟨0, true⟩] } "t1",
          .loadTask "t"] } := by
  intro hagree
  have hlengths := congrArg (List.map partCounts) hagree.1
  revert hlengths
  decide +kernel

end Sequential

end A2AKit
