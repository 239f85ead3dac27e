/-
Histories cut to their last messages.

`load_task` and `list_tasks` take a history length.  SQL and Redis answer a length that is not
positive with an empty history; `InMemoryStorage` has a case for 0 alone, so that `history[-n:]` of a
negative `n` leaves out the first messages and keeps the rest.

* `trimmed_alike_iff` — the backends show the same end of a history if and only if the length is not
  negative, or is at least as far below 0 as the history is long.
-/
import A2AKit.RedisTaskLists
import Mathlib.Data.List.DropRight

namespace A2AKit

open Pagination Keyspace

/-! ### Loading a task -/

/-- `load_task`, with the tasks in the order of the dict. -/
def InMemoryStorage.loadTask (tasks : List Task) (taskId : TaskId) (historyLength : Option Int)
    (includeArtifacts : Bool) : Option Task :=
  (tasks.find? fun t => t.id = taskId).map fun t =>
    { t with
      history := trimHistory t.history historyLength
      artifacts := if includeArtifacts then t.artifacts else [] }

/-- `load_task`, with the rows in the order of the scan. -/
def SQLStorageBase.loadTask (rows : List Task) (taskId : TaskId) (historyLength : Option Int)
    (includeArtifacts : Bool) : Option Task :=
  (rows.find? fun row => row.id = taskId).map (rowToTask { historyLength, includeArtifacts })

/-- `load_task` -/
def RedisStorage.loadTask (w : Keyspace) (taskId : TaskId) (historyLength : Option Int)
    (includeArtifacts : Bool) : Option Task :=
  (w.tasks.lookup taskId).map fun data => hashToTask { historyLength, includeArtifacts } data.task

/-! ### The end of a history -/

section

variable {α : Type} {l : List α} {n : Int}

/-- A slice up to the end. -/
theorem slice_to_end (l : List α) (i : Int) :
    slice l i l.length = l.drop (if i < 0 then l.length + i else i).toNat := by
  have hstop : sliceIndex l.length l.length = l.length := by
    unfold sliceIndex
    omega
  unfold slice
  rw [hstop, List.take_length]
  unfold sliceIndex
  rcases Nat.le_total (if i < 0 then l.length + i else i).toNat l.length with h | h
  · rw [Nat.min_eq_left h]
  · rw [Nat.min_eq_right h, List.drop_length, List.drop_eq_nil_of_le h]

/-- `l[-n:]` of a positive `n` -/
theorem slice_last (h : 0 < n) : slice l (-n) l.length = l.rtake n.toNat := by
  rw [slice_to_end, List.rtake]
  congr 1
  split
  · omega
  · omega

/-- `l[-n:]` of a negative `n` -/
theorem slice_first (h : n < 0) : slice l (-n) l.length = l.drop (-n).toNat := by
  rw [slice_to_end, if_neg (by omega)]

/-- The end of a list, cut to `n` elements. -/
def TrimmedTo (n : Int) (full shown : List α) : Prop :=
  shown <:+ full ∧ (shown.length : Int) = min (max n 0) full.length

theorem trimmedTo_iff {shown : List α} : TrimmedTo n l shown ↔ shown = l.rtake n.toNat := by
  unfold TrimmedTo
  rw [List.rtake]
  constructor
  · rintro ⟨hsuffix, hlength⟩
    rw [List.suffix_iff_eq_drop.mp hsuffix]
    congr 1
    omega
  · rintro rfl
    refine ⟨List.drop_suffix _ _, ?_⟩
    rw [List.length_drop]
    omega

end

section

variable {history : List Message} {n : Int} {query : ListTasksQuery} {w : Keyspace} {s t : Task}

/-- **`_trim_history` keeps the end of a history unless the length is negative and some message is
left over.** -/
theorem trimHistory_iff : InMemoryStorage.trimHistory history (some n) = history.rtake n.toNat ↔
    0 ≤ n ∨ history.length ≤ -n := by
  unfold InMemoryStorage.trimHistory
  dsimp only
  split
  · rename_i hn
    subst hn
    exact iff_of_true (by simp) (Or.inl (le_refl _))
  · rename_i hn
    rcases lt_or_gt_of_ne hn with hneg | hpos
    · rw [slice_first hneg, show n.toNat = 0 by omega, List.rtake_zero, List.drop_eq_nil_iff]
      omega
    · rw [slice_last hpos]
      exact iff_of_true rfl (Or.inl (le_of_lt hpos))

theorem rowToTask_history (h : query.historyLength = some n) :
    (SQLStorageBase.rowToTask query s).history = s.history.rtake n.toNat := by
  unfold SQLStorageBase.rowToTask
  rw [h]
  dsimp only
  split
  · rename_i hn
    exact slice_last hn
  · rename_i hn
    rw [show n.toNat = 0 by omega, List.rtake_zero]

/-- All backends show the history of the stored task `s` alike, cut to its end, when they load it
and when they list it. -/
def TrimmedAlike (w : Keyspace) (s : Task) (n : Int) : Prop :=
  ∃ shown, TrimmedTo n s.history shown ∧
    (∀ includeArtifacts,
      (InMemoryStorage.loadTask w.stored s.id (some n) includeArtifacts).map Task.history =
        some shown ∧
      (∀ rows, rows.Perm w.stored →
        (SQLStorageBase.loadTask rows s.id (some n) includeArtifacts).map Task.history =
          some shown) ∧
      (RedisStorage.loadTask w s.id (some n) includeArtifacts).map Task.history = some shown) ∧
    ∀ query : ListTasksQuery, query.historyLength = some n →
      (∀ t ∈ (InMemoryStorage.listTasks w.stored query).tasks, t.id = s.id → t.history = shown) ∧
      (∀ c rows, rows.Perm w.stored →
        ∀ t ∈ (SQLStorageBase.listTasks c rows query).tasks, t.id = s.id → t.history = shown) ∧
      ∀ (τ : Type) [LinearOrder τ] (time : Timestamp → τ) (taskIds : List TaskId),
        ∀ t ∈ (RedisStorage.listTasks time w taskIds query).tasks, t.id = s.id → t.history = shown

/-- Stored tasks with one id are one task. -/
theorem eq_of_stored (hw : StoresTasks w) (hs : s ∈ w.stored) (ht : t ∈ w.stored)
    (hid : t.id = s.id) : t = s := List.inj_on_of_nodup_map hw.distinct ht hs hid

/-- A task is found under its id, in whatever order the rows come. -/
theorem find_stored {rows : List Task} (hw : StoresTasks w) (hrows : rows.Perm w.stored)
    (hs : s ∈ w.stored) : rows.find? (fun t => t.id = s.id) = some s := by
  have hsome : (rows.find? fun t => t.id = s.id).isSome = true := by
    rw [List.find?_isSome]
    exact ⟨s, hrows.mem_iff.mpr hs, by simp⟩
  obtain ⟨t, ht⟩ := Option.isSome_iff_exists.mp hsome
  have hid : t.id = s.id := by simpa using List.find?_some ht
  rw [ht, eq_of_stored hw hs (hrows.mem_iff.mp (List.mem_of_find?_eq_some ht)) hid]

theorem lookup_stored (hw : StoresTasks w) (hs : s ∈ w.stored) :
    (w.tasks.lookup s.id).map TaskHash.task = some s := by
  obtain ⟨taskId, data, hdata, rfl⟩ := mem_stored.mp hs
  rw [hw.ids taskId data hdata, hdata]
  rfl

/-! ### What is on a page was stored -/

theorem stored_of_memory {tasks : List Task}
    (ht : t ∈ (InMemoryStorage.listTasks tasks query).tasks) :
    ∃ s ∈ tasks, InMemoryStorage.listed query s = t := by
  obtain ⟨s, hs, heq⟩ := List.mem_map.mp ht
  have hsorted := List.mem_of_mem_filter ((slice_sublist _ _ _).subset hs)
  exact ⟨s, (sortedDesc_perm _ _).mem_iff.mp hsorted, heq⟩

theorem stored_of_sql {c : Collation} {rows : List Task}
    (ht : t ∈ (SQLStorageBase.listTasks c rows query).tasks) :
    ∃ s ∈ rows, SQLStorageBase.rowToTask query s = t := by
  obtain ⟨s, hs, heq⟩ := List.mem_map.mp ht
  have hsorted := List.mem_of_mem_drop (List.mem_of_mem_take hs)
  exact ⟨s, List.mem_of_mem_filter ((sortedDesc_perm _ _).mem_iff.mp hsorted), heq⟩

theorem stored_of_redis {τ : Type} [LinearOrder τ] {time : Timestamp → τ} {taskIds : List TaskId}
    (ht : t ∈ (RedisStorage.listTasks time w taskIds query).tasks) :
    ∃ s ∈ w.stored, RedisStorage.hashToTask query s = t := by
  have hfiltered := (sortedDesc_perm _ _).mem_iff.mp ((slice_sublist _ _ _).subset ht)
  obtain ⟨taskId, -, hdata⟩ := List.mem_filterMap.mp hfiltered
  obtain ⟨data, hlookup, heq⟩ := Option.bind_eq_some_iff.mp hdata
  rw [Option.ite_none_right_eq_some, Option.some_inj] at heq
  exact ⟨data.task, mem_stored.mpr ⟨taskId, data, hlookup, rfl⟩, heq.2⟩

/-- **The backends cut a history alike, whenever it is loaded or listed, if and only if the length
is not negative or leaves nothing over.** -/
theorem trimmed_alike_iff (w : Keyspace) (hw : StoresTasks w) (s : Task) (hs : s ∈ w.stored)
    (n : Int) : TrimmedAlike w s n ↔ 0 ≤ n ∨ s.history.length ≤ -n := by
  rw [← trimHistory_iff]
  constructor
  · rintro ⟨shown, hshown, hload, -⟩
    have hmemory := (hload true).1
    rw [InMemoryStorage.loadTask, find_stored hw (List.Perm.refl _) hs] at hmemory
    rw [← trimmedTo_iff.mp hshown]
    exact Option.some_inj.mp hmemory
  · intro hmemory
    refine ⟨_, trimmedTo_iff.mpr rfl, fun includeArtifacts => ⟨?_, fun rows hrows => ?_, ?_⟩,
      fun query hn => ⟨fun t ht hid => ?_, fun c rows hrows t ht hid => ?_,
        fun τ _ time taskIds t ht hid => ?_⟩⟩
    · rw [InMemoryStorage.loadTask, find_stored hw (List.Perm.refl _) hs]
      exact congrArg some hmemory
    · rw [SQLStorageBase.loadTask, find_stored hw hrows hs]
      exact congrArg some (rowToTask_history rfl)
    · have hlookup := lookup_stored hw hs
      obtain ⟨data, hdata, hdatas⟩ := Option.map_eq_some_iff.mp hlookup
      rw [RedisStorage.loadTask, hdata, ← hdatas]
      exact congrArg some (rowToTask_history rfl)
    · obtain ⟨s', hs', rfl⟩ := stored_of_memory ht
      obtain rfl := eq_of_stored hw hs hs' hid
      rw [InMemoryStorage.listed, hn]
      exact hmemory
    · obtain ⟨s', hs', rfl⟩ := stored_of_sql ht
      obtain rfl := eq_of_stored hw hs (hrows.mem_iff.mp hs') hid
      exact rowToTask_history hn
    · obtain ⟨s', hs', rfl⟩ := stored_of_redis ht
      obtain rfl := eq_of_stored hw hs hs' hid
      exact rowToTask_history hn

end

/-! ### A history of two messages -/

/-- A task with a history of two messages. -/
def exchanged : Task := { storedTask "a" noon with history := [greeting, { greeting with role := .agent }] }

def exchangeStored : Keyspace := ({ : Keyspace }).store exchanged

theorem storesTasks_exchange : StoresTasks exchangeStored := by
  have hempty : Vacant {} := ⟨rfl, rfl, rfl⟩
  refine ⟨fun t h hh => ((proper_store hempty.proper).hash t h hh).1, ?_, ?_⟩
  · show [("c", "a")].Nodup
    decide
  · exact indexed_store hempty.indexAgrees hempty.proper List.not_mem_nil

theorem mem_exchangeStored : exchanged ∈ exchangeStored.stored := mem_stored.mpr ⟨"a", _, rfl, rfl⟩

/-- The last message. -/
theorem trimmed_alike_last : TrimmedAlike exchangeStored exchanged 1 :=
  (trimmed_alike_iff exchangeStored storesTasks_exchange exchanged mem_exchangeStored 1).mpr
    (Or.inl (by decide))

/-- **Of a history length of -1 `InMemoryStorage` makes the history without its first message.** -/
theorem negative_length_kept : ¬ ∀ (w : Keyspace) (s : Task) (n : Int), StoresTasks w → s ∈ w.stored →
    TrimmedAlike w s n := by
  intro hall
  obtain ⟨shown, hshown, hload, -⟩ :=
    hall exchangeStored exchanged (-1) storesTasks_exchange mem_exchangeStored
  have hmemory := (hload true).1
  rw [trimmedTo_iff.mp hshown] at hmemory
  exact absurd (congrArg (Option.map List.length) hmemory) (by decide)

end A2AKit
