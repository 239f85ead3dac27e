/-
`list_tasks` on Redis.

The tasks come from the set of a context or from a scan of the hashes, in an order that may be
another one on every call, and are sorted by timestamp alone: tasks with one timestamp stay in the
order in which they came.

* `pages_agree_iff` — the pages are those of `InMemoryStorage`, whatever the orders of the calls, if
  and only if no two matching tasks have one timestamp;
* `task_listed_twice` — a task on two pages and another one on none.
-/
import A2AKit.RedisIndex
import A2AKit.TaskLists

namespace A2AKit

open Pagination

/-- The tasks of the hashes. -/
def Keyspace.stored (w : Keyspace) : List Task := w.tasks.entries.map fun e => e.2.task

/-- The keyspace of a set of tasks: hashes under their ids, and the sets of the contexts. -/
structure StoresTasks (w : Keyspace) : Prop where
  ids : ∀ t h, w.tasks.lookup t = some h → h.task.id = t
  members : w.members.Nodup
  index : IndexAgrees w

namespace RedisStorage

/-- The ids `list_tasks` starts with. -/
def candidateIds (w : Keyspace) (query : ListTasksQuery) : List TaskId :=
  match query.contextId.filter (· ≠ "") with
  | some contextId => w.memberIds contextId
  | none => w.tasks.keys

/-- `_hash_to_task`, which reads a hash as `_row_to_task` reads a row. -/
def hashToTask (query : ListTasksQuery) (fields : Task) : Task :=
  SQLStorageBase.rowToTask query fields

/-- The filters of the loop; the context is not looked at again. -/
def asksFor (query : ListTasksQuery) (fields : Task) : Bool :=
  ListTasksQuery.asksFor codePoints { query with contextId := none } fields

section

variable {τ : Type} [LinearOrder τ]

/-- `list_tasks`, where `taskIds` are the ids in the order of this call, and timestamps are compared
as the times they stand for. -/
def listTasks (time : Timestamp → τ) (w : Keyspace) (taskIds : List TaskId)
    (query : ListTasksQuery) : ListTasksResult :=
  let filtered := taskIds.filterMap fun taskId =>
    (w.tasks.lookup taskId).bind fun data =>
      if asksFor query data.task then some (hashToTask query data.task) else none
  let sorted := sortedDesc (fun t => time t.status.timestamp) filtered
  let offset := offsetOf query.pageToken
  { tasks := slice sorted offset (offset + query.pageSize)
    nextPageToken := nextToken (offset + query.pageSize) sorted.length
    pageSize := query.pageSize
    totalSize := sorted.length }

end

end RedisStorage

open RedisStorage Keyspace

/-- The orders in which the ids of a query may come, call by call. -/
abbrev Enumeration (w : Keyspace) (query : ListTasksQuery) : Type :=
  Nat → { taskIds : List TaskId // taskIds.Perm (candidateIds w query) }

section

variable {τ : Type} [LinearOrder τ]

/-- A client that follows the tokens gets every matching task once, and in the order in which
`InMemoryStorage` lists the same tasks. -/
def PagesAgree (time : Timestamp → τ) (w : Keyspace) (query : ListTasksQuery)
    (scan : Enumeration w query) : Prop :=
  ∃ pages memoryPages : List ListTasksResult,
    (∀ fuel, pages.length ≤ fuel →
      follow (fun i token => listTasks time w (scan i).1 { query with pageToken := token })
        ListTasksResult.nextPageToken fuel 0 none = some pages) ∧
    (∀ fuel, memoryPages.length ≤ fuel →
      follow (fun _ token => InMemoryStorage.listTasks w.stored { query with pageToken := token })
        ListTasksResult.nextPageToken fuel 0 none = some memoryPages) ∧
    ((pages.flatMap ListTasksResult.tasks).Perm
      ((w.stored.filter (query.asksFor codePoints)).map (hashToTask query))) ∧
    (pages.flatMap ListTasksResult.tasks).map Task.id =
      (memoryPages.flatMap ListTasksResult.tasks).map Task.id

/-- Texts of stored timestamps are ordered as the times they stand for. -/
def TimesAgree (time : Timestamp → τ) (w : Keyspace) : Prop :=
  ∀ a ∈ w.stored, ∀ b ∈ w.stored,
    time a.status.timestamp ≤ time b.status.timestamp ↔ a.status.timestamp ≤ b.status.timestamp

/-- No two matching tasks have one timestamp. -/
def TimesDiffer (time : Timestamp → τ) (w : Keyspace) (query : ListTasksQuery) : Prop :=
  ((w.stored.filter (query.asksFor codePoints)).map fun t => time t.status.timestamp).Nodup

/-! ### The tasks of a call -/

variable {w : Keyspace} {query : ListTasksQuery} {taskIds : List TaskId}

theorem mem_stored {task : Task} :
    task ∈ w.stored ↔ ∃ t h, w.tasks.lookup t = some h ∧ h.task = task := by
  unfold Keyspace.stored
  rw [List.mem_map]
  constructor
  · rintro ⟨⟨t, h⟩, hmem, rfl⟩
    exact ⟨t, h, AList.mem_lookup_iff.mpr hmem, rfl⟩
  · rintro ⟨t, h, hh, rfl⟩
    exact ⟨⟨t, h⟩, AList.mem_lookup_iff.mp hh, rfl⟩

theorem StoresTasks.distinct (hw : StoresTasks w) : (w.stored.map Task.id).Nodup := by
  have hkeys : w.stored.map Task.id = w.tasks.keys := by
    unfold Keyspace.stored
    rw [List.map_map]
    exact List.map_congr_left fun e he => hw.ids e.1 e.2 (AList.mem_lookup_iff.mpr he)
  rw [hkeys]
  exact w.tasks.nodupKeys

theorem candidateIds_nodup (hw : StoresTasks w) : (candidateIds w query).Nodup := by
  unfold candidateIds
  split
  · rename_i contextId hc
    refine hw.members.filterMap ?_
    rintro ⟨c, t⟩ ⟨c', t'⟩ b hb hb'
    rw [Option.mem_def, Option.ite_none_right_eq_some, Option.some_inj] at hb hb'
    obtain ⟨rfl, rfl⟩ := hb
    obtain ⟨rfl, rfl⟩ := hb'
    rfl
  · exact w.tasks.nodupKeys

/-- A candidate is any task of the context, and any task without a context. -/
theorem mem_candidateIds (hw : StoresTasks w) {t : TaskId} {h : TaskHash}
    (hh : w.tasks.lookup t = some h) :
    t ∈ candidateIds w query ↔
      ListTasksQuery.keeps query.contextId (fun contextId => h.task.contextId = contextId) = true := by
  have hall : t ∈ w.tasks.keys := AList.mem_keys.mp (AList.lookup_isSome.mp (by rw [hh]; rfl))
  unfold candidateIds ListTasksQuery.keeps
  cases query.contextId with
  | none => exact iff_of_true hall rfl
  | some contextId =>
    by_cases hempty : contextId = ""
    · subst hempty
      exact iff_of_true hall rfl
    · have hset : (some contextId).filter (fun c => decide (c ≠ "")) = some contextId := by
        rw [Option.filter_some, if_pos (decide_eq_true hempty)]
      rw [hset]
      show t ∈ w.memberIds contextId ↔ _
      rw [mem_memberIds, hw.index]
      simp [hh, hempty]

theorem asksFor_context (query : ListTasksQuery) (t : Task) : query.asksFor codePoints t =
    (ListTasksQuery.keeps query.contextId (fun contextId => t.contextId = contextId) &&
      asksFor query t) := by
  unfold asksFor ListTasksQuery.asksFor
  rw [Bool.and_assoc, Bool.and_assoc, Bool.and_assoc, Bool.and_assoc]
  rfl

/-- The matching tasks, in the order of a call. -/
def matchingOf (w : Keyspace) (query : ListTasksQuery) (taskIds : List TaskId) : List Task :=
  taskIds.filterMap fun taskId =>
    (w.tasks.lookup taskId).bind fun data => if asksFor query data.task then some data.task else none

theorem mem_matchingOf {task : Task} : task ∈ matchingOf w query taskIds ↔
    ∃ t ∈ taskIds, ∃ h, w.tasks.lookup t = some h ∧ asksFor query h.task = true ∧ h.task = task := by
  unfold matchingOf
  rw [List.mem_filterMap]
  refine exists_congr fun t => and_congr_right fun _ => ?_
  cases w.tasks.lookup t with
  | none => simp
  | some h =>
    show (if asksFor query h.task = true then some h.task else none) = some task ↔ _
    rw [Option.ite_none_right_eq_some, Option.some_inj]
    constructor
    · intro hasks
      exact ⟨h, rfl, hasks⟩
    · rintro ⟨h', heq, hasks⟩
      cases heq
      exact hasks

theorem matchingOf_nodup (hw : StoresTasks w) (hids : taskIds.Nodup) :
    ((matchingOf w query taskIds).map Task.id).Nodup := by
  have hfilter : (matchingOf w query taskIds).map Task.id =
      taskIds.filter fun t => (w.tasks.lookup t).any fun data => asksFor query data.task := by
    unfold matchingOf
    rw [List.map_filterMap, ← List.filterMap_eq_filter]
    refine List.filterMap_congr fun t _ => ?_
    cases hh : w.tasks.lookup t with
    | none => simp [Option.guard, hh]
    | some h =>
      have hid := hw.ids t h hh
      by_cases hasks : asksFor query h.task = true <;> simp [Option.guard, hh, hasks, hid]
  rw [hfilter]
  exact hids.filter _

/-- **Whatever the order of a call, its tasks are the matching ones.** -/
theorem matchingOf_perm (hw : StoresTasks w) (hids : taskIds.Perm (candidateIds w query)) :
    (matchingOf w query taskIds).Perm (w.stored.filter (query.asksFor codePoints)) := by
  have hnodup : taskIds.Nodup := hids.nodup_iff.mpr (candidateIds_nodup hw)
  refine (List.perm_ext_iff_of_nodup (matchingOf_nodup hw hnodup).of_map
    (hw.distinct.of_map.filter _)).mpr fun task => ?_
  rw [mem_matchingOf, List.mem_filter, mem_stored]
  constructor
  · rintro ⟨t, ht, h, hh, hasks, rfl⟩
    have hcontext := (mem_candidateIds hw hh).mp (hids.mem_iff.mp ht)
    refine ⟨⟨t, h, hh, rfl⟩, ?_⟩
    rw [asksFor_context, hcontext, hasks]
    rfl
  · rintro ⟨⟨t, h, hh, rfl⟩, hasks⟩
    rw [asksFor_context, Bool.and_eq_true] at hasks
    exact ⟨t, hids.mem_iff.mpr ((mem_candidateIds hw hh).mpr hasks.1), h, hh, hasks.2, rfl⟩

/-! ### The pages -/

variable {time : Timestamp → τ}

/-- The tasks of a call, as they are sorted. -/
def sortedOf (time : Timestamp → τ) (w : Keyspace) (query : ListTasksQuery)
    (taskIds : List TaskId) : List Task :=
  sortedDesc (fun t => time t.status.timestamp) (matchingOf w query taskIds)

/-- The tasks of `InMemoryStorage`, as they are sorted. -/
def memoryOrder (w : Keyspace) (query : ListTasksQuery) : List Task :=
  (sortedDesc codePoints.sortKey w.stored).filter (query.asksFor codePoints)

theorem sorted_eq (taskIds : List TaskId) :
    sortedDesc (fun t => time t.status.timestamp) (taskIds.filterMap fun taskId =>
      (w.tasks.lookup taskId).bind fun data =>
        if asksFor query data.task then some (hashToTask query data.task) else none) =
      (sortedOf time w query taskIds).map (hashToTask query) := by
  have hmap : (taskIds.filterMap fun taskId => (w.tasks.lookup taskId).bind fun data =>
      if asksFor query data.task then some (hashToTask query data.task) else none) =
        (matchingOf w query taskIds).map (hashToTask query) := by
    unfold matchingOf
    rw [List.map_filterMap]
    refine List.filterMap_congr fun t _ => ?_
    cases w.tasks.lookup t with
    | none => rfl
    | some h => by_cases hasks : asksFor query h.task = true <;> simp [hasks]
  rw [hmap]
  exact (map_sortedDesc (hashToTask query) (matchingOf w query taskIds)).symm

/-- Calls that sort their tasks alike cut their pages out of one list. -/
theorem cuts_redis {l : List Task} (scan : Nat → List TaskId)
    (hsame : ∀ i, sortedOf time w query (scan i) = l) :
    Cuts (fun i token => listTasks time w (scan i) { query with pageToken := token })
      ListTasksResult.nextPageToken ListTasksResult.tasks (l.map (hashToTask query))
      query.pageSize := by
  have hsorted : ∀ i, sortedDesc (fun t => time t.status.timestamp)
      ((scan i).filterMap fun taskId => (w.tasks.lookup taskId).bind fun data =>
        if asksFor query data.task then some (hashToTask query data.task) else none) =
        l.map (hashToTask query) := fun i => by rw [sorted_eq, hsame i]
  refine ⟨fun i token o htoken => ?_, fun i token o htoken => ?_⟩
  · show slice (sortedDesc _ _) (offsetOf token) (offsetOf token + query.pageSize) = _
    rw [htoken]
    exact (congrArg (fun l => slice l o (o + query.pageSize : Nat)) (hsorted i)).trans
      (slice_eq _ o query.pageSize)
  · show nextToken (offsetOf token + query.pageSize) (sortedDesc _ _).length = _
    rw [htoken]
    exact congrArg (fun l : List Task => nextToken (o + query.pageSize : Nat) l.length) (hsorted i)

theorem mem_stored_of_matching {t : Task} (hids : taskIds.Perm (candidateIds w query))
    (hw : StoresTasks w) (h : t ∈ matchingOf w query taskIds) : t ∈ w.stored :=
  (List.mem_filter.mp ((matchingOf_perm hw hids).mem_iff.mp h)).1

/-- Without ties every call sorts its tasks as `InMemoryStorage` does. -/
theorem sortedOf_eq (hw : StoresTasks w) (htimes : TimesAgree time w)
    (hdiffer : TimesDiffer time w query) (hids : taskIds.Perm (candidateIds w query)) :
    sortedOf time w query taskIds = memoryOrder w query := by
  have hperm := matchingOf_perm hw hids
  have hmemory : (memoryOrder w query).Perm (w.stored.filter (query.asksFor codePoints)) :=
    (sortedDesc_perm codePoints.sortKey w.stored).filter _
  have hstrict : (sortedOf time w query taskIds).Pairwise fun a b =>
      time b.status.timestamp < time a.status.timestamp :=
    sortedDesc_strict ((hperm.map _).nodup_iff.mpr hdiffer)
  have hkeys : (sortedOf time w query taskIds).Pairwise fun a b =>
      codePoints.sortKey b < codePoints.sortKey a := by
    refine hstrict.imp_of_mem fun {a b} ha hb hlt => ?_
    have hstored : ∀ t ∈ sortedOf time w query taskIds, t ∈ w.stored := fun t ht =>
      mem_stored_of_matching hids hw ((sortedDesc_perm _ _).mem_iff.mp ht)
    have htext : b.status.timestamp < a.status.timestamp := by
      rw [← not_le] at hlt ⊢
      exact fun hle => hlt ((htimes a (hstored a ha) b (hstored b hb)).mpr hle)
    exact Prod.Lex.toLex_lt_toLex.mpr (Or.inl htext)
  have hsorted : (memoryOrder w query).Pairwise fun a b =>
      codePoints.sortKey b < codePoints.sortKey a :=
    (sortedDesc_strict (sortKey_nodup hw.distinct)).filter _
  exact eq_of_perm_of_sorted ((sortedDesc_perm _ _).trans (hperm.trans hmemory.symm)) hkeys hsorted

/-- What a client sees of Redis, where every call sorts its tasks alike, and of memory. -/
theorem pages_of_same (time : Timestamp → τ) (w : Keyspace) (query : ListTasksQuery) {l : List Task}
    (scan : Nat → List TaskId)
    (hsame : ∀ i, sortedOf time w query (scan i) = l) :
    ∃ pages memoryPages : List ListTasksResult,
      (∀ fuel, pages.length ≤ fuel →
        follow (fun i token => listTasks time w (scan i) { query with pageToken := token })
          ListTasksResult.nextPageToken fuel 0 none = some pages) ∧
      (∀ fuel, memoryPages.length ≤ fuel →
        follow (fun _ token => InMemoryStorage.listTasks w.stored { query with pageToken := token })
          ListTasksResult.nextPageToken fuel 0 none = some memoryPages) ∧
      pages.flatMap ListTasksResult.tasks = l.map (hashToTask query) ∧
      (memoryPages.flatMap ListTasksResult.tasks).map Task.id = (memoryOrder w query).map Task.id := by
  obtain ⟨pages, hpages, hflat, -⟩ := follow_all query.pageSize_ge (cuts_redis scan hsame)
  obtain ⟨memoryPages, hmemory, hflat', -⟩ :=
    follow_all query.pageSize_ge (cuts_memory w.stored query)
  refine ⟨pages, memoryPages, hpages, hmemory, hflat, ?_⟩
  rw [hflat', List.map_map]
  rfl

theorem map_id_hashToTask (l : List Task) :
    (l.map (hashToTask query)).map Task.id = l.map Task.id := by
  rw [List.map_map]
  rfl

/-- An order of the candidates in which one of them comes right before another. -/
theorem exists_order {b a : TaskId} (hb : b ∈ candidateIds w query) (ha : a ∈ candidateIds w query)
    (hne : a ≠ b) : ∃ rest, (b :: a :: rest).Perm (candidateIds w query) := by
  refine ⟨((candidateIds w query).erase b).erase a, ?_⟩
  have ha' : a ∈ (candidateIds w query).erase b := (List.mem_erase_of_ne hne).mpr ha
  exact (((List.perm_cons_erase ha').symm).cons b).trans (List.perm_cons_erase hb).symm

/-- Of two tasks with one timestamp, the one that memory lists last comes first if Redis
enumerates it first. -/
theorem not_agree_of_tie (hw : StoresTasks w) {a b : Task}
    (ha : a ∈ w.stored.filter (query.asksFor codePoints))
    (hb : b ∈ w.stored.filter (query.asksFor codePoints))
    (htie : time a.status.timestamp = time b.status.timestamp)
    (hkey : codePoints.sortKey b < codePoints.sortKey a) :
    ¬ ∀ scan : Enumeration w query, PagesAgree time w query scan := by
  intro hall
  have hcandidate : ∀ t ∈ w.stored.filter (query.asksFor codePoints),
      t ∈ matchingOf w query (candidateIds w query) :=
    fun t ht => (matchingOf_perm hw (List.Perm.refl _)).mem_iff.mpr ht
  obtain ⟨ida, hida, hashA, hlookupA, hasksA, rfl⟩ := mem_matchingOf.mp (hcandidate a ha)
  obtain ⟨idb, hidb, hashB, hlookupB, hasksB, rfl⟩ := mem_matchingOf.mp (hcandidate b hb)
  have hne : ida ≠ idb := by
    rintro rfl
    cases hlookupA.symm.trans hlookupB
    exact lt_irrefl _ hkey
  obtain ⟨rest, hperm⟩ := exists_order hidb hida hne
  have hmatching : matchingOf w query (idb :: ida :: rest) =
      hashB.task :: hashA.task :: matchingOf w query rest := by
    unfold matchingOf
    rw [List.filterMap_cons, List.filterMap_cons, hlookupA, hlookupB]
    simp only [Option.bind_some, hasksA, hasksB, if_true]
  have hsub : [hashB.task, hashA.task].Sublist (sortedOf time w query (idb :: ida :: rest)) := by
    refine sublist_sortedDesc (le_of_eq htie) ?_
    rw [hmatching]
    exact (List.nil_sublist _).cons_cons _ |>.cons_cons _
  -- the same order on every call
  obtain ⟨pages, memoryPages, hpages, hmemory, -, hids⟩ := hall fun _ => ⟨_, hperm⟩
  obtain ⟨pages', memoryPages', hpages', hmemory', hflat, hflat'⟩ :=
    pages_of_same time w query (fun _ => idb :: ida :: rest) fun _ => rfl
  rw [follow_unique hpages hpages', follow_unique hmemory hmemory', hflat, hflat',
    map_id_hashToTask] at hids
  obtain ⟨l, hl, hpair⟩ := List.sublist_map_iff.mp (hids ▸ hsub.map Task.id)
  have hstored : ∀ t ∈ l, t ∈ w.stored := fun t ht =>
    (sortedDesc_perm _ _).mem_iff.mp (List.mem_filter.mp (hl.subset ht)).1
  have hsame : ∀ t ∈ l, ∀ u ∈ w.stored, u.id = t.id → t = u := fun t ht u hu hid =>
    List.inj_on_of_nodup_map hw.distinct (hstored t ht) hu hid.symm
  obtain ⟨b', l, rfl, hidb, hpair⟩ := List.map_eq_cons_iff.mp hpair.symm
  obtain ⟨a', l, rfl, hida, hpair⟩ := List.map_eq_cons_iff.mp hpair
  obtain rfl := List.map_eq_nil_iff.mp hpair
  obtain rfl := hsame b' (by simp) _ (List.mem_filter.mp hb).1 hidb.symm
  obtain rfl := hsame a' (by simp) _ (List.mem_filter.mp ha).1 hida.symm
  have hmemory := List.Pairwise.sublist hl
    ((sortedDesc_strict (sortKey_nodup (c := codePoints) hw.distinct)).filter _)
  exact absurd (List.pairwise_pair.mp hmemory) hkey.asymm

/-- **Redis pages as memory does, whatever the orders in which it enumerates its keys, if and only
if the timestamps of the matching tasks differ.** -/
theorem pages_agree_iff (hw : StoresTasks w) (htimes : TimesAgree time w) :
    (∀ scan : Enumeration w query, PagesAgree time w query scan) ↔ TimesDiffer time w query := by
  constructor
  · intro hall
    by_contra htie
    have hnodup : (w.stored.filter (query.asksFor codePoints)).Nodup := hw.distinct.of_map.filter _
    have hkeys := (List.nodup_map_iff_inj_on hnodup).mp
      ((sortKey_nodup (c := codePoints) hw.distinct).sublist (List.filter_sublist.map _))
    apply htie
    refine (List.nodup_map_iff_inj_on hnodup).mpr fun a ha b hb heq => ?_
    by_contra hne
    rcases lt_or_gt_of_ne (fun h => hne (hkeys a ha b hb h)) with hlt | hlt
    · exact not_agree_of_tie hw hb ha heq.symm hlt hall
    · exact not_agree_of_tie hw ha hb heq hlt hall
  · intro hdiffer scan
    obtain ⟨pages, memoryPages, hpages, hmemory, hflat, hids⟩ := pages_of_same time w query
      (fun i => (scan i).1) fun i => sortedOf_eq hw htimes hdiffer (scan i).2
    refine ⟨pages, memoryPages, hpages, hmemory, ?_, ?_⟩
    · rw [hflat]
      exact ((sortedDesc_perm _ _).filter _).map _
    · rw [hflat, hids, map_id_hashToTask]

end

/-! ### Two tasks -/

def noon : Timestamp := "2026-01-01T12:00:00+00:00"

def noonAndASecond : Timestamp := "2026-01-01T12:00:01+00:00"

/-- A task that was stored at a time. -/
def storedTask (id : TaskId) (timestamp : Timestamp) : Task := initialTask id "c" greeting none timestamp

/-- Two tasks, and their context. -/
def twoTasks (first second : Timestamp) : Keyspace :=
  ({ : Keyspace }.store (storedTask "a" first)).store (storedTask "b" second)

theorem storesTasks_twoTasks (first second : Timestamp) : StoresTasks (twoTasks first second) := by
  have hempty : Vacant {} := ⟨rfl, rfl, rfl⟩
  have hfirst : Proper (({ : Keyspace }).store (storedTask "a" first)) := proper_store hempty.proper
  have hfresh : (storedTask "a" first).id ∉ ({ : Keyspace }).used := List.not_mem_nil
  have hfresh' : (storedTask "b" second).id ∉ (({ : Keyspace }).store (storedTask "a" first)).used := by
    show "b" ∉ ["a"]
    decide
  refine ⟨fun t h hh => ((proper_store hfirst).hash t h hh).1, ?_, ?_⟩
  · show [("c", "b"), ("c", "a")].Nodup
    decide
  · exact indexed_store (indexed_store hempty.indexAgrees hempty.proper hfresh) hfirst hfresh'

/-- Times as the texts of the timestamps. -/
theorem timesAgree_id (w : Keyspace) : TimesAgree id w := fun _ _ _ _ => Iff.rfl

/-- Two tasks that were stored at different times. -/
theorem pages_agree_two : (∀ scan : Enumeration (twoTasks noon noonAndASecond) { pageSize := 1 },
    PagesAgree id (twoTasks noon noonAndASecond) { pageSize := 1 } scan) ↔
      TimesDiffer id (twoTasks noon noonAndASecond) { pageSize := 1 } :=
  pages_agree_iff (storesTasks_twoTasks noon noonAndASecond) (timesAgree_id _)

/-- One task on a page. -/
def onePerPage : ListTasksQuery := { pageSize := 1 }

/-- The keys of two tasks, in one order on the first call and in the other one later. -/
def turnedRound : Enumeration (twoTasks noon noon) onePerPage
  | 0 => ⟨["a", "b"], by decide⟩
  | _ + 1 => ⟨["b", "a"], by decide⟩

/-- **Of two tasks with one timestamp, one is on both pages and the other one on none.** -/
theorem task_listed_twice : ¬ ∀ (w : Keyspace) (query : ListTasksQuery) (scan : Enumeration w query),
    StoresTasks w → TimesAgree id w → PagesAgree id w query scan := by
  intro hall
  obtain ⟨pages, -, hpages, -, hperm, -⟩ := hall _ _ turnedRound (storesTasks_twoTasks noon noon)
    (timesAgree_id _)
  have htwo := hpages (pages.length + 2) (by omega)
  rw [follow_later (by decide +kernel), follow_last (by decide +kernel)] at htwo
  obtain rfl := Option.some_inj.mp htwo
  have hids := hperm.map Task.id
  revert hids
  decide +kernel

end A2AKit
