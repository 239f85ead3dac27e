/-
`list_tasks` of the backends with a total order.

`InMemoryStorage` sorts its tasks by timestamp and id, keeps those the query asks for and cuts the
page out; `SQLStorageBase` leaves all of this to the database, which goes through its rows in any
order and compares texts by a collation.

* `pagination_complete` — a client that follows the tokens gets every matching task once.
-/
import A2AKit.Pagination
import A2AKit.Storage
import Mathlib.Data.Prod.Lex
import Mathlib.Data.String.Basic

namespace A2AKit

open Pagination

/-- `ListTasksQuery` -/
structure ListTasksQuery where
  contextId : Option ContextId := none
  tenant : Option String := none
  status : Option TaskState := none
  pageSize : Nat := 50
  pageSize_ge : 1 ≤ pageSize := by decide
  pageSize_le : pageSize ≤ 100 := by decide
  pageToken : Option String := none
  historyLength : Option Int := none
  statusTimestampAfter : Option String := none
  includeArtifacts : Bool := false

/-- `ListTasksResult` -/
structure ListTasksResult where
  tasks : List Task
  nextPageToken : String
  pageSize : Nat
  totalSize : Nat

/-- How texts are compared: different texts are never equal. -/
structure Collation where
  Weight : Type
  [order : LinearOrder Weight]
  weight : String → Weight
  injective : Function.Injective weight

instance (c : Collation) : LinearOrder c.Weight := c.order

/-- Python compares code points. -/
def codePoints : Collation where
  Weight := String
  weight := id
  injective := Function.injective_id

/-- `(timestamp, id)` -/
def Collation.sortKey (c : Collation) (t : Task) : c.Weight ×ₗ c.Weight :=
  toLex (c.weight t.status.timestamp, c.weight t.id)

namespace ListTasksQuery

/-- A filter that is absent or empty keeps everything. -/
def keeps (filter : Option String) (keep : String → Bool) : Bool :=
  match filter with
  | none => true
  | some value => value = "" || keep value

/-- The filters of a query. -/
def asksFor (c : Collation) (query : ListTasksQuery) (t : Task) : Bool :=
  keeps query.contextId (fun contextId => t.contextId = contextId) &&
    query.status.all (fun state => t.status.state = state) &&
    keeps query.tenant (fun tenant => t.metadata.entries.lookup metaTenantKey = some tenant) &&
    keeps query.statusTimestampAfter fun after => c.weight after < c.weight t.status.timestamp

end ListTasksQuery

/-! ### The backends -/

namespace InMemoryStorage

/-- `_trim_history` -/
def trimHistory (history : List Message) (historyLength : Option Int) : List Message :=
  match historyLength with
  | none => history
  | some n => if n = 0 then [] else slice history (-n) history.length

/-- What a page has of a task. -/
def listed (query : ListTasksQuery) (t : Task) : Task :=
  { t with
    history := trimHistory t.history query.historyLength
    artifacts := if query.includeArtifacts then t.artifacts else [] }

/-- `list_tasks`, with the tasks in the order of the dict. -/
def listTasks (tasks : List Task) (query : ListTasksQuery) : ListTasksResult :=
  let allTasks := sortedDesc codePoints.sortKey tasks
  let filtered := allTasks.filter (query.asksFor codePoints)
  let offset := offsetOf query.pageToken
  let page := slice filtered offset (offset + query.pageSize)
  { tasks := page.map (listed query)
    nextPageToken := nextToken (offset + query.pageSize) filtered.length
    pageSize := query.pageSize
    totalSize := filtered.length }

end InMemoryStorage

namespace SQLStorageBase

/-- `_row_to_task` -/
def rowToTask (query : ListTasksQuery) (row : Task) : Task :=
  { row with
    history :=
      match query.historyLength with
      | none => row.history
      | some n => if n > 0 then slice row.history (-n) row.history.length else []
    artifacts := if query.includeArtifacts then row.artifacts else [] }

/-- `list_tasks`, with the rows in the order of the scan; the database counts an offset below 0 as
0. -/
def listTasks (c : Collation) (rows : List Task) (query : ListTasksQuery) : ListTasksResult :=
  let conditions := query.asksFor c
  let totalSize := rows.countP conditions
  let offset := offsetOf query.pageToken
  let ordered := sortedDesc c.sortKey (rows.filter conditions)
  let page := (ordered.drop offset.toNat).take query.pageSize
  { tasks := page.map (rowToTask query)
    nextPageToken := nextToken (offset + query.pageSize) totalSize
    pageSize := query.pageSize
    totalSize }

end SQLStorageBase

/-! ### Following the tokens -/

/-- The stored tasks; the id is the key. -/
structure TaskTable where
  tasks : List Task
  distinct : (tasks.map Task.id).Nodup

/-- A client that starts without a token and follows the tokens sees the matching tasks, each once
and strictly descending, in as many pages as it takes; call number `i` is answered by `fetch i`. -/
def ListsAll {κ : Type} [LT κ] (fetch : Nat → Option String → ListTasksResult) (matching : List Task)
    (key : Task → κ) (shown : Task → Task) (pageSize : Nat) : Prop :=
  ∃ (listed : List Task) (pages : List ListTasksResult), listed.Perm matching ∧
    (listed.Pairwise fun a b => key b < key a) ∧
    (∀ fuel, pages.length ≤ fuel →
      follow fetch ListTasksResult.nextPageToken fuel 0 none = some pages) ∧
    pages.flatMap ListTasksResult.tasks = listed.map shown ∧
    pages.length = max 1 (matching.length ⌈/⌉ pageSize) ∧
    pages.getLast?.map ListTasksResult.nextPageToken = some "" ∧
    ∀ p ∈ pages, p.totalSize = matching.length

section

variable {c : Collation} {l : List Task}

/-- Tasks with different ids are never at the same place of the order. -/
theorem sortKey_nodup (h : (l.map Task.id).Nodup) : (l.map c.sortKey).Nodup := by
  have hinj : Set.InjOn c.sortKey {t | t ∈ l} := by
    intro a ha b hb heq
    have hid : a.id = b.id := c.injective (congrArg (fun x => (ofLex x).2) heq)
    exact List.inj_on_of_nodup_map h ha hb hid
  exact (List.nodup_map_iff_inj_on h.of_map).mpr hinj

/-- **An answer that is cut out of the sorted list of the matching tasks lists them all.** -/
theorem listsAll_of_cuts {fetch : Nat → Option String → ListTasksResult} {matching listed : List Task}
    {shown : Task → Task} {k : Nat} (hk : 1 ≤ k) (hperm : listed.Perm matching)
    (hsorted : listed.Pairwise fun a b => c.sortKey b < c.sortKey a)
    (hcuts : Cuts fetch ListTasksResult.nextPageToken ListTasksResult.tasks (listed.map shown) k)
    (htotal : ∀ i token, (fetch i token).totalSize = matching.length) :
    ListsAll fetch matching c.sortKey shown k := by
  have hlength : (listed.map shown).length = matching.length := by
    rw [List.length_map, hperm.length_eq]
  obtain ⟨pages, hpages, hflat, hcount, hend, hfrom⟩ := follow_all hk hcuts
  rw [hlength] at hcount
  refine ⟨listed, pages, hperm, hsorted, hpages, hflat, hcount, hend, ?_⟩
  · intro p hp
    obtain ⟨i, token, rfl⟩ := hfrom p hp
    exact htotal i token

theorem cuts_memory (tasks : List Task) (query : ListTasksQuery) :
    Cuts (fun _ token => InMemoryStorage.listTasks tasks { query with pageToken := token })
      ListTasksResult.nextPageToken ListTasksResult.tasks
      (((sortedDesc codePoints.sortKey tasks).filter (query.asksFor codePoints)).map
        (InMemoryStorage.listed query)) query.pageSize := by
  refine ⟨fun i token o htoken => ?_, fun i token o htoken => ?_⟩
  · show (slice _ (offsetOf token) (offsetOf token + query.pageSize)).map _ = _
    rw [htoken, ← List.map_drop, ← List.map_take]
    exact congrArg _ (slice_eq _ o query.pageSize)
  · show nextToken (offsetOf token + query.pageSize) _ = _
    rw [htoken, List.length_map]
    rfl

theorem cuts_sql {listed : List Task} (scan : Nat → List Task) (query : ListTasksQuery)
    (hlisted : ∀ i, sortedDesc c.sortKey ((scan i).filter (query.asksFor c)) = listed) :
    Cuts (fun i token => SQLStorageBase.listTasks c (scan i) { query with pageToken := token })
      ListTasksResult.nextPageToken ListTasksResult.tasks
      (listed.map (SQLStorageBase.rowToTask query)) query.pageSize := by
  refine ⟨fun i token o htoken => ?_, fun i token o htoken => ?_⟩
  · show ((List.drop (offsetOf token).toNat (sortedDesc c.sortKey _)).take query.pageSize).map _ = _
    rw [htoken, ← List.map_drop, ← List.map_take]
    exact congrArg _ (by rw [← hlisted i]; rfl)
  · show nextToken (offsetOf token + query.pageSize) ((scan i).countP (query.asksFor c)) = _
    rw [htoken, List.length_map, ← hlisted i, (sortedDesc_perm _ _).length_eq, List.countP_eq_length_filter]
    rfl

/-- **Pagination is complete**: on `InMemoryStorage`, and on a database whatever its collation and
however it goes through its rows on each call. -/
theorem pagination_complete (table : TaskTable) (query : ListTasksQuery) :
    ListsAll (fun _ token => InMemoryStorage.listTasks table.tasks { query with pageToken := token })
      (table.tasks.filter (query.asksFor codePoints)) codePoints.sortKey
      (InMemoryStorage.listed query) query.pageSize ∧
    ∀ (c : Collation) (scan : Nat → { rows : List Task // rows.Perm table.tasks }),
      ListsAll
        (fun i token => SQLStorageBase.listTasks c (scan i).1 { query with pageToken := token })
        (table.tasks.filter (query.asksFor c)) c.sortKey (SQLStorageBase.rowToTask query)
        query.pageSize := by
  constructor
  · have hperm := (sortedDesc_perm codePoints.sortKey table.tasks).filter
      (query.asksFor codePoints)
    refine listsAll_of_cuts query.pageSize_ge hperm ?_ (cuts_memory table.tasks query) ?_
    · exact (sortedDesc_strict (sortKey_nodup table.distinct)).filter _
    · intro i token
      exact hperm.length_eq
  · intro c scan
    have hnodup : ((table.tasks.filter (query.asksFor c)).map c.sortKey).Nodup :=
      (sortKey_nodup table.distinct).sublist (List.filter_sublist.map _)
    have hfilter : ∀ i, ((scan i).1.filter (query.asksFor c)).Perm
        (table.tasks.filter (query.asksFor c)) := fun i => (scan i).2.filter _
    -- the database sorts the rows of every call alike
    have hlisted : ∀ i, sortedDesc c.sortKey ((scan i).1.filter (query.asksFor c)) =
        sortedDesc c.sortKey (table.tasks.filter (query.asksFor c)) := by
      intro i
      have hnodup' : (((scan i).1.filter (query.asksFor c)).map c.sortKey).Nodup :=
        ((hfilter i).map _).nodup_iff.mpr hnodup
      refine eq_of_perm_of_sorted ?_ (sortedDesc_strict hnodup') (sortedDesc_strict hnodup)
      exact (sortedDesc_perm _ _).trans ((hfilter i).trans (sortedDesc_perm _ _).symm)
    refine listsAll_of_cuts query.pageSize_ge (sortedDesc_perm _ _) (sortedDesc_strict hnodup)
      (cuts_sql _ query hlisted) ?_
    intro i token
    show (scan i).1.countP (query.asksFor c) = _
    rw [List.countP_eq_length_filter, (hfilter i).length_eq]

end

end A2AKit
