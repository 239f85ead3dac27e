/-
Timestamps that are sorted as times.

A storage keeps the time of a status as the text that `isoformat` writes, and `list_tasks` sorts by
this text: `InMemoryStorage` with `_sort_key`, a database by its column `status_timestamp`.

* `texts_compare_as_times` — the texts, and the keys with the id behind the text, compare as the
  times do, where the collation of the database compares code points;
* `pages_newest_first` — so a page begins with its latest task.
-/
import A2AKit.IsoFormat
import A2AKit.PageTokens

namespace A2AKit

open Pagination IsoFormat

/-- The root of a `Timestamp`. -/
inductive TimestampRoot where
  | datetime (root : DateTime)
  | other (root : String)

namespace InMemoryStorage

/-- `_ts_str` -/
def tsStr : Option TimestampRoot → String
  | none => ""
  | some (.datetime root) => root.isoformat
  | some (.other root) => root

/-- `_sort_key` -/
def sortKey (timestamp : Option TimestampRoot) (id : TaskId) : String ×ₗ String :=
  toLex (tsStr timestamp, id)

end InMemoryStorage

/-- A time and, where times are equal, the id. -/
def timeKey (time : DateTime) (id : TaskId) : DateTime ×ₗ TaskId := toLex (time, id)

/-- Later tasks stand first. -/
def NewestFirst (tasks : List Task) : Prop :=
  tasks.Pairwise fun t u => ∀ d e : DateTime, t.status.timestamp = d.isoformat →
    u.status.timestamp = e.isoformat → timeKey e u.id ≤ timeKey d t.id

section

variable {c : Collation} {a b : DateTime} {t u : Task}

theorem Collation.ByCodePoints.strictMono (hc : c.ByCodePoints) : StrictMono c.weight :=
  fun a b h => (hc a b).mpr h

/-- The keys of a collation, as a function of the time. -/
theorem sortKey_strictMono (hc : c.ByCodePoints) : StrictMono fun k : DateTime ×ₗ TaskId =>
    (toLex (c.weight (ofLex k).1.isoformat, c.weight (ofLex k).2) : c.Weight ×ₗ c.Weight) := by
  intro k l h
  have hweight := hc.strictMono
  rw [Prod.Lex.toLex_lt_toLex]
  rcases Prod.Lex.lt_iff.mp h with hlt | ⟨heq, hlt⟩
  · exact Or.inl (hweight (DateTime.isoformat_strictMono hlt))
  · exact Or.inr ⟨congrArg (fun d : DateTime => c.weight d.isoformat) heq, hweight hlt⟩

theorem cmp_sortKey (hc : c.ByCodePoints) (ht : t.status.timestamp = a.isoformat)
    (hu : u.status.timestamp = b.isoformat) :
    cmp (c.sortKey t) (c.sortKey u) = cmp (timeKey a t.id) (timeKey b u.id) := by
  unfold Collation.sortKey
  rw [ht, hu]
  exact (sortKey_strictMono hc).cmp_map_eq (timeKey a t.id) (timeKey b u.id)

/-- **The texts of times compare as the times do**, alone and as the first component of the keys
that tasks are sorted by. -/
theorem texts_compare_as_times (a b : DateTime) (i j : TaskId) :
    cmp a.isoformat b.isoformat = cmp a b ∧ cmp a b = cmp a.instant b.instant ∧
    cmp (InMemoryStorage.sortKey (some (.datetime a)) i)
      (InMemoryStorage.sortKey (some (.datetime b)) j) = cmp (timeKey a i) (timeKey b j) ∧
    ∀ c : Collation, c.ByCodePoints → ∀ t u : Task, t.status.timestamp = a.isoformat →
      u.status.timestamp = b.isoformat →
      cmp (c.weight t.status.timestamp) (c.weight u.status.timestamp) = cmp a b ∧
      cmp (c.sortKey t) (c.sortKey u) = cmp (timeKey a t.id) (timeKey b u.id) := by
  have hcodePoints : codePoints.ByCodePoints := fun _ _ => Iff.rfl
  refine ⟨DateTime.isoformat_strictMono.cmp_map_eq a b,
    (DateTime.instant_strictMono.cmp_map_eq a b).symm, ?_, fun c hc t u ht hu => ⟨?_, ?_⟩⟩
  · exact (sortKey_strictMono hcodePoints).cmp_map_eq (timeKey a i) (timeKey b j)
  · rw [ht, hu]
    exact (hc.strictMono.comp DateTime.isoformat_strictMono).cmp_map_eq a b
  · exact cmp_sortKey hc ht hu

/-- Noon. -/
def atNoon : DateTime where
  year := 2026
  month := 1
  day := 1
  hour := 12
  month_pos := Nat.one_pos
  day_pos := Nat.one_pos

/-- The second half of the second. -/
def halfASecondLater : DateTime :=
  { atNoon with microsecond := 500000, microsecond_lt := by decide }

/-- A text without a fraction comes before one with a fraction. -/
theorem noon_before_half_second : cmp atNoon.isoformat halfASecondLater.isoformat = .lt ∧
    cmp (codePoints.sortKey (storedTask "b" atNoon.isoformat))
      (codePoints.sortKey (storedTask "a" halfASecondLater.isoformat)) = .lt := by
  obtain ⟨htexts, -, -, hkeys⟩ := texts_compare_as_times atNoon halfASecondLater "b" "a"
  refine ⟨htexts.trans (by decide), ?_⟩
  exact (hkeys codePoints (fun _ _ => Iff.rfl) _ _ rfl rfl).2.trans (by decide)

/-! ### Pages -/

/-- What is taken out of a sorted list is sorted, whatever is done to the histories. -/
theorem newestFirst_of_sublist (hc : c.ByCodePoints) {rows page : List Task} {shown : Task → Task}
    (hshown : ∀ t, (shown t).status = t.status ∧ (shown t).id = t.id)
    (hpage : page.Sublist (sortedDesc c.sortKey rows)) : NewestFirst (page.map shown) := by
  refine List.pairwise_map.mpr ((sortedDesc_pairwise.sublist hpage).imp ?_)
  intro t u hle d e hd he
  rw [(hshown t).1] at hd
  rw [(hshown u).1] at he
  rw [(hshown t).2, (hshown u).2]
  -- the order of the keys is that of the times
  have hcmp := cmp_sortKey hc he hd
  have hlt : ¬ c.sortKey t < c.sortKey u := not_lt.mpr hle
  refine not_lt.mp fun htime => hlt ?_
  exact (cmp_eq_gt_iff _ _).mp (hcmp.trans ((cmp_eq_gt_iff _ _).mpr htime))

theorem pages_newest_first (tasks : List Task) (query : ListTasksQuery) :
    NewestFirst (InMemoryStorage.listTasks tasks query).tasks ∧
      ∀ c : Collation, c.ByCodePoints →
        NewestFirst (SQLStorageBase.listTasks c tasks query).tasks := by
  constructor
  · have hpage : (slice ((sortedDesc codePoints.sortKey tasks).filter (query.asksFor codePoints))
        (offsetOf query.pageToken) (offsetOf query.pageToken + query.pageSize)).Sublist
        (sortedDesc codePoints.sortKey tasks) :=
      (slice_sublist _ _ _).trans List.filter_sublist
    exact newestFirst_of_sublist (fun _ _ => Iff.rfl) (fun _ => ⟨rfl, rfl⟩) hpage
  · intro c hc
    -- the query of the database filters before it sorts
    have hpage : (((sortedDesc c.sortKey (tasks.filter (query.asksFor c))).drop
        (offsetOf query.pageToken).toNat).take query.pageSize).Sublist
        (sortedDesc c.sortKey (tasks.filter (query.asksFor c))) :=
      (List.take_sublist _ _).trans (List.drop_sublist _ _)
    exact newestFirst_of_sublist hc (fun _ => ⟨rfl, rfl⟩) hpage

end

end A2AKit
