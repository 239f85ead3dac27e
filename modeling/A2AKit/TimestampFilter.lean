/-
Lists of the tasks that changed after a time.

The status of a task has the text of the time at which it was written, as `isoformat` writes it.
`list_tasks` compares it with the text the client sent, character by character, whatever offset and
fraction that text has.

* `filters_by_time_iff` — a text picks the tasks that are later than its time, on every backend, if
  and only if it lies between the texts of the last microsecond up to its time and of the next one;
* `zulu_not_filtered` — a time that ends in `Z` hides the tasks of the same second.
-/
import A2AKit.TimestampOrder
import Mathlib.Algebra.Order.Archimedean.Basic

namespace A2AKit

open Pagination RedisStorage IsoFormat

/-- What a backend answers to the tokens of a query. -/
inductive Listing (w : Keyspace) (query : ListTasksQuery) : (Option String → ListTasksResult) → Prop
  | memory : Listing w query fun token =>
      InMemoryStorage.listTasks w.stored { query with pageToken := token }
  | sql {c : Collation} {rows : List Task} (hc : c.ByCodePoints) (hrows : rows.Perm w.stored) :
      Listing w query fun token =>
        SQLStorageBase.listTasks c rows { query with pageToken := token }
  | redis {τ : Type} [LinearOrder τ] (time : Timestamp → τ) {taskIds : List TaskId}
      (hids : taskIds.Perm (candidateIds w query)) :
      Listing w query fun token =>
        RedisStorage.listTasks time w taskIds { query with pageToken := token }

/-- The task is on the page of some offset. -/
def Included (fetch : Option String → ListTasksResult) (t : Task) : Prop :=
  ∃ o : Nat, t.id ∈ (fetch (some (toString o))).tasks.map Task.id

/-- A query for the tasks that changed after a time. -/
def ListTasksQuery.after (query : ListTasksQuery) (text : String) : ListTasksQuery :=
  { query with statusTimestampAfter := some text }

/-- The other filters of a query. -/
def ListTasksQuery.others (query : ListTasksQuery) : ListTasksQuery :=
  { query with statusTimestampAfter := none }

/-- With `text`, every backend lists those of the tasks that the rest of the query asks for whose
status is later than `x`. -/
def FiltersByTime (text : String) (x : ℚ) : Prop :=
  ∀ (w : Keyspace) (query : ListTasksQuery), StoresTasks w →
    ∀ fetch, Listing w (query.after text) fetch →
      ∀ t ∈ w.stored, ∀ d : DateTime, t.status.timestamp = d.isoformat →
        (Included fetch t ↔ query.others.asksFor codePoints t = true ∧ x < d.instant)

/-- The last time that is not after `x`. -/
def LastUpTo (x : ℚ) (d : DateTime) : Prop :=
  d.instant ≤ x ∧ ∀ e : DateTime, e.instant ≤ x → e.instant ≤ d.instant

/-- The first time after `x`. -/
def FirstAfter (x : ℚ) (d : DateTime) : Prop :=
  x < d.instant ∧ ∀ e : DateTime, x < e.instant → d.instant ≤ e.instant

/-- The text has the place of `x` among the texts of all times. -/
def InPlace (text : String) (x : ℚ) : Prop :=
  (∀ d, LastUpTo x d → d.isoformat ≤ text) ∧ ∀ d, FirstAfter x d → text < d.isoformat

/-! ### What a backend lists -/

variable {w : Keyspace} {query : ListTasksQuery} {text : String} {x : ℚ} {t : Task}

theorem offsetOf_toString (o : Nat) : offsetOf (some (toString o)) = o := by
  have htoken : nextToken (o : Nat) (o + 1) = toString o := if_pos (by omega)
  rw [← htoken]
  exact offsetOf_nextToken (Nat.lt_succ_self o)

/-- What is cut out of a list is included if it is in the list. -/
theorem included_of_cuts {fetch : Option String → ListTasksResult} {l : List Task} {k : Nat}
    {shown : Task → Task} (hcuts : Cuts (fun _ : Nat => fetch) ListTasksResult.nextPageToken
      ListTasksResult.tasks (l.map shown) k) (hk : 1 ≤ k) (hshown : ∀ t, (shown t).id = t.id) :
    Included fetch t ↔ t.id ∈ l.map Task.id := by
  have hids : (l.map shown).map Task.id = l.map Task.id := by
    rw [List.map_map]
    exact List.map_congr_left fun t _ => hshown t
  rw [← hids]
  constructor
  · rintro ⟨o, ho⟩
    rw [hcuts.items 0 _ o (offsetOf_toString o)] at ho
    exact ((List.take_sublist _ _).trans (List.drop_sublist _ _)).map Task.id |>.subset ho
  · intro hmem
    obtain ⟨s, hs, hid⟩ := List.mem_map.mp hmem
    obtain ⟨o, ho⟩ := List.getElem?_of_mem hs
    refine ⟨o, ?_⟩
    rw [hcuts.items 0 _ o (offsetOf_toString o), ← hid]
    refine List.mem_map_of_mem (List.mem_of_getElem? (i := 0) ?_)
    rw [List.getElem?_take, if_pos (by omega), List.getElem?_drop, Nat.add_zero, ho]

/-- **Every backend lists the tasks that the query asks for.** -/
theorem Listing.included_iff {fetch : Option String → ListTasksResult} (h : Listing w query fetch)
    (hw : StoresTasks w) (ht : t ∈ w.stored) :
    Included fetch t ↔ query.asksFor codePoints t = true := by
  have hmem : ∀ l : List Task, l.Perm (w.stored.filter (query.asksFor codePoints)) →
      (t.id ∈ l.map Task.id ↔ query.asksFor codePoints t = true) := by
    intro l hl
    rw [(hl.map Task.id).mem_iff, List.mem_map]
    constructor
    · rintro ⟨s, hs, hid⟩
      obtain ⟨hs, hasks⟩ := List.mem_filter.mp hs
      rwa [← List.inj_on_of_nodup_map hw.distinct hs ht hid]
    · intro hasks
      exact ⟨t, List.mem_filter.mpr ⟨ht, hasks⟩, rfl⟩
  cases h with
  | memory =>
    rw [included_of_cuts (cuts_memory w.stored query) query.pageSize_ge fun _ => rfl]
    exact hmem _ memoryOrder_perm
  | sql hc hrows =>
    rw [included_of_cuts (cuts_sql (fun _ => _) query fun _ => sortedDesc_sql hw hc hrows)
      query.pageSize_ge fun _ => rfl]
    exact hmem _ memoryOrder_perm
  | redis time hids =>
    rw [included_of_cuts (cuts_redis (fun _ => _) fun _ => rfl) query.pageSize_ge fun _ => rfl]
    exact hmem _ ((sortedDesc_perm _ _).trans (matchingOf_perm hw hids))

theorem asksFor_after : (query.after text).asksFor codePoints t = true ↔
    query.others.asksFor codePoints t = true ∧ (text = "" ∨ text < t.status.timestamp) := by
  unfold ListTasksQuery.asksFor
  rw [Bool.and_eq_true]
  refine and_congr ?_ ?_
  · exact (Bool.and_eq_true_iff.trans (and_iff_left rfl)).symm
  · show (decide (text = "") || decide (text < t.status.timestamp)) = true ↔ _
    rw [Bool.or_eq_true, decide_eq_true_eq, decide_eq_true_eq]

/-! ### Texts and times -/

/-- Among the times with a property there is a least one. -/
theorem exists_least {p : DateTime → Prop} (f : DateTime → Nat) (h : ∃ d, p d) :
    ∃ d, p d ∧ ∀ e, p e → f d ≤ f e := by
  obtain ⟨d, hd, hmin⟩ := (measure f).wf.has_min {d | p d} h
  exact ⟨d, hd, fun e he => Nat.le_of_not_lt (hmin e he)⟩

theorem exists_lastUpTo {e : DateTime} (he : e.instant ≤ x) : ∃ d, LastUpTo x d := by
  obtain ⟨bound, hx⟩ := exists_nat_ge x
  have hbound : ∀ d : DateTime, d.instant ≤ x → d.instant ≤ bound := fun d hd =>
    Nat.cast_le.mp (hd.trans hx)
  obtain ⟨d, hd, hleast⟩ := exists_least (p := fun d => d.instant ≤ x)
    (fun d => bound - d.instant) ⟨e, he⟩
  refine ⟨d, hd, fun e he => ?_⟩
  have hle := hleast e he
  have hd' := hbound d hd
  have he' := hbound e he
  omega

theorem exists_firstAfter {e : DateTime} (he : x < e.instant) : ∃ d, FirstAfter x d :=
  exists_least DateTime.instant ⟨e, he⟩

/-- **A text in the place of `x` comes before the texts of the later times, and of no others.** -/
theorem inPlace_iff : InPlace text x ↔
    ∀ d : DateTime, text < d.isoformat ↔ x < d.instant := by
  constructor
  · rintro ⟨hlast, hfirst⟩ d
    constructor
    · intro hlt
      by_contra hle
      rw [not_lt] at hle
      obtain ⟨e, he⟩ := exists_lastUpTo hle
      have htext : d.isoformat ≤ text :=
        (DateTime.isoformat_le_iff.mpr (he.2 d hle)).trans (hlast e he)
      exact absurd hlt (not_lt.mpr htext)
    · intro hlt
      obtain ⟨e, he⟩ := exists_firstAfter hlt
      exact (hfirst e he).trans_le (DateTime.isoformat_le_iff.mpr (he.2 d hlt))
  · intro hall
    refine ⟨fun d hd => ?_, fun d hd => (hall d).mpr hd.1⟩
    exact not_lt.mp fun hlt => absurd ((hall d).mp hlt) (not_lt.mpr hd.1)

theorem isoformat_ne_empty (d : DateTime) : d.isoformat ≠ "" := by
  intro h
  have hnil := congrArg String.toList h
  rw [DateTime.isoformat, String.toList_ofList] at hnil
  have htail := (List.append_eq_nil_iff.mp hnil).2
  exact absurd (List.append_eq_nil_iff.mp htail).2 (by decide)

theorem empty_or_lt_isoformat {d : DateTime} :
    text = "" ∨ text < d.isoformat ↔ text < d.isoformat := by
  refine or_iff_right_of_imp ?_
  rintro rfl
  have hle : "" ≤ d.isoformat := not_lt.mp fun hlt =>
    List.not_lt_nil _ (String.lt_iff_toList_lt.mp hlt)
  exact lt_of_le_of_ne hle (isoformat_ne_empty d).symm

/-- A text picks the tasks that are later than its time if it comes before the texts of the later
times, and of no others. -/
theorem filtersByTime_iff_texts :
    FiltersByTime text x ↔ ∀ d : DateTime, text < d.isoformat ↔ x < d.instant := by
  constructor
  · intro hfilters d
    have hstored : storedTask "a" d.isoformat ∈ (twoTasks d.isoformat d.isoformat).stored :=
      mem_stored.mpr ⟨"a", _, rfl, rfl⟩
    have hlisting := @Listing.memory (twoTasks d.isoformat d.isoformat)
      (({} : ListTasksQuery).after text)
    have hw := storesTasks_twoTasks d.isoformat d.isoformat
    have hall := hfilters _ {} hw _ hlisting _ hstored d rfl
    rw [hlisting.included_iff hw hstored, asksFor_after] at hall
    -- the query has no other filter
    have hothers : ({} : ListTasksQuery).others.asksFor codePoints (storedTask "a" d.isoformat) =
      true := rfl
    rw [and_iff_right hothers, and_iff_right hothers] at hall
    exact empty_or_lt_isoformat.symm.trans hall
  · intro hplace w query hw fetch hlisting t ht d hd
    rw [hlisting.included_iff hw ht, asksFor_after, hd, empty_or_lt_isoformat, hplace d]

/-- **A text picks the tasks that are later than its time if and only if it is in the place of that
time.** -/
theorem filters_by_time_iff (text : String) (x : ℚ) : FiltersByTime text x ↔ InPlace text x :=
  filtersByTime_iff_texts.trans inPlace_iff.symm

/-! ### A time that ends in `Z` -/

/-- **After noon, written with `Z`, the task of half a second later is not listed.** -/
theorem zulu_not_filtered : Denotes "2026-01-01T12:00:00Z" atNoon.instant ∧
    ¬ FiltersByTime "2026-01-01T12:00:00Z" atNoon.instant := by
  refine ⟨⟨⟨atNoon, rfl, [], .utc⟩, by decide +kernel, ?_⟩, ?_⟩
  · show (atNoon.instant : ℚ) + 0 * 10 ^ 6 - ((0 : Int) : ℚ) * (60 * 10 ^ 6) = _
    norm_num
  · intro hfilters
    have hall := filtersByTime_iff_texts.mp hfilters
    have hlater : (atNoon.instant : ℚ) < halfASecondLater.instant :=
      Nat.cast_lt.mpr (by decide +kernel)
    exact absurd ((hall halfASecondLater).mpr hlater) (by decide +kernel)

end A2AKit
