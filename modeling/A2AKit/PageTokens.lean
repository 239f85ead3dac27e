/-
Page tokens that a client makes up.

A token goes through `int` and then, as it is, into a slice on `InMemoryStorage` and Redis and into
an `OFFSET` on SQL.  A slice takes a negative offset from the end, SQLite counts it as 0 and
PostgreSQL rejects it; neither database takes an offset beyond 64 bits.

* `tokens_alike_iff` — all backends answer a token with one block of one list if and only if its
  offset is at least 0 and below 2 ^ 63 and no task of the block has the timestamp of another one.
-/
import A2AKit.RedisTaskLists

namespace A2AKit

open Pagination RedisStorage

/-! ### Tokens that are read and written -/

/-- `sys.int_info.default_max_str_digits` -/
def maxStrDigits : Nat := 4300

def digitCount (s : String) : Nat := s.toList.countP fun c => (decimal c).isSome

/-- A numeral of more digits is a `ValueError` for `int`, and counts as no token. -/
def readable (token : Option String) : Option String :=
  token.filter fun s => digitCount s ≤ maxStrDigits

def ListTasksQuery.legible (query : ListTasksQuery) : ListTasksQuery :=
  { query with pageToken := readable query.pageToken }

/-- The offset that a query asks for. -/
def ListTasksQuery.offset (query : ListTasksQuery) : Int := offsetOf (readable query.pageToken)

/-- What `list_tasks` raises: the database rejects the offset, or `str` the next one. -/
inductive ListTasksError where
  | offsetRejected
  | valueError

/-- `str` refuses the numerals that `int` refuses. -/
def spelled (result : ListTasksResult) : Except ListTasksError ListTasksResult :=
  if digitCount result.nextPageToken ≤ maxStrDigits then .ok result else .error .valueError

inductive SqlDialect where
  | sqlite
  | postgresql

/-- The offsets that are 64-bit integers, on PostgreSQL without those below 0. -/
def SqlDialect.accepts : SqlDialect → Int → Bool
  | .sqlite, offset => -2 ^ 63 ≤ offset && offset < 2 ^ 63
  | .postgresql, offset => 0 ≤ offset && offset < 2 ^ 63

/-- `list_tasks`, with its exceptions. -/
def InMemoryStorage.answer (tasks : List Task) (query : ListTasksQuery) :
    Except ListTasksError ListTasksResult :=
  spelled (listTasks tasks query.legible)

/-- `list_tasks`, with its exceptions. -/
def SQLStorageBase.answer (d : SqlDialect) (c : Collation) (rows : List Task)
    (query : ListTasksQuery) : Except ListTasksError ListTasksResult :=
  if d.accepts query.offset then spelled (listTasks c rows query.legible) else .error .offsetRejected

section

variable {τ : Type} [LinearOrder τ]

/-- `list_tasks`, with its exceptions. -/
def RedisStorage.answer (time : Timestamp → τ) (w : Keyspace) (taskIds : List TaskId)
    (query : ListTasksQuery) : Except ListTasksError ListTasksResult :=
  spelled (listTasks time w taskIds query.legible)

/-! ### Answers that agree -/

/-- The collation compares texts by their code points. -/
def Collation.ByCodePoints (c : Collation) : Prop := ∀ a b, c.weight a < c.weight b ↔ a < b

/-- A page of `block`, with the token of the next one. -/
def Shows (answer : Except ListTasksError ListTasksResult) (block : List Task) (shown : Task → Task)
    (token : String) : Prop :=
  ∃ result, answer = .ok result ∧ result.tasks = block.map shown ∧ result.nextPageToken = token

/-- The token with which a client goes on; an exception is the end. -/
def tokenOf : Except ListTasksError ListTasksResult → String
  | .ok result => result.nextPageToken
  | .error _ => ""

/-- A client that follows the tokens comes to an end. -/
def FollowEnds (fetch : Nat → Option String → Except ListTasksError ListTasksResult)
    (token : Option String) : Prop :=
  ∃ pages, ∀ fuel, pages.length ≤ fuel → follow fetch tokenOf fuel 0 token = some pages

/-- Every backend answers the token of the query with one block of the ordered list and one next
token, and following the tokens from there comes to an end. -/
structure TokensAlike (time : Timestamp → τ) (w : Keyspace) (query : ListTasksQuery) : Prop where
  page : ∃ block token, block <:+: memoryOrder w query ∧ block.length ≤ query.pageSize ∧
    Shows (InMemoryStorage.answer w.stored query) block (InMemoryStorage.listed query) token ∧
    (∀ d (c : Collation) (rows : List Task), c.ByCodePoints → rows.Perm w.stored →
      Shows (SQLStorageBase.answer d c rows query) block (SQLStorageBase.rowToTask query) token) ∧
    ∀ taskIds : List TaskId, taskIds.Perm (candidateIds w query) →
      Shows (RedisStorage.answer time w taskIds query) block (hashToTask query) token
  memoryEnds : FollowEnds (fun _ token =>
    InMemoryStorage.answer w.stored { query with pageToken := token }) query.pageToken
  sqlEnds : ∀ d (c : Collation) (rows : Nat → List Task), c.ByCodePoints →
    (∀ i, (rows i).Perm w.stored) → FollowEnds (fun i token =>
      SQLStorageBase.answer d c (rows i) { query with pageToken := token }) query.pageToken
  redisEnds : ∀ scan : Enumeration w query, FollowEnds (fun i token =>
    RedisStorage.answer time w (scan i).1 { query with pageToken := token }) query.pageToken

/-- No task of the page at `o` has the timestamp of another one that matches. -/
def NoTieOnPage (time : Timestamp → τ) (w : Keyspace) (query : ListTasksQuery) (o : Nat) : Prop :=
  ∀ t ∈ ((memoryOrder w query).drop o).take query.pageSize, ∀ u ∈ memoryOrder w query,
    time u.status.timestamp = time t.status.timestamp → u = t

/-! ### The end of a client -/

variable {query : ListTasksQuery} {w : Keyspace} {time : Timestamp → τ}

/-- A token that was written names its offset when it is read again. -/
theorem offset_nextToken {next total : Nat}
    (hdigits : digitCount (nextToken next total) ≤ maxStrDigits)
    (hne : nextToken (next : Int) total ≠ "") :
    next < total ∧ offsetOf (readable (some (nextToken next total))) = next := by
  have hlt : next < total := by
    by_contra hge
    exact hne (nextToken_eq_empty.mpr (by omega))
  refine ⟨hlt, ?_⟩
  rw [readable, Option.filter_some, if_pos (decide_eq_true hdigits)]
  exact offsetOf_nextToken hlt

/-- A client of answers whose next token is that of the following page comes to an end. -/
theorem followEnds_of_next {fetch : Nat → Option String → Except ListTasksError ListTasksResult}
    {k : Nat} (hk : 1 ≤ k) (total : Nat)
    (hfetch : ∀ i token (o : Nat), offsetOf (readable token) = o →
      tokenOf (fetch i token) = "" ∨ tokenOf (fetch i token) = nextToken (o + k : Nat) total ∧
        digitCount (tokenOf (fetch i token)) ≤ maxStrDigits)
    {token : Option String} (htoken : 0 ≤ offsetOf (readable token)) : FollowEnds fetch token := by
  refine follow_ends (g := fun token => 0 ≤ offsetOf (readable token))
    (fun token => total - (offsetOf (readable token)).toNat) (fun i token hg hne => ?_) 0 token htoken
  obtain ⟨o, ho⟩ := Int.eq_ofNat_of_zero_le hg
  rcases hfetch i token o ho with hend | ⟨hnext, hdigits⟩
  · exact absurd hend hne
  · rw [hnext] at hdigits hne ⊢
    obtain ⟨hlt, hoffset⟩ := offset_nextToken hdigits hne
    rw [hoffset, ho]
    omega

theorem tokenOf_spelled (result : ListTasksResult) : tokenOf (spelled result) = "" ∨
    tokenOf (spelled result) = result.nextPageToken ∧
      digitCount (tokenOf (spelled result)) ≤ maxStrDigits := by
  unfold spelled
  split
  · rename_i hdigits
    exact Or.inr ⟨rfl, hdigits⟩
  · exact Or.inl rfl

/-! ### Offsets that every backend takes -/

theorem digitCount_nextToken {next total : Nat} (h : next < 10 ^ maxStrDigits) :
    digitCount (nextToken next total) ≤ maxStrDigits := by
  have hlength : (nextToken next total).toList.length ≤ maxStrDigits := by
    unfold nextToken
    split
    · exact (Nat.length_repr_le_iff (by decide)).mpr h
    · exact Nat.zero_le _
  exact List.countP_le_length.trans hlength

theorem neg_lt_parseInt {s : String} {n : Int} (h : parseInt s = some n) :
    -(10 ^ digitCount s : Nat) < n := by
  have hbound : ∀ {cs : List Char} {m : Nat}, cs.Sublist s.toList → natValue cs = some m →
      m < 10 ^ digitCount s := fun hcs hm =>
    (natValue_lt hm).trans_le (Nat.pow_le_pow_right (by decide) hcs.countP_le)
  have hstrip : ((s.toList.dropWhile isBlank).rdropWhile isBlank).Sublist s.toList :=
    (List.rdropWhile_prefix _ _).sublist.trans (List.dropWhile_suffix _).sublist
  have hpos : 0 < 10 ^ digitCount s := Nat.pow_pos (by decide)
  unfold parseInt at h
  split at h
  · obtain ⟨m, hm, rfl⟩ := Option.map_eq_some_iff.mp h
    have : (0 : Int) ≤ Int.ofNat m := Int.natCast_nonneg m
    omega
  · rename_i cs hcs
    obtain ⟨x, hx, rfl⟩ := Option.map_eq_some_iff.mp h
    obtain ⟨m, hm, hcast⟩ := Option.bind_eq_some_iff.mp hx
    obtain rfl : (m : Int) = x := Option.some.inj hcast
    rw [hcs] at hstrip
    have := hbound ((List.sublist_cons_self _ _).trans hstrip) hm
    omega
  · obtain ⟨m, hm, rfl⟩ := Option.map_eq_some_iff.mp h
    have : (0 : Int) ≤ Int.ofNat m := Int.natCast_nonneg m
    omega

/-- An offset that is read can be written with the digits that are allowed. -/
theorem neg_lt_offset (token : Option String) :
    -(10 ^ maxStrDigits : Nat) < offsetOf (readable token) := by
  have hpos : 0 < 10 ^ maxStrDigits := Nat.pow_pos (by decide)
  unfold offsetOf
  split
  · omega
  · rename_i s hs
    have hdigits : digitCount s ≤ maxStrDigits := by
      obtain ⟨-, h⟩ := Option.filter_eq_some_iff.mp hs
      exact of_decide_eq_true h
    split
    · omega
    · cases hparse : parseInt s with
      | none =>
        rw [Option.getD_none]
        omega
      | some n =>
        rw [Option.getD_some]
        have hn := neg_lt_parseInt hparse
        have hpow : 10 ^ digitCount s ≤ 10 ^ maxStrDigits := Nat.pow_le_pow_right (by decide) hdigits
        omega

/-- The token of the page after one that is read can be written. -/
theorem digitCount_next {next : Int} {total : Nat} (hlow : -(10 ^ maxStrDigits : Nat) < next)
    (htotal : total < 2 ^ 63) : digitCount (nextToken next total) ≤ maxStrDigits := by
  have hsmall : 2 ^ 63 ≤ 10 ^ maxStrDigits :=
    (show 2 ^ 63 ≤ 10 ^ 20 by decide).trans (Nat.pow_le_pow_right (by decide) (by decide))
  cases next with
  | ofNat n =>
    show digitCount (nextToken (n : Int) total) ≤ _
    by_cases hlt : (n : Int) < total
    · exact digitCount_nextToken (by omega)
    · rw [nextToken, if_neg hlt]
      exact Nat.zero_le _
  | negSucc n =>
    -- the sign is no digit
    have hn : n + 1 < 10 ^ maxStrDigits := by
      have : Int.negSucc n = -((n : Int) + 1) := rfl
      omega
    have hlength : (n + 1).repr.length ≤ maxStrDigits := (Nat.length_repr_le_iff (by decide)).mpr hn
    rw [nextToken, if_pos (by omega)]
    show ("-" ++ (n + 1).repr).toList.countP _ ≤ _
    rw [String.toList_append, List.countP_append]
    have hsign : "-".toList.countP (fun c => (decimal c).isSome) = 0 := by decide
    rw [hsign, Nat.zero_add]
    exact List.countP_le_length.trans hlength

/-- An answer at a natural offset shows the block there. -/
theorem shows_spelled {result : ListTasksResult} {block : List Task} {shown : Task → Task}
    {next total : Nat} (htasks : result.tasks = block.map shown)
    (hnext : result.nextPageToken = nextToken next total) (h : next < 10 ^ maxStrDigits) :
    Shows (spelled result) block shown (nextToken next total) := by
  refine ⟨result, ?_, htasks, hnext⟩
  rw [spelled, if_pos]
  rw [hnext]
  exact digitCount_nextToken h

theorem memoryOrder_perm :
    (memoryOrder w query).Perm (w.stored.filter (query.asksFor codePoints)) :=
  (sortedDesc_perm codePoints.sortKey w.stored).filter _

theorem memoryOrder_strict (hw : StoresTasks w) : (memoryOrder w query).Pairwise fun a b =>
    codePoints.sortKey b < codePoints.sortKey a :=
  (sortedDesc_strict (sortKey_nodup hw.distinct)).filter _

theorem memoryOrder_times (hw : StoresTasks w) (htimes : TimesAgree time w) :
    (memoryOrder w query).Pairwise fun a b =>
      time b.status.timestamp ≤ time a.status.timestamp := by
  have hstored : ∀ t ∈ memoryOrder w query, t ∈ w.stored := fun t ht =>
    (List.mem_filter.mp (memoryOrder_perm.mem_iff.mp ht)).1
  refine (memoryOrder_strict hw).imp_of_mem fun {a b} ha hb hlt => ?_
  refine (htimes b (hstored b hb) a (hstored a ha)).mpr ?_
  rcases Prod.Lex.toLex_lt_toLex.mp hlt with hlt | ⟨heq, -⟩
  · exact le_of_lt hlt
  · exact le_of_eq heq

/-- Collations that compare code points sort alike. -/
theorem sortKey_lt {c : Collation} (hc : c.ByCodePoints) (a b : Task) :
    c.sortKey a < c.sortKey b ↔ codePoints.sortKey a < codePoints.sortKey b := by
  unfold Collation.sortKey
  rw [Prod.Lex.toLex_lt_toLex, Prod.Lex.toLex_lt_toLex]
  refine or_congr (hc _ _) (and_congr ?_ (hc _ _))
  exact c.injective.eq_iff

theorem asksFor_byCodePoints {c : Collation} (hc : c.ByCodePoints) (query : ListTasksQuery) :
    query.asksFor c = query.asksFor codePoints := by
  funext t
  unfold ListTasksQuery.asksFor
  refine congrArg₂ and rfl ?_
  unfold ListTasksQuery.keeps
  cases query.statusTimestampAfter with
  | none => rfl
  | some after => exact congrArg (decide (after = "") || ·) (decide_eq_decide.mpr (hc _ _))

theorem sortedDesc_sql (hw : StoresTasks w) {c : Collation} (hc : c.ByCodePoints) {rows : List Task}
    (hrows : rows.Perm w.stored) :
    sortedDesc c.sortKey (rows.filter (query.asksFor c)) = memoryOrder w query := by
  rw [asksFor_byCodePoints hc]
  have hperm : (rows.filter (query.asksFor codePoints)).Perm (memoryOrder w query) :=
    (hrows.filter _).trans memoryOrder_perm.symm
  have hnodup : ((rows.filter (query.asksFor codePoints)).map c.sortKey).Nodup :=
    (sortKey_nodup ((hrows.map _).nodup_iff.mpr hw.distinct)).sublist (List.filter_sublist.map _)
  have hstrict : (sortedDesc c.sortKey (rows.filter (query.asksFor codePoints))).Pairwise fun a b =>
      codePoints.sortKey b < codePoints.sortKey a :=
    (sortedDesc_strict hnodup).imp fun hlt => (sortKey_lt hc _ _).mp hlt
  exact eq_of_perm_of_sorted ((sortedDesc_perm _ _).trans hperm) hstrict (memoryOrder_strict hw)

/-- A page whose tasks have no tie is the page of `InMemoryStorage`. -/
theorem window_redis (hw : StoresTasks w) (htimes : TimesAgree time w) {taskIds : List TaskId}
    (hids : taskIds.Perm (candidateIds w query)) {o : Nat} (htie : NoTieOnPage time w query o) :
    ((sortedOf time w query taskIds).drop o).take query.pageSize =
      ((memoryOrder w query).drop o).take query.pageSize := by
  have hperm : (sortedOf time w query taskIds).Perm (memoryOrder w query) :=
    (sortedDesc_perm _ _).trans ((matchingOf_perm hw hids).trans memoryOrder_perm.symm)
  have hnodup : (memoryOrder w query).Nodup :=
    memoryOrder_perm.nodup_iff.mpr (hw.distinct.of_map.filter _)
  refine List.ext_getElem? fun i => ?_
  rw [List.getElem?_take, List.getElem?_take, List.getElem?_drop, List.getElem?_drop]
  split
  · rename_i hi
    cases hx : (memoryOrder w query)[o + i]? with
    | none =>
      rw [List.getElem?_eq_none_iff] at hx ⊢
      rwa [hperm.length_eq]
    | some x =>
      refine getElem?_of_unique hperm.symm hnodup (memoryOrder_times hw htimes)
        sortedDesc_pairwise hx fun u hu heq => ?_
      refine htie x (List.mem_of_getElem? (i := i) ?_) u hu heq
      rw [List.getElem?_take, if_pos hi, List.getElem?_drop, hx]
  · rfl

theorem offset_lt {o : Nat} (ho : (o : Int) < 2 ^ 63) : o + query.pageSize < 10 ^ maxStrDigits := by
  have hsmall : o + query.pageSize < 10 ^ 20 := by
    have := query.pageSize_le
    omega
  exact hsmall.trans_le (Nat.pow_le_pow_right (by decide) (by decide))

variable {o : Nat}

theorem memory_next (ho : query.offset = o) :
    (InMemoryStorage.listTasks w.stored query.legible).nextPageToken =
      nextToken (o + query.pageSize : Nat) (memoryOrder w query).length := by
  show nextToken (query.offset + query.pageSize) _ = _
  rw [ho]
  rfl

theorem sql_next (hw : StoresTasks w) {c : Collation} (hc : c.ByCodePoints) {rows : List Task}
    (hrows : rows.Perm w.stored) (ho : query.offset = o) :
    (SQLStorageBase.listTasks c rows query.legible).nextPageToken =
      nextToken (o + query.pageSize : Nat) (memoryOrder w query).length := by
  show nextToken (query.offset + query.pageSize) (rows.countP (query.asksFor c)) = _
  rw [ho, ← sortedDesc_sql hw hc hrows, (sortedDesc_perm _ _).length_eq,
    List.countP_eq_length_filter]
  rfl

theorem redis_next (hw : StoresTasks w) {taskIds : List TaskId}
    (hids : taskIds.Perm (candidateIds w query)) (ho : query.offset = o) :
    (RedisStorage.listTasks time w taskIds query.legible).nextPageToken =
      nextToken (o + query.pageSize : Nat) (memoryOrder w query).length := by
  have hlength : (sortedOf time w query taskIds).length = (memoryOrder w query).length :=
    ((sortedDesc_perm _ _).trans ((matchingOf_perm hw hids).trans memoryOrder_perm.symm)).length_eq
  have hsorted := congrArg List.length (@sorted_eq τ _ w query time taskIds)
  rw [List.length_map, hlength] at hsorted
  show nextToken (query.offset + query.pageSize) (sortedDesc _ _).length = _
  rw [ho]
  exact congrArg (nextToken (o + query.pageSize : Nat)) hsorted

theorem memory_shows (ho : query.offset = o) (hlt : (o : Int) < 2 ^ 63) :
    Shows (InMemoryStorage.answer w.stored query) (((memoryOrder w query).drop o).take query.pageSize)
      (InMemoryStorage.listed query)
      (nextToken (o + query.pageSize : Nat) (memoryOrder w query).length) := by
  refine shows_spelled ?_ (memory_next ho) (offset_lt hlt)
  show (slice (memoryOrder w query) query.offset (query.offset + query.pageSize)).map _ = _
  rw [ho]
  exact congrArg _ (slice_eq _ o query.pageSize)

theorem sql_shows (hw : StoresTasks w) {c : Collation} (hc : c.ByCodePoints) {rows : List Task}
    (hrows : rows.Perm w.stored) (d : SqlDialect) (ho : query.offset = o) (hlt : (o : Int) < 2 ^ 63) :
    Shows (SQLStorageBase.answer d c rows query) (((memoryOrder w query).drop o).take query.pageSize)
      (SQLStorageBase.rowToTask query)
      (nextToken (o + query.pageSize : Nat) (memoryOrder w query).length) := by
  have haccepts : d.accepts query.offset = true := by
    rw [ho]
    cases d <;> simp only [SqlDialect.accepts, Bool.and_eq_true, decide_eq_true_eq] <;> omega
  rw [SQLStorageBase.answer, if_pos haccepts]
  refine shows_spelled ?_ (sql_next hw hc hrows ho) (offset_lt hlt)
  show ((List.drop query.offset.toNat (sortedDesc c.sortKey (rows.filter (query.asksFor c)))).take
    query.pageSize).map _ = _
  rw [ho, sortedDesc_sql hw hc hrows]
  rfl

theorem redis_shows (hw : StoresTasks w) {taskIds : List TaskId}
    (hids : taskIds.Perm (candidateIds w query)) (ho : query.offset = o) (hlt : (o : Int) < 2 ^ 63) :
    Shows (RedisStorage.answer time w taskIds query)
      (((sortedOf time w query taskIds).drop o).take query.pageSize) (hashToTask query)
      (nextToken (o + query.pageSize : Nat) (memoryOrder w query).length) := by
  refine shows_spelled ?_ (redis_next hw hids ho) (offset_lt hlt)
  show slice (sortedDesc _ _) query.offset (query.offset + query.pageSize) = _
  rw [ho, List.map_take, List.map_drop]
  exact (congrArg (fun l => slice l o (o + query.pageSize : Nat)) (sorted_eq taskIds)).trans
    (slice_eq _ o query.pageSize)

/-! ### Answers that agree -/

/-- Redis may come to every order in which no task has a later one behind it. -/
theorem exists_enumeration (hw : StoresTasks w) {l : List Task} (hl : l.Perm (memoryOrder w query))
    (hsorted : l.Pairwise fun a b => time b.status.timestamp ≤ time a.status.timestamp) :
    ∃ taskIds, taskIds.Perm (candidateIds w query) ∧ sortedOf time w query taskIds = l := by
  have hmatching : ∀ t ∈ l, t ∈ matchingOf w query (candidateIds w query) := fun t ht =>
    (matchingOf_perm hw (List.Perm.refl _)).mem_iff.mpr
      (memoryOrder_perm.mem_iff.mp (hl.mem_iff.mp ht))
  have hlookup : ∀ t ∈ l, t.id ∈ candidateIds w query ∧
      ∃ h, w.tasks.lookup t.id = some h ∧ asksFor query h.task = true ∧ h.task = t := by
    intro t ht
    obtain ⟨id, hid, h, hh, hasks, rfl⟩ := mem_matchingOf.mp (hmatching t ht)
    rw [hw.ids id h hh]
    exact ⟨hid, h, hh, hasks, rfl⟩
  have hnodup : (l.map Task.id).Nodup := by
    refine ((hl.trans memoryOrder_perm).map Task.id).nodup_iff.mpr ?_
    exact hw.distinct.sublist (List.filter_sublist.map _)
  -- the ids of the list, and behind them those of the tasks that do not match
  let rest := (candidateIds w query).filter fun id => decide (id ∉ l.map Task.id)
  have hfirst : matchingOf w query (l.map Task.id) = l := by
    unfold matchingOf
    rw [List.filterMap_map]
    refine (List.filterMap_congr fun t ht => ?_).trans List.filterMap_some
    obtain ⟨-, h, hh, hasks, rfl⟩ := hlookup t ht
    show (w.tasks.lookup h.task.id).bind _ = some h.task
    rw [hh, Option.bind_some, if_pos hasks]
  have hrest : matchingOf w query rest = [] := by
    refine List.eq_nil_iff_forall_not_mem.mpr fun t ht => ?_
    obtain ⟨id, hid, h, hh, hasks, rfl⟩ := mem_matchingOf.mp ht
    obtain ⟨hid, hnot⟩ := List.mem_filter.mp hid
    have hmem : h.task ∈ l := by
      refine hl.mem_iff.mpr (memoryOrder_perm.mem_iff.mpr ?_)
      refine (matchingOf_perm hw (List.Perm.refl _)).mem_iff.mp ?_
      exact mem_matchingOf.mpr ⟨id, hid, h, hh, hasks, rfl⟩
    refine of_decide_eq_true hnot ?_
    rw [← hw.ids id h hh]
    exact List.mem_map_of_mem hmem
  refine ⟨l.map Task.id ++ rest, ?_, ?_⟩
  · refine (List.perm_ext_iff_of_nodup ?_ (candidateIds_nodup hw)).mpr fun id => ?_
    · refine List.nodup_append'.mpr ⟨hnodup, (candidateIds_nodup hw).filter _, fun id hid hid' => ?_⟩
      exact of_decide_eq_true (List.mem_filter.mp hid').2 hid
    · rw [List.mem_append, List.mem_filter, decide_eq_true_eq]
      constructor
      · rintro (hid | ⟨hid, -⟩)
        · obtain ⟨t, ht, rfl⟩ := List.mem_map.mp hid
          exact (hlookup t ht).1
        · exact hid
      · intro hid
        by_cases hmem : id ∈ l.map Task.id
        · exact Or.inl hmem
        · exact Or.inr ⟨hid, hmem⟩
  · have happend : matchingOf w query (l.map Task.id ++ rest) = l := by
      unfold matchingOf at hfirst hrest ⊢
      rw [List.filterMap_append, hfirst, hrest, List.append_nil]
    rw [sortedOf, happend]
    exact hsorted.insertionSort_eq

theorem map_id_of_shows {answer : Except ListTasksError ListTasksResult} {block block' : List Task}
    {shown shown' : Task → Task} {token token' : String} (h : Shows answer block shown token)
    (h' : Shows answer block' shown' token') (hshown : ∀ t, (shown t).id = t.id)
    (hshown' : ∀ t, (shown' t).id = t.id) : block.map Task.id = block'.map Task.id := by
  obtain ⟨result, hok, htasks, -⟩ := h
  obtain ⟨result', hok', htasks', -⟩ := h'
  obtain rfl := Except.ok.inj (hok.symm.trans hok')
  have hids := congrArg (List.map Task.id) (htasks.symm.trans htasks')
  rw [List.map_map, List.map_map] at hids
  exact (List.map_congr_left fun t _ => (hshown t).symm).trans
    (hids.trans (List.map_congr_left fun t _ => hshown' t))

/-- PostgreSQL takes no other offset. -/
theorem TokensAlike.offset_range (halike : TokensAlike time w query) :
    0 ≤ query.offset ∧ query.offset < 2 ^ 63 := by
  obtain ⟨block, token, -, -, -, hsql, -⟩ := halike.page
  obtain ⟨result, hok, -⟩ := hsql .postgresql codePoints w.stored (fun _ _ => Iff.rfl)
    (List.Perm.refl _)
  unfold SQLStorageBase.answer at hok
  split at hok
  · rename_i haccepts
    rw [SqlDialect.accepts, Bool.and_eq_true, decide_eq_true_eq, decide_eq_true_eq] at haccepts
    exact haccepts
  · exact nomatch hok

/-- A task with a tie is not at its place in every order to which Redis may come. -/
theorem TokensAlike.noTie (halike : TokensAlike time w query) (hw : StoresTasks w)
    (htimes : TimesAgree time w) (ho : query.offset = o) (hlt : (o : Int) < 2 ^ 63) :
    NoTieOnPage time w query o := by
  intro t ht u hu htie
  obtain ⟨block, token, -, -, hmemory, -, hredis⟩ := halike.page
  obtain ⟨i, hi⟩ := List.getElem?_of_mem ht
  rw [List.getElem?_take, List.getElem?_drop, Option.ite_none_right_eq_some] at hi
  obtain ⟨hsize, hi⟩ := hi
  have hnodup : (memoryOrder w query).Nodup :=
    memoryOrder_perm.nodup_iff.mpr (hw.distinct.of_map.filter _)
  obtain ⟨l, hl, hsorted, hplace⟩ :=
    exists_sorted_of_tie hnodup (memoryOrder_times hw htimes) hi hu htie
  obtain ⟨taskIds, hids, heq⟩ := exists_enumeration hw hl hsorted
  -- both pages have the ids of the block, so the two tasks at this place are one
  have hmem : block.map Task.id = _ :=
    map_id_of_shows hmemory (memory_shows ho hlt) (fun _ => rfl) fun _ => rfl
  have hred : block.map Task.id = _ :=
    map_id_of_shows (hredis taskIds hids) (redis_shows hw hids ho hlt) (fun _ => rfl) fun _ => rfl
  rw [heq, hmem] at hred
  have hat := congrArg (fun ids : List TaskId => ids[i]?) hred
  simp only [List.getElem?_map, List.getElem?_take, if_pos hsize, List.getElem?_drop, hi, hplace,
    Option.map_some, Option.some_inj] at hat
  refine List.inj_on_of_nodup_map hw.distinct ?_ ?_ hat.symm
  · exact (List.mem_filter.mp (memoryOrder_perm.mem_iff.mp hu)).1
  · exact (List.mem_filter.mp (memoryOrder_perm.mem_iff.mp (List.mem_of_getElem? hi))).1

theorem tokenOf_next {result : ListTasksResult} {token : String}
    (hnext : result.nextPageToken = token) : tokenOf (spelled result) = "" ∨
    tokenOf (spelled result) = token ∧ digitCount (tokenOf (spelled result)) ≤ maxStrDigits :=
  hnext ▸ tokenOf_spelled result

/-- **The backends answer a token alike if and only if its offset is a 64-bit one that is not
negative, and no task of the page has the timestamp of another one that matches.** -/
theorem tokens_alike_iff (hw : StoresTasks w) (htimes : TimesAgree time w) :
    TokensAlike time w query ↔ 0 ≤ query.offset ∧ query.offset < 2 ^ 63 ∧
      NoTieOnPage time w query query.offset.toNat := by
  constructor
  · intro halike
    obtain ⟨hpos, hlt⟩ := halike.offset_range
    obtain ⟨o, ho⟩ := Int.eq_ofNat_of_zero_le hpos
    refine ⟨hpos, hlt, ?_⟩
    rw [ho] at hlt ⊢
    exact halike.noTie hw htimes ho hlt
  · rintro ⟨hpos, hlt, htie⟩
    obtain ⟨o, ho⟩ := Int.eq_ofNat_of_zero_le hpos
    rw [ho, Int.toNat_natCast] at htie
    rw [ho] at hlt
    -- the page and the token that all three backends show
    refine ⟨⟨((memoryOrder w query).drop o).take query.pageSize,
      nextToken (o + query.pageSize : Nat) (memoryOrder w query).length, ?_, ?_, ?_, ?_, ?_⟩,
      ?_, ?_, ?_⟩
    · exact (List.take_prefix _ _).isInfix.trans (List.drop_suffix _ _).isInfix
    · exact List.length_take_le _ _
    · exact memory_shows ho hlt
    · intro d c rows hc hrows
      exact sql_shows hw hc hrows d ho hlt
    · intro taskIds hids
      rw [← window_redis hw htimes hids htie]
      exact redis_shows hw hids ho hlt
    · refine followEnds_of_next query.pageSize_ge (memoryOrder w query).length ?_ hpos
      intro i token o ho
      have ho' : ({ query with pageToken := token } : ListTasksQuery).offset = o := ho
      exact tokenOf_next (memory_next ho')
    · intro d c rows hc hrows
      refine followEnds_of_next query.pageSize_ge (memoryOrder w query).length ?_ hpos
      intro i token o ho
      have ho' : ({ query with pageToken := token } : ListTasksQuery).offset = o := ho
      unfold SQLStorageBase.answer
      split
      · exact tokenOf_next (sql_next hw hc (hrows i) ho')
      · exact Or.inl rfl
    · intro scan
      refine followEnds_of_next query.pageSize_ge (memoryOrder w query).length ?_ hpos
      intro i token o ho
      have ho' : ({ query with pageToken := token } : ListTasksQuery).offset = o := ho
      exact tokenOf_next (redis_next hw (scan i).2 ho')

end

/-! ### Tokens of two tasks -/

/-- Without a token, and with tasks of different times. -/
theorem tokens_alike_two : TokensAlike id (twoTasks noon noonAndASecond) { pageSize := 1 } ↔
    0 ≤ ({ pageSize := 1 } : ListTasksQuery).offset ∧
      ({ pageSize := 1 } : ListTasksQuery).offset < 2 ^ 63 ∧
      NoTieOnPage id (twoTasks noon noonAndASecond) { pageSize := 1 }
        ({ pageSize := 1 } : ListTasksQuery).offset.toNat :=
  tokens_alike_iff (storesTasks_twoTasks noon noonAndASecond) (timesAgree_id _)

/-- A page of one task, at the offset before the start. -/
def minusOne : ListTasksQuery := { onePerPage with pageToken := some "-1" }

def pageIds (answer : Except ListTasksError ListTasksResult) : Option (List TaskId) :=
  answer.toOption.map fun result => result.tasks.map Task.id

/-- **A negative token names an empty page on memory, the first one on SQLite and none on
PostgreSQL.** -/
theorem negative_token_differs :
    ¬ TokensAlike id (twoTasks noon noonAndASecond) minusOne ∧
    pageIds (InMemoryStorage.answer (twoTasks noon noonAndASecond).stored minusOne) = some [] ∧
    pageIds (SQLStorageBase.answer .sqlite codePoints (twoTasks noon noonAndASecond).stored minusOne) =
      some ["b"] ∧
    pageIds (SQLStorageBase.answer .postgresql codePoints (twoTasks noon noonAndASecond).stored
      minusOne) = none := by
  refine ⟨fun halike => ?_, by decide +kernel, by decide +kernel, by decide +kernel⟩
  have hoffset : minusOne.offset = -1 := by decide +kernel
  have hpos := halike.offset_range.1
  omega

end A2AKit
