/-
Lists read page by page.

A server cuts a page out of a list at the offset that a token names, and its answer carries the
token of the next page, empty on the last one.  A client starts without a token and follows the
tokens.  Every answer is cut out of a list that the server builds anew.

* `follow_pages` — the pages are the list, cut into pieces, as many as they must be;
* `parseInt_toString` — `int` reads what `str` writes;
* `eq_of_perm_of_sorted` — a list without ties is sorted in one way only.
-/
import A2AKit.EventStream
import Mathlib.Algebra.Order.Floor.Div
import Mathlib.Data.List.Sort
import Mathlib.Data.Nat.Digits.Defs

namespace Pagination

/-! ### Offsets as text -/

/-- Where the decimal digits of Unicode 14 begin, script by script. -/
def decimalZeros : List Nat :=
  [0x30, 0x660, 0x6f0, 0x7c0, 0x966, 0x9e6, 0xa66, 0xae6, 0xb66, 0xbe6, 0xc66, 0xce6, 0xd66,
    0xde6, 0xe50, 0xed0, 0xf20, 0x1040, 0x1090, 0x17e0, 0x1810, 0x1946, 0x19d0, 0x1a80, 0x1a90,
    0x1b50, 0x1bb0, 0x1c40, 0x1c50, 0xa620, 0xa8d0, 0xa900, 0xa9d0, 0xa9f0, 0xaa50, 0xabf0,
    0xff10, 0x104a0, 0x10d30, 0x11066, 0x110f0, 0x11136, 0x111d0, 0x112f0, 0x11450, 0x114d0,
    0x11650, 0x116c0, 0x11730, 0x118e0, 0x11950, 0x11c50, 0x11d50, 0x11da0, 0x16a60, 0x16ac0,
    0x16b50, 0x1d7ce, 0x1d7d8, 0x1d7e2, 0x1d7ec, 0x1d7f6, 0x1e140, 0x1e2f0, 0x1e950, 0x1fbf0]

/-- The value of a decimal digit, in any script. -/
def decimal (c : Char) : Option Nat :=
  (decimalZeros.find? fun first => first ≤ c.toNat && c.toNat < first + 10).map fun first =>
    c.toNat - first

/-- The blanks that `int` strips: those of `str.strip` without the separators 28 to 31. -/
def isBlank (c : Char) : Bool := EventStream.isSpace c && !(28 ≤ c.toNat && c.toNat ≤ 31)

/-- The digits after the first one, in which single underscores may stand. -/
def digitsValue (n : Nat) : List Char → Option Nat
  | [] => some n
  | '_' :: c :: cs => (decimal c).bind fun d => digitsValue (10 * n + d) cs
  | c :: cs => (decimal c).bind fun d => digitsValue (10 * n + d) cs

def natValue : List Char → Option Nat
  | [] => none
  | c :: cs => (decimal c).bind fun d => digitsValue d cs

/-- `int` of a text; `none` is its `ValueError`. -/
def parseInt (s : String) : Option Int :=
  match (s.toList.dropWhile isBlank).rdropWhile isBlank with
  | '+' :: cs => (natValue cs).map Int.ofNat
  | '-' :: cs => (natValue cs).map fun n => -n
  | cs => (natValue cs).map Int.ofNat

/-- The offset a token names: no token, an empty one and one that is no number mean the start. -/
def offsetOf (token : Option String) : Int :=
  match token with
  | none => 0
  | some s => if s = "" then 0 else (parseInt s).getD 0

/-- The token of the page at `next`, if there is one. -/
def nextToken (next : Int) (total : Nat) : String := if next < total then toString next else ""

theorem isDigit_range {c : Char} (h : c.isDigit = true) : 48 ≤ c.toNat ∧ c.toNat ≤ 57 := by
  simp only [Char.isDigit, Bool.and_eq_true, decide_eq_true_eq, UInt32.le_iff_toNat_le] at h
  exact h

theorem not_isBlank_of_isDigit {c : Char} (h : c.isDigit = true) : isBlank c = false := by
  have hrange := isDigit_range h
  have hspace : EventStream.isSpace c = false := by
    simp only [EventStream.isSpace, Bool.or_eq_false_iff, Bool.and_eq_false_iff,
      decide_eq_false_iff_not]
    omega
  rw [isBlank, hspace, Bool.false_and]

theorem decimal_of_isDigit {c : Char} (h : c.isDigit = true) : decimal c = some (c.toNat - 48) := by
  have hrange := isDigit_range h
  have hfirst : decimalZeros.find? (fun first => first ≤ c.toNat && c.toNat < first + 10) = some 48 := by
    refine List.find?_cons_of_pos ?_
    rw [Bool.and_eq_true, decide_eq_true_eq, decide_eq_true_eq]
    omega
  rw [decimal, hfirst, Option.map_some]

theorem strip_digits {cs : List Char} (h : ∀ c ∈ cs, c.isDigit = true) :
    (cs.dropWhile isBlank).rdropWhile isBlank = cs := by
  have hnone : ∀ c ∈ cs, ¬ isBlank c = true := by
    intro c hc
    rw [not_isBlank_of_isDigit (h c hc)]
    exact Bool.false_ne_true
  rw [List.dropWhile_eq_self_iff.mpr fun hpos => hnone _ (List.getElem_mem hpos),
    List.rdropWhile_eq_self_iff.mpr fun hne => hnone _ (List.getLast_mem hne)]

theorem digitsValue_digits {cs : List Char} (h : ∀ c ∈ cs, c.isDigit = true) (n : Nat) :
    digitsValue n cs = some (Nat.ofDigitChars 10 cs n) := by
  induction cs generalizing n with
  | nil => rfl
  | cons c cs ih =>
    have hc : c.isDigit = true := h c List.mem_cons_self
    have hsep : c ≠ '_' := by
      rintro rfl
      exact absurd hc (by decide)
    rw [Nat.ofDigitChars_cons, digitsValue, decimal_of_isDigit hc]
    · exact ih (fun d hd => h d (List.mem_cons_of_mem _ hd)) _
    · intro d ds heq
      exact absurd heq hsep

theorem natValue_digits {cs : List Char} (h : ∀ c ∈ cs, c.isDigit = true) (hne : cs ≠ []) :
    natValue cs = some (Nat.ofDigitChars 10 cs 0) := by
  cases cs with
  | nil => exact absurd rfl hne
  | cons c cs =>
    rw [natValue, decimal_of_isDigit (h c List.mem_cons_self), Option.bind_some,
      digitsValue_digits fun d hd => h d (List.mem_cons_of_mem _ hd)]
    show _ = some (Nat.ofDigitChars 10 cs (10 * 0 + (c.toNat - '0'.toNat)))
    rw [Nat.mul_zero, Nat.zero_add]
    rfl

theorem decimal_lt {c : Char} {d : Nat} (h : decimal c = some d) : d < 10 := by
  obtain ⟨first, hfirst, rfl⟩ := Option.map_eq_some_iff.mp h
  have hrange := List.find?_some hfirst
  rw [Bool.and_eq_true, decide_eq_true_eq, decide_eq_true_eq] at hrange
  omega

/-- A numeral is below the power of its number of digits. -/
theorem digitsValue_lt {n m : Nat} {cs : List Char} (h : digitsValue n cs = some m) :
    m < (n + 1) * 10 ^ cs.countP (fun c => (decimal c).isSome) := by
  -- one more digit, before which an underscore may stand
  have hdigit : ∀ {n d : Nat} {c : Char} (cs : List Char), decimal c = some d →
      (10 * n + d + 1) * 10 ^ cs.countP (fun c => (decimal c).isSome) ≤
        (n + 1) * 10 ^ (c :: cs).countP (fun c => (decimal c).isSome) := by
    intro n d c cs hd
    rw [List.countP_cons_of_pos (by rw [hd]; rfl), Nat.pow_succ', ← Nat.mul_assoc]
    refine Nat.mul_le_mul_right _ ?_
    have := decimal_lt hd
    omega
  fun_induction digitsValue n cs with
  | case1 n =>
    cases h
    simp
  | case2 n c cs ih =>
    obtain ⟨d, hd, hrest⟩ := Option.bind_eq_some_iff.mp h
    refine (ih d hrest).trans_le ((hdigit cs hd).trans (Nat.mul_le_mul_left _ ?_))
    exact Nat.pow_le_pow_right (by decide) (List.sublist_cons_self _ _).countP_le
  | case3 n c cs hne ih =>
    obtain ⟨d, hd, hrest⟩ := Option.bind_eq_some_iff.mp h
    exact (ih d hrest).trans_le (hdigit cs hd)

theorem natValue_lt {n : Nat} {cs : List Char} (h : natValue cs = some n) :
    n < 10 ^ cs.countP (fun c => (decimal c).isSome) := by
  cases cs with
  | nil => exact nomatch h
  | cons c cs =>
    obtain ⟨d, hd, hrest⟩ := Option.bind_eq_some_iff.mp h
    refine (digitsValue_lt hrest).trans_le ?_
    rw [List.countP_cons_of_pos (by rw [hd]; rfl), Nat.pow_succ']
    refine Nat.mul_le_mul_right _ ?_
    have := decimal_lt hd
    omega

/-- **`int` reads what `str` writes.** -/
theorem parseInt_toString (n : Nat) : parseInt (toString n) = some (n : Int) := by
  have hdigits : ∀ c ∈ Nat.toDigits 10 n, c.isDigit = true := fun c hc =>
    Nat.isDigit_of_mem_toDigits (by omega) (by omega) hc
  have hne : Nat.toDigits 10 n ≠ [] := Nat.toDigits_ne_nil
  have hvalue : natValue (Nat.toDigits 10 n) = some n := by
    rw [natValue_digits hdigits hne, Nat.ofDigitChars_ten_toDigits]
  have htext : (toString n).toList = Nat.toDigits 10 n := Nat.toList_repr
  unfold parseInt
  rw [htext, strip_digits hdigits]
  split
  · rename_i cs heq
    exact absurd (hdigits '+' (by rw [heq]; exact List.mem_cons_self)) (by decide)
  · rename_i cs heq
    exact absurd (hdigits '-' (by rw [heq]; exact List.mem_cons_self)) (by decide)
  · rw [hvalue]
    rfl

theorem toString_ne_empty (n : Nat) : toString n ≠ "" := by
  intro h
  have hnil : Nat.toDigits 10 n = [] := by
    have htext : (toString n).toList = Nat.toDigits 10 n := Nat.toList_repr
    rw [← htext, h]
    rfl
  exact Nat.toDigits_ne_nil hnil

/-- A token names the offset it was made of. -/
theorem offsetOf_nextToken {next total : Nat} (h : next < total) :
    offsetOf (some (nextToken next total)) = next := by
  have hlt : (next : Int) < total := by omega
  rw [nextToken, if_pos hlt]
  show (if toString next = "" then (0 : Int) else (parseInt (toString next)).getD 0) = next
  rw [if_neg (toString_ne_empty next), parseInt_toString]
  rfl

theorem nextToken_eq_empty {next total : Nat} : nextToken next total = "" ↔ total ≤ next := by
  unfold nextToken
  split
  · rename_i hlt
    refine iff_of_false (toString_ne_empty next) ?_
    omega
  · rename_i hlt
    refine iff_of_true rfl ?_
    omega

/-! ### Pages -/

section

variable {α P : Type}

/-- An index of a list as a slice takes it: a negative one counts from the end. -/
def sliceIndex (length : Nat) (i : Int) : Nat := min (if i < 0 then length + i else i).toNat length

/-- `l[start:stop]` -/
def slice (l : List α) (start stop : Int) : List α :=
  (l.take (sliceIndex l.length stop)).drop (sliceIndex l.length start)

theorem slice_sublist (l : List α) (start stop : Int) : (slice l start stop).Sublist l :=
  (List.drop_sublist _ _).trans (List.take_sublist _ _)

theorem slice_eq (l : List α) (o k : Nat) : slice l o (o + k : Nat) = (l.drop o).take k := by
  have hindex : ∀ n : Nat, sliceIndex l.length n = min n l.length := fun n => by
    unfold sliceIndex
    omega
  unfold slice
  rw [hindex, hindex, List.take_drop, ← List.take_eq_take_min]
  rcases Nat.le_total o l.length with ho | ho
  · rw [Nat.min_eq_left ho]
  · have hshort : (l.take (o + k)).length ≤ l.length := List.length_take_le' _ _
    rw [Nat.min_eq_right ho, List.drop_eq_nil_of_le hshort,
      List.drop_eq_nil_of_le (hshort.trans ho)]

/-- A client fetches the page of a token, as call number `i`, and goes on with the token of the
answer while it is not empty. -/
def follow (fetch : Nat → Option String → P) (next : P → String) :
    Nat → Nat → Option String → Option (List P)
  | 0, _, _ => none
  | fuel + 1, i, token =>
    let page := fetch i token
    if next page = "" then some [page]
    else (follow fetch next fuel (i + 1) (some (next page))).map (page :: ·)

/-- Every answer is the page at the offset of the token, out of the same list. -/
structure Cuts (fetch : Nat → Option String → P) (next : P → String) (items : P → List α)
    (l : List α) (k : Nat) : Prop where
  items : ∀ i token (o : Nat), offsetOf token = o → items (fetch i token) = (l.drop o).take k
  next : ∀ i token (o : Nat), offsetOf token = o →
    next (fetch i token) = nextToken (o + k : Nat) l.length

/-- The number of pages from an offset on. -/
def pagesFrom (k rest : Nat) : Nat := max 1 (rest ⌈/⌉ k)

theorem pagesFrom_last {k rest : Nat} (h : rest ≤ k) (hk : 0 < k) : pagesFrom k rest = 1 := by
  have hone : rest ⌈/⌉ k ≤ 1 := by
    rw [ceilDiv_le_iff_le_mul hk]
    omega
  unfold pagesFrom
  omega

theorem pagesFrom_succ {k rest : Nat} (h : k < rest) (hk : 0 < k) :
    pagesFrom k rest = pagesFrom k (rest - k) + 1 := by
  have hpos : 0 < (rest - k) ⌈/⌉ k := by
    rw [← not_le, ceilDiv_le_iff_le_mul hk]
    omega
  have hsucc : rest ⌈/⌉ k = (rest - k) ⌈/⌉ k + 1 := by
    rw [Nat.ceilDiv_eq_add_pred_div, Nat.ceilDiv_eq_add_pred_div, ← Nat.add_div_right _ hk]
    congr 1
    omega
  unfold pagesFrom
  omega

variable {fetch : Nat → Option String → P} {next : P → String} {items : P → List α} {l : List α}
  {k : Nat}

theorem follow_last {i fuel : Nat} {token : Option String} (h : next (fetch i token) = "") :
    follow fetch next (fuel + 1) i token = some [fetch i token] := if_pos h

theorem follow_later {i fuel : Nat} {token : Option String} (h : next (fetch i token) ≠ "") :
    follow fetch next (fuel + 1) i token =
      (follow fetch next fuel (i + 1) (some (next (fetch i token)))).map (fetch i token :: ·) :=
  if_neg h

/-- **A client that follows the tokens sees the list, piece by piece**, however the answers come
about, as long as each is cut out of the same list. -/
theorem follow_pages (hk : 0 < k) (hcuts : Cuts fetch next items l k) (i : Nat)
    (token : Option String) (o : Nat) (htoken : offsetOf token = o) :
    ∃ pages, (∀ fuel, pagesFrom k (l.length - o) ≤ fuel →
        follow fetch next fuel i token = some pages) ∧
      pages.flatMap items = l.drop o ∧ pages.length = pagesFrom k (l.length - o) ∧
      pages.getLast?.map next = some "" ∧ ∀ p ∈ pages, ∃ j t, p = fetch j t := by
  -- by induction on the number of pages that are left
  induction hn : pagesFrom k (l.length - o) generalizing i token o with
  | zero =>
    unfold pagesFrom at hn
    omega
  | succ n ih =>
    have hitems := hcuts.items i token o htoken
    have hnext := hcuts.next i token o htoken
    by_cases hlast : l.length ≤ o + k
    · -- nothing of the list is left behind this page
      have hempty : next (fetch i token) = "" := hnext.trans (nextToken_eq_empty.mpr hlast)
      rw [pagesFrom_last (by omega) hk] at hn
      refine ⟨[fetch i token], ?_, ?_, hn, ?_, ?_⟩
      · intro fuel hfuel
        obtain ⟨f, rfl⟩ : ∃ f, fuel = f + 1 := ⟨fuel - 1, by omega⟩
        exact follow_last hempty
      · rw [List.flatMap_singleton, hitems]
        exact List.take_of_length_le (by rw [List.length_drop]; omega)
      · rw [List.getLast?_singleton, Option.map_some, hempty]
      · intro p hp
        exact ⟨i, token, List.mem_singleton.mp hp⟩
    · have hlater : next (fetch i token) ≠ "" := fun h =>
        hlast (nextToken_eq_empty.mp (hnext.symm.trans h))
      have hoffset : offsetOf (some (next (fetch i token))) = (o + k : Nat) := by
        rw [hnext]
        exact offsetOf_nextToken (by omega)
      have hrest : pagesFrom k (l.length - (o + k)) = n := by
        have hsucc := pagesFrom_succ (show k < l.length - o by omega) hk
        rw [Nat.sub_sub] at hsucc
        omega
      obtain ⟨pages, hpages, hflat, hlength, hend, hfrom⟩ :=
        ih (i + 1) (some (next (fetch i token))) (o + k) hoffset hrest
      refine ⟨fetch i token :: pages, ?_, ?_, ?_, ?_, ?_⟩
      · intro fuel hfuel
        obtain ⟨f, rfl⟩ : ∃ f, fuel = f + 1 := ⟨fuel - 1, by omega⟩
        rw [follow_later hlater, hpages f (by omega)]
        rfl
      · rw [List.flatMap_cons, hitems, hflat, ← List.drop_drop]
        exact List.take_append_drop k _
      · rw [List.length_cons, hlength]
      · cases pages with
        | nil => exact nomatch hend
        | cons p ps =>
          rw [List.getLast?_cons_cons]
          exact hend
      · intro p hp
        rcases List.mem_cons.mp hp with rfl | hp
        · exact ⟨i, token, rfl⟩
        · exact hfrom p hp

/-- **A client comes to an end** if every page that names another one leaves less to come. -/
theorem follow_ends {g : Option String → Prop} (rest : Option String → Nat)
    (hstep : ∀ i token, g token → next (fetch i token) ≠ "" →
      g (some (next (fetch i token))) ∧ rest (some (next (fetch i token))) < rest token)
    (i : Nat) (token : Option String) (hg : g token) :
    ∃ pages, ∀ fuel, pages.length ≤ fuel → follow fetch next fuel i token = some pages := by
  -- by induction on what is left to come
  induction hn : rest token using Nat.strong_induction_on generalizing i token with
  | _ n ih =>
    subst hn
    by_cases hlast : next (fetch i token) = ""
    · refine ⟨[fetch i token], fun fuel hfuel => ?_⟩
      obtain ⟨f, rfl⟩ : ∃ f, fuel = f + 1 := ⟨fuel - 1, by simp at hfuel; omega⟩
      exact follow_last hlast
    · obtain ⟨hg', hless⟩ := hstep i token hg hlast
      obtain ⟨pages, hpages⟩ := ih _ hless (i + 1) _ hg' rfl
      refine ⟨fetch i token :: pages, fun fuel hfuel => ?_⟩
      rw [List.length_cons] at hfuel
      obtain ⟨f, rfl⟩ : ∃ f, fuel = f + 1 := ⟨fuel - 1, by omega⟩
      rw [follow_later hlast, hpages f (by omega)]
      rfl

/-- What a client sees does not depend on how long it would have gone on. -/
theorem follow_unique {pages pages' : List P} {i : Nat} {token : Option String}
    (h : ∀ fuel, pages.length ≤ fuel → follow fetch next fuel i token = some pages)
    (h' : ∀ fuel, pages'.length ≤ fuel → follow fetch next fuel i token = some pages') :
    pages = pages' := by
  have hlong := h (max pages.length pages'.length) (le_max_left _ _)
  rw [h' _ (le_max_right _ _)] at hlong
  exact (Option.some_inj.mp hlong).symm

/-- The pages of a client that starts without a token. -/
theorem follow_all (hk : 0 < k) (hcuts : Cuts fetch next items l k) :
    ∃ pages, (∀ fuel, pages.length ≤ fuel → follow fetch next fuel 0 none = some pages) ∧
      pages.flatMap items = l ∧ pages.length = pagesFrom k l.length ∧
      pages.getLast?.map next = some "" ∧ ∀ p ∈ pages, ∃ j t, p = fetch j t := by
  obtain ⟨pages, hpages, hflat, hcount, hrest⟩ := follow_pages hk hcuts 0 none 0 rfl
  rw [Nat.sub_zero] at hpages hcount
  exact ⟨pages, fun fuel hfuel => hpages fuel (hcount ▸ hfuel), hflat, hcount, hrest⟩

end

/-! ### Sorted lists -/

section

variable {α κ : Type} [LinearOrder κ] {key : α → κ} {l l' : List α}

/-- `sorted(l, key=key, reverse=True)`: equal elements keep their order. -/
def sortedDesc (key : α → κ) (l : List α) : List α := l.insertionSort fun a b => key b ≤ key a

theorem sortedDesc_perm (key : α → κ) (l : List α) : (sortedDesc key l).Perm l :=
  List.perm_insertionSort _ _

theorem sortedDesc_pairwise : (sortedDesc key l).Pairwise fun a b => key b ≤ key a := by
  have htotal : Std.Total fun a b => key b ≤ key a := ⟨fun a b => le_total _ _⟩
  have htrans : IsTrans α fun a b => key b ≤ key a := ⟨fun a b c hab hbc => hbc.trans hab⟩
  exact List.pairwise_insertionSort _ _

/-- What is done to the elements alone does not change their order. -/
theorem map_sortedDesc {β : Type} (f : β → α) (m : List β) :
    (sortedDesc (fun b => key (f b)) m).map f = sortedDesc key (m.map f) :=
  List.map_insertionSort (fun a b => key (f b) ≤ key (f a)) (fun a b => key b ≤ key a) f m
    fun _ _ _ _ => Iff.rfl

/-- Elements that may stand in the order in which they came stay in it. -/
theorem sublist_sortedDesc {a b : α} (hab : key b ≤ key a) (h : [a, b].Sublist l) :
    [a, b].Sublist (sortedDesc key l) := by
  have htotal : Std.Total fun a b => key b ≤ key a := ⟨fun a b => le_total _ _⟩
  have htrans : IsTrans α fun a b => key b ≤ key a := ⟨fun a b c hab hbc => hbc.trans hab⟩
  exact List.pair_sublist_insertionSort hab h

/-- Without ties the order is strict. -/
theorem sortedDesc_strict (h : (l.map key).Nodup) :
    (sortedDesc key l).Pairwise fun a b => key b < key a := by
  have hnodup : ((sortedDesc key l).map key).Nodup := ((sortedDesc_perm key l).map key).nodup_iff.mpr h
  have hne : (sortedDesc key l).Pairwise fun a b => key a ≠ key b := List.pairwise_map.mp hnodup
  exact (sortedDesc_pairwise.and hne).imp fun ⟨hle, hne⟩ => lt_of_le_of_ne hle hne.symm

/-- What stands before an element without a tie are the greater ones. -/
theorem countP_of_split {l₁ l₂ : List α} {x : α}
    (hsorted : (l₁ ++ x :: l₂).Pairwise fun a b => key b ≤ key a) (hnodup : (l₁ ++ x :: l₂).Nodup)
    (hunique : ∀ u ∈ l₁ ++ x :: l₂, key u = key x → u = x) :
    (l₁ ++ x :: l₂).countP (fun u => decide (key x < key u)) = l₁.length := by
  obtain ⟨-, hrest, hbefore⟩ := List.pairwise_append.mp hsorted
  have hnot : x ∉ l₁ := fun hx =>
    (List.nodup_append.mp hnodup).2.2 x hx x List.mem_cons_self rfl
  have hfirst : l₁.countP (fun u => decide (key x < key u)) = l₁.length := by
    refine List.countP_eq_length.mpr fun u hu => decide_eq_true ?_
    refine lt_of_le_of_ne (hbefore u hu x List.mem_cons_self) fun heq => hnot ?_
    rw [← hunique u (List.mem_append_left _ hu) heq.symm]
    exact hu
  have hlast : (x :: l₂).countP (fun u => decide (key x < key u)) = 0 := by
    refine List.countP_eq_zero.mpr fun u hu => ?_
    rw [decide_eq_true_eq, not_lt]
    rcases List.mem_cons.mp hu with rfl | hu
    · exact le_refl _
    · exact (List.pairwise_cons.mp hrest).1 u hu
  rw [List.countP_append, hfirst, hlast, Nat.add_zero]

/-- **An element without a tie has one place in all sorted lists.** -/
theorem getElem?_of_unique (hperm : l.Perm l') (hnodup : l.Nodup)
    (hl : l.Pairwise fun a b => key b ≤ key a) (hl' : l'.Pairwise fun a b => key b ≤ key a)
    {i : Nat} {x : α} (hx : l[i]? = some x) (hunique : ∀ u ∈ l, key u = key x → u = x) :
    l'[i]? = some x := by
  obtain ⟨l₁, l₂, rfl, rfl⟩ : ∃ l₁ l₂, l = l₁ ++ x :: l₂ ∧ l₁.length = i := by
    obtain ⟨hi, rfl⟩ := List.getElem?_eq_some_iff.mp hx
    refine ⟨l.take i, l.drop (i + 1), ?_, List.length_take_of_le (Nat.le_of_lt hi)⟩
    rw [List.getElem_cons_drop, List.take_append_drop]
  have hmem : x ∈ l' := hperm.mem_iff.mp (List.mem_append_right _ List.mem_cons_self)
  obtain ⟨m₁, m₂, rfl⟩ := List.append_of_mem hmem
  have hplace := countP_of_split hl hnodup hunique
  have hplace' := countP_of_split hl' (hperm.nodup_iff.mp hnodup) fun u hu =>
    hunique u (hperm.mem_iff.mpr hu)
  rw [← hplace, hperm.countP_eq, hplace', List.getElem?_append_right (Nat.le_refl _), Nat.sub_self]
  rfl

/-- **An element with a tie gives up its place in some sorted list.** -/
theorem exists_sorted_of_tie (hnodup : l.Nodup) (hl : l.Pairwise fun a b => key b ≤ key a) {i : Nat}
    {x u : α} (hx : l[i]? = some x) (hu : u ∈ l) (htie : key u = key x) :
    ∃ l' : List α, l'.Perm l ∧ (l'.Pairwise fun a b => key b ≤ key a) ∧ l'[i]? = some u := by
  classical
  have hmem : x ∈ l := List.mem_of_getElem? hx
  have hkey : ∀ y, key (Equiv.swap x u y) = key y := by
    intro y
    by_cases hyx : y = x
    · rw [hyx, Equiv.swap_apply_left, htie]
    · by_cases hyu : y = u
      · rw [hyu, Equiv.swap_apply_right, htie]
      · rw [Equiv.swap_apply_of_ne_of_ne hyx hyu]
  have hstays : ∀ y ∈ l, Equiv.swap x u y ∈ l := by
    intro y hy
    by_cases hyx : y = x
    · rwa [hyx, Equiv.swap_apply_left]
    · by_cases hyu : y = u
      · rwa [hyu, Equiv.swap_apply_right]
      · rwa [Equiv.swap_apply_of_ne_of_ne hyx hyu]
  refine ⟨l.map (Equiv.swap x u), ?_, ?_, ?_⟩
  · refine (List.perm_ext_iff_of_nodup (hnodup.map (Equiv.swap x u).injective) hnodup).mpr fun y => ?_
    rw [List.mem_map]
    constructor
    · rintro ⟨z, hz, rfl⟩
      exact hstays z hz
    · intro hy
      exact ⟨_, hstays y hy, Equiv.swap_apply_self x u y⟩
  · refine List.pairwise_map.mpr (hl.imp fun {a b} hle => ?_)
    rw [hkey, hkey]
    exact hle
  · rw [List.getElem?_map, hx, Option.map_some, Equiv.swap_apply_left]

/-- **Without ties there is one sorted list.** -/
theorem eq_of_perm_of_sorted (hperm : l.Perm l') (h : l.Pairwise fun a b => key b < key a)
    (h' : l'.Pairwise fun a b => key b < key a) : l = l' :=
  hperm.eq_of_pairwise (fun _ _ _ _ hab hba => absurd (hab.trans hba) (lt_irrefl _)) h h'

end

end Pagination
