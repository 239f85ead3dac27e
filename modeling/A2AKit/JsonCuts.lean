/-
The characters of JSON texts, and what is left of a text after a cut.

* `Json.write_writes` — a text has no control characters, and an escaped one has the printable
  characters of ASCII only;
* `Json.mem_write` — a character beyond ASCII is in a compact text when a string of the value has
  it;
* `Json.read_cut` — a compact text that is cut at a blank, or goes on there with the end of a
  line, is read as no value.
-/
import A2AKit.JsonText

namespace Json

/-! ### The characters of a text -/

/-- No control character, and nothing beyond ASCII in an escaped text. -/
def Writes (style : JsonStyle) (c : Char) : Prop :=
  32 ≤ c.toNat ∧ (style.escaped = true → c.toNat ≤ 126)

theorem writes_of_mem {style : JsonStyle} {l : List Char}
    (hl : ∀ c ∈ l, 32 ≤ c.toNat ∧ c.toNat ≤ 126) : ∀ c ∈ l, Writes style c :=
  fun c hc => ⟨(hl c hc).1, fun _ => (hl c hc).2⟩

theorem hexDigit_printable (n : Nat) : 32 ≤ (hexDigit n).toNat ∧ (hexDigit n).toNat ≤ 126 := by
  have h : ∀ k < 16, 32 ≤ (hexDigit k).toNat ∧ (hexDigit k).toNat ≤ 126 := by decide
  have hmod : hexDigit n = hexDigit (n % 16) := by simp [hexDigit]
  rw [hmod]
  exact h _ (Nat.mod_lt _ (by omega))

theorem unicodeEscape_printable (n : Nat) :
    ∀ c ∈ unicodeEscape n, 32 ≤ c.toNat ∧ c.toNat ≤ 126 := by
  intro c hc
  simp only [unicodeEscape, List.mem_cons, List.not_mem_nil, or_false] at hc
  rcases hc with rfl | rfl | rfl | rfl | rfl | rfl
  · decide
  · decide
  all_goals exact hexDigit_printable _

theorem escapeChar_writes (style : JsonStyle) (c : Char) :
    ∀ d ∈ escapeChar style.escaped c, Writes style d := by
  unfold escapeChar
  split
  · next e he =>
    have hall : ∀ p ∈ shortEscapes, 32 ≤ p.2.toNat ∧ p.2.toNat ≤ 126 := by decide
    have hletter := hall _ (mem_shortEscapes he)
    refine writes_of_mem fun d hd => ?_
    rcases List.mem_pair.1 hd with rfl | rfl
    · decide
    · exact hletter
  · split_ifs with hsmall hescaped hplane
    · exact writes_of_mem (unicodeEscape_printable _)
    · exact writes_of_mem (unicodeEscape_printable _)
    · refine writes_of_mem fun d hd => ?_
      rcases List.mem_append.1 hd with hd | hd <;> exact unicodeEscape_printable _ d hd
    · intro d hd
      rw [List.mem_singleton] at hd
      subst hd
      refine ⟨by omega, fun hesc => ?_⟩
      by_contra hlarge
      exact hescaped ⟨hesc, by omega⟩

theorem writeString_writes (style : JsonStyle) (s : List Char) :
    ∀ c ∈ writeString style.escaped s, Writes style c := by
  induction s with
  | nil => exact writes_of_mem (l := ['"']) (by decide)
  | cons c s ih =>
    intro d hd
    rcases List.mem_append.1 hd with hd | hd
    · exact escapeChar_writes style c d hd
    · exact ih d hd

theorem separator_writes (style : JsonStyle) {c : Char} (hc : c = ',' ∨ c = ':') :
    ∀ d ∈ separator style c, Writes style d := by
  refine writes_of_mem ?_
  rcases hc with rfl | rfl <;> cases hspaced : style.spaced <;> simp [separator, hspaced]

theorem isNumberChar_printable {c : Char} (h : isNumberChar c = true) :
    32 ≤ c.toNat ∧ c.toNat ≤ 126 := by
  simp only [isNumberChar, Char.isDigit, Bool.or_eq_true, Bool.and_eq_true, decide_eq_true_eq] at h
  rcases h with ((((h | rfl) | rfl) | rfl) | rfl) | rfl
  · have hlow : 48 ≤ c.toNat := h.1
    have hhigh : c.toNat ≤ 57 := h.2
    omega
  all_goals decide

/-- The characters of a text of parts. -/
theorem forall_mem_append {P : Char → Prop} {l₁ l₂ : List Char} (h₁ : ∀ c ∈ l₁, P c)
    (h₂ : ∀ c ∈ l₂, P c) : ∀ c ∈ l₁ ++ l₂, P c := by
  intro c hc
  rcases List.mem_append.1 hc with hc | hc
  · exact h₁ c hc
  · exact h₂ c hc

theorem writeMember_writes (style : JsonStyle) (key : String) {value others : List Char}
    (hvalue : ∀ c ∈ value, Writes style c) (hothers : ∀ c ∈ others, Writes style c) :
    ∀ c ∈ writeMember style key value others, Writes style c :=
  List.forall_mem_cons.2 ⟨⟨by decide, fun _ => by decide⟩,
    forall_mem_append (writeString_writes style _)
      (forall_mem_append (separator_writes style (Or.inr rfl))
        (forall_mem_append hvalue hothers))⟩

mutual

theorem write_writes (style : JsonStyle) (j : Json) : ∀ c ∈ write style j, Writes style c := by
  cases j with
  | null => exact writes_of_mem (l := "null".toList) (by decide)
  | bool b =>
    cases b with
    | false => exact writes_of_mem (l := "false".toList) (by decide)
    | true => exact writes_of_mem (l := "true".toList) (by decide)
  | number t =>
    exact writes_of_mem fun c hc => isNumberChar_printable (all_isNumberChar t.valid c hc)
  | string s =>
    exact List.forall_mem_cons.2 ⟨⟨by decide, fun _ => by decide⟩, writeString_writes style _⟩
  | array items =>
    cases items with
    | nil => exact writes_of_mem (l := ['[', ']']) (by decide)
    | cons j items =>
      exact List.forall_mem_cons.2 ⟨⟨by decide, fun _ => by decide⟩,
        forall_mem_append (write_writes style j) (writeItems_writes style items)⟩
  | object fields =>
    cases fields with
    | nil => exact writes_of_mem (l := ['{', '}']) (by decide)
    | cons key j fields =>
      exact List.forall_mem_cons.2 ⟨⟨by decide, fun _ => by decide⟩,
        writeMember_writes style key (write_writes style j) (writeFields_writes style fields)⟩

theorem writeItems_writes (style : JsonStyle) (items : JsonItems) :
    ∀ c ∈ writeItems style items, Writes style c := by
  cases items with
  | nil => exact writes_of_mem (l := [']']) (by decide)
  | cons j items =>
    exact forall_mem_append (separator_writes style (Or.inl rfl))
      (forall_mem_append (write_writes style j) (writeItems_writes style items))

theorem writeFields_writes (style : JsonStyle) (fields : JsonFields) :
    ∀ c ∈ writeFields style fields, Writes style c := by
  cases fields with
  | nil => exact writes_of_mem (l := ['}']) (by decide)
  | cons key j fields =>
    exact forall_mem_append (separator_writes style (Or.inl rfl))
      (writeMember_writes style key (write_writes style j) (writeFields_writes style fields))

end

/-- The text of an object ends with its brace. -/
theorem writeFields_last (style : JsonStyle) :
    (fields : JsonFields) → ∃ l, writeFields style fields = l ++ ['}']
  | .nil => ⟨[], rfl⟩
  | .cons key j fields => by
    obtain ⟨l, hl⟩ := writeFields_last style fields
    refine ⟨separator style ',' ++ writeMember style key (write style j) l, ?_⟩
    rw [writeFields_cons, hl]
    simp [writeMember]

theorem write_object_last (style : JsonStyle) (fields : JsonFields) :
    ∃ l, write style (.object fields) = '{' :: (l ++ ['}']) := by
  cases fields with
  | nil => exact ⟨[], rfl⟩
  | cons key j fields =>
    obtain ⟨l, hl⟩ := writeFields_last style fields
    refine ⟨writeMember style key (write style j) l, ?_⟩
    rw [write_fields, hl]
    simp [writeMember]

/-! ### Cuts -/

/-- Blanks other than the ones between the parts of a text: a compact text has them in its
strings only. -/
def isBlank (c : Char) : Bool := c = ' ' || 126 < c.toNat

/-- What is left after a cut: nothing, or a text that goes on after the end of a line. -/
def Broken (rem : List Char) : Prop := rem = [] ∨ ∃ r, rem = '\n' :: r

def compact : JsonStyle := ⟨false, false⟩

theorem isNumberChar_not_blank {c : Char} (h : isNumberChar c = true) : isBlank c = false := by
  by_contra hblank
  simp only [isBlank, Bool.not_eq_false, Bool.or_eq_true, decide_eq_true_eq] at hblank
  simp only [isNumberChar, Char.isDigit, Bool.or_eq_true, Bool.and_eq_true, decide_eq_true_eq] at h
  rcases hblank with rfl | hlarge
  · exact absurd h (by decide)
  · rcases h with ((((h | rfl) | rfl) | rfl) | rfl) | rfl
    · have : c.toNat ≤ 57 := h.2
      omega
    all_goals exact absurd hlarge (by decide)

theorem opens_not_blank {c : Char} (h : opens c = true) : isBlank c = false := by
  by_cases hnumber : isNumberChar c = true
  · exact isNumberChar_not_blank hnumber
  · simp only [opens, Bool.or_eq_true, decide_eq_true_eq] at h
    rcases h with ((((((rfl | rfl) | rfl) | rfl) | rfl) | rfl) | rfl) | h
    · decide
    · decide
    · decide
    · decide
    · decide
    · decide
    · decide
    · exact absurd (by simp [isNumberChar, h]) hnumber

theorem hexDigit_not_blank (n : Nat) : isBlank (hexDigit n) = false := by
  have h : ∀ k < 16, isBlank (hexDigit k) = false := by decide
  have hmod : hexDigit n = hexDigit (n % 16) := by simp [hexDigit]
  rw [hmod]
  exact h _ (Nat.mod_lt _ (by omega))

/-- A blank is in the escape of no other character. -/
theorem eq_of_mem_escapeChar {c d : Char} (hmem : d ∈ escapeChar false c)
    (hd : isBlank d = true) : c = d := by
  have hslash : isBlank '\\' = false := by decide
  have hu : isBlank 'u' = false := by decide
  unfold escapeChar at hmem
  split at hmem
  · next e he =>
    have hall : ∀ p ∈ shortEscapes, isBlank p.2 = false := by decide
    have hblank := hall _ (mem_shortEscapes he)
    rcases List.mem_pair.1 hmem with rfl | rfl
    · rw [hd] at hslash; cases hslash
    · rw [hd] at hblank; cases hblank
  · split_ifs at hmem with hsmall hescaped hplane
    · exfalso
      simp only [unicodeEscape, List.mem_cons, List.not_mem_nil, or_false] at hmem
      rcases hmem with rfl | rfl | rfl | rfl | rfl | rfl
      · rw [hd] at hslash; cases hslash
      · rw [hd] at hu; cases hu
      all_goals simp [hexDigit_not_blank] at hd
    · exact absurd hescaped.1 (by decide)
    · exact absurd hescaped.1 (by decide)
    · exact (List.mem_singleton.1 hmem).symm

/-- A blank is written as it is. -/
theorem escapeChar_of_blank {c : Char} (hc : isBlank c = true) : escapeChar false c = [c] := by
  have hlarge : 32 ≤ c.toNat := by
    simp only [isBlank, Bool.or_eq_true, decide_eq_true_eq] at hc
    rcases hc with rfl | hc
    · decide
    · omega
  have hnone : shortEscapes.lookup c = none := by
    cases h : shortEscapes.lookup c with
    | none => rfl
    | some e =>
      have hall : ∀ p ∈ shortEscapes, isBlank p.1 = false := by decide
      have hblank := hall _ (mem_shortEscapes h)
      rw [hc] at hblank
      cases hblank
  rw [escapeChar, hnone]
  simp [show ¬c.toNat < 32 by omega]

/-- A compact string has the blanks of what it stands for. -/
theorem mem_writeString {d : Char} (hd : isBlank d = true) (s : List Char) :
    d ∈ writeString false s ↔ d ∈ s := by
  induction s with
  | nil =>
    constructor
    · intro h
      obtain rfl := List.mem_singleton.1 h
      exact absurd hd (by decide)
    · intro h
      cases h
  | cons c s ih =>
    rw [writeString, List.mem_append, ih, List.mem_cons]
    refine or_congr ?_ Iff.rfl
    constructor
    · intro h
      exact (eq_of_mem_escapeChar h hd).symm
    · rintro rfl
      rw [escapeChar_of_blank hd]
      simp

/-- A cut of a text of two parts is in the first or in the second. -/
theorem cut_append {l₁ l₂ p q : List Char} {d : Char} (h : l₁ ++ l₂ = p ++ d :: q) :
    (∃ q', l₁ = p ++ d :: q') ∨ ∃ p', p = l₁ ++ p' ∧ l₂ = p' ++ d :: q := by
  rcases List.append_eq_append_iff.1 h with ⟨a, hp, hl⟩ | ⟨b, hl, hq⟩
  · exact Or.inr ⟨a, hp, hl⟩
  · cases b with
    | nil => exact Or.inr ⟨[], by simpa using hl.symm, by simpa using hq.symm⟩
    | cons e b =>
      obtain ⟨rfl, -⟩ : d = e ∧ _ := by simpa using hq
      exact Or.inl ⟨b, hl⟩

/-- The first character of a cut text, when it is no blank. -/
theorem cut_cons {c d : Char} {l p q : List Char} (h : c :: l = p ++ d :: q)
    (hc : isBlank c = false) (hd : isBlank d = true) :
    ∃ p', p = c :: p' ∧ l = p' ++ d :: q := by
  cases p with
  | nil =>
    obtain ⟨rfl, -⟩ : c = d ∧ l = q := by simpa using h
    rw [hd] at hc
    cases hc
  | cons e p =>
    obtain ⟨rfl, hl⟩ : c = e ∧ l = p ++ d :: q := by simpa using h
    exact ⟨p, rfl, hl⟩

theorem readString_broken {rem : List Char} (hrem : Broken rem) : readString .plain rem = none := by
  rcases hrem with rfl | ⟨r, rfl⟩
  · rfl
  · simp [readString, stringStep]

/-- A string does not go on after a cut. -/
theorem readString_cut {s p q rem : List Char} {d : Char} (hd : isBlank d = true)
    (hrem : Broken rem) (h : writeString false s = p ++ d :: q) :
    readString .plain (p ++ rem) = none := by
  induction s generalizing p with
  | nil =>
    obtain ⟨p', -, hnil⟩ := cut_cons h (by decide) hd
    simp at hnil
  | cons c s ih =>
    rcases cut_append h with ⟨q', hc⟩ | ⟨p', rfl, hs⟩
    · obtain rfl := eq_of_mem_escapeChar (c := c) (d := d) (by rw [hc]; simp) hd
      obtain rfl : p = [] := by
        have hlen := congrArg List.length hc
        rw [escapeChar_of_blank hd] at hlen
        cases p with
        | nil => rfl
        | cons e p => simp at hlen
      exact readString_broken hrem
    · rw [List.append_assoc, readString_escapeChar, ih hs]
      rfl

theorem endsNumber_cut {p q rem : List Char} {d : Char} (hrem : Broken rem)
    (h : endsNumber (p ++ d :: q) = true) : endsNumber (p ++ rem) = true := by
  cases p with
  | nil => rcases hrem with rfl | ⟨r, rfl⟩ <;> rfl
  | cons c p => exact h

/-- A member does not go on after a cut, when neither its value nor the other members do. -/
theorem readMember_cut {key : String} {n : Nat} {j : Json} {value others p q rem : List Char}
    {d : Char} (hd : isBlank d = true) (hrem : Broken rem)
    (h : writeMember compact key value others = p ++ d :: q) (hn : 2 * p.length ≤ n + 1)
    (hread : ∀ rest, 2 * value.length ≤ n → endsNumber rest = true →
      readValue n (value ++ rest) = some (j, rest))
    (hends : ∀ r, endsNumber (others ++ r) = true)
    (hvalue : ∀ p' q', value = p' ++ d :: q' → 2 * p'.length ≤ n → readValue n (p' ++ rem) = none)
    (hothers : ∀ p' q', others = p' ++ d :: q' → 2 * p'.length ≤ n →
      readFields n (p' ++ rem) = none) :
    readMember (n + 1) (p ++ rem) = none := by
  obtain ⟨p₁, rfl, h₁⟩ := cut_cons h (by decide) hd
  rw [List.cons_append, readMember, skipSpace_cons (show isJsonSpace '"' = false by decide)]
  rcases cut_append h₁ with ⟨q', hkey⟩ | ⟨p₂, rfl, h₂⟩
  · -- within the key
    simp [readString_cut hd hrem hkey]
  · obtain ⟨p₃, rfl, h₃⟩ := cut_cons (c := ':') (by simpa [separator, compact] using h₂)
      (by decide) hd
    simp only [List.length_cons, List.length_append] at hn
    simp only [if_true, List.append_assoc, List.cons_append, readString_writeString,
      show compact.escaped = false from rfl, Option.bind_some,
      skipSpace_cons (show isJsonSpace ':' = false by decide), List.head?_cons, List.tail_cons]
    rcases cut_append h₃ with ⟨q', hval⟩ | ⟨p₄, rfl, h₄⟩
    · rw [hvalue p₃ q' hval (by omega)]
      rfl
    · simp only [List.length_append] at hn
      rw [List.append_assoc, hread (p₄ ++ rem) (by omega)
        (endsNumber_cut hrem (by rw [← h₄]; simpa using hends [])),
        Option.bind_some, hothers p₄ q h₄ (by omega)]
      rfl

/-- An item and those after it do not go on after a cut, when neither does. -/
theorem readItem_cut {β : Type} (f : Json × List Char → JsonItems × List Char → β) {n : Nat}
    {j : Json} {value others p q rem : List Char} {d : Char} (hrem : Broken rem)
    (h : value ++ others = p ++ d :: q) (hn : 2 * p.length ≤ n)
    (hread : ∀ rest, 2 * value.length ≤ n → endsNumber rest = true →
      readValue n (value ++ rest) = some (j, rest))
    (hends : ∀ r, endsNumber (others ++ r) = true)
    (hvalue : ∀ p' q', value = p' ++ d :: q' → 2 * p'.length ≤ n → readValue n (p' ++ rem) = none)
    (hothers : ∀ p' q', others = p' ++ d :: q' → 2 * p'.length ≤ n →
      readItems n (p' ++ rem) = none) :
    ((readValue n (p ++ rem)).bind fun r => (readItems n r.2).map (f r)) = none := by
  rcases cut_append h with ⟨q', hval⟩ | ⟨p₁, rfl, h₁⟩
  · rw [hvalue p q' hval hn]
    rfl
  · simp only [List.length_append] at hn
    rw [List.append_assoc, hread (p₁ ++ rem) (by omega)
      (endsNumber_cut hrem (by rw [← h₁]; simpa using hends [])),
      Option.bind_some, hothers p₁ q h₁ (by omega)]
    rfl

theorem cut_of_forall {l p q : List Char} {d : Char} (h : l = p ++ d :: q) (hd : isBlank d = true)
    (hl : ∀ c ∈ l, isBlank c = false) : False := by
  have hmem := hl d (by simp [h])
  rw [hd] at hmem
  cases hmem

mutual

/-- A compact text does not go on after a cut at a blank. -/
theorem readValue_cut (j : Json) {n : Nat} {p q rem : List Char} {d : Char}
    (hd : isBlank d = true) (hrem : Broken rem) (h : write compact j = p ++ d :: q)
    (hn : 2 * p.length ≤ n) : readValue n (p ++ rem) = none := by
  cases j with
  | null => exact (cut_of_forall h hd (by decide)).elim
  | bool b => cases b <;> exact (cut_of_forall h hd (by decide)).elim
  | number t =>
    exact (cut_of_forall h hd fun c hc => isNumberChar_not_blank
      (all_isNumberChar t.valid c hc)).elim
  | string s =>
    obtain ⟨p₁, rfl, h₁⟩ := cut_cons h (by decide) hd
    cases n with
    | zero => rfl
    | succ n =>
      rw [List.cons_append, readValue, skipSpace_cons (show isJsonSpace '"' = false by decide)]
      simp [readString_cut hd hrem h₁]
  | array items =>
    cases items with
    | nil => exact (cut_of_forall h hd (by decide)).elim
    | cons j items =>
      obtain ⟨p₁, rfl, h₁⟩ := cut_cons h (by decide) hd
      cases n with
      | zero => rfl
      | succ n =>
        obtain ⟨c, r, hc, hopens⟩ := write_opens compact j
        -- the first item begins before the cut
        obtain ⟨p₂, hp₂, -⟩ := cut_cons (c := c) (l := r ++ writeItems compact items)
          (by rw [← h₁, hc]; rfl) (opens_not_blank hopens) hd
        have hclose : (skipSpace (p₁ ++ rem)).head? ≠ some ']' := by
          rw [hp₂, List.cons_append, skipSpace_cons (opens_not_space hopens).1]
          simpa using (opens_not_space hopens).2.1
        rw [List.cons_append, readValue, skipSpace_cons (show isJsonSpace '[' = false by decide)]
        simp only [List.length_cons] at hn
        have hnone := readItem_cut (fun r s => (Json.array (.cons r.1 s.1), s.2)) hrem h₁
          (n := n) (by omega)
          (fun rest hk hrest => readValue_write compact j _ rest hk hrest)
          (fun r => endsNumber_items compact items r)
          (fun p' q' hval hp' => readValue_cut j hd hrem hval hp')
          (fun p' q' hval hp' => readItems_cut items hd hrem hval hp')
        simp [hclose, hnone]
  | object fields =>
    cases fields with
    | nil => exact (cut_of_forall h hd (by decide)).elim
    | cons key j fields =>
      rw [write_fields] at h
      obtain ⟨p₁, rfl, h₁⟩ := cut_cons h (by decide) hd
      obtain ⟨p₂, hp₂, -⟩ := cut_cons h₁ (by decide) hd
      simp only [List.length_cons] at hn
      obtain ⟨k, rfl⟩ : ∃ k, n = k + 2 := ⟨n - 2, by rw [hp₂] at hn; simp at hn; omega⟩
      have hmember : readMember (k + 1) (p₁ ++ rem) = none := by
        refine readMember_cut hd hrem h₁ (by omega)
          (fun rest hk hrest => readValue_write compact j _ rest hk hrest)
          (fun r => endsNumber_fields compact fields r) ?_ ?_
        · intro p' q' hval hp'
          exact readValue_cut j hd hrem hval hp'
        · intro p' q' hfields hp'
          exact readFields_cut fields hd hrem hfields hp'
      have hclose : (skipSpace (p₁ ++ rem)).head? ≠ some '}' := by
        rw [hp₂, List.cons_append, skipSpace_cons (show isJsonSpace '"' = false by decide)]
        simp
      rw [List.cons_append, readValue, skipSpace_cons (show isJsonSpace '{' = false by decide)]
      simp [hclose, hmember]

theorem readItems_cut (items : JsonItems) {n : Nat} {p q rem : List Char} {d : Char}
    (hd : isBlank d = true) (hrem : Broken rem) (h : writeItems compact items = p ++ d :: q)
    (hn : 2 * p.length ≤ n) : readItems n (p ++ rem) = none := by
  cases items with
  | nil => exact (cut_of_forall h hd (by decide)).elim
  | cons j items =>
    obtain ⟨p₁, rfl, h₁⟩ := cut_cons (c := ',') (by simpa [writeItems, separator] using h)
      (by decide) hd
    cases n with
    | zero => rfl
    | succ n =>
      simp only [List.length_cons] at hn
      replace h₁ : write compact j ++ writeItems compact items = p₁ ++ d :: q := h₁
      rw [List.cons_append, readItems, skipSpace_cons (show isJsonSpace ',' = false by decide)]
      have hnone := readItem_cut (fun r s => (JsonItems.cons r.1 s.1, s.2)) hrem h₁
        (n := n) (by omega)
        (fun rest hk hrest => readValue_write compact j _ rest hk hrest)
        (fun r => endsNumber_items compact items r)
        (fun p' q' hval hp' => readValue_cut j hd hrem hval hp')
        (fun p' q' hval hp' => readItems_cut items hd hrem hval hp')
      simp [hnone]

theorem readFields_cut (fields : JsonFields) {n : Nat} {p q rem : List Char} {d : Char}
    (hd : isBlank d = true) (hrem : Broken rem) (h : writeFields compact fields = p ++ d :: q)
    (hn : 2 * p.length ≤ n) : readFields n (p ++ rem) = none := by
  cases fields with
  | nil => exact (cut_of_forall h hd (by decide)).elim
  | cons key j fields =>
    rw [writeFields_cons] at h
    obtain ⟨p₁, rfl, h₁⟩ := cut_cons (c := ',') (by simpa [separator] using h) (by decide) hd
    cases n with
    | zero => rfl
    | succ n =>
      simp only [List.length_cons] at hn
      replace h₁ : writeMember compact key (write compact j) (writeFields compact fields) =
        p₁ ++ d :: q := h₁
      obtain ⟨k, rfl⟩ : ∃ k, n = k + 1 := ⟨n - 1, by omega⟩
      have hmember : readMember (k + 1) (p₁ ++ rem) = none := by
        refine readMember_cut hd hrem h₁ (by omega)
          (fun rest hk hrest => readValue_write compact j _ rest hk hrest)
          (fun r => endsNumber_fields compact fields r) ?_ ?_
        · intro p' q' hval hp'
          exact readValue_cut j hd hrem hval hp'
        · intro p' q' hfields hp'
          exact readFields_cut fields hd hrem hfields hp'
      rw [List.cons_append, readFields, skipSpace_cons (show isJsonSpace ',' = false by decide)]
      simp [hmember]

end

/-! ### The strings of a value -/

mutual

/-- A string of the value has this character. -/
def Mentions (d : Char) : Json → Prop
  | .null => False
  | .bool _ => False
  | .number _ => False
  | .string s => d ∈ s.toList
  | .array items => MentionsItems d items
  | .object fields => MentionsFields d fields

def MentionsItems (d : Char) : JsonItems → Prop
  | .nil => False
  | .cons j rest => Mentions d j ∨ MentionsItems d rest

def MentionsFields (d : Char) : JsonFields → Prop
  | .nil => False
  | .cons key j rest => d ∈ key.toList ∨ Mentions d j ∨ MentionsFields d rest

end

theorem not_mem_of_forall {d : Char} {l : List Char} (hd : isBlank d = true)
    (hl : ∀ c ∈ l, isBlank c = false) : d ∉ l := by
  intro hmem
  have h := hl d hmem
  rw [hd] at h
  cases h

theorem mem_writeMember {d : Char} (hd : isBlank d = true) (key : String)
    (value others : List Char) :
    d ∈ writeMember compact key value others ↔ d ∈ key.toList ∨ d ∈ value ∨ d ∈ others := by
  have hquote : d ≠ '"' := by rintro rfl; exact absurd hd (by decide)
  have hcolon : d ≠ ':' := by rintro rfl; exact absurd hd (by decide)
  simp [writeMember, separator, compact, mem_writeString hd, hquote, hcolon]

mutual

/-- The blanks of a compact text are those of the strings. -/
theorem mem_write {d : Char} (hd : isBlank d = true) (j : Json) :
    d ∈ write compact j ↔ Mentions d j := by
  cases j with
  | null => exact iff_of_false (not_mem_of_forall hd (by decide)) id
  | bool b => cases b <;> exact iff_of_false (not_mem_of_forall hd (by decide)) id
  | number t =>
    exact iff_of_false (not_mem_of_forall hd fun c hc => isNumberChar_not_blank
      (all_isNumberChar t.valid c hc)) id
  | string s =>
    have hquote : d ≠ '"' := by rintro rfl; exact absurd hd (by decide)
    simp [write, Mentions, compact, mem_writeString hd, hquote]
  | array items =>
    cases items with
    | nil => exact iff_of_false (not_mem_of_forall hd (by decide)) id
    | cons j items =>
      have hopen : d ≠ '[' := by rintro rfl; exact absurd hd (by decide)
      simp [write, Mentions, MentionsItems, hopen, mem_write hd j, mem_writeItems hd items]
  | object fields =>
    cases fields with
    | nil => exact iff_of_false (not_mem_of_forall hd (by decide)) id
    | cons key j fields =>
      have hopen : d ≠ '{' := by rintro rfl; exact absurd hd (by decide)
      simp [write_fields, Mentions, MentionsFields, hopen, mem_writeMember hd, mem_write hd j,
        mem_writeFields hd fields]

theorem mem_writeItems {d : Char} (hd : isBlank d = true) (items : JsonItems) :
    d ∈ writeItems compact items ↔ MentionsItems d items := by
  cases items with
  | nil => exact iff_of_false (not_mem_of_forall hd (by decide)) id
  | cons j items =>
    have hcomma : d ≠ ',' := by rintro rfl; exact absurd hd (by decide)
    have hseparator : d ∉ separator compact ',' := by simp [separator, compact, hcomma]
    simp [writeItems, MentionsItems, hseparator, mem_write hd j, mem_writeItems hd items]

theorem mem_writeFields {d : Char} (hd : isBlank d = true) (fields : JsonFields) :
    d ∈ writeFields compact fields ↔ MentionsFields d fields := by
  cases fields with
  | nil => exact iff_of_false (not_mem_of_forall hd (by decide)) id
  | cons key j fields =>
    have hcomma : d ≠ ',' := by rintro rfl; exact absurd hd (by decide)
    have hseparator : d ∉ separator compact ',' := by simp [separator, compact, hcomma]
    simp [writeFields_cons, MentionsFields, hseparator, mem_writeMember hd, mem_write hd j,
      mem_writeFields hd fields]

end

/-- A compact text that was cut at a blank is read as no value. -/
theorem read_cut (j : Json) {p q rem : List Char} {d : Char} (hd : isBlank d = true)
    (hrem : Broken rem) (h : write compact j = p ++ d :: q) : read (p ++ rem) = none := by
  have hnone := readValue_cut j (n := 2 * (p ++ rem).length + 2) hd hrem h
    (by simp only [List.length_append]; omega)
  simp only [read, hnone]

end Json
