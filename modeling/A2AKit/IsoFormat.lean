/-
Timestamps as ISO texts.

A date and time in UTC is written as `isoformat` writes it: with a fraction of six digits, or with
none if there are no microseconds, and with `+00:00` behind it.  Texts are compared character by
character.

* `isoformat_lt_iff`, `isoformat_strictMono` — the texts are ordered as the times;
* `Denotes` — the time that a text stands for, whatever its offset and its fraction.
-/
import Mathlib.Algebra.Order.Field.Rat
import Mathlib.Data.Prod.Lex
import Mathlib.Data.String.Basic
import Mathlib.Tactic.IntervalCases
import Mathlib.Tactic.Positivity

namespace IsoFormat

/-! ### Texts that are ordered as numbers -/

section

variable {a b x y : List Char}

/-- Of texts with prefixes of one length the prefixes decide, if they differ. -/
theorem append_lt_append_iff (h : a.length = b.length) :
    a ++ x < b ++ y ↔ a < b ∨ a = b ∧ x < y := by
  induction a generalizing b with
  | nil =>
    obtain rfl := List.length_eq_zero_iff.mp h.symm
    simp
  | cons c a ih =>
    cases b with
    | nil => exact nomatch h
    | cons d b =>
      rw [List.cons_append, List.cons_append, List.cons_lt_cons_iff, List.cons_lt_cons_iff,
        ih (Nat.succ.inj h), List.cons.injEq]
      constructor
      · rintro (hlt | ⟨rfl, hlt | ⟨rfl, hlt⟩⟩)
        · exact Or.inl (Or.inl hlt)
        · exact Or.inl (Or.inr ⟨rfl, hlt⟩)
        · exact Or.inr ⟨⟨rfl, rfl⟩, hlt⟩
      · rintro ((hlt | ⟨rfl, hlt⟩) | ⟨⟨rfl, rfl⟩, hlt⟩)
        · exact Or.inl hlt
        · exact Or.inr ⟨rfl, Or.inl hlt⟩
        · exact Or.inr ⟨rfl, Or.inr ⟨rfl, hlt⟩⟩

/-- Two texts of one length are ordered as two numbers. -/
structure OrderedAs (a b : List Char) (m n : Nat) : Prop where
  length : a.length = b.length
  lt : a < b ↔ m < n
  gt : b < a ↔ n < m

variable {m n p q : Nat}

theorem OrderedAs.eq (h : OrderedAs a b m n) : a = b ↔ m = n := by
  constructor
  · rintro rfl
    have hle : ¬ m < n := fun hlt => List.lt_irrefl a (h.lt.mpr hlt)
    have hge : ¬ n < m := fun hgt => List.lt_irrefl a (h.gt.mpr hgt)
    omega
  · intro heq
    refine le_antisymm (not_lt.mp fun hba => ?_) (not_lt.mp fun hab => ?_)
    · exact absurd (h.gt.mp hba) (by omega)
    · exact absurd (h.lt.mp hab) (by omega)

theorem OrderedAs.refl (a : List Char) (n : Nat) : OrderedAs a a n n :=
  ⟨rfl, iff_of_false (List.lt_irrefl a) (Nat.lt_irrefl n),
    iff_of_false (List.lt_irrefl a) (Nat.lt_irrefl n)⟩

/-- Texts one after the other are ordered as the digits of a number. -/
theorem OrderedAs.append {radix : Nat} (h : OrderedAs a b m n) (h' : OrderedAs x y p q)
    (hp : p < radix) (hq : q < radix) :
    OrderedAs (a ++ x) (b ++ y) (m * radix + p) (n * radix + q) := by
  have hdigits : ∀ m n p q : Nat, p < radix → q < radix →
      (m < n ∨ m = n ∧ p < q ↔ m * radix + p < n * radix + q) := by
    intro m n p q hp hq
    rcases Nat.lt_trichotomy m n with hlt | rfl | hgt
    · have hle : (m + 1) * radix ≤ n * radix := Nat.mul_le_mul_right _ hlt
      rw [Nat.add_mul] at hle
      omega
    · omega
    · have hle : (n + 1) * radix ≤ m * radix := Nat.mul_le_mul_right _ hgt
      rw [Nat.add_mul] at hle
      omega
  refine ⟨?_, ?_, ?_⟩
  · rw [List.length_append, List.length_append, h.length, h'.length]
  · rw [append_lt_append_iff h.length, h.lt, h.eq, h'.lt, hdigits m n p q hp hq]
  · rw [append_lt_append_iff h.length.symm, h.gt, eq_comm, h.eq, h'.gt, eq_comm,
      hdigits n m q p hq hp]

/-- A separator changes nothing. -/
theorem OrderedAs.cons (h : OrderedAs a b m n) (c : Char) : OrderedAs (c :: a) (c :: b) m n := by
  refine ⟨by rw [List.length_cons, List.length_cons, h.length], ?_, ?_⟩
  · rw [List.cons_lt_cons_self, h.lt]
  · rw [List.cons_lt_cons_self, h.gt]

end

/-- A number of a fixed width, with zeros in front of it. -/
def padded : Nat → Nat → List Char
  | 0, _ => []
  | width + 1, n => padded width (n / 10) ++ [Nat.digitChar (n % 10)]

theorem digitChar_lt {m n : Nat} (hm : m < 10) (hn : n < 10) :
    Nat.digitChar m < Nat.digitChar n ↔ m < n := by
  interval_cases m <;> interval_cases n <;> decide

theorem orderedAs_padded {width m n : Nat} (hm : m < 10 ^ width) (hn : n < 10 ^ width) :
    OrderedAs (padded width m) (padded width n) m n := by
  induction width generalizing m n with
  | zero =>
    obtain rfl : m = 0 := by omega
    obtain rfl : n = 0 := by omega
    exact OrderedAs.refl [] 0
  | succ width ih =>
    have hm' : m % 10 < 10 := Nat.mod_lt _ (by decide)
    have hn' : n % 10 < 10 := Nat.mod_lt _ (by decide)
    have hlast : OrderedAs [Nat.digitChar (m % 10)] [Nat.digitChar (n % 10)] (m % 10) (n % 10) := by
      refine ⟨rfl, ?_, ?_⟩
      · rw [List.cons_lt_cons_iff, digitChar_lt hm' hn']
        simp
      · rw [List.cons_lt_cons_iff, digitChar_lt hn' hm']
        simp
    rw [pow_succ'] at hm hn
    have hall := (ih (Nat.div_lt_of_lt_mul hm) (Nat.div_lt_of_lt_mul hn)).append hlast hm' hn'
    rwa [Nat.div_add_mod', Nat.div_add_mod'] at hall

theorem OrderedAs.congr {a b : List Char} {m n m' n' : Nat} (h : OrderedAs a b m n)
    (hlt : m < n ↔ m' < n') (hgt : n < m ↔ n' < m') : OrderedAs a b m' n' :=
  ⟨h.length, h.lt.trans hlt, h.gt.trans hgt⟩

/-! ### The calendar -/

def isLeap (year : Nat) : Bool := year % 4 = 0 && (year % 100 ≠ 0 || year % 400 = 0)

def daysInMonth (year month : Nat) : Nat :=
  match month with
  | 2 => if isLeap year then 29 else 28
  | 4 | 6 | 9 | 11 => 30
  | _ => 31

def daysBeforeYear (year : Nat) : Nat :=
  (year - 1) * 365 + (year - 1) / 4 - (year - 1) / 100 + (year - 1) / 400

def daysBeforeMonth (year : Nat) : Nat → Nat
  | 0 | 1 => 0
  | month + 2 => daysBeforeMonth year (month + 1) + daysInMonth year (month + 1)

/-- A date and time in UTC. -/
structure DateTime where
  year : Nat
  month : Nat
  day : Nat
  hour : Nat := 0
  minute : Nat := 0
  second : Nat := 0
  microsecond : Nat := 0
  year_pos : 1 ≤ year := by decide
  year_le : year ≤ 9999 := by decide
  month_pos : 1 ≤ month := by decide
  month_le : month ≤ 12 := by decide
  day_pos : 1 ≤ day := by decide
  day_le : day ≤ daysInMonth year month := by decide
  hour_lt : hour < 24 := by decide
  minute_lt : minute < 60 := by decide
  second_lt : second < 60 := by decide
  microsecond_lt : microsecond < 10 ^ 6 := by decide

namespace DateTime

def toOrdinal (d : DateTime) : Nat := daysBeforeYear d.year + daysBeforeMonth d.year d.month + d.day

/-- The seconds since the day before the first one. -/
def seconds (d : DateTime) : Nat := ((d.toOrdinal * 24 + d.hour) * 60 + d.minute) * 60 + d.second

/-- The same in microseconds. -/
def instant (d : DateTime) : Nat := d.seconds * 10 ^ 6 + d.microsecond

end DateTime

theorem daysInMonth_le (year month : Nat) : daysInMonth year month ≤ 31 := by
  unfold daysInMonth
  split
  · split <;> omega
  · omega
  · omega
  · omega
  · omega
  · omega

theorem daysBeforeMonth_succ (year : Nat) {month : Nat} (h : 1 ≤ month) :
    daysBeforeMonth year (month + 1) = daysBeforeMonth year month + daysInMonth year month := by
  obtain ⟨m, rfl⟩ := Nat.exists_eq_add_of_le' h
  rfl

theorem daysBeforeMonth_mono (year : Nat) {m n : Nat} (h : m ≤ n) :
    daysBeforeMonth year m ≤ daysBeforeMonth year n := by
  induction n, h using Nat.le_induction with
  | base => exact Nat.le_refl _
  | succ n _ ih =>
    refine ih.trans ?_
    rcases Nat.eq_zero_or_pos n with rfl | hn
    · exact Nat.le_refl _
    · rw [daysBeforeMonth_succ year hn]
      exact Nat.le_add_right _ _

/-- A year has as many days as its months. -/
theorem daysBeforeYear_succ {year : Nat} (h : 1 ≤ year) :
    daysBeforeYear (year + 1) = daysBeforeYear year + daysBeforeMonth year 13 := by
  have hmonths : daysBeforeMonth year 13 = if isLeap year then 366 else 365 := by
    cases hleap : isLeap year <;> simp [daysBeforeMonth, daysInMonth, hleap]
  obtain ⟨y, rfl⟩ := Nat.exists_eq_add_of_le' h
  rw [hmonths]
  unfold daysBeforeYear
  rw [Nat.add_sub_cancel, Nat.add_sub_cancel, Nat.succ_div, Nat.succ_div, Nat.succ_div]
  have hle : y / 100 ≤ y / 4 := Nat.div_le_div_left (by decide) (by decide)
  have hdvd : 100 ∣ y + 1 → 4 ∣ y + 1 := fun h => Nat.dvd_trans (by decide) h
  have hdvd' : 400 ∣ y + 1 → 100 ∣ y + 1 := fun h => Nat.dvd_trans (by decide) h
  have hleap : isLeap (y + 1) = true ↔ 4 ∣ y + 1 ∧ (¬ 100 ∣ y + 1 ∨ 400 ∣ y + 1) := by
    simp [isLeap, Nat.dvd_iff_mod_eq_zero]
  simp only [hleap]
  split_ifs <;> grind

theorem daysBeforeYear_mono {m n : Nat} (hm : 1 ≤ m) (h : m ≤ n) :
    daysBeforeYear m ≤ daysBeforeYear n := by
  induction n, h using Nat.le_induction with
  | base => exact Nat.le_refl _
  | succ n hn ih =>
    rw [daysBeforeYear_succ (hm.trans hn)]
    exact ih.trans (Nat.le_add_right _ _)

namespace DateTime

variable {a b : DateTime}

/-- The date as one number, whose digits are those of its text. -/
def dateKey (d : DateTime) : Nat := (d.year * 13 + d.month) * 32 + d.day

theorem day_lt (d : DateTime) : d.day < 32 := by
  have hle := d.day_le
  have hmonth := daysInMonth_le d.year d.month
  omega

theorem toOrdinal_le (d : DateTime) : d.toOrdinal ≤ daysBeforeYear (d.year + 1) := by
  have hday := d.day_le
  have hnext := daysBeforeMonth_succ d.year d.month_pos
  have hmono := daysBeforeMonth_mono d.year (show d.month + 1 ≤ 13 from Nat.succ_le_succ d.month_le)
  rw [daysBeforeYear_succ d.year_pos]
  unfold toOrdinal
  omega

theorem toOrdinal_lt_of_dateKey (h : a.dateKey < b.dateKey) : a.toOrdinal < b.toOrdinal := by
  have ha := a.day_lt
  have hb := b.day_lt
  have hmonth := a.month_le
  have hmonth' := b.month_le
  have hpos := b.day_pos
  have hcases : a.year < b.year ∨ a.year = b.year ∧
      (a.month < b.month ∨ a.month = b.month ∧ a.day < b.day) := by
    unfold dateKey at h
    omega
  rcases hcases with hyear | ⟨hyear, hmonth | ⟨hmonth, hday⟩⟩
  · have hle := a.toOrdinal_le
    have hmono : daysBeforeYear (a.year + 1) ≤ daysBeforeYear b.year :=
      daysBeforeYear_mono (Nat.succ_pos a.year) hyear
    unfold toOrdinal at hle ⊢
    omega
  · have hday := a.day_le
    have hnext := daysBeforeMonth_succ a.year a.month_pos
    have hmono : daysBeforeMonth a.year (a.month + 1) ≤ daysBeforeMonth a.year b.month :=
      daysBeforeMonth_mono a.year hmonth
    unfold toOrdinal
    rw [← hyear]
    omega
  · unfold toOrdinal
    rw [← hyear, ← hmonth]
    omega

theorem toOrdinal_lt_iff : a.dateKey < b.dateKey ↔ a.toOrdinal < b.toOrdinal := by
  refine ⟨toOrdinal_lt_of_dateKey, fun h => ?_⟩
  by_contra hge
  rcases Nat.lt_or_eq_of_le (Nat.le_of_not_lt hge) with hlt | heq
  · exact absurd (toOrdinal_lt_of_dateKey hlt) (by omega)
  · have ha := a.day_lt
    have hb := b.day_lt
    have hmonth := a.month_le
    have hmonth' := b.month_le
    have hfields : b.year = a.year ∧ b.month = a.month ∧ b.day = a.day := by
      unfold dateKey at heq
      omega
    unfold toOrdinal at h
    rw [hfields.1, hfields.2.1, hfields.2.2] at h
    exact Nat.lt_irrefl _ h

/-! ### The text -/

/-- The date and the time to the second. -/
def stem (d : DateTime) : List Char :=
  padded 4 d.year ++ '-' :: padded 2 d.month ++ '-' :: padded 2 d.day ++ 'T' :: padded 2 d.hour ++
    ':' :: padded 2 d.minute ++ ':' :: padded 2 d.second

/-- The fraction, if there is one, and the offset of UTC. -/
def tail (d : DateTime) : List Char :=
  (if d.microsecond = 0 then [] else '.' :: padded 6 d.microsecond) ++ "+00:00".toList

/-- `isoformat` -/
def isoformat (d : DateTime) : String := String.ofList (d.stem ++ d.tail)

theorem orderedAs_stem (a b : DateTime) : OrderedAs a.stem b.stem a.seconds b.seconds := by
  have hsmall : ∀ {n k : Nat}, n < k → k ≤ 10 ^ 2 → n < 10 ^ 2 := fun h h' => h.trans_le h'
  have hyear : OrderedAs (padded 4 a.year) (padded 4 b.year) a.year b.year :=
    orderedAs_padded (Nat.lt_succ_of_le a.year_le) (Nat.lt_succ_of_le b.year_le)
  have hmonth := hyear.append ((orderedAs_padded
    (hsmall (Nat.lt_succ_of_le a.month_le) (by decide))
    (hsmall (Nat.lt_succ_of_le b.month_le) (by decide))).cons '-')
    (Nat.lt_succ_of_le a.month_le) (Nat.lt_succ_of_le b.month_le)
  have hday := hmonth.append ((orderedAs_padded (hsmall a.day_lt (by decide))
    (hsmall b.day_lt (by decide))).cons '-') a.day_lt b.day_lt
  have hdate := hday.congr toOrdinal_lt_iff toOrdinal_lt_iff
  have hhour := hdate.append ((orderedAs_padded (hsmall a.hour_lt (by decide))
    (hsmall b.hour_lt (by decide))).cons 'T') a.hour_lt b.hour_lt
  have hminute := hhour.append ((orderedAs_padded (hsmall a.minute_lt (by decide))
    (hsmall b.minute_lt (by decide))).cons ':') a.minute_lt b.minute_lt
  exact hminute.append ((orderedAs_padded (hsmall a.second_lt (by decide))
    (hsmall b.second_lt (by decide))).cons ':') a.second_lt b.second_lt

/-- Without a fraction comes before any fraction, since `+` comes before the point. -/
theorem tail_lt_iff : a.tail < b.tail ↔ a.microsecond < b.microsecond := by
  have hzone : "+00:00".toList = '+' :: "00:00".toList := by decide
  unfold tail
  rw [hzone]
  by_cases ha : a.microsecond = 0
  · by_cases hb : b.microsecond = 0
    · rw [ha, hb]
      exact iff_of_false (List.lt_irrefl _) (Nat.lt_irrefl _)
    · rw [if_pos ha, if_neg hb, List.nil_append, List.cons_append, List.cons_lt_cons_iff]
      exact iff_of_true (Or.inl (by decide)) (by omega)
  · by_cases hb : b.microsecond = 0
    · rw [if_neg ha, if_pos hb, List.nil_append, List.cons_append, List.cons_lt_cons_iff]
      refine iff_of_false ?_ (by omega)
      rintro (hlt | ⟨heq, -⟩)
      · exact absurd hlt (by decide)
      · exact absurd heq (by decide)
    · have hordered := orderedAs_padded a.microsecond_lt b.microsecond_lt
      rw [if_neg ha, if_neg hb, List.cons_append, List.cons_append, List.cons_lt_cons_self,
        append_lt_append_iff hordered.length, hordered.lt]
      exact or_iff_left fun h => List.lt_irrefl _ h.2

/-- **The texts are ordered as the times.** -/
theorem isoformat_lt_iff : a.isoformat < b.isoformat ↔ a.instant < b.instant := by
  have hstem := orderedAs_stem a b
  unfold isoformat
  rw [String.lt_iff_toList_lt, String.toList_ofList, String.toList_ofList,
    append_lt_append_iff hstem.length, hstem.lt, hstem.eq, tail_lt_iff]
  have ha := a.microsecond_lt
  have hb := b.microsecond_lt
  unfold instant
  omega

theorem isoformat_le_iff : a.isoformat ≤ b.isoformat ↔ a.instant ≤ b.instant := by
  rw [← not_lt, isoformat_lt_iff, not_lt]

/-! ### The order of the fields -/

/-- The fields, from the year on. -/
def fields (d : DateTime) : ℕ ×ₗ ℕ ×ₗ ℕ ×ₗ ℕ ×ₗ ℕ ×ₗ ℕ ×ₗ ℕ :=
  toLex (d.year, toLex (d.month, toLex (d.day, toLex (d.hour, toLex (d.minute,
    toLex (d.second, d.microsecond))))))

theorem fields_injective : Function.Injective fields := by
  intro a b h
  cases a
  cases b
  simpa [fields] using h

/-- `datetime` objects with one offset are compared field by field. -/
instance : LinearOrder DateTime := LinearOrder.lift' fields fields_injective

theorem instant_lt_of_lt (h : a < b) : a.instant < b.instant := by
  have hmicro := a.microsecond_lt
  have hsecond := a.second_lt
  have hminute := a.minute_lt
  have hhour := a.hour_lt
  have hday := a.day_lt
  have hmonth := a.month_le
  have hpos := b.month_pos
  have hdate : a.dateKey < b.dateKey ∨ a.dateKey = b.dateKey ∧
      (a.hour < b.hour ∨ a.hour = b.hour ∧ (a.minute < b.minute ∨ a.minute = b.minute ∧
        (a.second < b.second ∨ a.second = b.second ∧ a.microsecond < b.microsecond))) := by
    have hfields : a.fields < b.fields := h
    simp only [fields, Prod.Lex.toLex_lt_toLex] at hfields
    unfold dateKey
    omega
  unfold instant seconds
  rcases hdate with hlt | ⟨heq, htime⟩
  · have hord := toOrdinal_lt_iff.mp hlt
    omega
  · have hord : a.toOrdinal = b.toOrdinal := by
      refine le_antisymm (not_lt.mp fun hlt => ?_) (not_lt.mp fun hlt => ?_)
      · exact absurd (toOrdinal_lt_iff.mpr hlt) (by omega)
      · exact absurd (toOrdinal_lt_iff.mpr hlt) (by omega)
    omega

theorem instant_strictMono : StrictMono instant := fun _ _ h => instant_lt_of_lt h

theorem isoformat_strictMono : StrictMono isoformat := fun _ _ h =>
  isoformat_lt_iff.mpr (instant_strictMono h)

end DateTime

/-! ### What texts stand for -/

/-- `Z`, or hours and minutes that the time is ahead of UTC or behind it. -/
inductive Zone where
  | utc
  | ahead (hours minutes : Nat) (hhours : hours < 24) (hminutes : minutes < 60)
  | behind (hours minutes : Nat) (hhours : hours < 24) (hminutes : minutes < 60)

def Zone.text : Zone → List Char
  | .utc => ['Z']
  | .ahead hours minutes _ _ => '+' :: padded 2 hours ++ ':' :: padded 2 minutes
  | .behind hours minutes _ _ => '-' :: padded 2 hours ++ ':' :: padded 2 minutes

/-- What has to be taken off a local time, in minutes. -/
def Zone.minutes : Zone → Int
  | .utc => 0
  | .ahead hours minutes _ _ => hours * 60 + minutes
  | .behind hours minutes _ _ => -(hours * 60 + minutes)

/-- The fraction that digits behind a point stand for. -/
def fractionOf : List (Fin 10) → ℚ
  | [] => 0
  | d :: ds => (d + fractionOf ds) / 10

/-- A timestamp as a client may write it: a local time to the second, any number of digits behind
it, and a zone. -/
structure Stamp where
  time : DateTime
  whole : time.microsecond = 0
  digits : List (Fin 10)
  zone : Zone

def Stamp.text (t : Stamp) : String :=
  String.ofList (t.time.stem ++
    (if t.digits = [] then [] else '.' :: t.digits.map fun d => Nat.digitChar d) ++ t.zone.text)

/-- The time of a timestamp in UTC, in microseconds. -/
def Stamp.instant (t : Stamp) : ℚ :=
  t.time.instant + fractionOf t.digits * 10 ^ 6 - t.zone.minutes * (60 * 10 ^ 6)

/-- The text is a timestamp of the time. -/
def Denotes (text : String) (x : ℚ) : Prop := ∃ t : Stamp, t.text = text ∧ t.instant = x

end IsoFormat
