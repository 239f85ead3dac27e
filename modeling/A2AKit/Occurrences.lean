/-
First occurrences in a list.

A loop that skips what it has seen visits the elements of a list in the order of their first
occurrences.  A loop over the reversed list goes by the last occurrences instead.

* `firsts_pairwise` — the elements come in the order of their first occurrences;
* `firsts_reverse_iff` — the two loops visit the elements in opposite orders if and only if no
  element encloses another one.
-/
import Mathlib.Data.List.Basic
import Mathlib.Data.List.Nodup
import Mathlib.Data.List.Pairwise
import Mathlib.Data.List.Perm.Basic

namespace Occurrences

variable {α : Type} [DecidableEq α]

/-- What a loop visits that skips what is in `seen`. -/
def firstsFrom (seen : List α) : List α → List α
  | [] => []
  | a :: l => if a ∈ seen then firstsFrom seen l else a :: firstsFrom (a :: seen) l

/-- The elements of a list, each where it occurs first. -/
def firsts (l : List α) : List α := firstsFrom [] l

/-- `a` occurs before the first and after the last occurrence of `b`. -/
def Encloses (l : List α) (a b : α) : Prop :=
  ∃ l₁ l₂ l₃, l = l₁ ++ a :: l₂ ++ a :: l₃ ∧ b ∈ l₂ ∧ b ∉ l₁ ∧ b ∉ l₃ ∧ a ≠ b

variable {seen l : List α} {a b : α}

theorem mem_firstsFrom : a ∈ firstsFrom seen l ↔ a ∈ l ∧ a ∉ seen := by
  induction l generalizing seen with
  | nil => simp [firstsFrom]
  | cons c l ih =>
    rw [firstsFrom]
    split
    · rename_i hc
      rw [ih, List.mem_cons]
      constructor
      · rintro ⟨ha, hseen⟩
        exact ⟨Or.inr ha, hseen⟩
      · rintro ⟨rfl | ha, hseen⟩
        · exact absurd hc hseen
        · exact ⟨ha, hseen⟩
    · rename_i hc
      rw [List.mem_cons, ih, List.mem_cons, List.mem_cons]
      constructor
      · rintro (rfl | ⟨ha, hseen⟩)
        · exact ⟨Or.inl rfl, hc⟩
        · exact ⟨Or.inr ha, fun h => hseen (Or.inr h)⟩
      · rintro ⟨ha, hseen⟩
        by_cases hac : a = c
        · exact Or.inl hac
        · exact Or.inr ⟨ha.resolve_left hac, fun h => h.elim hac hseen⟩

theorem mem_firsts : a ∈ firsts l ↔ a ∈ l := by
  rw [firsts, mem_firstsFrom]
  exact and_iff_left List.not_mem_nil

/-- **The elements come in the order of their first occurrences.** -/
theorem firstsFrom_pairwise :
    (firstsFrom seen l).Pairwise fun a b => l.idxOf a < l.idxOf b := by
  induction l generalizing seen with
  | nil => exact List.Pairwise.nil
  | cons c l ih =>
    have hshift : ∀ x, x ≠ c → (c :: l).idxOf x = l.idxOf x + 1 := fun x hx =>
      List.idxOf_cons_ne _ (Ne.symm hx)
    rw [firstsFrom]
    split
    · rename_i hc
      refine ih.imp_of_mem fun {a b} ha hb hab => ?_
      have hne : ∀ x ∈ firstsFrom seen l, x ≠ c := by
        rintro x hx rfl
        exact (mem_firstsFrom.mp hx).2 hc
      rw [hshift a (hne a ha), hshift b (hne b hb)]
      omega
    · have hne : ∀ x ∈ firstsFrom (c :: seen) l, x ≠ c := by
        rintro x hx rfl
        exact (mem_firstsFrom.mp hx).2 List.mem_cons_self
      refine List.Pairwise.cons (fun b hb => ?_) (ih.imp_of_mem fun {a b} ha hb hab => ?_)
      · rw [hshift b (hne b hb), List.idxOf_cons_self]
        omega
      · rw [hshift a (hne a ha), hshift b (hne b hb)]
        omega

theorem firsts_pairwise : (firsts l).Pairwise fun a b => l.idxOf a < l.idxOf b :=
  firstsFrom_pairwise

theorem firsts_nodup : (firsts l).Nodup :=
  firsts_pairwise.imp fun hab heq => by
    rw [heq] at hab
    exact Nat.lt_irrefl _ hab

/-- An element that encloses another one comes first from either end. -/
theorem Encloses.idxOf_lt (h : Encloses l a b) :
    l.idxOf a < l.idxOf b ∧ l.reverse.idxOf a < l.reverse.idxOf b := by
  obtain ⟨l₁, l₂, l₃, rfl, hb, hb₁, hb₃, hne⟩ := h
  have hfirst : ∀ m₁ m₂ : List α, b ∉ m₁ → (m₁ ++ a :: m₂).idxOf a < (m₁ ++ a :: m₂).idxOf b := by
    intro m₁ m₂ hm
    rw [List.idxOf_append, List.idxOf_append, if_neg hm, List.idxOf_cons_ne _ hne,
      List.idxOf_cons_self]
    split
    · rename_i ha
      have hlt := List.idxOf_lt_length_of_mem ha
      omega
    · omega
  constructor
  · rw [List.append_assoc, List.cons_append]
    exact hfirst _ _ hb₁
  · have hreverse : (l₁ ++ a :: l₂ ++ a :: l₃).reverse =
        l₃.reverse ++ a :: (l₂.reverse ++ a :: l₁.reverse) := by simp
    rw [hreverse]
    refine hfirst _ _ fun hmem => hb₃ ?_
    exact List.mem_reverse.mp hmem

/-- What comes after the first `a` does not stand before it. -/
theorem not_mem_of_idxOf_lt {l₁ l₂ : List α} (ha : a ∉ l₁)
    (hlt : (l₁ ++ a :: l₂).idxOf a < (l₁ ++ a :: l₂).idxOf b) : b ∉ l₁ := by
  intro hb
  have hpos := List.idxOf_lt_length_of_mem hb
  rw [List.idxOf_append, List.idxOf_append, if_neg ha, if_pos hb] at hlt
  omega

/-- An element that comes before another one from either end encloses it. -/
theorem encloses_of_lt (ha : a ∈ l) (hb : b ∈ l) (hfirst : l.idxOf a < l.idxOf b)
    (hlast : l.reverse.idxOf a < l.reverse.idxOf b) : Encloses l a b := by
  have hne : a ≠ b := by
    rintro rfl
    exact Nat.lt_irrefl _ hfirst
  obtain ⟨l₁, r, rfl, ha₁⟩ := List.eq_append_cons_of_mem ha
  have hb₁ : b ∉ l₁ := not_mem_of_idxOf_lt ha₁ hfirst
  have hbr : b ∈ r := by
    have hrest := (List.mem_append.mp hb).resolve_left hb₁
    exact (List.mem_cons.mp hrest).resolve_left (Ne.symm hne)
  have hreverse : (l₁ ++ a :: r).reverse = r.reverse ++ a :: l₁.reverse := by simp
  rw [hreverse] at hlast
  -- a second `a` stands behind `b`
  have har : a ∈ r.reverse := by
    by_contra har
    exact not_mem_of_idxOf_lt har hlast (List.mem_reverse.mpr hbr)
  obtain ⟨m₁, m₂, hm, ha₃⟩ := List.eq_append_cons_of_mem har
  have hr : r = m₂.reverse ++ a :: m₁.reverse := by
    rw [← List.reverse_reverse r, hm]
    simp
  rw [hm, List.append_assoc, List.cons_append] at hlast
  have hb₃ : b ∉ m₁ := not_mem_of_idxOf_lt ha₃ hlast
  refine ⟨l₁, m₂.reverse, m₁.reverse, ?_, ?_, hb₁, fun h => hb₃ (List.mem_reverse.mp h), hne⟩
  · rw [hr, List.append_assoc, List.cons_append]
  · rw [hr] at hbr
    rcases List.mem_append.mp hbr with hb₂ | hb₂
    · exact hb₂
    · rcases List.mem_cons.mp hb₂ with heq | hb₂
      · exact absurd heq.symm hne
      · exact absurd (List.mem_reverse.mp hb₂) hb₃

/-- A loop from the other end visits the same elements. -/
theorem firsts_reverse_perm : (firsts l.reverse).Perm (firsts l).reverse := by
  refine (List.perm_ext_iff_of_nodup firsts_nodup (List.nodup_reverse.mpr firsts_nodup)).mpr ?_
  intro x
  rw [List.mem_reverse, mem_firsts, mem_firsts, List.mem_reverse]

/-- **A loop from the other end visits the elements in the opposite order if and only if no element
encloses another one.** -/
theorem firsts_reverse_iff :
    firsts l.reverse = (firsts l).reverse ↔ ¬ ∃ a b, Encloses l a b := by
  constructor
  · rintro heq ⟨a, b, henc⟩
    obtain ⟨hfirst, hlast⟩ := henc.idxOf_lt
    obtain ⟨l₁, l₂, l₃, hl, hb₂, hb₁, hb₃, hne⟩ := henc
    have ha : a ∈ firsts l := mem_firsts.mpr (by simp [hl])
    have hb : b ∈ firsts l := mem_firsts.mpr (by simp [hl, hb₂])
    have hforth := firsts_pairwise (l := l)
    have hback := firsts_pairwise (l := l.reverse)
    rw [heq, List.pairwise_reverse] at hback
    -- no two elements come in one order from either end
    have hboth := hforth.and hback
    have hopposite : ∀ ⦃x⦄, x ∈ firsts l → ∀ ⦃y⦄, y ∈ firsts l →
        l.idxOf x < l.idxOf y → ¬ l.reverse.idxOf x < l.reverse.idxOf y := by
      refine List.Pairwise.forall_of_forall_of_flip (fun x _ h => ?_) (hboth.imp fun h _ => ?_)
        (hboth.imp fun h h' => ?_)
      · exact absurd h (Nat.lt_irrefl _)
      · omega
      · omega
    exact hopposite ha hb hfirst hlast
  · intro hnone
    have hforth : (firsts l.reverse).Pairwise
        fun a b => l.reverse.idxOf a < l.reverse.idxOf b := firsts_pairwise
    refine List.Perm.eq_of_pairwise ?_ hforth ?_ ?_
    · intro a b _ _ hab hba
      omega
    · rw [List.pairwise_reverse]
      refine firsts_pairwise.imp_of_mem fun {a b} ha hb hab => ?_
      by_contra hge
      have hmemA := mem_firsts.mp ha
      have hmemB := mem_firsts.mp hb
      have hne : l.reverse.idxOf a ≠ l.reverse.idxOf b := by
        intro heq
        rw [(List.idxOf_inj (List.mem_reverse.mpr hmemA)).mp heq] at hab
        exact Nat.lt_irrefl _ hab
      exact hnone ⟨a, b, encloses_of_lt hmemA hmemB hab (by omega)⟩
    · exact firsts_reverse_perm

end Occurrences
