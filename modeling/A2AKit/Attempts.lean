/-
Trying again, and trying the next one.

* `Attempts.loop_ends`, `Attempts.Ends.unique` — what a loop over attempts comes to: the first
  attempt that succeeds or fails for good, and the last one that is allowed otherwise;
* `Attempts.findIdx?_eq_iff` — two tests choose the same element of a list if and only if they agree
  on every element before which there is none to choose.
-/
import Mathlib.Data.List.Basic

namespace Attempts

variable {ε α : Type}

/-- At most `left` more attempts after attempt `i`, as long as they fail with an error that is to be
tried `again`: the number of the last attempt, and its result. -/
def loop (again : ε → Bool) (call : Nat → Except ε α) : Nat → Nat → Nat × Except ε α
  | 0, i => (i, call i)
  | left + 1, i =>
    match call i with
    | .ok a => (i, .ok a)
    | .error e => if again e then loop again call left (i + 1) else (i, .error e)

/-- Attempt `k` is the last one, with this result, and no more than `limit` came before it. -/
structure Ends (again : ε → Bool) (call : Nat → Except ε α) (limit k : Nat) (result : Except ε α) :
    Prop where
  bound : k ≤ limit
  before : ∀ i < k, ∃ e, call i = .error e ∧ again e = true
  last : call k = result
  stops : ∀ e, result = .error e → again e = true → k = limit

variable {again : ε → Bool} {call : Nat → Except ε α} {limit k k' : Nat} {result result' : Except ε α}

theorem loop_ends_from (left i : Nat) (hi : i + left = limit)
    (hbefore : ∀ j < i, ∃ e, call j = .error e ∧ again e = true) :
    Ends again call limit (loop again call left i).1 (loop again call left i).2 := by
  induction left generalizing i with
  | zero => exact ⟨by show i ≤ limit; omega, hbefore, rfl, fun _ _ _ => hi⟩
  | succ left ih =>
    unfold loop
    split
    · rename_i a ha
      exact ⟨by omega, hbefore, ha, nofun⟩
    · rename_i e he
      split
      · rename_i hagain
        refine ih (i + 1) (by omega) fun j hj => ?_
        rcases Nat.lt_succ_iff_lt_or_eq.mp hj with hj | rfl
        · exact hbefore j hj
        · exact ⟨e, he, hagain⟩
      · rename_i hstop
        refine ⟨by omega, hbefore, he, fun e' he' hagain => ?_⟩
        obtain rfl := Except.error.inj he'
        exact absurd hagain hstop

theorem loop_ends (again : ε → Bool) (call : Nat → Except ε α) (limit : Nat) :
    Ends again call limit (loop again call limit 0).1 (loop again call limit 0).2 :=
  loop_ends_from limit 0 (Nat.zero_add limit) fun _ hj => absurd hj (Nat.not_lt_zero _)

/-- The attempts end in one way only. -/
theorem Ends.unique (h : Ends again call limit k result) (h' : Ends again call limit k' result') :
    k = k' ∧ result = result' := by
  have hnot : ∀ {k k' result}, Ends again call limit k result →
      (∀ i < k', ∃ e, call i = .error e ∧ again e = true) → k' ≤ limit → ¬ k < k' := by
    intro k k' result h hbefore hbound hlt
    obtain ⟨e, he, hagain⟩ := hbefore k hlt
    have := h.stops e (h.last.symm.trans he) hagain
    omega
  have hk : k = k' := Nat.le_antisymm (Nat.not_lt.mp (hnot h' h.before h.bound))
    (Nat.not_lt.mp (hnot h h'.before h'.bound))
  subst hk
  exact ⟨rfl, h.last.symm.trans h'.last⟩

/-- Two tests choose alike if they agree wherever the choice is still open. -/
theorem findIdx?_eq_iff {β : Type} {p q : β → Bool} {l : List β} :
    l.findIdx? p = l.findIdx? q ↔
      ∀ (i : Nat) (b : β), l[i]? = some b → (∀ j < i, ∀ c, l[j]? = some c → q c = false) →
        p b = q b := by
  -- the head is index `0`, and no index of the rest is
  have hhead : ∀ x : Option Nat, some 0 ≠ x.map (· + 1) := by
    intro x hx
    cases x <;> simp at hx
  induction l with
  | nil => exact iff_of_true rfl nofun
  | cons a rest ih =>
    rw [List.findIdx?_cons, List.findIdx?_cons]
    constructor
    · intro heq i b hb hopen
      cases i with
      | zero =>
        obtain rfl := Option.some_inj.mp hb
        by_cases hp : p a = true <;> by_cases hq : q a = true
        · rw [hp, hq]
        · rw [if_pos hp, if_neg hq] at heq
          exact absurd heq (hhead _)
        · rw [if_neg hp, if_pos hq] at heq
          exact absurd heq.symm (hhead _)
        · rw [Bool.eq_false_iff.mpr hp, Bool.eq_false_iff.mpr hq]
      | succ i =>
        have hqa : q a = false := hopen 0 (Nat.succ_pos i) a rfl
        have hrest : rest.findIdx? p = rest.findIdx? q := by
          rw [if_neg (Bool.eq_false_iff.mp hqa)] at heq
          by_cases hp : p a = true
          · rw [if_pos hp] at heq
            exact absurd heq (hhead _)
          · rw [if_neg hp] at heq
            exact Option.map_inj_right (fun _ _ => Nat.succ.inj) |>.mp heq
        exact ih.mp hrest i b hb fun j hj c hc => hopen (j + 1) (Nat.succ_lt_succ hj) c hc
    · intro hagree
      have ha : p a = q a := hagree 0 a rfl fun j hj => absurd hj (Nat.not_lt_zero j)
      cases hq : q a with
      | true => rw [ha, hq, if_pos rfl, if_pos rfl]
      | false =>
        rw [ha, hq, ih.mpr fun i b hb hopen => hagree (i + 1) b hb fun j hj c hc => ?_]
        cases j with
        | zero =>
          cases hc
          exact hq
        | succ j => exact hopen j (Nat.lt_of_succ_lt_succ hj) c hc

end Attempts
