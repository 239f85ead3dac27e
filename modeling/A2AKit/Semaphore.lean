/-
Counting semaphores, first come first served.

`release` hands its permit on to the first who waits; who was woken has the permit, goes on at a
moment of his own, and wakes those who came in the meantime if permits are free.

* `Semaphore.Fair` — all permits are accounted for, and where somebody waits no permit is free or
  somebody is about to go on.
-/
import Mathlib.Data.List.Nodup
import Mathlib.Data.List.Perm.Basic

/-- The free permits, who waits for one, who has been woken, and who has gone on. -/
structure Semaphore (ι : Type) where
  value : Nat
  waiters : List ι := []
  woken : List ι := []
  held : List ι := []

namespace Semaphore

open scoped List

variable {ι : Type}

def locked (s : Semaphore ι) : Bool := s.value == 0 || !s.waiters.isEmpty || !s.woken.isEmpty

def acquire (s : Semaphore ι) (i : ι) : Semaphore ι :=
  if s.locked then { s with waiters := s.waiters ++ [i] }
  else { s with value := s.value - 1, held := s.held ++ [i] }

def wakeUpNext (s : Semaphore ι) : Semaphore ι :=
  match s.waiters with
  | [] => s
  | i :: rest => { s with value := s.value - 1, waiters := rest, woken := s.woken ++ [i] }

/-- `while self._value > 0`, for at most `n` who wait. -/
def wakeAll : Nat → Semaphore ι → Semaphore ι
  | 0, s => s
  | n + 1, s => if 0 < s.value then wakeAll n s.wakeUpNext else s

def release [DecidableEq ι] (s : Semaphore ι) (i : ι) : Semaphore ι :=
  wakeUpNext { s with value := s.value + 1, held := s.held.erase i }

/-- Who was woken goes on. -/
def resume [DecidableEq ι] (s : Semaphore ι) (i : ι) : Semaphore ι :=
  wakeAll s.waiters.length { s with woken := s.woken.erase i, held := s.held ++ [i] }

/-- Those who have not gone on, in the order in which they came. -/
def queue (s : Semaphore ι) : List ι := s.woken ++ s.waiters

structure Fair (capacity : Nat) (s : Semaphore ι) : Prop where
  permits : s.value + (s.woken.length + s.held.length) = capacity
  busy : s.waiters ≠ [] → s.woken = [] → s.value = 0
  distinct : (s.queue ++ s.held).Nodup

variable {capacity n : Nat} {s s' : Semaphore ι} {i j : ι}

theorem fair_new : Fair capacity ({ value := capacity } : Semaphore ι) :=
  ⟨rfl, fun h => absurd rfl h, List.nodup_nil⟩

/-! ### What an operation does -/

/-- Who asks for a permit gets one or waits. -/
theorem acquire_cases (s : Semaphore ι) (i : ι) :
    (s.locked = true ∧ s.acquire i = { s with waiters := s.waiters ++ [i] }) ∨
      (s.locked = false ∧ 0 < s.value ∧
        s.acquire i = { s with value := s.value - 1, held := s.held ++ [i] }) := by
  unfold acquire
  cases hlocked : s.locked with
  | true => exact Or.inl ⟨rfl, if_pos rfl⟩
  | false =>
    refine Or.inr ⟨rfl, ?_, if_neg Bool.false_ne_true⟩
    simp only [locked, Bool.or_eq_false_iff, beq_eq_false_iff_ne] at hlocked
    exact Nat.pos_of_ne_zero hlocked.1.1

theorem queue_acquire_locked (h : s.locked = true) :
    (s.acquire i).queue = s.queue ++ [i] ∧ (s.acquire i).held = s.held := by
  unfold acquire
  rw [if_pos h]
  exact ⟨(List.append_assoc _ _ _).symm, rfl⟩

theorem queue_acquire_free (h : s.locked = false) :
    (s.acquire i).queue = s.queue ∧ (s.acquire i).held = s.held ++ [i] := by
  unfold acquire
  rw [h]
  exact ⟨rfl, rfl⟩

/-- Permits are handed on to some of those who wait. -/
structure HandsOn (s s' : Semaphore ι) : Prop where
  permits : s'.value + s'.woken.length = s.value + s.woken.length
  held : s'.held = s.held
  queue : s'.queue = s.queue

theorem HandsOn.refl (s : Semaphore ι) : HandsOn s s := ⟨rfl, rfl, rfl⟩

theorem handsOn_wakeUpNext (hpos : 0 < s.value) : HandsOn s s.wakeUpNext := by
  unfold wakeUpNext
  split
  · exact .refl s
  · rename_i i rest hwaiters
    refine ⟨?_, rfl, ?_⟩
    · show s.value - 1 + (s.woken ++ [i]).length = _
      rw [List.length_append, List.length_singleton]
      omega
    · show s.woken ++ [i] ++ rest = s.woken ++ s.waiters
      rw [hwaiters, List.append_assoc, List.singleton_append]

theorem handsOn_wakeAll (n : Nat) (s : Semaphore ι) : HandsOn s (wakeAll n s) := by
  induction n generalizing s with
  | zero => exact .refl s
  | succ n ih =>
    unfold wakeAll
    split
    · rename_i hpos
      have hnext := handsOn_wakeUpNext hpos
      have hrest := ih s.wakeUpNext
      exact ⟨hrest.permits.trans hnext.permits, hrest.held.trans hnext.held,
        hrest.queue.trans hnext.queue⟩
    · exact .refl s

/-- Afterwards nobody waits or no permit is free. -/
theorem wakeAll_exhausts (s : Semaphore ι) :
    (wakeAll s.waiters.length s).waiters = [] ∨ (wakeAll s.waiters.length s).value = 0 := by
  generalize hn : s.waiters.length = n
  induction n generalizing s with
  | zero => exact Or.inl (List.length_eq_zero_iff.mp hn)
  | succ n ih =>
    unfold wakeAll
    split
    · refine ih _ ?_
      unfold wakeUpNext
      split
      · rename_i hwaiters
        rw [hwaiters] at hn
        cases hn
      · rename_i i rest hwaiters
        rw [hwaiters] at hn
        exact Nat.succ.inj hn
    · rename_i hpos
      exact Or.inr (Nat.eq_zero_of_not_pos hpos)

section

variable [DecidableEq ι]

theorem queue_resume (hi : i ∈ s.woken) :
    (s.resume i).queue = s.queue.erase i ∧ (s.resume i).held = s.held ++ [i] := by
  have hhands := handsOn_wakeAll s.waiters.length
    { s with woken := s.woken.erase i, held := s.held ++ [i] }
  refine ⟨hhands.queue.trans ?_, hhands.held⟩
  exact (List.erase_append_left _ hi).symm

theorem queue_release (s : Semaphore ι) (i : ι) :
    (s.release i).queue = s.queue ∧ (s.release i).held = s.held.erase i := by
  have hhands : HandsOn { s with value := s.value + 1, held := s.held.erase i } (s.release i) :=
    handsOn_wakeUpNext (Nat.succ_pos _)
  exact ⟨hhands.queue, hhands.held⟩

end

/-! ### The permits -/

namespace Fair

theorem acquire (h : Fair capacity s) (hi : i ∉ s.queue ++ s.held) : Fair capacity (s.acquire i) := by
  have hnodup : (i :: (s.queue ++ s.held)).Nodup := List.nodup_cons.mpr ⟨hi, h.distinct⟩
  rcases acquire_cases s i with ⟨hlocked, heq⟩ | ⟨hfree, hpos, heq⟩
  · obtain ⟨hqueue, hheld⟩ := queue_acquire_locked (i := i) hlocked
    refine ⟨by rw [heq]; exact h.permits, ?_, ?_⟩
    · rw [heq]
      intro _ hwoken
      by_cases hwaiters : s.waiters = []
      · have hwoken : s.woken = [] := hwoken
        simpa [locked, hwaiters, hwoken] using hlocked
      · exact h.busy hwaiters hwoken
    · rw [hqueue, hheld, List.append_assoc, List.singleton_append]
      exact List.perm_middle.nodup_iff.mpr hnodup
  · obtain ⟨hqueue, hheld⟩ := queue_acquire_free (i := i) hfree
    refine ⟨?_, ?_, ?_⟩
    · have hpermits := h.permits
      rw [heq]
      show s.value - 1 + (s.woken.length + (s.held ++ [i]).length) = capacity
      rw [List.length_append, List.length_singleton]
      omega
    · rw [heq]
      intro hwaiters hwoken
      exact absurd (h.busy hwaiters hwoken) (Nat.pos_iff_ne_zero.mp hpos)
    · rw [hqueue, hheld, ← List.append_assoc]
      exact (List.perm_append_singleton _ _).nodup_iff.mpr hnodup

variable [DecidableEq ι]

theorem resume (h : Fair capacity s) (hi : i ∈ s.woken) : Fair capacity (s.resume i) := by
  set t : Semaphore ι := { s with woken := s.woken.erase i, held := s.held ++ [i] } with ht
  have hhands : HandsOn t (s.resume i) := handsOn_wakeAll t.waiters.length t
  obtain ⟨hqueue, hheld⟩ := queue_resume hi
  refine ⟨?_, fun hwaiters _ => ?_, ?_⟩
  · have hlength : t.woken.length + 1 = s.woken.length := List.length_erase_add_one hi
    have hgone : t.held.length = s.held.length + 1 := List.length_append
    have hpermits := h.permits
    have hsame := hhands.permits
    have hvalue : t.value = s.value := rfl
    rw [hhands.held]
    omega
  · rcases wakeAll_exhausts t with hnone | hzero
    · exact absurd hnone hwaiters
    · exact hzero
  · rw [hqueue, hheld]
    have hmem : i ∈ s.queue := List.mem_append_left _ hi
    have hperm : s.queue.erase i ++ (s.held ++ [i]) ~ s.queue ++ s.held := by
      calc s.queue.erase i ++ (s.held ++ [i])
          = s.queue.erase i ++ s.held ++ [i] := (List.append_assoc _ _ _).symm
        _ ~ i :: (s.queue.erase i ++ s.held) := List.perm_append_singleton _ _
        _ ~ s.queue ++ s.held := (List.perm_cons_erase hmem).symm.append_right _
    exact hperm.nodup_iff.mpr h.distinct

theorem release (h : Fair capacity s) (hi : i ∈ s.held) : Fair capacity (s.release i) := by
  set t : Semaphore ι := { s with value := s.value + 1, held := s.held.erase i } with ht
  have hhands : HandsOn t (s.release i) := handsOn_wakeUpNext (Nat.succ_pos _)
  obtain ⟨hqueue, hheld⟩ := queue_release s i
  refine ⟨?_, ?_, ?_⟩
  · have hlength : t.held.length + 1 = s.held.length := List.length_erase_add_one hi
    have hvalue : t.value = s.value + 1 := rfl
    have hwoken : t.woken.length = s.woken.length := rfl
    have hpermits := h.permits
    have hsame := hhands.permits
    rw [hhands.held]
    omega
  · show t.wakeUpNext.waiters ≠ [] → t.wakeUpNext.woken = [] → _
    unfold wakeUpNext
    intro hwaiters hwoken
    split at hwoken
    · rename_i hnone
      rw [hnone] at hwaiters
      exact absurd hnone hwaiters
    · simp at hwoken
  · rw [hqueue, hheld]
    exact h.distinct.sublist (List.Sublist.append_left List.erase_sublist _)

end Fair

end Semaphore
