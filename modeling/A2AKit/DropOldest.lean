/-
Bounded queues that drop their oldest items.

An item goes to the end of the queue; while there is no place for it, the first item is dropped.

* `put_spec` — what a put does to the queue;
* `Accounts` — where the items are, and in which order they leave.
-/
import Mathlib.Data.List.Perm.Basic

namespace DropOldest

variable {α : Type} {x : α} {q items taken dropped queued : List α} {maxsize : Nat}

/-- The queue after a put, and what was dropped; a queue of size 0 has no bound. -/
def put (maxsize : Nat) (x : α) : List α → List α × List α
  | [] => ([x], [])
  | y :: q =>
    if 0 < maxsize ∧ maxsize ≤ (y :: q).length then
      let r := put maxsize x q
      (r.1, y :: r.2)
    else ((y :: q) ++ [x], [])

/-- What is dropped are the first items, and the new one is the last. -/
theorem put_spec (maxsize : Nat) (x : α) (q : List α) :
    ∃ rest, q = (put maxsize x q).2 ++ rest ∧ (put maxsize x q).1 = rest ++ [x] := by
  induction q with
  | nil => exact ⟨[], rfl, rfl⟩
  | cons y q ih =>
    rw [put]
    split
    · obtain ⟨rest, hq, hput⟩ := ih
      exact ⟨rest, congrArg (y :: ·) hq, hput⟩
    · exact ⟨y :: q, rfl, rfl⟩

theorem put_of_room (h : maxsize = 0 ∨ q.length < maxsize) : put maxsize x q = (q ++ [x], []) := by
  cases q with
  | nil => rfl
  | cons y q =>
    refine if_neg ?_
    omega

/-- A full queue loses its first item. -/
theorem put_of_full {y : α} (h : (y :: q).length = maxsize) :
    put maxsize x (y :: q) = (q ++ [x], [y]) := by
  have hlength : q.length + 1 = maxsize := h
  have hroom : put maxsize x q = (q ++ [x], []) := put_of_room (by omega)
  rw [put, if_pos (by rw [h]; omega), hroom]

/-- Every item is taken, dropped or queued, and items are taken in the order in which they were
put. -/
structure Accounts (items taken dropped queued : List α) : Prop where
  parts : ∃ earlier, items = earlier ++ queued ∧ taken.Sublist earlier ∧
    (taken ++ dropped).Perm earlier
  last : queued = [] → taken.getLast? = items.getLast?

namespace Accounts

theorem empty : Accounts ([] : List α) [] [] [] :=
  ⟨⟨[], rfl, List.Sublist.refl _, List.Perm.refl _⟩, fun _ => rfl⟩

theorem put (h : Accounts items taken dropped queued) (maxsize : Nat) (x : α) :
    Accounts (items ++ [x]) taken (dropped ++ (DropOldest.put maxsize x queued).2)
      (DropOldest.put maxsize x queued).1 := by
  obtain ⟨earlier, hitems, hsub, hperm⟩ := h.parts
  obtain ⟨rest, hqueued, hput⟩ := put_spec maxsize x queued
  refine ⟨⟨earlier ++ (DropOldest.put maxsize x queued).2, ?_, ?_, ?_⟩, ?_⟩
  · calc items ++ [x] = earlier ++ queued ++ [x] := by rw [hitems]
      _ = earlier ++ ((DropOldest.put maxsize x queued).2 ++ rest) ++ [x] := by rw [← hqueued]
      _ = earlier ++ (DropOldest.put maxsize x queued).2 ++ (DropOldest.put maxsize x queued).1 := by
        rw [hput]
        simp only [List.append_assoc]
  · exact hsub.trans (List.sublist_append_left _ _)
  · rw [← List.append_assoc]
    exact hperm.append_right _
  · intro hempty
    rw [hput] at hempty
    exact absurd hempty (List.append_ne_nil_of_right_ne_nil _ (List.cons_ne_nil _ _))

theorem take (h : Accounts items taken dropped (x :: queued)) :
    Accounts items (taken ++ [x]) dropped queued := by
  obtain ⟨earlier, hitems, hsub, hperm⟩ := h.parts
  refine ⟨⟨earlier ++ [x], ?_, hsub.append (List.Sublist.refl _), ?_⟩, ?_⟩
  · rw [hitems, List.append_assoc]
    rfl
  · have hswap : (taken ++ [x] ++ dropped).Perm (taken ++ dropped ++ [x]) := by
      rw [List.append_assoc, List.append_assoc]
      exact List.perm_append_comm.append_left _
    exact hswap.trans (hperm.append_right _)
  · rintro rfl
    rw [hitems, List.getLast?_append, List.getLast?_append]
    rfl

theorem sublist (h : Accounts items taken dropped queued) : taken.Sublist items := by
  obtain ⟨earlier, rfl, hsub, -⟩ := h.parts
  exact hsub.trans (List.sublist_append_left _ _)

theorem perm (h : Accounts items taken dropped queued) :
    (taken ++ dropped ++ queued).Perm items := by
  obtain ⟨earlier, rfl, -, hperm⟩ := h.parts
  exact hperm.append_right _

end Accounts

end DropOldest
