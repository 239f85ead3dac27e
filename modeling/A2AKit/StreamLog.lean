/-
Append-only logs whose ids increase.

The ids of a log form a linear order and increase strictly along it; readers hold a
position and ask for what is newer.  `newer p l` is what lies behind the position
`p`, `between p q l` what lies behind `p` up to and including `q`.

* `between_append_newer` — a log behind `p`, cut at a later position;
* `newer_of_cons` — reading one entry moves the position by one entry;
* `between_concat` and `newer_concat` — an entry is added at the end.
-/
import Mathlib.Order.Lattice
import Mathlib.Data.List.Basic
import Mathlib.Data.List.Infix
import Mathlib.Data.List.Nodup

/-- An entry of a stream: its id and its payload. -/
structure StreamEntry (ι δ : Type) where
  id : ι
  data : δ
  deriving DecidableEq, Repr

namespace StreamLog

variable {ι δ : Type} [LinearOrder ι]

/-- The ids increase strictly. -/
def Increasing (l : List (StreamEntry ι δ)) : Prop := l.Pairwise fun e e' => e.id < e'.id

/-- `id` is greater than every id of the log. -/
def Fresh (l : List (StreamEntry ι δ)) (id : ι) : Prop := ∀ e ∈ l, e.id < id

instance (l : List (StreamEntry ι δ)) (id : ι) : Decidable (Fresh l id) :=
  inferInstanceAs (Decidable (∀ e ∈ l, e.id < id))

def newer (p : ι) (l : List (StreamEntry ι δ)) : List (StreamEntry ι δ) :=
  l.filter fun e => decide (p < e.id)

def between (p q : ι) (l : List (StreamEntry ι δ)) : List (StreamEntry ι δ) :=
  l.filter fun e => decide (p < e.id ∧ e.id ≤ q)

variable {l : List (StreamEntry ι δ)} {e : StreamEntry ι δ} {p q : ι}

theorem Increasing.concat (h : Increasing l) (hid : Fresh l e.id) : Increasing (l ++ [e]) := by
  refine List.pairwise_append.mpr ⟨h, List.pairwise_singleton _ _, fun a ha b hb => ?_⟩
  rw [List.mem_singleton.mp hb]
  exact hid a ha

/-- Ids are unique in a log. -/
theorem Increasing.eq_of_id {a b : StreamEntry ι δ} (h : Increasing l) (ha : a ∈ l) (hb : b ∈ l)
    (hid : a.id = b.id) : a = b := by
  have hnodup : (l.map (·.id)).Nodup := List.pairwise_map.mpr (h.imp fun hlt => ne_of_lt hlt)
  exact List.inj_on_of_nodup_map hnodup ha hb hid

theorem mem_newer {a : StreamEntry ι δ} : a ∈ newer p l ↔ a ∈ l ∧ p < a.id := by
  simp [newer]

/-- Nothing lies between a position and itself. -/
theorem between_self (p : ι) (l : List (StreamEntry ι δ)) : between p p l = [] := by
  rw [between, List.filter_eq_nil_iff]
  intro a _
  simp

theorem newer_append (p : ι) (l l' : List (StreamEntry ι δ)) :
    newer p (l ++ l') = newer p l ++ newer p l' :=
  List.filter_append _ _

/-- What was newer stays where it was when entries are added. -/
theorem newer_mono (p : ι) (l l' : List (StreamEntry ι δ)) :
    newer p l <+: newer p (l ++ l') := by
  rw [newer_append]
  exact List.prefix_append _ _

/-- An entry behind the position `q` is not between two positions up to `q`. -/
theorem between_concat (h : q < e.id ∨ q ≤ p) : between p q (l ++ [e]) = between p q l := by
  have hout : ¬(p < e.id ∧ e.id ≤ q) := by
    rintro ⟨hp, hq⟩
    rcases h with h | h
    · exact absurd (lt_of_lt_of_le h hq) (lt_irrefl _)
    · exact absurd (lt_of_lt_of_le hp hq) (not_lt.mpr h)
  rw [between, List.filter_append, List.filter_singleton, decide_eq_false hout]
  exact List.append_nil _

/-- A log behind `p` is what lies up to `q` and what lies behind `q`. -/
theorem between_append_newer (h : Increasing l) (hpq : p ≤ q) :
    between p q l ++ newer q l = newer p l := by
  induction l with
  | nil => rfl
  | cons a l ih =>
    have hl := List.pairwise_cons.mp h
    have hrest := ih hl.2
    by_cases hp : p < a.id
    · by_cases hq : a.id ≤ q
      · rw [between, newer, newer, List.filter_cons_of_pos (by simpa using ⟨hp, hq⟩),
          List.filter_cons_of_neg (by simpa using hq), List.filter_cons_of_pos (by simpa using hp)]
        exact congrArg (a :: ·) hrest
      · -- everything after `a` is behind `q` as well, so nothing lies in between
        have hnil : between p q l = [] := by
          rw [between, List.filter_eq_nil_iff]
          intro b hb hmem
          have hb' := (of_decide_eq_true hmem).2
          exact hq (le_trans (le_of_lt (hl.1 b hb)) hb')
        have hrest' : newer q l = newer p l := by rw [← hrest, hnil, List.nil_append]
        rw [between, newer, newer, List.filter_cons_of_neg (by simp [hq]),
          List.filter_cons_of_pos (by simpa using hq), List.filter_cons_of_pos (by simpa using hp)]
        rw [show l.filter (fun e => decide (p < e.id ∧ e.id ≤ q)) = [] from hnil, List.nil_append]
        exact congrArg (a :: ·) hrest'
    · have hq : ¬q < a.id := fun hq => hp (lt_of_le_of_lt hpq hq)
      rw [between, newer, newer, List.filter_cons_of_neg (by simp [hp]),
        List.filter_cons_of_neg (by simpa using hq), List.filter_cons_of_neg (by simpa using hp)]
      exact hrest

/-- Reading the first newer entry moves the position to it. -/
theorem newer_of_cons {rest : List (StreamEntry ι δ)} (h : Increasing l)
    (hcons : newer p l = e :: rest) : newer e.id l = rest := by
  have he : p < e.id := (mem_newer.mp (hcons ▸ List.mem_cons_self)).2
  have hsplit := between_append_newer h (le_of_lt he)
  have hinc : Increasing (newer p l) := h.sublist List.filter_sublist
  rw [hcons] at hinc hsplit
  have hrest : ∀ b ∈ rest, e.id < b.id := (List.pairwise_cons.mp hinc).1
  have hfilter : newer e.id (newer p l) = newer e.id l := by
    rw [newer, newer, newer, List.filter_filter]
    refine List.filter_congr fun b _ => ?_
    by_cases hb : e.id < b.id
    · simp [hb, lt_trans he hb]
    · simp [hb]
  rw [← hfilter, hcons, newer, List.filter_cons_of_neg (by simp)]
  exact List.filter_eq_self.mpr fun b hb => by simpa using hrest b hb

theorem length_newer_mono (hpq : p ≤ q) (l : List (StreamEntry ι δ)) :
    (newer q l).length ≤ (newer p l).length := by
  rw [newer, newer, ← List.countP_eq_length_filter, ← List.countP_eq_length_filter]
  refine List.countP_mono_left fun e _ he => ?_
  exact decide_eq_true (lt_of_le_of_lt hpq (of_decide_eq_true he))

/-- What lies up to the first newer entry. -/
theorem between_of_cons {rest : List (StreamEntry ι δ)} {s : ι} (h : Increasing l) (hsp : s ≤ p)
    (hcons : newer p l = e :: rest) : between s e.id l = between s p l ++ [e] := by
  have he : p < e.id := (mem_newer.mp (hcons ▸ List.mem_cons_self)).2
  have h₁ := between_append_newer h hsp
  have h₂ := between_append_newer h (le_trans hsp (le_of_lt he))
  rw [newer_of_cons h hcons] at h₂
  rw [hcons, ← h₂, ← List.singleton_append, ← List.append_assoc] at h₁
  exact (List.append_cancel_right h₁).symm

end StreamLog
