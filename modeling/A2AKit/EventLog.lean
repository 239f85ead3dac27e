/-
Logs with consecutive ids.

`numbered l` gives the events of `l` the ids 1, 2, 3, …; consumers of such a log
hold segments of it: a ring buffer is a suffix, a queue is what lies between two
positions.  `untilFirst p l` is `l` up to and including its first element with `p`.

* `filter_drop_numbered` — the entries of a suffix that are newer than `k`;
* `prefix_untilFirst`, `untilFirst_eq_concat` — when a prefix of a log is what comes
  before its end, respectively all of it.
-/
import Mathlib.Data.List.Basic
import Mathlib.Data.List.Infix

/-- An event with its id. -/
structure LogEntry (ε : Type) where
  id : Nat
  event : ε
  deriving DecidableEq, Repr

section Numbered

variable {ε : Type}

def numbered (l : List ε) : List (LogEntry ε) := l.mapIdx fun i e => ⟨i + 1, e⟩

@[simp] theorem length_numbered (l : List ε) : (numbered l).length = l.length := by
  simp [numbered]

theorem numbered_concat (l : List ε) (e : ε) :
    numbered (l ++ [e]) = numbered l ++ [⟨l.length + 1, e⟩] := by
  simp [numbered, List.mapIdx_concat]

theorem map_event_numbered (l : List ε) : (numbered l).map LogEntry.event = l := by
  induction l using List.reverseRecOn with
  | nil => rfl
  | append_singleton l e ih => rw [numbered_concat, List.map_append, ih, List.map_singleton]

theorem id_of_getElem? {l : List ε} {i : Nat} {e : LogEntry ε} (h : (numbered l)[i]? = some e) :
    e.id = i + 1 := by
  rw [numbered, List.getElem?_mapIdx, Option.map_eq_some_iff] at h
  obtain ⟨x, -, rfl⟩ := h
  rfl

theorem lt_id_of_mem_drop {l : List ε} {j : Nat} {e : LogEntry ε} (h : e ∈ (numbered l).drop j) :
    j < e.id ∧ e.id ≤ l.length := by
  obtain ⟨i, hi⟩ := List.mem_iff_getElem?.mp h
  rw [List.getElem?_drop] at hi
  have hid := id_of_getElem? hi
  have hlt := (List.getElem?_eq_some_iff.mp hi).1
  rw [length_numbered] at hlt
  omega

theorem id_of_drop_eq_cons {l : List ε} {j : Nat} {e : LogEntry ε} {es : List (LogEntry ε)}
    (h : (numbered l).drop j = e :: es) : e.id = j + 1 := by
  have hi : ((numbered l).drop j)[0]? = some e := by rw [h]; rfl
  rw [List.getElem?_drop] at hi
  exact id_of_getElem? hi

/-- The entries of a suffix that are newer than `k`. -/
theorem filter_drop_numbered (l : List ε) (j k : Nat) :
    ((numbered l).drop j).filter (fun e => decide (k < e.id)) = (numbered l).drop (max j k) := by
  induction hn : l.length - j generalizing j with
  | zero =>
    have hlen : (numbered l).length ≤ j := by
      rw [length_numbered]
      omega
    rw [List.drop_eq_nil_of_le hlen, List.drop_eq_nil_of_le (by omega)]
    rfl
  | succ n ih =>
    have hlt : j < (numbered l).length := by
      rw [length_numbered]
      omega
    have hcons := List.drop_eq_getElem_cons hlt
    have hid := id_of_drop_eq_cons hcons
    rw [hcons, List.filter_cons, ih (j + 1) (by omega)]
    by_cases hk : k < j + 1
    · have hmax : max (j + 1) k = j + 1 := by omega
      have hmax' : max j k = j := by omega
      rw [if_pos (by rw [hid]; exact decide_eq_true hk), hmax, hmax', hcons]
    · have hmax : max (j + 1) k = max j k := by omega
      rw [if_neg (by rw [hid]; simpa using hk), hmax]

end Numbered

section Until

variable {α : Type} (p : α → Bool)

/-- `l` up to and including its first element with `p`. -/
def untilFirst : List α → List α
  | [] => []
  | a :: l => if p a then [a] else a :: untilFirst l

theorem untilFirst_of_forall {l : List α} (h : ∀ a ∈ l, p a = false) : untilFirst p l = l := by
  induction l with
  | nil => rfl
  | cons a l ih =>
    rw [List.forall_mem_cons] at h
    rw [untilFirst, h.1, ih h.2]
    rfl

theorem untilFirst_isPrefix (l : List α) : untilFirst p l <+: l := by
  induction l with
  | nil => exact List.nil_prefix
  | cons a l ih =>
    rw [untilFirst]
    split
    · exact ⟨l, rfl⟩
    · exact List.cons_prefix_cons.mpr ⟨rfl, ih⟩

theorem untilFirst_map {β : Type} (f : β → α) (l : List β) :
    untilFirst p (l.map f) = (untilFirst (p ∘ f) l).map f := by
  induction l with
  | nil => rfl
  | cons b l ih =>
    rw [List.map_cons, untilFirst, untilFirst, Function.comp_apply]
    split
    · rfl
    · rw [ih, List.map_cons]

theorem untilFirst_append {l : List α} (l' : List α) (h : ∀ a ∈ l, p a = false) :
    untilFirst p (l ++ l') = l ++ untilFirst p l' := by
  induction l with
  | nil => rfl
  | cons a l ih =>
    rw [List.forall_mem_cons] at h
    rw [List.cons_append, untilFirst, h.1, ih h.2]
    rfl

/-- A prefix without an end lies before the end. -/
theorem prefix_untilFirst {l l' : List α} (hpre : l <+: l') (h : ∀ a ∈ l, p a = false) :
    l <+: untilFirst p l' := by
  obtain ⟨l'', rfl⟩ := hpre
  rw [untilFirst_append p l'' h]
  exact List.prefix_append _ _

/-- The first end of a prefix is the first end. -/
theorem untilFirst_mono {l l' : List α} (hpre : l <+: l') : untilFirst p l <+: untilFirst p l' := by
  obtain ⟨r, rfl⟩ := hpre
  induction l with
  | nil => exact List.nil_prefix
  | cons a l ih =>
    rw [List.cons_append, untilFirst, untilFirst]
    split
    · exact List.prefix_rfl
    · exact (List.cons_prefix_cons).mpr ⟨rfl, ih⟩

/-- A prefix that ends with the end is everything up to it. -/
theorem untilFirst_eq_concat {l l' : List α} {a : α} (hpre : l ++ [a] <+: l')
    (h : ∀ a ∈ l, p a = false) (ha : p a = true) : untilFirst p l' = l ++ [a] := by
  obtain ⟨l'', rfl⟩ := hpre
  rw [List.append_assoc, untilFirst_append p _ h, List.singleton_append, untilFirst, if_pos ha]

end Until

/-- A first part of a log and what lies behind `n` entries make up the log if `n` is where the first
part ends. -/
theorem append_drop_iff {α : Type} {l seen all : List α} {n : Nat} (hseen : seen <+: all)
    (hn : n ≤ (l ++ all).length) :
    seen ++ (l ++ all).drop n = all ↔ n = l.length + seen.length := by
  obtain ⟨rest, rfl⟩ := hseen
  constructor
  · intro h
    have hlength := congrArg List.length h
    simp only [List.length_append, List.length_drop] at hlength hn
    omega
  · rintro rfl
    rw [← List.append_assoc l, ← List.length_append, List.drop_left]

/-- An element of a log that has grown is the new one, or was there before. -/
theorem append_concat_eq {α : Type} {l before after : List α} {a b : α}
    (h : l ++ [a] = before ++ b :: after) :
    (after = [] ∧ before = l ∧ b = a) ∨
      ∃ after', after = after' ++ [a] ∧ l = before ++ b :: after' := by
  rcases List.eq_nil_or_concat after with rfl | ⟨after', a', rfl⟩
  · obtain ⟨rfl, hab⟩ := List.append_inj' h rfl
    exact Or.inl ⟨rfl, rfl, (List.singleton_inj.mp hab).symm⟩
  · have h' : l ++ [a] = (before ++ b :: after') ++ [a'] := by simpa using h
    obtain ⟨rfl, hab⟩ := List.append_inj' h' rfl
    exact Or.inr ⟨after', by simp [List.singleton_inj.mp hab], rfl⟩
