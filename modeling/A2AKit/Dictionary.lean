/-
Dictionaries that keep the order of insertion.

A dictionary is an association list with distinct keys.  A key that is set anew goes to the end,
and one that is there keeps its place, so that the entries stand in the order in which a scan of
the values goes through them.

* `lookup_set`, `lookup_eraseAll` — what is looked up after a change;
* `mem_keysWhere`, `nodup_keysWhere` — the keys whose values have a property;
* `isSome_find_values` — whether a scan of the values finds one that has it;
-/
import Mathlib.Data.List.AList
import Mathlib.Data.List.Perm.Basic

namespace A2AKit

abbrev Dictionary (α β : Type) := AList fun _ : α => β

namespace Dictionary

variable {α β : Type} [DecidableEq α]

/-- `d[a] = b` -/
def set (d : Dictionary α β) (a : α) (b : β) : Dictionary α β :=
  if a ∈ d then d.replace a b else d ∪ AList.singleton a b

/-- `d.values()` -/
def values (d : Dictionary α β) : List β := d.entries.map Sigma.snd

/-- The keys, in order, whose values pass a test. -/
def keysWhere (d : Dictionary α β) (p : β → Bool) : List α :=
  (d.entries.filter fun e => p e.2).map Sigma.fst

/-- `for a in keys: d.pop(a, None)` -/
def eraseAll (d : Dictionary α β) (keys : List α) : Dictionary α β :=
  keys.foldl (fun d a => d.erase a) d

theorem dlookup_kreplace {a x : α} {b : β} (l : List (Sigma fun _ : α => β))
    (ha : a ∈ l.keys) :
    (List.kreplace a b l).dlookup x = if x = a then some b else l.dlookup x := by
  induction l with
  | nil => exact nomatch ha
  | cons e l ih =>
    obtain ⟨k, v⟩ := e
    by_cases hk : a = k
    · subst hk
      have hhead : List.kreplace a b (⟨a, v⟩ :: l) = ⟨a, b⟩ :: l := by
        simp [List.kreplace]
      rw [hhead]
      by_cases hx : x = a
      · subst hx
        rw [if_pos rfl, List.dlookup_cons_eq]
      · rw [if_neg hx, List.dlookup_cons_ne _ _ hx, List.dlookup_cons_ne _ _ hx]
    · have htail : List.kreplace a b (⟨k, v⟩ :: l) = ⟨k, v⟩ :: List.kreplace a b l := by
        simp [List.kreplace, hk]
      have hmem : a ∈ l.keys := by
        rw [List.keys_cons, List.mem_cons] at ha
        exact ha.resolve_left hk
      rw [htail]
      by_cases hx : x = k
      · subst hx
        rw [if_neg (Ne.symm hk), List.dlookup_cons_eq, List.dlookup_cons_eq]
      · rw [List.dlookup_cons_ne _ _ hx, List.dlookup_cons_ne _ _ hx, ih hmem]

theorem lookup_set (d : Dictionary α β) (a : α) (b : β) (x : α) :
    (set d a b).lookup x = if x = a then some b else d.lookup x := by
  unfold set
  by_cases ha : a ∈ d
  · rw [if_pos ha]
    exact dlookup_kreplace d.entries ha
  · rw [if_neg ha]
    by_cases hx : x = a
    · subst hx
      rw [if_pos rfl, AList.lookup_union_right ha]
      exact List.dlookup_cons_eq (β := fun _ => β) [] x b
    · rw [if_neg hx]
      by_cases hd : x ∈ d
      · exact AList.lookup_union_left hd
      · rw [AList.lookup_union_right hd, AList.lookup_eq_none.mpr hd, AList.lookup_eq_none]
        rw [AList.mem_keys, AList.keys_singleton, List.mem_singleton]
        exact hx

@[simp] theorem lookup_set_self (d : Dictionary α β) (a : α) (b : β) :
    (set d a b).lookup a = some b := by
  rw [lookup_set, if_pos rfl]

theorem lookup_set_of_ne (d : Dictionary α β) {a x : α} (b : β) (hx : x ≠ a) :
    (set d a b).lookup x = d.lookup x := by
  rw [lookup_set, if_neg hx]

theorem mem_keysWhere {d : Dictionary α β} {p : β → Bool} {a : α} :
    a ∈ keysWhere d p ↔ ∃ b, d.lookup a = some b ∧ p b = true := by
  unfold keysWhere
  rw [List.mem_map]
  constructor
  · rintro ⟨⟨k, b⟩, hmem, rfl⟩
    rw [List.mem_filter] at hmem
    exact ⟨b, AList.mem_lookup_iff.mpr hmem.1, hmem.2⟩
  · rintro ⟨b, hb, hp⟩
    exact ⟨⟨a, b⟩, List.mem_filter.mpr ⟨AList.mem_lookup_iff.mp hb, hp⟩, rfl⟩

theorem isSome_find_values {d : Dictionary α β} {p : β → Bool} :
    ((values d).find? p).isSome ↔ ∃ a b, d.lookup a = some b ∧ p b = true := by
  rw [List.find?_isSome]
  unfold values
  constructor
  · rintro ⟨b, hb, hp⟩
    obtain ⟨⟨a, b'⟩, hmem, rfl⟩ := List.mem_map.mp hb
    exact ⟨a, b', AList.mem_lookup_iff.mpr hmem, hp⟩
  · rintro ⟨a, b, hb, hp⟩
    exact ⟨b, List.mem_map.mpr ⟨⟨a, b⟩, AList.mem_lookup_iff.mp hb, rfl⟩, hp⟩

omit [DecidableEq α] in
theorem nodup_keysWhere (d : Dictionary α β) (p : β → Bool) : (keysWhere d p).Nodup :=
  List.Nodup.sublist (List.Sublist.map Sigma.fst List.filter_sublist) d.nodupKeys

theorem lookup_eraseAll (d : Dictionary α β) (keys : List α) (x : α) :
    (eraseAll d keys).lookup x = if x ∈ keys then none else d.lookup x := by
  induction keys generalizing d with
  | nil => simp [eraseAll]
  | cons a keys ih =>
    show (eraseAll (d.erase a) keys).lookup x = _
    rw [ih]
    by_cases hx : x ∈ keys
    · rw [if_pos hx, if_pos (List.mem_cons_of_mem a hx)]
    · rw [if_neg hx]
      by_cases ha : x = a
      · subst ha
        rw [if_pos List.mem_cons_self, AList.lookup_erase]
      · rw [if_neg (by simp [ha, hx]), AList.lookup_erase_ne ha]

end Dictionary

end A2AKit
