/-
Places in JSON values, and the members that are kept by their keys.

`Json.valueAt` follows a path of keys and positions.  `JsonFields.get_filterKeys` says what is read
of an object of which some members were left out.
-/
import A2AKit.JsonText

/-- To a member of an object, or to an item of an array. -/
inductive JsonStep
  | key (key : String)
  | item (i : Nat)
  deriving DecidableEq, Repr

namespace JsonItems

def ofList : List Json → JsonItems
  | [] => .nil
  | j :: rest => .cons j (ofList rest)

def get : Nat → JsonItems → Option Json
  | _, .nil => none
  | 0, .cons j _ => some j
  | i + 1, .cons _ rest => rest.get i

theorem get_ofList (items : List Json) (i : Nat) : (ofList items).get i = items[i]? := by
  induction items generalizing i with
  | nil => rw [ofList, get, List.getElem?_nil]
  | cons j rest ih =>
    rw [ofList]
    cases i with
    | zero => rfl
    | succ i => rw [get, ih i, List.getElem?_cons_succ]

end JsonItems

namespace JsonFields

/-- A member whose key is left out is not found, and every other one is as it was. -/
theorem get_filterKeys (p : String → Bool) (key : String) :
    ∀ fields : JsonFields, (fields.filterKeys p).get key = if p key then fields.get key else none
  | .nil => by rw [filterKeys, get, ite_self]
  | .cons k j rest => by
    have ih := get_filterKeys p key rest
    rw [filterKeys, get]
    by_cases hk : k = key
    · subst hk
      -- the first member is asked for: both sides look at the rest first
      by_cases hp : p k = true
      · rw [if_pos hp, get, ih, if_pos hp, if_pos hp]
      · rw [if_neg hp, ih, if_neg hp, if_neg hp]
    · have hrest : (if p k = true then cons k j (rest.filterKeys p) else rest.filterKeys p).get key =
          (rest.filterKeys p).get key := by
        split
        · rw [get, if_neg hk]
          cases (rest.filterKeys p).get key <;> rfl
        · rfl
      rw [hrest, ih, if_neg hk]
      cases rest.get key <;> rfl

theorem keys_filterKeys (p : String → Bool) :
    ∀ fields : JsonFields, (fields.filterKeys p).keys = fields.keys.filter p
  | .nil => rfl
  | .cons k j rest => by
    rw [filterKeys, keys, List.filter_cons, ← keys_filterKeys p rest]
    split <;> rfl

theorem keys_eq_nil : ∀ {fields : JsonFields}, fields.keys = [] → fields = .nil
  | .nil, _ => rfl

/-- If as many members are left as there were, they are the same. -/
theorem filterKeys_eq_self {p : String → Bool} : ∀ {fields : JsonFields},
    (fields.filterKeys p).keys.length = fields.keys.length → fields.filterKeys p = fields
  | .nil, _ => rfl
  | .cons k j rest, h => by
    rw [keys_filterKeys, List.length_filter_eq_length_iff] at h
    have hrest : ∀ key ∈ rest.keys, p key = true := fun key hkey =>
      h key (List.mem_cons_of_mem k hkey)
    rw [filterKeys, if_pos (h k List.mem_cons_self), filterKeys_eq_self]
    rw [keys_filterKeys]
    exact List.length_filter_eq_length_iff.mpr hrest

theorem get_of_not_mem {key : String} :
    ∀ {fields : JsonFields}, key ∉ fields.keys → fields.get key = none
  | .nil, _ => rfl
  | .cons k j rest, h => by
    rw [keys, List.mem_cons, not_or] at h
    rw [get, get_of_not_mem h.2]
    exact if_neg (Ne.symm h.1)

end JsonFields

namespace Json

def step : JsonStep → Json → Option Json
  | .key k, .object fields => fields.get k
  | .item i, .array items => items.get i
  | _, _ => none

/-- The value at a path. -/
def valueAt : List JsonStep → Json → Option Json
  | [], j => some j
  | s :: path, j => (j.step s).bind (valueAt path)

end Json
