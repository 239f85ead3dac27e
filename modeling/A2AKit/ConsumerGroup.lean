/-
A stream with one consumer group.

A `GroupStream` is an append-only log with the position up to which the group was
given entries and the list of those it was given and has not acknowledged: the
pending entries, each held by one consumer.  Adding an entry may trim the oldest
ones; acknowledging removes an entry from the pending list and never from the log.
That ids increase and that only delivered entries are pending is part of the type.

An entry of the log is live while it is undelivered or pending.  `live_add`,
`live_read`, `live_claim`, `live_ack` and `live_deleteConsumer` say what each command
does to that.
-/
import A2AKit.StreamLog
import Mathlib.Data.List.TakeWhile

open StreamLog

structure GroupStream (ι κ δ : Type) [LinearOrder ι] where
  entries : List (StreamEntry ι δ)
  lastId : ι
  lastDelivered : ι
  pending : ι → Option κ
  increasing : Increasing entries
  bounded : ∀ e ∈ entries, e.id ≤ lastId
  delivered_le : lastDelivered ≤ lastId
  pending_le : ∀ id, (pending id).isSome → id ≤ lastDelivered

namespace GroupStream

variable {ι κ δ : Type} [LinearOrder ι]

/-- An empty stream whose ids will be greater than `id`. -/
def empty (id : ι) : GroupStream ι κ δ where
  entries := []
  lastId := id
  lastDelivered := id
  pending := fun _ => none
  increasing := List.Pairwise.nil
  bounded := fun _ h => absurd h List.not_mem_nil
  delivered_le := le_refl id
  pending_le := fun _ h => absurd h (by simp)

variable (s : GroupStream ι κ δ)

/-- `e` is in the log and was not delivered to the group. -/
def Undelivered (e : StreamEntry ι δ) : Prop := e ∈ s.entries ∧ s.lastDelivered < e.id

/-- `e` is in the log, and it is undelivered or some consumer holds it. -/
def Live (e : StreamEntry ι δ) : Prop :=
  e ∈ s.entries ∧ (s.lastDelivered < e.id ∨ (s.pending e.id).isSome)

def isLive (e : StreamEntry ι δ) : Bool :=
  decide (s.lastDelivered < e.id) || (s.pending e.id).isSome

/-- The length of the log from the oldest live entry on. -/
def backlog : Nat := (s.entries.dropWhile fun e => !s.isLive e).length

/-- Add an entry and trim the `n` oldest ones, which leaves at least `maxlen`. -/
def add (maxlen : Nat) (id : ι) (n : Nat) (data : δ) : Option (GroupStream ι κ δ) :=
  if h : s.lastId < id ∧ (n = 0 ∨ maxlen + n ≤ s.entries.length + 1) then
    some {
      entries := (s.entries ++ [(⟨id, data⟩ : StreamEntry ι δ)]).drop n
      lastId := id
      lastDelivered := s.lastDelivered
      pending := s.pending
      increasing :=
        (s.increasing.concat fun e he => lt_of_le_of_lt (s.bounded e he) h.1).sublist
          (List.drop_sublist _ _)
      bounded := fun e he => by
        rcases List.mem_append.mp (List.mem_of_mem_drop he) with he | he
        · exact le_trans (s.bounded e he) (le_of_lt h.1)
        · rw [List.mem_singleton.mp he]
      delivered_le := le_trans s.delivered_le (le_of_lt h.1)
      pending_le := s.pending_le }
  else none

/-- The first entry behind `lastDelivered` is given to the consumer `c`. -/
def read (c : κ) : Option (StreamEntry ι δ × GroupStream ι κ δ) :=
  match h : newer s.lastDelivered s.entries with
  | [] => none
  | e :: _ =>
    have he := mem_newer.mp (h ▸ List.mem_cons_self : e ∈ newer s.lastDelivered s.entries)
    some (e, {
      entries := s.entries
      lastId := s.lastId
      lastDelivered := e.id
      pending := Function.update s.pending e.id (some c)
      increasing := s.increasing
      bounded := s.bounded
      delivered_le := s.bounded e he.1
      pending_le := fun id hid => by
        by_cases hne : id = e.id
        · exact le_of_eq hne
        · rw [Function.update_of_ne hne] at hid
          exact le_trans (s.pending_le id hid) (le_of_lt he.2) })

/-- Change who holds an entry; `none` takes it off the pending list. -/
def setPending (id : ι) (holder : Option κ) (h : holder.isSome → id ≤ s.lastDelivered) :
    GroupStream ι κ δ where
  entries := s.entries
  lastId := s.lastId
  lastDelivered := s.lastDelivered
  pending := Function.update s.pending id holder
  increasing := s.increasing
  bounded := s.bounded
  delivered_le := s.delivered_le
  pending_le := fun id' hid' => by
    by_cases hne : id' = id
    · subst hne
      rw [Function.update_self] at hid'
      exact h hid'
    · rw [Function.update_of_ne hne] at hid'
      exact s.pending_le id' hid'

def ack (id : ι) : GroupStream ι κ δ := s.setPending id none fun h => absurd h (by simp)

/-- The consumer `c` takes over a pending entry.  One that was trimmed is dropped from
the pending list. -/
def claim (c : κ) (id : ι) : Option (Option (StreamEntry ι δ) × GroupStream ι κ δ) :=
  if h : (s.pending id).isSome then
    match s.entries.find? fun e => decide (e.id = id) with
    | some e => some (some e, s.setPending id (some c) fun _ => s.pending_le id h)
    | none => some (none, s.ack id)
  else none

/-- A consumer is removed from the group, with everything it holds. -/
def deleteConsumer [DecidableEq κ] (c : κ) : GroupStream ι κ δ where
  entries := s.entries
  lastId := s.lastId
  lastDelivered := s.lastDelivered
  pending := fun id => if s.pending id = some c then none else s.pending id
  increasing := s.increasing
  bounded := s.bounded
  delivered_le := s.delivered_le
  pending_le := fun id hid => by
    split at hid
    · exact absurd hid (by simp)
    · exact s.pending_le id hid

/-! ### What the commands do -/

variable {s} {s' : GroupStream ι κ δ} {c : κ} {e e' : StreamEntry ι δ} {id : ι}

theorem add_eq_some {maxlen n : Nat} {data : δ} (h : s.add maxlen id n data = some s') :
    s.lastId < id ∧ (n = 0 ∨ maxlen + n ≤ s.entries.length + 1) ∧
      s'.entries = (s.entries ++ [(⟨id, data⟩ : StreamEntry ι δ)]).drop n ∧ s'.lastId = id ∧
      s'.lastDelivered = s.lastDelivered ∧ s'.pending = s.pending := by
  rw [add] at h
  split at h
  · rename_i hguard
    obtain rfl := Option.some.inj h
    exact ⟨hguard.1, hguard.2, rfl, rfl, rfl, rfl⟩
  · exact absurd h (by simp)

theorem read_eq_some (h : s.read c = some (e, s')) :
    s.Undelivered e ∧ (∀ a, s.Undelivered a → a = e ∨ e.id < a.id) ∧ s'.entries = s.entries ∧
      s'.lastId = s.lastId ∧ s'.lastDelivered = e.id ∧
      s'.pending = Function.update s.pending e.id (some c) := by
  rw [read] at h
  split at h
  · exact absurd h (by simp)
  · rename_i e₁ rest hnewer
    obtain ⟨rfl, rfl⟩ := Prod.mk.inj (Option.some.inj h)
    have hmem := mem_newer.mp (hnewer ▸ List.mem_cons_self : e₁ ∈ newer s.lastDelivered s.entries)
    refine ⟨hmem, fun a ha => ?_, rfl, rfl, rfl, rfl⟩
    have hinc : Increasing (newer s.lastDelivered s.entries) :=
      s.increasing.sublist List.filter_sublist
    have ha' : a ∈ newer s.lastDelivered s.entries := mem_newer.mpr ha
    rw [hnewer] at ha' hinc
    rcases List.mem_cons.mp ha' with h₁ | h₁
    · exact Or.inl h₁
    · exact Or.inr ((List.pairwise_cons.mp hinc).1 a h₁)

theorem claim_eq_some {o : Option (StreamEntry ι δ)} (h : s.claim c id = some (o, s')) :
    (s.pending id).isSome ∧ s'.entries = s.entries ∧ s'.lastId = s.lastId ∧
      s'.lastDelivered = s.lastDelivered ∧
      ((∃ e ∈ s.entries, e.id = id ∧ o = some e ∧ s'.pending = Function.update s.pending id (some c)) ∨
        ((∀ e ∈ s.entries, e.id ≠ id) ∧ o = none ∧ s'.pending = Function.update s.pending id none)) := by
  rw [claim] at h
  split at h
  · rename_i hpend
    refine ⟨hpend, ?_⟩
    split at h
    · rename_i e hfind
      obtain ⟨rfl, rfl⟩ := Prod.mk.inj (Option.some.inj h)
      have hid : e.id = id := by simpa using List.find?_some hfind
      exact ⟨rfl, rfl, rfl, Or.inl ⟨e, List.mem_of_find?_eq_some hfind, hid, rfl, rfl⟩⟩
    · rename_i hfind
      obtain ⟨rfl, rfl⟩ := Prod.mk.inj (Option.some.inj h)
      refine ⟨rfl, rfl, rfl, Or.inr ⟨fun e he => ?_, rfl, rfl⟩⟩
      have := List.find?_eq_none.mp hfind e he
      simpa using this
  · exact absurd h (by simp)

@[simp] theorem ack_entries : (s.ack id).entries = s.entries := rfl
@[simp] theorem ack_lastId : (s.ack id).lastId = s.lastId := rfl
@[simp] theorem ack_lastDelivered : (s.ack id).lastDelivered = s.lastDelivered := rfl
@[simp] theorem ack_pending : (s.ack id).pending = Function.update s.pending id none := rfl

theorem pending_ack_self : (s.ack id).pending id = none := by
  rw [ack_pending, Function.update_self]

/-- Acknowledging makes no entry pending. -/
theorem isSome_of_ack {id' : ι} (h : ((s.ack id).pending id').isSome) :
    (s.pending id').isSome := by
  rw [ack_pending] at h
  by_cases hid : id' = id
  · rw [hid, Function.update_self] at h
    exact absurd h (by simp)
  · rwa [Function.update_of_ne hid] at h

theorem mem_of_add {maxlen n : Nat} {data : δ} (h : s.add maxlen id n data = some s')
    (he : e ∈ s'.entries) : e ∈ s.entries ∨ e = ⟨id, data⟩ := by
  obtain ⟨-, -, hentries, -, -, -⟩ := add_eq_some h
  rw [hentries] at he
  exact (List.mem_append.mp (List.mem_of_mem_drop he)).imp_right List.mem_singleton.mp

/-- Acknowledging an entry does not depend on what is added. -/
theorem add_ack {maxlen n : Nat} {data : δ} (h : s.add maxlen id n data = some s') (id' : ι) :
    (s.ack id').add maxlen id n data = some (s'.ack id') := by
  rw [add] at h
  split at h
  · rename_i hguard
    obtain rfl := Option.some.inj h
    exact dif_pos (c := (s.ack id').lastId < id ∧ _) hguard
  · exact absurd h (by simp)

theorem live_iff : s.Live e ↔ e ∈ s.entries ∧ s.isLive e = true := by
  simp [Live, isLive]

/-- While the backlog is shorter than the limit, trimming removes no live entry. -/
theorem live_add {maxlen n : Nat} {data : δ} (h : s.add maxlen id n data = some s')
    (hback : s.backlog < maxlen) (he : s.Live e) : s'.Live e := by
  obtain ⟨-, hn, hentries, -, hdelivered, hpending⟩ := add_eq_some h
  refine ⟨?_, by rw [hdelivered, hpending]; exact he.2⟩
  obtain ⟨hmem, hlive⟩ := live_iff.mp he
  rw [hentries]
  have hsplit := @List.takeWhile_append_dropWhile _ (fun e => !s.isLive e) s.entries
  have hlen := congrArg List.length hsplit
  rw [List.length_append] at hlen
  have hle : n ≤ (s.entries.takeWhile fun e => !s.isLive e).length := by
    rw [backlog] at hback
    omega
  -- a live entry lies behind the settled ones, and only settled ones are trimmed
  have hbehind : e ∈ s.entries.dropWhile fun e => !s.isLive e := by
    rw [← hsplit, List.mem_append] at hmem
    refine hmem.resolve_left fun htake => ?_
    have := List.mem_takeWhile_imp htake
    rw [hlive] at this
    exact absurd this (by simp)
  rw [← hsplit, List.append_assoc, List.drop_append_of_le_length hle]
  exact List.mem_append_right _ (List.mem_append_left _ hbehind)

/-- The new entry is live. -/
theorem live_added {maxlen n : Nat} {data : δ} (hpos : 0 < maxlen)
    (h : s.add maxlen id n data = some s') : s'.Live ⟨id, data⟩ := by
  obtain ⟨hlt, hn, hentries, -, hdelivered, -⟩ := add_eq_some h
  refine ⟨?_, Or.inl ?_⟩
  · have hle : n ≤ s.entries.length := by omega
    rw [hentries, List.drop_append_of_le_length hle]
    exact List.mem_append_right _ List.mem_cons_self
  · rw [hdelivered]
    exact lt_of_le_of_lt s.delivered_le hlt

theorem live_read (h : s.read c = some (e', s')) (he : s.Live e) : s'.Live e := by
  obtain ⟨-, hfirst, hentries, -, hdelivered, hpending⟩ := read_eq_some h
  refine ⟨hentries ▸ he.1, ?_⟩
  rw [hdelivered, hpending]
  by_cases hid : e.id = e'.id
  · exact Or.inr (by rw [hid, Function.update_self]; rfl)
  · rw [Function.update_of_ne hid]
    refine he.2.imp_left fun hlt => ?_
    exact (hfirst e ⟨he.1, hlt⟩).resolve_left fun heq => hid (congrArg _ heq)

theorem live_claim {o : Option (StreamEntry ι δ)} (h : s.claim c id = some (o, s'))
    (he : s.Live e) : s'.Live e := by
  obtain ⟨-, hentries, -, hdelivered, hcases⟩ := claim_eq_some h
  refine ⟨hentries ▸ he.1, ?_⟩
  rw [hdelivered]
  by_cases hid : e.id = id
  · rcases hcases with ⟨-, -, -, -, hpending⟩ | ⟨hnone, -, -⟩
    · exact Or.inr (by rw [hpending, hid, Function.update_self]; rfl)
    · exact absurd hid (hnone e he.1)
  · rcases hcases with ⟨-, -, -, -, hpending⟩ | ⟨-, -, hpending⟩
    · rw [hpending, Function.update_of_ne hid]
      exact he.2
    · rw [hpending, Function.update_of_ne hid]
      exact he.2

theorem live_ack (hid : e.id ≠ id) (he : s.Live e) : (s.ack id).Live e := by
  refine ⟨he.1, ?_⟩
  rw [ack_pending, ack_lastDelivered, Function.update_of_ne hid]
  exact he.2

/-- Acknowledging makes no entry live. -/
theorem live_of_ack (he : (s.ack id).Live e) : s.Live e :=
  ⟨he.1, he.2.imp_right isSome_of_ack⟩

/-- Removing a consumer loses what it holds, and nothing else. -/
theorem live_deleteConsumer [DecidableEq κ] (hc : s.pending e.id ≠ some c) (he : s.Live e) :
    (s.deleteConsumer c).Live e := by
  refine ⟨he.1, he.2.imp_right fun hpend => ?_⟩
  show (if s.pending e.id = some c then none else s.pending e.id).isSome = true
  rwa [if_neg hc]

end GroupStream
