/-
What is left of an operation when a move of the broker is cut off.

A process may die after any request of a move.  An operation is recoverable if its
entry is still pending, another entry that the group has not settled carries it, or it is in
the dead-letter stream.  Every move that first adds and then acknowledges, or does both
in one MULTI, leaves the operation recoverable at every cut; the retry branch of
`nack` acknowledges first, in a pipeline without a transaction.

* `recoverable_iff` — at which moves every cut leaves the operation recoverable.
-/
import A2AKit.BrokerSteps

namespace A2AKit

variable {π : Type}

/-- The moves that take a delivered entry off the pending list without its operation
being done. -/
inductive Redelivery
  | nack (attempt delay : Nat)
  | requeue
  | poison (attempt : Nat)
  | reject
  deriving DecidableEq

def Redelivery.commands (cfg : BrokerConfig π) (now : Nat) (id : StreamId) (fields : OpFields π) :
    Redelivery → List (Request π)
  | .nack attempt delay => nackCommands cfg now id fields attempt delay
  | .requeue => requeueCommands id fields
  | .poison attempt => poisonCommands id fields attempt
  | .reject => rejectCommands id fields

/-- `nack` takes its retry branch. -/
def Redelivery.retries (cfg : BrokerConfig π) : Redelivery → Prop
  | .nack attempt _ => attempt + 1 ≤ cfg.maxRetries
  | _ => False

/-- Execute requests in order, with what Redis decides at each of them. -/
def execRequests (cfg : BrokerConfig π) :
    List (Request π × Pick) → BrokerRedis π → Option (BrokerRedis π)
  | [], r => some r
  | (request, pick) :: rest, r => (request.exec cfg pick r).bind (execRequests cfg rest)

/-- Another entry that is undelivered or pending, or a dead letter, carries the operation.  An entry
stays in the log when it is acknowledged, and is of no use then. -/
def BrokerRedis.Elsewhere (r : BrokerRedis π) (id : StreamId) (op : Operation π) : Prop :=
  (∃ e, r.stream.Live e ∧ e.id ≠ id ∧ e.data.op = op) ∨ ∃ letter ∈ r.dlq, letter.op = op

/-- The entry is still pending, or the operation is elsewhere. -/
def BrokerRedis.Recoverable (r : BrokerRedis π) (id : StreamId) (op : Operation π) : Prop :=
  (r.stream.pending id).isSome ∨ r.Elsewhere id op

/-! ### What the commands leave -/

section Commands

variable {cfg : BrokerConfig π} {pick : Pick} {r r' : BrokerRedis π} {id : StreamId}
  {op : Operation π}

/-- A command that adds nothing and acknowledges no other entry. -/
def RedisCommand.Settles (id : StreamId) : RedisCommand π → Prop
  | .xack id' => id' = id
  | .hdel _ => True
  | .xadd _ _ | .xaddDlq _ _ => False

/-- An id that was given out is not given out again. -/
theorem id_le_lastId (hpend : (r.stream.pending id).isSome) : id ≤ r.stream.lastId :=
  le_trans (r.stream.pending_le id hpend) r.stream.delivered_le

/-- Trimming keeps the entry that was just added. -/
theorem mem_drop_concat {α : Type} {l : List α} {a : α} {n maxlen : Nat} (hpos : 0 < maxlen)
    (hn : n = 0 ∨ maxlen + n ≤ l.length + 1) : a ∈ (l ++ [a]).drop n := by
  have hle : n ≤ l.length := by omega
  rw [List.drop_append_of_le_length hle]
  exact List.mem_append_right _ List.mem_cons_self

theorem exec_xadd {source : StreamId} {fields : OpFields π}
    (h : (RedisCommand.xadd source fields).exec cfg pick r = some r') (hid : id ≤ r.stream.lastId) :
    r'.Elsewhere id fields.op := by
  obtain ⟨stream, hadd, rfl⟩ := Option.map_eq_some_iff.mp h
  obtain ⟨hlt, -⟩ := GroupStream.add_eq_some hadd
  refine Or.inl ⟨⟨pick.id, fields⟩, ?_, ?_, rfl⟩
  · exact GroupStream.live_added cfg.streamMaxlen_pos hadd
  · exact ne_of_gt (lt_of_le_of_lt hid hlt)

theorem exec_xaddDlq {source : StreamId} {letter : DeadLetter π}
    (h : (RedisCommand.xaddDlq source letter).exec cfg pick r = some r') :
    r'.Elsewhere id letter.op := by
  rw [RedisCommand.exec] at h
  split at h
  · rename_i hn
    obtain rfl := Option.some.inj h
    exact Or.inr ⟨letter, mem_drop_concat cfg.streamMaxlen_pos hn, rfl⟩
  · exact absurd h (by simp)

/-- Acknowledging an entry settles no copy elsewhere. -/
theorem BrokerRedis.Elsewhere.ack (helse : r.Elsewhere id op) :
    ({ r with stream := r.stream.ack id } : BrokerRedis π).Elsewhere id op :=
  helse.imp_left fun ⟨e, hlive, hne, hop⟩ => ⟨e, GroupStream.live_ack hne hlive, hne, hop⟩

/-- Acknowledging and clearing a counter remove no copy. -/
theorem BrokerRedis.Elsewhere.exec {command : RedisCommand π} (helse : r.Elsewhere id op)
    (hcmd : command.Settles id) (h : command.exec cfg pick r = some r') : r'.Elsewhere id op := by
  cases command with
  | xack id' =>
    obtain rfl := Option.some.inj h
    have hid : id' = id := hcmd
    subst hid
    exact helse.ack
  | hdel id' =>
    obtain rfl := Option.some.inj h
    exact helse
  | xadd _ _ => exact hcmd.elim
  | xaddDlq _ _ => exact hcmd.elim

theorem BrokerRedis.Elsewhere.execRequests {steps : List (Request π × Pick)}
    (helse : r.Elsewhere id op)
    (hsteps : ∀ q ∈ steps.map Prod.fst, ∃ command : RedisCommand π, q = [command] ∧ command.Settles id)
    (h : execRequests cfg steps r = some r') : r'.Elsewhere id op := by
  induction steps generalizing r with
  | nil =>
    obtain rfl := Option.some.inj h
    exact helse
  | cons s steps ih =>
    obtain ⟨r₁, h₁, h₂⟩ := Option.bind_eq_some_iff.mp h
    rw [List.map_cons, List.forall_mem_cons] at hsteps
    obtain ⟨command, hs, hcmd⟩ := hsteps.1
    rw [hs, exec_request_singleton] at h₁
    exact ih (helse.exec hcmd h₁) hsteps.2 h₂

/-- A move that adds in its first request can be cut anywhere. -/
theorem recoverable_of_add_first {first : Request π} {rest : List (Request π)}
    {steps : List (Request π × Pick)} (hpend : (r.stream.pending id).isSome)
    (hfirst : ∀ pick r', first.exec cfg pick r = some r' → r'.Elsewhere id op)
    (hrest : ∀ q ∈ rest, ∃ command : RedisCommand π, q = [command] ∧ command.Settles id)
    (hsteps : steps.map Prod.fst <+: first :: rest) (h : execRequests cfg steps r = some r') :
    r'.Recoverable id op := by
  cases steps with
  | nil =>
    obtain rfl := Option.some.inj h
    exact Or.inl hpend
  | cons s steps =>
    rw [List.map_cons, List.cons_prefix_cons] at hsteps
    obtain ⟨r₁, h₁, h₂⟩ := Option.bind_eq_some_iff.mp h
    rw [hsteps.1] at h₁
    exact Or.inr ((hfirst s.2 r₁ h₁).execRequests (fun q hq => hrest q (hsteps.2.subset hq)) h₂)

/-- The MULTI of `_requeue_not_due`. -/
theorem exec_requeue {fields : OpFields π} (hpend : (r.stream.pending id).isSome)
    (h : Request.exec cfg pick r [.xadd id fields, .xack id, .hdel id] = some r') :
    r'.Elsewhere id fields.op := by
  rw [Request.exec, List.foldlM_cons] at h
  obtain ⟨r₁, h₁, h₂⟩ := Option.bind_eq_some_iff.mp h
  have helse : r₁.Elsewhere id fields.op := exec_xadd h₁ (id_le_lastId hpend)
  obtain rfl : _ = r' := by simpa [RedisCommand.exec] using h₂
  exact helse.ack

/-- The operation survives the retry branch of `nack` only as a copy elsewhere. -/
theorem recoverable_of_elsewhere {fields : OpFields π} {steps : List (Request π × Pick)}
    (hpend : (r.stream.pending id).isSome) (helse : r.Elsewhere id fields.op)
    (hsteps : steps.map Prod.fst <+: [[.xack id], [.xadd id fields], [.hdel id]])
    (h : execRequests cfg steps r = some r') : r'.Recoverable id fields.op := by
  cases steps with
  | nil =>
    obtain rfl := Option.some.inj h
    exact Or.inl hpend
  | cons s steps =>
    rw [List.map_cons, List.cons_prefix_cons] at hsteps
    obtain ⟨r₁, h₁, h₂⟩ := Option.bind_eq_some_iff.mp h
    rw [hsteps.1, exec_request_singleton] at h₁
    obtain rfl := Option.some.inj h₁
    have hid : id ≤ (r.stream.ack id).lastId := id_le_lastId hpend
    cases steps with
    | nil =>
      obtain rfl := Option.some.inj h₂
      exact Or.inr helse.ack
    | cons s' steps =>
      have hsteps₂ := hsteps.2
      rw [List.map_cons, List.cons_prefix_cons] at hsteps₂
      obtain ⟨r₂, h₂, h₃⟩ := Option.bind_eq_some_iff.mp h₂
      rw [hsteps₂.1, exec_request_singleton] at h₂
      have helse₂ := exec_xadd h₂ hid
      refine Or.inr (helse₂.execRequests (fun q hq => ?_) h₃)
      rw [List.mem_singleton.mp (hsteps₂.2.subset hq)]
      exact ⟨_, rfl, trivial⟩

end Commands

/-! ### The moves -/

/-- Cut off after any of its requests, a move of a pending entry leaves the operation
recoverable. -/
def Redelivery.CutSafe (cfg : BrokerConfig π) (now : Nat) (r : BrokerRedis π) (id : StreamId)
    (fields : OpFields π) (move : Redelivery) : Prop :=
  ∀ (steps : List (Request π × Pick)) (r' : BrokerRedis π),
    steps.map Prod.fst <+: move.commands cfg now id fields → execRequests cfg steps r = some r' →
      r'.Recoverable id fields.op

theorem nackCommands_retry {cfg : BrokerConfig π} (now : Nat) (id : StreamId)
    (fields : OpFields π) {attempt : Nat} (delay : Nat) (h : attempt + 1 ≤ cfg.maxRetries) :
    ∃ fields' : OpFields π, fields'.op = fields.op ∧
      nackCommands cfg now id fields attempt delay = [[.xack id], [.xadd id fields'], [.hdel id]] := by
  rw [nackCommands, if_neg (by omega)]
  refine ⟨⟨fields.op, attempt + 1, if delay > 0 then some (now + delay) else none⟩, rfl, rfl⟩

/-- Every cut of a move leaves the operation recoverable exactly if the move is not the
retry branch of `nack`, or another copy of the operation exists already that is not
settled. -/
theorem recoverable_iff (cfg : BrokerConfig π) (now : Nat) (r : BrokerRedis π) (id : StreamId)
    (fields : OpFields π) (move : Redelivery) (hpend : (r.stream.pending id).isSome) :
    move.CutSafe cfg now r id fields ↔ ¬move.retries cfg ∨ r.Elsewhere id fields.op := by
  constructor
  · intro hsafe
    by_contra hcon
    obtain ⟨hretry, helse⟩ := not_or.mp hcon
    rw [not_not] at hretry
    cases move with
    | nack attempt delay =>
      obtain ⟨fields', hop, hcmds⟩ := nackCommands_retry now id fields delay hretry
      -- the cut after XACK
      have hcut := hsafe [([.xack id], {})] _ (by
        rw [Redelivery.commands, hcmds]
        exact List.prefix_iff_eq_append.mpr rfl) rfl
      rcases hcut with hpend' | helse'
      · simp at hpend'
      · exact helse (helse'.imp_left fun ⟨e, hlive, hother⟩ =>
          ⟨e, GroupStream.live_of_ack hlive, hother⟩)
    | requeue => exact hretry
    | poison attempt => exact hretry
    | reject => exact hretry
  · intro hcond steps r' hsteps h
    have hletter {letter : DeadLetter π} (hop : letter.op = fields.op) (pick : Pick)
        (r' : BrokerRedis π) (h : Request.exec cfg pick r [.xaddDlq id letter] = some r') :
        r'.Elsewhere id fields.op := by
      rw [exec_request_singleton] at h
      exact hop ▸ exec_xaddDlq h
    cases move with
    | nack attempt delay =>
      by_cases hretry : attempt + 1 ≤ cfg.maxRetries
      · obtain ⟨fields', hop, hcmds⟩ := nackCommands_retry now id fields delay hretry
        rw [Redelivery.commands, hcmds] at hsteps
        have helse := hcond.resolve_left fun hnot => hnot hretry
        rw [← hop] at helse ⊢
        exact recoverable_of_elsewhere hpend helse hsteps h
      · rw [Redelivery.commands, nackCommands, if_pos (by omega)] at hsteps
        exact recoverable_of_add_first hpend (hletter rfl) (by simp [RedisCommand.Settles]) hsteps h
    | requeue =>
      exact recoverable_of_add_first hpend (fun _ _ h => exec_requeue hpend h) (by simp) hsteps h
    | poison attempt =>
      exact recoverable_of_add_first hpend (hletter rfl) (by simp [RedisCommand.Settles]) hsteps h
    | reject =>
      exact recoverable_of_add_first hpend (hletter rfl) (by simp [RedisCommand.Settles]) hsteps h

/-- An operation is added, delivered and dispatched, and the worker fails. -/
def failedDispatch : List (BrokerAction String) :=
  [.runTask "op" ⟨toLex (1, 0), 0⟩, .enter 0, .receive 0, .advance 0 {}, .advance 0 {},
    .advance 0 {}, .result 0 false]

/-- Redis when the worker has failed for the first time. -/
def failedDispatchRedis : BrokerRedis String :=
  (finalState (BrokerSystem.step {}) (fun _ _ => True) {} failedDispatch).redis

/-- The dead-letter move of a poison pill can be cut anywhere. -/
theorem poison_cut_safe :
    (failedDispatchRedis.stream.pending (toLex (1, 0))).isSome ∧
      (Redelivery.poison 4).CutSafe {} 0 failedDispatchRedis (toLex (1, 0)) ⟨⟨0, "op"⟩, 3, none⟩ := by
  have hpend : (failedDispatchRedis.stream.pending (toLex (1, 0))).isSome = true := by
    decide +kernel
  exact ⟨hpend, (recoverable_iff _ _ _ _ _ _ hpend).mpr (Or.inl id)⟩

/-- The process dies between XACK and XADD of the retry branch: the operation is
nowhere. -/
theorem nack_cut_loses :
    (failedDispatchRedis.stream.pending (toLex (1, 0))).isSome ∧
      ¬(Redelivery.nack 1 2).CutSafe {} 0 failedDispatchRedis (toLex (1, 0))
        ⟨⟨0, "op"⟩, 1, none⟩ := by
  refine ⟨by decide +kernel, fun hsafe => ?_⟩
  have hcut := hsafe [([.xack (toLex (1, 0))], {})] _
    (List.prefix_iff_eq_append.mpr rfl) rfl
  have hgone : failedDispatchRedis.dlq = [] ∧
      ∀ e ∈ failedDispatchRedis.stream.entries, e.id = toLex (1, 0) := by decide +kernel
  rcases hcut with hpend | ⟨e, hlive, hne, -⟩ | ⟨letter, hletter, -⟩
  · simp at hpend
  · exact hne (hgone.2 e hlive.1)
  · rw [show _ = _ from hgone.1] at hletter
    exact absurd hletter List.not_mem_nil

end A2AKit
