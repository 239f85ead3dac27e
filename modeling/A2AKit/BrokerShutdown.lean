/-
Graceful shutdown of brokers.

A shutdown interrupts the handlers of a broker wherever they stand; the entries they
were working on stay pending, to be claimed by another consumer.  `__aexit__` then
removes the consumer from the group, and Redis discards what the consumer still
holds.  So nothing is lost in runs in which every broker leaves with an empty pending
list (`Drained`), and an interrupted operation is lost otherwise.

* `added_kept` — every entry that was added is acknowledged, dead-lettered, replaced,
  or live.
-/
import A2AKit.BrokerSteps

namespace A2AKit

variable {π : Type}

abbrev BrokerTrace (π : Type) := List (BrokerAction π × List (BrokerEvent π))

def brokerEvents (tr : BrokerTrace π) : List (BrokerEvent π) := tr.flatMap fun q => q.2

/-- The next request adds an entry. -/
def Stage.adds (cfg : BrokerConfig π) : Stage → Bool
  | .moving .requeue 0 => true
  | .moving (.nack attempt _) 1 => decide (attempt + 1 ≤ cfg.maxRetries)
  | _ => false

namespace BrokerSystem

/-- The pipeline of `nack` has acknowledged the entry and is about to add it again. -/
def Replacing (cfg : BrokerConfig π) (s : BrokerSystem π) (id : StreamId) : Prop :=
  ∃ (i : Nat) (d : Delivery π) (attempt now : Nat), s.deliveries[i]? = some d ∧ d.id = id ∧
    d.stage = .moving (.nack attempt now) 1 ∧ attempt + 1 ≤ cfg.maxRetries

/-- The entry was acknowledged, dead-lettered or replaced, or it is undelivered or
pending. -/
def Kept (cfg : BrokerConfig π) (events : List (BrokerEvent π)) (s : BrokerSystem π)
    (id : StreamId) : Prop :=
  .acknowledged id ∈ events ∨ .deadLettered id ∈ events ∨ .replaced id ∈ events ∨
    Replacing cfg s id ∨ ∃ e, e.id = id ∧ s.redis.stream.Live e

/-- No process dies, no request fails, and the backlog is below the length to which
the stream is trimmed. -/
def Orderly (cfg : BrokerConfig π) (s : BrokerSystem π) (a : BrokerAction π) : Prop :=
  s.redis.stream.backlog < cfg.streamMaxlen ∧
    match a with
    | .crash _ | .raise _ _ _ => False
    | _ => True

/-- Whenever an entry is added, the backlog is below the length to which the stream is
trimmed. -/
def Roomy (cfg : BrokerConfig π) (s : BrokerSystem π) : BrokerAction π → Prop
  | .runTask _ _ => s.redis.stream.backlog < cfg.streamMaxlen
  | .advance i _ => ∀ d ∈ s.deliveries[i]?, d.stage.adds cfg = true →
      s.redis.stream.backlog < cfg.streamMaxlen
  | _ => True

/-- No process dies, and no request fails. -/
def Calm : BrokerAction π → Prop
  | .crash _ | .raise _ _ _ => False
  | _ => True

/-- A broker leaves when its consumer holds no entry. -/
def Drained (s : BrokerSystem π) : BrokerAction π → Prop
  | .exit c => ∀ e ∈ s.redis.stream.entries, s.redis.stream.pending e.id ≠ some c
  | _ => True

instance (cfg : BrokerConfig π) (s : BrokerSystem π) (a : BrokerAction π) :
    Decidable (Orderly cfg s a) :=
  match a with
  | .crash _ | .raise _ _ _ =>
    inferInstanceAs (Decidable (s.redis.stream.backlog < cfg.streamMaxlen ∧ False))
  | .runTask _ _ | .enter _ | .receive _ | .claim _ _ | .advance _ _ | .result _ _ | .interrupt _
  | .shutdown _ | .exit _ | .tick _ =>
    inferInstanceAs (Decidable (s.redis.stream.backlog < cfg.streamMaxlen ∧ True))

instance (s : BrokerSystem π) (a : BrokerAction π) : Decidable (Drained s a) :=
  match a with
  | .exit c =>
    inferInstanceAs (Decidable (∀ e ∈ s.redis.stream.entries, s.redis.stream.pending e.id ≠ some c))
  | .crash _ | .raise _ _ _ | .runTask _ _ | .enter _ | .receive _ | .claim _ _ | .advance _ _
  | .result _ _ | .interrupt _ | .shutdown _ | .tick _ => inferInstanceAs (Decidable True)

/-! ### The invariant -/

/-- What holds of the events so far and the state. -/
structure KeptInv (cfg : BrokerConfig π) (events : List (BrokerEvent π)) (s : BrokerSystem π) :
    Prop where
  kept : ∀ id op, .added id op ∈ events → Kept cfg events s id
  lettered : ∀ d ∈ s.deliveries, ∀ move sent, d.stage = .moving move sent →
    move.letters cfg = true → 1 ≤ sent → .deadLettered d.id ∈ events
  bounded : ∀ d ∈ s.deliveries, d.id ≤ s.redis.stream.lastId

variable {cfg : BrokerConfig π} {s s' : BrokerSystem π} {events events' : List (BrokerEvent π)}
  {i : Nat} {d : Delivery π} {stage : Stage}

theorem setStage_getElem? (hi : s.deliveries[i]? = some d) (stage : Stage) (j : Nat) :
    (s.setStage i d stage).deliveries[j]? =
      if i = j then some { d with stage } else s.deliveries[j]? := by
  have hlt : i < s.deliveries.length := (List.getElem?_eq_some_iff.mp hi).1
  rw [setStage, List.getElem?_set]
  by_cases hij : i = j
  · rw [if_pos hij, if_pos hij, if_pos hlt]
  · rw [if_neg hij, if_neg hij]

theorem mem_setStage {d' : Delivery π} (h : d' ∈ (s.setStage i d stage).deliveries) :
    d' = { d with stage } ∨ d' ∈ s.deliveries := by
  rcases List.mem_or_eq_of_mem_set h with h | h
  · exact Or.inr h
  · exact Or.inl h

/-- A step that takes no live entry away keeps what is kept. -/
theorem Kept.mono {id : StreamId} (h : Kept cfg events s id) (hevents : events ⊆ events')
    (hlive : ∀ e, e.id = id → s.redis.stream.Live e → Kept cfg events' s' id)
    (hreplacing : Replacing cfg s id → Kept cfg events' s' id) : Kept cfg events' s' id := by
  rcases h with h | h | h | h | ⟨e, hid, he⟩
  · exact Or.inl (hevents h)
  · exact Or.inr (Or.inl (hevents h))
  · exact Or.inr (Or.inr (Or.inl (hevents h)))
  · exact hreplacing h
  · exact hlive e hid he

theorem Kept.of_live {id : StreamId} {e : StreamEntry StreamId (OpFields π)} (hid : e.id = id)
    (h : s.redis.stream.Live e) : Kept cfg events s id :=
  Or.inr (Or.inr (Or.inr (Or.inr ⟨e, hid, h⟩)))

theorem Kept.of_replacing {id : StreamId} (h : Replacing cfg s id) : Kept cfg events s id :=
  Or.inr (Or.inr (Or.inr (Or.inl h)))

/-- A step of the delivery `d`: what it takes off the pending list is accounted for. -/
theorem KeptInv.update {redis : BrokerRedis π} {new : List (BrokerEvent π)}
    (h : KeptInv cfg events s) (hi : s.deliveries[i]? = some d)
    (hlast : s.redis.stream.lastId ≤ redis.stream.lastId)
    (hlive : ∀ e, s.redis.stream.Live e → redis.stream.Live e ∨
      e.id = d.id ∧ Kept cfg (events ++ new) { s.setStage i d stage with redis } d.id)
    (hreplacing : ∀ attempt now, d.stage = .moving (.nack attempt now) 1 →
      attempt + 1 ≤ cfg.maxRetries →
        Kept cfg (events ++ new) { s.setStage i d stage with redis } d.id)
    (hadded : ∀ id op, .added id op ∈ new →
      Kept cfg (events ++ new) { s.setStage i d stage with redis } id)
    (hlettered : ∀ move sent, stage = .moving move sent → move.letters cfg = true → 1 ≤ sent →
      .deadLettered d.id ∈ events ++ new) :
    KeptInv cfg (events ++ new) { s.setStage i d stage with redis } where
  kept := fun id op hid => by
    rcases List.mem_append.mp hid with hid | hid
    · refine (h.kept id op hid).mono (List.subset_append_left _ _) ?_ ?_
      · intro e heid he
        rcases hlive e he with he' | ⟨hed, hk⟩
        · exact .of_live heid he'
        · rwa [← heid, hed]
      · rintro ⟨j, d', attempt, now, hj, hjid, hstage, hretry⟩
        -- the delivery that moves may have been the one that was to replace the entry
        by_cases hij : i = j
        · subst hij
          obtain rfl := Option.some.inj (hi.symm.trans hj)
          rw [← hjid]
          exact hreplacing attempt now hstage hretry
        · refine .of_replacing ⟨j, d', attempt, now, ?_, hjid, hstage, hretry⟩
          show (s.setStage i d stage).deliveries[j]? = some d'
          rw [setStage_getElem? hi, if_neg hij, hj]
    · exact hadded id op hid
  lettered := fun d' hd' move sent hstage hmove hsent => by
    rcases mem_setStage hd' with rfl | hd'
    · exact hlettered move sent hstage hmove hsent
    · exact List.mem_append_left _ (h.lettered d' hd' move sent hstage hmove hsent)
  bounded := fun d' hd' => by
    rcases mem_setStage hd' with rfl | hd'
    · exact le_trans (h.bounded d (List.mem_of_getElem? hi)) hlast
    · exact le_trans (h.bounded d' hd') hlast

/-- A step of a delivery that leaves the stream alone. -/
theorem KeptInv.silent {redis : BrokerRedis π} {new : List (BrokerEvent π)}
    (h : KeptInv cfg events s) (hi : s.deliveries[i]? = some d)
    (hstream : redis.stream = s.redis.stream)
    (hreplacing : ∀ attempt now, d.stage = .moving (.nack attempt now) 1 →
      cfg.maxRetries < attempt + 1)
    (hadded : ∀ id op, .added id op ∉ new)
    (hlettered : ∀ move sent, stage = .moving move sent → move.letters cfg = true → 1 ≤ sent →
      .deadLettered d.id ∈ events ++ new) :
    KeptInv cfg (events ++ new) { s.setStage i d stage with redis } := by
  refine h.update hi (by rw [hstream]) (fun e he => Or.inl (by rwa [hstream])) ?_ ?_ hlettered
  · intro attempt now hstage hretry
    exact absurd hretry (not_le.mpr (hreplacing attempt now hstage))
  · exact fun id op hid => absurd hid (hadded id op)

/-- A request that acknowledges the entry of the delivery. -/
theorem KeptInv.acknowledge {new : List (BrokerEvent π)} (h : KeptInv cfg events s)
    (hi : s.deliveries[i]? = some d) (hadded : ∀ id op, .added id op ∉ new)
    (hreplacing : ∀ attempt now, d.stage = .moving (.nack attempt now) 1 →
      cfg.maxRetries < attempt + 1)
    (hlettered : ∀ move sent, stage = .moving move sent → move.letters cfg = true → 1 ≤ sent →
      .deadLettered d.id ∈ events ++ new)
    (hkept : Kept cfg (events ++ new)
      { s.setStage i d stage with
        redis := { s.redis with stream := s.redis.stream.ack d.id } } d.id) :
    KeptInv cfg (events ++ new)
      { s.setStage i d stage with
        redis := { s.redis with stream := s.redis.stream.ack d.id } } := by
  refine h.update hi (le_refl _) (fun e he => ?_) ?_ ?_ hlettered
  · by_cases hid : e.id = d.id
    · exact Or.inr ⟨hid, hkept⟩
    · exact Or.inl (GroupStream.live_ack hid he)
  · intro attempt now hstage hretry
    exact absurd hretry (not_le.mpr (hreplacing attempt now hstage))
  · exact fun id op hid => absurd hid (hadded id op)

/-- A request that adds the operation again. -/
theorem KeptInv.readd {redis : BrokerRedis π} {stream : GroupStream StreamId ConsumerName (OpFields π)}
    {pick : Pick} {fields : OpFields π} {op : Operation π} (h : KeptInv cfg events s)
    (hi : s.deliveries[i]? = some d) (hback : s.redis.stream.backlog < cfg.streamMaxlen)
    (hadd : s.redis.stream.add cfg.streamMaxlen pick.id pick.trimmed fields = some stream)
    (hlast : redis.stream.lastId = stream.lastId)
    (hlive : ∀ e, e.id ≠ d.id → stream.Live e → redis.stream.Live e)
    (hlettered : ∀ move sent, stage = .moving move sent → move.letters cfg = true → 1 ≤ sent →
      .deadLettered d.id ∈ events ++ [.added pick.id op, .replaced d.id]) :
    KeptInv cfg (events ++ [.added pick.id op, .replaced d.id])
      { s.setStage i d stage with redis } := by
  obtain ⟨hlt, -, -, hlast', -, -⟩ := GroupStream.add_eq_some hadd
  have hreplaced : BrokerEvent.replaced d.id ∈ events ++ [.added pick.id op, .replaced d.id] := by
    simp
  refine h.update hi ?_ (fun e he => ?_) ?_ ?_ hlettered
  · rw [hlast, hlast']
    exact le_of_lt hlt
  · by_cases hid : e.id = d.id
    · exact Or.inr ⟨hid, Or.inr (Or.inr (Or.inl hreplaced))⟩
    · exact Or.inl (hlive e hid (GroupStream.live_add hadd hback he))
  · exact fun _ _ _ _ => Or.inr (Or.inr (Or.inl hreplaced))
  · intro id op' hid
    obtain ⟨rfl, -⟩ : id = pick.id ∧ op' = op := by simpa using hid
    refine .of_live rfl (hlive ⟨pick.id, fields⟩ (fun heq => ?_)
      (GroupStream.live_added cfg.streamMaxlen_pos hadd))
    have hd := h.bounded d (List.mem_of_getElem? hi)
    exact absurd (lt_of_le_of_lt hd hlt) (by rw [← heq]; exact lt_irrefl _)

/-- A request of a move. -/
theorem KeptInv.sent {redis : BrokerRedis π} {new : List (BrokerEvent π)} {pick : Pick}
    {move : BrokerMove} {sent : Nat} (h : KeptInv cfg events s)
    (hback : d.stage.adds cfg = true → s.redis.stream.backlog < cfg.streamMaxlen)
    (hi : s.deliveries[i]? = some d) (hstage : d.stage = .moving move sent)
    (hsent : Sent cfg pick s.redis d move sent redis new) :
    KeptInv cfg (events ++ new) { s.setStage i d (.moving move (sent + 1)) with redis } := by
  have hd := List.mem_of_getElem? hi
  -- a dead letter was written by an earlier request, or is written by this one
  have hletter (hfirst : move.letters cfg = true → sent = 0 → .deadLettered d.id ∈ new) :
      ∀ move' sent', Stage.moving move (sent + 1) = .moving move' sent' →
        move'.letters cfg = true → 1 ≤ sent' → .deadLettered d.id ∈ events ++ new := by
    intro move' sent' heq hmove _
    obtain ⟨rfl, -⟩ := Stage.moving.inj heq
    by_cases hzero : sent = 0
    · exact List.mem_append_right _ (hfirst hmove hzero)
    · exact List.mem_append_left _ (h.lettered d hd move sent hstage hmove (by omega))
  cases hsent with
  | requeue hadd =>
    refine h.readd hi (hback (by rw [hstage]; rfl)) hadd rfl
      (fun e hid he => GroupStream.live_ack hid he) ?_
    exact hletter fun hmove => by simp [BrokerMove.letters] at hmove
  | letter hmove =>
    refine h.silent hi rfl ?_ (by simp) (hletter fun _ _ => List.mem_singleton_self _)
    intro attempt now hstage'
    rw [hstage] at hstage'
    simp at hstage'
  | settle hmove =>
    refine h.acknowledge hi (by simp) ?_ (hletter fun _ hzero => absurd hzero (by simp)) ?_
    · intro attempt now hstage'
      rw [hstage, Stage.moving.injEq] at hstage'
      rw [hstage'.1] at hmove
      simpa [BrokerMove.letters] using hmove
    · exact Or.inr (Or.inl (List.mem_append_left _
        (h.lettered d hd move 1 hstage hmove (le_refl 1))))
  | ack hmove =>
    refine h.acknowledge hi (by simp) ?_ (hletter fun hl => ?_) ?_
    · intro attempt now hstage'
      rw [hstage] at hstage'
      simp at hstage'
    · cases move <;> simp [BrokerMove.acks, BrokerMove.letters] at hmove hl
    · exact Or.inl (List.mem_append_right _ (List.mem_singleton_self _))
  | @retry attempt now hretry =>
    refine h.acknowledge hi (by simp) ?_ (hletter fun hl => ?_) ?_
    · intro attempt' now' hstage'
      rw [hstage] at hstage'
      simp at hstage'
    · rw [BrokerMove.letters, decide_eq_true_eq] at hl
      omega
    · -- the rest of the pipeline adds the entry again
      refine .of_replacing ⟨i, { d with stage := .moving (.nack attempt now) 1 }, attempt, now,
        ?_, rfl, rfl, hretry⟩
      show (s.setStage i d _).deliveries[i]? = _
      rw [setStage_getElem? hi, if_pos rfl]
  | readd hretry _ _ hadd =>
    refine h.readd hi (hback (by rw [hstage]; simpa [Stage.adds] using hretry)) hadd rfl
      (fun e _ he => he) (hletter fun hl => ?_)
    rw [BrokerMove.letters, decide_eq_true_eq] at hl
    omega
  | clear hclear =>
    refine h.silent hi rfl ?_ (by simp) (hletter fun _ hzero => ?_)
    · intro attempt now hstage'
      rw [hstage, Stage.moving.injEq] at hstage'
      rw [hstage'.1, hstage'.2] at hclear
      simp [BrokerMove.clearAt] at hclear
    · rw [hzero] at hclear
      cases move <;> simp [BrokerMove.clearAt] at hclear

/-- A step of a delivery. -/
theorem KeptInv.turn {redis : BrokerRedis π} {new : List (BrokerEvent π)}
    (h : KeptInv cfg events s)
    (hback : d.stage.adds cfg = true → s.redis.stream.backlog < cfg.streamMaxlen)
    (hi : s.deliveries[i]? = some d) (hturn : Turn cfg s.clock s.redis d redis stage new) :
    KeptInv cfg (events ++ new) { s.setStage i d stage with redis } := by
  -- the stages outside the moves, which begin moves with their first request
  have hquiet {redis : BrokerRedis π} {stage : Stage} {new : List (BrokerEvent π)}
      (hstage : ∀ move sent, d.stage ≠ .moving move sent)
      (hstream : redis.stream = s.redis.stream) (hadded : ∀ id op, .added id op ∉ new)
      (hnext : ∀ move sent, stage = .moving move sent → sent = 0) :
      KeptInv cfg (events ++ new) { s.setStage i d stage with redis } := by
    refine h.silent hi hstream (fun _ _ heq => absurd heq (hstage _ _)) hadded ?_
    intro move sent heq _ hsent
    have := hnext move sent heq
    omega
  cases hturn with
  | requeue hstage _ | reject hstage =>
    refine hquiet (fun _ _ heq => ?_) rfl (by simp) (fun _ _ heq => (Stage.moving.inj heq).2.symm)
    rcases hstage with hstage | hstage <;> rw [hstage] at heq <;> simp at heq
  | accept hstage _ | tally hstage _ | hand hstage | refuse hstage _ =>
    exact hquiet (by simp [hstage]) rfl (by simp) (by simp)
  | dispatch hstage _ => exact hquiet (by simp [hstage]) rfl (by simp) (by simp)
  | retry hstage => exact hquiet (by simp [hstage]) rfl (by simp) (by simp)
  | poison hstage | markPoison hstage | markFailed hstage | success hstage =>
    exact hquiet (by simp [hstage]) rfl (by simp) (fun _ _ heq => (Stage.moving.inj heq).2.symm)
  | failure hstage =>
    refine hquiet (by simp [hstage]) rfl (by simp) fun move sent heq => ?_
    rw [Delivery.afterFailure] at heq
    split at heq
    · exact (Stage.moving.inj heq).2.symm
    · simp at heq
  | sent hstage hsent => exact h.sent hback hi hstage hsent
  | @done move sent hstage hnone =>
    refine h.silent hi rfl (fun attempt now hstage' => ?_) (by simp) fun move' sent' heq => ?_
    · rw [hstage, Stage.moving.injEq] at hstage'
      rw [hstage'.1, hstage'.2, Delivery.requests, nackCommands] at hnone
      split at hnone <;> simp at hnone
    · cases move <;> simp [Delivery.done] at heq

/-- A step that takes no live entry away and may deliver entries. -/
theorem KeptInv.frame {new : List (BrokerEvent π)} {F : List (Delivery π)}
    (h : KeptInv cfg events s) (hlast : s.redis.stream.lastId ≤ s'.redis.stream.lastId)
    (hlive : ∀ e, s.redis.stream.Live e → s'.redis.stream.Live e)
    (hdeliveries : s'.deliveries = s.deliveries ++ F)
    (hfresh : ∀ d ∈ F, d.id ≤ s'.redis.stream.lastId ∧ ∀ move sent, d.stage ≠ .moving move sent)
    (hadded : ∀ id op, .added id op ∈ new → ∃ e, e.id = id ∧ s'.redis.stream.Live e) :
    KeptInv cfg (events ++ new) s' where
  kept := fun id op hid => by
    rcases List.mem_append.mp hid with hid | hid
    · refine (h.kept id op hid).mono (List.subset_append_left _ _) ?_ ?_
      · exact fun e heid he => .of_live heid (hlive e he)
      · rintro ⟨j, d', attempt, now, hj, hrest⟩
        refine .of_replacing ⟨j, d', attempt, now, ?_, hrest⟩
        rw [hdeliveries, List.getElem?_append_left (List.getElem?_eq_some_iff.mp hj).1, hj]
    · obtain ⟨e, heid, he⟩ := hadded id op hid
      exact .of_live heid he
  lettered := fun d hd move sent hstage hmove hsent => by
    rw [hdeliveries] at hd
    rcases List.mem_append.mp hd with hd | hd
    · exact List.mem_append_left _ (h.lettered d hd move sent hstage hmove hsent)
    · exact absurd hstage ((hfresh d hd).2 move sent)
  bounded := fun d hd => by
    rw [hdeliveries] at hd
    rcases List.mem_append.mp hd with hd | hd
    · exact le_trans (h.bounded d hd) hlast
    · exact (hfresh d hd).1

theorem KeptInv.step {a : BrokerAction π} {new : List (BrokerEvent π)} (h : KeptInv cfg events s)
    (hcalm : Calm a) (hroom : Roomy cfg s a) (hdrained : Drained s a)
    (hstep : s.step cfg a = some (s', new)) : KeptInv cfg (events ++ new) s' := by
  -- a step that changes neither the stream nor the deliveries
  have hsame {s₁ : BrokerSystem π} (hredis : s₁.redis = s.redis)
      (hdeliveries : s₁.deliveries = s.deliveries) : KeptInv cfg (events ++ []) s₁ :=
    h.frame (F := []) (by rw [hredis]) (fun e he => by rwa [hredis])
      (by rw [hdeliveries, List.append_nil]) (by simp) (by simp)
  cases a with
  | runTask payload pick =>
    obtain ⟨stream, hadd, rfl, rfl⟩ := step_runTask hstep
    obtain ⟨hlt, -, -, hlast, -, -⟩ := GroupStream.add_eq_some hadd
    refine h.frame (F := []) ?_ ?_ (List.append_nil _).symm (by simp) ?_
    · show s.redis.stream.lastId ≤ stream.lastId
      rw [hlast]
      exact le_of_lt hlt
    · exact fun e he => GroupStream.live_add hadd hroom he
    · intro id op hid
      obtain ⟨rfl, -⟩ : id = pick.id ∧ _ := by simpa using hid
      exact ⟨_, rfl, GroupStream.live_added cfg.streamMaxlen_pos hadd⟩
  | enter c =>
    obtain ⟨rfl, -, status, -, rfl⟩ := step_status (Or.inl rfl) hstep
    exact hsame rfl rfl
  | shutdown c =>
    obtain ⟨rfl, -, status, -, rfl⟩ := step_status (Or.inr rfl) hstep
    exact hsame rfl rfl
  | receive c =>
    obtain ⟨-, entry, stream, hread, rfl, rfl⟩ := step_receive hstep
    obtain ⟨hentry, -, -, hlast, -, -⟩ := GroupStream.read_eq_some hread
    refine h.frame (le_of_eq hlast.symm) (fun e he => GroupStream.live_read hread he) rfl ?_ (by simp)
    intro d hd
    obtain rfl := List.mem_singleton.mp hd
    refine ⟨?_, by simp⟩
    show entry.id ≤ stream.lastId
    rw [hlast]
    exact s.redis.stream.bounded entry hentry.1
  | claim c id =>
    obtain ⟨-, o, stream, hclaim, rfl, hcases⟩ := step_claim hstep
    obtain ⟨-, hentries, hlast, -, hfound⟩ := GroupStream.claim_eq_some hclaim
    rcases hcases with ⟨entry, rfl, rfl⟩ | ⟨rfl, rfl⟩
    · refine h.frame (le_of_eq hlast.symm) (fun e he => GroupStream.live_claim hclaim he) rfl ?_
        (by simp)
      intro d hd
      obtain rfl := List.mem_singleton.mp hd
      refine ⟨?_, by simp⟩
      obtain ⟨e, he, -, heq, -⟩ | ⟨-, heq, -⟩ := hfound
      · obtain rfl := Option.some.inj heq
        show entry.id ≤ stream.lastId
        rw [hlast]
        exact s.redis.stream.bounded entry he
      · exact absurd heq (by simp)
    · exact h.frame (F := []) (le_of_eq hlast.symm)
        (fun e he => GroupStream.live_claim hclaim he) (List.append_nil _).symm (by simp) (by simp)
  | advance i pick =>
    obtain ⟨d, redis, stage, hi, hturn, rfl⟩ := step_advance hstep
    exact h.turn (hroom d hi) hi hturn
  | result i success =>
    obtain ⟨d, stage, hi, hturn, rfl⟩ := step_result hstep
    obtain ⟨attempt, hstage⟩ := dispatching_of_result hstep hi
    exact h.turn (by simp [hstage, Stage.adds]) hi hturn
  | raise i executed pick => exact hcalm.elim
  | interrupt i =>
    obtain ⟨d, hi, hint, rfl, rfl⟩ := step_interrupt hstep
    refine h.silent hi rfl (fun attempt now hstage => ?_) (by simp) (by simp)
    simpa [Delivery.interruptible, hstage] using hint
  | exit c =>
    obtain ⟨-, rfl, rfl⟩ := step_exit hstep
    exact h.frame (F := []) (le_refl _)
      (fun e he => GroupStream.live_deleteConsumer (hdrained e he.1) he)
      (List.append_nil _).symm (by simp) (by simp)
  | crash c => exact hcalm.elim
  | tick dt =>
    obtain ⟨rfl, rfl⟩ := Prod.mk.inj (Option.some.inj hstep)
    exact hsame rfl rfl

/-- An orderly run is calm, and there is room for everything that is added. -/
theorem Orderly.calm {a : BrokerAction π} (h : Orderly cfg s a) : Calm a ∧ Roomy cfg s a := by
  obtain ⟨hback, horderly⟩ := h
  cases a with
  | crash _ | raise _ _ _ => exact horderly.elim
  | runTask _ _ => exact ⟨trivial, hback⟩
  | advance _ _ => exact ⟨trivial, fun _ _ _ => hback⟩
  | enter _ | receive _ | claim _ _ | result _ _ | interrupt _ | shutdown _ | exit _ | tick _ =>
    exact ⟨trivial, trivial⟩

theorem brokerEvents_concat (tr : BrokerTrace π) (q : BrokerAction π × List (BrokerEvent π)) :
    brokerEvents (tr ++ [q]) = brokerEvents tr ++ q.2 := by
  rw [brokerEvents, brokerEvents, List.flatMap_append, List.flatMap_singleton]

/-- In every run without crashes whose brokers all leave with an empty pending list,
every entry that was added, by `run_task` or again, is at every moment acknowledged,
dead-lettered, replaced, or still live. -/
theorem added_kept {tr : BrokerTrace π}
    (hrun : Run (BrokerSystem.step cfg) (fun s a => Orderly cfg s a ∧ Drained s a) {} tr s)
    {id : StreamId} {op : Operation π} (hadded : .added id op ∈ brokerEvents tr) :
    Kept cfg (brokerEvents tr) s id := by
  have hinv := hrun.forward (P := fun tr s => KeptInv cfg (brokerEvents tr) s)
    (fun tr s a s' new h hok hstep => by
      rw [brokerEvents_concat]
      exact h.step hok.1.calm.1 hok.1.calm.2 hok.2 hstep)
    { kept := fun id op hid => absurd hid List.not_mem_nil
      lettered := fun d hd => absurd hd List.not_mem_nil
      bounded := fun d hd => absurd hd List.not_mem_nil }
  exact hinv.kept id op hadded

/-- A broker is shut down while a handler runs; another one claims the entry before the
first one leaves. -/
def claimedBeforeExit : List (BrokerAction String) :=
  [.runTask "op" ⟨toLex (1, 0), 0⟩, .enter 0, .enter 1, .receive 0, .advance 0 {}, .advance 0 {},
    .advance 0 {}, .shutdown 0, .interrupt 0, .claim 1 (toLex (1, 0)), .exit 0]

theorem claimedBeforeExit_kept : ∃ tr s,
    Run (BrokerSystem.step {}) (fun s a => Orderly {} s a ∧ Drained s a) {} tr s ∧
      .added (toLex (1, 0)) ⟨0, "op"⟩ ∈ brokerEvents tr ∧
      Kept {} (brokerEvents tr) s (toLex (1, 0)) := by
  have hrun := run_finalState (BrokerSystem.step {}) (fun s a => Orderly {} s a ∧ Drained s a) {}
    claimedBeforeExit (by decide +kernel)
  have hadded : BrokerEvent.added (toLex (1, 0)) ⟨0, "op"⟩ ∈ brokerEvents (traceOf
      (BrokerSystem.step {}) (fun s a => Orderly {} s a ∧ Drained s a) {} claimedBeforeExit) := by
    decide +kernel
  exact ⟨_, _, hrun, hadded, added_kept hrun hadded⟩

/-- A broker is shut down while a handler runs, and leaves. -/
def interruptedByExit : List (BrokerAction String) :=
  [.runTask "op" ⟨toLex (1, 0), 0⟩, .enter 0, .receive 0, .advance 0 {}, .advance 0 {},
    .advance 0 {}, .shutdown 0, .interrupt 0, .exit 0]

/-- The interrupted operation is lost. -/
theorem interruptedByExit_lost : ∃ tr s,
    Run (BrokerSystem.step {}) (Orderly {}) {} tr s ∧
      .added (toLex (1, 0)) ⟨0, "op"⟩ ∈ brokerEvents tr ∧
      ¬Kept {} (brokerEvents tr) s (toLex (1, 0)) := by
  have hrun := run_finalState (BrokerSystem.step {}) (Orderly {}) {} interruptedByExit
    (by decide +kernel)
  have hevents : brokerEvents (traceOf (BrokerSystem.step {}) (Orderly {}) {} interruptedByExit) =
      [.added (toLex (1, 0)) ⟨0, "op"⟩, .dispatched ⟨0, "op"⟩ 1] := by decide +kernel
  have hdeliveries : ∀ d ∈ (finalState (BrokerSystem.step {}) (Orderly {}) {}
      interruptedByExit).deliveries, d.stage = .finished := by decide +kernel
  have hstream : ∀ e ∈ (finalState (BrokerSystem.step {}) (Orderly {}) {}
      interruptedByExit).redis.stream.entries,
      (finalState (BrokerSystem.step {}) (Orderly {}) {}
        interruptedByExit).redis.stream.isLive e = false := by decide +kernel
  refine ⟨_, _, hrun, by rw [hevents]; simp, fun hkept => ?_⟩
  rw [Kept, hevents] at hkept
  rcases hkept with h | h | h | ⟨i, d, attempt, now, hi, -, hstage, -⟩ | ⟨e, -, he⟩
  · simp at h
  · simp at h
  · simp at h
  · rw [hdeliveries d (List.mem_of_getElem? hi)] at hstage
    simp at hstage
  · obtain ⟨hmem, hlive⟩ := GroupStream.live_iff.mp he
    rw [hstream e hmem] at hlive
    simp at hlive

end BrokerSystem

end A2AKit
