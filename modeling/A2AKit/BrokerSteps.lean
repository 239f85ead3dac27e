/-
What a step of a delivery does.

`Sent` lists what a request of a move does to Redis, `Turn` what a step of a delivery
does altogether: how Redis changes, the next stage, and the events.  Invariants of
the broker go through these cases and never through the command lists.

* `sent_of_exec`, `turn_of_advance`, `turn_of_result` and `failed_of_raise` — every step
  of a delivery is one of the cases;
* `BrokerSystem.step_advance` and the like — what each action does to the system.
-/
import A2AKit.RedisBroker
import A2AKit.Runs
import Mathlib.Tactic.Common

namespace A2AKit

variable {π : Type}

namespace BrokerMove

/-- The move puts the operation into the dead-letter stream. -/
def letters (cfg : BrokerConfig π) : BrokerMove → Bool
  | .reject | .poison _ => true
  | .nack attempt _ => decide (attempt + 1 > cfg.maxRetries)
  | _ => false

/-- The move is an acknowledgement. -/
def acks : BrokerMove → Bool
  | .ack _ | .ackPoison | .ackFailed => true
  | _ => false

/-- After so many requests the entry is off the pending list. -/
def settledAt (cfg : BrokerConfig π) (move : BrokerMove) : Nat := if move.letters cfg then 2 else 1

theorem settledAt_pos (cfg : BrokerConfig π) (move : BrokerMove) : 0 < move.settledAt cfg := by
  rw [settledAt]
  split <;> omega

/-- The number of the request that clears the crash counter. -/
def clearAt : BrokerMove → Option Nat
  | .ack _ | .ackPoison | .ackFailed => some 1
  | .poison _ | .nack _ _ => some 2
  | .requeue | .reject => none

theorem settledAt_le_clearAt (cfg : BrokerConfig π) {move : BrokerMove} {sent : Nat}
    (h : move.clearAt = some sent) : move.settledAt cfg ≤ sent := by
  rw [settledAt]
  cases move with
  | ack _ | ackPoison | ackFailed =>
    obtain rfl := Option.some.inj h
    exact le_refl 1
  | poison _ | nack _ _ =>
    obtain rfl := Option.some.inj h
    split <;> omega
  | requeue | reject => simp [clearAt] at h

end BrokerMove

/-- What the request number `sent` of a move does. -/
inductive Sent (cfg : BrokerConfig π) (pick : Pick) (r : BrokerRedis π) (d : Delivery π) :
    BrokerMove → Nat → BrokerRedis π → List (BrokerEvent π) → Prop
  | requeue {stream} :
      r.stream.add cfg.streamMaxlen pick.id pick.trimmed d.fields = some stream →
      Sent cfg pick r d .requeue 0
        { r with
          stream := stream.ack d.id
          crashCounts := Function.update r.crashCounts d.id 0 }
        [.added pick.id d.fields.op, .replaced d.id]
  | letter {move dlq} : move.letters cfg = true →
      Sent cfg pick r d move 0 { r with dlq } [.deadLettered d.id]
  | settle {move} : move.letters cfg = true →
      Sent cfg pick r d move 1 { r with stream := r.stream.ack d.id } []
  | ack {move} : move.acks = true →
      Sent cfg pick r d move 0 { r with stream := r.stream.ack d.id } [.acknowledged d.id]
  | retry {attempt now} : attempt + 1 ≤ cfg.maxRetries →
      Sent cfg pick r d (.nack attempt now) 0 { r with stream := r.stream.ack d.id } []
  | readd {attempt now stream fields} : attempt + 1 ≤ cfg.maxRetries →
      fields.op = d.fields.op → fields.attempt = attempt + 1 →
      r.stream.add cfg.streamMaxlen pick.id pick.trimmed fields = some stream →
      Sent cfg pick r d (.nack attempt now) 1 { r with stream }
        [.added pick.id d.fields.op, .replaced d.id]
  | clear {move sent} : move.clearAt = some sent →
      Sent cfg pick r d move sent
        { r with crashCounts := Function.update r.crashCounts d.id 0 } []

section Sent

variable {cfg : BrokerConfig π} {pick : Pick} {r r' : BrokerRedis π} {d : Delivery π}

theorem exec_request_singleton (command : RedisCommand π) :
    Request.exec cfg pick r [command] = command.exec cfg pick r := by
  cases h : command.exec cfg pick r <;> simp [Request.exec, h]

theorem exec_xaddDlq_eq {source : StreamId} {letter : DeadLetter π}
    (h : (RedisCommand.xaddDlq source letter).exec cfg pick r = some r') :
    ∃ dlq, r' = { r with dlq } := by
  rw [RedisCommand.exec] at h
  split at h
  · exact ⟨_, (Option.some.inj h).symm⟩
  · exact absurd h (by simp)

theorem exec_requeue_eq
    (h : Request.exec cfg pick r [.xadd d.id d.fields, .xack d.id, .hdel d.id] = some r') :
    ∃ stream, r.stream.add cfg.streamMaxlen pick.id pick.trimmed d.fields = some stream ∧
      r' = { r with
        stream := stream.ack d.id
        crashCounts := Function.update r.crashCounts d.id 0 } := by
  rw [Request.exec, List.foldlM_cons] at h
  obtain ⟨r₁, h₁, h₂⟩ := Option.bind_eq_some_iff.mp h
  obtain ⟨stream, hadd, rfl⟩ := Option.map_eq_some_iff.mp h₁
  refine ⟨stream, hadd, ?_⟩
  simpa [RedisCommand.exec] using h₂.symm

/-- The requests of the moves that write a dead letter. -/
theorem requests_of_letters {move : BrokerMove} (h : move.letters cfg = true) :
    ∃ letter rest, d.requests cfg move = [.xaddDlq d.id letter] :: [.xack d.id] :: rest ∧
      (rest = [] ∨ rest = [[.hdel d.id]] ∧ move.clearAt = some 2) := by
  cases move with
  | reject => exact ⟨_, [], rfl, Or.inl rfl⟩
  | poison attempt => exact ⟨_, [[.hdel d.id]], rfl, Or.inr ⟨rfl, rfl⟩⟩
  | nack attempt now =>
    rw [BrokerMove.letters, decide_eq_true_eq] at h
    refine ⟨⟨d.fields.op, .attempt (attempt + 1)⟩, [[.hdel d.id]], ?_, Or.inr ⟨rfl, rfl⟩⟩
    rw [Delivery.requests, nackCommands, if_pos h]
  | requeue | ack _ | ackPoison | ackFailed => simp [BrokerMove.letters] at h

variable (cfg d) in
theorem requests_of_acks {move : BrokerMove} (h : move.acks = true) :
    d.requests cfg move = [[.xack d.id], [.hdel d.id]] := by
  cases move with
  | ack _ | ackPoison | ackFailed => rfl
  | requeue | reject | poison _ | nack _ _ => simp [BrokerMove.acks] at h

theorem clearAt_of_acks {move : BrokerMove} (h : move.acks = true) : move.clearAt = some 1 := by
  cases move with
  | ack _ | ackPoison | ackFailed => rfl
  | requeue | reject | poison _ | nack _ _ => simp [BrokerMove.acks] at h

theorem requestEvents_acks {move : BrokerMove} (h : move.acks = true) (request : Request π) :
    d.requestEvents pick move request = request.flatMap (RedisCommand.events pick) ++
      if request.any RedisCommand.isXack then [.acknowledged d.id] else [] := by
  cases move with
  | ack _ | ackPoison | ackFailed => rfl
  | requeue | reject | poison _ | nack _ _ => simp [BrokerMove.acks] at h

theorem requestEvents_plain {move : BrokerMove} (h : move.acks = false) (request : Request π) :
    d.requestEvents pick move request = request.flatMap (RedisCommand.events pick) := by
  cases move with
  | ack _ | ackPoison | ackFailed => simp [BrokerMove.acks] at h
  | requeue | reject | poison _ | nack _ _ =>
    exact List.append_nil _

/-- A move to the dead-letter stream: the letter, the acknowledgement, and what clears the count. -/
theorem sent_of_letters {move : BrokerMove} {sent : Nat} {request : Request π}
    (hletters : move.letters cfg = true) (hget : (d.requests cfg move)[sent]? = some request)
    (hexec : request.exec cfg pick r = some r') :
    Sent cfg pick r d move sent r' (d.requestEvents pick move request) := by
  obtain ⟨letter, rest, hreq, hrest⟩ := requests_of_letters (d := d) hletters
  have hplain : move.acks = false := by
    cases move <;> simp [BrokerMove.letters, BrokerMove.acks] at hletters ⊢
  rw [requestEvents_plain hplain]
  rw [hreq] at hget
  match sent with
  | 0 =>
    obtain rfl : _ = request := by simpa using hget
    rw [exec_request_singleton] at hexec
    obtain ⟨dlq, rfl⟩ := exec_xaddDlq_eq hexec
    exact .letter hletters
  | 1 =>
    obtain rfl : _ = request := by simpa using hget
    rw [exec_request_singleton] at hexec
    obtain rfl := Option.some.inj hexec
    exact .settle hletters
  | n + 2 =>
    rcases hrest with rfl | ⟨rfl, hclear⟩
    · simp at hget
    · match n with
      | 0 =>
        obtain rfl : _ = request := by simpa using hget
        rw [exec_request_singleton] at hexec
        obtain rfl := Option.some.inj hexec
        exact .clear hclear
      | n + 1 => simp at hget

/-- A move that acknowledges its entry. -/
theorem sent_of_acks {move : BrokerMove} {sent : Nat} {request : Request π}
    (hacks : move.acks = true) (hget : (d.requests cfg move)[sent]? = some request)
    (hexec : request.exec cfg pick r = some r') :
    Sent cfg pick r d move sent r' (d.requestEvents pick move request) := by
  rw [requestEvents_acks hacks]
  rw [requests_of_acks cfg d hacks] at hget
  match sent with
  | 0 =>
    obtain rfl : _ = request := by simpa using hget
    rw [exec_request_singleton] at hexec
    obtain rfl := Option.some.inj hexec
    exact .ack hacks
  | 1 =>
    obtain rfl : _ = request := by simpa using hget
    rw [exec_request_singleton] at hexec
    obtain rfl := Option.some.inj hexec
    exact .clear (clearAt_of_acks hacks)
  | n + 2 => simp at hget

/-- A request of a move does what `Sent` says. -/
theorem sent_of_exec {move : BrokerMove} {sent : Nat} {request : Request π}
    (hget : (d.requests cfg move)[sent]? = some request)
    (hexec : request.exec cfg pick r = some r') :
    Sent cfg pick r d move sent r' (d.requestEvents pick move request) := by
  by_cases hletters : move.letters cfg = true
  · exact sent_of_letters hletters hget hexec
  by_cases hacks : move.acks = true
  · exact sent_of_acks hacks hget hexec
  rw [requestEvents_plain (Bool.eq_false_iff.mpr hacks)]
  cases move with
  | requeue =>
    match sent with
    | 0 =>
      obtain rfl : _ = request := by simpa [Delivery.requests, requeueCommands] using hget
      obtain ⟨stream, hadd, rfl⟩ := exec_requeue_eq hexec
      exact .requeue hadd
    | n + 1 => simp [Delivery.requests, requeueCommands] at hget
  | nack attempt now =>
    -- the dead-letter branch of `nack` is one of the moves above
    have hretry : attempt + 1 ≤ cfg.maxRetries := by
      simpa [BrokerMove.letters] using hletters
    rw [Delivery.requests, nackCommands, if_neg (by omega)] at hget
    match sent with
    | 0 =>
      obtain rfl : _ = request := by simpa using hget
      rw [exec_request_singleton] at hexec
      obtain rfl := Option.some.inj hexec
      exact .retry hretry
    | 1 =>
      obtain rfl : _ = request := by simpa using hget
      rw [exec_request_singleton] at hexec
      obtain ⟨stream, hadd, rfl⟩ := Option.map_eq_some_iff.mp hexec
      refine .readd hretry ?_ ?_ hadd <;> rfl
    | 2 =>
      obtain rfl : _ = request := by simpa using hget
      rw [exec_request_singleton] at hexec
      obtain rfl := Option.some.inj hexec
      exact .clear rfl
    | n + 3 => simp at hget
  | reject | poison _ => simp [BrokerMove.letters] at hletters
  | ack _ | ackPoison | ackFailed => simp [BrokerMove.acks] at hacks

end Sent

/-! ### Steps of a delivery -/

/-- What a step of a delivery does when no request raises an exception. -/
inductive Turn (cfg : BrokerConfig π) (now : Nat) (r : BrokerRedis π) (d : Delivery π) :
    BrokerRedis π → Stage → List (BrokerEvent π) → Prop
  | requeue : d.stage = .received ∨ d.stage = .claimed → d.isDue now = false →
      Turn cfg now r d r (.moving .requeue 0) []
  | reject : d.stage = .received ∨ d.stage = .claimed → Turn cfg now r d r (.moving .reject 0) []
  | accept : d.stage = .received → d.isDue now = true →
      Turn cfg now r d r (.yielding d.fields.attempt) []
  | tally : d.stage = .claimed → d.isDue now = true → Turn cfg now r d r .counting []
  | poison : d.stage = .counting →
      Turn cfg now r d (d.count r)
        (.moving (.poison (d.fields.attempt + (r.crashCounts d.id + 1))) 0) []
  | retry : d.stage = .counting →
      Turn cfg now r d (d.count r) (.yielding (d.fields.attempt + (r.crashCounts d.id + 1))) []
  | sent {pick move sent r' events} : d.stage = .moving move sent →
      Sent cfg pick r d move sent r' events →
      Turn cfg now r d r' (.moving move (sent + 1)) events
  | done {move sent} : d.stage = .moving move sent → (d.requests cfg move)[sent]? = none →
      Turn cfg now r d r (Delivery.done move) []
  | hand {attempt} : d.stage = .yielding attempt → Turn cfg now r d r (.start attempt) []
  | refuse {attempt} : d.stage = .start attempt → cfg.adapterMaxRetries < attempt →
      Turn cfg now r d r .markingPoison []
  | dispatch {attempt} : d.stage = .start attempt → attempt ≤ cfg.adapterMaxRetries →
      Turn cfg now r d r (.dispatching attempt) [.dispatched d.fields.op attempt]
  | markPoison : d.stage = .markingPoison → Turn cfg now r d r (.moving .ackPoison 0) []
  | markFailed : d.stage = .markingFailed → Turn cfg now r d r (.moving .ackFailed 0) []
  | success {attempt} : d.stage = .dispatching attempt →
      Turn cfg now r d r (.moving (.ack attempt) 0) []
  | failure {attempt} : d.stage = .dispatching attempt →
      Turn cfg now r d r (Delivery.afterFailure cfg now attempt) []

/-- What an exception of a request does. -/
inductive Failed (cfg : BrokerConfig π) (now : Nat) (r : BrokerRedis π) (d : Delivery π) :
    BrokerRedis π → Stage → List (BrokerEvent π) → Prop
  | counted : d.stage = .counting → Failed cfg now r d (d.count r) (.moving .reject 0) []
  | uncounted : d.stage = .counting → Failed cfg now r d r (.moving .reject 0) []
  | sent {pick move sent r' events} : d.stage = .moving move sent →
      Sent cfg pick r d move sent r' events →
      Failed cfg now r d r' (Delivery.raised cfg now move) events
  | lost {move sent} : d.stage = .moving move sent →
      Failed cfg now r d r (Delivery.raised cfg now move) []

section Turn

variable {cfg : BrokerConfig π} {now : Nat} {pick : Pick} {r r' : BrokerRedis π}
  {d : Delivery π} {stage : Stage} {events : List (BrokerEvent π)}

theorem turn_of_advance (h : d.advance cfg now pick r = some (r', stage, events)) :
    Turn cfg now r d r' stage events := by
  -- in each branch the outcome is read off, and `Turn` has a constructor for it
  have hout {r₁ : BrokerRedis π} {stage₁ : Stage} {events₁ : List (BrokerEvent π)}
      (heq : some (r₁, stage₁, events₁) = some (r', stage, events))
      (h₁ : Turn cfg now r d r₁ stage₁ events₁) : Turn cfg now r d r' stage events := by
    obtain ⟨rfl, h₂⟩ := Prod.mk.inj (Option.some.inj heq)
    obtain ⟨rfl, rfl⟩ := Prod.mk.inj h₂
    exact h₁
  cases hstage : d.stage with
  | received =>
    simp only [Delivery.advance, hstage] at h
    cases hdue : d.isDue now with
    | false => exact hout (by simpa [hdue] using h) (.requeue (Or.inl hstage) hdue)
    | true =>
      by_cases hop : cfg.deserializes d.fields.op.payload
      · exact hout (by simpa [hdue, hop] using h) (.accept hstage hdue)
      · exact hout (by simpa [hdue, hop] using h) (.reject (Or.inl hstage))
  | claimed =>
    simp only [Delivery.advance, hstage] at h
    cases hdue : d.isDue now with
    | false => exact hout (by simpa [hdue] using h) (.requeue (Or.inr hstage) hdue)
    | true =>
      by_cases hop : cfg.deserializes d.fields.op.payload
      · exact hout (by simpa [hdue, hop] using h) (.tally hstage hdue)
      · exact hout (by simpa [hdue, hop] using h) (.reject (Or.inr hstage))
  | counting =>
    simp only [Delivery.advance, hstage] at h
    by_cases hmax : d.fields.attempt + (r.crashCounts d.id + 1) > cfg.maxRetries
    · rw [if_pos hmax] at h
      exact hout h (.poison hstage)
    · rw [if_neg hmax] at h
      exact hout h (.retry hstage)
  | moving move sent =>
    simp only [Delivery.advance, hstage] at h
    cases hget : (d.requests cfg move)[sent]? with
    | none =>
      simp only [hget] at h
      exact hout h (.done hstage hget)
    | some request =>
      simp only [hget] at h
      obtain ⟨r₁, hexec, heq⟩ := Option.map_eq_some_iff.mp h
      exact hout (congrArg some heq) (.sent hstage (sent_of_exec hget hexec))
  | yielding attempt =>
    simp only [Delivery.advance, hstage] at h
    exact hout h (.hand hstage)
  | start attempt =>
    simp only [Delivery.advance, hstage] at h
    split at h
    · rename_i hmax
      exact hout h (.refuse hstage hmax)
    · rename_i hmax
      exact hout h (.dispatch hstage (not_lt.mp hmax))
  | markingPoison =>
    simp only [Delivery.advance, hstage] at h
    exact hout h (.markPoison hstage)
  | markingFailed =>
    simp only [Delivery.advance, hstage] at h
    exact hout h (.markFailed hstage)
  | dispatching _ | finished => simp [Delivery.advance, hstage] at h

theorem turn_of_result {success : Bool} (h : d.result cfg now success = some stage) :
    Turn cfg now r d r stage [] := by
  rw [Delivery.result] at h
  split at h
  · rename_i attempt hstage
    obtain rfl := Option.some.inj h
    cases success with
    | true => exact .success hstage
    | false => exact .failure hstage
  · exact absurd h (by simp)

theorem failed_of_raise {executed : Bool}
    (h : d.raise cfg now pick executed r = some (r', stage, events)) :
    Failed cfg now r d r' stage events := by
  have hout {r₁ : BrokerRedis π} {stage₁ : Stage} {events₁ : List (BrokerEvent π)}
      (heq : some (r₁, stage₁, events₁) = some (r', stage, events))
      (h₁ : Failed cfg now r d r₁ stage₁ events₁) : Failed cfg now r d r' stage events := by
    obtain ⟨rfl, h₂⟩ := Prod.mk.inj (Option.some.inj heq)
    obtain ⟨rfl, rfl⟩ := Prod.mk.inj h₂
    exact h₁
  rw [Delivery.raise] at h
  split at h
  · rename_i hstage
    cases executed with
    | true => exact hout h (.counted hstage)
    | false => exact hout h (.uncounted hstage)
  · rename_i move sent hstage
    split at h
    · exact absurd h (by simp)
    · rename_i request hget
      cases executed with
      | true =>
        rw [if_pos rfl] at h
        obtain ⟨r₁, hexec, heq⟩ := Option.map_eq_some_iff.mp h
        exact hout (congrArg some heq) (.sent hstage (sent_of_exec hget hexec))
      | false => exact hout h (.lost hstage)
  · exact absurd h (by simp)

end Turn

/-! ### Steps of the system -/

namespace BrokerSystem

variable {cfg : BrokerConfig π} {s s' : BrokerSystem π} {events : List (BrokerEvent π)}
  {i : Nat}

theorem step_advance {pick : Pick} (h : s.step cfg (.advance i pick) = some (s', events)) :
    ∃ d redis stage, s.deliveries[i]? = some d ∧
      Turn cfg s.clock s.redis d redis stage events ∧
      s' = { s.setStage i d stage with redis } := by
  obtain ⟨d, hd, h⟩ := Option.bind_eq_some_iff.mp h
  obtain ⟨⟨redis, stage, events'⟩, hadv, h⟩ := Option.bind_eq_some_iff.mp h
  obtain ⟨rfl, rfl⟩ := Prod.mk.inj (Option.some.inj h)
  exact ⟨d, redis, stage, hd, turn_of_advance hadv, rfl⟩

theorem step_result {success : Bool} (h : s.step cfg (.result i success) = some (s', events)) :
    ∃ d stage, s.deliveries[i]? = some d ∧ Turn cfg s.clock s.redis d s.redis stage events ∧
      s' = s.setStage i d stage := by
  obtain ⟨d, hd, h⟩ := Option.bind_eq_some_iff.mp h
  obtain ⟨stage, hres, h⟩ := Option.bind_eq_some_iff.mp h
  obtain ⟨rfl, rfl⟩ := Prod.mk.inj (Option.some.inj h)
  exact ⟨d, stage, hd, turn_of_result hres, rfl⟩

theorem dispatching_of_result {success : Bool} {d : Delivery π}
    (h : s.step cfg (.result i success) = some (s', events)) (hi : s.deliveries[i]? = some d) :
    ∃ attempt, d.stage = .dispatching attempt := by
  obtain ⟨d', hd', h⟩ := Option.bind_eq_some_iff.mp h
  obtain rfl := Option.some.inj (hi.symm.trans hd')
  obtain ⟨stage, hres, -⟩ := Option.bind_eq_some_iff.mp h
  rw [Delivery.result] at hres
  split at hres
  · rename_i attempt hstage
    exact ⟨attempt, hstage⟩
  · exact absurd hres (by simp)

theorem step_raise {executed : Bool} {pick : Pick}
    (h : s.step cfg (.raise i executed pick) = some (s', events)) :
    ∃ d redis stage, s.deliveries[i]? = some d ∧
      Failed cfg s.clock s.redis d redis stage events ∧
      s' = { s.setStage i d stage with redis } := by
  obtain ⟨d, hd, h⟩ := Option.bind_eq_some_iff.mp h
  obtain ⟨⟨redis, stage, events'⟩, hraise, h⟩ := Option.bind_eq_some_iff.mp h
  obtain ⟨rfl, rfl⟩ := Prod.mk.inj (Option.some.inj h)
  exact ⟨d, redis, stage, hd, failed_of_raise hraise, rfl⟩

theorem step_interrupt (h : s.step cfg (.interrupt i) = some (s', events)) :
    ∃ d, s.deliveries[i]? = some d ∧ d.interruptible cfg = true ∧
      s' = s.setStage i d .finished ∧ events = [] := by
  obtain ⟨d, hd, h⟩ := Option.bind_eq_some_iff.mp h
  split at h
  · rename_i hint
    obtain ⟨rfl, rfl⟩ := Prod.mk.inj (Option.some.inj h)
    exact ⟨d, hd, hint, rfl, rfl⟩
  · exact absurd h (by simp)

theorem step_runTask {payload : π} {pick : Pick}
    (h : s.step cfg (.runTask payload pick) = some (s', events)) :
    ∃ stream, s.redis.stream.add cfg.streamMaxlen pick.id pick.trimmed
        { op := ⟨s.nextSerial, payload⟩, attempt := 1 } = some stream ∧
      s' = { s.setStream stream with nextSerial := s.nextSerial + 1 } ∧
      events = [.added pick.id ⟨s.nextSerial, payload⟩] := by
  obtain ⟨stream, hadd, h⟩ := Option.map_eq_some_iff.mp h
  obtain ⟨rfl, rfl⟩ := Prod.mk.inj h
  exact ⟨stream, hadd, rfl, rfl⟩

theorem step_receive {c : ConsumerName} (h : s.step cfg (.receive c) = some (s', events)) :
    s.consumers c = .active ∧ ∃ entry stream, s.redis.stream.read c = some (entry, stream) ∧
      s' = (s.setStream stream).deliver c entry .received ∧ events = [] := by
  rw [step] at h
  split at h
  · rename_i hrec
    obtain ⟨⟨entry, stream⟩, hread, h⟩ := Option.map_eq_some_iff.mp h
    obtain ⟨rfl, rfl⟩ := Prod.mk.inj h
    rw [receives, Bool.and_eq_true, decide_eq_true_eq] at hrec
    exact ⟨hrec.1, entry, stream, hread, rfl, rfl⟩
  · exact absurd h (by simp)

theorem step_claim {c : ConsumerName} {id : StreamId}
    (h : s.step cfg (.claim c id) = some (s', events)) :
    s.consumers c = .active ∧ ∃ o stream, s.redis.stream.claim c id = some (o, stream) ∧
      events = [] ∧
      ((∃ entry, o = some entry ∧ s' = (s.setStream stream).deliver c entry .claimed) ∨
        o = none ∧ s' = s.setStream stream) := by
  rw [step] at h
  split at h
  · rename_i hrec
    obtain ⟨⟨o, stream⟩, hclaim, h⟩ := Option.map_eq_some_iff.mp h
    rw [receives, Bool.and_eq_true, decide_eq_true_eq] at hrec
    refine ⟨hrec.1, o, stream, hclaim, ?_⟩
    cases o with
    | some entry =>
      obtain ⟨rfl, rfl⟩ := Prod.mk.inj h
      exact ⟨rfl, Or.inl ⟨entry, rfl, rfl⟩⟩
    | none =>
      obtain ⟨rfl, rfl⟩ := Prod.mk.inj h
      exact ⟨rfl, Or.inr ⟨rfl, rfl⟩⟩
  · exact absurd h (by simp)

theorem step_exit {c : ConsumerName} (h : s.step cfg (.exit c) = some (s', events)) :
    (∀ d ∈ s.deliveries, d.consumer = c → d.stage = .finished) ∧ events = [] ∧
      s' = (s.setStream (s.redis.stream.deleteConsumer c)).setStatus c .closed := by
  rw [step] at h
  split at h
  · rename_i hguard
    obtain ⟨rfl, rfl⟩ := Prod.mk.inj (Option.some.inj h)
    exact ⟨hguard.2, rfl, rfl⟩
  · exact absurd h (by simp)

theorem step_status {c : ConsumerName} {a : BrokerAction π}
    (ha : a = .enter c ∨ a = .shutdown c) (h : s.step cfg a = some (s', events)) :
    events = [] ∧ s.consumers c ≠ .crashed ∧ ∃ status, status ≠ .crashed ∧
      s' = s.setStatus c status := by
  rcases ha with rfl | rfl
  · rw [step] at h
    split at h
    · rename_i hc
      obtain ⟨rfl, rfl⟩ := Prod.mk.inj (Option.some.inj h)
      exact ⟨rfl, by simp [hc], .active, by simp, rfl⟩
    · exact absurd h (by simp)
  · rw [step] at h
    split at h
    · rename_i hc
      obtain ⟨rfl, rfl⟩ := Prod.mk.inj (Option.some.inj h)
      exact ⟨rfl, by simp [hc], .stopping, by simp, rfl⟩
    · exact absurd h (by simp)

end BrokerSystem

end A2AKit
