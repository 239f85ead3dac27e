/-
The operations that Redis workers execute.

A worker executes what `_deserialize_operation` makes of the text of an entry.  The text is the one
that `run_task` wrote: retries, entries that are put back, claimed entries and dead letters carry it
on unchanged, whichever commands fail and whichever processes die.

* `Written.step` — no step makes up a text;
* `operations_intact` — so every dispatch is one of a submitted operation with its parameters, and
  where no command raises an exception no operation is thrown away as unreadable.
-/
import A2AKit.BrokerSteps
import A2AKit.RedisTexts

namespace A2AKit

namespace BrokerSystem

variable {π : Type} {cfg : BrokerConfig π} {pick : Pick} {r r' : BrokerRedis π} {d : Delivery π}
  {move : BrokerMove} {request : Request π} {stage : Stage} {events : List (BrokerEvent π)}
  {s s' : BrokerSystem π} {texts : List π} {now : Nat}

/-! ### What requests write -/

/-- An entry of the stream was there before or is one that the request adds. -/
theorem entry_of_exec (h : request.exec cfg pick r = some r')
    {e : StreamEntry StreamId (OpFields π)} (he : e ∈ r'.stream.entries) :
    e ∈ r.stream.entries ∨ ∃ source, .xadd source e.data ∈ request := by
  induction request generalizing r with
  | nil =>
    obtain rfl := Option.some.inj h
    exact Or.inl he
  | cons command request ih =>
    obtain ⟨r₁, hcommand, hrest⟩ := Option.bind_eq_some_iff.mp h
    rcases ih hrest with he | ⟨source, hmem⟩
    · cases command with
      | xadd source fields =>
        obtain ⟨stream, hadd, rfl⟩ := Option.map_eq_some_iff.mp hcommand
        rcases GroupStream.mem_of_add hadd he with he | rfl
        · exact Or.inl he
        · exact Or.inr ⟨source, List.mem_cons_self⟩
      | xaddDlq source letter =>
        obtain ⟨dlq, rfl⟩ := exec_xaddDlq_eq hcommand
        exact Or.inl he
      | xack id =>
        obtain rfl := Option.some.inj hcommand
        exact Or.inl he
      | hdel id =>
        obtain rfl := Option.some.inj hcommand
        exact Or.inl he
    · exact Or.inr ⟨source, List.mem_cons_of_mem _ hmem⟩

/-- A dead letter was there before or is one that the request writes. -/
theorem letter_of_exec (h : request.exec cfg pick r = some r') {letter : DeadLetter π}
    (hletter : letter ∈ r'.dlq) : letter ∈ r.dlq ∨ ∃ source, .xaddDlq source letter ∈ request := by
  induction request generalizing r with
  | nil =>
    obtain rfl := Option.some.inj h
    exact Or.inl hletter
  | cons command request ih =>
    obtain ⟨r₁, hcommand, hrest⟩ := Option.bind_eq_some_iff.mp h
    rcases ih hrest with hletter | ⟨source, hmem⟩
    · cases command with
      | xadd source fields =>
        obtain ⟨stream, -, rfl⟩ := Option.map_eq_some_iff.mp hcommand
        exact Or.inl hletter
      | xaddDlq source new =>
        rw [RedisCommand.exec] at hcommand
        split at hcommand
        · obtain rfl := Option.some.inj hcommand
          rcases List.mem_append.mp (List.mem_of_mem_drop hletter) with hold | hnew
          · exact Or.inl hold
          · obtain rfl := List.mem_singleton.mp hnew
            exact Or.inr ⟨source, List.mem_cons_self⟩
        · cases hcommand
      | xack id =>
        obtain rfl := Option.some.inj hcommand
        exact Or.inl hletter
      | hdel id =>
        obtain rfl := Option.some.inj hcommand
        exact Or.inl hletter
    · exact Or.inr ⟨source, List.mem_cons_of_mem _ hmem⟩

/-- The entries and dead letters of a move carry the operation of the delivery, and only the move
of an entry that does not deserialize says so. -/
theorem requests_op (hrequest : request ∈ d.requests cfg move) :
    (∀ source fields, .xadd source fields ∈ request → fields.op = d.fields.op) ∧
      ∀ source letter, .xaddDlq source letter ∈ request →
        letter.op = d.fields.op ∧ (letter.note = .deserializationFailed → move = .reject) := by
  cases move with
  | requeue => simp_all [Delivery.requests, requeueCommands]
  | reject =>
    simp only [Delivery.requests, rejectCommands, List.mem_cons, List.not_mem_nil, or_false] at hrequest
    rcases hrequest with rfl | rfl <;> simp
  | poison attempt =>
    simp only [Delivery.requests, poisonCommands, List.mem_cons, List.not_mem_nil, or_false] at hrequest
    rcases hrequest with rfl | rfl | rfl <;> simp
  | ack _ | ackPoison | ackFailed =>
    simp only [Delivery.requests, ackCommands, List.mem_cons, List.not_mem_nil, or_false] at hrequest
    rcases hrequest with rfl | rfl <;> simp
  | nack attempt now =>
    simp only [Delivery.requests, nackCommands] at hrequest
    split at hrequest
    · simp only [List.mem_cons, List.not_mem_nil, or_false] at hrequest
      rcases hrequest with rfl | rfl | rfl <;> simp
    · simp only [List.mem_cons, List.not_mem_nil, or_false] at hrequest
      rcases hrequest with rfl | rfl | rfl <;> simp

/-! ### What a step of a delivery writes -/

/-- Redis has what it had, and what carries the operation of the delivery. -/
structure Carries (r : BrokerRedis π) (d : Delivery π) (r' : BrokerRedis π) : Prop where
  entries : ∀ e ∈ r'.stream.entries, e ∈ r.stream.entries ∨ e.data.op = d.fields.op
  letters : ∀ letter ∈ r'.dlq, letter ∈ r.dlq ∨ letter.op = d.fields.op ∧
    (letter.note = .deserializationFailed → ∃ sent, d.stage = .moving .reject sent)

theorem Carries.refl : Carries r d r :=
  ⟨fun _ he => Or.inl he, fun _ hletter => Or.inl hletter⟩

theorem carries_exec {sent : Nat} (hstage : d.stage = .moving move sent)
    (hget : (d.requests cfg move)[sent]? = some request)
    (h : request.exec cfg pick r = some r') : Carries r d r' := by
  obtain ⟨hadded, hwritten⟩ := requests_op (List.mem_of_getElem? hget)
  refine ⟨fun e he => ?_, fun letter hletter => ?_⟩
  · rcases entry_of_exec h he with he | ⟨source, hmem⟩
    · exact Or.inl he
    · exact Or.inr (hadded source _ hmem)
  · rcases letter_of_exec h hletter with hletter | ⟨source, hmem⟩
    · exact Or.inl hletter
    · obtain ⟨hop, hnote⟩ := hwritten source letter hmem
      exact Or.inr ⟨hop, fun heq => ⟨sent, by rw [hstage, hnote heq]⟩⟩

/-- A dispatch is one of the operation of the delivery. -/
def Dispatches (d : Delivery π) (events : List (BrokerEvent π)) : Prop :=
  ∀ op attempt, .dispatched op attempt ∈ events → op = d.fields.op

theorem dispatches_request : Dispatches d (d.requestEvents pick move request) := by
  intro op attempt hmem
  rcases List.mem_append.mp hmem with hmem | hmem
  · obtain ⟨command, -, hmem⟩ := List.mem_flatMap.mp hmem
    cases command <;> simp [RedisCommand.events] at hmem
  · cases move <;> simp [Delivery.ackEvents] at hmem

theorem dispatches_nil : Dispatches d [] :=
  fun _ _ hmem => absurd hmem List.not_mem_nil

/-- What holds of the outcome of a branch holds of the step that takes it. -/
theorem carries_of_eq {r₁ : BrokerRedis π} {stage₁ : Stage} {events₁ : List (BrokerEvent π)}
    (heq : some (r₁, stage₁, events₁) = some (r', stage, events))
    (h : Carries r d r₁ ∧ Dispatches d events₁) : Carries r d r' ∧ Dispatches d events := by
  obtain ⟨rfl, hrest⟩ := Prod.mk.inj (Option.some.inj heq)
  obtain ⟨-, rfl⟩ := Prod.mk.inj hrest
  exact h

theorem carries_advance (h : d.advance cfg now pick r = some (r', stage, events)) :
    Carries r d r' ∧ Dispatches d events := by
  cases hstage : d.stage with
  | moving move sent =>
    simp only [Delivery.advance, hstage] at h
    split at h
    · exact carries_of_eq h ⟨.refl, dispatches_nil⟩
    · rename_i request hget
      obtain ⟨r₁, hexec, heq⟩ := Option.map_eq_some_iff.mp h
      exact carries_of_eq (congrArg some heq)
        ⟨carries_exec hstage hget hexec, dispatches_request⟩
  | counting =>
    simp only [Delivery.advance, hstage] at h
    exact carries_of_eq h
      ⟨⟨fun _ he => Or.inl he, fun _ hletter => Or.inl hletter⟩, dispatches_nil⟩
  | start attempt =>
    simp only [Delivery.advance, hstage] at h
    split at h
    · exact carries_of_eq h ⟨.refl, dispatches_nil⟩
    · refine carries_of_eq h ⟨.refl, fun op attempt hmem => ?_⟩
      exact (BrokerEvent.dispatched.inj (List.mem_singleton.mp hmem)).1
  | received | claimed | yielding | markingPoison | markingFailed =>
    simp only [Delivery.advance, hstage] at h
    exact carries_of_eq h ⟨.refl, dispatches_nil⟩
  | dispatching | finished => simp [Delivery.advance, hstage] at h

theorem carries_raise {executed : Bool}
    (h : d.raise cfg now pick executed r = some (r', stage, events)) :
    Carries r d r' ∧ Dispatches d events := by
  rw [Delivery.raise] at h
  split at h
  · refine carries_of_eq h ⟨?_, dispatches_nil⟩
    split
    · exact ⟨fun _ he => Or.inl he, fun _ hletter => Or.inl hletter⟩
    · exact .refl
  · rename_i move sent hstage
    split at h
    · cases h
    · rename_i request hget
      split at h
      · obtain ⟨r₁, hexec, heq⟩ := Option.map_eq_some_iff.mp h
        exact carries_of_eq (congrArg some heq)
          ⟨carries_exec hstage hget hexec, dispatches_request⟩
      · exact carries_of_eq h ⟨.refl, dispatches_nil⟩
  · cases h

/-! ### Runs -/

/-- The operation has the text that was given to the `run_task` of its number. -/
def Written (texts : List π) (op : Operation π) : Prop := texts[op.serial]? = some op.payload

/-- Every text in Redis and in the hands of a consumer was given to `run_task`. -/
structure AllWritten (texts : List π) (s : BrokerSystem π) : Prop where
  serial : s.nextSerial = texts.length
  entries : ∀ e ∈ s.redis.stream.entries, Written texts e.data.op
  deliveries : ∀ d ∈ s.deliveries, Written texts d.fields.op
  letters : ∀ letter ∈ s.redis.dlq, Written texts letter.op

/-- The text that an action gives to `run_task`. -/
def submits : BrokerAction π → List π
  | .runTask payload _ => [payload]
  | _ => []

theorem Written.append {op : Operation π} (h : Written texts op) (texts' : List π) :
    Written (texts ++ texts') op := by
  obtain ⟨hlt, heq⟩ := List.getElem?_eq_some_iff.mp h
  rw [Written, List.getElem?_append_left hlt, h]

namespace AllWritten

/-- A step that adds no operation and delivers none. -/
theorem same (h : AllWritten texts s) (hserial : s'.nextSerial = s.nextSerial)
    (hentries : s'.redis.stream.entries = s.redis.stream.entries)
    (hdlq : s'.redis.dlq = s.redis.dlq)
    (hdeliveries : ∀ d' ∈ s'.deliveries, ∃ d ∈ s.deliveries, d'.fields = d.fields) :
    AllWritten texts s' where
  serial := hserial.trans h.serial
  entries e he := h.entries e (hentries ▸ he)
  letters letter hletter := h.letters letter (hdlq ▸ hletter)
  deliveries d' hd' := by
    obtain ⟨d, hd, heq⟩ := hdeliveries d' hd'
    rw [heq]
    exact h.deliveries d hd

theorem deliver (h : AllWritten texts s) {c : ConsumerName}
    {entry : StreamEntry StreamId (OpFields π)}
    {stream : GroupStream StreamId ConsumerName (OpFields π)}
    (hentries : stream.entries = s.redis.stream.entries) (hentry : entry ∈ s.redis.stream.entries) :
    AllWritten texts ((s.setStream stream).deliver c entry stage) where
  serial := h.serial
  entries e he := h.entries e (hentries ▸ he)
  letters := h.letters
  deliveries d hd := by
    rcases List.mem_append.mp hd with hd | hd
    · exact h.deliveries d hd
    · obtain rfl := List.mem_singleton.mp hd
      exact h.entries entry hentry

/-- A step of a delivery. -/
theorem carry (h : AllWritten texts s) {i : Nat} (hi : s.deliveries[i]? = some d)
    {redis : BrokerRedis π} (hcarry : Carries s.redis d redis) :
    AllWritten texts { s.setStage i d stage with redis } where
  serial := h.serial
  entries e he := by
    rcases hcarry.entries e he with he | hop
    · exact h.entries e he
    · rw [hop]
      exact h.deliveries d (List.mem_of_getElem? hi)
  letters letter hletter := by
    rcases hcarry.letters letter hletter with hletter | ⟨hop, -⟩
    · exact h.letters letter hletter
    · rw [hop]
      exact h.deliveries d (List.mem_of_getElem? hi)
  deliveries d' hd' := by
    rcases List.mem_or_eq_of_mem_set hd' with hd' | rfl
    · exact h.deliveries d' hd'
    · exact h.deliveries d (List.mem_of_getElem? hi)

theorem step (h : AllWritten texts s) {a : BrokerAction π}
    (hstep : s.step cfg a = some (s', events)) :
    AllWritten (texts ++ submits a) s' ∧
      ∀ op attempt, .dispatched op attempt ∈ events → Written texts op := by
  have hnone : ∀ op attempt, .dispatched op attempt ∈ ([] : List (BrokerEvent π)) →
      Written texts op := fun _ _ hmem => absurd hmem List.not_mem_nil
  cases a with
  | runTask payload pick =>
    obtain ⟨stream, hadd, rfl, rfl⟩ := step_runTask hstep
    refine ⟨⟨?_, fun e he => ?_, fun d hd => (h.deliveries d hd).append _,
      fun letter hletter => (h.letters letter hletter).append _⟩, fun op attempt hmem => ?_⟩
    · show s.nextSerial + 1 = (texts ++ [payload]).length
      rw [List.length_append, List.length_singleton, h.serial]
    · rcases GroupStream.mem_of_add hadd he with he | rfl
      · exact (h.entries e he).append _
      · show (texts ++ [payload])[s.nextSerial]? = some payload
        rw [h.serial, List.getElem?_concat_length]
    · simp at hmem
  | enter c =>
    obtain ⟨rfl, -, status, -, rfl⟩ := step_status (Or.inl rfl) hstep
    simp only [submits, List.append_nil]
    exact ⟨h.same rfl rfl rfl fun d hd => ⟨d, hd, rfl⟩, hnone⟩
  | shutdown c =>
    obtain ⟨rfl, -, status, -, rfl⟩ := step_status (Or.inr rfl) hstep
    simp only [submits, List.append_nil]
    exact ⟨h.same rfl rfl rfl fun d hd => ⟨d, hd, rfl⟩, hnone⟩
  | receive c =>
    obtain ⟨-, e, stream, hread, rfl, rfl⟩ := step_receive hstep
    obtain ⟨hund, -, hentries, -, -, -⟩ := GroupStream.read_eq_some hread
    simp only [submits, List.append_nil]
    exact ⟨h.deliver hentries hund.1, hnone⟩
  | claim c id =>
    obtain ⟨-, o, stream, hclaim, rfl, hcases⟩ := step_claim hstep
    obtain ⟨-, hentries, -, -, hfound⟩ := GroupStream.claim_eq_some hclaim
    simp only [submits, List.append_nil]
    refine ⟨?_, hnone⟩
    rcases hcases with ⟨e, rfl, rfl⟩ | ⟨-, rfl⟩
    · rcases hfound with ⟨e', he', -, heq, -⟩ | ⟨-, heq, -⟩
      · obtain rfl := Option.some.inj heq
        exact h.deliver hentries he'
      · cases heq
    · exact h.same rfl hentries rfl fun d hd => ⟨d, hd, rfl⟩
  | advance i pick =>
    obtain ⟨d, hi, hbind⟩ := Option.bind_eq_some_iff.mp hstep
    obtain ⟨⟨redis, stage, events'⟩, hadv, hret⟩ := Option.bind_eq_some_iff.mp hbind
    obtain ⟨rfl, rfl⟩ := Prod.mk.inj (Option.some.inj hret)
    obtain ⟨hcarry, hdispatch⟩ := carries_advance hadv
    simp only [submits, List.append_nil]
    refine ⟨h.carry hi hcarry, fun op attempt hmem => ?_⟩
    rw [hdispatch op attempt hmem]
    exact h.deliveries d (List.mem_of_getElem? hi)
  | result i success =>
    obtain ⟨d, hi, hbind⟩ := Option.bind_eq_some_iff.mp hstep
    obtain ⟨stage, -, hret⟩ := Option.bind_eq_some_iff.mp hbind
    obtain ⟨rfl, rfl⟩ := Prod.mk.inj (Option.some.inj hret)
    simp only [submits, List.append_nil]
    exact ⟨h.carry hi .refl, hnone⟩
  | raise i executed pick =>
    obtain ⟨d, hi, hbind⟩ := Option.bind_eq_some_iff.mp hstep
    obtain ⟨⟨redis, stage, events'⟩, hraise, hret⟩ := Option.bind_eq_some_iff.mp hbind
    obtain ⟨rfl, rfl⟩ := Prod.mk.inj (Option.some.inj hret)
    obtain ⟨hcarry, hdispatch⟩ := carries_raise hraise
    simp only [submits, List.append_nil]
    refine ⟨h.carry hi hcarry, fun op attempt hmem => ?_⟩
    rw [hdispatch op attempt hmem]
    exact h.deliveries d (List.mem_of_getElem? hi)
  | interrupt i =>
    obtain ⟨d, hi, -, rfl, rfl⟩ := step_interrupt hstep
    simp only [submits, List.append_nil]
    exact ⟨h.carry hi .refl, hnone⟩
  | exit c =>
    obtain ⟨-, rfl, rfl⟩ := step_exit hstep
    simp only [submits, List.append_nil]
    exact ⟨h.same rfl rfl rfl fun d hd => ⟨d, hd, rfl⟩, hnone⟩
  | crash c =>
    obtain ⟨rfl, rfl⟩ := Prod.mk.inj (Option.some.inj hstep)
    simp only [submits, List.append_nil]
    refine ⟨h.same rfl rfl rfl fun d' hd' => ?_, hnone⟩
    obtain ⟨d, hd, rfl⟩ := List.mem_map.mp hd'
    refine ⟨d, hd, ?_⟩
    split
    · rfl
    · rfl
  | tick dt =>
    obtain ⟨rfl, rfl⟩ := Prod.mk.inj (Option.some.inj hstep)
    simp only [submits, List.append_nil]
    exact ⟨h.same rfl rfl rfl fun d hd => ⟨d, hd, rfl⟩, hnone⟩

end AllWritten

/-! ### Unreadable operations -/

/-- The delivery is not being thrown away as unreadable. -/
def Accepted (stage : Stage) : Prop := ∀ sent, stage ≠ .moving .reject sent

theorem accepted_advance (h : d.advance cfg now pick r = some (r', stage, events))
    (hop : cfg.deserializes d.fields.op.payload = true) (haccepted : Accepted d.stage) :
    Accepted stage := by
  have hout {r₁ : BrokerRedis π} {stage₁ : Stage} {events₁ : List (BrokerEvent π)}
      (heq : some (r₁, stage₁, events₁) = some (r', stage, events)) (h₁ : Accepted stage₁) :
      Accepted stage := by
    obtain ⟨-, hrest⟩ := Prod.mk.inj (Option.some.inj heq)
    obtain ⟨rfl, -⟩ := Prod.mk.inj hrest
    exact h₁
  cases hstage : d.stage with
  | moving move sent =>
    simp only [Delivery.advance, hstage] at h
    have hmove : move ≠ .reject := by
      rintro rfl
      exact haccepted sent hstage
    split at h
    · refine hout h fun n => ?_
      cases move <;> simp [Delivery.done]
    · obtain ⟨r₁, -, heq⟩ := Option.map_eq_some_iff.mp h
      exact hout (congrArg some heq) fun n => by simp [hmove]
  | counting =>
    simp only [Delivery.advance, hstage] at h
    refine hout h fun n => ?_
    split <;> simp
  | start attempt =>
    simp only [Delivery.advance, hstage] at h
    split at h
    · exact hout h fun n => by simp
    · exact hout h fun n => by simp
  | received | claimed =>
    simp only [Delivery.advance, hstage, hop] at h
    refine hout h fun n => ?_
    split <;> simp
  | yielding | markingPoison | markingFailed =>
    simp only [Delivery.advance, hstage] at h
    exact hout h fun n => by simp
  | dispatching | finished => simp [Delivery.advance, hstage] at h

theorem accepted_result {success : Bool} (h : d.result cfg now success = some stage) :
    Accepted stage := by
  rw [Delivery.result] at h
  split at h
  · obtain rfl := Option.some.inj h
    intro n
    cases success with
    | true => simp
    | false =>
      simp only [Bool.false_eq_true, if_false, Delivery.afterFailure]
      split <;> simp
  · cases h

/-- Nothing is or was thrown away as unreadable. -/
structure NoneRejected (s : BrokerSystem π) : Prop where
  deliveries : ∀ d ∈ s.deliveries, Accepted d.stage
  letters : ∀ letter ∈ s.redis.dlq, letter.note ≠ .deserializationFailed

/-- No request raises an exception. -/
def Unraised : BrokerAction π → Prop
  | .raise _ _ _ => False
  | _ => True

namespace NoneRejected

theorem same (h : NoneRejected s) (hdlq : s'.redis.dlq = s.redis.dlq)
    (hdeliveries : ∀ d' ∈ s'.deliveries, d' ∈ s.deliveries ∨ Accepted d'.stage) :
    NoneRejected s' where
  letters letter hletter := h.letters letter (hdlq ▸ hletter)
  deliveries d' hd' := (hdeliveries d' hd').elim (h.deliveries d') id

theorem carry (h : NoneRejected s) {i : Nat} (hi : s.deliveries[i]? = some d)
    {redis : BrokerRedis π} (hcarry : Carries s.redis d redis) (hstage : Accepted stage) :
    NoneRejected { s.setStage i d stage with redis } where
  letters letter hletter := by
    rcases hcarry.letters letter hletter with hletter | ⟨-, hnote⟩
    · exact h.letters letter hletter
    · intro heq
      obtain ⟨sent, hreject⟩ := hnote heq
      exact h.deliveries d (List.mem_of_getElem? hi) sent hreject
  deliveries d' hd' := by
    rcases List.mem_or_eq_of_mem_set hd' with hd' | rfl
    · exact h.deliveries d' hd'
    · exact hstage

theorem step (h : NoneRejected s) (hwritten : AllWritten texts s)
    (hreadable : ∀ text ∈ texts, cfg.deserializes text = true) {a : BrokerAction π}
    (hunraised : Unraised a) (hstep : s.step cfg a = some (s', events)) : NoneRejected s' := by
  have hold : ∀ d' ∈ s.deliveries, d' ∈ s.deliveries ∨ Accepted d'.stage := fun _ => Or.inl
  have hdelivered {c : ConsumerName} {e : StreamEntry StreamId (OpFields π)} {stage : Stage}
      (hstage : Accepted stage) : ∀ d' ∈ s.deliveries ++ [⟨c, e.id, e.data, stage⟩],
      d' ∈ s.deliveries ∨ Accepted d'.stage := by
    intro d' hd'
    rcases List.mem_append.mp hd' with hd' | hd'
    · exact Or.inl hd'
    · obtain rfl := List.mem_singleton.mp hd'
      exact Or.inr hstage
  cases a with
  | runTask payload pick =>
    obtain ⟨stream, -, rfl, -⟩ := step_runTask hstep
    exact h.same rfl hold
  | enter c =>
    obtain ⟨-, -, status, -, rfl⟩ := step_status (Or.inl rfl) hstep
    exact h.same rfl hold
  | shutdown c =>
    obtain ⟨-, -, status, -, rfl⟩ := step_status (Or.inr rfl) hstep
    exact h.same rfl hold
  | receive c =>
    obtain ⟨-, e, stream, -, rfl, -⟩ := step_receive hstep
    exact h.same rfl (hdelivered fun n => by simp)
  | claim c id =>
    obtain ⟨-, o, stream, -, -, hcases⟩ := step_claim hstep
    rcases hcases with ⟨e, -, rfl⟩ | ⟨-, rfl⟩
    · exact h.same rfl (hdelivered fun n => by simp)
    · exact h.same rfl hold
  | advance i pick =>
    obtain ⟨d, hi, hbind⟩ := Option.bind_eq_some_iff.mp hstep
    obtain ⟨⟨redis, stage, events'⟩, hadv, hret⟩ := Option.bind_eq_some_iff.mp hbind
    obtain ⟨rfl, -⟩ := Prod.mk.inj (Option.some.inj hret)
    have hmem := List.mem_of_getElem? hi
    have hop := hreadable _ (List.mem_of_getElem? (hwritten.deliveries d hmem))
    exact h.carry hi (carries_advance hadv).1 (accepted_advance hadv hop (h.deliveries d hmem))
  | result i success =>
    obtain ⟨d, hi, hbind⟩ := Option.bind_eq_some_iff.mp hstep
    obtain ⟨stage, hres, hret⟩ := Option.bind_eq_some_iff.mp hbind
    obtain ⟨rfl, -⟩ := Prod.mk.inj (Option.some.inj hret)
    exact h.carry hi .refl (accepted_result hres)
  | raise i executed pick => exact hunraised.elim
  | interrupt i =>
    obtain ⟨d, hi, -, rfl, -⟩ := step_interrupt hstep
    exact h.carry hi .refl fun n => by simp
  | exit c =>
    obtain ⟨-, -, rfl⟩ := step_exit hstep
    exact h.same rfl hold
  | crash c =>
    obtain ⟨rfl, -⟩ := Prod.mk.inj (Option.some.inj hstep)
    refine h.same rfl fun d' hd' => ?_
    obtain ⟨d, hd, rfl⟩ := List.mem_map.mp hd'
    split
    · exact Or.inr fun n => by simp
    · exact Or.inl hd
  | tick dt =>
    obtain ⟨rfl, -⟩ := Prod.mk.inj (Option.some.inj hstep)
    exact h.same rfl hold

end NoneRejected

/-- The texts that were given to `run_task` in a run. -/
def submitted (tr : List (BrokerAction π × List (BrokerEvent π))) : List π :=
  tr.flatMap fun q => submits q.1

theorem submitted_snoc (tr : List (BrokerAction π × List (BrokerEvent π)))
    (q : BrokerAction π × List (BrokerEvent π)) : submitted (tr ++ [q]) = submitted tr ++ submits q.1 := by
  rw [submitted, List.flatMap_append, List.flatMap_singleton]
  rfl

/-- What `run_task` is given is the text of an operation. -/
def Serialized (m : Sse.Model) (_ : BrokerSystem String) (a : BrokerAction String) : Prop :=
  ∀ text ∈ submits a, ∃ call : RedisTexts.Submission m,
    RedisTexts.serializeOperation call = some text

/-- The broker reads what it is given with `_deserialize_operation`. -/
def Reads (m : Sse.Model) (cfg : BrokerConfig String) : Prop :=
  ∀ text, cfg.deserializes text = (RedisTexts.deserializeOperation m text).isSome

section Runs

variable {m : Sse.Model} {cfg : BrokerConfig String} {s : BrokerSystem String}
  {tr : List (BrokerAction String × List (BrokerEvent String))}

/-- The texts of a run, and what was dispatched. -/
theorem written_of_run (hrun : Run (step cfg) (Serialized m) {} tr s) :
    AllWritten (submitted tr) s ∧
      (∀ text ∈ submitted tr, ∃ call : RedisTexts.Submission m,
        RedisTexts.serializeOperation call = some text) ∧
      ∀ q ∈ tr, ∀ op attempt, .dispatched op attempt ∈ q.2 → Written (submitted tr) op := by
  refine hrun.forward (P := fun tr s => AllWritten (submitted tr) s ∧
      (∀ text ∈ submitted tr, ∃ call : RedisTexts.Submission m,
        RedisTexts.serializeOperation call = some text) ∧
      ∀ q ∈ tr, ∀ op attempt, .dispatched op attempt ∈ q.2 → Written (submitted tr) op)
    (fun tr s a s' events ih hok hstep => ?_) ?_
  · obtain ⟨hwritten, htexts, hevents⟩ := ih
    obtain ⟨hwritten', hnew⟩ := hwritten.step hstep
    rw [submitted_snoc]
    refine ⟨hwritten', fun text htext => ?_, fun q hq op attempt hmem => ?_⟩
    · exact (List.mem_append.mp htext).elim (htexts text) (hok text)
    · rcases List.mem_append.mp hq with hq | hq
      · exact (hevents q hq op attempt hmem).append _
      · obtain rfl := List.mem_singleton.mp hq
        exact (hnew op attempt hmem).append _
  · refine ⟨⟨rfl, fun _ h => absurd h List.not_mem_nil, fun _ h => absurd h List.not_mem_nil,
      fun _ h => absurd h List.not_mem_nil⟩, fun _ h => absurd h List.not_mem_nil, fun _ h => ?_⟩
    exact absurd h List.not_mem_nil

/-- **Operations reach the workers as they were submitted.**  In every run of Redis brokers, with
retries, claims, crashes and commands that fail at any place: a dispatch is one of an operation
that was given to `run_task`, and the worker gets the parameters and the flag of that call and of
its request context what is not internal.  And as long as no command raises an exception, no
operation is moved to the dead-letter stream as unreadable. -/
theorem operations_intact (hm : m.Lossless) (hcfg : Reads m cfg)
    (hrun : Run (step cfg) (Serialized m) {} tr s) :
    (∀ q ∈ tr, ∀ op attempt, .dispatched op attempt ∈ q.2 →
      (submitted tr)[op.serial]? = some op.payload ∧
      ∃ (call : RedisTexts.Submission m) (fields : JsonFields),
        RedisTexts.serializeOperation call = some op.payload ∧
        RedisTexts.writable (RedisTexts.safeContext call) = some fields ∧
        RedisTexts.deserializeOperation m op.payload =
          some ⟨call.params, call.isNewTask, fields⟩) ∧
    ((∀ q ∈ tr, Unraised q.1) → ∀ letter ∈ s.redis.dlq, letter.note ≠ .deserializationFailed) := by
  obtain ⟨hwritten, htexts, hevents⟩ := written_of_run hrun
  refine ⟨fun q hq op attempt hmem => ?_, fun hunraised => ?_⟩
  · have hop := hevents q hq op attempt hmem
    obtain ⟨call, hcall⟩ := htexts _ (List.mem_of_getElem? hop)
    obtain ⟨fields, hfields, hread⟩ :=
      RedisTexts.deserializeOperation_serializeOperation hm hcall
    exact ⟨hop, call, fields, hcall, hfields, hread⟩
  · have hnone : NoneRejected s := by
      refine hrun.inv_at (I := NoneRejected)
        ⟨fun _ h => absurd h List.not_mem_nil, fun _ h => absurd h List.not_mem_nil⟩
        fun before a events after u v htr hbefore _ hstep hu => ?_
      obtain ⟨hwritten', htexts', -⟩ := written_of_run hbefore
      refine hu.step hwritten' (fun text htext => ?_) (hunraised (a, events) ?_) hstep
      · obtain ⟨call, hcall⟩ := htexts' text htext
        obtain ⟨fields, -, hread⟩ := RedisTexts.deserializeOperation_serializeOperation hm hcall
        rw [hcfg, hread]
        rfl
      · rw [htr]
        exact List.mem_append_right _ List.mem_cons_self
    exact hnone.letters

end Runs

/-- A submission whose request context has a span that cannot be written. -/
def tracedCall : RedisTexts.Submission Sse.textProtocol.v10.message where
  params := "hello"
  isNewTask := true
  requestContext := [("_otel_span", .object), ("user", .json (.string "u1"))]

def tracedText : String := (RedisTexts.serializeOperation tracedCall).getD ""

theorem tracedCall_text : RedisTexts.serializeOperation tracedCall = some tracedText := by
  decide +kernel

def readingConfig : BrokerConfig String where
  streamMaxlen_pos := Nat.succ_pos 9999
  deserializes text := (RedisTexts.deserializeOperation Sse.textProtocol.v10.message text).isSome

/-- The submission is dispatched without its span. -/
theorem tracedCall_intact : ∃ tr s, Run (step readingConfig)
      (Serialized Sse.textProtocol.v10.message) ({} : BrokerSystem String) tr s ∧
    ∃ q ∈ tr, ∃ op attempt, .dispatched op attempt ∈ q.2 ∧
      ∃ (call : RedisTexts.Submission Sse.textProtocol.v10.message) (fields : JsonFields),
        RedisTexts.serializeOperation call = some op.payload ∧
        RedisTexts.deserializeOperation Sse.textProtocol.v10.message op.payload =
          some ⟨call.params, call.isNewTask, fields⟩ := by
  have hexec : (exec (step readingConfig) (fun _ _ => True) {} [.runTask tracedText ⟨toLex (1, 0), 0⟩,
      .enter 0, .receive 0, .advance 0 {}, .advance 0 {}, .advance 0 {}]).map
        (fun p => (p.2.map Prod.snd, submitted p.2)) =
      some ([[.added (toLex (1, 0)) ⟨0, tracedText⟩], [], [], [], [],
        [.dispatched ⟨0, tracedText⟩ 1]], [tracedText]) := by decide +kernel
  obtain ⟨⟨s, tr⟩, hexec, hend⟩ := Option.map_eq_some_iff.mp hexec
  obtain ⟨hevents, htexts⟩ := Prod.mk.inj hend
  have hrun : Run (step readingConfig) (Serialized Sse.textProtocol.v10.message) {} tr s := by
    refine (run_of_exec hexec).of_actions (P := Serialized Sse.textProtocol.v10.message s)
      fun q hq text htext => ⟨tracedCall, ?_⟩
    have hmem : text ∈ submitted tr := List.mem_flatMap.mpr ⟨q, hq, htext⟩
    rw [htexts, List.mem_singleton] at hmem
    rw [hmem]
    exact tracedCall_text
  obtain ⟨q, hq, hlast⟩ : ∃ q ∈ tr, q.2 = [.dispatched ⟨0, tracedText⟩ 1] := by
    have hmem : [.dispatched ⟨0, tracedText⟩ 1] ∈ tr.map Prod.snd := by
      rw [hevents]
      simp
    obtain ⟨q, hq, heq⟩ := List.mem_map.mp hmem
    exact ⟨q, hq, heq⟩
  have hdispatch : .dispatched ⟨0, tracedText⟩ 1 ∈ q.2 := by
    rw [hlast]
    exact List.mem_singleton_self _
  obtain ⟨-, call, fields, hcall, -, hread⟩ :=
    (operations_intact Sse.textProtocol_documented.lossless10.message (fun _ => rfl) hrun).1
      q hq _ _ hdispatch
  exact ⟨tr, s, hrun, q, hq, _, _, hdispatch, call, fields, hcall, hread⟩

end BrokerSystem

end A2AKit
