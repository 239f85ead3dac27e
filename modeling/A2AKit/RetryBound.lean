/-
How often an operation is dispatched.

The attempt number of a dispatch is the one in the entry plus the number of times the
entry was claimed.  In runs in which an entry is claimed only after its holder has
crashed, an operation has at most one live entry or one delivery that may still act
on it, and the numbers seen so far lie below what comes next: an undelivered entry
carries a greater number, and a pending one will get a greater number when it is
claimed (`RetryInv`).  A counter is reset only when its entry is off the pending list,
and an entry that is put back because it is not due has never been dispatched.

* `dispatches_bounded` — the numbers of the dispatches increase and stay within the
  limit; once the limit is used up, handles of the operation are refused.
-/
import A2AKit.BrokerShutdown

namespace A2AKit

variable {π : Type}

/-- The attempt numbers with which the operation number `n` was dispatched. -/
def dispatchesOf (n : Nat) (events : List (BrokerEvent π)) : List Nat :=
  events.filterMap fun e => match e with
    | .dispatched op attempt => if op.serial = n then some attempt else none
    | _ => none

/-- All numbers so far are less than `t`. -/
def Above (ds : List Nat) (t : Nat) : Prop := ∀ x ∈ ds, x < t

/-- All numbers so far are at most `t`. -/
def Upto (ds : List Nat) (t : Nat) : Prop := ∀ x ∈ ds, x ≤ t

/-- The backoff has elapsed. -/
def OpFields.Due (now : Nat) (fields : OpFields π) : Prop :=
  ∀ t, fields.notBefore = some t → t ≤ now

/-- Only an operation that may be dispatched again waits for a backoff. -/
def OpFields.Backoff (cfg : BrokerConfig π) (fields : OpFields π) : Prop :=
  fields.attempt ≤ cfg.adapterMaxRetries ∨ fields.notBefore = none

/-- The delivery may still dispatch the operation or add it again. -/
def Stage.active (cfg : BrokerConfig π) : Stage → Bool
  | .received | .claimed | .counting | .yielding _ | .start _ | .dispatching _ => true
  | .moving .requeue sent => decide (sent = 0)
  | .moving (.poison _) _ | .moving (.ack _) _ => true
  | .moving (.nack attempt _) sent => decide (attempt + 1 ≤ cfg.maxRetries) && decide (sent ≤ 1)
  | .moving .reject _ | .moving .ackPoison _ | .moving .ackFailed _ => false
  | .markingPoison | .markingFailed | .finished => false

/-- The stages of a delivery that is neither dispatched nor put back: the receive loop
with its moves to the dead-letter stream, and the adapter's refusal, which marks the
task as failed and acknowledges the entry. -/
def Stage.refusing : Stage → Bool
  | .received | .claimed | .counting | .yielding _ | .start _ | .markingPoison | .finished => true
  | .moving .reject _ | .moving (.poison _) _ | .moving .ackPoison _ => true
  | _ => false

/-- The numbers of an active delivery, whose entry has the crash count `k`; `held` says
that the entry is pending. -/
def Numbers (limit : Nat) (ds : List Nat) (now k : Nat) (held : Prop) (fields : OpFields π) :
    Stage → Prop
  | .received | .moving .requeue _ => Above ds fields.attempt
  | .claimed => Upto ds (fields.attempt + k) ∧ (¬fields.Due now → Above ds fields.attempt)
  | .counting => Upto ds (fields.attempt + k) ∧ fields.Due now
  | .yielding t | .start t | .moving (.poison t) _ =>
    Above ds t ∧ 1 ≤ t ∧ fields.Due now ∧ (held → t ≤ fields.attempt + k)
  | .dispatching t | .moving (.ack t) _ =>
    Upto ds t ∧ fields.Due now ∧ (held → t ≤ fields.attempt + k)
  | .moving (.nack t _) _ =>
    Upto ds t ∧ fields.Due now ∧ (held → t ≤ fields.attempt + k) ∧ t < limit
  | _ => True

section Numbers

variable {limit : Nat} {ds : List Nat} {now now' k k' t t' : Nat} {held held' : Prop} {fields : OpFields π}
  {stage : Stage} {d : Delivery π}

theorem Above.upto (h : Above ds t) : Upto ds t := fun x hx => le_of_lt (h x hx)

theorem Upto.above (h : Upto ds t) : Above ds (t + 1) := fun x hx => Nat.lt_succ_of_le (h x hx)

theorem Upto.mono (h : Upto ds t) (hle : t ≤ t') : Upto ds t' := fun x hx => le_trans (h x hx) hle

theorem OpFields.Due.mono (h : fields.Due now) (hle : now ≤ now') : fields.Due now' :=
  fun t ht => le_trans (h t ht) hle

theorem isDue_iff : d.isDue now = true ↔ d.fields.Due now := by
  rw [Delivery.isDue, OpFields.Due]
  cases d.fields.notBefore <;> simp

/-- Time passes, the counter grows, or the entry is taken off the pending list.  Once the
counter was read and the entry settled, it may be reset. -/
theorem Numbers.mono (h : Numbers limit ds now k held fields stage) (hnow : now ≤ now')
    (hheld : held' → held) (hk : held' ∨ stage = .claimed ∨ stage = .counting → k ≤ k') :
    Numbers limit ds now' k' held' fields stage := by
  have hlim {t : Nat} (h : held → t ≤ fields.attempt + k) (h' : held') : t ≤ fields.attempt + k' := by
    have h₁ := h (hheld h')
    have h₂ := hk (Or.inl h')
    omega
  cases stage with
  | received => exact h
  | claimed =>
    have hle := hk (Or.inr (Or.inl rfl))
    exact ⟨h.1.mono (by omega), fun hdue => h.2 fun hdue' => hdue (hdue'.mono hnow)⟩
  | counting =>
    have hle := hk (Or.inr (Or.inr rfl))
    exact ⟨h.1.mono (by omega), h.2.mono hnow⟩
  | yielding t | start t => exact ⟨h.1, h.2.1, h.2.2.1.mono hnow, hlim h.2.2.2⟩
  | dispatching t => exact ⟨h.1, h.2.1.mono hnow, hlim h.2.2⟩
  | moving move sent =>
    cases move with
    | requeue => exact h
    | poison t => exact ⟨h.1, h.2.1, h.2.2.1.mono hnow, hlim h.2.2.2⟩
    | ack t => exact ⟨h.1, h.2.1.mono hnow, hlim h.2.2⟩
    | nack t _ => exact ⟨h.1, h.2.1.mono hnow, hlim h.2.2.1, h.2.2.2⟩
    | reject | ackPoison | ackFailed => exact trivial
  | markingPoison | markingFailed | finished => exact trivial

end Numbers

/-! ### The invariant -/

/-- At most one place of a list is related to itself or to another one. -/
def Unique {α : Type} (R : α → α → Prop) (l : List α) : Prop :=
  ∀ (i j : Nat) (a b : α), l[i]? = some a → l[j]? = some b → R a b → i = j

section Unique

variable {α : Type} {R : α → α → Prop} {l : List α} {a : α} {i : Nat}

theorem Unique.set (h : Unique R l) {b : α} (hi : l[i]? = some b) (hleft : ∀ x, R a x → R b x)
    (hright : ∀ x, R x a → R x b) : Unique R (l.set i a) := by
  intro j k x y hj hk hR
  have hlt : i < l.length := (List.getElem?_eq_some_iff.mp hi).1
  rw [List.getElem?_set] at hj hk
  by_cases hij : i = j
  · by_cases hik : i = k
    · exact hij.symm.trans hik
    · rw [if_pos hij, if_pos hlt] at hj
      rw [if_neg hik] at hk
      obtain rfl := Option.some.inj hj
      exact hij.symm.trans (h i k b y hi hk (hleft y hR))
  · rw [if_neg hij] at hj
    by_cases hik : i = k
    · rw [if_pos hik, if_pos hlt] at hk
      obtain rfl := Option.some.inj hk
      exact (h j i x b hj hi (hright x hR)).trans hik
    · rw [if_neg hik] at hk
      exact h j k x y hj hk hR

theorem Unique.concat (h : Unique R l) (hleft : ∀ x ∈ l, ¬R a x) (hright : ∀ x ∈ l, ¬R x a) :
    Unique R (l ++ [a]) := by
  intro j k x y hj hk hR
  have hplace {j : Nat} {x : α} (hj : (l ++ [a])[j]? = some x) :
      l[j]? = some x ∨ j = l.length ∧ x = a := by
    rw [List.getElem?_append] at hj
    split at hj
    · exact Or.inl hj
    · rw [List.getElem?_singleton] at hj
      split at hj
      · exact Or.inr ⟨by omega, (Option.some.inj hj).symm⟩
      · exact absurd hj (by simp)
  rcases hplace hj with hj' | ⟨rfl, rfl⟩
  · rcases hplace hk with hk' | ⟨rfl, rfl⟩
    · exact h j k x y hj' hk' hR
    · exact absurd hR (hright x (List.mem_of_getElem? hj'))
  · rcases hplace hk with hk' | ⟨rfl, rfl⟩
    · exact absurd hR (hleft y (List.mem_of_getElem? hk'))
    · rfl

theorem Unique.map (h : Unique R l) {f : α → α} (hf : ∀ x y, R (f x) (f y) → R x y) :
    Unique R (l.map f) := by
  intro j k x y hj hk hR
  rw [List.getElem?_map] at hj hk
  obtain ⟨x₀, hj', rfl⟩ := Option.map_eq_some_iff.mp hj
  obtain ⟨y₀, hk', rfl⟩ := Option.map_eq_some_iff.mp hk
  exact h j k x₀ y₀ hj' hk' (hf x₀ y₀ hR)

end Unique

namespace BrokerSystem

/-- A pending entry is claimed only after the consumer that held it has crashed. -/
def CrashStop (s : BrokerSystem π) : BrokerAction π → Prop
  | .claim _ id => ∀ c ∈ s.redis.stream.pending id, s.consumers c = .crashed
  | _ => True

/-- How deliveries and entries hang together. -/
structure Tracked (cfg : BrokerConfig π) (s : BrokerSystem π) : Prop where
  delivered : ∀ d ∈ s.deliveries, d.stage ≠ .finished → d.id ≤ s.redis.stream.lastDelivered
  alive : ∀ d ∈ s.deliveries, d.stage ≠ .finished → s.consumers d.consumer ≠ .crashed
  holder : ∀ d ∈ s.deliveries, d.stage ≠ .finished →
    ∀ c, s.redis.stream.pending d.id = some c → c = d.consumer
  distinct : Unique (fun d d' => d.stage ≠ .finished ∧ d'.stage ≠ .finished ∧ d.id = d'.id)
    s.deliveries
  data : ∀ d ∈ s.deliveries, d.stage ≠ .finished →
    ∀ e ∈ s.redis.stream.entries, e.id = d.id → e.data = d.fields
  settled : ∀ d ∈ s.deliveries, ∀ move sent, d.stage = .moving move sent →
    move.settledAt cfg ≤ sent → s.redis.stream.pending d.id = none
  entrySerial : ∀ e ∈ s.redis.stream.entries, e.data.op.serial < s.nextSerial
  deliverySerial : ∀ d ∈ s.deliveries, d.fields.op.serial < s.nextSerial
  entryAttempt : ∀ e ∈ s.redis.stream.entries, 1 ≤ e.data.attempt
  deliveryAttempt : ∀ d ∈ s.deliveries, 1 ≤ d.fields.attempt

/-- Where the operation number `n` is, and how its numbers compare with those with
which it was dispatched. -/
structure RetryInv (cfg : BrokerConfig π) (n : Nat) (ds : List Nat) (s : BrokerSystem π) : Prop
    extends Tracked cfg s where
  ordered : ds.Pairwise (· < ·)
  limited : ∀ t ∈ ds, 1 ≤ t ∧ t ≤ cfg.adapterMaxRetries
  unknown : s.nextSerial ≤ n → ds = []
  entry_backoff : ∀ e ∈ s.redis.stream.entries, e.data.op.serial = n → e.data.Backoff cfg
  delivery_backoff : ∀ d ∈ s.deliveries, d.fields.op.serial = n → d.fields.Backoff cfg
  entry_unique : ∀ e e', s.redis.stream.Live e → s.redis.stream.Live e' → e.data.op.serial = n →
    e'.data.op.serial = n → e.id = e'.id
  waiting : ∀ e, s.redis.stream.Undelivered e → e.data.op.serial = n → Above ds e.data.attempt
  pending : ∀ e ∈ s.redis.stream.entries, (s.redis.stream.pending e.id).isSome →
    e.data.op.serial = n → Upto ds (e.data.attempt + s.redis.crashCounts e.id) ∧
      (¬e.data.Due s.clock → Above ds e.data.attempt)
  active_entry : ∀ d ∈ s.deliveries, d.stage.active cfg = true → d.fields.op.serial = n →
    ∀ e, s.redis.stream.Live e → e.data.op.serial = n → e.id = d.id
  active_unique : Unique (fun d d' => (d.stage.active cfg = true ∧ d.fields.op.serial = n) ∧
    d'.stage.active cfg = true ∧ d'.fields.op.serial = n) s.deliveries
  numbers : ∀ d ∈ s.deliveries, d.stage.active cfg = true → d.fields.op.serial = n →
    Numbers cfg.adapterMaxRetries ds s.clock (s.redis.crashCounts d.id) (s.redis.stream.pending d.id).isSome d.fields
      d.stage

/-! ### Steps of the deliveries -/

variable {cfg : BrokerConfig π} {n : Nat} {ds : List Nat} {s s' : BrokerSystem π} {i : Nat}
  {d : Delivery π} {stage : Stage}

theorem Tracked.setStage (h : Tracked cfg s) (hi : s.deliveries[i]? = some d)
    (hd : d.stage ≠ .finished) (hsettled : ∀ move sent, stage = .moving move sent →
      move.settledAt cfg ≤ sent → s.redis.stream.pending d.id = none) :
    Tracked cfg (s.setStage i d stage) := by
  have hmem := List.mem_of_getElem? hi
  -- what holds of unfinished deliveries and does not look at their stage
  have hkeep {P : Delivery π → Prop} (hP : P d → P { d with stage })
      (hall : ∀ d' ∈ s.deliveries, d'.stage ≠ .finished → P d') :
      ∀ d' ∈ (s.setStage i d stage).deliveries, d'.stage ≠ .finished → P d' := by
    intro d' hd' hfin
    rcases mem_setStage hd' with rfl | hd'
    · exact hP (hall d hmem hd)
    · exact hall d' hd' hfin
  exact {
    delivered := hkeep id h.delivered
    alive := hkeep id h.alive
    holder := hkeep id h.holder
    distinct := h.distinct.set hi (fun _ hR => ⟨hd, hR.2⟩) (fun _ hR => ⟨hR.1, hd, hR.2.2⟩)
    data := hkeep id h.data
    settled := fun d' hd' move sent hstage hsent => by
      rcases mem_setStage hd' with rfl | hd'
      · exact hsettled move sent hstage hsent
      · exact h.settled d' hd' move sent hstage hsent
    entrySerial := h.entrySerial
    deliverySerial := fun d' hd' => by
      rcases mem_setStage hd' with rfl | hd'
      · exact h.deliverySerial d hmem
      · exact h.deliverySerial d' hd'
    entryAttempt := h.entryAttempt
    deliveryAttempt := fun d' hd' => by
      rcases mem_setStage hd' with rfl | hd'
      · exact h.deliveryAttempt d hmem
      · exact h.deliveryAttempt d' hd' }

theorem active_ne_finished (h : stage.active cfg = true) : stage ≠ .finished := by
  rintro rfl
  simp [Stage.active] at h

/-- A delivery goes to another stage. -/
theorem RetryInv.setStage (h : RetryInv cfg n ds s) (hi : s.deliveries[i]? = some d)
    (hd : d.stage ≠ .finished) (hsettled : ∀ move sent, stage = .moving move sent →
      move.settledAt cfg ≤ sent → s.redis.stream.pending d.id = none)
    (hactive : stage.active cfg = true → d.stage.active cfg = true)
    (hnumbers : stage.active cfg = true → d.fields.op.serial = n →
      Numbers cfg.adapterMaxRetries ds s.clock (s.redis.crashCounts d.id) (s.redis.stream.pending d.id).isSome d.fields
        stage) : RetryInv cfg n ds (s.setStage i d stage) where
  toTracked := h.toTracked.setStage hi hd hsettled
  ordered := h.ordered
  limited := h.limited
  unknown := h.unknown
  entry_backoff := h.entry_backoff
  delivery_backoff := fun d' hd' => by
    rcases mem_setStage hd' with rfl | hd'
    · exact h.delivery_backoff d (List.mem_of_getElem? hi)
    · exact h.delivery_backoff d' hd'
  entry_unique := h.entry_unique
  waiting := h.waiting
  pending := h.pending
  active_entry := fun d' hd' hact hn => by
    rcases mem_setStage hd' with rfl | hd'
    · exact h.active_entry d (List.mem_of_getElem? hi) (hactive hact) hn
    · exact h.active_entry d' hd' hact hn
  active_unique := h.active_unique.set hi (fun _ hR => ⟨⟨hactive hR.1.1, hR.1.2⟩, hR.2⟩)
    (fun _ hR => ⟨hR.1, hactive hR.2.1, hR.2.2⟩)
  numbers := fun d' hd' hact hn => by
    rcases mem_setStage hd' with rfl | hd'
    · exact hnumbers hact hn
    · exact h.numbers d' hd' hact hn

/-- A delivery goes to a stage in which it is not active. -/
theorem RetryInv.retire (h : RetryInv cfg n ds s) (hi : s.deliveries[i]? = some d)
    (hd : d.stage ≠ .finished) (hsettled : ∀ move sent, stage = .moving move sent →
      move.settledAt cfg ≤ sent → s.redis.stream.pending d.id = none)
    (hactive : stage.active cfg = false) : RetryInv cfg n ds (s.setStage i d stage) :=
  h.setStage hi hd hsettled (fun hact => by simp [hactive] at hact)
    (fun hact => by simp [hactive] at hact)

/-! ### Commands -/

section Commands

variable {stream : GroupStream StreamId ConsumerName (OpFields π)}

/-- Entries are taken off the pending list. -/
theorem Tracked.shrink (h : Tracked cfg s) (hentries : stream.entries = s.redis.stream.entries)
    (hlast : stream.lastDelivered = s.redis.stream.lastDelivered)
    (hpending : ∀ id c, stream.pending id = some c → s.redis.stream.pending id = some c) :
    Tracked cfg (s.setStream stream) where
  delivered := fun d hd hfin => by
    show d.id ≤ stream.lastDelivered
    rw [hlast]
    exact h.delivered d hd hfin
  alive := h.alive
  holder := fun d hd hfin c hc => h.holder d hd hfin c (hpending _ c hc)
  distinct := h.distinct
  data := fun d hd hfin e he => h.data d hd hfin e (hentries ▸ he)
  settled := fun d hd move sent hstage hsent => by
    have hnone := h.settled d hd move sent hstage hsent
    refine Option.eq_none_iff_forall_ne_some.mpr fun c hc => ?_
    rw [hpending _ c hc] at hnone
    exact absurd hnone (by simp)
  entrySerial := fun e he => h.entrySerial e (hentries ▸ he)
  deliverySerial := h.deliverySerial
  entryAttempt := fun e he => h.entryAttempt e (hentries ▸ he)
  deliveryAttempt := h.deliveryAttempt

theorem RetryInv.shrink (h : RetryInv cfg n ds s)
    (hentries : stream.entries = s.redis.stream.entries)
    (hlast : stream.lastDelivered = s.redis.stream.lastDelivered)
    (hpending : ∀ id c, stream.pending id = some c → s.redis.stream.pending id = some c) :
    RetryInv cfg n ds (s.setStream stream) := by
  have hsome {id : StreamId} (hid : (stream.pending id).isSome) :
      (s.redis.stream.pending id).isSome := by
    obtain ⟨c, hc⟩ := Option.isSome_iff_exists.mp hid
    exact Option.isSome_iff_exists.mpr ⟨c, hpending id c hc⟩
  have hlive {e : StreamEntry StreamId (OpFields π)} (he : stream.Live e) :
      s.redis.stream.Live e :=
    ⟨hentries ▸ he.1, he.2.imp (fun hlt => by rwa [← hlast]) hsome⟩
  exact {
    toTracked := h.toTracked.shrink hentries hlast hpending
    ordered := h.ordered
    limited := h.limited
    unknown := h.unknown
    entry_backoff := fun e he => h.entry_backoff e (hentries ▸ he)
    delivery_backoff := h.delivery_backoff
    entry_unique := fun e e' he he' => h.entry_unique e e' (hlive he) (hlive he')
    waiting := fun e he => h.waiting e ⟨hentries ▸ he.1, by rw [← hlast]; exact he.2⟩
    pending := fun e he hsomeE => h.pending e (hentries ▸ he) (hsome hsomeE)
    active_entry := fun d hd hact hn e he => h.active_entry d hd hact hn e (hlive he)
    active_unique := h.active_unique
    numbers := fun d hd hact hn =>
      (h.numbers d hd hact hn).mono (le_refl _) hsome fun _ => le_refl _ }

/-- XACK -/
theorem RetryInv.ack (h : RetryInv cfg n ds s) (id : StreamId) :
    RetryInv cfg n ds (s.setStream (s.redis.stream.ack id)) := by
  refine h.shrink rfl rfl fun id' c hc => ?_
  rw [GroupStream.ack_pending, Function.update_apply] at hc
  split at hc
  · exact absurd hc (by simp)
  · exact hc

/-- XGROUP DELCONSUMER -/
theorem RetryInv.exit (h : RetryInv cfg n ds s) (c : ConsumerName) :
    RetryInv cfg n ds (s.setStream (s.redis.stream.deleteConsumer c)) := by
  refine h.shrink rfl rfl fun id c' hc' => ?_
  simp only [GroupStream.deleteConsumer] at hc'
  split at hc'
  · exact absurd hc' (by simp)
  · exact hc'

/-- The crash counters change. -/
theorem RetryInv.setCounts (h : RetryInv cfg n ds s) {f : StreamId → Nat}
    (hpending : ∀ id, (s.redis.stream.pending id).isSome → s.redis.crashCounts id ≤ f id)
    (hopen : ∀ d ∈ s.deliveries, d.stage = .claimed ∨ d.stage = .counting →
      s.redis.crashCounts d.id ≤ f d.id) :
    RetryInv cfg n ds { s with redis := { s.redis with crashCounts := f } } where
  toTracked := { h.toTracked with }
  ordered := h.ordered
  limited := h.limited
  unknown := h.unknown
  entry_backoff := h.entry_backoff
  delivery_backoff := h.delivery_backoff
  entry_unique := h.entry_unique
  waiting := h.waiting
  pending := fun e he hsome hn => by
    obtain ⟨hup, hdue⟩ := h.pending e he hsome hn
    exact ⟨hup.mono (Nat.add_le_add_left (hpending e.id hsome) _), hdue⟩
  active_entry := h.active_entry
  active_unique := h.active_unique
  numbers := fun d hd hact hn => by
    refine (h.numbers d hd hact hn).mono (le_refl _) id ?_
    rintro (hsome | hstage)
    · exact hpending d.id hsome
    · exact hopen d hd hstage

/-- HDEL of the counter of an entry that is off the pending list. -/
theorem RetryInv.clear (h : RetryInv cfg n ds s) (hi : s.deliveries[i]? = some d)
    {move : BrokerMove} {sent : Nat} (hstage : d.stage = .moving move sent)
    (hnone : s.redis.stream.pending d.id = none) :
    RetryInv cfg n ds { s with
      redis := { s.redis with crashCounts := Function.update s.redis.crashCounts d.id 0 } } := by
  have hother {id : StreamId} (hne : id ≠ d.id) :
      s.redis.crashCounts id ≤ Function.update s.redis.crashCounts d.id 0 id := by
    rw [Function.update_of_ne hne]
  refine h.setCounts (fun id hsome => hother fun heq => ?_)
    (fun d' hd' hopen => hother fun heq => ?_)
  · rw [heq, hnone] at hsome
    exact absurd hsome (by simp)
  · -- only the delivery that sends the request works on the entry
    obtain ⟨j, hj⟩ := List.mem_iff_getElem?.mp hd'
    have hfin : d'.stage ≠ .finished := by
      rcases hopen with h | h <;> simp [h]
    have hij := h.distinct j i d' d hj hi ⟨hfin, by simp [hstage], heq⟩
    rw [hij, hi] at hj
    rw [← Option.some.inj hj, hstage] at hopen
    simp at hopen

/-- HINCRBY -/
theorem RetryInv.count (h : RetryInv cfg n ds s) (d : Delivery π) :
    RetryInv cfg n ds { s with redis := d.count s.redis } := by
  have hle (id : StreamId) : s.redis.crashCounts id ≤
      Function.update s.redis.crashCounts d.id (s.redis.crashCounts d.id + 1) id := by
    rw [Function.update_apply]
    split
    · rename_i heq
      rw [heq]
      omega
    · exact le_refl _
  exact h.setCounts (fun id _ => hle id) (fun d' _ _ => hle d'.id)

/-- An undelivered entry is not pending. -/
theorem lt_add_id {maxlen k : Nat} {id : StreamId} {fields : OpFields π}
    (h : s.redis.stream.add maxlen id k fields = some stream) :
    s.redis.stream.lastDelivered < id ∧ s.redis.stream.pending id = none := by
  obtain ⟨hlt, -, -, -, -, -⟩ := GroupStream.add_eq_some h
  have hlast := lt_of_le_of_lt s.redis.stream.delivered_le hlt
  refine ⟨hlast, Option.not_isSome_iff_eq_none.mp fun hsome => ?_⟩
  exact absurd hlast (not_lt.mpr (s.redis.stream.pending_le id hsome))

theorem Tracked.add (h : Tracked cfg s) {maxlen k : Nat} {id : StreamId} {fields : OpFields π}
    (hadd : s.redis.stream.add maxlen id k fields = some stream)
    (hserial : fields.op.serial < s.nextSerial) (hattempt : 1 ≤ fields.attempt) :
    Tracked cfg (s.setStream stream) := by
  obtain ⟨-, -, -, -, hlast, hpending⟩ := GroupStream.add_eq_some hadd
  exact {
    delivered := fun d hd hfin => by
      show d.id ≤ stream.lastDelivered
      rw [hlast]
      exact h.delivered d hd hfin
    alive := h.alive
    holder := fun d hd hfin c hc => h.holder d hd hfin c (by rwa [← hpending])
    distinct := h.distinct
    data := fun d hd hfin e he hid => by
      rcases GroupStream.mem_of_add hadd he with he | rfl
      · exact h.data d hd hfin e he hid
      · exact absurd (h.delivered d hd hfin) (not_le.mpr (hid ▸ (lt_add_id hadd).1))
    settled := fun d hd move sent hstage hsent => by
      show stream.pending d.id = none
      rw [hpending]
      exact h.settled d hd move sent hstage hsent
    entrySerial := fun e he => by
      rcases GroupStream.mem_of_add hadd he with he | rfl
      · exact h.entrySerial e he
      · exact hserial
    deliverySerial := h.deliverySerial
    entryAttempt := fun e he => by
      rcases GroupStream.mem_of_add hadd he with he | rfl
      · exact h.entryAttempt e he
      · exact hattempt
    deliveryAttempt := h.deliveryAttempt }

/-- XADD of an operation that is nowhere else. -/
theorem RetryInv.add (h : RetryInv cfg n ds s) {maxlen k : Nat} {id : StreamId}
    {fields : OpFields π} (hadd : s.redis.stream.add maxlen id k fields = some stream)
    (hserial : fields.op.serial < s.nextSerial) (hattempt : 1 ≤ fields.attempt)
    (hentries : fields.op.serial = n → ∀ e, s.redis.stream.Live e → e.data.op.serial ≠ n)
    (hdeliveries : fields.op.serial = n →
      ∀ d ∈ s.deliveries, d.stage.active cfg = true → d.fields.op.serial ≠ n)
    (habove : fields.op.serial = n → Above ds fields.attempt ∧ fields.Backoff cfg) :
    RetryInv cfg n ds (s.setStream stream) := by
  obtain ⟨-, -, -, -, hlast, hpending⟩ := GroupStream.add_eq_some hadd
  -- only the added entry is new among the live ones
  have hlive {e : StreamEntry StreamId (OpFields π)} (he : stream.Live e) :
      s.redis.stream.Live e ∨ e = ⟨id, fields⟩ := by
    refine (GroupStream.mem_of_add hadd he.1).imp_left fun hmem => ⟨hmem, ?_⟩
    rw [← hlast, ← hpending]
    exact he.2
  exact {
    toTracked := h.toTracked.add hadd hserial hattempt
    ordered := h.ordered
    limited := h.limited
    unknown := h.unknown
    entry_backoff := fun e he hn => by
      rcases GroupStream.mem_of_add hadd he with he | rfl
      · exact h.entry_backoff e he hn
      · exact (habove hn).2
    delivery_backoff := h.delivery_backoff
    entry_unique := fun e e' he he' hn hn' => by
      rcases hlive he with he | rfl
      · rcases hlive he' with he' | rfl
        · exact h.entry_unique e e' he he' hn hn'
        · exact absurd hn (hentries hn' e he)
      · rcases hlive he' with he' | rfl
        · exact absurd hn' (hentries hn e' he')
        · rfl
    waiting := fun e he hn => by
      rcases GroupStream.mem_of_add hadd he.1 with hmem | rfl
      · exact h.waiting e ⟨hmem, by rw [← hlast]; exact he.2⟩ hn
      · exact (habove hn).1
    pending := fun e he hsome hn => by
      have hsome' : (s.redis.stream.pending e.id).isSome := by rwa [← hpending]
      rcases GroupStream.mem_of_add hadd he with hmem | rfl
      · exact h.pending e hmem hsome' hn
      · rw [(lt_add_id hadd).2] at hsome'
        exact absurd hsome' (by simp)
    active_entry := fun d hd hact hd_n e he hn => by
      rcases hlive he with he | rfl
      · exact h.active_entry d hd hact hd_n e he hn
      · exact absurd hd_n (hdeliveries hn d hd hact)
    active_unique := h.active_unique
    numbers := fun d hd hact hn => by
      show Numbers cfg.adapterMaxRetries ds s.clock (s.redis.crashCounts d.id) (stream.pending d.id).isSome d.fields d.stage
      rw [hpending]
      exact h.numbers d hd hact hn }

/-- The entry `e` is given to the consumer `c`. -/
structure Given (s : BrokerSystem π) (c : ConsumerName) (e : StreamEntry StreamId (OpFields π))
    (stream : GroupStream StreamId ConsumerName (OpFields π)) : Prop where
  live : s.redis.stream.Live e
  entries : stream.entries = s.redis.stream.entries
  pending : stream.pending = Function.update s.redis.stream.pending e.id (some c)
  le : s.redis.stream.lastDelivered ≤ stream.lastDelivered
  id_le : e.id ≤ stream.lastDelivered
  free : ∀ d ∈ s.deliveries, d.stage ≠ .finished → d.id ≠ e.id
  alive : s.consumers c ≠ .crashed

variable {c : ConsumerName} {e : StreamEntry StreamId (OpFields π)}

theorem Given.eq_of_id (h : Given s c e stream) {a : StreamEntry StreamId (OpFields π)}
    (ha : a ∈ s.redis.stream.entries) (hid : a.id = e.id) : a = e :=
  s.redis.stream.increasing.eq_of_id ha h.live.1 hid

theorem Given.live_of (h : Given s c e stream) {a : StreamEntry StreamId (OpFields π)}
    (ha : stream.Live a) : s.redis.stream.Live a := by
  have hmem : a ∈ s.redis.stream.entries := h.entries ▸ ha.1
  by_cases hid : a.id = e.id
  · rw [h.eq_of_id hmem hid]
    exact h.live
  · refine ⟨hmem, ha.2.imp (fun hlt => lt_of_le_of_lt h.le hlt) fun hsome => ?_⟩
    rwa [h.pending, Function.update_of_ne hid] at hsome

theorem Tracked.deliver (h : Tracked cfg s) (hgiven : Given s c e stream)
    (hstage : stage = .received ∨ stage = .claimed) :
    Tracked cfg ((s.setStream stream).deliver c e stage) := by
  have hmoving (move : BrokerMove) (sent : Nat) : stage ≠ .moving move sent := by
    rcases hstage with rfl | rfl <;> simp
  have hmem {d : Delivery π} (hd : d ∈ s.deliveries ++ [⟨c, e.id, e.data, stage⟩]) :
      d ∈ s.deliveries ∨ d = ⟨c, e.id, e.data, stage⟩ :=
    (List.mem_append.mp hd).imp_right List.mem_singleton.mp
  have hpend {d : Delivery π} (hd : d ∈ s.deliveries) (hfin : d.stage ≠ .finished) :
      stream.pending d.id = s.redis.stream.pending d.id := by
    rw [hgiven.pending, Function.update_of_ne (hgiven.free d hd hfin)]
  exact {
    delivered := fun d hd hfin => by
      rcases hmem hd with hd | rfl
      · exact le_trans (h.delivered d hd hfin) hgiven.le
      · exact hgiven.id_le
    alive := fun d hd hfin => by
      rcases hmem hd with hd | rfl
      · exact h.alive d hd hfin
      · exact hgiven.alive
    holder := fun d hd hfin c' hc' => by
      rcases hmem hd with hd | rfl
      · exact h.holder d hd hfin c' ((hpend hd hfin).symm.trans hc')
      · have hc : stream.pending e.id = some c := by rw [hgiven.pending, Function.update_self]
        exact Option.some.inj (hc'.symm.trans hc)
    distinct := h.distinct.concat (fun d hd hR => hgiven.free d hd hR.2.1 hR.2.2.symm)
      (fun d hd hR => hgiven.free d hd hR.1 hR.2.2)
    data := fun d hd hfin a ha hid => by
      have ha' : a ∈ s.redis.stream.entries := hgiven.entries ▸ ha
      rcases hmem hd with hd | rfl
      · exact h.data d hd hfin a ha' hid
      · rw [hgiven.eq_of_id ha' hid]
    settled := fun d hd move sent hd_stage hsent => by
      rcases hmem hd with hd | rfl
      · exact (hpend hd (by simp [hd_stage])).trans (h.settled d hd move sent hd_stage hsent)
      · exact absurd hd_stage (hmoving move sent)
    entrySerial := fun a ha => h.entrySerial a (hgiven.entries ▸ ha)
    deliverySerial := fun d hd => by
      rcases hmem hd with hd | rfl
      · exact h.deliverySerial d hd
      · exact h.entrySerial e hgiven.live.1
    entryAttempt := fun a ha => h.entryAttempt a (hgiven.entries ▸ ha)
    deliveryAttempt := fun d hd => by
      rcases hmem hd with hd | rfl
      · exact h.deliveryAttempt d hd
      · exact h.entryAttempt e hgiven.live.1 }

theorem RetryInv.deliver (h : RetryInv cfg n ds s) (hgiven : Given s c e stream)
    (hstage : stage = .received ∨ stage = .claimed)
    (hpending : e.data.op.serial = n →
      Upto ds (e.data.attempt + s.redis.crashCounts e.id) ∧
        (¬e.data.Due s.clock → Above ds e.data.attempt))
    (hreceived : stage = .received → e.data.op.serial = n → Above ds e.data.attempt) :
    RetryInv cfg n ds ((s.setStream stream).deliver c e stage) := by
  have hmem {d : Delivery π} (hd : d ∈ s.deliveries ++ [⟨c, e.id, e.data, stage⟩]) :
      d ∈ s.deliveries ∨ d = ⟨c, e.id, e.data, stage⟩ :=
    (List.mem_append.mp hd).imp_right List.mem_singleton.mp
  -- no delivery of the operation was active: it would work on the entry
  have hidle (d : Delivery π) (hd : d ∈ s.deliveries) (hact : d.stage.active cfg = true)
      (hn : d.fields.op.serial = n) : e.data.op.serial ≠ n := fun hen =>
    hgiven.free d hd (active_ne_finished hact)
      (h.active_entry d hd hact hn e hgiven.live hen).symm
  exact {
    toTracked := h.toTracked.deliver hgiven hstage
    ordered := h.ordered
    limited := h.limited
    unknown := h.unknown
    entry_backoff := fun a ha => h.entry_backoff a (hgiven.entries ▸ ha)
    delivery_backoff := fun d hd => by
      rcases hmem hd with hd | rfl
      · exact h.delivery_backoff d hd
      · exact h.entry_backoff e hgiven.live.1
    entry_unique := fun a a' ha ha' =>
      h.entry_unique a a' (hgiven.live_of ha) (hgiven.live_of ha')
    waiting := fun a ha => h.waiting a ⟨hgiven.entries ▸ ha.1, lt_of_le_of_lt hgiven.le ha.2⟩
    pending := fun a ha hsome hn => by
      have ha' : a ∈ s.redis.stream.entries := hgiven.entries ▸ ha
      by_cases hid : a.id = e.id
      · obtain rfl := hgiven.eq_of_id ha' hid
        exact hpending hn
      · refine h.pending a ha' ?_ hn
        have hsome' : (stream.pending a.id).isSome := hsome
        rwa [hgiven.pending, Function.update_of_ne hid] at hsome'
    active_entry := fun d hd hact hn a ha han => by
      rcases hmem hd with hd | rfl
      · exact h.active_entry d hd hact hn a (hgiven.live_of ha) han
      · exact h.entry_unique a e (hgiven.live_of ha) hgiven.live han hn
    active_unique := h.active_unique.concat (fun d hd hR => hidle d hd hR.2.1 hR.2.2 hR.1.2)
      (fun d hd hR => hidle d hd hR.1.1 hR.1.2 hR.2.2)
    numbers := fun d hd hact hn => by
      rcases hmem hd with hd | rfl
      · show Numbers cfg.adapterMaxRetries ds s.clock (s.redis.crashCounts d.id) (stream.pending d.id).isSome d.fields
          d.stage
        rw [hgiven.pending, Function.update_of_ne (hgiven.free d hd (active_ne_finished hact))]
        exact h.numbers d hd hact hn
      · rcases hstage with rfl | rfl
        · exact hreceived rfl hn
        · exact hpending hn }

/-- XREADGROUP -/
theorem RetryInv.receive (h : RetryInv cfg n ds s) (hread : s.redis.stream.read c = some (e, stream))
    (hc : s.consumers c ≠ .crashed) :
    RetryInv cfg n ds ((s.setStream stream).deliver c e .received) := by
  obtain ⟨hnew, -, hentries, -, hlast, hpending⟩ := GroupStream.read_eq_some hread
  have hgiven : Given s c e stream := {
    live := ⟨hnew.1, Or.inl hnew.2⟩
    entries := hentries
    pending := hpending
    le := by
      rw [hlast]
      exact le_of_lt hnew.2
    id_le := le_of_eq hlast.symm
    free := fun d hd hfin => ne_of_lt (lt_of_le_of_lt (h.delivered d hd hfin) hnew.2)
    alive := hc }
  refine h.deliver hgiven (Or.inl rfl) (fun hn => ?_) (fun _ hn => h.waiting e hnew hn)
  have habove := h.waiting e hnew hn
  exact ⟨habove.upto.mono (Nat.le_add_right _ _), fun _ => habove⟩

/-- XAUTOCLAIM of an entry whose holder has crashed. -/
theorem RetryInv.claim (h : RetryInv cfg n ds s) {id : StreamId}
    {o : Option (StreamEntry StreamId (OpFields π))}
    (hclaim : s.redis.stream.claim c id = some (o, stream)) (hc : s.consumers c ≠ .crashed)
    (hok : ∀ c' ∈ s.redis.stream.pending id, s.consumers c' = .crashed) :
    (∀ e, o = some e → RetryInv cfg n ds ((s.setStream stream).deliver c e .claimed)) ∧
      (o = none → RetryInv cfg n ds (s.setStream stream)) := by
  obtain ⟨hsome, hentries, -, hlast, hcases⟩ := GroupStream.claim_eq_some hclaim
  rcases hcases with ⟨e, he, rfl, rfl, hpending⟩ | ⟨-, rfl, hpending⟩
  · refine ⟨fun e' heq => ?_, fun heq => by simp at heq⟩
    obtain rfl := Option.some.inj heq
    have hgiven : Given s c e stream := {
      live := ⟨he, Or.inr hsome⟩
      entries := hentries
      pending := hpending
      le := le_of_eq hlast.symm
      id_le := by
        rw [hlast]
        exact s.redis.stream.pending_le e.id hsome
      free := fun d hd hfin hid => by
        -- a delivery that still works on the entry is at its holder, which has crashed
        obtain ⟨c', hc'⟩ := Option.isSome_iff_exists.mp hsome
        have hholder := h.holder d hd hfin c' (hid ▸ hc')
        exact h.alive d hd hfin (hholder ▸ hok c' hc')
      alive := hc }
    exact h.deliver hgiven (Or.inr rfl) (fun hn => h.pending e he hsome hn) (fun heq => by simp at heq)
  · refine ⟨fun e heq => by simp at heq, fun _ => h.shrink hentries hlast fun id' c' hc' => ?_⟩
    rw [hpending, Function.update_apply] at hc'
    split at hc'
    · exact absurd hc' (by simp)
    · exact hc'

end Commands

/-- The process of a consumer ends, and with it its deliveries. -/
theorem RetryInv.crash (h : RetryInv cfg n ds s) (c : ConsumerName) :
    RetryInv cfg n ds { s.setStatus c .crashed with
      deliveries := s.deliveries.map fun d =>
        if d.consumer = c then { d with stage := .finished } else d } := by
  -- the deliveries that go on are those of other consumers
  have hmem {d : Delivery π} (hd : d ∈ s.deliveries.map fun d =>
      if d.consumer = c then { d with stage := .finished } else d) (hfin : d.stage ≠ .finished) :
      d ∈ s.deliveries ∧ d.consumer ≠ c := by
    obtain ⟨d₀, hd₀, rfl⟩ := List.mem_map.mp hd
    by_cases hc : d₀.consumer = c
    · simp [hc] at hfin
    · rw [if_neg hc]
      exact ⟨hd₀, hc⟩
  have hsame {P : Delivery π → Prop} (hP : ∀ d stage, P d → P { d with stage })
      (hall : ∀ d ∈ s.deliveries, P d) : ∀ d ∈ s.deliveries.map fun d =>
        if d.consumer = c then { d with stage := .finished } else d, P d := by
    intro d hd
    obtain ⟨d₀, hd₀, rfl⟩ := List.mem_map.mp hd
    by_cases hc : d₀.consumer = c
    · rw [if_pos hc]
      exact hP d₀ .finished (hall d₀ hd₀)
    · rw [if_neg hc]
      exact hall d₀ hd₀
  have hstage {d : Delivery π}
      (hfin : (if d.consumer = c then { d with stage := .finished } else d).stage ≠ .finished) :
      (if d.consumer = c then { d with stage := .finished } else d) = d := by
    by_cases hc : d.consumer = c
    · simp [hc] at hfin
    · rw [if_neg hc]
  exact {
    toTracked := {
      delivered := fun d hd hfin => h.delivered d (hmem hd hfin).1 hfin
      alive := fun d hd hfin => by
        obtain ⟨hd₀, hc⟩ := hmem hd hfin
        show Function.update s.consumers c _ d.consumer ≠ .crashed
        rw [Function.update_of_ne hc]
        exact h.alive d hd₀ hfin
      holder := fun d hd hfin => h.holder d (hmem hd hfin).1 hfin
      distinct := h.distinct.map fun x y hR => by
        rwa [hstage hR.1, hstage hR.2.1] at hR
      data := fun d hd hfin => h.data d (hmem hd hfin).1 hfin
      settled := fun d hd move sent heq => h.settled d (hmem hd (by simp [heq])).1 move sent heq
      entrySerial := h.entrySerial
      deliverySerial := hsame (fun _ _ hP => hP) h.deliverySerial
      entryAttempt := h.entryAttempt
      deliveryAttempt := hsame (fun _ _ hP => hP) h.deliveryAttempt }
    ordered := h.ordered
    limited := h.limited
    unknown := h.unknown
    entry_backoff := h.entry_backoff
    delivery_backoff := hsame (fun _ _ hP => hP) h.delivery_backoff
    entry_unique := h.entry_unique
    waiting := h.waiting
    pending := h.pending
    active_entry := fun d hd hact => h.active_entry d (hmem hd (active_ne_finished hact)).1 hact
    active_unique := h.active_unique.map fun x y hR => by
      rwa [hstage (active_ne_finished hR.1.1), hstage (active_ne_finished hR.2.1)] at hR
    numbers := fun d hd hact => h.numbers d (hmem hd (active_ne_finished hact)).1 hact }

theorem RetryInv.tick (h : RetryInv cfg n ds s) (dt : Nat) :
    RetryInv cfg n ds { s with clock := s.clock + dt } :=
  { h with
    toTracked := { h.toTracked with }
    pending := fun e he hsome hn => by
      obtain ⟨hup, habove⟩ := h.pending e he hsome hn
      exact ⟨hup, fun hnot => habove fun hdue => hnot (hdue.mono (Nat.le_add_right _ _))⟩
    numbers := fun d hd hact hn =>
      (h.numbers d hd hact hn).mono (Nat.le_add_right _ _) id fun _ => le_refl _ }

/-! ### Dispatches -/

/-- A dispatch is recorded. -/
theorem RetryInv.record (h : RetryInv cfg n ds s) {t : Nat} (hi : s.deliveries[i]? = some d)
    (hstage : d.stage = .dispatching t) (hn : d.fields.op.serial = n) (habove : Above ds t)
    (hpos : 1 ≤ t) (hle : t ≤ cfg.adapterMaxRetries) : RetryInv cfg n (ds ++ [t]) s := by
  have hd := List.mem_of_getElem? hi
  have hact : d.stage.active cfg = true := by rw [hstage]; rfl
  have hfin : d.stage ≠ .finished := by simp [hstage]
  have hup {x : Nat} (hx : Upto ds x) (htx : t ≤ x) : Upto (ds ++ [t]) x := by
    intro y hy
    rcases List.mem_append.mp hy with hy | hy
    · exact hx y hy
    · rw [List.mem_singleton.mp hy]
      exact htx
  have hnum := h.numbers d hd hact hn
  rw [hstage] at hnum
  obtain ⟨-, hdue, hheld⟩ := hnum
  exact {
    toTracked := h.toTracked
    ordered := List.pairwise_append.mpr ⟨h.ordered, List.pairwise_singleton _ _,
      fun x hx y hy => (List.mem_singleton.mp hy) ▸ habove x hx⟩
    limited := fun x hx => by
      rcases List.mem_append.mp hx with hx | hx
      · exact h.limited x hx
      · rw [List.mem_singleton.mp hx]
        exact ⟨hpos, hle⟩
    unknown := fun hlt => absurd (h.deliverySerial d hd) (by omega)
    entry_backoff := h.entry_backoff
    delivery_backoff := h.delivery_backoff
    entry_unique := h.entry_unique
    waiting := fun e he hen => by
      have hid := h.active_entry d hd hact hn e ⟨he.1, Or.inl he.2⟩ hen
      exact absurd (h.delivered d hd hfin) (not_le.mpr (hid ▸ he.2))
    pending := fun e he hsome hen => by
      have hid := h.active_entry d hd hact hn e ⟨he, Or.inr hsome⟩ hen
      have hdata := h.data d hd hfin e he hid
      rw [hdata, hid]
      refine ⟨hup ?_ (hheld (hid ▸ hsome)), fun hnot => absurd hdue hnot⟩
      rw [← hdata, ← hid]
      exact (h.pending e he hsome hen).1
    active_entry := h.active_entry
    active_unique := h.active_unique
    numbers := fun d' hd' hact' hn' => by
      obtain ⟨j, hj⟩ := List.mem_iff_getElem?.mp hd'
      have hij := h.active_unique j i d' d hj hi ⟨⟨hact', hn'⟩, hact, hn⟩
      rw [hij, hi] at hj
      obtain rfl := Option.some.inj hj
      rw [hstage]
      exact ⟨hup habove.upto (le_refl t), hdue, hheld⟩ }

/-! ### Requests of a move -/

section Moves

variable {move : BrokerMove} {sent now : Nat} {next : Stage} {pick : Pick} {redis : BrokerRedis π}
  {events : List (BrokerEvent π)}

theorem active_succ (h : (Stage.moving move (sent + 1)).active cfg = true) :
    (Stage.moving move sent).active cfg = true := by
  cases move with
  | requeue => simp [Stage.active] at h
  | nack attempt now =>
    simp only [Stage.active, Bool.and_eq_true, decide_eq_true_eq] at h ⊢
    omega
  | poison _ | ack _ => rfl
  | reject | ackPoison | ackFailed => simp [Stage.active] at h

/-- The stage that follows an exception. -/
theorem RetryInv.raise (h : RetryInv cfg n ds s) (hi : s.deliveries[i]? = some d)
    (hstage : d.stage = .moving move sent) (now : Nat) :
    RetryInv cfg n ds (s.setStage i d (Delivery.raised cfg now move)) := by
  have hfin : d.stage ≠ .finished := by simp [hstage]
  have hfirst (move move' : BrokerMove) (sent' : Nat)
      (heq : Stage.moving move 0 = .moving move' sent') (hle : move'.settledAt cfg ≤ sent') :
      s.redis.stream.pending d.id = none := by
    obtain ⟨rfl, rfl⟩ := Stage.moving.inj heq
    exact absurd hle (not_le.mpr (BrokerMove.settledAt_pos cfg _))
  cases move with
  | requeue | reject | ackPoison | ackFailed | nack _ _ =>
    exact h.retire hi hfin (fun _ _ heq => by simp [Delivery.raised] at heq) rfl
  | poison attempt => exact h.retire hi hfin (hfirst .reject) rfl
  | ack attempt =>
    rw [Delivery.raised, Delivery.afterFailure]
    split
    · rename_i hlt
      refine h.setStage hi hfin (hfirst _) (fun _ => by rw [hstage]; rfl) (fun _ hn => ?_)
      have hnum := h.numbers d (List.mem_of_getElem? hi) (by rw [hstage]; rfl) hn
      rw [hstage] at hnum
      exact ⟨hnum.1, hnum.2.1, hnum.2.2, hlt⟩
    · exact h.retire hi hfin (fun _ _ heq => by simp at heq) rfl

/-- The stage that follows a request of a move. -/
theorem RetryInv.proceed (h : RetryInv cfg n ds s) (hi : s.deliveries[i]? = some d)
    (hstage : d.stage = .moving move sent)
    (hsettled : move.settledAt cfg ≤ sent + 1 → s.redis.stream.pending d.id = none)
    (hnext : next = .moving move (sent + 1) ∨ next = Delivery.raised cfg now move) :
    RetryInv cfg n ds (s.setStage i d next) := by
  rcases hnext with rfl | rfl
  · refine h.setStage hi (by simp [hstage]) (fun move' sent' heq hle => ?_) (fun hact => ?_)
      (fun hact hn => ?_)
    · obtain ⟨rfl, rfl⟩ := Stage.moving.inj heq
      exact hsettled hle
    · rw [hstage]
      exact active_succ hact
    · have hnum := h.numbers d (List.mem_of_getElem? hi) (hstage ▸ active_succ hact) hn
      rw [hstage] at hnum
      cases move <;> exact hnum
  · exact h.raise hi hstage now

/-- When the active delivery of an operation retires, none is left. -/
theorem RetryInv.idle (h : RetryInv cfg n ds s) (hi : s.deliveries[i]? = some d)
    (hact : d.stage.active cfg = true) (hn : d.fields.op.serial = n)
    (hnext : next.active cfg = false) :
    ∀ d' ∈ (s.setStage i d next).deliveries, d'.stage.active cfg = true →
      d'.fields.op.serial ≠ n := by
  intro d' hd' hact' hn'
  obtain ⟨j, hj⟩ := List.mem_iff_getElem?.mp hd'
  rw [setStage_getElem? hi] at hj
  split at hj
  · obtain rfl := Option.some.inj hj
    rw [hnext] at hact'
    simp at hact'
  · rename_i hij
    exact hij (h.active_unique i j d d' hi hj ⟨⟨hact, hn⟩, hact', hn'⟩)

/-- The active delivery of an operation whose entry is settled: no entry is live. -/
theorem RetryInv.no_entry (h : RetryInv cfg n ds s) (hd : d ∈ s.deliveries)
    (hact : d.stage.active cfg = true) (hn : d.fields.op.serial = n)
    (hnone : s.redis.stream.pending d.id = none) :
    ∀ e, s.redis.stream.Live e → e.data.op.serial ≠ n := by
  intro e he hen
  have hid := h.active_entry d hd hact hn e he hen
  rcases he.2 with hlt | hsome
  · exact absurd (h.delivered d hd (active_ne_finished hact)) (not_le.mpr (hid ▸ hlt))
  · rw [hid, hnone] at hsome
    exact absurd hsome (by simp)

/-- The request that adds an operation again retires its delivery. -/
theorem RetryInv.readd (h : RetryInv cfg n ds s) (hi : s.deliveries[i]? = some d)
    (hstage : d.stage = .moving move sent) (hact : d.stage.active cfg = true)
    (hnone : s.redis.stream.pending d.id = none)
    (hnext : next = .moving move (sent + 1) ∨ next = Delivery.raised cfg now move)
    (hidle : next.active cfg = false) {id : StreamId} {k : Nat} {fields : OpFields π}
    {stream : GroupStream StreamId ConsumerName (OpFields π)}
    (hadd : s.redis.stream.add cfg.streamMaxlen id k fields = some stream)
    (hop : fields.op = d.fields.op) (hpos : 1 ≤ fields.attempt)
    (habove : d.fields.op.serial = n → Above ds fields.attempt ∧ fields.Backoff cfg) :
    RetryInv cfg n ds ((s.setStage i d next).setStream stream) := by
  have hd := List.mem_of_getElem? hi
  refine (h.proceed hi hstage (fun _ => hnone) hnext).add hadd ?_ hpos ?_ ?_ ?_
  · rw [hop]
    exact h.deliverySerial d hd
  · rw [hop]
    exact fun hn => h.no_entry hd hact hn hnone
  · rw [hop]
    exact fun hn => h.idle hi hact hn hidle
  · rw [hop]
    exact habove

/-- A request of a move. -/
theorem RetryInv.request (h : RetryInv cfg n ds s) (hi : s.deliveries[i]? = some d)
    (hstage : d.stage = .moving move sent) (hsent : Sent cfg pick s.redis d move sent redis events)
    (hnext : next = .moving move (sent + 1) ∨ next = Delivery.raised cfg now move) :
    RetryInv cfg n ds { s.setStage i d next with redis } := by
  have hd := List.mem_of_getElem? hi
  have hacked : (s.redis.stream.ack d.id).pending d.id = none := by
    rw [GroupStream.ack_pending, Function.update_self]
  cases hsent with
  | @requeue stream hadd =>
    have hact : d.stage.active cfg = true := by rw [hstage]; rfl
    have h₁ := (h.ack d.id).clear hi hstage hacked
    refine h₁.readd hi hstage hact hacked hnext ?_ (GroupStream.add_ack hadd d.id) rfl
      (h.deliveryAttempt d hd) (fun hn => ?_)
    · rcases hnext with rfl | rfl <;> rfl
    · have hnum := h.numbers d hd hact hn
      rw [hstage] at hnum
      exact ⟨hnum, h.delivery_backoff d hd hn⟩
  | @letter _ dlq hletters =>
    have h₁ : RetryInv cfg n ds { s with redis := { s.redis with dlq } } :=
      { h with toTracked := { h.toTracked with } }
    refine h₁.proceed hi hstage (fun hle => ?_) hnext
    rw [BrokerMove.settledAt, if_pos hletters] at hle
    omega
  | settle _ | ack _ | retry _ => exact (h.ack d.id).proceed hi hstage (fun _ => hacked) hnext
  | @readd attempt _ stream fields hretry hop hattempt hadd =>
    have hact : d.stage.active cfg = true := by simp [hstage, Stage.active, hretry]
    have hnone : s.redis.stream.pending d.id = none := by
      refine h.settled d hd _ 1 hstage ?_
      rw [BrokerMove.settledAt]
      split
      · rename_i hletters
        rw [BrokerMove.letters, decide_eq_true_eq] at hletters
        omega
      · exact le_refl 1
    refine h.readd hi hstage hact hnone hnext ?_ hadd hop (by omega) (fun hn => ?_)
    · rcases hnext with rfl | rfl
      · simp [Stage.active]
      · rfl
    · have hnum := h.numbers d hd hact hn
      rw [hstage] at hnum
      rw [OpFields.Backoff, hattempt]
      exact ⟨hnum.1.above, Or.inl hnum.2.2.2⟩
  | clear hclear =>
    have hnone := h.settled d hd move sent hstage (move.settledAt_le_clearAt cfg hclear)
    exact (h.clear hi hstage hnone).proceed hi hstage (fun _ => hnone) hnext

end Moves

/-! ### Runs -/

theorem dispatchesOf_sent {r r' : BrokerRedis π} {pick : Pick} {move : BrokerMove} {sent : Nat}
    {events : List (BrokerEvent π)} (h : Sent cfg pick r d move sent r' events) (n : Nat) :
    dispatchesOf n events = [] := by
  cases h <;> rfl

theorem RetryInv.turn {redis : BrokerRedis π} {events : List (BrokerEvent π)}
    (h : RetryInv cfg n ds s) (hi : s.deliveries[i]? = some d)
    (hturn : Turn cfg s.clock s.redis d redis stage events) :
    RetryInv cfg n (ds ++ dispatchesOf n events) { s.setStage i d stage with redis } := by
  have hd := List.mem_of_getElem? hi
  -- a step that sends no request, or has not got an answer to the first one
  have hgo {stage : Stage} (hfin : d.stage ≠ .finished)
      (hfirst : ∀ move sent, stage = .moving move sent → sent = 0)
      (hactive : stage.active cfg = true → d.stage.active cfg = true)
      (hnumbers : stage.active cfg = true → d.fields.op.serial = n →
        Numbers cfg.adapterMaxRetries ds s.clock (s.redis.crashCounts d.id) (s.redis.stream.pending d.id).isSome
          d.fields stage) :
      RetryInv cfg n (ds ++ dispatchesOf (π := π) n []) (s.setStage i d stage) := by
    rw [dispatchesOf, List.filterMap_nil, List.append_nil]
    refine h.setStage hi hfin (fun move sent heq hle => ?_) hactive hnumbers
    rw [hfirst move sent heq] at hle
    exact absurd hle (not_le.mpr (BrokerMove.settledAt_pos cfg move))
  have hnum (hactive : d.stage.active cfg = true) := h.numbers d hd hactive
  cases hturn with
  | requeue hstage hdue =>
    have hnot : ¬d.fields.Due s.clock := fun h => by simp [isDue_iff.mpr h] at hdue
    rcases hstage with hstage | hstage
    · rw [hstage] at hnum
      refine hgo (by simp [hstage]) ?_ (fun _ => by rw [hstage]; rfl) (fun _ hn => hnum rfl hn)
      exact fun _ _ heq => (Stage.moving.inj heq).2.symm
    · rw [hstage] at hnum
      refine hgo (by simp [hstage]) ?_ (fun _ => by rw [hstage]; rfl) (fun _ hn => (hnum rfl hn).2 hnot)
      exact fun _ _ heq => (Stage.moving.inj heq).2.symm
  | reject hstage =>
    refine hgo ?_ (fun _ _ heq => (Stage.moving.inj heq).2.symm) (fun hact => by cases hact)
      (fun hact => by cases hact)
    rcases hstage with hstage | hstage <;> simp [hstage]
  | accept hstage hdue =>
    rw [hstage] at hnum
    refine hgo (by simp [hstage]) (by simp) (fun _ => by rw [hstage]; rfl) (fun _ hn => ?_)
    exact ⟨hnum rfl hn, h.deliveryAttempt d hd, isDue_iff.mp hdue, fun _ => Nat.le_add_right _ _⟩
  | tally hstage hdue =>
    rw [hstage] at hnum
    refine hgo (by simp [hstage]) (by simp) (fun _ => by rw [hstage]; rfl) (fun _ hn => ?_)
    exact ⟨(hnum rfl hn).1, isDue_iff.mp hdue⟩
  | poison hstage | retry hstage =>
    rw [hstage] at hnum
    rw [dispatchesOf, List.filterMap_nil, List.append_nil]
    refine (h.count d).setStage hi (by simp [hstage]) (fun move sent heq hle => ?_)
      (fun _ => by rw [hstage]; rfl) (fun _ hn => ?_)
    · first
      | obtain ⟨rfl, rfl⟩ := Stage.moving.inj heq
        exact absurd hle (not_le.mpr (BrokerMove.settledAt_pos cfg _))
      | simp at heq
    · obtain ⟨hup, hdue⟩ := hnum rfl hn
      refine ⟨hup.above, by omega, hdue, fun _ => ?_⟩
      show _ ≤ d.fields.attempt + Function.update s.redis.crashCounts d.id _ d.id
      rw [Function.update_self]
  | sent hstage hsent =>
    rw [dispatchesOf_sent hsent, List.append_nil]
    exact h.request hi hstage hsent (Or.inl (b := _ = Delivery.raised cfg s.clock _) rfl)
  | @done move sent hstage hnone =>
    rw [hstage] at hnum
    cases move with
    | poison attempt =>
      refine hgo (by simp [hstage]) (by simp [Delivery.done]) (fun _ => by rw [hstage]; rfl)
        (fun _ hn => hnum rfl hn)
    | requeue | reject | ack _ | nack _ _ | ackPoison | ackFailed =>
      exact hgo (by simp [hstage]) (by simp [Delivery.done]) (fun hact => by cases hact)
        (fun hact => by cases hact)
  | hand hstage =>
    rw [hstage] at hnum
    exact hgo (by simp [hstage]) (by simp) (fun _ => by rw [hstage]; rfl) (fun _ hn => hnum rfl hn)
  | refuse hstage _ =>
    exact hgo (by simp [hstage]) (by simp) (fun hact => by cases hact) (fun hact => by cases hact)
  | @dispatch attempt hstage hle =>
    rw [hstage] at hnum
    have h₁ : RetryInv cfg n ds (s.setStage i d (.dispatching attempt)) := by
      refine h.setStage hi (by simp [hstage]) (by simp) (fun _ => by rw [hstage]; rfl)
        (fun _ hn => ?_)
      obtain ⟨habove, -, hdue, hheld⟩ := hnum rfl hn
      exact ⟨habove.upto, hdue, hheld⟩
    by_cases hn : d.fields.op.serial = n
    · obtain ⟨habove, hpos, -, -⟩ := hnum rfl hn
      have hevents : dispatchesOf n [.dispatched d.fields.op attempt] = [attempt] := by
        simp [dispatchesOf, hn]
      rw [hevents]
      refine h₁.record (i := i) (d := { d with stage := .dispatching attempt }) ?_ rfl hn habove
        hpos hle
      rw [setStage_getElem? hi, if_pos rfl]
    · have hevents : dispatchesOf n [.dispatched d.fields.op attempt] = [] := by
        simp [dispatchesOf, hn]
      rw [hevents, List.append_nil]
      exact h₁
  | markPoison hstage | markFailed hstage =>
    exact hgo (by simp [hstage]) (fun _ _ heq => (Stage.moving.inj heq).2.symm)
      (fun hact => by cases hact) (fun hact => by cases hact)
  | success hstage =>
    rw [hstage] at hnum
    exact hgo (by simp [hstage]) (fun _ _ heq => (Stage.moving.inj heq).2.symm)
      (fun _ => by rw [hstage]; rfl) (fun _ hn => hnum rfl hn)
  | failure hstage =>
    rw [hstage] at hnum
    rw [Delivery.afterFailure]
    split
    · rename_i hlt
      refine hgo (by simp [hstage]) (fun _ _ heq => (Stage.moving.inj heq).2.symm)
        (fun _ => by rw [hstage]; rfl) (fun _ hn => ?_)
      obtain ⟨hup, hdue, hheld⟩ := hnum rfl hn
      exact ⟨hup, hdue, hheld, hlt⟩
    · exact hgo (by simp [hstage]) (by simp) (fun hact => by cases hact) (fun hact => by cases hact)

theorem RetryInv.failed {redis : BrokerRedis π} {events : List (BrokerEvent π)}
    (h : RetryInv cfg n ds s) (hi : s.deliveries[i]? = some d)
    (hfailed : Failed cfg s.clock s.redis d redis stage events) :
    RetryInv cfg n (ds ++ dispatchesOf n events) { s.setStage i d stage with redis } := by
  have hfirst (move : BrokerMove) (sent : Nat) (heq : Stage.moving .reject 0 = .moving move sent)
      (hle : move.settledAt cfg ≤ sent) : s.redis.stream.pending d.id = none := by
    obtain ⟨rfl, rfl⟩ := Stage.moving.inj heq
    exact absurd hle (not_le.mpr (BrokerMove.settledAt_pos cfg _))
  cases hfailed with
  | counted hstage =>
    rw [dispatchesOf, List.filterMap_nil, List.append_nil]
    exact (h.count d).retire hi (by simp [hstage]) hfirst rfl
  | uncounted hstage =>
    rw [dispatchesOf, List.filterMap_nil, List.append_nil]
    exact h.retire hi (by simp [hstage]) hfirst rfl
  | sent hstage hsent =>
    rw [dispatchesOf_sent hsent, List.append_nil]
    exact h.request hi hstage hsent (Or.inr rfl)
  | @lost move sent hstage =>
    rw [dispatchesOf, List.filterMap_nil, List.append_nil]
    exact h.raise hi hstage s.clock

theorem RetryInv.step {a : BrokerAction π} {events : List (BrokerEvent π)}
    (h : RetryInv cfg n ds s) (hok : CrashStop s a) (hstep : s.step cfg a = some (s', events)) :
    RetryInv cfg n (ds ++ dispatchesOf n events) s' := by
  have hquiet {s' : BrokerSystem π} (h : RetryInv cfg n ds s') :
      RetryInv cfg n (ds ++ dispatchesOf (π := π) n []) s' := by
    rwa [dispatchesOf, List.filterMap_nil, List.append_nil]
  -- consumers that have crashed stay so, and no other one crashes
  have hstatus {s : BrokerSystem π} (h : RetryInv cfg n ds s) (c : ConsumerName)
      {status : ConsumerStatus} (hstatus : status ≠ .crashed) :
      RetryInv cfg n ds (s.setStatus c status) := by
    refine { h with toTracked := { h.toTracked with alive := fun d hd hfin => ?_ } }
    show Function.update s.consumers c status d.consumer ≠ .crashed
    rw [Function.update_apply]
    split
    · exact hstatus
    · exact h.alive d hd hfin
  cases a with
  | runTask payload pick =>
    obtain ⟨stream, hadd, rfl, rfl⟩ := step_runTask hstep
    have h₁ : RetryInv cfg n ds { s with nextSerial := s.nextSerial + 1 } :=
      { h with
        toTracked := { h.toTracked with
          entrySerial := fun e he => Nat.lt_succ_of_lt (h.entrySerial e he)
          deliverySerial := fun d hd => Nat.lt_succ_of_lt (h.deliverySerial d hd) }
        unknown := fun hle => h.unknown (Nat.le_of_succ_le hle) }
    have hevents : dispatchesOf n [.added pick.id ⟨s.nextSerial, payload⟩] = [] := rfl
    rw [hevents, List.append_nil]
    refine h₁.add hadd (Nat.lt_succ_self _) (le_refl 1) (fun hn e he hen => ?_)
      (fun hn d hd _ hdn => ?_) (fun hn => ?_)
    · have hlt := h.entrySerial e he.1
      rw [hen, ← hn] at hlt
      exact lt_irrefl _ hlt
    · have hlt := h.deliverySerial d hd
      rw [hdn, ← hn] at hlt
      exact lt_irrefl _ hlt
    · rw [h.unknown (le_of_eq hn)]
      exact ⟨fun x hx => absurd hx List.not_mem_nil, Or.inr rfl⟩
  | enter c =>
    obtain ⟨rfl, -, status, hne, rfl⟩ := step_status (Or.inl rfl) hstep
    exact hquiet (hstatus h c hne)
  | shutdown c =>
    obtain ⟨rfl, -, status, hne, rfl⟩ := step_status (Or.inr rfl) hstep
    exact hquiet (hstatus h c hne)
  | receive c =>
    obtain ⟨hc, e, stream, hread, rfl, rfl⟩ := step_receive hstep
    exact hquiet (h.receive hread (by simp [hc]))
  | claim c id =>
    obtain ⟨hc, o, stream, hclaim, rfl, hcases⟩ := step_claim hstep
    obtain ⟨hsome, hnone⟩ := h.claim hclaim (by simp [hc]) hok
    rcases hcases with ⟨e, ho, rfl⟩ | ⟨ho, rfl⟩
    · exact hquiet (hsome e ho)
    · exact hquiet (hnone ho)
  | advance i pick =>
    obtain ⟨d, redis, stage, hi, hturn, rfl⟩ := step_advance hstep
    exact h.turn hi hturn
  | result i success =>
    obtain ⟨d, stage, hi, hturn, rfl⟩ := step_result hstep
    exact h.turn hi hturn
  | raise i executed pick =>
    obtain ⟨d, redis, stage, hi, hfailed, rfl⟩ := step_raise hstep
    exact h.failed hi hfailed
  | interrupt i =>
    obtain ⟨d, hi, hint, rfl, rfl⟩ := step_interrupt hstep
    refine hquiet (h.retire hi (fun hfin => ?_) (by simp) rfl)
    simp [Delivery.interruptible, hfin] at hint
  | exit c =>
    obtain ⟨-, rfl, rfl⟩ := step_exit hstep
    exact hquiet (hstatus (h.exit c) c (by simp))
  | crash c =>
    obtain ⟨rfl, rfl⟩ := Prod.mk.inj (Option.some.inj hstep)
    exact hquiet (h.crash c)
  | tick dt =>
    obtain ⟨rfl, rfl⟩ := Prod.mk.inj (Option.some.inj hstep)
    exact hquiet (h.tick dt)

theorem length_le_of_ordered {l : List Nat} {m : Nat} (hordered : l.Pairwise (· < ·))
    (hlimited : ∀ t ∈ l, 1 ≤ t ∧ t ≤ m) : l.length ≤ m := by
  have hnodup : l.Nodup := hordered.imp fun hlt => ne_of_lt hlt
  have hsub : l ⊆ List.range' 1 m := fun t ht => by
    have := hlimited t ht
    rw [List.mem_range'_1]
    omega
  have hle := (List.subperm_of_subset hnodup hsub).length_le
  rwa [List.length_range'] at hle

/-! ### When the limit is used up -/

/-- When the limit is used up, what is delivered is due. -/
theorem RetryInv.due (h : RetryInv cfg n ds s) (hlen : ds.length = cfg.adapterMaxRetries)
    (hd : d ∈ s.deliveries) (hn : d.fields.op.serial = n)
    (hstage : d.stage = .received ∨ d.stage = .claimed) : d.isDue s.clock = true := by
  rw [isDue_iff]
  by_contra hnot
  have habove : Above ds d.fields.attempt := by
    rcases hstage with hstage | hstage
    · have hnum := h.numbers d hd (by rw [hstage]; rfl) hn
      rwa [hstage] at hnum
    · have hnum := h.numbers d hd (by rw [hstage]; rfl) hn
      rw [hstage] at hnum
      exact hnum.2 hnot
  have hpos := h.deliveryAttempt d hd
  have hlt : ds.length + 1 ≤ d.fields.attempt := by
    have hle := length_le_of_ordered (l := ds ++ [d.fields.attempt]) (m := d.fields.attempt)
      (List.pairwise_append.mpr ⟨h.ordered, List.pairwise_singleton _ _,
        fun x hx y hy => (List.mem_singleton.mp hy) ▸ habove x hx⟩) (fun x hx => by
        rcases List.mem_append.mp hx with hx | hx
        · exact ⟨(h.limited x hx).1, le_of_lt (habove x hx)⟩
        · rw [List.mem_singleton.mp hx]
          exact ⟨hpos, le_refl _⟩)
    rwa [List.length_append] at hle
  rcases h.delivery_backoff d hd hn with hle | hnone
  · omega
  · exact hnot fun t ht => by simp [hnone] at ht

theorem Turn.refusing {r r' : BrokerRedis π} {now : Nat} {events : List (BrokerEvent π)}
    (h : Turn cfg now r d r' stage events) (hd : d.stage.refusing = true)
    (hdue : d.stage = .received ∨ d.stage = .claimed → d.isDue now = true)
    (hevents : dispatchesOf d.fields.op.serial events = []) : stage.refusing = true := by
  cases h with
  | requeue hstage hnot =>
    rw [hdue hstage] at hnot
    exact absurd hnot (by simp)
  | @sent _ move _ _ _ hstage _ =>
    rw [hstage] at hd
    cases move <;> exact hd
  | @done move _ hstage _ => cases move <;> rfl
  | dispatch _ _ => simp [dispatchesOf] at hevents
  | markFailed hstage | success hstage | failure hstage =>
    rw [hstage] at hd
    simp [Stage.refusing] at hd
  | reject | accept | tally | poison | retry | hand | refuse | markPoison => rfl

theorem Failed.refusing {r r' : BrokerRedis π} {now : Nat} {events : List (BrokerEvent π)}
    (h : Failed cfg now r d r' stage events) (hd : d.stage.refusing = true) :
    stage.refusing = true := by
  cases h with
  | counted | uncounted => rfl
  | @sent _ move _ _ _ hstage _ | @lost move _ hstage =>
    rw [hstage] at hd
    cases move with
    | reject | poison _ | ackPoison => rfl
    | requeue | ack _ | nack _ _ | ackFailed => simp [Stage.refusing] at hd

/-- The deliveries of the operation number `n` from the place `m` on only mark the task
as failed and remove the entry. -/
def Refused (n m : Nat) (s : BrokerSystem π) : Prop :=
  m ≤ s.deliveries.length ∧ ∀ i d, m ≤ i → s.deliveries[i]? = some d → d.fields.op.serial = n →
    d.stage.refusing = true

theorem Refused.setStage {m : Nat} (h : Refused n m s) (hi : s.deliveries[i]? = some d)
    (hstage : m ≤ i → d.fields.op.serial = n → stage.refusing = true)
    (redis : BrokerRedis π) : Refused n m { s.setStage i d stage with redis } := by
  refine ⟨?_, fun j d' hm hj hn => ?_⟩
  · show m ≤ (s.deliveries.set i _).length
    rw [List.length_set]
    exact h.1
  · have hj' : (s.setStage i d stage).deliveries[j]? = some d' := hj
    rw [setStage_getElem? hi] at hj'
    split at hj'
    · rename_i hij
      obtain rfl := Option.some.inj hj'
      exact hstage (hij ▸ hm) hn
    · exact h.2 j d' hm hj' hn

theorem Refused.deliver {m : Nat} (h : Refused n m s) (c : ConsumerName)
    (e : StreamEntry StreamId (OpFields π)) (hstage : stage.refusing = true)
    (stream : GroupStream StreamId ConsumerName (OpFields π)) :
    Refused n m ((s.setStream stream).deliver c e stage) := by
  refine ⟨?_, fun j d' hm hj hn => ?_⟩
  · show m ≤ (s.deliveries ++ [_]).length
    rw [List.length_append]
    exact le_trans h.1 (Nat.le_add_right _ _)
  · have hj' : (s.deliveries ++ [⟨c, e.id, e.data, stage⟩])[j]? = some d' := hj
    rw [List.getElem?_append] at hj'
    split at hj'
    · exact h.2 j d' hm hj' hn
    · obtain rfl := List.mem_singleton.mp (List.mem_of_getElem? hj')
      exact hstage

theorem Refused.step {m : Nat} {a : BrokerAction π} {events : List (BrokerEvent π)}
    (h : Refused n m s) (hinv : RetryInv cfg n ds s) (hlen : ds.length = cfg.adapterMaxRetries)
    (hevents : dispatchesOf n events = []) (hstep : s.step cfg a = some (s', events)) : Refused n m s' := by
  cases a with
  | runTask payload pick =>
    obtain ⟨stream, -, rfl, -⟩ := step_runTask hstep
    exact h
  | enter c =>
    obtain ⟨-, -, status, -, rfl⟩ := step_status (Or.inl rfl) hstep
    exact h
  | shutdown c =>
    obtain ⟨-, -, status, -, rfl⟩ := step_status (Or.inr rfl) hstep
    exact h
  | receive c =>
    obtain ⟨-, e, stream, -, rfl, -⟩ := step_receive hstep
    exact h.deliver c e rfl stream
  | claim c id =>
    obtain ⟨-, o, stream, -, -, ⟨e, -, rfl⟩ | ⟨-, rfl⟩⟩ := step_claim hstep
    · exact h.deliver c e rfl stream
    · exact h
  | advance i pick =>
    obtain ⟨d, redis, stage, hi, hturn, rfl⟩ := step_advance hstep
    -- the attempts are used up, so the delivery can only go on towards being settled
    refine h.setStage hi (fun hm hn => ?_) redis
    exact Turn.refusing hturn (h.2 i d hm hi hn) (hinv.due hlen (List.mem_of_getElem? hi) hn)
      (by rwa [hn])
  | result i success =>
    obtain ⟨d, stage, hi, hturn, rfl⟩ := step_result hstep
    refine h.setStage hi (fun hm hn => ?_) s.redis
    exact Turn.refusing hturn (h.2 i d hm hi hn) (hinv.due hlen (List.mem_of_getElem? hi) hn)
      (by rwa [hn])
  | raise i executed pick =>
    obtain ⟨d, redis, stage, hi, hfailed, rfl⟩ := step_raise hstep
    exact h.setStage hi (fun hm hn => Failed.refusing hfailed (h.2 i d hm hi hn)) redis
  | interrupt i =>
    obtain ⟨d, hi, -, rfl, -⟩ := step_interrupt hstep
    exact h.setStage hi (fun _ _ => rfl) s.redis
  | exit c =>
    obtain ⟨-, -, rfl⟩ := step_exit hstep
    exact h
  | crash c =>
    obtain ⟨rfl, -⟩ := Prod.mk.inj (Option.some.inj hstep)
    refine ⟨?_, fun j d' hm hj hn => ?_⟩
    · show m ≤ (s.deliveries.map _).length
      rw [List.length_map]
      exact h.1
    · rw [List.getElem?_map] at hj
      obtain ⟨d, hj', rfl⟩ := Option.map_eq_some_iff.mp hj
      by_cases hc : d.consumer = c
      · rw [if_pos hc]
        rfl
      · rw [if_neg hc] at hn ⊢
        exact h.2 j d hm hj' hn
  | tick dt =>
    obtain ⟨rfl, -⟩ := Prod.mk.inj (Option.some.inj hstep)
    exact h

instance (s : BrokerSystem π) (a : BrokerAction π) : Decidable (CrashStop s a) :=
  match a with
  | .claim _ id =>
    inferInstanceAs (Decidable (∀ c ∈ s.redis.stream.pending id, s.consumers c = .crashed))
  | .crash _ | .raise _ _ _ | .runTask _ _ | .enter _ | .receive _ | .exit _ | .advance _ _
  | .result _ _ | .interrupt _ | .shutdown _ | .tick _ => inferInstanceAs (Decidable True)

end BrokerSystem

end A2AKit
