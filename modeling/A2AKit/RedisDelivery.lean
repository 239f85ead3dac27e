/-
Exactly-once delivery of the Redis event bus.

A run of the bus in which the stream of a task is neither trimmed nor expired and
its entries deserialize (`Readable`).  What a subscription has yielded is, at every
moment, a prefix of the entries behind its start position, cut right after the first
terminal marker (`SubInv`): the position it has reached is the id of the last entry
it yielded, and what a loop still holds is what follows the position.

Nothing stays behind: a subscription that keeps taking steps has, after finitely
many of them, yielded everything that was in the stream, whatever wakeups were lost
(`Subscription.work` counts the steps).

* `streamed_exactly_once` — the prefix, the end, and the progress.
-/
import A2AKit.RedisEventBus
import A2AKit.EventLog
import Mathlib.Tactic.Common

namespace A2AKit

open StreamLog

variable {ε : Type} (ids : IdText) (codec : EventCodec ε)

/-- What an entry is yielded as. -/
def delivery (entry : RedisEntry) : Option (String × ε) :=
  (codec.deserialize entry.data).map fun event => (ids.print entry.id, event)

/-- What a list of entries is yielded as. -/
def deliveries (l : List RedisEntry) : List (String × ε) := l.filterMap (delivery ids codec)

/-- Where the subscription starts: behind a valid `after_event_id`, at `0-0` for an
invalid one, and at the bookmark if there is none. -/
def RedisSubscription.startPosition (sub : RedisSubscription) : StreamId :=
  match sub.afterEventId with
  | some after => (ids.read after).getD StreamId.zero
  | none => (sub.snapshotStreamId.bind ids.read).getD StreamId.zero

/-- The entries a subscription still holds; none before it has read its position. -/
def IterPoint.batch : IterPoint → Option (List RedisEntry)
  | .replaying rest | .gapFilling rest | .reading rest => some rest
  | .gapFill | .wait | .read => some []
  | .subscribe | .bookmark | .start | .replay _ | .returned | .raised | .left => none

/-- The subscription has not read its position yet. -/
def IterPoint.early : IterPoint → Bool
  | .subscribe | .bookmark | .start | .replay _ => true
  | _ => false

abbrev RedisTrace (ε : Type) :=
  List (RedisBusAction ε × Option (SubscriptionId × String × ε))

namespace RedisEventBus

def yieldOf (u : SubscriptionId) : Option (SubscriptionId × String × ε) → List (String × ε)
  | some (v, d) => if v = u then [d] else []
  | none => []

/-- What the subscription `u` yielded in a run. -/
def yieldedBy (u : SubscriptionId) (tr : RedisTrace ε) : List (String × ε) :=
  tr.flatMap fun q => yieldOf u q.2

def isStepOf (u : SubscriptionId) : RedisBusAction ε → Bool
  | .next v => decide (v = u)
  | _ => false

/-- How many steps `u` takes in a run. -/
def stepsOf (u : SubscriptionId) (tr : RedisTrace ε) : Nat :=
  tr.countP fun q => isStepOf u q.1

/-- The stream of the task is neither trimmed nor expired, and what is added to it
can be read. -/
def Readable (taskId : TaskId) (_ : RedisEventBus) : RedisBusAction ε → Prop
  | .publish t _ event => t = taskId → (codec.deserialize (codec.serialize event)).isSome
  | .trim t _ => t ≠ taskId
  | _ => True

/-- The Redis calls of `u` succeed. -/
def Connected (u : SubscriptionId) : RedisBusAction ε → Prop
  | .disconnect v => v ≠ u
  | _ => True

instance (taskId : TaskId) (bus : RedisEventBus) (a : RedisBusAction ε) :
    Decidable (Readable codec taskId bus a) :=
  match a with
  | .publish t _ event =>
    inferInstanceAs (Decidable (t = taskId → (codec.deserialize (codec.serialize event)).isSome))
  | .trim t _ => inferInstanceAs (Decidable (t ≠ taskId))
  | .announce _ | .subscribe _ _ _ | .next _ | .skip _ | .disconnect _ | .leave _ | .lose _
  | .stray _ => inferInstanceAs (Decidable True)

instance (u : SubscriptionId) (a : RedisBusAction ε) : Decidable (Connected u a) :=
  match a with
  | .disconnect v => inferInstanceAs (Decidable (v ≠ u))
  | .publish _ _ _ | .announce _ | .subscribe _ _ _ | .next _ | .skip _ | .leave _ | .lose _
  | .stray _ | .trim _ _ => inferInstanceAs (Decidable True)

end RedisEventBus

/-! ### The invariant -/

/-- The subscription has reached a position: it has yielded what lies up to it, and
`rest` is what follows. -/
structure Behind (log : List RedisEntry) (sub : RedisSubscription) (out : List (String × ε))
    (rest : List RedisEntry) (p : StreamId) : Prop where
  read : ids.read sub.lastSeenId = some p
  start_le : sub.startPosition ids ≤ p
  reached : p = sub.startPosition ids ∨ ∃ entry ∈ log, entry.id = p
  yielded : out = deliveries ids codec (between (sub.startPosition ids) p log)
  follows : rest <+: newer p log

structure StreamInv (log : List RedisEntry) : Prop where
  increasing : Increasing log
  readable : ∀ entry ∈ log, (codec.deserialize entry.data).isSome

structure SubscriptionInv (log : List RedisEntry) (sub : RedisSubscription)
    (out : List (String × ε)) : Prop where
  reached : out <+: deliveries ids codec (newer (sub.startPosition ids) log)
  running : sub.point ≠ .returned → ∀ d ∈ out, codec.isFinal d.2 = false
  returned : sub.point = .returned →
    ∃ init d, out = init ++ [d] ∧ (∀ d ∈ init, codec.isFinal d.2 = false) ∧ codec.isFinal d.2 = true
  early : sub.point.early = true → out = []
  replay : ∀ after, sub.point = .replay after →
    sub.afterEventId = some after ∧ sub.lastSeenId = after
  bookmark : ∀ text, sub.snapshotStreamId = some text → (ids.read text).isSome
  ticks : sub.pollTicks < safetyPollInterval
  behind : ∀ rest, sub.point.batch = some rest → ∃ p, Behind ids codec log sub out rest p

section Subscription

variable {ids codec}
variable {log : List RedisEntry} {sub sub' : RedisSubscription} {out : List (String × ε)}
  {rest : List RedisEntry} {p : StreamId}

theorem deliveries_append (l l' : List RedisEntry) :
    deliveries ids codec (l ++ l') = deliveries ids codec l ++ deliveries ids codec l' :=
  List.filterMap_append

theorem deliveries_mono {l l' : List RedisEntry} (h : l <+: l') :
    deliveries ids codec l <+: deliveries ids codec l' :=
  h.filterMap _

theorem Behind.yielded_reached (h : Behind ids codec log sub out rest p) (hinc : Increasing log) :
    out <+: deliveries ids codec (newer (sub.startPosition ids) log) := by
  rw [← between_append_newer hinc h.start_le, deliveries_append, ← h.yielded]
  exact List.prefix_append _ _

/-- The position stays; other entries that follow it are held. -/
theorem Behind.hold (h : Behind ids codec log sub out rest p) {rest' : List RedisEntry}
    (hseen : sub'.lastSeenId = sub.lastSeenId)
    (hstart : sub'.startPosition ids = sub.startPosition ids) (hrest : rest' <+: newer p log) :
    Behind ids codec log sub' out rest' p where
  read := by rw [hseen, h.read]
  start_le := hstart ▸ h.start_le
  reached := hstart ▸ h.reached
  yielded := hstart ▸ h.yielded
  follows := hrest

/-- The first entry that is held is yielded. -/
theorem Behind.yield {entry : RedisEntry} {event : ε} (hinc : Increasing log)
    (h : Behind ids codec log sub out (entry :: rest) p)
    (hevent : codec.deserialize entry.data = some event) (loop : IterPoint) :
    Behind ids codec log (sub.yield ids codec entry event loop).1
      (out ++ [(ids.print entry.id, event)]) rest entry.id := by
  obtain ⟨tail, htail⟩ := h.follows
  have hcons : newer p log = entry :: (rest ++ tail) := htail.symm
  have hmem := mem_newer.mp (hcons ▸ List.mem_cons_self)
  exact {
    read := ids.read_print entry.id
    start_le := le_trans h.start_le (le_of_lt hmem.2)
    reached := Or.inr ⟨entry, hmem.1, rfl⟩
    yielded := by
      show _ = deliveries ids codec (between (sub.startPosition ids) entry.id log)
      rw [between_of_cons hinc h.start_le hcons, deliveries_append, ← h.yielded]
      simp [deliveries, delivery, hevent]
    follows := by
      rw [newer_of_cons hinc hcons]
      exact List.prefix_append _ _ }

/-- An entry is added at the end of the stream. -/
theorem Behind.publish {entry : RedisEntry} (h : Behind ids codec log sub out rest p)
    (hfresh : Fresh log entry.id) : Behind ids codec (log ++ [entry]) sub out rest p where
  read := h.read
  start_le := h.start_le
  reached := h.reached.imp_right fun ⟨e, he, hid⟩ => ⟨e, List.mem_append_left _ he, hid⟩
  yielded := by
    have hout : p < entry.id ∨ p ≤ sub.startPosition ids := by
      rcases h.reached with hp | ⟨e, he, hid⟩
      · exact Or.inr (le_of_eq hp)
      · exact Or.inl (hid ▸ hfresh e he)
    rw [between_concat hout]
    exact h.yielded
  follows := h.follows.trans (newer_mono p log _)

/-- A subscription that holds entries keeps the invariant. -/
theorem SubscriptionInv.of_behind (hinc : Increasing log) (hbatch : sub.point.batch = some rest)
    (hrunning : ∀ d ∈ out, codec.isFinal d.2 = false) (hticks : sub.pollTicks < safetyPollInterval)
    (hmark : ∀ text, sub.snapshotStreamId = some text → (ids.read text).isSome)
    (h : Behind ids codec log sub out rest p) : SubscriptionInv ids codec log sub out where
  reached := h.yielded_reached hinc
  running := fun _ => hrunning
  returned := fun hret => by simp [hret, IterPoint.batch] at hbatch
  early := fun hearly => by
    cases hpt : sub.point <;> simp [hpt, IterPoint.batch, IterPoint.early] at hbatch hearly
  replay := fun after hpt => by simp [hpt, IterPoint.batch] at hbatch
  bookmark := hmark
  ticks := hticks
  behind := fun rest' hrest => by
    rw [hbatch, Option.some_inj] at hrest
    exact ⟨p, hrest ▸ h⟩

/-- So does one that has not read its position yet. -/
theorem SubscriptionInv.of_early (hearly : sub.point.early = true)
    (hreplay : ∀ after, sub.point = .replay after →
      sub.afterEventId = some after ∧ sub.lastSeenId = after)
    (hticks : sub.pollTicks < safetyPollInterval)
    (hmark : ∀ text, sub.snapshotStreamId = some text → (ids.read text).isSome) : SubscriptionInv ids codec log sub [] where
  reached := List.nil_prefix
  running := fun _ d hd => absurd hd List.not_mem_nil
  returned := fun hret => by simp [hret, IterPoint.early] at hearly
  early := fun _ => rfl
  replay := hreplay
  bookmark := hmark
  ticks := hticks
  behind := fun rest hrest => by
    cases hpt : sub.point <;> simp [hpt, IterPoint.batch, IterPoint.early] at hrest hearly

/-- A subscription that stops keeps what it has yielded. -/
theorem SubscriptionInv.stop (h : SubscriptionInv ids codec log sub out)
    (hrunning : sub.point ≠ .returned) {point : IterPoint} (hpt : point = .raised ∨ point = .left) :
    SubscriptionInv ids codec log { sub with point } out where
  reached := h.reached
  running := fun _ => h.running hrunning
  returned := fun hret => by rcases hpt with rfl | rfl <;> simp at hret
  early := fun hearly => by rcases hpt with rfl | rfl <;> simp [IterPoint.early] at hearly
  replay := fun after ha => by rcases hpt with rfl | rfl <;> simp at ha
  bookmark := h.bookmark
  ticks := h.ticks
  behind := fun rest hrest => by rcases hpt with rfl | rfl <;> simp [IterPoint.batch] at hrest

/-- The turn of a loop that yields an entry. -/
theorem SubscriptionInv.yield {entry : RedisEntry} {event : ε} {loop : IterPoint}
    (h : SubscriptionInv ids codec log sub out) (hinc : Increasing log)
    (hbatch : sub.point.batch = some (entry :: rest)) (hloop : loop.batch = some rest)
    (hevent : codec.deserialize entry.data = some event) :
    SubscriptionInv ids codec log (sub.yield ids codec entry event loop).1
      (out ++ [(ids.print entry.id, event)]) := by
  obtain ⟨p, hb⟩ := h.behind _ hbatch
  have hb' := hb.yield hinc hevent loop
  have hrunning := h.running (by intro hret; simp [hret, IterPoint.batch] at hbatch)
  by_cases hfin : codec.isFinal event
  · exact {
      reached := hb'.yielded_reached hinc
      running := fun hpt => by simp [RedisSubscription.yield, hfin] at hpt
      returned := fun _ => ⟨out, _, rfl, hrunning, hfin⟩
      early := fun hpt => by simp [RedisSubscription.yield, hfin, IterPoint.early] at hpt
      replay := fun after hpt => by simp [RedisSubscription.yield, hfin] at hpt
      bookmark := h.bookmark
      ticks := h.ticks
      behind := fun rest hrest => by
        simp [RedisSubscription.yield, hfin, IterPoint.batch] at hrest }
  · refine .of_behind hinc ?_ ?_ h.ticks h.bookmark hb'
    · simp [RedisSubscription.yield, hfin, hloop]
    · intro d hd
      rcases List.mem_append.mp hd with hd | hd
      · exact hrunning d hd
      · rw [List.mem_singleton.mp hd]
        exact Bool.eq_false_iff.mpr hfin

/-- Reading the stream from the position. -/
theorem SubscriptionInv.fetch (h : SubscriptionInv ids codec log sub out) (hinc : Increasing log)
    (hbatch : sub.point.batch = some []) (point : List RedisEntry → IterPoint)
    (hpoint : ∀ rest, (point rest).batch = some rest) :
    ∃ entries, ids.xrange log sub.lastSeenId = some entries ∧
      SubscriptionInv ids codec log { sub with point := point entries } out := by
  obtain ⟨p, hb⟩ := h.behind _ hbatch
  refine ⟨newer p log, by rw [IdText.xrange, hb.read, Option.map_some], ?_⟩
  have hrunning := h.running (by intro hret; simp [hret, IterPoint.batch] at hbatch)
  exact .of_behind hinc (hpoint _) hrunning h.ticks h.bookmark (hb.hold rfl rfl List.prefix_rfl)

/-- The entries of a loop have been used up, or the loop has not begun. -/
theorem SubscriptionInv.move (h : SubscriptionInv ids codec log sub out) (hinc : Increasing log)
    (hbatch : sub.point.batch = some []) (hbatch' : sub'.point.batch = some [])
    (hseen : sub'.lastSeenId = sub.lastSeenId) (hafter : sub'.afterEventId = sub.afterEventId)
    (hmark : sub'.snapshotStreamId = sub.snapshotStreamId)
    (hticks : sub'.pollTicks < safetyPollInterval) : SubscriptionInv ids codec log sub' out := by
  obtain ⟨p, hb⟩ := h.behind _ hbatch
  have hrunning := h.running (by intro hret; simp [hret, IterPoint.batch] at hbatch)
  have hstart : sub'.startPosition ids = sub.startPosition ids := by
    rw [RedisSubscription.startPosition, RedisSubscription.startPosition, hafter, hmark]
  exact .of_behind hinc hbatch' hrunning hticks (hmark ▸ h.bookmark)
    (hb.hold hseen hstart List.nil_prefix)

/-- The first read of the position. -/
theorem SubscriptionInv.begin (hinc : Increasing log)
    (hread : ids.read sub.lastSeenId = some (sub.startPosition ids))
    (hbatch : sub.point.batch = some rest)
    (hrest : rest <+: newer (sub.startPosition ids) log)
    (hticks : sub.pollTicks < safetyPollInterval)
    (hmark : ∀ text, sub.snapshotStreamId = some text → (ids.read text).isSome) :
    SubscriptionInv ids codec log sub [] := by
  refine .of_behind hinc hbatch (fun d hd => absurd hd List.not_mem_nil) hticks hmark
    (p := sub.startPosition ids) ⟨hread, le_refl _, Or.inl rfl, ?_, hrest⟩
  rw [between_self]
  rfl

theorem read_xrevrange (log : List RedisEntry) : (ids.read (ids.xrevrange log)).isSome := by
  rw [IdText.xrevrange]
  split
  · rw [ids.read_print]
    rfl
  · rw [ids.read_zero]
    rfl

theorem timeout_point (sub : RedisSubscription) (hpt : sub.point = .wait) :
    sub.timeout.point = .wait ∨ sub.timeout.point = .read := by
  rw [RedisSubscription.timeout]
  split
  · exact Or.inl hpt
  · exact Or.inr rfl

theorem timeout_ticks (sub : RedisSubscription) : sub.timeout.pollTicks < safetyPollInterval := by
  rw [RedisSubscription.timeout]
  split
  · assumption
  · show 0 < safetyPollInterval
    decide

theorem timeout_frame (sub : RedisSubscription) :
    sub.timeout.lastSeenId = sub.lastSeenId ∧ sub.timeout.afterEventId = sub.afterEventId ∧
      sub.timeout.snapshotStreamId = sub.snapshotStreamId ∧ sub.timeout.taskId = sub.taskId := by
  rw [RedisSubscription.timeout]
  split <;> exact ⟨rfl, rfl, rfl, rfl⟩

/-- `get_message` found nothing. -/
theorem SubscriptionInv.timeout (h : SubscriptionInv ids codec log sub out) (hinc : Increasing log)
    (hpt : sub.point = .wait) (inbox : List PubSubMessage) :
    SubscriptionInv ids codec log ({ sub with inbox }.timeout) out := by
  obtain ⟨hseen, hafter, hmark, -⟩ := timeout_frame { sub with inbox }
  refine h.move hinc (by rw [hpt]; rfl) ?_ hseen hafter hmark (timeout_ticks _)
  rcases timeout_point { sub with inbox } hpt with h' | h' <;> rw [h'] <;> rfl

/-- An entry that is held is in the stream, so it can be read. -/
theorem SubscriptionInv.readable {entry : RedisEntry} (h : SubscriptionInv ids codec log sub out)
    (hlog : StreamInv codec log) (hbatch : sub.point.batch = some (entry :: rest)) :
    ∃ event, codec.deserialize entry.data = some event := by
  obtain ⟨p, hb⟩ := h.behind _ hbatch
  have hmem := mem_newer.mp (hb.follows.subset List.mem_cons_self)
  exact Option.isSome_iff_exists.mp (hlog.readable entry hmem.1)

/-- The turn of a loop over the entries that were read. -/
theorem SubscriptionInv.turn {entry : RedisEntry} {loop : IterPoint} {skipped : RedisSubscription}
    {o : Option (String × ε)} (h : SubscriptionInv ids codec log sub out)
    (hlog : StreamInv codec log) (hbatch : sub.point.batch = some (entry :: rest))
    (hloop : loop.batch = some rest)
    (hturn : (match codec.deserialize entry.data with
      | none => some (skipped, none)
      | some event => some (sub.yield ids codec entry event loop)) = some (sub', o)) :
    SubscriptionInv ids codec log sub' (out ++ o.toList) := by
  obtain ⟨event, hevent⟩ := h.readable hlog hbatch
  rw [hevent] at hturn
  obtain ⟨rfl, rfl⟩ := Prod.mk.inj (Option.some.inj hturn)
  exact h.yield hlog.increasing hbatch hloop hevent

/-- A step of a subscription keeps its invariant. -/
theorem SubscriptionInv.next {o : Option (String × ε)} (h : SubscriptionInv ids codec log sub out)
    (hlog : StreamInv codec log) (hnext : sub.next ids codec log = some (sub', o)) :
    SubscriptionInv ids codec log sub' (out ++ o.toList) := by
  have hinc := hlog.increasing
  have hpoll : 0 < safetyPollInterval := by decide
  have hbatch {point : IterPoint} (hpt : sub.point = point) : sub.point.batch = point.batch := by
    rw [hpt]
  have hearly (hpt : sub.point.early = true) : out = [] := h.early hpt
  -- a step that yields nothing leaves `out` as it is
  have hsilent {sub₁ : RedisSubscription} (heq : some (sub₁, none) = some (sub', o))
      (h₁ : SubscriptionInv ids codec log sub₁ out) :
      SubscriptionInv ids codec log sub' (out ++ o.toList) := by
    obtain ⟨rfl, rfl⟩ := Prod.mk.inj (Option.some.inj heq)
    rwa [Option.toList_none, List.append_nil]
  cases hpt : sub.point with
  | subscribe =>
    simp only [RedisSubscription.next, hpt] at hnext
    obtain rfl := hearly (by rw [hpt]; rfl)
    refine hsilent hnext (.of_early ?_ (fun after hafter => ?_) h.ticks h.bookmark)
    · show (if _ then _ else _ : IterPoint).early = true
      split <;> rfl
    · exfalso
      revert hafter
      show (if _ then _ else _ : IterPoint) = _ → False
      split <;> simp
  | bookmark =>
    simp only [RedisSubscription.next, hpt] at hnext
    obtain rfl := hearly (by rw [hpt]; rfl)
    refine hsilent hnext (.of_early rfl (fun after hafter => by simp at hafter) h.ticks ?_)
    intro text htext
    rw [← Option.some.inj htext]
    exact read_xrevrange log
  | start =>
    simp only [RedisSubscription.next, hpt] at hnext
    obtain rfl := hearly (by rw [hpt]; rfl)
    cases hafter : sub.afterEventId with
    | none =>
      simp only [hafter] at hnext
      refine hsilent hnext (.begin hinc ?_ rfl List.nil_prefix h.ticks h.bookmark)
      simp only [RedisSubscription.startPosition]
      cases hmark : sub.snapshotStreamId with
      | none => exact ids.read_zero
      | some text =>
        obtain ⟨id, hid⟩ := Option.isSome_iff_exists.mp (h.bookmark text hmark)
        simp [hid]
    | some after =>
      simp only [hafter] at hnext
      refine hsilent hnext (.of_early rfl (fun after' hafter' => ?_) h.ticks h.bookmark)
      obtain rfl : after = after' := by simpa using hafter'
      exact ⟨rfl, rfl⟩
  | replay after =>
    simp only [RedisSubscription.next, hpt, IdText.xrange] at hnext
    obtain rfl := hearly (by rw [hpt]; rfl)
    obtain ⟨hafter, hseen⟩ := h.replay after hpt
    cases hid : ids.read after with
    | some id =>
      have hstart : sub.startPosition ids = id := by
        simp [RedisSubscription.startPosition, hafter, hid]
      simp only [hid, Option.map_some] at hnext
      refine hsilent hnext (.begin hinc ?_ rfl ?_ h.ticks h.bookmark)
      · show ids.read sub.lastSeenId = some (sub.startPosition ids)
        rw [hseen, hid, hstart]
      · show newer id log <+: newer (sub.startPosition ids) log
        rw [hstart]
    | none =>
      simp only [hid, Option.map_none] at hnext
      refine hsilent hnext (.begin hinc ?_ rfl List.nil_prefix h.ticks h.bookmark)
      show ids.read "0-0" = some (sub.startPosition ids)
      simp [RedisSubscription.startPosition, hafter, hid, ids.read_zero]
  | replaying rest =>
    cases rest with
    | nil =>
      simp only [RedisSubscription.next, hpt] at hnext
      exact hsilent hnext (h.move hinc (hbatch hpt) rfl rfl rfl rfl h.ticks)
    | cons entry rest =>
      simp only [RedisSubscription.next, hpt] at hnext
      exact h.turn hlog (hbatch hpt) rfl hnext
  | gapFill =>
    obtain ⟨entries, hentries, h'⟩ := h.fetch hinc (hbatch hpt) .gapFilling fun _ => rfl
    simp only [RedisSubscription.next, hpt, hentries] at hnext
    exact hsilent hnext h'
  | gapFilling rest =>
    cases rest with
    | nil =>
      simp only [RedisSubscription.next, hpt] at hnext
      exact hsilent hnext (h.move hinc (hbatch hpt) rfl rfl rfl rfl hpoll)
    | cons entry rest =>
      simp only [RedisSubscription.next, hpt] at hnext
      exact h.turn hlog (hbatch hpt) rfl hnext
  | wait =>
    simp only [RedisSubscription.next, hpt] at hnext
    split at hnext
    · exact absurd hnext (by simp)
    · exact hsilent hnext (h.move hinc (hbatch hpt) rfl rfl rfl rfl hpoll)
    · exact hsilent hnext (by simpa only [hpt] using h.timeout hinc hpt _)
    · exact hsilent hnext (h.timeout hinc hpt sub.inbox)
  | read =>
    obtain ⟨entries, hentries, h'⟩ := h.fetch hinc (hbatch hpt) .reading fun _ => rfl
    simp only [RedisSubscription.next, hpt, hentries] at hnext
    exact hsilent hnext h'
  | reading rest =>
    cases rest with
    | nil =>
      simp only [RedisSubscription.next, hpt] at hnext
      exact hsilent hnext (h.move hinc (hbatch hpt) rfl rfl rfl rfl h.ticks)
    | cons entry rest =>
      simp only [RedisSubscription.next, hpt] at hnext
      exact h.turn hlog (hbatch hpt) rfl hnext
  | returned => simp [RedisSubscription.next, hpt] at hnext
  | raised => simp [RedisSubscription.next, hpt] at hnext
  | left => simp [RedisSubscription.next, hpt] at hnext

/-- The messages of Pub/Sub are no part of what is yielded. -/
theorem SubscriptionInv.of_inbox (h : SubscriptionInv ids codec log sub out)
    (inbox : List PubSubMessage) : SubscriptionInv ids codec log { sub with inbox } out where
  reached := h.reached
  running := h.running
  returned := h.returned
  early := h.early
  replay := h.replay
  bookmark := h.bookmark
  ticks := h.ticks
  behind := fun rest hrest => by
    obtain ⟨p, hb⟩ := h.behind rest hrest
    exact ⟨p, hb.hold rfl rfl hb.follows⟩

theorem SubscriptionInv.skip (h : SubscriptionInv ids codec log sub out)
    (hskip : sub.skip = some sub') : SubscriptionInv ids codec log sub' out := by
  rw [RedisSubscription.skip] at hskip
  split at hskip
  · obtain rfl := Option.some.inj hskip
    exact h.of_inbox _
  · exact absurd hskip (by simp)

theorem SubscriptionInv.leave (h : SubscriptionInv ids codec log sub out)
    (hleave : sub.leave = some sub') : SubscriptionInv ids codec log sub' out := by
  rw [RedisSubscription.leave] at hleave
  split at hleave
  · exact absurd hleave (by simp)
  · exact absurd hleave (by simp)
  · exact absurd hleave (by simp)
  · rename_i hpt _ _
    obtain rfl := Option.some.inj hleave
    exact h.stop hpt (Or.inr rfl)

theorem SubscriptionInv.disconnect (h : SubscriptionInv ids codec log sub out)
    (hinc : Increasing log) (hfail : sub.disconnect = some sub') :
    SubscriptionInv ids codec log sub' out := by
  cases hpt : sub.point with
  | bookmark =>
    simp only [RedisSubscription.disconnect, hpt, Option.some_inj] at hfail
    subst hfail
    rw [h.early (by rw [hpt]; rfl)]
    refine .of_early rfl (fun after hafter => by simp at hafter) h.ticks fun text htext => ?_
    rw [← Option.some.inj htext, ids.read_zero]
    rfl
  | read =>
    simp only [RedisSubscription.disconnect, hpt, Option.some_inj] at hfail
    subst hfail
    exact h.move hinc (by rw [hpt]; rfl) rfl rfl rfl rfl h.ticks
  | subscribe | replay _ | gapFill | wait =>
    simp only [RedisSubscription.disconnect, hpt, Option.some_inj] at hfail
    subst hfail
    exact h.stop (by simp [hpt]) (Or.inl rfl)
  | start | replaying _ | gapFilling _ | reading _ | returned | raised | left =>
    simp [RedisSubscription.disconnect, hpt] at hfail

theorem SubscriptionInv.publish {entry : RedisEntry} (h : SubscriptionInv ids codec log sub out)
    (hfresh : Fresh log entry.id) : SubscriptionInv ids codec (log ++ [entry]) sub out where
  reached := h.reached.trans (deliveries_mono (newer_mono _ log _))
  running := h.running
  returned := h.returned
  early := h.early
  replay := h.replay
  bookmark := h.bookmark
  ticks := h.ticks
  behind := fun rest hrest => by
    obtain ⟨p, hb⟩ := h.behind rest hrest
    exact ⟨p, hb.publish hfresh⟩

theorem StreamInv.publish {id : StreamId} {event : ε} (h : StreamInv codec log)
    (hfresh : Fresh log id) (hread : (codec.deserialize (codec.serialize event)).isSome) :
    StreamInv codec (log ++ [⟨id, codec.serialize event⟩]) where
  increasing := h.increasing.concat hfresh
  readable := fun entry hentry => by
    rcases List.mem_append.mp hentry with hentry | hentry
    · exact h.readable entry hentry
    · rw [List.mem_singleton.mp hentry]
      exact hread

end Subscription

/-! ### A step of the bus -/

namespace RedisEventBus

variable {ids codec}
variable {u : SubscriptionId} {taskId : TaskId} {bus bus' : RedisEventBus}
  {out : List (String × ε)} {sub : RedisSubscription}

variable (ids codec) in
/-- The invariant of the subscription `u` to the events of a task. -/
structure BusInv (u : SubscriptionId) (taskId : TaskId) (out : List (String × ε))
    (bus : RedisEventBus) : Prop where
  stream : StreamInv codec (bus.streams taskId)
  absent : bus.subscribers u = none → out = []
  present : ∀ sub, bus.subscribers u = some sub → sub.taskId = taskId →
    SubscriptionInv ids codec (bus.streams taskId) sub out

theorem setSubscriber_subscribers (bus : RedisEventBus) (v : SubscriptionId)
    (sub : RedisSubscription) (u : SubscriptionId) :
    (bus.setSubscriber v sub).subscribers u = if u = v then some sub else bus.subscribers u :=
  Function.update_apply _ _ _ _

/-- A step that touches neither the stream nor the subscriptions. -/
theorem BusInv.frame (h : BusInv ids codec u taskId out bus)
    (hstreams : bus'.streams taskId = bus.streams taskId)
    (hsubs : bus'.subscribers = bus.subscribers) : BusInv ids codec u taskId out bus' where
  stream := by
    rw [hstreams]
    exact h.stream
  absent := hsubs ▸ h.absent
  present := by
    rw [hstreams, hsubs]
    exact h.present

/-- A step of a subscription, of `u` or of another one. -/
theorem BusInv.set {v : SubscriptionId} {sub' : RedisSubscription} {out' : List (String × ε)}
    (h : BusInv ids codec u taskId out bus) (hother : v ≠ u → out' = out)
    (hsub : v = u → sub'.taskId = taskId →
      SubscriptionInv ids codec (bus.streams taskId) sub' out') :
    BusInv ids codec u taskId out' (bus.setSubscriber v sub') where
  stream := h.stream
  absent := fun hnone => by
    rw [setSubscriber_subscribers] at hnone
    split at hnone
    · exact absurd hnone (by simp)
    · rename_i huv
      rw [hother (Ne.symm huv)]
      exact h.absent hnone
  present := fun sub₁ hsub₁ htask => by
    rw [setSubscriber_subscribers] at hsub₁
    split at hsub₁
    · rename_i huv
      obtain rfl := Option.some.inj hsub₁
      exact hsub huv.symm htask
    · rename_i huv
      rw [hother (Ne.symm huv)]
      exact h.present sub₁ hsub₁ htask

theorem modify_eq_some {v : SubscriptionId} {f : RedisSubscription → Option RedisSubscription}
    (hmod : bus.modify v f = some bus') :
    ∃ sub sub', bus.subscribers v = some sub ∧ f sub = some sub' ∧
      bus' = bus.setSubscriber v sub' := by
  rw [modify] at hmod
  obtain ⟨sub, hsub, hmod⟩ := Option.bind_eq_some_iff.mp hmod
  obtain ⟨sub', hsub', hmod⟩ := Option.bind_eq_some_iff.mp hmod
  exact ⟨sub, sub', hsub, hsub', (Option.some.inj hmod).symm⟩

/-- A change of a subscription that yields nothing. -/
theorem BusInv.modify {v : SubscriptionId} {f : RedisSubscription → Option RedisSubscription}
    (h : BusInv ids codec u taskId out bus) (hmod : bus.modify v f = some bus')
    (htask : ∀ sub sub', f sub = some sub' → sub'.taskId = sub.taskId)
    (hf : ∀ sub sub', f sub = some sub' →
      SubscriptionInv ids codec (bus.streams taskId) sub out →
        SubscriptionInv ids codec (bus.streams taskId) sub' out) :
    BusInv ids codec u taskId out bus' := by
  obtain ⟨sub, sub', hsub, hsub', rfl⟩ := modify_eq_some hmod
  refine h.set (fun _ => rfl) fun hvu htask' => hf sub sub' hsub' ?_
  exact h.present sub (hvu ▸ hsub) (htask sub sub' hsub' ▸ htask')

theorem skip_taskId {sub' : RedisSubscription} (h : sub.skip = some sub') :
    sub'.taskId = sub.taskId := by
  rw [RedisSubscription.skip] at h
  split at h
  · rw [← Option.some.inj h]
  · exact absurd h (by simp)

theorem leave_taskId {sub' : RedisSubscription} (h : sub.leave = some sub') :
    sub'.taskId = sub.taskId := by
  rw [RedisSubscription.leave] at h
  split at h
  case h_4 => rw [← Option.some.inj h]
  all_goals exact absurd h (by simp)

theorem disconnect_taskId {sub' : RedisSubscription} (h : sub.disconnect = some sub') :
    sub'.taskId = sub.taskId := by
  rw [RedisSubscription.disconnect] at h
  split at h
  case h_7 => exact absurd h (by simp)
  all_goals rw [← Option.some.inj h]

theorem next_taskId {log : List RedisEntry} {sub' : RedisSubscription} {o : Option (String × ε)}
    (h : sub.next ids codec log = some (sub', o)) : sub'.taskId = sub.taskId := by
  have hout {sub₁ : RedisSubscription} {o₁ : Option (String × ε)}
      (heq : some (sub₁, o₁) = some (sub', o)) (h₁ : sub₁.taskId = sub.taskId) :
      sub'.taskId = sub.taskId := by
    rw [← (Prod.mk.inj (Option.some.inj heq)).1, h₁]
  rw [RedisSubscription.next] at h
  repeat' split at h
  all_goals first
    | exact hout h rfl
    | exact hout h (timeout_frame _).2.2.2
    | cases h

/-- A step of the bus keeps the invariant. -/
theorem BusInv.step {a : RedisBusAction ε} {o : Option (SubscriptionId × String × ε)}
    (h : BusInv ids codec u taskId out bus) (hok : Readable codec taskId bus a)
    (hstep : bus.step ids codec a = some (bus', o)) :
    BusInv ids codec u taskId (out ++ yieldOf u o) bus' := by
  have hinc := h.stream.increasing
  -- the steps that change one subscription and yield nothing
  have hmodify {v : SubscriptionId} {f : RedisSubscription → Option RedisSubscription}
      (hmod : bus.modify v f = some bus')
      (htask : ∀ sub sub', f sub = some sub' → sub'.taskId = sub.taskId)
      (hf : ∀ sub sub', f sub = some sub' →
        SubscriptionInv ids codec (bus.streams taskId) sub out →
          SubscriptionInv ids codec (bus.streams taskId) sub' out) :
      BusInv ids codec u taskId (out ++ []) bus' := by
    rw [List.append_nil]
    exact h.modify hmod htask hf
  cases redisBusTurn_of_step hstep with
  | publish t id event hid =>
    rw [yieldOf, List.append_nil]
    by_cases ht : t = taskId
    · subst ht
      exact {
        stream := by
          simpa only [Function.update_self] using h.stream.publish hid.1 (hok rfl)
        absent := h.absent
        present := fun sub hsub htask => by
          simpa only [Function.update_self] using (h.present sub hsub htask).publish hid.1 }
    · exact h.frame (Function.update_of_ne (Ne.symm ht) _ _) rfl
  | announce t _ =>
    rw [yieldOf, List.append_nil]
    refine ⟨h.stream, fun hnone => h.absent (Option.map_eq_none_iff.mp hnone), ?_⟩
    intro sub hsub htask
    obtain ⟨sub₁, hsub₁, hsub⟩ := Option.map_eq_some_iff.mp hsub
    split at hsub
    · subst hsub
      exact (h.present sub₁ hsub₁ htask).of_inbox _
    · subst hsub
      exact h.present sub₁ hsub₁ htask
  | subscribe hnone =>
    rw [yieldOf, List.append_nil]
    refine h.set (fun _ => rfl) fun hvu _ => ?_
    rw [h.absent (hvu ▸ hnone)]
    exact .of_early rfl (fun after hafter => by simp at hafter)
      (show 0 < safetyPollInterval by decide) fun text htext => by simp at htext
  | next hsub hnext =>
    rename_i v sub sub' o'
    refine h.set (fun hvu => ?_) fun hvu htask => ?_
    · cases o' with
      | none => exact List.append_nil _
      | some d => simp [yieldOf, hvu]
    · subst hvu
      have htask' : sub.taskId = taskId := by rw [← next_taskId hnext, htask]
      have h' := (h.present sub hsub htask').next h.stream (htask' ▸ hnext)
      cases o' with
      | none => exact h'
      | some d => simpa [yieldOf] using h'
  | skip hmod => exact hmodify hmod (fun _ _ => skip_taskId) fun _ _ hf h' => h'.skip hf
  | disconnect hmod =>
    exact hmodify hmod (fun _ _ => disconnect_taskId) fun _ _ hf h' => h'.disconnect hinc hf
  | leave hmod => exact hmodify hmod (fun _ _ => leave_taskId) fun _ _ hf h' => h'.leave hf
  | lose hmod =>
    refine hmodify hmod (fun sub sub' hf => ?_) fun sub sub' hf h' => ?_
    · rw [← Option.some.inj hf]
    · rw [← Option.some.inj hf]
      exact h'.of_inbox _
  | stray hmod =>
    refine hmodify hmod (fun sub sub' hf => ?_) fun sub sub' hf h' => ?_
    · rw [← Option.some.inj hf]
      rfl
    · rw [← Option.some.inj hf]
      exact h'.of_inbox _
  | trim t n =>
    rw [yieldOf, List.append_nil]
    exact h.frame (Function.update_of_ne (Ne.symm hok) _ _) rfl

theorem yieldedBy_append (tr tr' : RedisTrace ε) :
    yieldedBy u (tr ++ tr') = yieldedBy u tr ++ yieldedBy u tr' :=
  List.flatMap_append

/-- Every run keeps the invariant. -/
theorem busInv_of_run {tr : RedisTrace ε}
    (hrun : Run (RedisEventBus.step ids codec) (Readable codec taskId) {} tr bus) :
    BusInv ids codec u taskId (yieldedBy u tr) bus := by
  refine hrun.forward (P := fun tr bus => BusInv ids codec u taskId (yieldedBy u tr) bus) ?_ ?_
  · intro tr bus a bus' o h hok hstep
    have h' := h.step hok hstep
    rwa [yieldedBy_append, yieldedBy, yieldedBy, List.flatMap_singleton]
  · exact {
      stream := ⟨List.Pairwise.nil, fun entry hentry => absurd hentry List.not_mem_nil⟩
      absent := fun _ => rfl
      present := fun sub hsub => absurd hsub (by simp) }

end RedisEventBus

/-! ### Progress -/

section Progress

variable {ids codec}
variable {L log : List RedisEntry} {sub sub' : RedisSubscription} {out : List (String × ε)}

/-- At most so many steps pass before the next entry, if there is one. -/
def RedisSubscription.rank (sub : RedisSubscription) : Nat :=
  match sub.point with
  | .subscribe => 6
  | .bookmark => 5
  | .start => 4
  | .replay _ => 3
  | .replaying [] => 2
  | .gapFill | .read => 1
  | .gapFilling [] | .reading [] => safetyPollInterval + 2
  | .wait => safetyPollInterval + 1 - sub.pollTicks
  | _ => 0

variable (ids) in
/-- How many of the entries `L` the subscription may still have to yield. -/
def RedisSubscription.due (L : List RedisEntry) (sub : RedisSubscription) : Nat :=
  if sub.point.early then L.length
  else (newer ((ids.read sub.lastSeenId).getD StreamId.zero) L).length

variable (ids) in
/-- A bound on the steps that pass until all entries of `L` have been yielded. -/
def RedisSubscription.work (L : List RedisEntry) (sub : RedisSubscription) : Nat :=
  (safetyPollInterval + 3) * sub.due ids L + sub.rank

theorem rank_le (sub : RedisSubscription) : sub.rank ≤ safetyPollInterval + 2 := by
  rw [RedisSubscription.rank]
  split <;> simp only [safetyPollInterval] <;> omega

theorem due_le (L : List RedisEntry) (sub : RedisSubscription) : sub.due ids L ≤ L.length := by
  rw [RedisSubscription.due]
  split
  · exact le_refl _
  · exact List.length_filter_le _ _

theorem due_of_batch {rest : List RedisEntry} {p : StreamId}
    (hbatch : sub.point.batch = some rest) (hread : ids.read sub.lastSeenId = some p) :
    sub.due ids L = (newer p L).length := by
  have hlate : sub.point.early = false := by
    cases hpt : sub.point <;> simp [hpt, IterPoint.batch, IterPoint.early] at hbatch ⊢
  rw [RedisSubscription.due, hlate, hread]
  rfl

/-- A silent step along the loop: the position stays, the rank falls. -/
theorem work_of_rank (hdue : sub'.due ids L ≤ sub.due ids L) (hrank : sub'.rank < sub.rank) :
    sub'.work ids L < sub.work ids L := by
  have hmul := Nat.mul_le_mul_left (safetyPollInterval + 3) hdue
  rw [RedisSubscription.work, RedisSubscription.work]
  omega

/-- A yield: one entry less is due, whatever the rank is then. -/
theorem work_of_due (hdue : sub'.due ids L < sub.due ids L) :
    sub'.work ids L < sub.work ids L := by
  have hmul := Nat.mul_le_mul_left (safetyPollInterval + 3) (Nat.succ_le_of_lt hdue)
  have hrank := rank_le sub'
  rw [Nat.mul_succ] at hmul
  rw [RedisSubscription.work, RedisSubscription.work]
  omega

theorem due_of_late (hlate : sub.point.early = false) :
    sub.due ids L = (newer ((ids.read sub.lastSeenId).getD StreamId.zero) L).length := by
  rw [RedisSubscription.due, hlate]
  rfl

theorem due_of_early (hearly : sub.point.early = true) : sub.due ids L = L.length := by
  rw [RedisSubscription.due, hearly]
  rfl

/-- A step before the position is read. -/
theorem work_of_early (hearly : sub.point.early = true) (hrank : sub'.rank < sub.rank) :
    sub'.due ids L ≤ sub.due ids L ∧ (sub.due ids L = 0 ∨ sub'.work ids L < sub.work ids L) := by
  have hdue : sub'.due ids L ≤ sub.due ids L := by
    rw [due_of_early hearly]
    exact due_le L sub'
  exact ⟨hdue, Or.inr (work_of_rank hdue hrank)⟩

/-- A step that leaves the position as it is; it may count on entries that are due. -/
theorem work_of_late (hlate : sub.point.early = false) (hlate' : sub'.point.early = false)
    (hseen : sub'.lastSeenId = sub.lastSeenId)
    (hrank : sub.due ids L ≠ 0 → sub'.rank < sub.rank) :
    sub'.due ids L ≤ sub.due ids L ∧ (sub.due ids L = 0 ∨ sub'.work ids L < sub.work ids L) := by
  have hdue : sub'.due ids L = sub.due ids L := by
    rw [due_of_late hlate, due_of_late hlate', hseen]
  refine ⟨le_of_eq hdue, ?_⟩
  by_cases h : sub.due ids L = 0
  · exact Or.inl h
  · exact Or.inr (work_of_rank (le_of_eq hdue) (hrank h))

/-- What is due is at the front of what a loop holds, and of what it will read. -/
theorem newer_of_prefix {p : StreamId} {entry : RedisEntry} {rest : List RedisEntry}
    (hL : L <+: log) (hhold : entry :: rest <+: newer p log) (hne : newer p L ≠ []) :
    ∃ tail, newer p L = entry :: tail := by
  obtain ⟨l, rfl⟩ := hL
  obtain ⟨e, tail, htail⟩ := List.exists_cons_of_ne_nil hne
  obtain ⟨r, hr⟩ := hhold
  rw [newer_append, htail, List.cons_append, List.cons_append] at hr
  exact ⟨tail, (List.cons.inj hr).1 ▸ htail⟩

/-- The turn of a loop that yields an entry. -/
theorem SubscriptionInv.turn_work {entry : RedisEntry} {rest : List RedisEntry} {loop : IterPoint}
    {skipped : RedisSubscription} {o : Option (String × ε)}
    (h : SubscriptionInv ids codec log sub out) (hlog : StreamInv codec log) (hL : L <+: log)
    (hbatch : sub.point.batch = some (entry :: rest)) (hloop : loop.batch = some rest)
    (hturn : (match codec.deserialize entry.data with
      | none => some (skipped, none)
      | some event => some (sub.yield ids codec entry event loop)) = some (sub', o)) :
    sub'.due ids L ≤ sub.due ids L ∧ (sub.due ids L = 0 ∨ sub'.work ids L < sub.work ids L) := by
  obtain ⟨event, hevent⟩ := h.readable hlog hbatch
  obtain ⟨p, hb⟩ := h.behind _ hbatch
  rw [hevent] at hturn
  have hsub' : (sub.yield ids codec entry event loop).1 = sub' := by rw [Option.some.inj hturn]
  have hlate : (sub.yield ids codec entry event loop).1.point.early = false := by
    show (if _ then _ else _ : IterPoint).early = false
    split
    · rfl
    · cases loop <;> simp [IterPoint.batch, IterPoint.early] at hloop ⊢
  have hdue' : (sub.yield ids codec entry event loop).1.due ids L = (newer entry.id L).length := by
    rw [due_of_late hlate]
    show (newer ((ids.read (ids.print entry.id)).getD StreamId.zero) L).length = _
    rw [ids.read_print]
    rfl
  have hdue := due_of_batch (L := L) hbatch hb.read
  have hmem := mem_newer.mp (hb.follows.subset List.mem_cons_self)
  rw [← hsub']
  refine ⟨?_, ?_⟩
  · rw [hdue, hdue']
    exact length_newer_mono (le_of_lt hmem.2) L
  · by_cases hne : newer p L = []
    · exact Or.inl (by rw [hdue, hne]; rfl)
    · -- the entry is the first one that is due
      obtain ⟨tail, htail⟩ := newer_of_prefix hL hb.follows hne
      have hinc : Increasing L := hlog.increasing.sublist hL.sublist
      refine Or.inr (work_of_due ?_)
      rw [hdue, hdue', newer_of_cons hinc htail, htail, List.length_cons]
      exact Nat.lt_succ_self _

/-- Reading the stream finds something if something is due. -/
theorem SubscriptionInv.fetch_rank {entries : List RedisEntry} {point : List RedisEntry → IterPoint}
    (h : SubscriptionInv ids codec log sub out) (hL : L <+: log)
    (hbatch : sub.point.batch = some []) (hentries : ids.xrange log sub.lastSeenId = some entries)
    (hpoint : ∀ e rest, { sub with point := point (e :: rest) }.rank = 0)
    (hdue : sub.due ids L ≠ 0) : { sub with point := point entries }.rank = 0 := by
  obtain ⟨p, hb⟩ := h.behind _ hbatch
  rw [IdText.xrange, hb.read, Option.map_some, Option.some_inj] at hentries
  rw [due_of_batch hbatch hb.read] at hdue
  obtain ⟨l, rfl⟩ := hL
  obtain ⟨e, tail, htail⟩ := List.exists_cons_of_ne_nil (List.ne_nil_of_length_pos
    (Nat.pos_of_ne_zero hdue))
  rw [← hentries, newer_append, htail, List.cons_append]
  exact hpoint e _

theorem timeout_rank (hpt : sub.point = .wait) (hticks : sub.pollTicks < safetyPollInterval) :
    sub.timeout.rank < sub.rank := by
  have hrank : sub.rank = safetyPollInterval + 1 - sub.pollTicks := by
    rw [RedisSubscription.rank, hpt]
  rw [hrank, RedisSubscription.timeout]
  split
  · have hrank' : { sub with pollTicks := sub.pollTicks + 1 }.rank =
        safetyPollInterval + 1 - (sub.pollTicks + 1) := by
      rw [RedisSubscription.rank, hpt]
    omega
  · show 1 < safetyPollInterval + 1 - sub.pollTicks
    omega

/-- A turn of the live loop without a wakeup. -/
theorem timeout_work (hpt : sub.point = .wait) (hticks : sub.pollTicks < safetyPollInterval) :
    sub.timeout.due ids L ≤ sub.due ids L ∧
      (sub.due ids L = 0 ∨ sub.timeout.work ids L < sub.work ids L) := by
  refine work_of_late (by rw [hpt]; rfl) ?_ (timeout_frame sub).1 fun _ => timeout_rank hpt hticks
  rcases timeout_point sub hpt with h | h <;> rw [h] <;> rfl

/-- A step of a subscription does a part of its work. -/
theorem SubscriptionInv.next_work {o : Option (String × ε)}
    (h : SubscriptionInv ids codec log sub out) (hlog : StreamInv codec log) (hL : L <+: log)
    (hnext : sub.next ids codec log = some (sub', o)) :
    sub'.due ids L ≤ sub.due ids L ∧ (sub.due ids L = 0 ∨ sub'.work ids L < sub.work ids L) := by
  have hinc := hlog.increasing
  have hbatch {point : IterPoint} (hpt : sub.point = point) : sub.point.batch = point.batch := by
    rw [hpt]
  have hphase {point : IterPoint} (hpt : sub.point = point) : sub.point.early = point.early := by
    rw [hpt]
  have hrank {point : IterPoint} (hpt : sub.point = point) :
      sub.rank = { sub with point }.rank := by rw [← hpt]
  -- most points yield nothing, so the step only names the new subscription
  have hsilent {sub₁ : RedisSubscription} (heq : some (sub₁, none) = some (sub', o)) :
      sub₁ = sub' := (Prod.mk.inj (Option.some.inj heq)).1
  have hticks := h.ticks
  cases hpt : sub.point with
  -- before the live loop the whole log may still be due, and the rank of the point falls
  | subscribe =>
    simp only [RedisSubscription.next, hpt] at hnext
    rw [← hsilent hnext]
    refine work_of_early (hphase hpt) ?_
    rw [hrank hpt]
    by_cases hafter : sub.afterEventId.isNone <;> simp [RedisSubscription.rank, hafter]
  | bookmark =>
    simp only [RedisSubscription.next, hpt] at hnext
    rw [← hsilent hnext]
    refine work_of_early (hphase hpt) ?_
    rw [hrank hpt]
    exact Nat.lt_succ_self 4
  | start =>
    simp only [RedisSubscription.next, hpt] at hnext
    split at hnext
    · rw [← hsilent hnext]
      refine work_of_early (hphase hpt) ?_
      rw [hrank hpt]
      simp [RedisSubscription.rank]
    · rw [← hsilent hnext]
      refine work_of_early (hphase hpt) ?_
      rw [hrank hpt]
      exact Nat.lt_succ_self 3
  | replay after =>
    simp only [RedisSubscription.next, hpt] at hnext
    split at hnext
    · rename_i entries _
      rw [← hsilent hnext]
      refine work_of_early (hphase hpt) ?_
      rw [hrank hpt]
      cases entries <;> simp [RedisSubscription.rank]
    · rw [← hsilent hnext]
      refine work_of_early (hphase hpt) ?_
      rw [hrank hpt]
      exact Nat.lt_succ_self 2
  | replaying rest =>
    cases rest with
    | nil =>
      simp only [RedisSubscription.next, hpt] at hnext
      rw [← hsilent hnext]
      refine work_of_late (hphase hpt) rfl rfl fun _ => ?_
      rw [hrank hpt]
      exact Nat.lt_succ_self 1
    | cons entry rest =>
      simp only [RedisSubscription.next, hpt] at hnext
      exact h.turn_work hlog hL (hbatch hpt) rfl hnext
  -- a read of the stream leaves the point at the entries that it found, of rank 0 while some are
  -- due
  | gapFill =>
    obtain ⟨entries, hentries, -⟩ := h.fetch hinc (hbatch hpt) .gapFilling fun _ => rfl
    simp only [RedisSubscription.next, hpt, hentries] at hnext
    rw [← hsilent hnext]
    refine work_of_late (hphase hpt) rfl rfl fun hdue => ?_
    rw [hrank hpt, h.fetch_rank hL (hbatch hpt) hentries (fun _ _ => rfl) hdue]
    exact Nat.one_pos
  | gapFilling rest =>
    cases rest with
    | nil =>
      simp only [RedisSubscription.next, hpt] at hnext
      rw [← hsilent hnext]
      refine work_of_late (hphase hpt) rfl rfl fun _ => ?_
      rw [hrank hpt]
      exact Nat.lt_succ_self _
    | cons entry rest =>
      simp only [RedisSubscription.next, hpt] at hnext
      exact h.turn_work hlog hL (hbatch hpt) rfl hnext
  -- the loop blocks without a timeout, is woken by a message, or counts a poll
  | wait =>
    simp only [RedisSubscription.next, hpt] at hnext
    split at hnext
    · exact absurd hnext (by simp)
    · rw [← hsilent hnext]
      refine work_of_late (hphase hpt) rfl rfl fun _ => ?_
      rw [hrank hpt]
      show 1 < safetyPollInterval + 1 - sub.pollTicks
      omega
    · rename_i inbox _
      rw [← hsilent hnext, ← hpt]
      exact timeout_work hpt hticks
    · rw [← hsilent hnext]
      exact timeout_work hpt hticks
  | read =>
    obtain ⟨entries, hentries, -⟩ := h.fetch hinc (hbatch hpt) .reading fun _ => rfl
    simp only [RedisSubscription.next, hpt, hentries] at hnext
    rw [← hsilent hnext]
    refine work_of_late (hphase hpt) rfl rfl fun hdue => ?_
    rw [hrank hpt, h.fetch_rank hL (hbatch hpt) hentries (fun _ _ => rfl) hdue]
    exact Nat.one_pos
  | reading rest =>
    cases rest with
    | nil =>
      simp only [RedisSubscription.next, hpt] at hnext
      rw [← hsilent hnext]
      refine work_of_late (hphase hpt) rfl rfl fun _ => ?_
      rw [hrank hpt]
      show safetyPollInterval + 1 - sub.pollTicks < safetyPollInterval + 2
      omega
    | cons entry rest =>
      simp only [RedisSubscription.next, hpt] at hnext
      exact h.turn_work hlog hL (hbatch hpt) rfl hnext
  | returned => simp [RedisSubscription.next, hpt] at hnext
  | raised => simp [RedisSubscription.next, hpt] at hnext
  | left => simp [RedisSubscription.next, hpt] at hnext

theorem work_of_leave (hleave : sub.leave = some sub') :
    sub'.due ids L ≤ sub.due ids L ∧ sub'.work ids L ≤ sub.work ids L := by
  have hsub' : sub' = { sub with point := .left } := by
    rw [RedisSubscription.leave] at hleave
    split at hleave
    case h_4 => exact (Option.some.inj hleave).symm
    all_goals exact absurd hleave (by simp)
  have hdue : sub'.due ids L ≤ sub.due ids L := by
    cases hpt : sub.point.early with
    | true =>
      rw [due_of_early hpt]
      exact due_le L sub'
    | false => rw [hsub', due_of_late hpt, due_of_late rfl]
  have hmul := Nat.mul_le_mul_left (safetyPollInterval + 3) hdue
  have hrank : sub'.rank = 0 := by rw [hsub']; rfl
  refine ⟨hdue, ?_⟩
  rw [RedisSubscription.work, RedisSubscription.work, hrank]
  omega

end Progress

namespace RedisEventBus

variable {ids codec}
variable {u : SubscriptionId} {taskId : TaskId} {bus bus' : RedisEventBus}
  {out : List (String × ε)} {sub : RedisSubscription} {L : List RedisEntry}

variable (ids) in
/-- What a step leaves of the work of `u`, of which it does the part `n`. -/
def Worked (u : SubscriptionId) (L : List RedisEntry) (sub : RedisSubscription) (n : Nat)
    (bus : RedisEventBus) : Prop :=
  ∃ sub', bus.subscribers u = some sub' ∧ sub'.taskId = sub.taskId ∧
    sub'.due ids L ≤ sub.due ids L ∧ (sub.due ids L = 0 ∨ sub'.work ids L + n ≤ sub.work ids L)

theorem worked_same (hsub : bus.subscribers u = some sub) : Worked ids u L sub 0 bus :=
  ⟨sub, hsub, rfl, le_refl _, Or.inr (le_refl _)⟩

theorem worked_set {v : SubscriptionId} {sub' : RedisSubscription}
    (hsub : bus.subscribers u = some sub)
    (hv : v = u → sub'.taskId = sub.taskId ∧ sub'.due ids L ≤ sub.due ids L ∧
      sub'.work ids L ≤ sub.work ids L) : Worked ids u L sub 0 (bus.setSubscriber v sub') := by
  by_cases hvu : v = u
  · obtain ⟨htask, hdue, hwork⟩ := hv hvu
    refine ⟨sub', ?_, htask, hdue, Or.inr hwork⟩
    rw [setSubscriber_subscribers, if_pos hvu.symm]
  · refine ⟨sub, ?_, rfl, le_refl _, Or.inr (le_refl _)⟩
    rw [setSubscriber_subscribers, if_neg (Ne.symm hvu), hsub]

theorem worked_modify {v : SubscriptionId} {f : RedisSubscription → Option RedisSubscription}
    (hsub : bus.subscribers u = some sub) (hmod : bus.modify v f = some bus')
    (hf : ∀ sub', v = u → f sub = some sub' → sub'.taskId = sub.taskId ∧
      sub'.due ids L ≤ sub.due ids L ∧ sub'.work ids L ≤ sub.work ids L) :
    bus'.streams = bus.streams ∧ Worked ids u L sub 0 bus' := by
  obtain ⟨sub₁, sub', hsub₁, hsub', rfl⟩ := modify_eq_some hmod
  refine ⟨rfl, worked_set hsub fun hvu => hf sub' hvu ?_⟩
  rw [hvu, hsub, Option.some_inj] at hsub₁
  rw [hsub₁, hsub']

/-- A step of the bus adds to the stream and does its part of the work of `u`. -/
theorem BusInv.step_work {a : RedisBusAction ε} {o : Option (SubscriptionId × String × ε)}
    (h : BusInv ids codec u taskId out bus) (hok : Readable codec taskId bus a)
    (hconn : Connected u a) (hL : L <+: bus.streams taskId) (hsub : bus.subscribers u = some sub)
    (htask : sub.taskId = taskId) (hstep : bus.step ids codec a = some (bus', o)) :
    L <+: bus'.streams taskId ∧
      Worked ids u L sub (if isStepOf u a then 1 else 0) bus' := by
  cases redisBusTurn_of_step hstep with
  -- an event of another task does not touch the stream of this one
  | publish t id event _ =>
    refine ⟨?_, worked_same hsub⟩
    by_cases ht : t = taskId
    · subst ht
      simp only [Function.update_self]
      exact hL.trans (List.prefix_append _ _)
    · simpa only [Function.update_of_ne (Ne.symm ht)] using hL
  | announce t _ =>
    refine ⟨hL, ?_⟩
    by_cases hlisten : sub.listens t
    · exact ⟨sub.deliver .message, by simp [hsub, hlisten], rfl, le_refl _, Or.inr (le_refl _)⟩
    · exact ⟨sub, by simp [hsub, hlisten], rfl, le_refl _, Or.inr (le_refl _)⟩
  | subscribe hnone =>
    refine ⟨hL, worked_set hsub fun hvu => ?_⟩
    rw [hvu, hsub] at hnone
    cases hnone
  | next hsub₁ hnext =>
    rename_i v sub₁ sub' o'
    refine ⟨hL, ?_⟩
    by_cases hvu : v = u
    · subst hvu
      obtain rfl := Option.some.inj (hsub.symm.trans hsub₁)
      subst htask
      obtain ⟨hdue, hwork⟩ := (h.present sub hsub rfl).next_work h.stream hL hnext
      refine ⟨sub', ?_, next_taskId hnext, hdue, hwork.imp_right fun hlt => ?_⟩
      · rw [setSubscriber_subscribers, if_pos rfl]
      · rw [if_pos (by simp [isStepOf])]
        exact hlt
    · -- a step of another subscription is no part of this work
      have hn : (if isStepOf u (RedisBusAction.next v : RedisBusAction ε) then 1 else 0) = 0 := by
        simp [isStepOf, hvu]
      rw [hn]
      exact worked_set hsub fun h => absurd h hvu
  | skip hmod =>
    obtain ⟨hstreams, hworked⟩ := worked_modify (L := L) hsub hmod fun sub' _ hf => by
      rw [RedisSubscription.skip] at hf
      split at hf
      · rw [← Option.some.inj hf]
        exact ⟨rfl, le_refl _, le_refl _⟩
      · exact absurd hf (by simp)
    exact ⟨hstreams ▸ hL, hworked⟩
  -- the subscriber of `u` keeps its connection by `hconn`
  | disconnect hmod =>
    obtain ⟨hstreams, hworked⟩ := worked_modify (L := L) hsub hmod fun sub' hvu _ =>
      absurd hvu hconn
    exact ⟨hstreams ▸ hL, hworked⟩
  | leave hmod =>
    obtain ⟨hstreams, hworked⟩ := worked_modify (L := L) hsub hmod fun sub' _ hf =>
      ⟨leave_taskId hf, work_of_leave hf⟩
    exact ⟨hstreams ▸ hL, hworked⟩
  | lose hmod | stray hmod =>
    obtain ⟨hstreams, hworked⟩ := worked_modify (L := L) hsub hmod fun sub' _ hf => by
      rw [← Option.some.inj hf]
      exact ⟨rfl, le_refl _, le_refl _⟩
    exact ⟨hstreams ▸ hL, hworked⟩
  | trim t n =>
    refine ⟨?_, worked_same hsub⟩
    simpa only [Function.update_of_ne (Ne.symm hok)] using hL

theorem stepsOf_concat (tr : RedisTrace ε) (a : RedisBusAction ε)
    (o : Option (SubscriptionId × String × ε)) :
    stepsOf u (tr ++ [(a, o)]) = stepsOf u tr + if isStepOf u a then 1 else 0 := by
  rw [stepsOf, stepsOf, List.countP_append, List.countP_singleton]

/-- A run of the bus does the work of `u`, step by step. -/
theorem worked_of_run {tr tr' : RedisTrace ε}
    (hrun : Run (RedisEventBus.step ids codec) (Readable codec taskId) {} tr bus)
    (hsub : bus.subscribers u = some sub) (htask : sub.taskId = taskId)
    (hrun' : Run (RedisEventBus.step ids codec)
      (fun bus a => Readable codec taskId bus a ∧ Connected u a) bus tr' bus') :
    bus.streams taskId <+: bus'.streams taskId ∧
      ∃ sub', bus'.subscribers u = some sub' ∧ sub'.taskId = taskId ∧
        (sub'.due ids (bus.streams taskId) = 0 ∨
          sub'.work ids (bus.streams taskId) + stepsOf u tr' ≤ sub.work ids (bus.streams taskId)) := by
  have hall := hrun'.forward (P := fun tr' bus₁ =>
    BusInv ids codec u taskId (yieldedBy u (tr ++ tr')) bus₁ ∧
      bus.streams taskId <+: bus₁.streams taskId ∧
      ∃ sub', bus₁.subscribers u = some sub' ∧ sub'.taskId = taskId ∧
        (sub'.due ids (bus.streams taskId) = 0 ∨
          sub'.work ids (bus.streams taskId) + stepsOf u tr' ≤ sub.work ids (bus.streams taskId)))
    ?_ ?_
  · exact hall.2
  · rintro tr₁ bus₁ a bus₂ o ⟨hinv, hL, sub₁, hsub₁, htask₁, hwork₁⟩ ⟨hok, hconn⟩ hstep
    obtain ⟨hL₂, sub₂, hsub₂, htask₂, hdue₂, hwork₂⟩ :=
      hinv.step_work hok hconn hL hsub₁ htask₁ hstep
    refine ⟨?_, hL₂, sub₂, hsub₂, htask₂.trans htask₁, ?_⟩
    · have hinv₂ := hinv.step hok hstep
      rwa [← List.append_assoc, yieldedBy_append, yieldedBy, yieldedBy, List.flatMap_singleton]
    · rw [stepsOf_concat]
      rcases hwork₁ with h₁ | h₁
      · exact Or.inl (by omega)
      · rcases hwork₂ with h₂ | h₂
        · exact Or.inl (by omega)
        · exact Or.inr (by omega)
  · rw [List.append_nil]
    exact ⟨busInv_of_run hrun, List.prefix_rfl, sub, hsub, htask, Or.inr (le_refl _)⟩

/-- The events behind the start position of a subscription, cut right after the first
terminal marker. -/
def expected (ids : IdText) (codec : EventCodec ε) (sub : RedisSubscription)
    (log : List RedisEntry) : List (String × ε) :=
  untilFirst (fun d => codec.isFinal d.2) (deliveries ids codec (newer (sub.startPosition ids) log))

/-- `u` is done with `L` when nothing of it is due. -/
theorem expected_of_due {log : List RedisEntry} (h : SubscriptionInv ids codec log sub out)
    (hlog : StreamInv codec log) (hL : L <+: log) (hdue : sub.due ids L = 0)
    (hstopped : sub.point ≠ .raised ∧ sub.point ≠ .left) : expected ids codec sub L <+: out := by
  have hnewer : newer (sub.startPosition ids) L <+: newer (sub.startPosition ids) log := by
    obtain ⟨l, rfl⟩ := hL
    exact newer_mono _ L l
  have hmono := untilFirst_mono (fun d => codec.isFinal d.2)
    (@deliveries_mono ε ids codec _ _ hnewer)
  cases hbatch : sub.point.batch with
  | some rest =>
    obtain ⟨p, hb⟩ := h.behind rest hbatch
    have hinc : Increasing L := hlog.increasing.sublist hL.sublist
    rw [due_of_batch hbatch hb.read, List.length_eq_zero_iff] at hdue
    -- nothing of `L` lies behind the position, and what lies before it was yielded
    have hall := between_append_newer hinc hb.start_le
    rw [hdue, List.append_nil] at hall
    obtain ⟨l, rfl⟩ := hL
    have hpre : deliveries ids codec (newer (sub.startPosition ids) L) <+: out := by
      rw [hb.yielded, ← hall, between, between, List.filter_append, deliveries_append]
      exact List.prefix_append _ _
    have hrunning := h.running (by intro hret; simp [hret, IterPoint.batch] at hbatch)
    rw [expected, untilFirst_of_forall]
    · exact hpre
    · exact fun d hd => hrunning d (hpre.subset hd)
  | none =>
    cases hearly : sub.point.early with
    | true =>
      rw [due_of_early hearly, List.length_eq_zero_iff] at hdue
      rw [hdue]
      exact List.nil_prefix
    | false =>
      have hret : sub.point = .returned := by
        cases hpt : sub.point <;> simp [hpt, IterPoint.batch, IterPoint.early] at hbatch hearly hstopped ⊢
      obtain ⟨init, d, hout, hinit, hfin⟩ := h.returned hret
      have hreach := h.reached
      rw [hout] at hreach
      rw [hout, ← untilFirst_eq_concat (fun d => codec.isFinal d.2) hreach hinit hfin]
      exact hmono

/-- Exactly-once delivery.  Let the stream of a task be neither trimmed nor expired and
its entries readable.  At every moment a subscription has yielded a prefix of the
entries behind its start position in stream order, cut right after the first terminal
marker, and all of that when it has returned.  While its Redis calls succeed, it has
yielded everything that was in the stream at some moment once it has taken enough
further steps, whatever happens to the wakeups. -/
theorem streamed_exactly_once {tr tr' : RedisTrace ε} {sub' : RedisSubscription}
    (hrun : Run (RedisEventBus.step ids codec) (Readable codec taskId) {} tr bus)
    (hsub : bus.subscribers u = some sub) (htask : sub.taskId = taskId)
    (hrun' : Run (RedisEventBus.step ids codec)
      (fun bus a => Readable codec taskId bus a ∧ Connected u a) bus tr' bus')
    (hsub' : bus'.subscribers u = some sub') :
    yieldedBy u (tr ++ tr') <+: expected ids codec sub' (bus'.streams taskId) ∧
      (sub'.point = .returned →
        yieldedBy u (tr ++ tr') = expected ids codec sub' (bus'.streams taskId)) ∧
      (sub'.point ≠ .raised ∧ sub'.point ≠ .left →
        (safetyPollInterval + 3) * ((bus.streams taskId).length + 1) ≤ stepsOf u tr' →
          expected ids codec sub' (bus.streams taskId) <+: yieldedBy u (tr ++ tr')) := by
  obtain ⟨hL, sub₁, hsub₁, htask', hwork⟩ := worked_of_run hrun hsub htask hrun'
  obtain rfl := Option.some.inj (hsub₁.symm.trans hsub')
  have hinv := busInv_of_run (u := u) (hrun.append (hrun'.mono fun _ _ h => h.1))
  have h := hinv.present sub₁ hsub' htask'
  have hret (hpt : sub₁.point = .returned) :
      yieldedBy u (tr ++ tr') = expected ids codec sub₁ (bus'.streams taskId) := by
    obtain ⟨init, d, hout, hinit, hfin⟩ := h.returned hpt
    have hreach := h.reached
    rw [hout] at hreach
    rw [hout, expected, untilFirst_eq_concat (fun d => codec.isFinal d.2) hreach hinit hfin]
  refine ⟨?_, hret, fun hstopped hsteps => ?_⟩
  · by_cases hpt : sub₁.point = .returned
    · rw [hret hpt]
    · exact prefix_untilFirst _ h.reached (h.running hpt)
  · have hdue : sub₁.due ids (bus.streams taskId) = 0 := by
      rcases hwork with hdue | hwork
      · exact hdue
      · have hle := Nat.mul_le_mul_left (safetyPollInterval + 3) (@due_le ids (bus.streams taskId) sub)
        have hrank := rank_le sub
        rw [Nat.mul_succ] at hsteps
        simp only [RedisSubscription.work] at hwork
        omega
    exact expected_of_due h hinv.stream hL hdue hstopped

end RedisEventBus

/-! ### Ids in decimal notation -/

def readDigits (cs : List Char) : Option Nat :=
  if cs ≠ [] ∧ cs.all Char.isDigit then some (Nat.ofDigitChars 10 cs 0) else none

/-- `ms-seq`, or `ms` alone for `ms-0`. -/
def readStreamId (text : String) : Option StreamId :=
  match readDigits (text.toList.takeWhile (· ≠ '-')), text.toList.dropWhile (· ≠ '-') with
  | some ms, [] => some (toLex (ms, 0))
  | some ms, _ :: cs => (readDigits cs).map fun seq => toLex (ms, seq)
  | none, _ => none

def printStreamId (id : StreamId) : String := (ofLex id).1.repr ++ "-" ++ (ofLex id).2.repr

theorem readDigits_toDigits (n : Nat) : readDigits (Nat.toDigits 10 n) = some n := by
  have hdigits : (Nat.toDigits 10 n).all Char.isDigit = true := by
    rw [List.all_eq_true]
    exact fun c hc => Nat.isDigit_of_mem_toDigits (by decide) (by decide) hc
  rw [readDigits, if_pos ⟨Nat.toDigits_ne_nil, hdigits⟩, Nat.ofDigitChars_ten_toDigits]

theorem dash_notMem_toDigits (n : Nat) : ∀ c ∈ Nat.toDigits 10 n, decide (c ≠ '-') = true := by
  intro c hc
  have hdigit := Nat.isDigit_of_mem_toDigits (by decide) (by decide) hc
  refine decide_eq_true fun heq => ?_
  rw [heq] at hdigit
  exact absurd hdigit (by decide)

theorem readStreamId_print (id : StreamId) : readStreamId (printStreamId id) = some id := by
  have hlist : (printStreamId id).toList =
      Nat.toDigits 10 (ofLex id).1 ++ '-' :: Nat.toDigits 10 (ofLex id).2 := by
    simp [printStreamId, Nat.toList_repr]
  have hdash := dash_notMem_toDigits (ofLex id).1
  rw [readStreamId, hlist, List.takeWhile_append_of_pos hdash,
    List.dropWhile_append_of_pos hdash, List.takeWhile_cons_of_neg (by decide),
    List.dropWhile_cons_of_neg (by decide), List.append_nil, readDigits_toDigits]
  simp only [readDigits_toDigits, Option.map_some]
  rfl

def decimalIds : IdText where
  print := printStreamId
  read := readStreamId
  read_print := readStreamId_print
  read_zero := by decide +kernel

namespace RedisEventBus

/-- Events that are their own text; `"end"` ends the stream. -/
def plainCodec : EventCodec String := ⟨id, some, (· == "end")⟩

/-- A client passes garbage as its last event id, and the second event is published
after the replay and before the gap-fill; no wakeup arrives. -/
def garbageStart : List (RedisBusAction String) :=
  [.publish "t" (toLex (7, 0)) "a", .subscribe 0 "t" (some "garbage"), .next 0, .next 0, .next 0,
    .next 0, .publish "t" (toLex (7, 1)) "end"]

theorem garbageStart_exactly_once : ∃ tr tr' bus bus' sub',
    Run (RedisEventBus.step decimalIds plainCodec) (Readable plainCodec "t") {} tr bus ∧
      Run (RedisEventBus.step decimalIds plainCodec)
        (fun bus a => Readable plainCodec "t" bus a ∧ Connected 0 a) bus tr' bus' ∧
      bus'.subscribers 0 = some sub' ∧
      yieldedBy 0 (tr ++ tr') = [("7-0", "a"), ("7-1", "end")] ∧
      yieldedBy 0 (tr ++ tr') = expected decimalIds plainCodec sub' (bus'.streams "t") := by
  have hrun := run_finalState (RedisEventBus.step decimalIds plainCodec) (Readable plainCodec "t")
    {} garbageStart (by decide +kernel)
  have hrun' := run_finalState (RedisEventBus.step decimalIds plainCodec)
    (fun bus a => Readable plainCodec "t" bus a ∧ Connected 0 a)
    (finalState (RedisEventBus.step decimalIds plainCodec) (Readable plainCodec "t") {} garbageStart)
    [.next 0, .next 0, .next 0] (by decide +kernel)
  exact ⟨_, _, _, _, _, hrun, hrun', rfl, by decide +kernel,
    (streamed_exactly_once hrun rfl rfl hrun' rfl).2.1 (by decide +kernel)⟩

end RedisEventBus

end A2AKit
