/-
Delivery by the in-memory event bus is exactly once.

A subscriber's events come from the replay buffer, from its queue, or from both, and
publishes happen between any two of its steps.  `delivered_exactly_once` says that
what it has yielded is always a prefix of the events published after its start
position, cut after the first stream-terminal one, and all of it as soon as the
subscriber has caught up.  The start position is `after_event_id`, or the bookmark.

The argument is the invariant `BusInv`.  Let `log` be the numbered events of the task.
The publishers that wait for the lock hold its end, because the lock is fair, and
the queue of a subscriber continues right up to them: queue and waiting publishers
together are `log.drop p` for some position `p` (`Queued`).  What has been yielded
reaches up to `p`, or further if the replay was ahead of the queue, and then the
duplicate filter skips the rest (`Position`).

A cleanup takes the subscribers off the list.  A subscriber that has the end of its stream
ahead then goes on with what it holds (`endAhead`), and once it no longer needs the buffer, the
replay state of the task may be purged as well (`Detached`).
-/
import A2AKit.EventBus

namespace A2AKit

/-- The position after which a subscriber is to yield: `after_event_id`, or the
bookmark. -/
def Subscriber.base {ε : Type} (sub : Subscriber ε) : Nat :=
  sub.afterEventId.getD sub.snapshotId

/-- What the subscriber was given and has not consumed. -/
def Subscriber.items {ε : Type} (sub : Subscriber ε) : List (LogEntry ε) :=
  sub.handed.toList ++ sub.queue

/-- What the iteration may still go through if nothing more is sent, over the replay buffer. -/
def Subscriber.ahead {ε : Type} (buf : List (LogEntry ε)) (sub : Subscriber ε) :
    List (LogEntry ε) :=
  sub.items ++
    match sub.phase with
    | .start => if sub.afterEventId.isSome then buf else []
    | .replaying rest => rest
    | _ => []

/-- The iteration is over, or comes to a stream-terminal event by itself. -/
def Subscriber.endAhead {ε : Type} (isTerminal : ε → Bool) (buf : List (LogEntry ε))
    (sub : Subscriber ε) : Bool :=
  sub.phase.isEnded ||
    (sub.ahead buf).any fun entry => isTerminal entry.event && decide (sub.base < entry.id)

def Waiter.publishes {ε : Type} (taskId : TaskId) : Waiter ε → Bool
  | .publish t _ => t == taskId
  | _ => false

namespace InMemoryEventBus

variable {ε : Type}

abbrev BusTrace (ε : Type) := List (BusAction ε × Option (SubId × LogEntry ε))

/-- The events an action publishes for the task. -/
def eventsOf (taskId : TaskId) : BusAction ε → List ε
  | .publish t e => if t = taskId then [e] else []
  | _ => []

/-- What a step yields to the subscriber. -/
def yieldOf (u : SubId) : Option (SubId × LogEntry ε) → List (LogEntry ε)
  | some (u', entry) => if u' = u then [entry] else []
  | none => []

def publishedOf (taskId : TaskId) (tr : BusTrace ε) : List ε :=
  tr.flatMap fun q => eventsOf taskId q.1

def yieldedBy (u : SubId) (tr : BusTrace ε) : List (LogEntry ε) :=
  tr.flatMap fun q => yieldOf u q.2

/-- The events of the task that wait for the lock. -/
def pendingFor (taskId : TaskId) (lock : List (Waiter ε)) : List (LogEntry ε) :=
  lock.filterMap fun
    | .publish t entry => if t = taskId then some entry else none
    | _ => none

/-- The replay state of the task may be purged. -/
def expired (bus : InMemoryEventBus ε) (taskId : TaskId) : Bool :=
  (bus.purgeDeadlines taskId).any fun d => decide (d ≤ bus.clock)

/-- The step purges the replay state of the task. -/
def purges (cfg : BusConfig) (taskId : TaskId) (bus : InMemoryEventBus ε) : BusAction ε → Bool
  | .publish _ _ => bus.expired taskId
  | .grant =>
    match bus.lock with
    | .cleanup t :: _ => if t = taskId then decide (cfg.replayTtl = 0) else bus.expired taskId
    | _ => false
  | _ => false

/-- The subscriber of the task has left or come to its end, or it is off the list and past the
start of its iteration. -/
def released (u : SubId) (taskId : TaskId) (bus : InMemoryEventBus ε) : Bool :=
  (bus.subscribers u).any fun sub => decide (sub.taskId = taskId) &&
    (sub.left ||
      match sub.phase with
      | .subscribing | .start => false
      | .replaying _ | .live => decide (u ∉ bus.subs taskId)
      | .ended => true)

/-- The first waiter gets the lock: what is sent to the subscriber finds room in its queue, and if
it is taken off the list by a cleanup, the end of its stream is ahead. -/
def TurnOk (cfg : BusConfig) (isTerminal : ε → Bool) (u : SubId) (taskId : TaskId)
    (bus : InMemoryEventBus ε) : List (Waiter ε) → Prop
  | .publish t _ :: _ => t = taskId → u ∈ bus.subs taskId →
    ∀ sub ∈ bus.subscribers u, sub.hasRoom cfg.eventBuffer = true
  | .cleanup t :: _ => t = taskId → u ∈ bus.subs taskId →
    ∀ sub ∈ bus.subscribers u, sub.left = false →
      sub.endAhead isTerminal (bus.replayBuffers taskId) = true
  | _ => True

/-- The conditions on a run, for the subscriber `u` of the task: it starts after an id
that was issued, finds everything newer in the buffer when its replay starts, and its
queue has room for what is sent to it.  The replay state of the task is not purged before the
subscriber is released, and a cleanup that comes while it is registered comes after the end of
its stream. -/
def DeliveryOk (cfg : BusConfig) (isTerminal : ε → Bool) (u : SubId) (taskId : TaskId)
    (bus : InMemoryEventBus ε) (a : BusAction ε) : Prop :=
  (bus.purges cfg taskId a = true → bus.released u taskId = true) ∧
    match a with
    | .subscribe u' t afterEventId =>
      u' = u → t = taskId → ∀ k ∈ afterEventId, k ≤ bus.counters taskId
    | .next u' => u' = u → ∀ sub ∈ bus.subscribers u, sub.phase.isStart = true →
      ∀ k ∈ sub.afterEventId, ∀ i < bus.counters taskId + 1, k < i →
        ∃ entry ∈ bus.replayBuffers taskId, entry.id = i
    | .grant => TurnOk cfg isTerminal u taskId bus bus.lock
    | _ => True

instance (cfg : BusConfig) (isTerminal : ε → Bool) (u : SubId) (taskId : TaskId)
    (bus : InMemoryEventBus ε) (lock : List (Waiter ε)) :
    Decidable (TurnOk cfg isTerminal u taskId bus lock) :=
  match lock with
  | .publish .. :: _ => inferInstanceAs (Decidable (_ → _ → _))
  | .cleanup .. :: _ => inferInstanceAs (Decidable (_ → _ → _))
  | [] | .register .. :: _ | .unregister .. :: _ => isTrue trivial

instance (cfg : BusConfig) (isTerminal : ε → Bool) (u : SubId) (taskId : TaskId)
    (bus : InMemoryEventBus ε) (a : BusAction ε) :
    Decidable (DeliveryOk cfg isTerminal u taskId bus a) :=
  match a with
  | .subscribe .. => inferInstanceAs (Decidable (_ ∧ (_ → _ → _)))
  | .next .. => inferInstanceAs (Decidable (_ ∧ (_ → _)))
  | .grant => inferInstanceAs (Decidable (_ ∧ TurnOk cfg isTerminal u taskId bus bus.lock))
  | .publish .. | .unsubscribe .. | .cleanup .. | .tick .. => inferInstanceAs (Decidable (_ ∧ True))

/-! ### The invariant -/

section

variable (isTerminal : ε → Bool)

/-- What a subscriber has yielded so far. -/
structure Yielded (log : List (LogEntry ε)) (sub : Subscriber ε) (out : List (LogEntry ε)) :
    Prop where
  reached : out <+: log.drop sub.base
  running : sub.phase ≠ .ended → ∀ entry ∈ out, isTerminal entry.event = false
  ended : sub.phase = .ended → ∃ init entry, out = init ++ [entry] ∧
    (∀ entry ∈ init, isTerminal entry.event = false) ∧ isTerminal entry.event = true

/-- How far the iteration is when everything up to `p` has left the queue. -/
def Position (log : List (LogEntry ε)) (sub : Subscriber ε) (out : List (LogEntry ε)) (p : Nat) :
    Prop :=
  match sub.phase with
  | .subscribing => False
  | .start => out = [] ∧
    match sub.afterEventId with
    | some k => k ≤ p
    | none => p ≤ sub.snapshotId ∧ sub.snapshotId ≤ log.length
  | .replaying rest => ∃ k, sub.afterEventId = some k ∧ k ≤ p ∧
    out ++ rest.filter (fun entry => decide (k < entry.id)) <+: log.drop k ∧
    p ≤ k + (out ++ rest.filter fun entry => decide (k < entry.id)).length ∧
    sub.lastYieldedId = if out = [] then 0 else k + out.length
  | .live => ∃ l, l ≤ log.length ∧ sub.base + out.length = max p l ∧
    (sub.lastYieldedId = l ∨ sub.lastYieldedId = 0 ∧ l ≤ p)
  | .ended => True

/-- What a subscriber holds is followed by `tail`, up to the end of the log. -/
structure Queued (log tail : List (LogEntry ε)) (sub : Subscriber ε) (out : List (LogEntry ε))
    (p : Nat) : Prop where
  queue : sub.items ++ tail = log.drop p
  le : p ≤ log.length
  parked : sub.parked = true → sub.handed = none ∧ sub.queue = []
  position : Position log sub out p

/-- A subscriber that was registered.  On the list (`listed`) it will be sent what the waiting
publishers have, and off the list it has its end ahead. -/
structure Registered (u : SubId) (taskId : TaskId) (log : List (LogEntry ε))
    (lock : List (Waiter ε)) (listed : Prop) (sub : Subscriber ε) (out : List (LogEntry ε)) :
    Prop where
  noRegister : .register u ∉ lock
  noUnregister : .unregister u ∉ lock
  queued : ∃ p tail, Queued log tail sub out p ∧
    (listed ∧ tail = pendingFor taskId lock ∨ ¬ listed ∧ sub.endAhead isTerminal log = true)

/-- A subscriber that waits for the lock, behind all events up to its start. -/
structure Subscribing (u : SubId) (taskId : TaskId) (log : List (LogEntry ε))
    (lock : List (Waiter ε)) (sub : Subscriber ε) (out : List (LogEntry ε)) : Prop where
  left : sub.left = false
  nothing : out = []
  empty : sub.parked = false ∧ sub.handed = none ∧ sub.queue = []
  waiting : ∃ l₁ l₂, lock = l₁ ++ .register u :: l₂ ∧ .register u ∉ l₁ ∧ .register u ∉ l₂ ∧
    ∀ k, sub.afterEventId = some k → k + (pendingFor taskId l₂).length ≤ log.length
  noUnregister : .unregister u ∉ lock

structure SubInv (u : SubId) (taskId : TaskId) (log : List (LogEntry ε)) (lock : List (Waiter ε))
    (listed : Prop) (sub : Subscriber ε) (out : List (LogEntry ε)) : Prop where
  yielded : Yielded isTerminal log sub out
  subscribing : sub.phase = .subscribing → Subscribing u taskId log lock sub out
  registered : sub.phase ≠ .subscribing → sub.left = false →
    Registered isTerminal u taskId log lock listed sub out
  left : sub.left = true → .register u ∉ lock

structure LogInv (taskId : TaskId) (log : List (LogEntry ε)) (bus : InMemoryEventBus ε) : Prop where
  counter : bus.counters taskId = log.length
  buffer : bus.replayBuffers taskId <:+ log
  pending : pendingFor taskId bus.lock <:+ log

/-- The bus after the events `evs` of the task were published and `out` was yielded to
the subscriber. -/
structure BusInv (u : SubId) (taskId : TaskId) (evs : List ε) (out : List (LogEntry ε))
    (bus : InMemoryEventBus ε) : Prop where
  log : LogInv taskId (numbered evs) bus
  absent : bus.subscribers u = none → out = [] ∧ .register u ∉ bus.lock ∧
    .unregister u ∉ bus.lock
  subs : ∀ t sub, bus.subscribers u = some sub → u ∈ bus.subs t →
    sub.taskId = t ∧ sub.phase ≠ .subscribing
  unknown : ∀ t, bus.subscribers u = none → u ∉ bus.subs t
  present : ∀ sub, bus.subscribers u = some sub → sub.taskId = taskId →
    SubInv isTerminal u taskId (numbered evs) bus.lock (u ∈ bus.subs taskId) sub out

/-- What a subscriber goes on with that gets nothing more and does not need the buffer. -/
structure Resting (subs : TaskId → List SubId) (u : SubId) (log : List (LogEntry ε))
    (sub : Subscriber ε) (out : List (LogEntry ε)) : Prop where
  yielded : Yielded isTerminal log sub out
  active : sub.left = false → sub.phase ≠ .ended → (∀ t, u ∉ subs t) ∧ sub.phase ≠ .subscribing ∧
    sub.phase ≠ .start ∧ sub.endAhead isTerminal log = true ∧ ∃ p tail, Queued log tail sub out p

/-- The bus once the subscriber is released: whatever happens to the task, the subscriber goes on
with the events `evs₀` of before. -/
structure Detached (u : SubId) (taskId : TaskId) (evs : List ε) (out : List (LogEntry ε))
    (bus : InMemoryEventBus ε) : Prop where
  noRegister : .register u ∉ bus.lock
  resting : ∃ sub evs₀, bus.subscribers u = some sub ∧ sub.taskId = taskId ∧ evs₀ <+: evs ∧
    Resting isTerminal bus.subs u (numbered evs₀) sub out

end

/-! ### Waiters -/

section

variable {taskId : TaskId} {u : SubId} {lock : List (Waiter ε)} {w : Waiter ε}

theorem pendingFor_append (l₁ l₂ : List (Waiter ε)) :
    pendingFor taskId (l₁ ++ l₂) = pendingFor taskId l₁ ++ pendingFor taskId l₂ :=
  List.filterMap_append

theorem pendingFor_publish (entry : LogEntry ε) :
    pendingFor taskId (.publish taskId entry :: lock) = entry :: pendingFor taskId lock := by
  simp [pendingFor]

/-- A waiter that is none of the task's publishers or of the subscriber. -/
structure Foreign (u : SubId) (taskId : TaskId) (w : Waiter ε) : Prop where
  publish : ∀ entry, w ≠ .publish taskId entry
  register : w ≠ .register u
  unregister : w ≠ .unregister u

theorem Foreign.pendingFor_cons (hw : Foreign u taskId w) (lock : List (Waiter ε)) :
    pendingFor taskId (w :: lock) = pendingFor taskId lock := by
  rw [pendingFor, List.filterMap_cons, ← pendingFor]
  match w, hw with
  | .publish t entry, hw =>
    have ht : t ≠ taskId := fun ht => hw.publish entry (by rw [ht])
    simp [ht]
  | .register _, _ => rfl
  | .unregister _, _ => rfl
  | .cleanup _, _ => rfl

theorem Foreign.pendingFor_concat (hw : Foreign u taskId w) (lock : List (Waiter ε)) :
    pendingFor taskId (lock ++ [w]) = pendingFor taskId lock := by
  rw [pendingFor_append, hw.pendingFor_cons []]
  exact List.append_nil _

variable {isTerminal : ε → Bool} {log tail : List (LogEntry ε)} {sub : Subscriber ε}
  {out : List (LogEntry ε)} {listed : Prop}

/-- A foreign waiter queues up. -/
theorem SubInv.concat_foreign (hw : Foreign u taskId w)
    (hs : SubInv isTerminal u taskId log lock listed sub out) :
    SubInv isTerminal u taskId log (lock ++ [w]) listed sub out := by
  have hreg : .register u ∉ lock → .register u ∉ lock ++ [w] := by
    simp [Ne.symm hw.register]
  have hunreg : .unregister u ∉ lock → .unregister u ∉ lock ++ [w] := by
    simp [Ne.symm hw.unregister]
  refine ⟨hs.yielded, fun hph => ?_, fun hph hleft => ?_, fun hleft => hreg (hs.left hleft)⟩
  · obtain ⟨hleft, hnothing, hempty, ⟨l₁, l₂, hlock, h₁, h₂, hk⟩, hun⟩ := hs.subscribing hph
    refine ⟨hleft, hnothing, hempty, ⟨l₁, l₂ ++ [w], ?_, h₁, ?_, fun k hafter => ?_⟩, hunreg hun⟩
    · rw [hlock, List.append_assoc, List.cons_append]
    · simp [h₂, Ne.symm hw.register]
    · rw [hw.pendingFor_concat]
      exact hk k hafter
  · obtain ⟨hnoreg, hnounreg, p, tail, hq, htail⟩ := hs.registered hph hleft
    exact ⟨hreg hnoreg, hunreg hnounreg, p, tail, hq, by rwa [hw.pendingFor_concat]⟩

/-- A foreign waiter has its turn. -/
theorem SubInv.tail_foreign (hw : Foreign u taskId w)
    (hs : SubInv isTerminal u taskId log (w :: lock) listed sub out) :
    SubInv isTerminal u taskId log lock listed sub out := by
  refine ⟨hs.yielded, fun hph => ?_, fun hph hleft => ?_, fun hleft hmem =>
    hs.left hleft (List.mem_cons_of_mem _ hmem)⟩
  · obtain ⟨hleft, hnothing, hempty, ⟨l₁, l₂, hlock, h₁, h₂, hk⟩, hun⟩ := hs.subscribing hph
    refine ⟨hleft, hnothing, hempty, ?_, fun hmem => hun (List.mem_cons_of_mem _ hmem)⟩
    cases l₁ with
    | nil =>
      rw [List.nil_append, List.cons.injEq] at hlock
      exact absurd hlock.1 hw.register
    | cons w' l₁ =>
      rw [List.cons_append, List.cons.injEq] at hlock
      exact ⟨l₁, l₂, hlock.2, fun hmem => h₁ (List.mem_cons_of_mem _ hmem), h₂, hk⟩
  · obtain ⟨hnoreg, hnounreg, p, tail, hq, htail⟩ := hs.registered hph hleft
    exact ⟨fun hmem => hnoreg (List.mem_cons_of_mem _ hmem), fun hmem =>
      hnounreg (List.mem_cons_of_mem _ hmem), p, tail, hq, by rwa [hw.pendingFor_cons] at htail⟩

/-! ### The end ahead -/

theorem endAhead_iff {buf : List (LogEntry ε)} : sub.endAhead isTerminal buf = true ↔
    sub.phase = .ended ∨
      ∃ entry ∈ sub.ahead buf, isTerminal entry.event = true ∧ sub.base < entry.id := by
  have hphase : sub.phase.isEnded = true ↔ sub.phase = .ended := by
    cases sub.phase <;> simp [IterPhase.isEnded]
  simp [Subscriber.endAhead, hphase, List.any_eq_true]

/-- What is found in a part of the log is found in the log. -/
theorem endAhead_mono {l l' : List (LogEntry ε)} (hl : l ⊆ l')
    (h : sub.endAhead isTerminal l = true) : sub.endAhead isTerminal l' = true := by
  rw [endAhead_iff] at h ⊢
  refine h.imp id fun ⟨entry, hmem, hentry⟩ => ⟨entry, ?_, hentry⟩
  rw [Subscriber.ahead, List.mem_append] at hmem ⊢
  refine hmem.imp id fun hmem => ?_
  split at hmem
  · split at hmem
    · rename_i hafter
      rw [if_pos hafter]
      exact hl hmem
    · exact absurd hmem List.not_mem_nil
  · exact hmem
  · exact absurd hmem List.not_mem_nil

/-! ### A publish, a fan-out, a registration -/

theorem prefix_drop_append {l l' : List (LogEntry ε)} {n : Nat} (h : l <+: l'.drop n)
    (l'' : List (LogEntry ε)) : l <+: (l' ++ l'').drop n := by
  rw [List.drop_append]
  exact h.trans (List.prefix_append _ _)

theorem Position.append {p : Nat} (h : Position log sub out p) (l : List (LogEntry ε)) :
    Position (log ++ l) sub out p := by
  have hlen : log.length ≤ (log ++ l).length := by simp
  unfold Position at h ⊢
  split
  · rename_i hph
    rw [hph] at h
    exact h
  · rename_i hph
    rw [hph] at h
    refine ⟨h.1, ?_⟩
    have hafter := h.2
    split
    · rename_i k hk
      rw [hk] at hafter
      exact hafter
    · rename_i hk
      rw [hk] at hafter
      exact ⟨hafter.1, hafter.2.trans hlen⟩
  · rename_i rest hph
    rw [hph] at h
    obtain ⟨k, hk, hkp, hpre, hp, hlast⟩ := h
    exact ⟨k, hk, hkp, prefix_drop_append hpre l, hp, hlast⟩
  · rename_i hph
    rw [hph] at h
    obtain ⟨m, hm, hmax, hlast⟩ := h
    exact ⟨m, hm.trans hlen, hmax, hlast⟩
  · trivial

theorem Yielded.append (h : Yielded isTerminal log sub out) (l : List (LogEntry ε)) :
    Yielded isTerminal (log ++ l) sub out :=
  ⟨prefix_drop_append h.reached l, h.running, h.ended⟩

theorem Queued.append {p : Nat} (h : Queued log tail sub out p) (l : List (LogEntry ε)) :
    Queued (log ++ l) (tail ++ l) sub out p := by
  have hle := h.le
  refine ⟨?_, ?_, h.parked, h.position.append l⟩
  · rw [← List.append_assoc, h.queue, List.drop_append_of_le_length hle]
  · rw [List.length_append]
    omega

/-- An event of the task is published: it is logged and its publisher queues up. -/
theorem SubInv.publish (hs : SubInv isTerminal u taskId log lock listed sub out)
    (entry : LogEntry ε) :
    SubInv isTerminal u taskId (log ++ [entry]) (lock ++ [.publish taskId entry]) listed sub
      out := by
  have hpending : ∀ l, pendingFor taskId (l ++ [.publish taskId entry]) =
      pendingFor taskId l ++ [entry] := by
    intro l
    rw [pendingFor_append, pendingFor_publish]
    rfl
  refine ⟨hs.yielded.append _, fun hph => ?_, fun hph hleft => ?_, fun hleft => by
    simpa using hs.left hleft⟩
  · obtain ⟨hleft, hnothing, hempty, ⟨l₁, l₂, hlock, h₁, h₂, hk⟩, hun⟩ := hs.subscribing hph
    refine ⟨hleft, hnothing, hempty, ⟨l₁, l₂ ++ [.publish taskId entry], ?_, h₁, by simpa using h₂,
      fun k hafter => ?_⟩, by simpa using hun⟩
    · rw [hlock, List.append_assoc, List.cons_append]
    · have := hk k hafter
      rw [hpending, List.length_append, List.length_append, List.length_singleton]
      omega
  · obtain ⟨hnoreg, hnounreg, p, tail, hq, htail⟩ := hs.registered hph hleft
    refine ⟨by simpa using hnoreg, by simpa using hnounreg, p, tail ++ [entry], hq.append _, ?_⟩
    rcases htail with ⟨hlisted, rfl⟩ | ⟨hlisted, hend⟩
    · exact Or.inl ⟨hlisted, (hpending lock).symm⟩
    · exact Or.inr ⟨hlisted, endAhead_mono (List.subset_append_left _ _) hend⟩

theorem send_phase (n : Nat) (entry : LogEntry ε) : (sub.send n entry).phase = sub.phase := by
  unfold Subscriber.send
  split
  · rfl
  · split <;> rfl

/-- Sending touches nothing but the stream. -/
theorem send_frame (sub : Subscriber ε) (n : Nat) (entry : LogEntry ε) :
    (sub.send n entry).taskId = sub.taskId ∧ (sub.send n entry).left = sub.left ∧
      (sub.send n entry).afterEventId = sub.afterEventId ∧
      (sub.send n entry).snapshotId = sub.snapshotId ∧
      (sub.send n entry).lastYieldedId = sub.lastYieldedId := by
  unfold Subscriber.send
  split
  · exact ⟨rfl, rfl, rfl, rfl, rfl⟩
  · split <;> exact ⟨rfl, rfl, rfl, rfl, rfl⟩

theorem send_queue {n : Nat} (entry : LogEntry ε) (hroom : sub.hasRoom n = true)
    (hparked : sub.parked = true → sub.handed = none ∧ sub.queue = []) :
    (sub.send n entry).items = sub.items ++ [entry] ∧ (sub.send n entry).parked = false := by
  unfold Subscriber.send Subscriber.items
  by_cases hp : sub.parked = true
  · obtain ⟨hhanded, hqueue⟩ := hparked hp
    rw [if_pos hp]
    simp [hhanded, hqueue]
  · have hp' : sub.parked = false := by simpa using hp
    have hlt : sub.queue.length < n := by simpa [Subscriber.hasRoom, hp'] using hroom
    rw [if_neg hp, if_pos hlt]
    simp [hp']

theorem Position.send {p : Nat} (h : Position log sub out p) (n : Nat) (entry : LogEntry ε) :
    Position log (sub.send n entry) out p := by
  obtain ⟨-, -, hafter, hsnap, hlast⟩ := send_frame sub n entry
  unfold Position Subscriber.base at h ⊢
  rw [send_phase, hafter, hsnap, hlast]
  exact h

theorem Yielded.send (h : Yielded isTerminal log sub out) (n : Nat) (entry : LogEntry ε) :
    Yielded isTerminal log (sub.send n entry) out := by
  obtain ⟨-, -, hafter, hsnap, -⟩ := send_frame sub n entry
  refine ⟨?_, by rw [send_phase]; exact h.running, by rw [send_phase]; exact h.ended⟩
  rw [Subscriber.base, hafter, hsnap]
  exact h.reached

/-- The first publisher of the lock fans out to the subscriber. -/
theorem SubInv.fanOut {entry : LogEntry ε} {n : Nat}
    (hs : SubInv isTerminal u taskId log (.publish taskId entry :: lock) listed sub out)
    (hlisted : listed) (hroom : sub.hasRoom n = true) (hph : sub.phase ≠ .subscribing) :
    SubInv isTerminal u taskId log lock listed (sub.send n entry) out := by
  obtain ⟨-, hleft', -⟩ := send_frame sub n entry
  refine ⟨hs.yielded.send n entry, fun h => absurd (send_phase n entry ▸ h) hph,
    fun _ hleft => ?_, fun hleft hmem => hs.left (hleft' ▸ hleft) (List.mem_cons_of_mem _ hmem)⟩
  obtain ⟨hnoreg, hnounreg, p, tail, hq, htail⟩ := hs.registered hph (hleft' ▸ hleft)
  have htail' := (htail.resolve_right fun h => h.1 hlisted).2
  rw [pendingFor_publish] at htail'
  obtain ⟨hsend, hparked⟩ := send_queue entry hroom hq.parked
  refine ⟨fun hmem => hnoreg (List.mem_cons_of_mem _ hmem),
    fun hmem => hnounreg (List.mem_cons_of_mem _ hmem), p, pendingFor taskId lock,
    ⟨?_, hq.le, fun h => absurd (hparked.symm.trans h) (by simp), hq.position.send n entry⟩,
    Or.inl ⟨hlisted, rfl⟩⟩
  rw [hsend, ← hq.queue, htail', List.append_assoc, List.singleton_append]

/-- Nothing is sent to a subscriber that is not on the list. -/
theorem SubInv.fanOut_unlisted {entry : LogEntry ε}
    (hs : SubInv isTerminal u taskId log (.publish taskId entry :: lock) listed sub out)
    (hlisted : ¬ listed) :
    SubInv isTerminal u taskId log lock listed sub out := by
  refine ⟨hs.yielded, fun hph => ?_, fun hph hleft => ?_, fun hleft hmem =>
    hs.left hleft (List.mem_cons_of_mem _ hmem)⟩
  · obtain ⟨hleft, hnothing, hempty, ⟨l₁, l₂, hlock, h₁, h₂, hk⟩, hun⟩ := hs.subscribing hph
    refine ⟨hleft, hnothing, hempty, ?_, fun hmem => hun (List.mem_cons_of_mem _ hmem)⟩
    cases l₁ with
    | nil =>
      rw [List.nil_append, List.cons.injEq] at hlock
      exact absurd hlock.1 (by simp)
    | cons w' l₁ =>
      rw [List.cons_append, List.cons.injEq] at hlock
      exact ⟨l₁, l₂, hlock.2, fun hmem => h₁ (List.mem_cons_of_mem _ hmem), h₂, hk⟩
  · obtain ⟨hnoreg, hnounreg, p, tail, hq, htail⟩ := hs.registered hph hleft
    exact ⟨fun hmem => hnoreg (List.mem_cons_of_mem _ hmem),
      fun hmem => hnounreg (List.mem_cons_of_mem _ hmem), p, tail, hq,
      Or.inr (htail.resolve_left fun h => hlisted h.1)⟩

/-- A cleanup takes the subscriber off the list. -/
theorem SubInv.cleanup (hs : SubInv isTerminal u taskId log (.cleanup taskId :: lock) listed sub out)
    (hend : listed → sub.left = false → sub.endAhead isTerminal log = true) {listed' : Prop}
    (hlisted' : ¬ listed') : SubInv isTerminal u taskId log lock listed' sub out := by
  have hs' := hs.tail_foreign ⟨by simp, by simp, by simp⟩
  refine ⟨hs'.yielded, hs'.subscribing, fun hph hleft => ?_, hs'.left⟩
  obtain ⟨hnoreg, hnounreg, p, tail, hq, htail⟩ := hs'.registered hph hleft
  refine ⟨hnoreg, hnounreg, p, tail, hq, Or.inr ⟨hlisted', ?_⟩⟩
  rcases htail with ⟨hlisted, -⟩ | ⟨-, hahead⟩
  · exact hend hlisted hleft
  · exact hahead

/-- The subscriber is registered and takes its bookmark. -/
theorem SubInv.register
    (hs : SubInv isTerminal u taskId log (.register u :: lock) listed sub out)
    (hpending : pendingFor taskId lock <:+ log) {listed' : Prop} (hlisted' : listed') :
    SubInv isTerminal u taskId log lock listed'
      { sub with phase := .start, snapshotId := log.length } out := by
  have hph : sub.phase = .subscribing := by
    by_contra hph
    by_cases hleft : sub.left = true
    · exact hs.left hleft List.mem_cons_self
    · exact (hs.registered hph (by simpa using hleft)).noRegister List.mem_cons_self
  obtain ⟨hleft, rfl, ⟨hparked, hhanded, hqueue⟩, ⟨l₁, l₂, hlock, h₁, h₂, hk⟩, hun⟩ :=
    hs.subscribing hph
  -- the waiter found first is this registration, so `l₂` is the rest of the lock
  obtain ⟨rfl, rfl⟩ : l₁ = [] ∧ l₂ = lock := by
    cases l₁ with
    | nil =>
      rw [List.nil_append, List.cons.injEq] at hlock
      exact ⟨rfl, hlock.2.symm⟩
    | cons w' l₁ =>
      rw [List.cons_append, List.cons.injEq] at hlock
      exact absurd (hlock.1 ▸ List.mem_cons_self) h₁
  refine ⟨⟨List.nil_prefix, fun _ _ h => absurd h (by simp), fun h => absurd h (by simp)⟩,
    fun h => absurd h (by simp), fun _ _ => ?_, fun h => absurd (hleft.symm.trans h) (by simp)⟩
  have hle := hpending.length_le
  refine ⟨h₂, fun hmem => hun (List.mem_cons_of_mem _ hmem),
    log.length - (pendingFor taskId l₂).length, pendingFor taskId l₂, ⟨?_, by omega, fun h =>
    absurd (hparked.symm.trans h) (by simp), ⟨rfl, ?_⟩⟩, Or.inl ⟨hlisted', rfl⟩⟩
  · show sub.handed.toList ++ sub.queue ++ pendingFor taskId l₂ = _
    rw [hhanded, hqueue]
    exact List.suffix_iff_eq_drop.mp hpending
  · show match sub.afterEventId with
      | some k => k ≤ _
      | none => _ ≤ log.length ∧ log.length ≤ log.length
    split
    · rename_i k hafter
      have := hk k hafter
      omega
    · exact ⟨by omega, le_rfl⟩

/-! ### A step of the iteration -/

theorem drop_eq_append {l l' : List (LogEntry ε)} {n : Nat} (h : l <+: l'.drop n) :
    l'.drop n = l ++ l'.drop (n + l.length) := by
  obtain ⟨r, hr⟩ := h
  rw [← List.drop_drop, ← hr, List.drop_left]

/-- The next entry after a prefix carries the next id. -/
theorem id_of_concat {evs : List ε} {l : List (LogEntry ε)} {k : Nat} {entry : LogEntry ε}
    (h : l ++ [entry] <+: (numbered evs).drop k) : entry.id = k + l.length + 1 := by
  obtain ⟨r, hr⟩ := h
  have hdrop : (numbered evs).drop (k + l.length) = entry :: r := by
    rw [← List.drop_drop, ← hr, List.append_assoc, List.drop_left, List.singleton_append]
  exact id_of_drop_eq_cons hdrop

theorem receive_some {entry : LogEntry ε} {sub' : Subscriber ε}
    (h : sub.receive = some (entry, sub')) :
    sub.items = entry :: sub'.items ∧ ∃ handed queue, sub' = { sub with handed, queue } := by
  unfold Subscriber.items
  unfold Subscriber.receive at h
  split at h
  · rename_i e hhanded
    simp only [Option.some_inj, Prod.mk.injEq] at h
    obtain ⟨rfl, rfl⟩ := h
    exact ⟨by simp [hhanded], none, sub.queue, rfl⟩
  · rename_i e rest hhanded hqueue
    simp only [Option.some_inj, Prod.mk.injEq] at h
    obtain ⟨rfl, rfl⟩ := h
    exact ⟨by simp [hhanded, hqueue], sub.handed, rest, rfl⟩
  · exact absurd h (by simp)

theorem receive_none (h : sub.receive = none) : sub.handed = none ∧ sub.queue = [] := by
  unfold Subscriber.receive at h
  split at h
  · exact absurd h (by simp)
  · exact absurd h (by simp)
  · rename_i hhanded hqueue
    exact ⟨hhanded, hqueue⟩

/-- One more event is yielded. -/
theorem Yielded.concat {sub' : Subscriber ε} {entry : LogEntry ε}
    (h : Yielded isTerminal log sub out) (hrun : sub.phase ≠ .ended)
    (hbase : sub'.base = sub.base) (hreach : out ++ [entry] <+: log.drop sub.base)
    (hph : sub'.phase = .ended ↔ isTerminal entry.event = true) :
    Yielded isTerminal log sub' (out ++ [entry]) := by
  refine ⟨by rw [hbase]; exact hreach, fun hne e he => ?_, fun hended =>
    ⟨out, entry, rfl, h.running hrun, hph.mp hended⟩⟩
  rcases List.mem_append.mp he with he | he
  · exact h.running hrun e he
  · rw [List.mem_singleton.mp he]
    exact Bool.eq_false_iff.mpr fun hterm => hne (hph.mpr hterm)

/-- What the replay finds: everything after `k`. -/
theorem filter_buffer {evs : List ε} {buf : List (LogEntry ε)} {k : Nat}
    (hbuf : buf <:+ numbered evs)
    (hall : ∀ i, k < i → i ≤ evs.length → ∃ entry ∈ buf, entry.id = i) :
    buf.filter (fun entry => decide (k < entry.id)) = (numbered evs).drop k := by
  have hdrop := List.suffix_iff_eq_drop.mp hbuf
  set j := (numbered evs).length - buf.length with hj
  rw [hdrop, filter_drop_numbered]
  rcases Nat.lt_or_ge k evs.length with hlt | hge
  · obtain ⟨entry, hmem, hid⟩ := hall (k + 1) (by omega) hlt
    rw [hdrop] at hmem
    have := (lt_id_of_mem_drop hmem).1
    have hmax : max j k = k := by omega
    rw [hmax]
  · have hlen : (numbered evs).length ≤ k := by rw [length_numbered]; exact hge
    rw [List.drop_eq_nil_of_le hlen, List.drop_eq_nil_of_le (by omega)]

/-- The steps of `_iter_events`. -/
inductive IterStep (isTerminal : ε → Bool) (buf : List (LogEntry ε)) (sub : Subscriber ε) :
    Subscriber ε → Option (LogEntry ε) → Prop
  | replay {k : Nat} (hph : sub.phase = .start) (hafter : sub.afterEventId = some k) :
    IterStep isTerminal buf sub { sub with lastYieldedId := 0, phase := .replaying buf } none
  | bookmark (hph : sub.phase = .start) (hafter : sub.afterEventId = none) :
    IterStep isTerminal buf sub { sub with lastYieldedId := sub.snapshotId, phase := .live } none
  | goLive (hph : sub.phase = .replaying []) :
    IterStep isTerminal buf sub { sub with phase := .live } none
  | replayed {entry : LogEntry ε} {rest : List (LogEntry ε)}
    (hph : sub.phase = .replaying (entry :: rest)) (hid : sub.afterEventId.getD 0 < entry.id) :
    IterStep isTerminal buf sub { sub with
      lastYieldedId := entry.id
      phase := if isTerminal entry.event then .ended else .replaying rest } (some entry)
  | older {entry : LogEntry ε} {rest : List (LogEntry ε)}
    (hph : sub.phase = .replaying (entry :: rest)) (hid : ¬ sub.afterEventId.getD 0 < entry.id) :
    IterStep isTerminal buf sub { sub with phase := .replaying rest } none
  | duplicate {entry : LogEntry ε} {sub' : Subscriber ε} (hph : sub.phase = .live)
    (hrecv : sub.receive = some (entry, sub')) (hid : entry.id ≤ sub'.lastYieldedId) :
    IterStep isTerminal buf sub sub' none
  | received {entry : LogEntry ε} {sub' : Subscriber ε} (hph : sub.phase = .live)
    (hrecv : sub.receive = some (entry, sub')) (hid : ¬ entry.id ≤ sub'.lastYieldedId) :
    IterStep isTerminal buf sub
      { sub' with phase := if isTerminal entry.event then .ended else .live } (some entry)
  | park (hph : sub.phase = .live) (hrecv : sub.receive = none) (hparked : sub.parked = false) :
    IterStep isTerminal buf sub { sub with parked := true } none

theorem iterStep_of_next {buf : List (LogEntry ε)} {sub' : Subscriber ε}
    {o : Option (LogEntry ε)} (h : sub.next isTerminal buf = some (sub', o)) :
    IterStep isTerminal buf sub sub' o := by
  unfold Subscriber.next at h
  split at h
  · exact absurd h (by simp)
  · rename_i hph
    split at h <;> rename_i hafter <;> simp only [Option.some_inj, Prod.mk.injEq] at h <;>
      obtain ⟨rfl, rfl⟩ := h
    · exact .replay hph hafter
    · exact .bookmark hph hafter
  · rename_i hph
    simp only [Option.some_inj, Prod.mk.injEq] at h
    obtain ⟨rfl, rfl⟩ := h
    exact .goLive hph
  · rename_i entry rest hph
    split at h <;> rename_i hid <;> simp only [Option.some_inj, Prod.mk.injEq] at h <;>
      obtain ⟨rfl, rfl⟩ := h
    · exact .replayed hph hid
    · exact .older hph hid
  · rename_i hph
    split at h
    · rename_i entry sub₁ hrecv
      split at h <;> rename_i hid <;> simp only [Option.some_inj, Prod.mk.injEq] at h <;>
        obtain ⟨rfl, rfl⟩ := h
      · exact .duplicate hph hrecv hid
      · exact .received hph hrecv hid
    · rename_i hrecv
      split at h
      · exact absurd h (by simp)
      · rename_i hparked
        simp only [Option.some_inj, Prod.mk.injEq] at h
        obtain ⟨rfl, rfl⟩ := h
        exact .park hph hrecv (by simpa using hparked)
  · exact absurd h (by simp)

/-- The iteration keeps the subscription. -/
theorem IterStep.frame {buf : List (LogEntry ε)} {sub' : Subscriber ε} {o : Option (LogEntry ε)}
    (h : IterStep isTerminal buf sub sub' o) :
    sub.phase ≠ .subscribing ∧ sub.phase ≠ .ended ∧ sub'.phase ≠ .subscribing ∧
      sub'.taskId = sub.taskId ∧ sub'.left = sub.left ∧ sub'.base = sub.base := by
  cases h with
  | replay hph | bookmark hph | goLive hph | older hph | park hph =>
    exact ⟨by simp [hph], by simp [hph], by simp [hph], rfl, rfl, rfl⟩
  | replayed hph =>
    exact ⟨by simp [hph], by simp [hph], by dsimp only; split <;> simp, rfl, rfl, rfl⟩
  | duplicate hph hrecv =>
    obtain ⟨-, handed, queue, rfl⟩ := receive_some hrecv
    exact ⟨by simp [hph], by simp [hph], by simp [hph], rfl, rfl, rfl⟩
  | received hph hrecv =>
    obtain ⟨-, handed, queue, rfl⟩ := receive_some hrecv
    exact ⟨by simp [hph], by simp [hph], by dsimp only; split <;> simp, rfl, rfl, rfl⟩

theorem Yielded.of_phase {sub' : Subscriber ε} (h : Yielded isTerminal log sub out)
    (hbase : sub'.base = sub.base) (hph : sub.phase ≠ .ended) (hph' : sub'.phase ≠ .ended) :
    Yielded isTerminal log sub' out :=
  ⟨by rw [hbase]; exact h.reached, fun _ => h.running hph, fun h => absurd h hph'⟩

/-- Taking the first event from the queue. -/
theorem Queued.receive {evs : List ε} {p : Nat} {entry : LogEntry ε} {sub' : Subscriber ε}
    (hq : Queued (numbered evs) tail sub out p) (hrecv : sub.receive = some (entry, sub')) :
    entry.id = p + 1 ∧ sub'.parked = false ∧ p + 1 ≤ (numbered evs).length ∧
      (numbered evs).drop p = entry :: (numbered evs).drop (p + 1) ∧
      sub'.items ++ tail = (numbered evs).drop (p + 1) := by
  obtain ⟨hqueue, handed, queue, hsub⟩ := receive_some hrecv
  have hdrop : (numbered evs).drop p = entry :: (sub'.items ++ tail) := by
    rw [← hq.queue, hqueue, List.cons_append]
  have hlt : p < (numbered evs).length := by
    by_contra hge
    rw [List.drop_eq_nil_of_le (by omega)] at hdrop
    exact absurd hdrop (by simp)
  have hrest : (numbered evs).drop (p + 1) = sub'.items ++ tail := by
    rw [← List.drop_drop, hdrop, List.drop_one, List.tail_cons]
  refine ⟨id_of_drop_eq_cons hdrop, ?_, hlt, by rw [hdrop, hrest], hrest.symm⟩
  have hparked : sub'.parked = sub.parked := by rw [hsub]
  rw [hparked]
  by_contra hp
  obtain ⟨hhanded, hempty⟩ := hq.parked (by simpa using hp)
  rw [Subscriber.items, hhanded, hempty] at hqueue
  exact absurd hqueue (by simp)

/-- A subscriber that may have ended with this event is where it would be without. -/
theorem Position.ended_or {sub' : Subscriber ε} {p : Nat} (h : Position log sub out p) (b : Bool)
    (hsub : sub' = { sub with phase := if b = true then .ended else sub.phase }) :
    Position log sub' out p := by
  subst hsub
  cases b with
  | true => trivial
  | false => exact h

theorem Queued.iterStep {evs : List ε} {p : Nat} {buf : List (LogEntry ε)} {sub' : Subscriber ε}
    {o : Option (LogEntry ε)} (hq : Queued (numbered evs) tail sub out p)
    (hy : Yielded isTerminal (numbered evs) sub out)
    (hbuf : sub.phase = .start → buf <:+ numbered evs)
    (hreplay : sub.phase = .start → ∀ k, sub.afterEventId = some k → ∀ i, k < i →
      i ≤ evs.length → ∃ entry ∈ buf, entry.id = i)
    (h : IterStep isTerminal buf sub sub' o) :
    (∃ p', Queued (numbered evs) tail sub' (out ++ o.toList) p') ∧
      Yielded isTerminal (numbered evs) sub' (out ++ o.toList) := by
  have hpos := hq.position
  have hle := hq.le
  cases h with
  | @replay k hph hafter =>
    rw [Position, hph] at hpos
    obtain ⟨rfl, hkp⟩ := hpos
    rw [hafter] at hkp
    have hfilter := filter_buffer (hbuf hph) (hreplay hph k hafter)
    refine ⟨⟨p, hq.queue, hle, hq.parked, ⟨k, hafter, hkp, ?_, ?_, rfl⟩⟩,
      hy.of_phase rfl (by simp [hph]) (by simp)⟩
    · rw [Option.toList_none, List.append_nil, List.nil_append, hfilter]
    · have hkp' : k ≤ p := hkp
      rw [Option.toList_none, List.append_nil, List.nil_append, hfilter, List.length_drop]
      omega
  | bookmark hph hafter =>
    rw [Position, hph] at hpos
    obtain ⟨rfl, hkp⟩ := hpos
    rw [hafter] at hkp
    refine ⟨⟨p, hq.queue, hle, hq.parked, ⟨sub.snapshotId, hkp.2, ?_, Or.inl rfl⟩⟩,
      hy.of_phase rfl (by simp [hph]) (by simp)⟩
    simp only [Subscriber.base, hafter, Option.getD_none, Option.toList_none, List.append_nil,
      List.length_nil]
    omega
  | goLive hph =>
    rw [Position, hph] at hpos
    obtain ⟨k, hafter, hkp, hpre, hp, hlast⟩ := hpos
    rw [List.filter_nil, List.append_nil] at hpre hp
    have hlen := hpre.length_le
    rw [List.length_drop] at hlen
    refine ⟨⟨p, hq.queue, hle, hq.parked, ⟨k + out.length, by omega, ?_, ?_⟩⟩, ?_⟩
    · simp only [Subscriber.base, hafter, Option.getD_some, Option.toList_none, List.append_nil]
      omega
    · rw [hlast]
      by_cases hout : out = []
      · right
        rw [hout, if_pos rfl]
        exact ⟨rfl, hkp⟩
      · exact Or.inl (if_neg hout)
    · rw [Option.toList_none, List.append_nil]
      exact hy.of_phase rfl (by simp [hph]) (by simp)
  | @replayed entry rest hph hid =>
    rw [Position, hph] at hpos
    obtain ⟨k, hafter, hkp, hpre, hp, hlast⟩ := hpos
    rw [hafter, Option.getD_some] at hid
    rw [List.filter_cons, if_pos (decide_eq_true hid)] at hpre hp
    have hreach : out ++ [entry] <+: (numbered evs).drop k := by
      refine List.IsPrefix.trans ?_ hpre
      exact ⟨rest.filter (fun entry => decide (k < entry.id)), by simp⟩
    have hposition : Position (numbered evs)
        { sub with lastYieldedId := entry.id, phase := .replaying rest } (out ++ [entry]) p := by
      refine ⟨k, hafter, hkp, ?_, ?_, ?_⟩
      · rw [List.append_assoc, List.singleton_append]
        exact hpre
      · rw [List.append_assoc, List.singleton_append]
        exact hp
      · rw [if_neg (by simp), id_of_concat hreach, List.length_append, List.length_singleton,
          Nat.add_assoc]
    refine ⟨⟨p, hq.queue, hle, hq.parked, hposition.ended_or _ rfl⟩, ?_⟩
    refine hy.concat (by simp [hph]) rfl ?_ (by simp)
    rw [Subscriber.base, hafter]
    exact hreach
  | @older entry rest hph hid =>
    rw [Position, hph] at hpos
    obtain ⟨k, hafter, hkp, hpre, hp, hlast⟩ := hpos
    rw [hafter, Option.getD_some] at hid
    rw [List.filter_cons, if_neg (by simpa using hid)] at hpre hp
    rw [Option.toList_none, List.append_nil]
    exact ⟨⟨p, hq.queue, hle, hq.parked, ⟨k, hafter, hkp, hpre, hp, hlast⟩⟩,
      hy.of_phase rfl (by simp [hph]) (by simp)⟩
  | @duplicate entry sub' hph hrecv hid =>
    obtain ⟨hentry, hparked, hlt, -, hqueue⟩ := hq.receive hrecv
    obtain ⟨-, handed, queue, rfl⟩ := receive_some hrecv
    rw [Position, hph] at hpos
    obtain ⟨l, hl, hmax, hlast⟩ := hpos
    have hid' : p + 1 ≤ sub.lastYieldedId := hentry ▸ hid
    rw [Option.toList_none, List.append_nil]
    refine ⟨⟨p + 1, hqueue, hlt, fun hp => absurd (hparked.symm.trans hp) (by simp), ?_⟩,
      hy.of_phase rfl (by simp [hph]) (by simp [hph])⟩
    rw [Position, hph]
    have hlast' : sub.lastYieldedId = l := by omega
    refine ⟨l, hl, ?_, Or.inl hlast'⟩
    show sub.base + out.length = _
    omega
  | @received entry sub' hph hrecv hid =>
    obtain ⟨hentry, hparked, hlt, hdrop, hqueue⟩ := hq.receive hrecv
    obtain ⟨-, handed, queue, rfl⟩ := receive_some hrecv
    rw [Position, hph] at hpos
    obtain ⟨l, hl, hmax, hlast⟩ := hpos
    have hid' : ¬ p + 1 ≤ sub.lastYieldedId := hentry ▸ hid
    -- nothing in the queue is older than what was yielded, so the iteration is at `p`
    have hat : sub.base + out.length = p := by omega
    have hreach : out ++ [entry] <+: (numbered evs).drop sub.base := by
      rw [drop_eq_append hy.reached, hat, hdrop]
      exact ⟨(numbered evs).drop (p + 1), by simp⟩
    have hposition : Position (numbered evs) { sub with handed, queue, phase := .live }
        (out ++ [entry]) (p + 1) := by
      refine ⟨l, hl, ?_, ?_⟩
      · show sub.base + (out ++ [entry]).length = _
        rw [List.length_append, List.length_singleton]
        omega
      · rcases hlast with hlast | hlast
        · exact Or.inl hlast
        · exact Or.inr ⟨hlast.1, by omega⟩
    exact ⟨⟨p + 1, hqueue, hlt, fun hp => absurd (hparked.symm.trans hp) (by simp),
      hposition.ended_or _ rfl⟩,
      hy.concat (by simp [hph]) rfl hreach (by simp)⟩
  | park hph hrecv hparked =>
    rw [Option.toList_none, List.append_nil]
    have hempty := receive_none hrecv
    refine ⟨⟨p, hq.queue, hle, fun _ => hempty, ?_⟩,
      hy.of_phase rfl (by simp [hph]) (by simp [hph])⟩
    rw [Position, hph] at hpos ⊢
    exact hpos

/-- A terminal event behind the start lies behind what was yielded. -/
theorem Yielded.lt_id {evs : List ε} {entry : LogEntry ε}
    (hy : Yielded isTerminal (numbered evs) sub out) (hrun : sub.phase ≠ .ended)
    (hmem : entry ∈ numbered evs) (hterm : isTerminal entry.event = true)
    (hid : sub.base < entry.id) : sub.base + out.length < entry.id := by
  have hfilter := filter_drop_numbered evs 0 sub.base
  rw [List.drop_zero, Nat.zero_max] at hfilter
  have hmem' : entry ∈ (numbered evs).drop sub.base := by
    rw [← hfilter]
    exact List.mem_filter.mpr ⟨hmem, decide_eq_true hid⟩
  rw [drop_eq_append hy.reached, List.mem_append] at hmem'
  rcases hmem' with hout | hrest
  · exact absurd (hterm.symm.trans (hy.running hrun entry hout)) (by simp)
  · exact (lt_id_of_mem_drop hrest).1

/-- The event that is received is not the end, or the iteration ends with it. -/
theorem Queued.ne_received {evs : List ε} {p : Nat} {entry e : LogEntry ε} {sub' : Subscriber ε}
    (hq : Queued (numbered evs) tail sub out p) (hy : Yielded isTerminal (numbered evs) sub out)
    (hph : sub.phase = .live) (hrecv : sub.receive = some (e, sub'))
    (hid : e.id ≤ sub.lastYieldedId) (hterm : isTerminal entry.event = true)
    (hbase : sub.base < entry.id) : entry ≠ e := by
  rintro rfl
  obtain ⟨hentry, -, -, hdrop, -⟩ := hq.receive hrecv
  have hlt := hy.lt_id (by simp [hph])
    (List.mem_of_mem_drop (hdrop ▸ List.mem_cons_self)) hterm hbase
  have hpos := hq.position
  rw [Position, hph] at hpos
  obtain ⟨l, hl, hmax, hlast⟩ := hpos
  omega

/-- The end stays ahead. -/
theorem IterStep.endAhead {evs : List ε} {p : Nat} {buf : List (LogEntry ε)} {sub' : Subscriber ε}
    {o : Option (LogEntry ε)} (h : IterStep isTerminal buf sub sub' o)
    (hq : Queued (numbered evs) tail sub out p) (hy : Yielded isTerminal (numbered evs) sub out)
    (hbuf : sub.phase = .start → buf <:+ numbered evs)
    (hreplay : sub.phase = .start → ∀ k, sub.afterEventId = some k → ∀ i, k < i →
      i ≤ evs.length → ∃ entry ∈ buf, entry.id = i)
    (hend : sub.endAhead isTerminal (numbered evs) = true) :
    sub'.endAhead isTerminal (numbered evs) = true := by
  obtain ⟨-, hrun, -, -, -, hbase⟩ := h.frame
  obtain ⟨entry, hmem, hterm, hid⟩ := (endAhead_iff.mp hend).resolve_left hrun
  rw [endAhead_iff]
  -- an event that is no end is another one
  have hother : ∀ {e : LogEntry ε} {l : List (LogEntry ε)}, isTerminal e.event = false →
      entry ∈ e :: l → entry ∈ l := by
    intro e l he hmem
    refine (List.mem_cons.mp hmem).resolve_left fun h => ?_
    rw [← h, hterm] at he
    exact absurd he (by simp)
  rw [Subscriber.ahead, List.mem_append] at hmem
  cases h with
  | @replay k hph hafter =>
    refine Or.inr ⟨entry, List.mem_append.mpr (hmem.imp id fun hmem => ?_), hterm, hid⟩
    rw [hph, hafter, Option.isSome_some, if_pos rfl] at hmem
    -- everything behind the start is found in the buffer
    have hfilter := filter_buffer (hbuf hph) (hreplay hph k hafter)
    have hall := filter_drop_numbered evs 0 k
    rw [List.drop_zero, Nat.zero_max, ← hfilter] at hall
    have hk : k < entry.id := by simpa [Subscriber.base, hafter] using hid
    have hfound : entry ∈ buf.filter fun e => decide (k < e.id) := by
      rw [← hall]
      exact List.mem_filter.mpr ⟨hmem, decide_eq_true hk⟩
    exact (List.mem_filter.mp hfound).1
  | bookmark hph hafter =>
    rw [hph, hafter] at hmem
    exact Or.inr ⟨entry, List.mem_append_left _ (hmem.resolve_right (by simp)), hterm, hid⟩
  | goLive hph =>
    rw [hph] at hmem
    exact Or.inr ⟨entry, List.mem_append_left _ (hmem.resolve_right (by simp)), hterm, hid⟩
  | @replayed e rest hph hnew =>
    rw [hph] at hmem
    by_cases he : isTerminal e.event = true
    · exact Or.inl (if_pos he)
    · have he' : isTerminal e.event = false := by simpa using he
      refine Or.inr ⟨entry, List.mem_append.mpr (hmem.imp id fun hmem => ?_), hterm, hid⟩
      rw [if_neg he]
      exact hother he' hmem
  | @older e rest hph hold =>
    rw [hph] at hmem
    refine Or.inr ⟨entry, List.mem_append.mpr (hmem.imp id fun hmem => ?_), hterm, hid⟩
    refine (List.mem_cons.mp hmem).resolve_left fun h => hold ?_
    have hpos := hq.position
    rw [Position, hph] at hpos
    obtain ⟨k, hafter, -⟩ := hpos
    rw [← h]
    simpa [Subscriber.base, hafter] using hid
  | @duplicate e sub' hph hrecv hold =>
    obtain ⟨hitems, handed, queue, rfl⟩ := receive_some hrecv
    rw [hph, hitems] at hmem
    have hne := hq.ne_received hy hph hrecv hold hterm hid
    have hmem' := (List.mem_cons.mp (hmem.resolve_right (by simp))).resolve_left hne
    exact Or.inr ⟨entry, List.mem_append_left _ hmem', hterm, hid⟩
  | @received e sub' hph hrecv hnew =>
    obtain ⟨hitems, handed, queue, rfl⟩ := receive_some hrecv
    rw [hph, hitems] at hmem
    by_cases he : isTerminal e.event = true
    · exact Or.inl (if_pos he)
    · have he' : isTerminal e.event = false := by simpa using he
      have hmem' := hother he' (hmem.resolve_right (by simp))
      exact Or.inr ⟨entry, List.mem_append_left _ hmem', hterm, hid⟩
  | park hph hrecv hparked =>
    obtain ⟨hhanded, hqueue⟩ := receive_none hrecv
    rw [hph, Subscriber.items, hhanded, hqueue] at hmem
    exact absurd hmem (by simp)

theorem SubInv.iterStep {evs : List ε} {buf : List (LogEntry ε)} {sub' : Subscriber ε}
    {o : Option (LogEntry ε)} (hs : SubInv isTerminal u taskId (numbered evs) lock listed sub out)
    (hleft : sub.left = false) (hbuf : buf <:+ numbered evs)
    (hreplay : sub.phase = .start → ∀ k, sub.afterEventId = some k → ∀ i, k < i →
      i ≤ evs.length → ∃ entry ∈ buf, entry.id = i)
    (h : IterStep isTerminal buf sub sub' o) :
    SubInv isTerminal u taskId (numbered evs) lock listed sub' (out ++ o.toList) := by
  obtain ⟨hph, -, hph', -, hleft', -⟩ := h.frame
  obtain ⟨hnoreg, hnounreg, p, tail, hq, htail⟩ := hs.registered hph hleft
  obtain ⟨⟨p', hq'⟩, hyielded⟩ := hq.iterStep hs.yielded (fun _ => hbuf) hreplay h
  refine ⟨hyielded, fun h => absurd h hph', fun _ _ => ⟨hnoreg, hnounreg, p', tail, hq', ?_⟩,
    fun h => ?_⟩
  · exact htail.imp id fun hend =>
      ⟨hend.1, h.endAhead hq hs.yielded (fun _ => hbuf) hreplay hend.2⟩
  · rw [hleft', hleft] at h
    exact absurd h (by simp)

end

/-! ### A step of the bus -/

section

variable {cfg : BusConfig} {isTerminal : ε → Bool} {u : SubId} {taskId : TaskId} {evs : List ε}
  {out : List (LogEntry ε)} {bus bus' : InMemoryEventBus ε}

/-- What an action does. -/
inductive BusTurn (cfg : BusConfig) (isTerminal : ε → Bool) (bus : InMemoryEventBus ε) :
    BusAction ε → InMemoryEventBus ε → Option (SubId × LogEntry ε) → Prop
  | publish (t : TaskId) (event : ε) :
    BusTurn cfg isTerminal bus (.publish t event) (bus.publish cfg t event) none
  | subscribe {v : SubId} {t : TaskId} {afterEventId : Option Nat} :
    bus.subscribers v = none →
    BusTurn cfg isTerminal bus (.subscribe v t afterEventId)
      { bus.setSubscriber v { taskId := t, afterEventId } with
        lock := bus.lock ++ [.register v] } none
  | unsubscribe {v : SubId} {sub : Subscriber ε} : bus.subscribers v = some sub →
    sub.phase ≠ .subscribing → sub.left = false →
    BusTurn cfg isTerminal bus (.unsubscribe v)
      { bus.setSubscriber v { sub with left := true } with lock := bus.lock ++ [.unregister v] } none
  | cleanup (t : TaskId) :
    BusTurn cfg isTerminal bus (.cleanup t) { bus with lock := bus.lock ++ [.cleanup t] } none
  | grant {w : Waiter ε} {rest : List (Waiter ε)} : bus.lock = w :: rest →
    BusTurn cfg isTerminal bus .grant ({ bus with lock := rest }.runWaiter cfg w) none
  | next {v : SubId} {sub sub' : Subscriber ε} {o : Option (LogEntry ε)} :
    bus.subscribers v = some sub → sub.left = false →
    IterStep isTerminal (bus.replayBuffers sub.taskId) sub sub' o →
    BusTurn cfg isTerminal bus (.next v) (bus.setSubscriber v sub') (o.map fun entry => (v, entry))
  | tick (dt : Nat) :
    BusTurn cfg isTerminal bus (.tick dt) { bus with clock := bus.clock + dt } none

theorem busTurn_of_step {a : BusAction ε} {o : Option (SubId × LogEntry ε)}
    (h : bus.step cfg isTerminal a = some (bus', o)) : BusTurn cfg isTerminal bus a bus' o := by
  unfold InMemoryEventBus.step at h
  cases a with
  | publish t event =>
    obtain ⟨rfl, rfl⟩ := Prod.mk.inj (Option.some.inj h)
    exact .publish t event
  | subscribe v t afterEventId =>
    dsimp only at h
    split at h
    · exact absurd h (by simp)
    · rename_i hnone
      obtain ⟨rfl, rfl⟩ := Prod.mk.inj (Option.some.inj h)
      exact .subscribe hnone
  | unsubscribe v =>
    dsimp only at h
    split at h
    · exact absurd h (by simp)
    · rename_i sub hsub
      split at h
      · exact absurd h (by simp)
      · rename_i hph
        split at h
        · exact absurd h (by simp)
        · rename_i hleft
          obtain ⟨rfl, rfl⟩ := Prod.mk.inj (Option.some.inj h)
          exact .unsubscribe hsub hph (by simpa using hleft)
  | cleanup t =>
    obtain ⟨rfl, rfl⟩ := Prod.mk.inj (Option.some.inj h)
    exact .cleanup t
  | grant =>
    dsimp only at h
    split at h
    · exact absurd h (by simp)
    · rename_i w rest hlock
      obtain ⟨rfl, rfl⟩ := Prod.mk.inj (Option.some.inj h)
      exact .grant hlock
  | next v =>
    dsimp only at h
    split at h
    · exact absurd h (by simp)
    · rename_i sub hsub
      split at h
      · exact absurd h (by simp)
      · rename_i hleft
        split at h
        · exact absurd h (by simp)
        · rename_i sub' o' hnext
          obtain ⟨rfl, rfl⟩ := Prod.mk.inj (Option.some.inj h)
          exact .next hsub (by simpa using hleft) (iterStep_of_next hnext)
  | tick dt =>
    obtain ⟨rfl, rfl⟩ := Prod.mk.inj (Option.some.inj h)
    exact .tick dt

theorem yieldOf_map (u v : SubId) (o : Option (LogEntry ε)) :
    yieldOf u (o.map fun entry => (v, entry)) = if v = u then o.toList else [] := by
  cases o with
  | none => simp [yieldOf]
  | some entry => simp [yieldOf]

/-- The two buses agree on the task and the subscriber, the lock apart. -/
structure SameFor (u : SubId) (taskId : TaskId) (bus bus' : InMemoryEventBus ε) : Prop where
  counter : bus'.counters taskId = bus.counters taskId
  buffer : bus'.replayBuffers taskId = bus.replayBuffers taskId
  absent : bus'.subscribers u = none → bus.subscribers u = none
  present : ∀ sub', bus'.subscribers u = some sub' → bus.subscribers u = some sub' ∨
    ∃ sub, bus.subscribers u = some sub ∧ sub.taskId ≠ taskId ∧ sub'.taskId = sub.taskId ∧
      sub'.phase = sub.phase
  subs : ∀ t, u ∈ bus'.subs t → u ∈ bus.subs t
  listed : u ∈ bus'.subs taskId ↔ u ∈ bus.subs taskId

/-- Neither the lock nor the clock matters. -/
theorem SameFor.refl (bus : InMemoryEventBus ε) {lock : List (Waiter ε)} {clock : Nat} :
    SameFor u taskId bus { bus with lock, clock } :=
  ⟨rfl, rfl, fun h => h, fun _ h => Or.inl h, fun _ h => h, .rfl⟩

theorem SameFor.setSubscriber {v : SubId} (hv : v ≠ u) (bus : InMemoryEventBus ε)
    (sub : Subscriber ε) {lock : List (Waiter ε)} :
    SameFor u taskId bus { bus.setSubscriber v sub with lock } := by
  have hsub : (bus.setSubscriber v sub).subscribers u = bus.subscribers u :=
    Function.update_of_ne (Ne.symm hv) _ _
  exact ⟨rfl, rfl, fun h => hsub.symm.trans h, fun _ h => Or.inl (hsub.symm.trans h),
    fun _ h => h, .rfl⟩

/-- At most a foreign waiter comes or goes. -/
inductive LockMoves (u : SubId) (taskId : TaskId) : List (Waiter ε) → List (Waiter ε) → Prop
  | same (lock : List (Waiter ε)) : LockMoves u taskId lock lock
  | concat {w : Waiter ε} (lock : List (Waiter ε)) (hw : Foreign u taskId w) :
    LockMoves u taskId lock (lock ++ [w])
  | tail {w : Waiter ε} (lock : List (Waiter ε)) (hw : Foreign u taskId w) :
    LockMoves u taskId (w :: lock) lock

theorem LockMoves.subInv {lock lock' : List (Waiter ε)} (hm : LockMoves u taskId lock lock')
    {log : List (LogEntry ε)} {listed : Prop} {sub : Subscriber ε}
    (hs : SubInv isTerminal u taskId log lock listed sub out) :
    SubInv isTerminal u taskId log lock' listed sub out := by
  cases hm with
  | same => exact hs
  | concat _ hw => exact hs.concat_foreign hw
  | tail _ hw => exact hs.tail_foreign hw

theorem LockMoves.pendingFor_eq {lock lock' : List (Waiter ε)} (hm : LockMoves u taskId lock lock') :
    pendingFor taskId lock' = pendingFor taskId lock := by
  cases hm with
  | same => rfl
  | concat _ hw => exact hw.pendingFor_concat _
  | tail _ hw => exact (hw.pendingFor_cons _).symm

theorem LockMoves.notMem {lock lock' : List (Waiter ε)} (hm : LockMoves u taskId lock lock')
    {w : Waiter ε} (hforeign : ∀ w', Foreign u taskId w' → w' ≠ w) (h : w ∉ lock) : w ∉ lock' := by
  cases hm with
  | same => exact h
  | concat _ hw =>
    intro hmem
    rcases List.mem_append.mp hmem with hmem | hmem
    · exact h hmem
    · exact hforeign _ hw (List.mem_singleton.mp hmem).symm
  | tail _ hw => exact fun hmem => h (List.mem_cons_of_mem _ hmem)

/-- A step that is none of the task's or the subscriber's. -/
theorem BusInv.foreign (hs : BusInv isTerminal u taskId evs out bus) (hsame : SameFor u taskId bus bus')
    (hm : LockMoves u taskId bus.lock bus'.lock) : BusInv isTerminal u taskId evs out bus' := by
  refine ⟨⟨?_, ?_, ?_⟩, fun hnone => ?_, fun t sub hsub hmem => ?_, fun t hnone hmem => ?_,
    fun sub hsub htask => ?_⟩
  · rw [hsame.counter, hs.log.counter]
  · rw [hsame.buffer]
    exact hs.log.buffer
  · rw [hm.pendingFor_eq]
    exact hs.log.pending
  · obtain ⟨hout, hreg, hunreg⟩ := hs.absent (hsame.absent hnone)
    exact ⟨hout, hm.notMem (fun _ hw => hw.register) hreg,
      hm.notMem (fun _ hw => hw.unregister) hunreg⟩
  · rcases hsame.present sub hsub with h | ⟨sub₀, h, -, htask, hph⟩
    · exact hs.subs t sub h (hsame.subs t hmem)
    · rw [htask, hph]
      exact hs.subs t sub₀ h (hsame.subs t hmem)
  · exact hs.unknown t (hsame.absent hnone) (hsame.subs t hmem)
  · rcases hsame.present sub hsub with h | ⟨sub₀, -, hne, htask', -⟩
    · rw [propext hsame.listed]
      exact hm.subInv (hs.present sub h htask)
    · exact absurd (htask'.symm.trans htask) hne

theorem purgeExpired_of_not {t : TaskId} (h : bus.expired t = false) :
    bus.purgeExpired.counters t = bus.counters t ∧
      bus.purgeExpired.replayBuffers t = bus.replayBuffers t := by
  rw [expired] at h
  simp [purgeExpired, h]

theorem suffix_append_right {l l' : List (LogEntry ε)} (h : l <:+ l') (l'' : List (LogEntry ε)) :
    l ++ l'' <:+ l' ++ l'' := by
  obtain ⟨r, rfl⟩ := h
  exact ⟨r, (List.append_assoc _ _ _).symm⟩

theorem BusInv.publish (hs : BusInv isTerminal u taskId evs out bus)
    (hkept : bus.expired taskId = false) (event : ε) :
    BusInv isTerminal u taskId (evs ++ [event]) out (bus.publish cfg taskId event) := by
  obtain ⟨hcounter, hbuffer⟩ := purgeExpired_of_not hkept
  have hlen : bus.purgeExpired.counters taskId = evs.length := by
    rw [hcounter, hs.log.counter, length_numbered]
  set entry : LogEntry ε := ⟨evs.length + 1, event⟩ with hentry
  have hlock : (bus.publish cfg taskId event).lock = bus.lock ++ [.publish taskId entry] := by
    show bus.lock ++ [.publish taskId ⟨bus.purgeExpired.counters taskId + 1, event⟩] = _
    rw [hlen]
  have hbuf : (bus.publish cfg taskId event).replayBuffers taskId =
      appendBounded cfg.replayBufferSize (bus.replayBuffers taskId) entry := by
    show Function.update _ taskId _ taskId = _
    rw [Function.update_self, hbuffer, hlen]
  have hnotMem : ∀ w : Waiter ε, (∀ entry, w ≠ .publish taskId entry) → w ∉ bus.lock →
      w ∉ bus.lock ++ [.publish taskId entry] := by
    intro w hw hmem h
    rcases List.mem_append.mp h with h | h
    · exact hmem h
    · exact hw entry (List.mem_singleton.mp h)
  refine ⟨⟨?_, ?_, ?_⟩, fun hnone => ?_, hs.subs, hs.unknown, fun sub hsub htask => ?_⟩
  · show Function.update _ taskId _ taskId = _
    rw [Function.update_self, hlen, length_numbered, List.length_append, List.length_singleton]
  · rw [hbuf, numbered_concat, appendBounded]
    exact (List.drop_suffix _ _).trans (suffix_append_right hs.log.buffer _)
  · rw [hlock, pendingFor_append, pendingFor_publish, numbered_concat]
    exact suffix_append_right hs.log.pending _
  · obtain ⟨hout, hreg, hunreg⟩ := hs.absent hnone
    rw [hlock]
    exact ⟨hout, hnotMem _ (by simp) hreg, hnotMem _ (by simp) hunreg⟩
  · rw [hlock, numbered_concat]
    exact (hs.present sub hsub htask).publish entry

/-- The publisher of an event of the task has its turn. -/
theorem BusInv.fanOut {entry : LogEntry ε} {rest : List (Waiter ε)}
    (hs : BusInv isTerminal u taskId evs out bus) (hlock : bus.lock = .publish taskId entry :: rest)
    (hroom : ∀ sub, u ∈ bus.subs taskId → bus.subscribers u = some sub →
      sub.hasRoom cfg.eventBuffer = true) :
    BusInv isTerminal u taskId evs out
      ({ bus with lock := rest }.runWaiter cfg (.publish taskId entry)) := by
  have hmem : ∀ w, w ∉ bus.lock → w ∉ rest := fun w hw h =>
    hw (hlock ▸ List.mem_cons_of_mem _ h)
  have hsub' : ({ bus with lock := rest }.runWaiter cfg (.publish taskId entry)).subscribers u =
      if u ∈ bus.subs taskId then (bus.subscribers u).map (Subscriber.send cfg.eventBuffer entry)
      else bus.subscribers u := rfl
  refine ⟨⟨hs.log.counter, hs.log.buffer, ?_⟩,
    fun hnone => ?_, fun t sub hsub ht => ?_, fun t hnone ht => ?_, fun sub hsub htask => ?_⟩
  · have hpending := hs.log.pending
    rw [hlock, pendingFor_publish] at hpending
    exact (List.suffix_cons _ _).trans hpending
  · have hnone' : bus.subscribers u = none := by
      rw [hsub'] at hnone
      split at hnone
      · exact Option.map_eq_none_iff.mp hnone
      · exact hnone
    obtain ⟨hout, hreg, hunreg⟩ := hs.absent hnone'
    exact ⟨hout, hmem _ hreg, hmem _ hunreg⟩
  · rw [hsub'] at hsub
    split at hsub
    · obtain ⟨sub₀, hsub₀, rfl⟩ := Option.map_eq_some_iff.mp hsub
      rw [(send_frame _ _ _).1, send_phase]
      exact hs.subs t sub₀ hsub₀ ht
    · exact hs.subs t sub hsub ht
  · rw [hsub'] at hnone
    split at hnone
    · exact hs.unknown t (Option.map_eq_none_iff.mp hnone) ht
    · exact hs.unknown t hnone ht
  · rw [hsub'] at hsub
    split at hsub
    · rename_i hu
      obtain ⟨sub₀, hsub₀, rfl⟩ := Option.map_eq_some_iff.mp hsub
      rw [(send_frame _ _ _).1] at htask
      have hinv := hs.present sub₀ hsub₀ htask
      rw [hlock] at hinv
      exact hinv.fanOut hu (hroom sub₀ hu hsub₀) (hs.subs taskId sub₀ hsub₀ hu).2
    · rename_i hu
      have hinv := hs.present sub hsub htask
      rw [hlock] at hinv
      exact hinv.fanOut_unlisted hu

/-- The subscriber gets the lock. -/
theorem BusInv.register {rest : List (Waiter ε)} (hs : BusInv isTerminal u taskId evs out bus)
    (hlock : bus.lock = .register u :: rest) :
    BusInv isTerminal u taskId evs out ({ bus with lock := rest }.runWaiter cfg (.register u)) := by
  have hmem : ∀ w, w ∉ bus.lock → w ∉ rest := fun w hw h =>
    hw (hlock ▸ List.mem_cons_of_mem _ h)
  have hpending : pendingFor taskId rest = pendingFor taskId bus.lock := by
    rw [hlock]
    rfl
  rcases hsub : bus.subscribers u with _ | sub
  · exact absurd (hlock ▸ List.mem_cons_self) (hs.absent hsub).2.1
  · have hbus : { bus with lock := rest }.runWaiter cfg (.register u) =
        { bus with
          lock := rest
          subscribers := Function.update bus.subscribers u
            (some { sub with phase := .start, snapshotId := bus.counters sub.taskId })
          subs := Function.update bus.subs sub.taskId (bus.subs sub.taskId ++ [u]) } := by
      simp [runWaiter, hsub, setSubscriber]
    rw [hbus]
    refine ⟨⟨hs.log.counter, hs.log.buffer, ?_⟩, fun hnone => ?_, fun t sub' hsub' ht => ?_,
      fun t hnone => ?_, fun sub' hsub' htask => ?_⟩
    · show pendingFor taskId rest <:+ _
      rw [hpending]
      exact hs.log.pending
    · exact absurd hnone (by simp)
    · simp only [Function.update_self, Option.some_inj] at hsub'
      subst hsub'
      refine ⟨?_, by simp⟩
      by_contra hne
      have ht' : u ∈ bus.subs t := by
        have := ht
        simp only [Function.update_of_ne (Ne.symm hne)] at this
        exact this
      exact hne (hs.subs t sub hsub ht').1
    · exact absurd hnone (by simp)
    · simp only [Function.update_self, Option.some_inj] at hsub'
      subst hsub'
      have htask' : sub.taskId = taskId := htask
      have hinv := hs.present sub hsub htask'
      rw [hlock] at hinv
      have hcounter : bus.counters sub.taskId = (numbered evs).length := by
        rw [htask', hs.log.counter]
      rw [hcounter]
      exact hinv.register (hpending ▸ hs.log.pending) (by simp [htask'])

/-- The subscriber is taken off the list. -/
theorem BusInv.unregister {rest : List (Waiter ε)} (hs : BusInv isTerminal u taskId evs out bus)
    (hlock : bus.lock = .unregister u :: rest) :
    BusInv isTerminal u taskId evs out ({ bus with lock := rest }.runWaiter cfg (.unregister u)) := by
  have hmem : ∀ w, w ∉ bus.lock → w ∉ rest := fun w hw h =>
    hw (hlock ▸ List.mem_cons_of_mem _ h)
  have hpending : pendingFor taskId rest = pendingFor taskId bus.lock := by
    rw [hlock]
    rfl
  rcases hsub : bus.subscribers u with _ | sub
  · exact absurd (hlock ▸ List.mem_cons_self) (hs.absent hsub).2.2
  · have hbus : { bus with lock := rest }.runWaiter cfg (.unregister u) =
        { bus with
          lock := rest
          subs := Function.update bus.subs sub.taskId ((bus.subs sub.taskId).erase u) } := by
      simp [runWaiter, hsub]
    rw [hbus]
    refine ⟨⟨hs.log.counter, hs.log.buffer, ?_⟩,
      fun hnone => absurd (hsub.symm.trans hnone) (by simp), fun t sub' hsub' ht => ?_,
      fun t hnone => absurd (hsub.symm.trans hnone) (by simp), fun sub' hsub' htask => ?_⟩
    · show pendingFor taskId rest <:+ _
      rw [hpending]
      exact hs.log.pending
    · refine hs.subs t sub' hsub' ?_
      by_cases hne : t = sub.taskId
      · subst hne
        simp only [Function.update_self] at ht
        exact List.mem_of_mem_erase ht
      · simpa only [Function.update_of_ne hne] using ht
    · have hinv := hs.present sub' hsub' htask
      rw [hlock] at hinv
      -- a subscriber that is being taken off the list has left
      have hph : sub'.phase ≠ .subscribing := fun hph =>
        (hinv.subscribing hph).noUnregister List.mem_cons_self
      have hleft : sub'.left ≠ false := fun hleft =>
        (hinv.registered hph hleft).noUnregister List.mem_cons_self
      exact ⟨hinv.yielded, fun h => absurd h hph, fun _ h => absurd h hleft, fun h hmem' =>
        hinv.left h (List.mem_cons_of_mem _ hmem')⟩

/-- The task is cleaned up. -/
theorem BusInv.cleanup {rest : List (Waiter ε)} (hs : BusInv isTerminal u taskId evs out bus)
    (hlock : bus.lock = .cleanup taskId :: rest) (httl : cfg.replayTtl ≠ 0)
    (hend : u ∈ bus.subs taskId → ∀ sub, bus.subscribers u = some sub → sub.left = false →
      sub.endAhead isTerminal (bus.replayBuffers taskId) = true) :
    BusInv isTerminal u taskId evs out
      ({ bus with lock := rest }.runWaiter cfg (.cleanup taskId)) := by
  have hmem : ∀ w, w ∉ bus.lock → w ∉ rest := fun w hw h =>
    hw (hlock ▸ List.mem_cons_of_mem _ h)
  have hpending : pendingFor taskId rest = pendingFor taskId bus.lock := by
    rw [hlock]
    rfl
  -- the new deadline has not passed
  have hkept : ({ bus with
      lock := rest
      subs := Function.update bus.subs taskId []
      purgeDeadlines := Function.update bus.purgeDeadlines taskId
        (some (bus.clock + cfg.replayTtl)) } : InMemoryEventBus ε).expired taskId = false := by
    simp [expired]
    omega
  obtain ⟨hcounter, hbuffer⟩ := purgeExpired_of_not hkept
  have hsubs : ∀ t, u ∈ Function.update bus.subs taskId [] t → u ∈ bus.subs t := by
    intro t ht
    by_cases htask : t = taskId
    · subst htask
      rw [Function.update_self] at ht
      exact absurd ht List.not_mem_nil
    · rwa [Function.update_of_ne htask] at ht
  refine ⟨⟨hcounter.trans hs.log.counter, hbuffer ▸ hs.log.buffer, ?_⟩, fun hnone => ?_,
    fun t sub hsub ht => hs.subs t sub hsub (hsubs t ht),
    fun t hnone ht => hs.unknown t hnone (hsubs t ht), fun sub hsub htask => ?_⟩
  · show pendingFor taskId rest <:+ _
    rw [hpending]
    exact hs.log.pending
  · obtain ⟨hout, hreg, hunreg⟩ := hs.absent hnone
    exact ⟨hout, hmem _ hreg, hmem _ hunreg⟩
  · have hinv := hs.present sub hsub htask
    rw [hlock] at hinv
    refine hinv.cleanup (fun hlisted hleft =>
      endAhead_mono hs.log.buffer.subset (hend hlisted sub hsub hleft)) ?_
    show u ∉ Function.update bus.subs taskId [] taskId
    rw [Function.update_self]
    exact List.not_mem_nil

/-- A subscriber is new. -/
theorem BusInv.subscribe {t : TaskId} {afterEventId : Option Nat}
    (hs : BusInv isTerminal u taskId evs out bus) (hnone : bus.subscribers u = none)
    (hafter : t = taskId → ∀ k, afterEventId = some k → k ≤ bus.counters taskId) :
    BusInv isTerminal u taskId evs out
      { bus.setSubscriber u { taskId := t, afterEventId } with lock := bus.lock ++ [.register u] } := by
  obtain ⟨rfl, hreg, hunreg⟩ := hs.absent hnone
  refine ⟨⟨hs.log.counter, hs.log.buffer, ?_⟩, fun h => ?_, fun t' sub hsub ht => ?_,
    fun t' h => ?_, fun sub hsub htask => ?_⟩
  · show pendingFor taskId (bus.lock ++ [.register u]) <:+ _
    rw [pendingFor_append]
    exact (List.append_nil _).symm ▸ hs.log.pending
  · exact absurd h (by simp [setSubscriber])
  · exact absurd ht (hs.unknown t' hnone)
  · exact absurd h (by simp [setSubscriber])
  · simp only [setSubscriber, Function.update_self, Option.some_inj] at hsub
    subst hsub
    refine ⟨⟨List.nil_prefix, fun _ _ h => absurd h (by simp), fun h => absurd h (by simp)⟩,
      fun _ => ⟨rfl, rfl, ⟨rfl, rfl, rfl⟩, ⟨bus.lock, [], rfl, hreg, by simp, fun k hk => ?_⟩, ?_⟩,
      fun h => absurd rfl h, fun h => absurd h (by simp)⟩
    · have := hafter htask k hk
      rw [hs.log.counter] at this
      exact this
    · show _ ∉ bus.lock ++ [.register u]
      simpa using hunreg

/-- The subscriber leaves. -/
theorem BusInv.unsubscribe {sub : Subscriber ε} (hs : BusInv isTerminal u taskId evs out bus)
    (hsub : bus.subscribers u = some sub) (hph : sub.phase ≠ .subscribing)
    (hleft : sub.left = false) :
    BusInv isTerminal u taskId evs out
      { bus.setSubscriber u { sub with left := true } with lock := bus.lock ++ [.unregister u] } := by
  refine ⟨⟨hs.log.counter, hs.log.buffer, ?_⟩, fun h => ?_, fun t' sub' hsub' ht => ?_,
    fun t' h => ?_, fun sub' hsub' htask => ?_⟩
  · show pendingFor taskId (bus.lock ++ [.unregister u]) <:+ _
    rw [pendingFor_append]
    exact (List.append_nil _).symm ▸ hs.log.pending
  · exact absurd h (by simp [setSubscriber])
  · simp only [setSubscriber, Function.update_self, Option.some_inj] at hsub'
    subst hsub'
    exact hs.subs t' sub hsub ht
  · exact absurd h (by simp [setSubscriber])
  · simp only [setSubscriber, Function.update_self, Option.some_inj] at hsub'
    subst hsub'
    have hinv := hs.present sub hsub htask
    have hreg := (hinv.registered hph hleft).noRegister
    refine ⟨⟨hinv.yielded.reached, hinv.yielded.running, hinv.yielded.ended⟩,
      fun h => absurd h hph, fun _ h => absurd h (by simp), fun _ => ?_⟩
    show _ ∉ bus.lock ++ [.unregister u]
    simpa using hreg

/-- The subscriber iterates. -/
theorem BusInv.next {sub sub' : Subscriber ε} {o : Option (LogEntry ε)}
    (hs : BusInv isTerminal u taskId evs out bus) (hsub : bus.subscribers u = some sub)
    (hleft : sub.left = false)
    (hreplay : ∀ k, sub.phase = .start → sub.afterEventId = some k → ∀ i, k < i →
      i ≤ bus.counters taskId → ∃ entry ∈ bus.replayBuffers taskId, entry.id = i)
    (hstep : IterStep isTerminal (bus.replayBuffers sub.taskId) sub sub' o) :
    BusInv isTerminal u taskId evs (out ++ o.toList) (bus.setSubscriber u sub') := by
  obtain ⟨hph, -, hph', htask', hleft', -⟩ := hstep.frame
  refine ⟨⟨hs.log.counter, hs.log.buffer, hs.log.pending⟩,
    fun h => ?_, fun t sub₁ hsub₁ ht => ?_, fun t h => ?_, fun sub₁ hsub₁ htask => ?_⟩
  · exact absurd h (by simp [setSubscriber])
  · simp only [setSubscriber, Function.update_self, Option.some_inj] at hsub₁
    subst hsub₁
    rw [htask']
    exact ⟨(hs.subs t sub hsub ht).1, hph'⟩
  · exact absurd h (by simp [setSubscriber])
  · simp only [setSubscriber, Function.update_self, Option.some_inj] at hsub₁
    subst hsub₁
    rw [htask'] at htask
    have hinv := hs.present sub hsub htask
    rw [htask] at hstep
    refine hinv.iterStep hleft hs.log.buffer (fun hstart k hk i hi hlen => ?_) hstep
    rw [← length_numbered, ← hs.log.counter] at hlen
    exact hreplay k hstart hk i hi hlen

theorem runWaiter_register (rest : List (Waiter ε)) {v : SubId} {sub : Subscriber ε}
    (hsub : bus.subscribers v = some sub) :
    { bus with lock := rest }.runWaiter cfg (.register v) =
      { bus.setSubscriber v { sub with phase := .start, snapshotId := bus.counters sub.taskId } with
        lock := rest
        subs := Function.update bus.subs sub.taskId (bus.subs sub.taskId ++ [v]) } := by
  simp only [runWaiter, hsub]
  rfl

theorem runWaiter_unregister (rest : List (Waiter ε)) {v : SubId} {sub : Subscriber ε}
    (hsub : bus.subscribers v = some sub) :
    { bus with lock := rest }.runWaiter cfg (.unregister v) =
      { bus with
        lock := rest
        subs := Function.update bus.subs sub.taskId ((bus.subs sub.taskId).erase v) } := by
  simp only [runWaiter, hsub]

theorem runWaiter_unknown (rest : List (Waiter ε)) {v : SubId} (hsub : bus.subscribers v = none) :
    { bus with lock := rest }.runWaiter cfg (.register v) = { bus with lock := rest } ∧
      { bus with lock := rest }.runWaiter cfg (.unregister v) = { bus with lock := rest } := by
  constructor <;> simp only [runWaiter, hsub]

/-- What a waiter of another task or subscriber does. -/
theorem sameFor_runWaiter (hs : BusInv isTerminal u taskId evs out bus) {w : Waiter ε}
    (hw : Foreign u taskId w) (rest : List (Waiter ε))
    (hcleanup : ∀ t, w = .cleanup t → t ≠ taskId ∧ bus.expired taskId = false) :
    SameFor u taskId bus ({ bus with lock := rest }.runWaiter cfg w) := by
  cases w with
  | publish t entry =>
    -- `u` may listen to the other task; then only its queue changes
    have ht : t ≠ taskId := fun ht => hw.publish entry (by rw [ht])
    have hsub' : ({ bus with lock := rest }.runWaiter cfg (.publish t entry)).subscribers u =
        if u ∈ bus.subs t then (bus.subscribers u).map (Subscriber.send cfg.eventBuffer entry)
        else bus.subscribers u := rfl
    refine ⟨rfl, rfl, fun hnone => ?_, fun sub' hsub => ?_, fun _ h => h, .rfl⟩
    · rw [hsub'] at hnone
      split at hnone
      · exact Option.map_eq_none_iff.mp hnone
      · exact hnone
    · rw [hsub'] at hsub
      split at hsub
      · rename_i hu
        obtain ⟨sub, hsub₀, rfl⟩ := Option.map_eq_some_iff.mp hsub
        refine Or.inr ⟨sub, hsub₀, ?_, (send_frame _ _ _).1, send_phase _ _⟩
        rw [(hs.subs t sub hsub₀ hu).1]
        exact ht
      · exact Or.inl hsub
  | register u' =>
    have hu : u ≠ u' := fun hu => hw.register (by rw [hu])
    rcases hsub : bus.subscribers u' with _ | sub
    · rw [(runWaiter_unknown rest hsub).1]
      exact .refl bus
    · have hsub' : ({ bus with lock := rest }.runWaiter cfg (.register u')).subscribers u =
          bus.subscribers u := by
        rw [runWaiter_register rest hsub]
        exact Function.update_of_ne hu _ _
      rw [runWaiter_register rest hsub] at hsub' ⊢
      have hsubs : ∀ t,
          u ∈ Function.update bus.subs sub.taskId (bus.subs sub.taskId ++ [u']) t ↔ u ∈ bus.subs t := by
        intro t
        by_cases ht : t = sub.taskId
        · subst ht
          simp [hu]
        · rw [Function.update_of_ne ht]
      exact ⟨rfl, rfl, fun h => hsub'.symm.trans h, fun _ h => Or.inl (hsub'.symm.trans h),
        fun t h => (hsubs t).mp h, hsubs taskId⟩
  | unregister u' =>
    have hu : u ≠ u' := fun hu => hw.unregister (by rw [hu])
    rcases hsub : bus.subscribers u' with _ | sub
    · rw [(runWaiter_unknown rest hsub).2]
      exact .refl bus
    · have hsubs : ∀ t, u ∈ Function.update bus.subs sub.taskId ((bus.subs sub.taskId).erase u') t ↔
          u ∈ bus.subs t := by
        intro t
        by_cases ht : t = sub.taskId
        · subst ht
          rw [Function.update_self]
          exact List.mem_erase_of_ne hu
        · rw [Function.update_of_ne ht]
      rw [runWaiter_unregister rest hsub]
      exact ⟨rfl, rfl, fun h => h, fun _ h => Or.inl h, fun t h => (hsubs t).mp h,
        hsubs taskId⟩
  | cleanup t =>
    obtain ⟨hne, hexpired⟩ := hcleanup t rfl
    have ht : taskId ≠ t := Ne.symm hne
    set bus₁ : InMemoryEventBus ε := { bus with
      lock := rest
      subs := Function.update bus.subs t []
      purgeDeadlines := Function.update bus.purgeDeadlines t (some (bus.clock + cfg.replayTtl)) }
      with hbus₁
    have hkept : bus₁.expired taskId = false := by
      rw [hbus₁, expired]
      simp only [Function.update_of_ne ht]
      exact hexpired
    -- the purge that goes with it leaves this task alone
    obtain ⟨hcounter, hbuffer⟩ := purgeExpired_of_not hkept
    refine ⟨hcounter, hbuffer, fun h => h, fun _ h => Or.inl h, fun t' h => ?_, ?_⟩
    · have h' : u ∈ Function.update bus.subs t [] t' := h
      by_cases ht' : t' = t
      · subst ht'
        rw [Function.update_self] at h'
        exact absurd h' (by simp)
      · rwa [Function.update_of_ne ht'] at h'
    · show u ∈ Function.update bus.subs t [] taskId ↔ _
      rw [Function.update_of_ne ht]

theorem BusInv.grant (hs : BusInv isTerminal u taskId evs out bus)
    (hkept : bus.purges cfg taskId .grant = false)
    (hok : TurnOk cfg isTerminal u taskId bus bus.lock) {w : Waiter ε} {rest : List (Waiter ε)}
    (hlock : bus.lock = w :: rest) :
    BusInv isTerminal u taskId evs out ({ bus with lock := rest }.runWaiter cfg w) := by
  rw [hlock] at hok
  simp only [purges, hlock] at hkept
  have hforeign : Foreign u taskId w →
      (∀ t, w = .cleanup t → t ≠ taskId ∧ bus.expired taskId = false) →
      ({ bus with lock := rest }.runWaiter cfg w).lock = rest →
      BusInv isTerminal u taskId evs out ({ bus with lock := rest }.runWaiter cfg w) := by
    intro hw hcleanup hrest
    refine hs.foreign (sameFor_runWaiter hs hw rest hcleanup) ?_
    rw [hlock, hrest]
    exact .tail rest hw
  cases w with
  | publish t entry =>
    by_cases ht : t = taskId
    · subst ht
      exact hs.fanOut hlock fun sub hu hsub => hok rfl hu sub hsub
    · exact hforeign ⟨by simp [ht], by simp, by simp⟩ (by simp) rfl
  | register u' =>
    by_cases hu : u' = u
    · subst hu
      exact hs.register hlock
    · refine hforeign ⟨by simp, by simp [hu], by simp⟩ (by simp) ?_
      simp only [runWaiter]
      split <;> rfl
  | unregister u' =>
    by_cases hu : u' = u
    · subst hu
      exact hs.unregister hlock
    · refine hforeign ⟨by simp, by simp, by simp [hu]⟩ (by simp) ?_
      simp only [runWaiter]
      split <;> rfl
  | cleanup t =>
    by_cases ht : t = taskId
    · subst ht
      exact hs.cleanup hlock (by simpa using hkept) fun hlisted sub hsub hleft =>
        hok rfl hlisted sub hsub hleft
    · simp only [if_neg ht] at hkept
      refine hforeign ⟨by simp, by simp, by simp⟩ (fun t' ht' => ?_) rfl
      obtain rfl := Waiter.cleanup.inj ht'
      exact ⟨ht, hkept⟩

/-- A step that does not purge the replay state of the task. -/
theorem BusInv.step {a : BusAction ε} {o : Option (SubId × LogEntry ε)}
    (hs : BusInv isTerminal u taskId evs out bus) (hkept : bus.purges cfg taskId a = false)
    (hok : DeliveryOk cfg isTerminal u taskId bus a)
    (h : bus.step cfg isTerminal a = some (bus', o)) :
    BusInv isTerminal u taskId (evs ++ eventsOf taskId a) (out ++ yieldOf u o) bus' := by
  cases busTurn_of_step h with
  | publish t event =>
    rw [yieldOf, List.append_nil, eventsOf]
    by_cases ht : t = taskId
    · subst ht
      rw [if_pos rfl]
      exact hs.publish hkept event
    · have hne : taskId ≠ t := Ne.symm ht
      obtain ⟨hcounter, hbuffer⟩ := purgeExpired_of_not (t := taskId) hkept
      rw [if_neg ht, List.append_nil]
      refine hs.foreign ⟨?_, ?_, fun h => h, fun _ h => Or.inl h, fun _ h => h, .rfl⟩
        (.concat _ ⟨by simp [ht], by simp, by simp⟩)
      · show Function.update _ t _ taskId = _
        rw [Function.update_of_ne hne, hcounter]
      · show Function.update _ t _ taskId = _
        rw [Function.update_of_ne hne, hbuffer]
  | @subscribe v t afterEventId hnone =>
    simp only [yieldOf, eventsOf, List.append_nil]
    by_cases hv : v = u
    · subst hv
      exact hs.subscribe hnone (hok.2 rfl)
    · exact hs.foreign (.setSubscriber hv _ _) (.concat _ ⟨by simp, by simp [hv], by simp⟩)
  | @unsubscribe v sub hsub hph hleft =>
    simp only [yieldOf, eventsOf, List.append_nil]
    by_cases hv : v = u
    · subst hv
      exact hs.unsubscribe hsub hph hleft
    · exact hs.foreign (.setSubscriber hv _ _) (.concat _ ⟨by simp, by simp, by simp [hv]⟩)
  | cleanup t =>
    simp only [yieldOf, eventsOf, List.append_nil]
    exact hs.foreign (.refl _) (.concat _ ⟨by simp, by simp, by simp⟩)
  | grant hlock =>
    simp only [yieldOf, eventsOf, List.append_nil]
    exact hs.grant hkept hok.2 hlock
  | @next v sub sub' o hsub hleft hiter =>
    simp only [eventsOf, List.append_nil]
    rw [yieldOf_map]
    by_cases hv : v = u
    · subst hv
      rw [if_pos rfl]
      refine hs.next hsub hleft (fun k hph hk i hi hlen => ?_) hiter
      exact hok.2 rfl sub hsub (by rw [hph]; rfl) k hk i (Nat.lt_succ_of_le hlen) hi
    · rw [if_neg hv, List.append_nil]
      exact hs.foreign (.setSubscriber hv _ _) (.same _)
  | tick dt =>
    simp only [yieldOf, eventsOf, List.append_nil]
    exact hs.foreign (.refl _) (.same _)

/-! ### After the release -/

/-- A released subscriber goes on by itself. -/
theorem BusInv.detached (hs : BusInv isTerminal u taskId evs out bus)
    (hreleased : bus.released u taskId = true) : Detached isTerminal u taskId evs out bus := by
  simp only [released, Option.any_eq_true, Bool.and_eq_true, decide_eq_true_eq] at hreleased
  obtain ⟨sub, hsub, htask, hphase⟩ := hreleased
  have hinv := hs.present sub hsub htask
  have hstarted : sub.left = false →
      sub.phase ≠ .subscribing ∧ (sub.phase ≠ .ended → sub.phase ≠ .start ∧ u ∉ bus.subs taskId) := by
    intro hleft
    rw [hleft, Bool.false_or] at hphase
    cases hph : sub.phase <;> simp [hph] at hphase ⊢
    · exact hphase
    · exact hphase
  have hnoreg : .register u ∉ bus.lock := by
    cases hleft : sub.left with
    | true => exact hinv.left hleft
    | false => exact (hinv.registered (hstarted hleft).1 hleft).noRegister
  refine ⟨hnoreg, sub, evs, hsub, htask, List.prefix_rfl, hinv.yielded, fun hleft hrun => ?_⟩
  obtain ⟨hph, hrest⟩ := hstarted hleft
  obtain ⟨hstart, hunlisted⟩ := hrest hrun
  obtain ⟨-, -, p, tail, hq, htail⟩ := hinv.registered hph hleft
  refine ⟨fun t ht => ?_, hph, hstart, (htail.resolve_left fun h => hunlisted h.1).2, p, tail, hq⟩
  have ht' := (hs.subs t sub hsub ht).1
  rw [htask] at ht'
  exact hunlisted (ht' ▸ ht)

/-- A step of somebody else sends the subscriber something at most if that does not matter. -/
theorem Detached.frame {evs' : List ε} (hs : Detached isTerminal u taskId evs out bus)
    (hevs : evs <+: evs') (hlock : .register u ∉ bus'.lock)
    (hsubs : ∀ t, u ∈ bus'.subs t → u ∈ bus.subs t)
    (hsub : ∀ sub, bus.subscribers u = some sub → ∃ sub', bus'.subscribers u = some sub' ∧
      (sub' = sub ∨ ∃ t n entry, u ∈ bus.subs t ∧ sub' = sub.send n entry)) :
    Detached isTerminal u taskId evs' out bus' := by
  obtain ⟨-, sub, evs₀, hknown, htask, hevs₀, hrest⟩ := hs
  obtain ⟨sub', hknown', hsame | ⟨t, n, entry, ht, hsent⟩⟩ := hsub sub hknown
  · subst hsame
    refine ⟨hlock, sub', evs₀, hknown', htask, hevs₀.trans hevs, hrest.yielded, fun hleft hrun => ?_⟩
    obtain ⟨hunlisted, hactive⟩ := hrest.active hleft hrun
    exact ⟨fun t ht => hunlisted t (hsubs t ht), hactive⟩
  · subst hsent
    obtain ⟨htask', hleft', -⟩ := send_frame sub n entry
    refine ⟨hlock, _, evs₀, hknown', htask'.trans htask, hevs₀.trans hevs,
      hrest.yielded.send n entry, fun hleft hrun => ?_⟩
    rw [hleft'] at hleft
    rw [send_phase] at hrun
    exact absurd ht ((hrest.active hleft hrun).1 t)

theorem IterStep.ne_start {buf : List (LogEntry ε)} {sub sub' : Subscriber ε}
    {o : Option (LogEntry ε)} (h : IterStep isTerminal buf sub sub' o) (hph : sub.phase ≠ .start) :
    sub'.phase ≠ .start := by
  cases h with
  | replay hstart => exact absurd hstart hph
  | bookmark hstart => exact absurd hstart hph
  | goLive => simp
  | older => simp
  | park => exact hph
  | duplicate hlive hrecv =>
    obtain ⟨-, handed, queue, rfl⟩ := receive_some hrecv
    exact hph
  | replayed => dsimp only; split <;> simp
  | received => dsimp only; split <;> simp

/-- The subscriber iterates over what it holds. -/
theorem Resting.iterStep {log₀ : List ε} {subs : TaskId → List SubId} {buf : List (LogEntry ε)}
    {sub sub' : Subscriber ε} {o : Option (LogEntry ε)}
    (hs : Resting isTerminal subs u (numbered log₀) sub out) (hleft : sub.left = false)
    (h : IterStep isTerminal buf sub sub' o) :
    Resting isTerminal subs u (numbered log₀) sub' (out ++ o.toList) := by
  obtain ⟨-, hrun, hph', -, -, -⟩ := h.frame
  obtain ⟨hunlisted, -, hstart, hend, p, tail, hq⟩ := hs.active hleft hrun
  have hbuf : sub.phase = .start → buf <:+ numbered log₀ := fun h => absurd h hstart
  have hreplay : sub.phase = .start → ∀ k, sub.afterEventId = some k → ∀ i, k < i →
      i ≤ log₀.length → ∃ entry ∈ buf, entry.id = i := fun h => absurd h hstart
  obtain ⟨⟨p', hq'⟩, hyielded⟩ := hq.iterStep hs.yielded hbuf hreplay h
  exact ⟨hyielded, fun _ _ => ⟨hunlisted, hph', h.ne_start hstart,
    h.endAhead hq hs.yielded hbuf hreplay hend, p', tail, hq'⟩⟩

theorem Detached.grant (hs : Detached isTerminal u taskId evs out bus) {w : Waiter ε}
    {rest : List (Waiter ε)} (hlock : bus.lock = w :: rest) :
    Detached isTerminal u taskId evs out ({ bus with lock := rest }.runWaiter cfg w) := by
  have hnoreg : .register u ∉ rest := fun h => hs.noRegister (hlock ▸ List.mem_cons_of_mem _ h)
  cases w with
  | publish t entry =>
    refine hs.frame List.prefix_rfl hnoreg (fun _ h => h) fun sub hsub => ?_
    have hsub' : ({ bus with lock := rest }.runWaiter cfg (.publish t entry)).subscribers u =
        if u ∈ bus.subs t then (bus.subscribers u).map (Subscriber.send cfg.eventBuffer entry)
        else bus.subscribers u := rfl
    rw [hsub', hsub]
    split
    · rename_i ht
      exact ⟨_, rfl, Or.inr ⟨t, cfg.eventBuffer, entry, ht, rfl⟩⟩
    · exact ⟨sub, rfl, Or.inl rfl⟩
  | register u' =>
    have hu : u ≠ u' := fun hu => hs.noRegister (by rw [hlock, hu]; exact List.mem_cons_self)
    rcases hsub : bus.subscribers u' with _ | sub
    · rw [(runWaiter_unknown rest hsub).1]
      exact hs.frame List.prefix_rfl hnoreg (fun _ h => h) fun sub hsub => ⟨sub, hsub, Or.inl rfl⟩
    · rw [runWaiter_register rest hsub]
      refine hs.frame List.prefix_rfl hnoreg (fun t ht => ?_) fun sub hsub =>
        ⟨sub, (Function.update_of_ne hu _ _).trans hsub, Or.inl rfl⟩
      have ht' : u ∈ Function.update bus.subs sub.taskId (bus.subs sub.taskId ++ [u']) t := ht
      by_cases htask : t = sub.taskId
      · subst htask
        simpa [hu] using ht'
      · rwa [Function.update_of_ne htask] at ht'
  | unregister u' =>
    rcases hsub : bus.subscribers u' with _ | sub
    · rw [(runWaiter_unknown rest hsub).2]
      exact hs.frame List.prefix_rfl hnoreg (fun _ h => h) fun sub hsub => ⟨sub, hsub, Or.inl rfl⟩
    · rw [runWaiter_unregister rest hsub]
      refine hs.frame List.prefix_rfl hnoreg (fun t ht => ?_) fun sub hsub => ⟨sub, hsub, Or.inl rfl⟩
      have ht' : u ∈ Function.update bus.subs sub.taskId ((bus.subs sub.taskId).erase u') t := ht
      by_cases htask : t = sub.taskId
      · subst htask
        rw [Function.update_self] at ht'
        exact List.mem_of_mem_erase ht'
      · rwa [Function.update_of_ne htask] at ht'
  | cleanup t =>
    refine hs.frame List.prefix_rfl hnoreg (fun t' ht' => ?_) fun sub hsub => ⟨sub, hsub, Or.inl rfl⟩
    have h' : u ∈ Function.update bus.subs t [] t' := ht'
    by_cases htask : t' = t
    · subst htask
      rw [Function.update_self] at h'
      exact absurd h' List.not_mem_nil
    · rwa [Function.update_of_ne htask] at h'

/-- Whatever happens, the released subscriber goes on. -/
theorem Detached.step {a : BusAction ε} {o : Option (SubId × LogEntry ε)}
    (hs : Detached isTerminal u taskId evs out bus)
    (h : bus.step cfg isTerminal a = some (bus', o)) :
    Detached isTerminal u taskId (evs ++ eventsOf taskId a) (out ++ yieldOf u o) bus' := by
  have hconcat : ∀ w : Waiter ε, w ≠ .register u → .register u ∉ bus.lock ++ [w] := by
    intro w hw hmem
    rcases List.mem_append.mp hmem with hmem | hmem
    · exact hs.noRegister hmem
    · exact hw (List.mem_singleton.mp hmem).symm
  obtain ⟨sub, evs₀, hsub, htask, hevs₀, hrest⟩ := hs.resting
  cases busTurn_of_step h with
  | publish t event =>
    rw [yieldOf, List.append_nil]
    exact hs.frame (List.prefix_append _ _) (hconcat _ (by simp)) (fun _ h => h)
      fun sub hsub => ⟨sub, hsub, Or.inl rfl⟩
  | @subscribe v t afterEventId hnone =>
    simp only [yieldOf, eventsOf, List.append_nil]
    have hv : v ≠ u := by
      rintro rfl
      rw [hsub] at hnone
      exact absurd hnone (by simp)
    exact hs.frame List.prefix_rfl (hconcat _ (by simp [hv])) (fun _ h => h) fun sub hsub =>
      ⟨sub, (Function.update_of_ne (Ne.symm hv) _ _).trans hsub, Or.inl rfl⟩
  | @unsubscribe v sub' hsub' hph hleft =>
    simp only [yieldOf, eventsOf, List.append_nil]
    by_cases hv : v = u
    · subst hv
      obtain rfl := Option.some_inj.mp (hsub'.symm.trans hsub)
      exact ⟨hconcat _ (by simp), _, evs₀, Function.update_self .., htask, hevs₀,
        ⟨hrest.yielded.reached, hrest.yielded.running, hrest.yielded.ended⟩,
        fun h => absurd h (by simp)⟩
    · exact hs.frame List.prefix_rfl (hconcat _ (by simp)) (fun _ h => h) fun sub hsub =>
        ⟨sub, (Function.update_of_ne (Ne.symm hv) _ _).trans hsub, Or.inl rfl⟩
  | cleanup t =>
    simp only [yieldOf, eventsOf, List.append_nil]
    exact hs.frame List.prefix_rfl (hconcat _ (by simp)) (fun _ h => h)
      fun sub hsub => ⟨sub, hsub, Or.inl rfl⟩
  | grant hlock =>
    simp only [yieldOf, eventsOf, List.append_nil]
    exact hs.grant hlock
  | @next v sub' sub'' o hsub' hleft hiter =>
    simp only [eventsOf, List.append_nil]
    rw [yieldOf_map]
    by_cases hv : v = u
    · subst hv
      obtain rfl := Option.some_inj.mp (hsub'.symm.trans hsub)
      rw [if_pos rfl]
      obtain ⟨-, -, -, htask', -, -⟩ := hiter.frame
      exact ⟨hs.noRegister, sub'', evs₀, Function.update_self .., htask'.trans htask, hevs₀,
        hrest.iterStep hleft hiter⟩
    · rw [if_neg hv, List.append_nil]
      exact hs.frame List.prefix_rfl hs.noRegister (fun _ h => h) fun sub hsub =>
        ⟨sub, (Function.update_of_ne (Ne.symm hv) _ _).trans hsub, Or.inl rfl⟩
  | tick dt =>
    simp only [yieldOf, eventsOf, List.append_nil]
    exact hs.frame List.prefix_rfl hs.noRegister (fun _ h => h)
      fun sub hsub => ⟨sub, hsub, Or.inl rfl⟩

theorem publishedOf_concat (tr : BusTrace ε) (q : BusAction ε × Option (SubId × LogEntry ε)) :
    publishedOf taskId (tr ++ [q]) = publishedOf taskId tr ++ eventsOf taskId q.1 := by
  simp [publishedOf]

theorem yieldedBy_concat (tr : BusTrace ε) (q : BusAction ε × Option (SubId × LogEntry ε)) :
    yieldedBy u (tr ++ [q]) = yieldedBy u tr ++ yieldOf u q.2 := by
  simp [yieldedBy]

theorem busInv_of_run {tr : BusTrace ε}
    (hrun : Run (InMemoryEventBus.step cfg isTerminal) (DeliveryOk cfg isTerminal u taskId) {} tr
      bus) :
    BusInv isTerminal u taskId (publishedOf taskId tr) (yieldedBy u tr) bus ∨
      Detached isTerminal u taskId (publishedOf taskId tr) (yieldedBy u tr) bus := by
  refine hrun.forward (P := fun tr bus =>
    BusInv isTerminal u taskId (publishedOf taskId tr) (yieldedBy u tr) bus ∨
      Detached isTerminal u taskId (publishedOf taskId tr) (yieldedBy u tr) bus)
    (fun tr s a s' o hs hok hstep => ?_) ?_
  · rw [publishedOf_concat, yieldedBy_concat]
    rcases hs with hs | hs
    · cases hpurges : s.purges cfg taskId a with
      | false => exact Or.inl (hs.step hpurges hok hstep)
      | true => exact Or.inr ((hs.detached (hok.1 hpurges)).step hstep)
    · exact Or.inr (hs.step hstep)
  · exact Or.inl ⟨⟨rfl, List.suffix_rfl, List.suffix_rfl⟩, fun _ => ⟨rfl, by simp, by simp⟩,
      fun _ _ h => absurd h (by simp), fun _ _ => by simp, fun _ h => absurd h (by simp)⟩

end

/-- A subscriber that has nothing left to yield: it has ended, or it is registered and
waits for more while no publisher waits for the lock. -/
def CaughtUp (taskId : TaskId) (bus : InMemoryEventBus ε) (sub : Subscriber ε) : Prop :=
  sub.phase = .ended ∨
    (sub.phase = .live ∧ sub.left = false ∧ sub.parked = true ∧ pendingFor taskId bus.lock = [])

/-- A subscriber that has caught up with a live stream has the whole log. -/
theorem SubInv.caughtUp {isTerminal : ε → Bool} {u : SubId} {taskId : TaskId} {evs : List ε}
    {lock : List (Waiter ε)} {listed : Prop} {sub : Subscriber ε} {out : List (LogEntry ε)}
    (hs : SubInv isTerminal u taskId (numbered evs) lock listed sub out)
    (hlive : sub.phase = .live) (hleft : sub.left = false) (hparked : sub.parked = true)
    (hpending : pendingFor taskId lock = []) : (numbered evs).drop sub.base = out := by
  obtain ⟨-, -, p, tail, hq, htail⟩ := hs.registered (by simp [hlive]) hleft
  obtain ⟨hhanded, hqueue⟩ := hq.parked hparked
  have hitems : sub.items = [] := by rw [Subscriber.items, hhanded, hqueue]; rfl
  have hnothing : sub.endAhead isTerminal (numbered evs) = false := by
    simp [Subscriber.endAhead, Subscriber.ahead, hitems, hlive, IterPhase.isEnded]
  have htail' := (htail.resolve_right fun h => absurd (hnothing.symm.trans h.2) (by simp)).2
  -- queue and lock are empty, so everything has left the queue
  have hempty : (numbered evs).drop p = [] := by
    rw [← hq.queue, hitems, htail', hpending]
    rfl
  have hp := List.drop_eq_nil_iff.mp hempty
  have hpos := hq.position
  rw [Position, hlive] at hpos
  obtain ⟨l, hl, hmax, -⟩ := hpos
  rw [drop_eq_append hs.yielded.reached, List.drop_eq_nil_of_le (by omega), List.append_nil]

/-- **Exactly once.**  In every run, what a subscriber of the task has yielded is a
prefix of the events published after its start position, numbered consecutively from
there and cut right after the first stream-terminal one; when it has caught up, it is
all of them. -/
theorem delivered_exactly_once {cfg : BusConfig} {isTerminal : ε → Bool} {u : SubId}
    {taskId : TaskId} {tr : BusTrace ε} {bus : InMemoryEventBus ε} {sub : Subscriber ε}
    (hrun : Run (InMemoryEventBus.step cfg isTerminal) (DeliveryOk cfg isTerminal u taskId) {} tr
      bus)
    (hsub : bus.subscribers u = some sub) (htask : sub.taskId = taskId) :
    yieldedBy u tr <+: untilFirst (fun entry => isTerminal entry.event)
        ((numbered (publishedOf taskId tr)).drop sub.base) ∧
      (CaughtUp taskId bus sub →
        yieldedBy u tr = untilFirst (fun entry => isTerminal entry.event)
          ((numbered (publishedOf taskId tr)).drop sub.base)) := by
  -- what the subscriber has yielded so far, and where it stands if it goes on
  obtain ⟨hy, hlive⟩ : Yielded isTerminal (numbered (publishedOf taskId tr)) sub (yieldedBy u tr) ∧
      (sub.phase = .live → sub.left = false → sub.parked = true → pendingFor taskId bus.lock = [] →
        (numbered (publishedOf taskId tr)).drop sub.base = yieldedBy u tr) := by
    rcases busInv_of_run hrun with hs | ⟨-, sub', evs₀, hsub', -, hevs₀, hrest⟩
    · have hinv := hs.present sub hsub htask
      exact ⟨hinv.yielded, hinv.caughtUp⟩
    · obtain rfl := Option.some_inj.mp (hsub.symm.trans hsub')
      refine ⟨?_, fun hph hleft hparked => ?_⟩
      · obtain ⟨later, hlater⟩ := hevs₀
        have hlog : numbered evs₀ <+: numbered (publishedOf taskId tr) := by
          rw [← hlater, numbered, numbered, List.mapIdx_append]
          exact List.prefix_append _ _
        exact ⟨hrest.yielded.reached.trans (hlog.drop _), hrest.yielded.running,
          hrest.yielded.ended⟩
      · -- a subscriber that waits for more does not have its end ahead
        obtain ⟨-, -, -, hend, p, tail, hq⟩ := hrest.active hleft (by simp [hph])
        obtain ⟨hhanded, hqueue⟩ := hq.parked hparked
        simp [Subscriber.endAhead, Subscriber.ahead, Subscriber.items, hhanded, hqueue, hph,
          IterPhase.isEnded] at hend
  by_cases hph : sub.phase = .ended
  · obtain ⟨init, entry, hout, hinit, hterm⟩ := hy.ended hph
    have hreach := hy.reached
    rw [hout] at hreach ⊢
    have heq := untilFirst_eq_concat (fun entry => isTerminal entry.event) hreach hinit hterm
    rw [heq]
    exact ⟨List.prefix_rfl, fun _ => rfl⟩
  · have hrunning := hy.running hph
    refine ⟨prefix_untilFirst _ hy.reached hrunning, fun hcaught => ?_⟩
    obtain ⟨hstream, hleft, hparked, hpending⟩ := hcaught.resolve_left hph
    rw [hlive hstream hleft hparked hpending, untilFirst_of_forall _ hrunning]

/-- After a cleanup a subscriber asks for what follows event 1 while event 2, which ends the
stream, is being published: the event is in its queue and in the replay buffer.  The task is
cleaned up again before the replay starts. -/
def overlap : List (BusAction String) :=
  [.publish "t" "a", .grant, .cleanup "t", .grant, .subscribe 0 "t" (some 1), .publish "t" "end",
    .grant, .grant, .cleanup "t", .grant, .next 0, .next 0, .next 0]

theorem overlap_exactly_once : ∃ tr bus sub,
    Run (InMemoryEventBus.step ⟨8, 8, 60⟩ (· == "end"))
        (DeliveryOk ⟨8, 8, 60⟩ (· == "end") 0 "t") {} tr bus ∧
      bus.subscribers 0 = some sub ∧ yieldedBy 0 tr = [⟨2, "end"⟩] ∧
      yieldedBy 0 tr = untilFirst (fun entry => entry.event == "end")
        ((numbered (publishedOf "t" tr)).drop 1) := by
  have hrun := run_finalState (InMemoryEventBus.step ⟨8, 8, 60⟩ (· == "end"))
    (DeliveryOk ⟨8, 8, 60⟩ (· == "end") 0 "t") {} overlap rfl
  exact ⟨_, _, _, hrun, rfl, by decide, (delivered_exactly_once hrun rfl rfl).2 (Or.inl rfl)⟩

end InMemoryEventBus

end A2AKit
