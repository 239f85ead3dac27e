/-
Who sees the end of a stream.

A subscriber learns that a stream has ended from its stream-terminal event, which must
find room in the subscriber's queue and must not be taken for a duplicate.  Neither
is certain: a full queue drops the event, `cleanup` forgets the subscribers of a
task while a publisher still waits for the lock, a purge starts the ids again from 1,
and a replay that starts late may jump over the event.  `SeenOk` says that none of
these happens to the terminal events of a task and a subscriber.

* `end_seen` — in such runs, whoever was registered when a terminal event was published
  and has consumed its queue has yielded that event or an earlier terminal one, and
  its iteration has ended.

The argument follows one terminal event `m`.  Ahead of it, in the lock and in the
queue, are only smaller ids (`Coming`), and the duplicate filter of the subscriber
lets `m` through (`Passes`).
-/
import A2AKit.EventDelivery

namespace A2AKit

variable {ε : Type}

/-- The subscriber has consumed what it was given: its iteration is over, or its replay
is and its queue is empty. -/
def Subscriber.Exhausted (sub : Subscriber ε) : Prop :=
  sub.phase = .ended ∨ sub.phase = .live ∧ sub.items = []

namespace InMemoryEventBus

/-- The subscriber is registered for the task and goes on iterating. -/
def listens (u : SubId) (taskId : TaskId) (bus : InMemoryEventBus ε) : Bool :=
  decide (u ∈ bus.subs taskId) &&
    (bus.subscribers u).any fun sub => !sub.left && !sub.phase.isEnded

/-- A replay of what is newer than `k` does not jump over a terminal event of `entries`. -/
def JumpFree (isTerminal : ε → Bool) (buf entries : List (LogEntry ε)) (k : Nat) : Prop :=
  ∀ entry ∈ entries, isTerminal entry.event = true →
    ∀ e ∈ buf, k < e.id → entry.id ≤ e.id → entry ∈ buf ∧ k < entry.id

/-- The first waiter gets the lock: a terminal event that is fanned out finds room in the
subscriber's queue, and the task is not cleaned up while a terminal event waits. -/
def GrantOk (cfg : BusConfig) (isTerminal : ε → Bool) (u : SubId) (taskId : TaskId)
    (bus : InMemoryEventBus ε) : List (Waiter ε) → Prop
  | .publish t entry :: _ => t = taskId → isTerminal entry.event = true →
    bus.listens u taskId = true → ∀ sub ∈ bus.subscribers u, sub.hasRoom cfg.eventBuffer = true
  | .cleanup t :: rest => t = taskId → bus.listens u taskId = true →
    ∀ entry ∈ pendingFor taskId rest, isTerminal entry.event = false
  | _ => True

/-- The conditions on a step, for the subscriber `u` of the task: the lock is granted as
`GrantOk` says, a replay starts as `JumpFree` says, and the replay state is not
purged while the subscriber is registered or an event of the task waits for the lock. -/
def SeenOk (cfg : BusConfig) (isTerminal : ε → Bool) (u : SubId) (taskId : TaskId)
    (bus : InMemoryEventBus ε) (a : BusAction ε) : Prop :=
  (bus.purges cfg taskId a = true → u ∉ bus.subs taskId ∧ pendingFor taskId bus.lock = []) ∧
    match a with
    | .grant => GrantOk cfg isTerminal u taskId bus bus.lock
    | .next v => v = u → ∀ sub ∈ bus.subscribers u, sub.phase.isStart = true →
      ∀ k ∈ sub.afterEventId, JumpFree isTerminal (bus.replayBuffers taskId)
        (sub.items ++ pendingFor taskId bus.lock) k
    | _ => True

instance [DecidableEq ε] (isTerminal : ε → Bool) (buf entries : List (LogEntry ε)) (k : Nat) :
    Decidable (JumpFree isTerminal buf entries k) :=
  inferInstanceAs (Decidable (∀ _ ∈ _, _))

instance (cfg : BusConfig) (isTerminal : ε → Bool) (u : SubId) (taskId : TaskId)
    (bus : InMemoryEventBus ε) (lock : List (Waiter ε)) :
    Decidable (GrantOk cfg isTerminal u taskId bus lock) :=
  match lock with
  | .publish .. :: _ => inferInstanceAs (Decidable (_ → _))
  | .cleanup .. :: _ => inferInstanceAs (Decidable (_ → _))
  | [] | .register .. :: _ | .unregister .. :: _ => isTrue trivial

instance [DecidableEq ε] (cfg : BusConfig) (isTerminal : ε → Bool) (u : SubId) (taskId : TaskId)
    (bus : InMemoryEventBus ε) (a : BusAction ε) :
    Decidable (SeenOk cfg isTerminal u taskId bus a) :=
  match a with
  | .publish .. | .subscribe .. | .unsubscribe .. | .cleanup .. | .tick .. =>
    inferInstanceAs (Decidable (_ ∧ True))
  | .next .. => inferInstanceAs (Decidable (_ ∧ (_ → _)))
  | .grant => inferInstanceAs (Decidable (_ ∧ GrantOk cfg isTerminal u taskId bus bus.lock))

section

variable {cfg : BusConfig} {isTerminal : ε → Bool} {u : SubId} {taskId : TaskId}
  {bus bus' : InMemoryEventBus ε} {out : List (LogEntry ε)} {sub sub' : Subscriber ε}

theorem purgeExpired_of_expired {t : TaskId} (h : bus.expired t = true) :
    bus.purgeExpired.counters t = 0 ∧ bus.purgeExpired.replayBuffers t = [] := by
  rw [expired] at h
  simp [purgeExpired, h]

/-! ### Before the event -/

/-- Nothing the subscriber has seen or will see lies beyond `n`. -/
structure Below (isTerminal : ε → Bool) (n : Nat) (out : List (LogEntry ε)) (sub : Subscriber ε) :
    Prop where
  snapshot : sub.snapshotId ≤ n
  yielded : sub.lastYieldedId ≤ n
  replay : ∀ rest, sub.phase = .replaying rest → ∀ e ∈ rest, e.id ≤ n
  items : ∀ e ∈ sub.items, e.id ≤ n
  ended : sub.phase = .ended → ∃ e ∈ out, isTerminal e.event = true ∧ e.id ≤ n

theorem Below.mono {n n' : Nat} (h : Below isTerminal n out sub) (hn : n ≤ n') :
    Below isTerminal n' out sub where
  snapshot := le_trans h.snapshot hn
  yielded := le_trans h.yielded hn
  replay := fun rest hph e he => le_trans (h.replay rest hph e he) hn
  items := fun e he => le_trans (h.items e he) hn
  ended := fun hph => by
    obtain ⟨e, he, hterm, hid⟩ := h.ended hph
    exact ⟨e, he, hterm, le_trans hid hn⟩

theorem items_send {n : Nat} {entry e : LogEntry ε} (he : e ∈ (sub.send n entry).items) :
    e ∈ sub.items ∨ e = entry := by
  rw [Subscriber.items, Subscriber.send] at he
  split at he
  · simp only [Option.toList_some, List.cons_append, List.nil_append, List.mem_cons] at he
    rcases he with rfl | he
    · exact Or.inr rfl
    · exact Or.inl (List.mem_append_right _ he)
  · split at he
    · rw [← List.append_assoc] at he
      exact (List.mem_append.mp he).imp_right List.mem_singleton.mp
    · exact Or.inl he

theorem Below.send {n k : Nat} {entry : LogEntry ε} (h : Below isTerminal n out sub)
    (hid : entry.id ≤ n) : Below isTerminal n out (sub.send k entry) := by
  obtain ⟨-, -, -, hsnap, hyield⟩ := send_frame sub k entry
  refine ⟨hsnap ▸ h.snapshot, hyield ▸ h.yielded, ?_, fun e he => ?_, ?_⟩
  · rw [send_phase]
    exact h.replay
  · rcases items_send he with he | rfl
    · exact h.items e he
    · exact hid
  · rw [send_phase]
    exact h.ended

theorem Below.iterStep {n : Nat} {buf : List (LogEntry ε)} {o : Option (LogEntry ε)}
    (h : Below isTerminal n out sub) (hbuf : ∀ e ∈ buf, e.id ≤ n)
    (hstep : IterStep isTerminal buf sub sub' o) :
    Below isTerminal n (out ++ o.toList) sub' := by
  cases hstep with
  | replay hph hafter =>
    refine ⟨h.snapshot, Nat.zero_le n, fun rest heq => ?_, h.items, by simp⟩
    obtain rfl := IterPhase.replaying.inj heq
    exact hbuf
  | bookmark hph hafter => exact ⟨h.snapshot, h.snapshot, by simp, h.items, by simp⟩
  | goLive hph => exact ⟨h.snapshot, h.yielded, by simp, h.items, by simp⟩
  -- a terminal entry ends the subscription, and it has just been yielded
  | @replayed entry rest hph hid =>
    have hle := h.replay _ hph entry List.mem_cons_self
    refine ⟨h.snapshot, hle, fun rest' heq e he => ?_, h.items, fun heq => ?_⟩
    · dsimp only at heq
      split at heq
      · simp at heq
      · obtain rfl := IterPhase.replaying.inj heq
        exact h.replay _ hph e (List.mem_cons_of_mem _ he)
    · dsimp only at heq
      split at heq
      · rename_i hterm
        exact ⟨entry, List.mem_append_right _ (List.mem_singleton_self _), hterm, hle⟩
      · simp at heq
  | @older entry rest hph hid =>
    refine ⟨h.snapshot, h.yielded, fun rest' heq e he => ?_, h.items, by simp⟩
    obtain rfl := IterPhase.replaying.inj heq
    exact h.replay _ hph e (List.mem_cons_of_mem _ he)
  -- the entry is dropped, so only the items get fewer
  | @duplicate entry sub₁ hph hrecv hid =>
    obtain ⟨hitems, handed, queue, rfl⟩ := receive_some hrecv
    refine ⟨h.snapshot, h.yielded, fun rest heq => ?_, fun e he => h.items e ?_, fun heq => ?_⟩
    · exact absurd (hph.symm.trans heq) (by simp)
    · rw [hitems]
      exact List.mem_cons_of_mem _ he
    · exact absurd (hph.symm.trans heq) (by simp)
  | @received entry sub₁ hph hrecv hid =>
    obtain ⟨hitems, handed, queue, rfl⟩ := receive_some hrecv
    refine ⟨h.snapshot, h.yielded, fun rest heq => ?_, fun e he => h.items e ?_, fun heq => ?_⟩
    · dsimp only at heq
      split at heq <;> simp at heq
    · rw [hitems]
      exact List.mem_cons_of_mem _ he
    · dsimp only at heq
      split at heq
      · rename_i hterm
        refine ⟨entry, List.mem_append_right _ (List.mem_singleton_self _), hterm, h.items entry ?_⟩
        rw [hitems]
        exact List.mem_cons_self
      · simp at heq
  | park hph hrecv hparked =>
    refine ⟨h.snapshot, h.yielded, fun rest heq => ?_, h.items, fun heq => ?_⟩
    · exact absurd (hph.symm.trans heq) (by simp)
    · exact absurd (hph.symm.trans heq) (by simp)

/-! ### The bus, as a subscriber sees it -/

/-- What holds of the subscriber `u` and the task in every run that meets `SeenOk`, when
`u` has yielded `out`. -/
structure Sound (isTerminal : ε → Bool) (u : SubId) (taskId : TaskId) (bus : InMemoryEventBus ε)
    (out : List (LogEntry ε)) : Prop where
  registered : ∀ t, u ∈ bus.subs t →
    ∃ sub, bus.subscribers u = some sub ∧ sub.taskId = t ∧ sub.phase ≠ .subscribing
  registering : .register u ∈ bus.lock →
    ∃ sub, bus.subscribers u = some sub ∧ sub.phase = .subscribing
  once : bus.lock.Pairwise fun w w' => w = .register u → w' ≠ .register u
  leaving : .unregister u ∈ bus.lock →
    ∃ sub, bus.subscribers u = some sub ∧ sub.left = true ∧ sub.phase ≠ .subscribing
  fresh : ∀ sub, bus.subscribers u = some sub → sub.phase = .subscribing →
    sub.lastYieldedId = 0 ∧ sub.items = []
  parked : ∀ sub, bus.subscribers u = some sub → sub.parked = true →
    sub.handed = none ∧ sub.queue = []
  buffer : (bus.replayBuffers taskId).Pairwise (fun e e' => e.id < e'.id)
  buffer_le : ∀ e ∈ bus.replayBuffers taskId, e.id ≤ bus.counters taskId
  pending : ∀ e ∈ pendingFor taskId bus.lock, e.id ≤ bus.counters taskId
  below : u ∈ bus.subs taskId → ∀ sub, bus.subscribers u = some sub →
    Below isTerminal (bus.counters taskId) out sub

/-- The subscriber is left alone. -/
theorem Sound.frame (h : Sound isTerminal u taskId bus out)
    (hsub : bus'.subscribers u = bus.subscribers u) (hsubs : ∀ t, u ∈ bus'.subs t → u ∈ bus.subs t)
    (hregister : .register u ∈ bus'.lock → .register u ∈ bus.lock)
    (honce : bus'.lock.Pairwise fun w w' => w = .register u → w' ≠ .register u)
    (hunregister : .unregister u ∈ bus'.lock → .unregister u ∈ bus.lock)
    (hbuffer : (bus'.replayBuffers taskId).Pairwise (fun e e' => e.id < e'.id))
    (hbuffer_le : ∀ e ∈ bus'.replayBuffers taskId, e.id ≤ bus'.counters taskId)
    (hpending : ∀ e ∈ pendingFor taskId bus'.lock, e.id ≤ bus'.counters taskId)
    (hcounter : u ∈ bus'.subs taskId → bus.counters taskId ≤ bus'.counters taskId) :
    Sound isTerminal u taskId bus' out where
  registered := fun t ht => by
    rw [hsub]
    exact h.registered t (hsubs t ht)
  registering := fun hw => by
    rw [hsub]
    exact h.registering (hregister hw)
  once := honce
  leaving := fun hw => by
    rw [hsub]
    exact h.leaving (hunregister hw)
  fresh := by
    rw [hsub]
    exact h.fresh
  parked := by
    rw [hsub]
    exact h.parked
  buffer := hbuffer
  buffer_le := hbuffer_le
  pending := hpending
  below := fun hu sub hs => by
    rw [hsub] at hs
    exact (h.below (hsubs taskId hu) sub hs).mono (hcounter hu)

theorem Sound.purge (h : Sound isTerminal u taskId bus out)
    (hok : bus.expired taskId = true → u ∉ bus.subs taskId ∧ pendingFor taskId bus.lock = []) :
    Sound isTerminal u taskId bus.purgeExpired out := by
  by_cases hexp : bus.expired taskId = true
  · obtain ⟨hcounter, hbuffer⟩ := purgeExpired_of_expired hexp
    obtain ⟨hu, hpending⟩ := hok hexp
    refine h.frame rfl (fun t ht => ht) id h.once id ?_ ?_ ?_ ?_
    · rw [hbuffer]
      exact List.Pairwise.nil
    · rw [hbuffer]
      exact fun e he => absurd he List.not_mem_nil
    · show ∀ e ∈ pendingFor taskId bus.lock, _
      rw [hpending]
      exact fun e he => absurd he List.not_mem_nil
    · exact fun hu' => absurd hu' hu
  · obtain ⟨hcounter, hbuffer⟩ := purgeExpired_of_not (Bool.eq_false_iff.mpr hexp)
    refine h.frame rfl (fun t ht => ht) id h.once id ?_ ?_ ?_ ?_
    · rw [hbuffer]
      exact h.buffer
    · rw [hbuffer, hcounter]
      exact h.buffer_le
    · rw [hcounter]
      exact h.pending
    · rw [hcounter]
      exact fun _ => le_refl _

theorem once_concat {w : Waiter ε}
    (h : bus.lock.Pairwise fun w w' => w = .register u → w' ≠ .register u)
    (hw : .register u ∈ bus.lock → w ≠ .register u) :
    (bus.lock ++ [w]).Pairwise fun w w' => w = .register u → w' ≠ .register u := by
  refine List.pairwise_append.mpr ⟨h, List.pairwise_singleton _ _, fun a ha b hb heq => ?_⟩
  rw [List.mem_singleton.mp hb]
  exact hw (heq ▸ ha)

theorem mem_concat_of_ne {w w' : Waiter ε} {lock : List (Waiter ε)} (hne : w ≠ w')
    (h : w ∈ lock ++ [w']) : w ∈ lock := by
  rcases List.mem_append.mp h with h | h
  · exact h
  · exact absurd (List.mem_singleton.mp h) hne

/-- `publish` up to the lock. -/
theorem Sound.publish (h : Sound isTerminal u taskId bus out) (t : TaskId) (event : ε)
    (hok : bus.expired taskId = true → u ∉ bus.subs taskId ∧ pendingFor taskId bus.lock = []) :
    Sound isTerminal u taskId (bus.publish cfg t event) out := by
  have h₁ := h.purge hok
  have hlock : (bus.publish cfg t event).lock = bus.purgeExpired.lock ++
      [.publish t ⟨bus.purgeExpired.counters t + 1, event⟩] := rfl
  by_cases ht : t = taskId
  · subst ht
    have hcounter : (bus.publish cfg t event).counters t = bus.purgeExpired.counters t + 1 :=
      Function.update_self _ _ _
    have hbuffer : (bus.publish cfg t event).replayBuffers t =
        appendBounded cfg.replayBufferSize (bus.purgeExpired.replayBuffers t)
          ⟨bus.purgeExpired.counters t + 1, event⟩ := Function.update_self _ _ _
    refine h₁.frame rfl (fun _ hu => hu) (mem_concat_of_ne (by simp))
      (once_concat h₁.once (by simp)) (mem_concat_of_ne (by simp)) ?_ ?_ ?_ ?_
    · rw [hbuffer, appendBounded]
      -- the buffer may drop its oldest entries, and the new id is above all of the others
      refine List.Pairwise.sublist (List.drop_sublist _ _)
        (List.pairwise_append.mpr ⟨h₁.buffer, List.pairwise_singleton _ _, fun a ha b hb => ?_⟩)
      rw [List.mem_singleton.mp hb]
      exact Nat.lt_succ_of_le (h₁.buffer_le a ha)
    · rw [hbuffer, hcounter, appendBounded]
      intro e he
      rcases List.mem_append.mp (List.mem_of_mem_drop he) with he | he
      · exact Nat.le_succ_of_le (h₁.buffer_le e he)
      · rw [List.mem_singleton.mp he]
    · rw [hcounter, hlock, pendingFor_append, pendingFor_publish]
      intro e he
      rcases List.mem_append.mp he with he | he
      · exact Nat.le_succ_of_le (h₁.pending e he)
      · rw [List.mem_singleton.mp he]
    · rw [hcounter]
      exact fun _ => Nat.le_succ _
  · have hcounter : (bus.publish cfg t event).counters taskId = bus.purgeExpired.counters taskId :=
      Function.update_of_ne (Ne.symm ht) _ _
    have hbuffer : (bus.publish cfg t event).replayBuffers taskId =
        bus.purgeExpired.replayBuffers taskId := Function.update_of_ne (Ne.symm ht) _ _
    refine h₁.frame rfl (fun _ hu => hu) (mem_concat_of_ne (by simp))
      (once_concat h₁.once (by simp)) (mem_concat_of_ne (by simp)) ?_ ?_ ?_ ?_
    · rw [hbuffer]
      exact h₁.buffer
    · rw [hbuffer, hcounter]
      exact h₁.buffer_le
    · rw [hcounter, hlock, pendingFor_append]
      simpa [pendingFor, ht] using h₁.pending
    · rw [hcounter]
      exact fun _ => le_refl _

/-- The subscriber, which is registered or was so, is changed. -/
theorem Sound.update {out' : List (LogEntry ε)} (h : Sound isTerminal u taskId bus out)
    (hsub : bus.subscribers u = some sub) (hsub' : bus'.subscribers u = some sub')
    (hsubs : bus'.subs = bus.subs) (hcounters : bus'.counters = bus.counters)
    (hbuffers : bus'.replayBuffers = bus.replayBuffers)
    (hregister : .register u ∈ bus'.lock → .register u ∈ bus.lock)
    (honce : bus'.lock.Pairwise fun w w' => w = .register u → w' ≠ .register u)
    (hunregister : .unregister u ∈ bus'.lock → sub'.left = true)
    (hpending : ∀ e ∈ pendingFor taskId bus'.lock, e ∈ pendingFor taskId bus.lock)
    (htask : sub'.taskId = sub.taskId) (hph : sub.phase ≠ .subscribing)
    (hph' : sub'.phase ≠ .subscribing)
    (hparked : sub'.parked = true → sub'.handed = none ∧ sub'.queue = [])
    (hbelow : u ∈ bus.subs taskId → Below isTerminal (bus.counters taskId) out' sub') :
    Sound isTerminal u taskId bus' out' where
  registered := fun t ht => by
    obtain ⟨sub₁, hsub₁, htask₁, -⟩ := h.registered t (hsubs ▸ ht)
    obtain rfl := Option.some.inj (hsub.symm.trans hsub₁)
    exact ⟨sub', hsub', htask.trans htask₁, hph'⟩
  registering := fun hw => by
    obtain ⟨sub₁, hsub₁, hph₁⟩ := h.registering (hregister hw)
    obtain rfl := Option.some.inj (hsub.symm.trans hsub₁)
    exact absurd hph₁ hph
  once := honce
  leaving := fun hw => ⟨sub', hsub', hunregister hw, hph'⟩
  fresh := fun sub₁ hsub₁ hph₁ => by
    obtain rfl := Option.some.inj (hsub'.symm.trans hsub₁)
    exact absurd hph₁ hph'
  parked := fun sub₁ hsub₁ => by
    obtain rfl := Option.some.inj (hsub'.symm.trans hsub₁)
    exact hparked
  buffer := hbuffers ▸ h.buffer
  buffer_le := fun e he => by
    rw [hcounters]
    exact h.buffer_le e (hbuffers ▸ he)
  pending := fun e he => by
    rw [hcounters]
    exact h.pending e (hpending e he)
  below := fun hu sub₁ hsub₁ => by
    obtain rfl := Option.some.inj (hsub'.symm.trans hsub₁)
    rw [hcounters]
    exact hbelow (hsubs ▸ hu)

theorem send_parked (sub : Subscriber ε) (n : Nat) (entry : LogEntry ε) :
    (sub.send n entry).parked = false := by
  unfold Subscriber.send
  split
  · rfl
  · rename_i hparked
    split <;> simpa using hparked

theorem IterStep.parked {buf : List (LogEntry ε)} {o : Option (LogEntry ε)}
    (hstep : IterStep isTerminal buf sub sub' o)
    (h : sub.parked = true → sub.handed = none ∧ sub.queue = []) (hparked : sub'.parked = true) :
    sub'.handed = none ∧ sub'.queue = [] := by
  cases hstep with
  | replay hph hafter | bookmark hph hafter | goLive hph | replayed hph hid | older hph hid =>
    exact h hparked
  | duplicate hph hrecv hid | received hph hrecv hid =>
    -- something was received, so the receiver was not parked
    obtain ⟨hitems, handed, queue, rfl⟩ := receive_some hrecv
    obtain ⟨hhanded, hqueue⟩ := h hparked
    rw [Subscriber.items, hhanded, hqueue] at hitems
    simp at hitems
  | park hph hrecv hnot =>
    show sub.handed = none ∧ sub.queue = []
    exact receive_none hrecv

theorem mem_pendingFor_tail {w : Waiter ε} {rest : List (Waiter ε)} {e : LogEntry ε}
    (h : e ∈ pendingFor taskId rest) : e ∈ pendingFor taskId (w :: rest) := by
  rw [← List.singleton_append, pendingFor_append]
  exact List.mem_append_right _ h

/-- The first waiter is taken off the lock. -/
theorem Sound.tail {w : Waiter ε} {rest : List (Waiter ε)} (h : Sound isTerminal u taskId bus out)
    (hlock : bus.lock = w :: rest) : Sound isTerminal u taskId { bus with lock := rest } out := by
  have honce := h.once
  rw [hlock] at honce
  refine h.frame rfl (fun _ hu => hu) (fun hw => ?_) honce.of_cons (fun hw => ?_) h.buffer
    h.buffer_le (fun e he => h.pending e ?_) (fun _ => le_refl _)
  · rw [hlock]
    exact List.mem_cons_of_mem _ hw
  · rw [hlock]
    exact List.mem_cons_of_mem _ hw
  · rw [hlock]
    exact mem_pendingFor_tail he

/-- A fan-out. -/
theorem Sound.fanOut (h : Sound isTerminal u taskId bus out) {t : TaskId} {entry : LogEntry ε}
    (hid : t = taskId → entry.id ≤ bus.counters taskId) :
    Sound isTerminal u taskId (bus.runWaiter cfg (.publish t entry)) out := by
  by_cases hu : u ∈ bus.subs t
  · obtain ⟨sub, hsub, htask, hph⟩ := h.registered t hu
    have hsub' : (bus.runWaiter cfg (.publish t entry)).subscribers u =
        some (sub.send cfg.eventBuffer entry) := by
      show (if u ∈ bus.subs t then _ else _) = _
      rw [if_pos hu, hsub]
      rfl
    obtain ⟨htask', hleft', -, -, -⟩ := send_frame sub cfg.eventBuffer entry
    refine h.update hsub hsub' rfl rfl rfl id h.once (fun hw => ?_) (fun e he => he) htask' hph ?_ ?_
      (fun hu' => ?_)
    · obtain ⟨sub₁, hsub₁, hleft₁, -⟩ := h.leaving hw
      obtain rfl := Option.some.inj (hsub.symm.trans hsub₁)
      rw [hleft', hleft₁]
    · rw [send_phase]
      exact hph
    · rw [send_parked]
      exact fun hp => absurd hp (by simp)
    · -- a subscriber is registered for its own task only
      obtain ⟨sub₁, hsub₁, htask₁, -⟩ := h.registered taskId hu'
      obtain rfl := Option.some.inj (hsub.symm.trans hsub₁)
      exact (h.below hu' sub hsub).send (hid (htask.symm.trans htask₁))
  · have hsub' : (bus.runWaiter cfg (.publish t entry)).subscribers u = bus.subscribers u := by
      show (if u ∈ bus.subs t then _ else _) = _
      rw [if_neg hu]
    exact h.frame hsub' (fun _ hu => hu) id h.once id h.buffer h.buffer_le h.pending
      (fun _ => le_refl _)

/-- The subscriber gets the lock. -/
theorem Sound.register (h : Sound isTerminal u taskId bus out) (hsub : bus.subscribers u = some sub)
    (hph : sub.phase = .subscribing) (hlock : .register u ∉ bus.lock)
    (hunlock : .unregister u ∉ bus.lock) :
    Sound isTerminal u taskId (bus.runWaiter cfg (.register u)) out := by
  -- a subscriber that still waits for the lock is in no list
  have hnone (t : TaskId) : u ∉ bus.subs t := fun hu => by
    obtain ⟨sub₁, hsub₁, -, hph₁⟩ := h.registered t hu
    obtain rfl := Option.some.inj (hsub.symm.trans hsub₁)
    exact hph₁ hph
  obtain ⟨hyielded, hitems⟩ := h.fresh sub hsub hph
  have hrun : bus.runWaiter cfg (.register u) = _ := runWaiter_register bus.lock hsub
  have hnew : (bus.runWaiter cfg (.register u)).subscribers u =
      some { sub with phase := .start, snapshotId := bus.counters sub.taskId } := by
    rw [hrun]
    exact Function.update_self _ _ _
  have htask {t : TaskId} (hu : u ∈ (bus.runWaiter cfg (.register u)).subs t) : t = sub.taskId := by
    by_contra hne
    rw [hrun] at hu
    have hu' : u ∈ Function.update bus.subs sub.taskId (bus.subs sub.taskId ++ [u]) t := hu
    rw [Function.update_of_ne hne] at hu'
    exact hnone t hu'
  exact {
    registered := fun t hu => ⟨_, hnew, (htask hu).symm, by simp⟩
    registering := fun hw => absurd (by rw [hrun] at hw; exact hw) hlock
    once := by
      rw [hrun]
      exact h.once
    leaving := fun hw => absurd (by rw [hrun] at hw; exact hw) hunlock
    fresh := fun sub₁ hsub₁ hph₁ => by
      obtain rfl := Option.some.inj (hnew.symm.trans hsub₁)
      exact absurd hph₁ (by simp)
    parked := fun sub₁ hsub₁ hparked => by
      obtain rfl := Option.some.inj (hnew.symm.trans hsub₁)
      exact h.parked sub hsub hparked
    buffer := by
      rw [hrun]
      exact h.buffer
    buffer_le := by
      rw [hrun]
      exact h.buffer_le
    pending := by
      rw [hrun]
      exact h.pending
    below := fun hu sub₁ hsub₁ => by
      obtain rfl := Option.some.inj (hnew.symm.trans hsub₁)
      rw [hrun]
      refine ⟨?_, ?_, by simp, fun e he => ?_, by simp⟩
      · rw [← htask hu]
        exact le_refl _
      · show sub.lastYieldedId ≤ _
        rw [hyielded]
        exact Nat.zero_le _
      · have he' : e ∈ sub.items := he
        rw [hitems] at he'
        exact absurd he' List.not_mem_nil }

theorem Sound.runWaiter {w : Waiter ε} {rest : List (Waiter ε)}
    (h : Sound isTerminal u taskId bus out) (hlock : bus.lock = w :: rest)
    (hok : SeenOk cfg isTerminal u taskId bus .grant) :
    Sound isTerminal u taskId ({ bus with lock := rest }.runWaiter cfg w) out := by
  have h₁ := h.tail hlock
  have hmem : w ∈ bus.lock := by
    rw [hlock]
    exact List.mem_cons_self
  cases w with
  -- the entry was pending, so its id is at most the counter
  | publish t entry =>
    refine h₁.fanOut fun ht => h.pending entry ?_
    rw [hlock, ht, pendingFor_publish]
    exact List.mem_cons_self
  | register v =>
    by_cases hv : v = u
    · subst hv
      obtain ⟨sub, hsub, hph⟩ := h.registering hmem
      -- the request stood once in the queue, and no `unregister` can precede it
      refine h₁.register hsub hph (fun hw => ?_) (fun hw => ?_)
      · have honce := h.once
        rw [hlock] at honce
        exact (List.pairwise_cons.mp honce).1 _ hw rfl rfl
      · obtain ⟨sub₁, hsub₁, -, hph₁⟩ := h₁.leaving hw
        obtain rfl := Option.some.inj (hsub.symm.trans hsub₁)
        exact hph₁ hph
    · cases hsub : bus.subscribers v with
      | none =>
        rw [(runWaiter_unknown rest hsub).1]
        exact h₁
      | some sub =>
        rw [runWaiter_register rest hsub]
        refine h₁.frame (Function.update_of_ne (Ne.symm hv) _ _) (fun t hu => ?_) id h₁.once id
          h₁.buffer h₁.buffer_le h₁.pending (fun _ => le_refl _)
        have hu' : u ∈ Function.update bus.subs sub.taskId (bus.subs sub.taskId ++ [v]) t := hu
        rw [Function.update_apply] at hu'
        split at hu'
        · rename_i heq
          rw [heq]
          exact (List.mem_append.mp hu').resolve_right fun hmem' =>
            hv (List.mem_singleton.mp hmem').symm
        · exact hu'
  | unregister v =>
    cases hsub : bus.subscribers v with
    | none =>
      rw [(runWaiter_unknown rest hsub).2]
      exact h₁
    | some sub =>
      rw [runWaiter_unregister rest hsub]
      refine h₁.frame rfl (fun t hu => ?_) id h₁.once id h₁.buffer h₁.buffer_le h₁.pending
        (fun _ => le_refl _)
      have hu' : u ∈ Function.update bus.subs sub.taskId ((bus.subs sub.taskId).erase v) t := hu
      rw [Function.update_apply] at hu'
      split at hu'
      · rename_i heq
        rw [heq]
        exact List.mem_of_mem_erase hu'
      · exact hu'
  | cleanup t =>
    have hsubs {t' : TaskId} (hu : u ∈ Function.update bus.subs t [] t') :
        u ∈ bus.subs t' ∧ t' ≠ t := by
      rw [Function.update_apply] at hu
      split at hu
      · exact absurd hu List.not_mem_nil
      · rename_i hne
        exact ⟨hu, hne⟩
    have h₂ : Sound isTerminal u taskId { bus with
        lock := rest
        subs := Function.update bus.subs t []
        purgeDeadlines := Function.update bus.purgeDeadlines t (some (bus.clock + cfg.replayTtl)) }
        out :=
      h₁.frame rfl (fun t' hu => (hsubs hu).1) id h₁.once id h₁.buffer h₁.buffer_le h₁.pending
        (fun _ => le_refl _)
    refine h₂.purge fun hexp => ?_
    -- a purge of the task happens only when `SeenOk` allows it
    have hpurges : bus.purges cfg taskId .grant = true := by
      rw [purges, hlock]
      by_cases ht : t = taskId
      · subst ht
        simp only [expired, Function.update_self, Option.any_some, decide_eq_true_eq] at hexp
        simp only [if_true, decide_eq_true_eq]
        omega
      · simp only [expired, Function.update_of_ne (Ne.symm ht)] at hexp
        show (if t = taskId then _ else _) = true
        rw [if_neg ht]
        exact hexp
    obtain ⟨hu, hpending⟩ := hok.1 hpurges
    refine ⟨fun hu' => hu (hsubs hu').1, ?_⟩
    rw [hlock] at hpending
    exact List.eq_nil_iff_forall_not_mem.mpr fun e he =>
      absurd (mem_pendingFor_tail he) (by rw [hpending]; exact List.not_mem_nil)

theorem mem_pendingFor_concat {lock : List (Waiter ε)} {w : Waiter ε} {e : LogEntry ε}
    (hw : pendingFor taskId [w] = []) (he : e ∈ pendingFor taskId (lock ++ [w])) :
    e ∈ pendingFor taskId lock := by
  rwa [pendingFor_append, hw, List.append_nil] at he

theorem Sound.step {a : BusAction ε} {o : Option (SubId × LogEntry ε)}
    (h : Sound isTerminal u taskId bus out) (hok : SeenOk cfg isTerminal u taskId bus a)
    (hstep : bus.step cfg isTerminal a = some (bus', o)) :
    Sound isTerminal u taskId bus' (out ++ yieldOf u o) := by
  have hquiet {bus' : InMemoryEventBus ε} (h' : Sound isTerminal u taskId bus' out) :
      Sound isTerminal u taskId bus' (out ++ yieldOf u none) := by
    rwa [yieldOf, List.append_nil]
  cases busTurn_of_step hstep with
  | publish t event => exact hquiet (h.publish t event hok.1)
  | @subscribe v t afterEventId hnone =>
    -- a new subscription of `u` itself, or of another that `u` does not notice
    by_cases hv : v = u
    · subst hv
      have hnew : (bus.setSubscriber v { taskId := t, afterEventId }).subscribers v =
          some { taskId := t, afterEventId } := Function.update_self _ _ _
      refine hquiet {
        registered := fun t' hu => ?_
        registering := fun _ => ⟨_, hnew, rfl⟩
        once := once_concat h.once fun hw => ?_
        leaving := fun hw => ?_
        fresh := fun sub hsub _ => ?_
        parked := fun sub hsub hparked => ?_
        buffer := h.buffer
        buffer_le := h.buffer_le
        pending := fun e he => h.pending e ?_
        below := fun hu => ?_ }
      · obtain ⟨sub, hsub, -⟩ := h.registered t' hu
        rw [hnone] at hsub
        simp at hsub
      · obtain ⟨sub, hsub, -⟩ := h.registering hw
        rw [hnone] at hsub
        simp at hsub
      · obtain ⟨sub, hsub, -⟩ := h.leaving (mem_concat_of_ne (by simp) hw)
        rw [hnone] at hsub
        simp at hsub
      · obtain rfl := Option.some.inj (hnew.symm.trans hsub)
        exact ⟨rfl, rfl⟩
      · obtain rfl := Option.some.inj (hnew.symm.trans hsub)
        exact ⟨rfl, rfl⟩
      · exact mem_pendingFor_concat rfl he
      · obtain ⟨sub, hsub, -⟩ := h.registered taskId hu
        rw [hnone] at hsub
        simp at hsub
    · refine hquiet (h.frame (Function.update_of_ne (Ne.symm hv) _ _) (fun _ hu => hu)
        (mem_concat_of_ne (by simpa using Ne.symm hv)) (once_concat h.once fun _ => by simpa using hv)
        (mem_concat_of_ne (by simp)) h.buffer h.buffer_le 
        (fun e he => h.pending e (mem_pendingFor_concat rfl he)) (fun _ => le_refl _))
  | @unsubscribe v sub hsub hph hleft =>
    by_cases hv : v = u
    · subst hv
      refine hquiet (h.update hsub (Function.update_self _ _ _) rfl rfl rfl
        (mem_concat_of_ne (by simp)) (once_concat h.once (by simp)) (fun _ => rfl)
        (fun e he => mem_pendingFor_concat rfl he) rfl hph hph (h.parked sub hsub) (fun hu => ?_))
      exact { h.below hu sub hsub with }
    · exact hquiet (h.frame (Function.update_of_ne (Ne.symm hv) _ _) (fun _ hu => hu)
        (mem_concat_of_ne (by simp)) (once_concat h.once (by simp))
        (mem_concat_of_ne (by simpa using Ne.symm hv)) h.buffer h.buffer_le
        (fun e he => h.pending e (mem_pendingFor_concat rfl he)) (fun _ => le_refl _))
  | cleanup t =>
    refine hquiet (h.frame rfl (fun _ hu => hu) (mem_concat_of_ne (by simp))
      (once_concat h.once (by simp)) (mem_concat_of_ne (by simp)) h.buffer h.buffer_le
      (fun e he => h.pending e (mem_pendingFor_concat rfl he)) (fun _ => le_refl _))
  | grant hlock => exact hquiet (h.runWaiter hlock hok)
  | @next v sub sub' o hsub hleft hiter =>
    rw [yieldOf_map]
    -- only an iteration of `u` adds to what `u` has yielded
    by_cases hv : v = u
    · subst hv
      rw [if_pos rfl]
      obtain ⟨hph, -, hph', htask', hleft', -⟩ := hiter.frame
      refine h.update hsub (Function.update_self _ _ _) rfl rfl rfl id h.once (fun hw => ?_)
        (fun e he => he) htask' hph hph' (hiter.parked (h.parked sub hsub)) (fun hu => ?_)
      · obtain ⟨sub₁, hsub₁, hleft₁, -⟩ := h.leaving hw
        obtain rfl := Option.some.inj (hsub.symm.trans hsub₁)
        rw [hleft', hleft₁]
      · obtain ⟨sub₁, hsub₁, htask, -⟩ := h.registered taskId hu
        obtain rfl := Option.some.inj (hsub.symm.trans hsub₁)
        rw [htask] at hiter
        exact (h.below hu sub hsub).iterStep h.buffer_le hiter
    · rw [if_neg hv, List.append_nil]
      exact h.frame (Function.update_of_ne (Ne.symm hv) _ _) (fun _ hu => hu) id h.once id h.buffer
        h.buffer_le h.pending (fun _ => le_refl _)
  | tick dt =>
    exact hquiet (h.frame rfl (fun _ hu => hu) id h.once id h.buffer h.buffer_le h.pending
      (fun _ => le_refl _))

/-! ### After the event -/

variable {m : LogEntry ε}

/-- A replay of what is newer than `k` does not get past `m`: it ends before, or `m` is
part of it. -/
def ReplaysUpTo (m : LogEntry ε) (k : Nat) (rest : List (LogEntry ε)) : Prop :=
  (∀ e ∈ rest, k < e.id → e.id < m.id) ∨
    ∃ pre post, rest = pre ++ m :: post ∧ (∀ e ∈ pre, e.id < m.id) ∧ k < m.id

/-- The subscriber goes on, and `m` will not be taken for a duplicate. -/
def Passes (m : LogEntry ε) (sub : Subscriber ε) : Prop :=
  match sub.phase with
  | .subscribing | .ended => False
  | .start => sub.afterEventId = none → sub.snapshotId < m.id
  | .replaying rest => sub.lastYieldedId < m.id ∧ ReplaysUpTo m (sub.afterEventId.getD 0) rest
  | .live => sub.lastYieldedId < m.id

/-- `m` is among the items behind smaller ids, or it is yet to come, as `waits` says. -/
def Coming (m : LogEntry ε) (waits : Prop) (items : List (LogEntry ε)) : Prop :=
  (∃ pre post, items = pre ++ m :: post ∧ ∀ e ∈ pre, e.id < m.id) ∨
    waits ∧ ∀ e ∈ items, e.id < m.id

/-- `m` waits for the lock, behind smaller ids, and `u` is registered. -/
def Waits (u : SubId) (taskId : TaskId) (m : LogEntry ε) (bus : InMemoryEventBus ε) : Prop :=
  u ∈ bus.subs taskId ∧ ∃ l₁ l₂, bus.lock = l₁ ++ .publish taskId m :: l₂ ∧
    ∀ e ∈ pendingFor taskId l₁, e.id < m.id

/-- The subscriber has yielded `m` or an earlier terminal event, and has ended. -/
def Seen (isTerminal : ε → Bool) (m : LogEntry ε) (out : List (LogEntry ε)) (sub : Subscriber ε) :
    Prop :=
  sub.phase = .ended ∧ ∃ e ∈ out, isTerminal e.event = true ∧ e.id ≤ m.id

/-- The subscriber has left, has seen the end, or will see it. -/
def Awaits (isTerminal : ε → Bool) (u : SubId) (taskId : TaskId) (m : LogEntry ε)
    (bus : InMemoryEventBus ε) (out : List (LogEntry ε)) : Prop :=
  ∃ sub, bus.subscribers u = some sub ∧ sub.taskId = taskId ∧
    (sub.left = true ∨ Seen isTerminal m out sub ∨
      Passes m sub ∧ Coming m (Waits u taskId m bus) sub.items)

theorem Coming.receive {waits : Prop} {entry : LogEntry ε} {items : List (LogEntry ε)}
    (h : Coming m waits (entry :: items)) :
    entry = m ∨ entry.id < m.id ∧ Coming m waits items := by
  rcases h with ⟨pre, post, heq, hpre⟩ | ⟨hwaits, hall⟩
  · cases pre with
    | nil => exact Or.inl (List.cons.inj heq).1
    | cons e pre =>
      obtain ⟨rfl, rfl⟩ := List.cons.inj heq
      exact Or.inr ⟨hpre _ List.mem_cons_self, Or.inl ⟨pre, post, rfl, fun e he =>
        hpre e (List.mem_cons_of_mem _ he)⟩⟩
  · exact Or.inr ⟨hall entry List.mem_cons_self, Or.inr ⟨hwaits, fun e he =>
      hall e (List.mem_cons_of_mem _ he)⟩⟩

theorem replaysUpTo_buffer {buf : List (LogEntry ε)} {k : Nat}
    (hsorted : buf.Pairwise fun e e' => e.id < e'.id)
    (hok : ∀ e ∈ buf, k < e.id → m.id ≤ e.id → m ∈ buf ∧ k < m.id) : ReplaysUpTo m k buf := by
  by_cases hall : ∀ e ∈ buf, k < e.id → e.id < m.id
  · exact Or.inl hall
  · push Not at hall
    obtain ⟨e, he, hk, hle⟩ := hall
    obtain ⟨hm, hkm⟩ := hok e he hk hle
    obtain ⟨pre, post, rfl⟩ := List.append_of_mem hm
    refine Or.inr ⟨pre, post, rfl, fun e' he' => ?_, hkm⟩
    exact (List.pairwise_append.mp hsorted).2.2 e' he' m List.mem_cons_self

/-- A step of the iteration. -/
theorem Passes.iterStep {waits : Prop} {buf : List (LogEntry ε)} {o : Option (LogEntry ε)}
    (h : Passes m sub) (hcoming : Coming m waits sub.items) (hterm : isTerminal m.event = true)
    (hpos : 0 < m.id) (hsorted : buf.Pairwise fun e e' => e.id < e'.id)
    (hok : sub.phase = .start → ∀ k, sub.afterEventId = some k →
      ∀ e ∈ buf, k < e.id → m.id ≤ e.id → m ∈ buf ∧ k < m.id)
    (hstep : IterStep isTerminal buf sub sub' o) :
    Seen isTerminal m (out ++ o.toList) sub' ∨ Passes m sub' ∧ Coming m waits sub'.items := by
  -- a terminal event up to `m` ends the iteration, another one lets it go on
  have hyield {entry : LogEntry ε} (sub₁ : Subscriber ε) {phase : IterPhase ε}
      (hle : entry.id ≤ m.id) (hgo : isTerminal entry.event = false →
        Passes m { sub₁ with phase } ∧ Coming m waits sub₁.items) :
      Seen isTerminal m (out ++ (some entry).toList)
          { sub₁ with phase := if isTerminal entry.event then .ended else phase } ∨
        Passes m { sub₁ with phase := if isTerminal entry.event then .ended else phase } ∧
          Coming m waits sub₁.items := by
    cases hev : isTerminal entry.event with
    | true =>
      rw [if_pos rfl]
      exact Or.inl ⟨rfl, entry, List.mem_append_right _ (List.mem_singleton_self _), hev, hle⟩
    | false =>
      rw [if_neg (by simp)]
      exact Or.inr (hgo hev)
  rw [Passes] at h
  cases hstep with
  | @replay k hph hafter =>
    rw [hph] at h
    refine Or.inr ⟨⟨hpos, ?_⟩, hcoming⟩
    rw [hafter]
    exact replaysUpTo_buffer hsorted (hok hph k hafter)
  | bookmark hph hafter =>
    rw [hph] at h
    exact Or.inr ⟨h hafter, hcoming⟩
  | goLive hph =>
    rw [hph] at h
    exact Or.inr ⟨h.1, hcoming⟩
  | @replayed entry rest hph hid =>
    rw [hph] at h
    obtain ⟨-, hall | ⟨pre, post, heq, hpre, hk⟩⟩ := h
    · have hlt := hall entry List.mem_cons_self hid
      refine hyield { sub with lastYieldedId := entry.id } (le_of_lt hlt) fun _ =>
        ⟨⟨hlt, Or.inl fun e he => hall e (List.mem_cons_of_mem _ he)⟩, hcoming⟩
    · cases pre with
      | nil =>
        obtain ⟨rfl, rfl⟩ := List.cons.inj heq
        refine hyield { sub with lastYieldedId := entry.id } (le_refl _) fun hev => ?_
        rw [hterm] at hev
        simp at hev
      | cons e pre =>
        obtain ⟨rfl, rfl⟩ := List.cons.inj heq
        have hlt := hpre entry List.mem_cons_self
        refine hyield { sub with lastYieldedId := entry.id } (le_of_lt hlt) fun _ =>
          ⟨⟨hlt, Or.inr ⟨pre, post, rfl, fun e he => hpre e (List.mem_cons_of_mem _ he), hk⟩⟩, hcoming⟩
  | @older entry rest hph hid =>
    rw [hph] at h
    obtain ⟨hlast, hall | ⟨pre, post, heq, hpre, hk⟩⟩ := h
    · exact Or.inr ⟨⟨hlast, Or.inl fun e he => hall e (List.mem_cons_of_mem _ he)⟩, hcoming⟩
    · cases pre with
      | nil =>
        obtain ⟨rfl, rfl⟩ := List.cons.inj heq
        exact absurd hk hid
      | cons e pre =>
        obtain ⟨rfl, rfl⟩ := List.cons.inj heq
        exact Or.inr ⟨⟨hlast, Or.inr ⟨pre, post, rfl, fun e he =>
          hpre e (List.mem_cons_of_mem _ he), hk⟩⟩, hcoming⟩
  | @duplicate entry sub₁ hph hrecv hid =>
    obtain ⟨hitems, handed, queue, rfl⟩ := receive_some hrecv
    rw [hph] at h
    rw [hitems] at hcoming
    rcases hcoming.receive with rfl | ⟨-, hrest⟩
    · exact absurd h (not_lt.mpr hid)
    · refine Or.inr ⟨?_, hrest⟩
      rw [Passes, hph]
      exact h
  | @received entry sub₁ hph hrecv hid =>
    obtain ⟨hitems, handed, queue, rfl⟩ := receive_some hrecv
    rw [hph] at h
    rw [hitems] at hcoming
    rcases hcoming.receive with rfl | ⟨hlt, hrest⟩
    · refine hyield { sub with handed, queue } (le_refl _) fun hev => ?_
      rw [hterm] at hev
      simp at hev
    · exact hyield { sub with handed, queue } (le_of_lt hlt) fun _ => ⟨h, hrest⟩
  | park hph hrecv hparked =>
    refine Or.inr ⟨?_, hcoming⟩
    rw [hph] at h
    rw [Passes, hph]
    exact h

/-- The items after a fan-out. -/
theorem items_send_cases (n : Nat) (entry : LogEntry ε)
    (hparked : sub.parked = true → sub.handed = none ∧ sub.queue = []) :
    (sub.send n entry).items = sub.items ++ [entry] ∨
      sub.hasRoom n = false ∧ (sub.send n entry).items = sub.items := by
  cases hroom : sub.hasRoom n with
  | true => exact Or.inl (send_queue entry hroom hparked).1
  | false =>
    refine Or.inr ⟨rfl, ?_⟩
    rw [Subscriber.hasRoom, Bool.or_eq_false_iff, decide_eq_false_iff_not] at hroom
    rw [Subscriber.send, if_neg (by simp [hroom.1]), if_neg hroom.2]

theorem Coming.send {waits : Prop} {n : Nat} {entry : LogEntry ε}
    (h : Coming m waits sub.items)
    (hparked : sub.parked = true → sub.handed = none ∧ sub.queue = [])
    (hid : waits → entry.id < m.id) : Coming m waits (sub.send n entry).items := by
  rcases items_send_cases n entry hparked with heq | ⟨-, heq⟩
  · rw [heq]
    rcases h with ⟨pre, post, hitems, hpre⟩ | ⟨hwaits, hall⟩
    · refine Or.inl ⟨pre, post ++ [entry], ?_, hpre⟩
      rw [hitems, List.append_assoc, List.cons_append]
    · refine Or.inr ⟨hwaits, fun e he => ?_⟩
      rcases List.mem_append.mp he with he | he
      · exact hall e he
      · rw [List.mem_singleton.mp he]
        exact hid hwaits
  · rw [heq]
    exact h

theorem Passes.send {n : Nat} {entry : LogEntry ε} (h : Passes m sub) :
    Passes m (sub.send n entry) := by
  obtain ⟨-, -, hafter, hsnap, hyield⟩ := send_frame sub n entry
  rw [Passes] at h ⊢
  rw [send_phase, hafter, hsnap, hyield]
  exact h

theorem Coming.imp {waits waits' : Prop} {items : List (LogEntry ε)} (h : Coming m waits items)
    (himp : waits → waits') : Coming m waits' items :=
  h.imp_right fun hw => ⟨himp hw.1, hw.2⟩

/-- A step that does not touch the subscriber. -/
theorem Awaits.frame (h : Awaits isTerminal u taskId m bus out)
    (hsub : bus'.subscribers u = bus.subscribers u)
    (hwaits : ∀ sub, bus.subscribers u = some sub → sub.left = false → sub.phase ≠ .ended →
      Waits u taskId m bus → Waits u taskId m bus') : Awaits isTerminal u taskId m bus' out := by
  obtain ⟨sub, hs, htask, hcases⟩ := h
  refine ⟨sub, hsub.trans hs, htask, ?_⟩
  cases hleft : sub.left with
  | true => exact Or.inl rfl
  | false =>
    rcases hcases with hl | hseen | ⟨hpasses, hcoming⟩
    · rw [hleft] at hl
      simp at hl
    · exact Or.inr (Or.inl hseen)
    · refine Or.inr (Or.inr ⟨hpasses, hcoming.imp (hwaits sub hs hleft fun hph => ?_)⟩)
      rw [Passes, hph] at hpasses
      exact hpasses

theorem Waits.concat (h : Waits u taskId m bus) (hsubs : u ∈ bus'.subs taskId)
    (ws : List (Waiter ε)) (hlock : bus'.lock = bus.lock ++ ws) : Waits u taskId m bus' := by
  obtain ⟨-, l₁, l₂, heq, hall⟩ := h
  refine ⟨hsubs, l₁, l₂ ++ ws, ?_, hall⟩
  rw [hlock, heq, List.append_assoc, List.cons_append]

/-- The first waiter is not `m`. -/
theorem Waits.tail {w : Waiter ε} {rest : List (Waiter ε)} (h : Waits u taskId m bus)
    (hlock : bus.lock = w :: rest) :
    w = .publish taskId m ∨ (∀ e ∈ pendingFor taskId [w], e.id < m.id) ∧
      ∃ l₁ l₂, rest = l₁ ++ .publish taskId m :: l₂ ∧ ∀ e ∈ pendingFor taskId l₁, e.id < m.id := by
  obtain ⟨-, l₁, l₂, heq, hall⟩ := h
  rw [hlock] at heq
  cases l₁ with
  | nil => exact Or.inl (List.cons.inj heq).1
  | cons w' l₁ =>
    obtain ⟨rfl, rfl⟩ := List.cons.inj heq
    rw [← List.singleton_append, pendingFor_append] at hall
    exact Or.inr ⟨fun e he => hall e (List.mem_append_left _ he), l₁, l₂, rfl,
      fun e he => hall e (List.mem_append_right _ he)⟩

theorem listens_of (hu : u ∈ bus.subs taskId) (hsub : bus.subscribers u = some sub)
    (hleft : sub.left = false) (hph : sub.phase ≠ .ended) : bus.listens u taskId = true := by
  have hended : sub.phase.isEnded = false := by
    cases hphase : sub.phase with
    | ended => exact absurd hphase hph
    | subscribing | start | replaying _ | live => rfl
  simp [listens, hu, hsub, hleft, hended]

/-- A fan-out. -/
theorem Awaits.fanOut {t : TaskId} {entry : LogEntry ε} {rest : List (Waiter ε)}
    (h : Awaits isTerminal u taskId m bus out) (hsound : Sound isTerminal u taskId bus out)
    (hterm : isTerminal m.event = true) (hlock : bus.lock = .publish t entry :: rest)
    (hok : SeenOk cfg isTerminal u taskId bus .grant) :
    Awaits isTerminal u taskId m ({ bus with lock := rest }.runWaiter cfg (.publish t entry)) out := by
  obtain ⟨sub, hsub, htask, hcases⟩ := h
  by_cases hu : u ∈ bus.subs t
  · obtain ⟨sub₁, hsub₁, htask₁, -⟩ := hsound.registered t hu
    obtain rfl := Option.some.inj (hsub.symm.trans hsub₁)
    obtain rfl : t = taskId := htask₁.symm.trans htask
    have hparked := hsound.parked sub hsub
    obtain ⟨htask', hleft', -, -, -⟩ := send_frame sub cfg.eventBuffer entry
    refine ⟨sub.send cfg.eventBuffer entry, ?_, htask'.trans htask, ?_⟩
    · show (if u ∈ bus.subs t then _ else _) = _
      rw [if_pos hu, hsub]
      rfl
    · cases hleft : sub.left with
      | true => exact Or.inl (hleft'.trans hleft)
      | false =>
        rcases hcases with hl | hseen | ⟨hpasses, hcoming⟩
        · rw [hleft] at hl
          simp at hl
        · refine Or.inr (Or.inl ⟨?_, hseen.2⟩)
          rw [send_phase]
          exact hseen.1
        · refine Or.inr (Or.inr ⟨hpasses.send, ?_⟩)
          rcases hcoming with hqueued | ⟨hwaits, hall⟩
          · exact (Coming.send (Or.inl hqueued : Coming m False sub.items) hparked False.elim).imp
              False.elim
          · rcases hwaits.tail hlock with heq | ⟨hhead, hrest⟩
            · -- it is `m`, and there is room
              obtain ⟨-, rfl⟩ := Waiter.publish.inj heq
              have hph : sub.phase ≠ .ended := fun hph => by
                rw [Passes, hph] at hpasses
                exact hpasses
              have hgrant := hok.2
              rw [hlock] at hgrant
              have hroom := hgrant rfl hterm (listens_of hu hsub hleft hph) sub hsub
              rcases items_send_cases cfg.eventBuffer entry hparked with hitems | ⟨hfull, -⟩
              · rw [hitems]
                exact Or.inl ⟨sub.items, [], rfl, hall⟩
              · rw [hroom] at hfull
                simp at hfull
            · refine Coming.send (Or.inr ⟨⟨hu, hrest⟩, hall⟩) hparked fun _ => hhead entry ?_
              rw [pendingFor_publish]
              exact List.mem_cons_self
  · refine Awaits.frame ⟨sub, hsub, htask, hcases⟩ ?_ fun sub₁ _ _ _ hwaits => ?_
    · show (if u ∈ bus.subs t then _ else _) = _
      rw [if_neg hu]
    · rcases hwaits.tail hlock with heq | ⟨-, hrest⟩
      · obtain ⟨rfl, -⟩ := Waiter.publish.inj heq
        exact absurd hwaits.1 hu
      · exact ⟨hwaits.1, hrest⟩

theorem Awaits.grant {w : Waiter ε} {rest : List (Waiter ε)}
    (h : Awaits isTerminal u taskId m bus out) (hsound : Sound isTerminal u taskId bus out)
    (hterm : isTerminal m.event = true) (hlock : bus.lock = w :: rest)
    (hok : SeenOk cfg isTerminal u taskId bus .grant) :
    Awaits isTerminal u taskId m ({ bus with lock := rest }.runWaiter cfg w) out := by
  have hmem : w ∈ bus.lock := by
    rw [hlock]
    exact List.mem_cons_self
  -- waiters that publish nothing leave `m` where it is
  have hbehind (hne : w ≠ .publish taskId m) (hwaits : Waits u taskId m bus) :
      ∃ l₁ l₂, rest = l₁ ++ .publish taskId m :: l₂ ∧ ∀ e ∈ pendingFor taskId l₁, e.id < m.id :=
    ((hwaits.tail hlock).resolve_left hne).2
  cases w with
  | publish t entry => exact h.fanOut hsound hterm hlock hok
  | register v =>
    cases hsub : bus.subscribers v with
    | none =>
      rw [(runWaiter_unknown rest hsub).1]
      exact h.frame rfl fun _ _ _ _ hwaits => ⟨hwaits.1, hbehind (by simp) hwaits⟩
    | some sub =>
      rw [runWaiter_register rest hsub]
      by_cases hv : v = u
      · -- a subscriber that is not registered yet has seen nothing and awaits nothing
        subst hv
        obtain ⟨sub₁, hsub₁, htask, hcases⟩ := h
        obtain rfl := Option.some.inj (hsub.symm.trans hsub₁)
        obtain ⟨sub₂, hsub₂, hph⟩ := hsound.registering hmem
        obtain rfl := Option.some.inj (hsub.symm.trans hsub₂)
        refine ⟨_, Function.update_self _ _ _, htask, ?_⟩
        rcases hcases with hl | hseen | ⟨hpasses, -⟩
        · exact Or.inl hl
        · exact absurd (hph.symm.trans hseen.1) (by simp)
        · rw [Passes, hph] at hpasses
          exact hpasses.elim
      · refine h.frame (Function.update_of_ne (Ne.symm hv) _ _) fun _ _ _ _ hwaits =>
          ⟨?_, hbehind (by simp) hwaits⟩
        show u ∈ Function.update bus.subs sub.taskId _ taskId
        rw [Function.update_apply]
        split
        · rename_i heq
          rw [← heq]
          exact List.mem_append_left _ hwaits.1
        · exact hwaits.1
  | unregister v =>
    cases hsub : bus.subscribers v with
    | none =>
      rw [(runWaiter_unknown rest hsub).2]
      exact h.frame rfl fun _ _ _ _ hwaits => ⟨hwaits.1, hbehind (by simp) hwaits⟩
    | some sub =>
      rw [runWaiter_unregister rest hsub]
      refine h.frame rfl fun sub₁ hsub₁ hleft₁ _ hwaits => ⟨?_, hbehind (by simp) hwaits⟩
      show u ∈ Function.update bus.subs sub.taskId _ taskId
      have hv : u ≠ v := fun hv => by
        subst hv
        obtain ⟨sub₂, hsub₂, hleft₂, -⟩ := hsound.leaving hmem
        obtain rfl := Option.some.inj (hsub₁.symm.trans hsub₂)
        rw [hleft₁] at hleft₂
        simp at hleft₂
      rw [Function.update_apply]
      split
      · rename_i heq
        rw [← heq]
        exact (List.mem_erase_of_ne hv).mpr hwaits.1
      · exact hwaits.1
  | cleanup t =>
    refine h.frame rfl fun sub hsub hleft hph hwaits => ?_
    have hbehind' := hbehind (by simp) hwaits
    refine ⟨?_, hbehind'⟩
    show u ∈ Function.update bus.subs t [] taskId
    have ht : taskId ≠ t := fun ht => by
      have hgrant := hok.2
      rw [hlock] at hgrant
      obtain ⟨l₁, l₂, hrest, -⟩ := hbehind'
      have hm : m ∈ pendingFor taskId rest := by
        rw [hrest, pendingFor_append, pendingFor_publish]
        exact List.mem_append_right _ List.mem_cons_self
      have := hgrant ht.symm (listens_of hwaits.1 hsub hleft hph) m hm
      rw [hterm] at this
      simp at this
    rw [Function.update_of_ne ht]
    exact hwaits.1

theorem Awaits.step {a : BusAction ε} {o : Option (SubId × LogEntry ε)}
    (h : Awaits isTerminal u taskId m bus out) (hsound : Sound isTerminal u taskId bus out)
    (hterm : isTerminal m.event = true) (hpos : 0 < m.id)
    (hok : SeenOk cfg isTerminal u taskId bus a)
    (hstep : bus.step cfg isTerminal a = some (bus', o)) :
    Awaits isTerminal u taskId m bus' (out ++ yieldOf u o) := by
  have hquiet {bus' : InMemoryEventBus ε} (h' : Awaits isTerminal u taskId m bus' out) :
      Awaits isTerminal u taskId m bus' (out ++ yieldOf u none) := by
    rwa [yieldOf, List.append_nil]
  obtain ⟨sub₀, hsub₀, htask₀, hcases₀⟩ := id h
  cases busTurn_of_step hstep with
  | publish t event => exact hquiet (h.frame rfl fun _ _ _ _ hwaits => hwaits.concat hwaits.1 _ rfl)
  | @subscribe v t afterEventId hnone =>
    have hv : u ≠ v := fun hv => by
      rw [hv, hnone] at hsub₀
      simp at hsub₀
    exact hquiet (h.frame (Function.update_of_ne hv _ _) fun _ _ _ _ hwaits =>
      hwaits.concat hwaits.1 _ rfl)
  | @unsubscribe v sub hsub hph hleft =>
    by_cases hv : v = u
    · -- one that leaves has nothing more to wait for
      subst hv
      obtain rfl := Option.some.inj (hsub.symm.trans hsub₀)
      exact hquiet ⟨_, Function.update_self _ _ _, htask₀, Or.inl rfl⟩
    · exact hquiet (h.frame (Function.update_of_ne (Ne.symm hv) _ _) fun _ _ _ _ hwaits =>
        hwaits.concat hwaits.1 _ rfl)
  | cleanup t => exact hquiet (h.frame rfl fun _ _ _ _ hwaits => hwaits.concat hwaits.1 _ rfl)
  | grant hlock => exact hquiet (h.grant hsound hterm hlock hok)
  | @next v sub sub' o hsub hleft hiter =>
    rw [yieldOf_map]
    by_cases hv : v = u
    · subst hv
      obtain rfl := Option.some.inj (hsub.symm.trans hsub₀)
      rw [if_pos rfl]
      obtain ⟨-, hended, -, htask', -, -⟩ := hiter.frame
      refine ⟨sub', Function.update_self _ _ _, htask'.trans htask₀, ?_⟩
      rcases hcases₀ with hl | hseen | ⟨hpasses, hcoming⟩
      · rw [hleft] at hl
        simp at hl
      · exact absurd hseen.1 hended
      · rw [htask₀] at hiter
        -- the event lies in the replay buffer or is still pending, so a replay cannot have missed
        -- it
        refine Or.inr (hpasses.iterStep hcoming hterm hpos hsound.buffer (fun hph k hk => ?_) hiter)
        refine hok.2 rfl sub hsub (by rw [hph]; rfl) k hk m ?_ hterm
        rcases hcoming with ⟨pre, post, heq, -⟩ | ⟨⟨-, l₁, l₂, heq, -⟩, -⟩
        · rw [heq]
          exact List.mem_append_left _ (List.mem_append_right _ List.mem_cons_self)
        · rw [heq, pendingFor_append, pendingFor_publish]
          exact List.mem_append_right _ (List.mem_append_right _ List.mem_cons_self)
    · rw [if_neg hv, List.append_nil]
      exact h.frame (Function.update_of_ne (Ne.symm hv) _ _) fun _ _ _ _ hwaits => hwaits
  | tick dt => exact hquiet (h.frame rfl fun _ _ _ _ hwaits => hwaits)

theorem sound_of_run {tr : BusTrace ε}
    (hrun : Run (InMemoryEventBus.step cfg isTerminal) (SeenOk cfg isTerminal u taskId) {} tr bus) :
    Sound isTerminal u taskId bus (yieldedBy u tr) := by
  refine hrun.forward (P := fun tr bus => Sound isTerminal u taskId bus (yieldedBy u tr))
    (fun tr s a s' o hs hok hstep => ?_) ?_
  · rw [yieldedBy_concat]
    exact hs.step hok hstep
  · exact {
      registered := fun t hu => absurd hu List.not_mem_nil
      registering := fun hw => absurd hw List.not_mem_nil
      once := List.Pairwise.nil
      leaving := fun hw => absurd hw List.not_mem_nil
      fresh := fun sub hsub => absurd hsub (by simp)
      parked := fun sub hsub => absurd hsub (by simp)
      buffer := List.Pairwise.nil
      buffer_le := fun e he => absurd he List.not_mem_nil
      pending := fun e he => absurd he List.not_mem_nil
      below := fun hu => absurd hu List.not_mem_nil }

/-- The publish that a registered subscriber is to learn of. -/
theorem Sound.awaits (h : Sound isTerminal u taskId bus out) (hu : u ∈ bus.subs taskId)
    (event : ε) (hexp : bus.expired taskId = false) :
    Awaits isTerminal u taskId ⟨bus.counters taskId + 1, event⟩ (bus.publish cfg taskId event) out := by
  obtain ⟨sub, hsub, htask, hph⟩ := h.registered taskId hu
  have hbelow := h.below hu sub hsub
  refine ⟨sub, hsub, htask, ?_⟩
  -- a subscription that has ended saw an earlier terminal event
  by_cases hended : sub.phase = .ended
  · obtain ⟨e, he, hterm, hid⟩ := hbelow.ended hended
    exact Or.inr (Or.inl ⟨hended, e, he, hterm, Nat.le_succ_of_le hid⟩)
  · refine Or.inr (Or.inr ⟨?_, Or.inr ⟨⟨hu, bus.lock, [], ?_, fun e he => ?_⟩, fun e he => ?_⟩⟩)
    · rw [Passes]
      cases hphase : sub.phase with
      | subscribing => exact hph hphase
      | start => exact fun _ => Nat.lt_succ_of_le hbelow.snapshot
      | replaying rest =>
        exact ⟨Nat.lt_succ_of_le hbelow.yielded, Or.inl fun e he _ =>
          Nat.lt_succ_of_le (hbelow.replay rest hphase e he)⟩
      | live => exact Nat.lt_succ_of_le hbelow.yielded
      | ended => exact hended hphase
    · show bus.purgeExpired.lock ++ [Waiter.publish taskId ⟨bus.purgeExpired.counters taskId + 1, event⟩] = _
      rw [(purgeExpired_of_not hexp).1]
      rfl
    · exact Nat.lt_succ_of_le (h.pending e he)
    · exact Nat.lt_succ_of_le (hbelow.items e he)

end

/-- **The end is seen.**  In every run that meets `SeenOk`, take a terminal event that is
published while `u` is registered for its task.  As soon as the publish has
returned, a subscriber that has not left and has consumed what it was given has
yielded the event or an earlier terminal one, and its iteration has ended. -/
theorem end_seen {cfg : BusConfig} {isTerminal : ε → Bool} {u : SubId} {taskId : TaskId}
    {tr₁ tr₂ : BusTrace ε} {bus₁ bus : InMemoryEventBus ε} {event : ε} {sub : Subscriber ε}
    (hrun₁ : Run (InMemoryEventBus.step cfg isTerminal) (SeenOk cfg isTerminal u taskId) {} tr₁ bus₁)
    (hu : u ∈ bus₁.subs taskId) (hterm : isTerminal event = true)
    (hrun₂ : Run (InMemoryEventBus.step cfg isTerminal) (SeenOk cfg isTerminal u taskId) bus₁
      ((.publish taskId event, none) :: tr₂) bus)
    (hdone : .publish taskId ⟨bus₁.counters taskId + 1, event⟩ ∉ bus.lock)
    (hsub : bus.subscribers u = some sub) (hleft : sub.left = false) (hexhausted : sub.Exhausted) :
    sub.phase = .ended ∧
      ∃ entry ∈ yieldedBy u (tr₁ ++ (.publish taskId event, none) :: tr₂),
        isTerminal entry.event = true ∧ entry.id ≤ bus₁.counters taskId + 1 := by
  have hsound₁ := sound_of_run hrun₁
  obtain _ | ⟨hstep, hok, hrest⟩ := hrun₂
  have hexp : bus₁.expired taskId = false := by
    by_contra hexp
    exact (hok.1 (by simpa [purges] using hexp)).1 hu
  have hsound₂ := hsound₁.step hok hstep
  obtain ⟨rfl, -⟩ := Prod.mk.inj (Option.some.inj hstep)
  rw [yieldOf, List.append_nil] at hsound₂
  have hinv := hrest.forward (P := fun tr bus =>
      Sound isTerminal u taskId bus (yieldedBy u tr₁ ++ yieldedBy u tr) ∧
        Awaits isTerminal u taskId ⟨bus₁.counters taskId + 1, event⟩ bus
          (yieldedBy u tr₁ ++ yieldedBy u tr))
    (fun tr s a s' o h hok hstep => by
      rw [yieldedBy_concat, ← List.append_assoc]
      exact ⟨h.1.step hok hstep, h.2.step h.1 hterm (Nat.succ_pos _) hok hstep⟩)
    (by
      have hnil : yieldedBy u ([] : BusTrace ε) = [] := rfl
      rw [hnil, List.append_nil]
      exact ⟨hsound₂, hsound₁.awaits hu event hexp⟩)
  obtain ⟨sub₁, hsub₁, -, hcases⟩ := hinv.2
  obtain rfl := Option.some.inj (hsub.symm.trans hsub₁)
  have hyielded : yieldedBy u (tr₁ ++ (.publish taskId event, none) :: tr₂) =
      yieldedBy u tr₁ ++ yieldedBy u tr₂ := by
    simp [yieldedBy, yieldOf]
  rw [hyielded]
  rcases hcases with hl | hseen | ⟨hpasses, hcoming⟩
  · rw [hleft] at hl
    simp at hl
  · exact hseen
  · -- nothing is left to consume and the publish has returned: the event cannot still be coming
    exfalso
    rcases hexhausted with hended | ⟨-, hitems⟩
    · rw [Passes, hended] at hpasses
      exact hpasses
    · rcases hcoming with ⟨pre, post, heq, -⟩ | ⟨⟨-, l₁, l₂, heq, -⟩, -⟩
      · rw [hitems] at heq
        simp at heq
      · refine hdone ?_
        rw [heq]
        exact List.mem_append_right _ List.mem_cons_self

/-- A slow subscriber, which takes one event before the end is published. -/
def slowStart : List (BusAction String) :=
  [.subscribe 0 "t" none, .grant, .publish "t" "a", .grant, .publish "t" "b", .grant, .next 0,
    .next 0]

/-- It loses an event and sees the end. -/
theorem slowStart_seen : ∃ tr₁ bus₁ tr₂ bus sub,
    Run (InMemoryEventBus.step ⟨1, 8, 60⟩ (· == "end")) (SeenOk ⟨1, 8, 60⟩ (· == "end") 0 "t") {} tr₁
        bus₁ ∧
      0 ∈ bus₁.subs "t" ∧
      Run (InMemoryEventBus.step ⟨1, 8, 60⟩ (· == "end")) (SeenOk ⟨1, 8, 60⟩ (· == "end") 0 "t") bus₁
        ((.publish "t" "end", none) :: tr₂) bus ∧
      bus.subscribers 0 = some sub ∧ sub.Exhausted ∧ sub.phase = .ended := by
  have hrun₁ := run_finalState (InMemoryEventBus.step ⟨1, 8, 60⟩ (· == "end"))
    (SeenOk ⟨1, 8, 60⟩ (· == "end") 0 "t") {} slowStart (by decide +kernel)
  have hrun₂ := run_finalState (InMemoryEventBus.step ⟨1, 8, 60⟩ (· == "end"))
    (SeenOk ⟨1, 8, 60⟩ (· == "end") 0 "t")
    (finalState (InMemoryEventBus.step ⟨1, 8, 60⟩ (· == "end"))
      (SeenOk ⟨1, 8, 60⟩ (· == "end") 0 "t") {} slowStart)
    [.publish "t" "end", .grant, .next 0] (by decide +kernel)
  refine ⟨_, _, [(.grant, none), (.next 0, some (0, ⟨3, "end"⟩))], _, _, hrun₁, by decide +kernel,
    hrun₂, rfl, Or.inl rfl, ?_⟩
  exact (end_seen hrun₁ (by decide +kernel) rfl hrun₂ List.not_mem_nil rfl rfl (Or.inl rfl)).1

/-- The queue is full when the end is published: it is dropped, and the subscriber waits
on an empty queue. -/
theorem fullQueue_waits : ∃ tr₁ bus₁ tr₂ bus sub,
    Run (InMemoryEventBus.step ⟨1, 8, 60⟩ (· == "end")) (fun _ _ => True) {} tr₁ bus₁ ∧
      0 ∈ bus₁.subs "t" ∧
      Run (InMemoryEventBus.step ⟨1, 8, 60⟩ (· == "end")) (fun _ _ => True) bus₁
        ((.publish "t" "end", none) :: tr₂) bus ∧
      .publish "t" ⟨bus₁.counters "t" + 1, "end"⟩ ∉ bus.lock ∧
      bus.subscribers 0 = some sub ∧ sub.left = false ∧ sub.Exhausted ∧ sub.parked = true ∧
      sub.phase ≠ .ended := by
  have hrun₁ := run_finalState (InMemoryEventBus.step ⟨1, 8, 60⟩ (· == "end")) (fun _ _ => True) {}
    [.subscribe 0 "t" none, .grant, .publish "t" "a", .grant] (by decide +kernel)
  have hrun₂ := run_finalState (InMemoryEventBus.step ⟨1, 8, 60⟩ (· == "end")) (fun _ _ => True)
    (finalState (InMemoryEventBus.step ⟨1, 8, 60⟩ (· == "end")) (fun _ _ => True) {}
      [.subscribe 0 "t" none, .grant, .publish "t" "a", .grant])
    [.publish "t" "end", .grant, .next 0, .next 0, .next 0] (by decide +kernel)
  exact ⟨_, _, [(.grant, none), (.next 0, none), (.next 0, some (0, ⟨1, "a"⟩)), (.next 0, none)], _, _,
    hrun₁, by decide +kernel, hrun₂, List.not_mem_nil, rfl, rfl, Or.inr ⟨rfl, rfl⟩, rfl, by simp⟩

end InMemoryEventBus

end A2AKit
