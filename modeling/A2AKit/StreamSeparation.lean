/-
The streams of different tasks.

The in-memory bus keeps a replay buffer and a list of subscriptions for each task, but one lock and
one table of subscriptions for all of them.  `Separate P` says that whatever the bus holds for a
task `t`, waiting publishers and the queues of its subscriptions included, satisfies `P t`.

* `Separate.step` — a step keeps that, if what it publishes for a task satisfies `P` for that task;
* `Separate.yields` — a subscription is given nothing but events of its own task;
* `OwnStreams.received` — what a subscription of a task has received was published for that task.
-/
import A2AKit.PublishedEvents

namespace A2AKit

namespace InMemoryEventBus

section

variable {ε : Type} {P P' : TaskId → ε → Prop} {cfg : BusConfig} {isTerminal : ε → Bool}
  {bus bus' : InMemoryEventBus ε} {u : SubId} {t : TaskId} {sub : Subscriber ε}

/-- `u` is a subscription of the task. -/
def SubscribesTo (u : SubId) (t : TaskId) (bus : InMemoryEventBus ε) : Prop :=
  ∃ sub, bus.subscribers u = some sub ∧ sub.taskId = t

/-- Every event in the bus satisfies `P` for the task in whose stream it is. -/
structure Separate (P : TaskId → ε → Prop) (bus : InMemoryEventBus ε) : Prop where
  buffered : ∀ t, ∀ entry ∈ bus.replayBuffers t, P t entry.event
  waiting : ∀ t entry, .publish t entry ∈ bus.lock → P t entry.event
  subscribed : ∀ u sub, bus.subscribers u = some sub → sub.Carries (P sub.taskId)
  listed : ∀ t, ∀ u ∈ bus.subs t, bus.SubscribesTo u t

theorem Separate.mono (h : bus.Separate P) (hP : ∀ t e, P t e → P' t e) : bus.Separate P' where
  buffered t entry he := hP t _ (h.buffered t entry he)
  waiting t entry he := hP t _ (h.waiting t entry he)
  subscribed u sub hsub :=
    have hs := h.subscribed u sub hsub
    ⟨fun e he => hP _ _ (hs.handed e he), fun e he => hP _ _ (hs.queue e he),
      fun rest hrest e he => hP _ _ (hs.replaying rest hrest e he)⟩
  listed := h.listed

theorem separate_empty : ({} : InMemoryEventBus ε).Separate P where
  buffered _ _ he := by cases he
  waiting _ _ he := by cases he
  subscribed _ _ hsub := by cases hsub
  listed _ _ hu := by cases hu

/-! ### The parts of a step -/

theorem taskId_of_found {old : Subscriber ε} (hsub : bus.subscribers u = some sub)
    (hfound : bus.subscribers u = some old) : sub.taskId = old.taskId := by
  rw [Option.some_inj.mp (hsub.symm.trans hfound)]

/-- A subscription of the same task in the place of another. -/
theorem SubscribesTo.setSubscriber {v : SubId} (h : bus.SubscribesTo u t)
    (hold : ∀ old, bus.subscribers v = some old → sub.taskId = old.taskId) :
    (bus.setSubscriber v sub).SubscribesTo u t := by
  obtain ⟨old, hfound, rfl⟩ := h
  by_cases hu : u = v
  · subst hu
    exact ⟨sub, Function.update_self .., hold old hfound⟩
  · exact ⟨old, (Function.update_of_ne hu ..).trans hfound, rfl⟩

theorem Separate.setSubscriber (h : bus.Separate P) (hsub : sub.Carries (P sub.taskId))
    (hold : ∀ old, bus.subscribers u = some old → sub.taskId = old.taskId) :
    (bus.setSubscriber u sub).Separate P := by
  refine ⟨h.buffered, h.waiting, fun u' sub' hsub' => ?_,
    fun t u' hu' => (h.listed t u' hu').setSubscriber hold⟩
  by_cases hu : u' = u
  · subst hu
    simp only [InMemoryEventBus.setSubscriber, Function.update_self] at hsub'
    obtain rfl := Option.some_inj.mp hsub'
    exact hsub
  · simp only [InMemoryEventBus.setSubscriber, Function.update_of_ne hu] at hsub'
    exact h.subscribed u' sub' hsub'

theorem Separate.withLock (h : bus.Separate P) {lock : List (Waiter ε)}
    (hlock : ∀ t entry, .publish t entry ∈ lock → P t entry.event) :
    ({ bus with lock } : InMemoryEventBus ε).Separate P :=
  ⟨h.buffered, hlock, h.subscribed, h.listed⟩

/-- A waiter that publishes nothing. -/
theorem Separate.enqueue (h : bus.Separate P) {w : Waiter ε}
    (hw : ∀ t entry, w ≠ .publish t entry) :
    ({ bus with lock := bus.lock ++ [w] } : InMemoryEventBus ε).Separate P := by
  refine h.withLock fun t entry hentry => ?_
  rcases List.mem_append.mp hentry with hentry | hentry
  · exact h.waiting t entry hentry
  · exact absurd (List.mem_singleton.mp hentry).symm (hw t entry)

theorem Separate.purgeExpired (h : bus.Separate P) : bus.purgeExpired.Separate P := by
  refine ⟨fun t entry he => ?_, h.waiting, h.subscribed, h.listed⟩
  simp only [InMemoryEventBus.purgeExpired] at he
  split at he
  · cases he
  · exact h.buffered t entry he

theorem Separate.publish (h : bus.Separate P) {e : ε} (he : P t e) :
    (bus.publish cfg t e).Separate P := by
  have h' := h.purgeExpired
  refine ⟨fun t' entry hentry => ?_, fun t' entry hentry => ?_, h'.subscribed, h'.listed⟩
  · by_cases ht : t' = t
    · subst ht
      simp only [InMemoryEventBus.publish, Function.update_self] at hentry
      rcases List.mem_append.mp (List.mem_of_mem_drop hentry) with hentry | hentry
      · exact h'.buffered t' entry hentry
      · obtain rfl := List.mem_singleton.mp hentry
        exact he
    · simp only [InMemoryEventBus.publish, Function.update_of_ne ht] at hentry
      exact h'.buffered t' entry hentry
  · rcases List.mem_append.mp hentry with hentry | hentry
    · exact h'.waiting t' entry hentry
    · obtain ⟨rfl, rfl⟩ := Waiter.publish.inj (List.mem_singleton.mp hentry)
      exact he

/-- The fan-out reaches the subscriptions of the task only. -/
theorem Separate.fanOut (h : bus.Separate P) {entry : LogEntry ε} (hentry : P t entry.event) :
    (bus.runWaiter cfg (.publish t entry)).Separate P := by
  refine ⟨h.buffered, h.waiting, fun u sub hsub => ?_, fun t' u hu => ?_⟩
  · simp only [InMemoryEventBus.runWaiter] at hsub
    split at hsub
    · rename_i hlisted
      obtain ⟨sub₀, hsub₀, rfl⟩ := Option.map_eq_some_iff.mp hsub
      obtain ⟨sub₁, hsub₁, htask⟩ := h.listed t u hlisted
      obtain rfl := Option.some_inj.mp (hsub₁.symm.trans hsub₀)
      rw [(send_frame sub₁ cfg.eventBuffer entry).1, htask]
      have hcarries := h.subscribed u sub₁ hsub₀
      rw [htask] at hcarries
      exact hcarries.send hentry _
    · exact h.subscribed u sub hsub
  · obtain ⟨sub, hsub, htask⟩ := h.listed t' u hu
    refine ⟨if u ∈ bus.subs t then sub.send cfg.eventBuffer entry else sub, ?_, ?_⟩
    · simp only [InMemoryEventBus.runWaiter, hsub, Option.map_some]
      split <;> rfl
    · split
      · rw [(send_frame sub cfg.eventBuffer entry).1, htask]
      · exact htask

/-- A critical section only passes on what its waiter holds. -/
theorem Separate.runWaiter (h : bus.Separate P) {w : Waiter ε}
    (hw : ∀ t entry, w = .publish t entry → P t entry.event) :
    (bus.runWaiter cfg w).Separate P := by
  cases w with
  | publish t entry => exact h.fanOut (hw t entry rfl)
  | register u =>
    simp only [InMemoryEventBus.runWaiter]
    split
    · exact h
    rename_i sub hsub
    have hs := h.subscribed u sub hsub
    have hset : (bus.setSubscriber u { sub with
        phase := .start, snapshotId := bus.counters sub.taskId }).Separate P :=
      h.setSubscriber ⟨hs.handed, hs.queue, fun _ hrest => (by cases hrest)⟩
        fun _ hfound => (taskId_of_found hsub hfound :)
    refine ⟨hset.buffered, hset.waiting, hset.subscribed, fun t v hv => ?_⟩
    by_cases ht : t = sub.taskId
    · subst ht
      simp only [Function.update_self, List.mem_append, List.mem_singleton] at hv
      rcases hv with hv | rfl
      · exact hset.listed _ v hv
      · exact ⟨_, Function.update_self .., rfl⟩
    · simp only [Function.update_of_ne ht] at hv
      exact hset.listed t v hv
  | unregister u =>
    simp only [InMemoryEventBus.runWaiter]
    split
    · exact h
    rename_i sub hsub
    refine ⟨h.buffered, h.waiting, h.subscribed, fun t v hv => h.listed t v ?_⟩
    by_cases ht : t = sub.taskId
    · subst ht
      simp only [Function.update_self] at hv
      exact List.mem_of_mem_erase hv
    · simpa only [Function.update_of_ne ht] using hv
  | cleanup t =>
    refine Separate.purgeExpired ⟨h.buffered, h.waiting, h.subscribed, fun t' v hv => ?_⟩
    by_cases ht : t' = t
    · subst ht
      simp only [Function.update_self] at hv
      exact absurd hv List.not_mem_nil
    · simp only [Function.update_of_ne ht] at hv
      exact h.listed t' v hv

/-! ### A step -/

theorem Separate.step {a : BusAction ε} {out : Option (SubId × LogEntry ε)} (h : bus.Separate P)
    (ha : ∀ t e, a = .publish t e → P t e) (hstep : bus.step cfg isTerminal a = some (bus', out)) :
    bus'.Separate P := by
  cases busTurn_of_step hstep with
  | publish t e => exact h.publish (ha t e rfl)
  | @subscribe v t after hnone =>
    have hset : (bus.setSubscriber v { taskId := t, afterEventId := after }).Separate P :=
      h.setSubscriber ⟨fun _ he => (by cases he), fun _ he => (by cases he),
        fun _ hrest => (by cases hrest)⟩ fun old hfound => by cases hnone.symm.trans hfound
    exact hset.enqueue fun _ _ => nofun
  | @unsubscribe v sub hsub hph hleft =>
    have hs := h.subscribed v sub hsub
    have hset : (bus.setSubscriber v { sub with left := true }).Separate P :=
      h.setSubscriber ⟨hs.handed, hs.queue, hs.replaying⟩
        fun _ hfound => (taskId_of_found hsub hfound :)
    exact hset.enqueue fun _ _ => nofun
  | cleanup t => exact h.enqueue fun _ _ => nofun
  | @grant w rest hlock =>
    have hrest : ({ bus with lock := rest } : InMemoryEventBus ε).Separate P :=
      h.withLock fun t entry he => h.waiting t entry (by simp [hlock, he])
    refine hrest.runWaiter fun t entry hw => ?_
    exact h.waiting t entry (by simp [hlock, hw])
  | next hsub hleft hiter =>
    have hsame := hiter.frame.2.2.2.1
    have hcarries := ((h.subscribed _ _ hsub).iterStep (h.buffered _) hiter).1
    rw [← hsame] at hcarries
    exact h.setSubscriber hcarries fun _ hfound => hsame.trans (taskId_of_found hsub hfound)
  | tick dt => exact ⟨h.buffered, h.waiting, h.subscribed, h.listed⟩

/-- What a step hands to a subscription is an event of its task. -/
theorem Separate.yields {a : BusAction ε} {entry : LogEntry ε} (h : bus.Separate P)
    (hstep : bus.step cfg isTerminal a = some (bus', some (u, entry))) :
    ∃ t, bus'.SubscribesTo u t ∧ P t entry.event := by
  have hturn := busTurn_of_step hstep
  generalize hout : some (u, entry) = out at hturn
  cases hturn with
  | next hsub hleft hiter =>
    obtain ⟨e, he, heq⟩ := Option.map_eq_some_iff.mp hout.symm
    obtain ⟨rfl, rfl⟩ := Prod.mk.inj heq
    exact ⟨_, ⟨_, Function.update_self .., hiter.frame.2.2.2.1⟩,
      ((h.subscribed _ _ hsub).iterStep (h.buffered _) hiter).2 e he⟩
  | _ => cases hout

/-- A subscription stays one of its task. -/
theorem SubscribesTo.step {a : BusAction ε} {out : Option (SubId × LogEntry ε)}
    (h : bus.SubscribesTo u t) (hstep : bus.step cfg isTerminal a = some (bus', out)) :
    bus'.SubscribesTo u t := by
  cases busTurn_of_step hstep with
  | publish t e => exact h
  | subscribe hnone => exact h.setSubscriber fun old hfound => by cases hnone.symm.trans hfound
  | unsubscribe hsub _ _ =>
    exact h.setSubscriber fun _ hfound => (taskId_of_found hsub hfound :)
  | cleanup t => exact h
  | @grant w rest hlock =>
    cases w with
    | publish t' entry =>
      obtain ⟨sub, hsub, htask⟩ := h
      refine ⟨if u ∈ bus.subs t' then sub.send cfg.eventBuffer entry else sub, ?_, ?_⟩
      · simp only [InMemoryEventBus.runWaiter, hsub, Option.map_some]
        split <;> rfl
      · split
        · rw [(send_frame sub cfg.eventBuffer entry).1, htask]
        · exact htask
    | register v =>
      simp only [InMemoryEventBus.runWaiter]
      split
      · exact h
      · rename_i sub hsub
        have hsame : ∀ old, bus.subscribers v = some old → sub.taskId = old.taskId :=
          fun _ => taskId_of_found hsub
        exact SubscribesTo.setSubscriber h hsame
    | unregister v =>
      simp only [InMemoryEventBus.runWaiter]
      split <;> exact h
    | cleanup t' => exact h
  | next hsub hleft hiter =>
    exact h.setSubscriber fun _ hfound =>
      hiter.frame.2.2.2.1.trans (taskId_of_found hsub hfound)
  | tick dt => exact h

end

end InMemoryEventBus

/-! ### What a subscription has received -/

open InMemoryEventBus (SubscribesTo Separate)

/-- The event was published for the task. -/
def World.Published (w : World) (t : TaskId) (e : StreamEvent Ref) : Prop :=
  ∃ rec ∈ w.history, rec.action = .publish t e

/-- The bus holds what was published, each event in the stream of its task, and has handed
nothing else to its subscriptions. -/
structure OwnStreams (w : World) : Prop where
  carried : w.bus.Separate w.Published
  handed : ∀ rec ∈ w.history, ∀ u entry, rec.out = some (u, entry) →
    ∃ t, w.bus.SubscribesTo u t ∧ w.Published t entry.event

namespace OwnStreams

variable {cfg : BusConfig} {w w' : World} {u : SubId} {t : TaskId} {e : StreamEvent Ref}

/-- Before the first step of the bus. -/
theorem start (hbus : w.bus = {}) (hhistory : w.history = []) : OwnStreams w where
  carried := by
    rw [hbus]
    exact InMemoryEventBus.separate_empty
  handed rec hrec := by
    rw [hhistory] at hrec
    exact absurd hrec List.not_mem_nil

theorem frame (h : OwnStreams w) (hbus : w'.bus = w.bus) (hhistory : w'.history = w.history) :
    OwnStreams w' := by
  have hpub : w'.Published = w.Published := by
    funext t e
    rw [World.Published, hhistory, World.Published]
  refine ⟨by rw [hbus, hpub]; exact h.carried, ?_⟩
  rw [hbus, hpub, hhistory]
  exact h.handed

/-- A publisher that leaves the lock queue. -/
theorem withdraw (h : OwnStreams w) (p : Waiter (StreamEvent Ref) → Bool) :
    OwnStreams { w with bus := { w.bus with lock := w.bus.lock.filter p } } where
  carried := h.carried.withLock fun t entry he =>
    h.carried.waiting t entry (List.mem_of_mem_filter he)
  handed := h.handed

theorem busStep {a : BusAction (StreamEvent Ref)} (h : OwnStreams w)
    (hstep : w.busStep cfg a = some w') : OwnStreams w' := by
  obtain ⟨⟨bus, out⟩, hbus, rfl⟩ := World.busStep_some hstep
  have hgrown : ∀ t e, w.Published t e →
      World.Published { w with bus, history := w.history ++ [⟨a, out, w.heap⟩] } t e :=
    fun t e ⟨rec, hmem, hact⟩ => ⟨rec, List.mem_append_left _ hmem, hact⟩
  have hcarried := h.carried.mono hgrown
  refine ⟨hcarried.step (fun t e ha => ⟨_, List.mem_concat_self, ha⟩) hbus,
    fun rec hrec u entry hout => ?_⟩
  rcases List.mem_append.mp hrec with hrec | hrec
  · obtain ⟨t, hsub, hpub⟩ := h.handed rec hrec u entry hout
    exact ⟨t, hsub.step hbus, hgrown _ _ hpub⟩
  · obtain rfl := List.mem_singleton.mp hrec
    obtain rfl : out = some (u, entry) := hout
    exact hcarried.yields hbus

/-- What a subscription of the task has received was published for the task. -/
theorem received (h : OwnStreams w) (hsub : w.bus.SubscribesTo u t) (he : e ∈ w.handedTo u) :
    w.Published t e := by
  rw [World.handedTo, List.mem_filterMap] at he
  obtain ⟨rec, hrec, hout⟩ := he
  obtain ⟨⟨v, entry⟩, hfiltered, rfl⟩ := Option.map_eq_some_iff.mp hout
  obtain ⟨hgiven, hv⟩ := Option.filter_eq_some_iff.mp hfiltered
  obtain rfl := of_decide_eq_true hv
  obtain ⟨t', ⟨sub', hsub', htask'⟩, hpub⟩ := h.handed rec hrec _ entry hgiven
  obtain ⟨sub, hfound, htask⟩ := hsub
  obtain rfl := Option.some_inj.mp (hfound.symm.trans hsub')
  rw [← htask, htask']
  exact hpub

end OwnStreams

end A2AKit
