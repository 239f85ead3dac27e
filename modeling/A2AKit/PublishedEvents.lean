/-
Published events and later writes.

`emit_artifact` hands the same artifact object to the bus, which keeps it in the queues of
the subscribers and in the replay buffer, and to the buffer of pending writes.  The merge of
SQL and Redis extends the objects of a batch in place, so it can change an event after it
was published.

* `mergeInPlace_heap` — a merge that is `aliasFree` leaves every object alone;
* `Carries.step` — whatever the bus carries or delivers was published before;
* `published_events_intact` — if every merge of the turns is `aliasFree`, every event reads
  as it was published, at every later time and for every subscriber.

The objects of the process are never freed, and a program publishes only objects that it has
built (`Permits.runTurns`), so it is enough that no step changes an object that exists.
-/
import A2AKit.ArtifactRetry
import A2AKit.FinalEvent
import A2AKit.Footprint
import A2AKit.Schedule
import A2AKit.TurnWrites

namespace A2AKit

/-! ### A merge that extends nothing -/

section

variable {h : Heap} {r : Ref} {append : Bool} {os : List Slot}

/-- The ids of a working list. -/
def slotIds (h : Heap) (os : List Slot) : List String := os.map fun o => (o.read h).artifactId

theorem Artifact.extend_of_nil {a : Artifact} {ps : List Part} (h : ps = []) : a.extend ps = a := by
  rw [h, Artifact.extend_nil]

/-- The append of no parts changes nothing. -/
theorem applyArtifactInPlace_heap (hnil : append = true →
    ∀ q ∈ callers os, (h q).artifactId = (h r).artifactId → (h r).parts = []) :
    (applyArtifactInPlace h r append os).1 = h := by
  induction os with
  | nil => rfl
  | cons o os ih =>
    rw [applyArtifactInPlace.eq_def]
    dsimp only
    split
    · rename_i hid
      split
      · rename_i happend
        cases o with
        | fresh a => rfl
        | caller q =>
          have hparts : (h r).parts = [] := hnil happend q List.mem_cons_self hid
          show Function.update h q ((h q).extend (h r).parts) = h
          rw [Artifact.extend_of_nil hparts, Function.update_eq_self]
      · rfl
    · refine ih fun happend q hq => hnil happend q ?_
      cases o with
      | fresh a => exact hq
      | caller p => exact List.mem_cons_of_mem _ hq

/-- The caller's objects after one write: those before, and the written one if it is placed. -/
theorem callers_applyArtifactInPlace {q : Ref}
    (hq : q ∈ callers (applyArtifactInPlace h r append os).2) :
    q ∈ callers os ∨ q = r ∧ (append = false ∨ (h r).artifactId ∉ slotIds h os) := by
  induction os with
  | nil => exact Or.inr ⟨List.mem_singleton.mp hq, Or.inr List.not_mem_nil⟩
  | cons o os ih =>
    have hbehind : q ∈ callers os → q ∈ callers (o :: os) := by
      cases o with
      | fresh a => exact fun hq => hq
      | caller p => exact List.mem_cons_of_mem _
    rw [applyArtifactInPlace.eq_def] at hq
    dsimp only at hq
    split at hq
    · split at hq
      · cases o with
        | fresh a => exact Or.inl hq
        | caller p => exact Or.inl hq
      · rename_i happend
        rcases List.mem_cons.mp hq with rfl | hq
        · exact Or.inr ⟨rfl, Or.inl (by simpa using happend)⟩
        · exact Or.inl (hbehind hq)
    · rename_i hid
      have hnot : (h r).artifactId ∉ slotIds h os → (h r).artifactId ∉ slotIds h (o :: os) := by
        intro hmem hcons
        rcases List.mem_cons.mp hcons with heq | hmem'
        · exact hid heq.symm
        · exact hmem hmem'
      have htail : q ∈ callers (applyArtifactInPlace h r append os).2 → _ := ih
      cases o with
      | fresh a => exact (htail hq).imp hbehind fun hp => ⟨hp.1, hp.2.imp_right hnot⟩
      | caller p =>
        rcases List.mem_cons.mp hq with rfl | hq
        · exact Or.inl List.mem_cons_self
        · exact (htail hq).imp hbehind fun hp => ⟨hp.1, hp.2.imp_right hnot⟩

/-- No id leaves the working list, and the written one is in it. -/
theorem slotIds_applyArtifactInPlace {x : String} (hx : x = (h r).artifactId ∨ x ∈ slotIds h os)
    (hheap : (applyArtifactInPlace h r append os).1 = h) :
    x ∈ slotIds h (applyArtifactInPlace h r append os).2 := by
  induction os with
  | nil =>
    rcases hx with rfl | hx
    · exact List.mem_singleton.mpr rfl
    · exact absurd hx List.not_mem_nil
  | cons o os ih =>
    rw [applyArtifactInPlace.eq_def] at hheap ⊢
    dsimp only at hheap ⊢
    split
    · rename_i hid
      have hmem : x = (h r).artifactId ∨ x ∈ slotIds h os := by
        rcases hx with rfl | hx
        · exact Or.inl rfl
        · exact (List.mem_cons.mp hx).imp_left fun heq => heq.trans hid
      split
      · cases o with
        | fresh a => exact List.mem_cons.mpr (hmem.imp_left fun heq => heq.trans hid.symm)
        | caller q => exact List.mem_cons.mpr (hmem.imp_left fun heq => heq.trans hid.symm)
      · exact List.mem_cons.mpr hmem
    · rename_i hid
      rw [if_neg hid] at hheap
      rcases hx with hx | hx
      · exact List.mem_cons_of_mem _ (ih (Or.inl hx) hheap)
      · rcases List.mem_cons.mp hx with rfl | hx
        · exact List.mem_cons_self
        · exact List.mem_cons_of_mem _ (ih (Or.inr hx) hheap)

/-- The artifact loop, by induction on the batch: no object in the working list is extended by
the rest of it. -/
theorem applyWritesInPlace_heap {ws : List (ArtifactWrite Ref)} {present : List String}
    (hpresent : ∀ x ∈ present, x ∈ slotIds h os)
    (hos : ∀ q ∈ callers os, followParts (h q).artifactId (resolve h ws) = [])
    (hfree : aliasFree present (resolve h ws) = true) : (applyWritesInPlace h os ws).1 = h := by
  induction ws generalizing os present with
  | nil => rfl
  | cons w ws ih =>
    obtain ⟨r, append⟩ := w
    rw [resolve_cons, aliasFree, Bool.and_eq_true] at hfree
    -- an append to the id of an object in the list has no parts
    have hfollow : append = true → ∀ q ∈ callers os, (h q).artifactId = (h r).artifactId →
        (h r).parts = [] ∧ followParts (h r).artifactId (resolve h ws) = [] := by
      intro happend q hq hid
      have hq := hos q hq
      rw [resolve_cons, hid, followParts, if_pos rfl, if_pos happend] at hq
      exact List.append_eq_nil_iff.mp hq
    have hheap : (applyArtifactInPlace h r append os).1 = h :=
      applyArtifactInPlace_heap fun happend q hq hid => (hfollow happend q hq hid).1
    have hplaced : append = false ∨ (h r).artifactId ∉ slotIds h os →
        followParts (h r).artifactId (resolve h ws) = [] := by
      intro hp
      have hplaced : isPlaced present ⟨h r, append⟩ = true := by
        rcases hp with rfl | hmem
        · rfl
        · have hnot : (h r).artifactId ∉ present := fun hx => hmem (hpresent _ hx)
          simp [isPlaced, hnot]
      simpa [hplaced] using hfree.1
    show (applyWritesInPlace (applyArtifactInPlace h r append os).1
      (applyArtifactInPlace h r append os).2 ws).1 = h
    rw [hheap]
    refine ih (fun x hx => ?_) (fun q hq => ?_) hfree.2
    · refine slotIds_applyArtifactInPlace ?_ hheap
      exact (List.mem_cons.mp hx).imp_right (hpresent x)
    · rcases callers_applyArtifactInPlace hq with hq | ⟨rfl, hp⟩
      · by_cases hid : (h q).artifactId = (h r).artifactId
        · rw [hid]
          cases happend : append with
          | false => exact hplaced (Or.inl happend)
          | true => exact (hfollow happend q hq hid).2
        · have hq := hos q hq
          rwa [resolve_cons, followParts, if_neg (Ne.symm hid)] at hq
      · exact hplaced hp

/-- A merge that extends none of the objects it places leaves all objects alone. -/
theorem mergeInPlace_heap {stored : List Artifact} {ws : List (ArtifactWrite Ref)}
    (hfree : aliasFree (artifactIds stored) (resolve h ws) = true) :
    (mergeInPlace h stored ws).1 = h := by
  refine applyWritesInPlace_heap (fun x hx => ?_) (fun q hq => ?_) hfree
  · rw [slotIds, List.map_map]
    exact hx
  · rw [callers_map_fresh] at hq
    exact absurd hq List.not_mem_nil

end

/-! ### What the bus carries -/

section

variable {ε : Type} {P P' : ε → Prop} {cfg : BusConfig} {isTerminal : ε → Bool}

/-- Every event that the subscriber holds satisfies `P`. -/
structure Subscriber.Carries (P : ε → Prop) (sub : Subscriber ε) : Prop where
  handed : ∀ entry ∈ sub.handed, P entry.event
  queue : ∀ entry ∈ sub.queue, P entry.event
  replaying : ∀ rest, sub.phase = .replaying rest → ∀ entry ∈ rest, P entry.event

theorem Subscriber.Carries.send {sub : Subscriber ε} {entry : LogEntry ε} (h : sub.Carries P)
    (hentry : P entry.event) (n : Nat) : (sub.send n entry).Carries P := by
  rw [Subscriber.send]
  split
  · refine ⟨fun e he => ?_, h.queue, h.replaying⟩
    obtain rfl := Option.some_inj.mp he
    exact hentry
  split
  · refine ⟨h.handed, fun e he => ?_, h.replaying⟩
    rcases List.mem_append.mp he with he | he
    · exact h.queue e he
    · obtain rfl := List.mem_singleton.mp he
      exact hentry
  · exact h

theorem Subscriber.Carries.receive {sub sub' : Subscriber ε} {entry : LogEntry ε}
    (h : sub.Carries P) (hrec : sub.receive = some (entry, sub')) :
    P entry.event ∧ sub'.Carries P ∧ sub'.phase = sub.phase := by
  rw [Subscriber.receive] at hrec
  split at hrec
  · rename_i e hhanded
    obtain ⟨rfl, rfl⟩ := Prod.mk.inj (Option.some_inj.mp hrec)
    exact ⟨h.handed e hhanded, ⟨(fun _ he => nomatch he), h.queue, h.replaying⟩, rfl⟩
  · rename_i e rest hhanded hqueue
    obtain ⟨rfl, rfl⟩ := Prod.mk.inj (Option.some_inj.mp hrec)
    refine ⟨h.queue e (by simp [hqueue]), ⟨h.handed, fun e' he' => ?_, h.replaying⟩, rfl⟩
    exact h.queue e' (by simp [hqueue, show e' ∈ rest from he'])
  · exact nomatch hrec

/-- One step of the iteration, case by case as in `_iter_events`. -/
theorem Subscriber.Carries.iterStep {sub sub' : Subscriber ε} {buf : List (LogEntry ε)}
    {o : Option (LogEntry ε)} (h : sub.Carries P) (hbuf : ∀ entry ∈ buf, P entry.event)
    (hstep : InMemoryEventBus.IterStep isTerminal buf sub sub' o) :
    sub'.Carries P ∧ ∀ entry ∈ o, P entry.event := by
  have hlive : ∀ n, ({ sub with phase := .live, lastYieldedId := n } : Subscriber ε).Carries P :=
    fun _ => ⟨h.handed, h.queue, fun _ hrest => nomatch hrest⟩
  cases hstep with
  | replay hph hafter =>
    refine ⟨⟨h.handed, h.queue, fun rest hrest => ?_⟩, fun _ he => nomatch he⟩
    obtain rfl := IterPhase.replaying.inj hrest
    exact hbuf
  | bookmark hph hafter => exact ⟨hlive _, fun _ he => nomatch he⟩
  | goLive hph => exact ⟨hlive _, fun _ he => nomatch he⟩
  -- what is yielded and what is left were part of the replay
  | @replayed entry rest hph hid =>
    have hall := h.replaying _ hph
    refine ⟨⟨h.handed, h.queue, fun rest' hrest' => ?_⟩, fun entry' hentry => ?_⟩
    · dsimp only at hrest'
      split at hrest'
      · exact nomatch hrest'
      · obtain rfl := IterPhase.replaying.inj hrest'
        exact fun e he => hall e (List.mem_cons_of_mem _ he)
    · obtain rfl := Option.some_inj.mp hentry
      exact hall entry List.mem_cons_self
  | older hph hid =>
    refine ⟨⟨h.handed, h.queue, fun rest' hrest' => ?_⟩, fun _ he => nomatch he⟩
    obtain rfl := IterPhase.replaying.inj hrest'
    exact fun e he => h.replaying _ hph e (List.mem_cons_of_mem _ he)
  | duplicate hph hrecv hid => exact ⟨(h.receive hrecv).2.1, fun _ he => nomatch he⟩
  | received hph hrecv hid =>
    obtain ⟨hentry, h', -⟩ := h.receive hrecv
    refine ⟨⟨h'.handed, h'.queue, fun rest hrest => ?_⟩, fun e he => ?_⟩
    · dsimp only at hrest
      split at hrest
      · exact nomatch hrest
      · exact nomatch hrest
    · obtain rfl := Option.some_inj.mp he
      exact hentry
  | park hph hrecv hparked =>
    exact ⟨⟨h.handed, h.queue, fun rest hrest => nomatch hph.symm.trans hrest⟩,
      fun _ he => nomatch he⟩

namespace InMemoryEventBus

variable {bus : InMemoryEventBus ε}

/-- Every event in the bus satisfies `P`. -/
structure Carries (P : ε → Prop) (bus : InMemoryEventBus ε) : Prop where
  buffered : ∀ t, ∀ entry ∈ bus.replayBuffers t, P entry.event
  waiting : ∀ t entry, .publish t entry ∈ bus.lock → P entry.event
  subscribed : ∀ u sub, bus.subscribers u = some sub → sub.Carries P

theorem Carries.mono (h : bus.Carries P) (hP : ∀ e, P e → P' e) : bus.Carries P' :=
  ⟨fun t entry he => hP _ (h.buffered t entry he), fun t entry he => hP _ (h.waiting t entry he),
    fun u sub hsub =>
      have hs := h.subscribed u sub hsub
      ⟨fun e he => hP _ (hs.handed e he), fun e he => hP _ (hs.queue e he),
        fun rest hrest e he => hP _ (hs.replaying rest hrest e he)⟩⟩

theorem carries_empty : ({} : InMemoryEventBus ε).Carries P :=
  ⟨(fun _ _ he => nomatch he), (fun _ _ he => nomatch he), fun _ _ he => nomatch he⟩

theorem Carries.setSubscriber {u : SubId} {sub : Subscriber ε} (h : bus.Carries P)
    (hsub : sub.Carries P) : (bus.setSubscriber u sub).Carries P := by
  refine ⟨h.buffered, h.waiting, fun u' sub' hsub' => ?_⟩
  by_cases hu : u' = u
  · subst hu
    simp only [InMemoryEventBus.setSubscriber, Function.update_self] at hsub'
    obtain rfl := Option.some_inj.mp hsub'
    exact hsub
  · simp only [InMemoryEventBus.setSubscriber, Function.update_of_ne hu] at hsub'
    exact h.subscribed u' sub' hsub'

/-- Fewer publishers wait. -/
theorem Carries.withLock (h : bus.Carries P) {lock : List (Waiter ε)}
    (hlock : ∀ t entry, .publish t entry ∈ lock → P entry.event) :
    ({ bus with lock } : InMemoryEventBus ε).Carries P :=
  ⟨h.buffered, hlock, h.subscribed⟩

theorem Carries.purgeExpired (h : bus.Carries P) : bus.purgeExpired.Carries P := by
  refine ⟨fun t entry he => ?_, h.waiting, h.subscribed⟩
  simp only [InMemoryEventBus.purgeExpired] at he
  split at he
  · cases he
  · exact h.buffered t entry he

theorem Carries.publish (h : bus.Carries P) (t : TaskId) {e : ε} (he : P e) :
    (bus.publish cfg t e).Carries P := by
  have h' := h.purgeExpired
  refine ⟨fun t' entry hentry => ?_, fun t' entry hentry => ?_, h'.subscribed⟩
  · by_cases ht : t' = t
    · subst ht
      simp only [InMemoryEventBus.publish, Function.update_self] at hentry
      rcases List.mem_append.mp (List.mem_of_mem_drop hentry) with hentry | hentry
      · exact h'.buffered t' entry hentry
      · obtain rfl := List.mem_singleton.mp hentry
        exact he
    · simp only [InMemoryEventBus.publish, Function.update_of_ne ht] at hentry
      exact h'.buffered t' entry hentry
  · rcases List.mem_append.mp hentry with hentry | hentry
    · exact h'.waiting t' entry hentry
    · obtain ⟨rfl, rfl⟩ := Waiter.publish.inj (List.mem_singleton.mp hentry)
      exact he

/-- A critical section only passes on what its waiter holds. -/
theorem Carries.runWaiter (h : bus.Carries P) {w : Waiter ε}
    (hw : ∀ t entry, w = .publish t entry → P entry.event) : (bus.runWaiter cfg w).Carries P := by
  cases w with
  | publish t entry =>
    refine ⟨h.buffered, h.waiting, fun u sub hsub => ?_⟩
    simp only [InMemoryEventBus.runWaiter] at hsub
    split at hsub
    · obtain ⟨sub₀, hsub₀, rfl⟩ := Option.map_eq_some_iff.mp hsub
      exact (h.subscribed u sub₀ hsub₀).send (hw t entry rfl) _
    · exact h.subscribed u sub hsub
  | register u =>
    simp only [InMemoryEventBus.runWaiter]
    split
    · exact h
    · rename_i sub hsub
      have hs := h.subscribed u sub hsub
      have hstart : ({ sub with
          phase := .start, snapshotId := bus.counters sub.taskId } : Subscriber ε).Carries P :=
        ⟨hs.handed, hs.queue, fun _ hrest => by cases hrest⟩
      have hset := h.setSubscriber (u := u) hstart
      exact ⟨hset.buffered, hset.waiting, hset.subscribed⟩
  | unregister u =>
    simp only [InMemoryEventBus.runWaiter]
    split
    · exact h
    · exact ⟨h.buffered, h.waiting, h.subscribed⟩
  | cleanup t => exact Carries.purgeExpired ⟨h.buffered, h.waiting, h.subscribed⟩

/-- A step of the bus carries and delivers nothing but what was published. -/
theorem Carries.step {bus' : InMemoryEventBus ε} {a : BusAction ε}
    {out : Option (SubId × LogEntry ε)} (h : bus.Carries P)
    (ha : ∀ t e, a = .publish t e → P e) (hstep : bus.step cfg isTerminal a = some (bus', out)) :
    bus'.Carries P ∧ ∀ u entry, out = some (u, entry) → P entry.event := by
  have hnothing : ∀ u (entry : LogEntry ε), (none : Option (SubId × LogEntry ε)) = some (u, entry) →
      P entry.event := fun _ _ hout => nomatch hout
  have hadd : ∀ {w : Waiter ε}, (∀ t entry, w ≠ .publish t entry) → ∀ t entry,
      .publish t entry ∈ bus.lock ++ [w] → P entry.event := by
    intro w hw t entry hentry
    rcases List.mem_append.mp hentry with hentry | hentry
    · exact h.waiting t entry hentry
    · exact absurd (List.mem_singleton.mp hentry).symm (hw t entry)
  cases busTurn_of_step hstep with
  | publish t e => exact ⟨h.publish t (ha t e rfl), hnothing⟩
  | subscribe hnone =>
    refine ⟨Carries.withLock (h.setSubscriber ?_) (hadd fun _ _ hw => nomatch hw), hnothing⟩
    exact ⟨(fun _ he => nomatch he), (fun _ he => nomatch he), fun _ he => nomatch he⟩
  | unsubscribe hsub hph hleft =>
    have hs := h.subscribed _ _ hsub
    refine ⟨Carries.withLock (h.setSubscriber ?_) (hadd fun _ _ hw => nomatch hw), hnothing⟩
    exact ⟨hs.handed, hs.queue, hs.replaying⟩
  | cleanup t => exact ⟨h.withLock (hadd fun _ _ hw => nomatch hw), hnothing⟩
  | @grant w rest hlock =>
    have hrest : ({ bus with lock := rest } : InMemoryEventBus ε).Carries P :=
      h.withLock fun t entry he => h.waiting t entry (by simp [hlock, he])
    refine ⟨hrest.runWaiter fun t entry hw => ?_, hnothing⟩
    exact h.waiting t entry (by simp [hlock, hw])
  | next hsub hleft hiter =>
    obtain ⟨hsub', hout⟩ := (h.subscribed _ _ hsub).iterStep (h.buffered _) hiter
    refine ⟨h.setSubscriber hsub', fun u entry hentry => ?_⟩
    obtain ⟨e, he, heq⟩ := Option.map_eq_some_iff.mp hentry
    obtain ⟨-, rfl⟩ := Prod.mk.inj heq
    exact hout e he
  | tick dt => exact ⟨⟨h.buffered, h.waiting, h.subscribed⟩, hnothing⟩

end InMemoryEventBus

end

/-! ### Turns that publish what they have built -/

/-- The artifact of a published event is an object that the program has built. -/
def PublishesBuilt (built : Set Ref) {β : Type} (e : Op β) : Prop :=
  match e with
  | .publish event => ∀ r ∈ refs event.writes, r ∈ built
  | _ => True

theorem permits_publishesBuilt : Permits (fun built => PublishesBuilt built) fun _ => True where
  quiet _ e he := by
    cases e with
    | publish event => exact nomatch he
    | _ => trivial
  publish _ _ h := h
  update _ _ _ _ := trivial
  read _ _ _ _ _ := trivial
  write _ _ _ _ _ _ _ _ := trivial

/-- Turns of the task that a process runs, one after another. -/
def runTurns (k : StorageKind) (taskId : TaskId) : List (Option ContextId × Handler) → Prog Op Unit
  | [] => .ret ()
  | (contextId, h) :: turns =>
    (WorkerAdapter.runTaskInner k taskId contextId (TaskContext.run k taskId contextId h) {}).bind
      fun _ => runTurns k taskId turns

theorem Permits.runTurns {P : Set Ref → {β : Type} → Op β → Prop} {states : TaskState → Prop}
    (hP : Permits P states) (hst : ∀ st, st ≠ .submitted → states st) (k : StorageKind)
    (taskId : TaskId) (turns : List (Option ContextId × Handler)) (built : Set Ref) :
    (runTurns k taskId turns).Uses (building P) built := by
  induction turns generalizing built with
  | nil => exact trivial
  | cons turn turns ih =>
    obtain ⟨contextId, h⟩ := turn
    exact Prog.uses_bind (hP.runTaskInner k hst taskId contextId h built le_rfl {})
      fun _ built' _ => ih built'

/-! ### Steps that keep the published objects -/

/-- `updateRead` gets to the merge; Redis checks nothing before it. -/
def SplitStorage.merges (taskId : TaskId) (row : Row) (args : UpdateArgs Ref) :
    SplitStorage → Bool
  | .sql =>
    (args.expectedVersion.filter (· ≠ row.version)).isNone &&
      (terminalGuard taskId row.task.status.state args.state).isNone
  | .redis => true

/-- A merge of the process extends none of the objects of its batch. -/
def mergesApart (taskId : TaskId) {β : Type} (e : Op β) (w : World) : Bool :=
  match e with
  | .updateRead b _ args => w.row.all fun row => !b.merges taskId row args ||
      aliasFree (artifactIds row.task.artifacts) (resolve w.heap args.artifacts)
  | _ => true

/-- Other parties do whatever they like; the artifacts that they publish exist. -/
def sharing (cfg : BusConfig) (taskId : TaskId) (ok : {β : Type} → Op β → World → Prop) :
    Setting where
  cfg := cfg
  taskId := taskId
  writes := fun _ => True
  deletes := True
  cancels := True
  bus := fun w a => ∀ t e, a = .publish t e → ∀ r ∈ refs e.writes, r < w.next
  loads := fun _ _ => True
  ok := ok

theorem heap_mergeValues_of_aliasFree {h : Heap} {t : Task} {args : UpdateArgs Ref}
    {now : Timestamp}
    (hfree : aliasFree (artifactIds t.artifacts) (resolve h args.artifacts) = true) :
    (mergeValues h t args now).1 = h := by
  rw [heap_mergeValues]
  split
  · rfl
  · exact mergeInPlace_heap hfree

/-- The read of an attempt that merges apart leaves the objects alone. -/
theorem updateRead_heap {taskId : TaskId} {b : SplitStorage} {site : Site} {args : UpdateArgs Ref}
    {w : World} (h : mergesApart taskId (.updateRead b site args) w = true) :
    (b.backend.updateRead taskId w.heap w.row args w.ambient.now).1 = w.heap := by
  rw [mergesApart] at h
  cases b with
  | sql =>
    change (SQLStorageBase.updateRead taskId w.heap w.row args w.ambient.now).1 = w.heap
    rw [SQLStorageBase.updateRead.eq_def]
    dsimp only
    split
    · rfl
    · rename_i row hrow
      split
      · rfl
      · rename_i hversion
        split
        · rfl
        · rename_i hguard
          have hmerges : SplitStorage.sql.merges taskId row args = true := by
            rw [SplitStorage.merges, hversion, hguard]
            rfl
          exact heap_mergeValues_of_aliasFree (by simpa [hrow, hmerges] using h)
  | redis =>
    change (RedisStorage.updateRead taskId w.heap w.row args w.ambient.now).1 = w.heap
    rw [RedisStorage.updateRead.eq_def]
    dsimp only
    split
    · rfl
    · rename_i row hrow
      refine heap_mergeValues_of_aliasFree ?_
      simpa [hrow, SplitStorage.merges] using h

/-- An event reads the same as long as its artifact does. -/
theorem StreamEvent.read_congr {e : StreamEvent Ref} {h h' : Heap}
    (heq : ∀ r ∈ refs e.writes, h' r = h r) : e.read h' = e.read h := by
  cases e with
  | artifactUpdate t c r append lastChunk =>
    rw [StreamEvent.read, StreamEvent.read, heq r (List.mem_singleton.mpr rfl)]
  | statusUpdate t c status => rfl
  | terminalMarker t c status => rfl
  | directReply m => rfl

/-- The event was published by a step of the bus. -/
def BusRecord.publishes (rec : BusRecord) (e : StreamEvent Ref) : Prop :=
  ∃ t, rec.action = .publish t e

/-- What a client receives from the subscription `u`, as it reads then. -/
def World.received (u : SubId) (w : World) : List (StreamEvent Artifact) :=
  w.history.filterMap fun rec => (rec.out.filter (·.1 = u)).map fun q => q.2.event.read rec.heap

/-- The same events, as the objects that were handed to it. -/
def World.handedTo (u : SubId) (w : World) : List (StreamEvent Ref) :=
  w.history.filterMap fun rec => (rec.out.filter (·.1 = u)).map fun q => q.2.event

/-- The artifacts of a client that applies the events of a subscription, in order. -/
def World.clientArtifacts (u : SubId) (w : World) : List Artifact :=
  applyWrites [] (announced (w.received u))

/-- Every event reads as it did when it was published: where it is stored, and whenever it was
delivered.  Clients that were given the same events have the same artifacts. -/
structure PublishedIntact (w : World) : Prop where
  stored : ∀ rec ∈ w.history, ∀ e, rec.publishes e → e.read w.heap = e.read rec.heap
  delivered : ∀ before rec after, w.history = before ++ rec :: after → ∀ u entry,
    rec.out = some (u, entry) →
      ∃ rec' ∈ before, rec'.publishes entry.event ∧
        entry.event.read rec.heap = entry.event.read rec'.heap
  clients : ∀ u v, w.handedTo u = w.handedTo v → w.clientArtifacts u = w.clientArtifacts v

/-- What carries `PublishedIntact` along: published objects exist, and the bus carries nothing
that was not published. -/
structure Sealed (w : World) : Prop where
  exist : ∀ rec ∈ w.history, ∀ e, rec.publishes e → ∀ r ∈ refs e.writes, r < w.next
  stored : ∀ rec ∈ w.history, ∀ e, rec.publishes e → e.read w.heap = e.read rec.heap
  delivered : ∀ before rec after, w.history = before ++ rec :: after → ∀ u entry,
    rec.out = some (u, entry) →
      ∃ rec' ∈ before, rec'.publishes entry.event ∧
        entry.event.read rec.heap = entry.event.read rec'.heap
  carries : w.bus.Carries fun e => ∃ rec ∈ w.history, rec.publishes e

section

variable {cfg : BusConfig} {taskId : TaskId} {w w' : World}

/-- A delivered event still reads as it did on delivery. -/
theorem Sealed.received_eq (hw : Sealed w) (u : SubId) :
    w.received u = (w.handedTo u).map fun e => e.read w.heap := by
  rw [World.received, World.handedTo, List.map_filterMap]
  refine List.filterMap_congr fun rec hrec => ?_
  obtain ⟨before, after, hsplit⟩ := List.append_of_mem hrec
  rcases hout : rec.out with _ | ⟨u', entry⟩
  · rfl
  · obtain ⟨rec', hrec', hpub, heq⟩ := hw.delivered before rec after hsplit u' entry hout
    have hnow := hw.stored rec' (by simp [hsplit, hrec']) entry.event hpub
    by_cases hu : u' = u
    · simp [hu, hnow, heq, Option.filter_some]
    · simp [hu, Option.filter_some]

theorem Sealed.intact (hw : Sealed w) : PublishedIntact w := by
  refine ⟨hw.stored, hw.delivered, fun u v huv => ?_⟩
  rw [World.clientArtifacts, World.clientArtifacts, hw.received_eq u, hw.received_eq v, huv]

/-- A step that takes no step of the bus and changes no object that exists. -/
theorem Sealed.frame (hw : Sealed w) (hhistory : w'.history = w.history)
    (hheap : ∀ r < w.next, w'.heap r = w.heap r) (hnext : w.next ≤ w'.next)
    (hbus : w'.bus.Carries fun e => ∃ rec ∈ w.history, rec.publishes e) : Sealed w' := by
  refine ⟨fun rec hrec e he r hr => ?_, fun rec hrec e he => ?_, ?_, ?_⟩
  · rw [hhistory] at hrec
    exact (hw.exist rec hrec e he r hr).trans_le hnext
  · rw [hhistory] at hrec
    rw [StreamEvent.read_congr fun r hr => hheap r (hw.exist rec hrec e he r hr)]
    exact hw.stored rec hrec e he
  · rw [hhistory]
    exact hw.delivered
  · rw [hhistory]
    exact hbus

/-- A step of the bus delivers what was published, as it still reads. -/
theorem Sealed.busStep (hw : Sealed w) {a : BusAction (StreamEvent Ref)}
    (ha : ∀ t e, a = .publish t e → ∀ r ∈ refs e.writes, r < w.next)
    (hbus : w.busStep cfg a = some w') : Sealed w' := by
  obtain ⟨⟨bus', out⟩, hstep, rfl⟩ := World.busStep_some hbus
  have hgrown : w.bus.Carries fun e =>
      ∃ rec ∈ w.history ++ [⟨a, out, w.heap⟩], rec.publishes e := by
    refine hw.carries.mono ?_
    rintro e ⟨rec, hrec, he⟩
    exact ⟨rec, List.mem_append_left _ hrec, he⟩
  have hcarries := hgrown.step ?_ hstep
  swap
  · rintro t e rfl
    exact ⟨_, List.mem_append_right _ (List.mem_singleton.mpr rfl), t, rfl⟩
  have hlast : ∀ rec ∈ w.history ++ [⟨a, out, w.heap⟩],
      rec ∈ w.history ∨ rec = ⟨a, out, w.heap⟩ := fun rec hrec =>
    (List.mem_append.mp hrec).imp_right List.mem_singleton.mp
  refine ⟨?_, ?_, ?_, hcarries.1⟩
  · rintro rec hrec e ⟨t, he⟩
    rcases hlast rec hrec with hrec | rfl
    · exact hw.exist rec hrec e ⟨t, he⟩
    · exact ha t e he
  · rintro rec hrec e he
    rcases hlast rec hrec with hrec | rfl
    · exact hw.stored rec hrec e he
    · rfl
  · intro before rec after hsplit u entry hout
    rcases append_concat_eq hsplit with ⟨-, rfl, rfl⟩ | ⟨after', -, hsplit'⟩
    · -- the step that was just taken: its event was carried, and nothing has changed it
      have hquiet : ∀ t e, a ≠ .publish t e := by
        rintro t e rfl
        exact nomatch (Prod.mk.inj (Option.some_inj.mp hstep)).2.trans hout
      obtain ⟨rec', hrec', hpub⟩ :=
        (hw.carries.step (fun t e he => absurd he (hquiet t e)) hstep).2 u entry hout
      exact ⟨rec', hrec', hpub, hw.stored rec' hrec' _ hpub⟩
    · exact hw.delivered before rec after' hsplit' u entry hout

/-- An operation of a program that publishes what it has built, and merges apart. -/
theorem Sealed.perform {built : Set Ref} {β : Type} {e : Op β} {b : β} (hw : Sealed w)
    (hbuilt : ∀ r ∈ built, r < w.next) (hok : mergesApart taskId e w = true)
    (he : PublishesBuilt built e) (hperf : World.perform cfg taskId e w = some (w', b)) :
    Sealed w' := by
  have hsame : ∀ {w₁ : World}, w₁.history = w.history → w₁.heap = w.heap → w₁.next = w.next →
      w₁.bus = w.bus → Sealed w₁ := by
    intro w₁ hhistory hheap hnext hbus
    refine hw.frame hhistory (fun r _ => by rw [hheap]) (by rw [hnext]) ?_
    rw [hbus]
    exact hw.carries
  cases World.performed hperf with
  | same => exact hw
  | commit _ _ => exact hsame rfl rfl rfl rfl
  | merge => exact hsame rfl (updateRead_heap hok) rfl rfl
  | @alloc artifact =>
    refine hw.frame rfl (fun r hr => ?_) (Nat.le_succ _) hw.carries
    exact Function.update_of_ne (Nat.ne_of_lt hr) _ _
  | @publish event w₁ hbus =>
    have h₁ : Sealed w₁ := by
      refine hw.busStep (fun t e' heq r hr => ?_) hbus
      obtain ⟨-, rfl⟩ := BusAction.publish.inj heq
      exact hbuilt r (he r hr)
    exact h₁.frame rfl (fun _ _ => rfl) le_rfl h₁.carries
  | withdraw _ =>
    refine hw.frame rfl (fun _ _ => rfl) le_rfl (hw.carries.withLock fun t entry hentry => ?_)
    exact hw.carries.waiting t entry (List.mem_of_mem_filter hentry)
  | scope => exact hsame rfl rfl rfl rfl
  | cleanup hbus => exact hw.busStep (a := .cleanup taskId) (fun _ _ h => nomatch h) hbus

/-- What the program has built exists. -/
theorem built_lt {built : Set Ref} {β : Type} {e : Op β} {b : β}
    (hbuilt : ∀ r ∈ built, r < w.next) (hperf : World.perform cfg taskId e w = some (w', b)) :
    ∀ r ∈ built ∪ e.built b, r < w'.next := by
  have hnext : w.next ≤ w'.next := by
    cases World.performed hperf with
    | alloc => exact Nat.le_succ _
    | publish hbus =>
      obtain ⟨out, -, rfl⟩ := World.busStep_some hbus
      exact le_rfl
    | cleanup hbus =>
      obtain ⟨out, -, rfl⟩ := World.busStep_some hbus
      exact le_rfl
    | _ => exact le_rfl
  rintro r (hr | hr)
  · exact (hbuilt r hr).trans_le hnext
  · cases e with
    | newArtifact artifact =>
      obtain ⟨rfl, rfl⟩ := Prod.mk.inj (Option.some_inj.mp hperf)
      obtain rfl : r = w.next := hr
      exact Nat.lt_succ_self _
    | _ => exact absurd hr (Set.notMem_empty r)

theorem stable_sealed {ok : {β : Type} → Op β → World → Prop} :
    (sharing cfg taskId ok).Stable Sealed := by
  intro w w' hstep hw
  cases hstep with
  | bus hbus hstep => exact hw.busStep hbus hstep
  | _ => exact hw.frame rfl (fun _ _ => rfl) le_rfl hw.carries

theorem stable_built {ok : {β : Type} → Op β → World → Prop} (built : Set Ref) :
    (sharing cfg taskId ok).Stable fun w => ∀ r ∈ built, r < w.next := by
  intro w w' hstep hw
  cases hstep with
  | bus _ hbus =>
    obtain ⟨out, -, rfl⟩ := World.busStep_some hbus
    exact hw
  | _ => exact hw

end

/-- **Published events stay as they were** in every run of turns on SQL or Redis in which no merge
extends an object of its own batch: what is stored, replayed or delivered live reads as it was
published, so a client that replays has the artifacts of one that has consumed the same events
live. -/
theorem published_events_intact (b : SplitStorage) (cfg : BusConfig) (taskId : TaskId)
    (turns : List (Option ContextId × Handler)) (w w' : World) (hbus : w.bus = {})
    (hhistory : w.history = []) (p' : Prog Op Unit)
    (hrun : (sharing cfg taskId fun e w => mergesApart taskId e w = true).system.Reaches
      (runTurns (.split b) taskId turns, w) (p', w')) : PublishedIntact w' := by
  have hsealed : Sealed w := by
    refine ⟨?_, ?_, ?_, ?_⟩
    · simp [hhistory]
    · simp [hhistory]
    · simp [hhistory]
    · rw [hbus]
      exact InMemoryEventBus.carries_empty
  have huses := permits_publishesBuilt.runTurns (fun _ _ => trivial) (.split b) taskId turns ∅
  obtain ⟨built, -, -, hw'⟩ := Prog.uses_invariant (S := (sharing cfg taskId _).system)
    (I := fun (built : Set Ref) (w : World) => (∀ r ∈ built, r < w.next) ∧ Sealed w)
    (fun built => (stable_built built).and stable_sealed)
    (fun built β e w w' b hok he hperf hw =>
      ⟨built_lt hw.1 hperf, hw.2.perform hw.1 hok he hperf⟩)
    hrun huses ⟨(fun _ h => nomatch h), hsealed⟩
  exact hw'.intact

/-! ### A first chunk and its continuation -/

/-- A handler that emits an artifact in two chunks. -/
def chunked : Handler :=
  .call (.emitArtifact { artifactId := "a", content := { text := some "x" } }) fun _ =>
    .call (.emitArtifact { artifactId := "a", content := { text := some "y" }, append := true })
      fun _ => .call (.lifecycle (.complete none "answer")) .done

/-- Subscription 0 takes every event as it comes. -/
def grantAndConsume : List Move := [.bus .grant, .bus (.next 0)]

/-- Subscription 1 comes when the turn is over, and replays from id 0. -/
def replayLate : List Move :=
  [Move.bus .grant, .bus (.subscribe 1 "t" (some 0)), .bus .grant] ++
    List.replicate 5 (Move.bus (.next 1))

/-- The turn of `chunked` up to its end; `n` operations lie between the two chunks. -/
def chunkedTurn (n : Nat) : List Move :=
  Move.bus (.subscribe 0 "t" none) :: grantAndConsume ++ List.replicate 14 Move.step ++
    grantAndConsume ++ List.replicate 5 Move.step ++ grantAndConsume ++
    List.replicate n Move.step ++ grantAndConsume ++ List.replicate 14 Move.step ++
    grantAndConsume ++ List.replicate 7 Move.step

theorem allows_chunkedTurn {ok : {β : Type} → Op β → World → Prop} (n : Nat) :
    ∀ m ∈ chunkedTurn n ++ replayLate, (sharing ⟨10, 10, 60⟩ "t" ok).Allows m := by
  have hbus : ∀ a : BusAction (StreamEvent Ref), (∀ t e, a ≠ .publish t e) →
      (sharing ⟨10, 10, 60⟩ "t" ok).Allows (.bus a) :=
    fun a ha => allows_bus fun _ t e h => absurd h (ha t e)
  simp +contextual [chunkedTurn, replayLate, grantAndConsume, or_imp, allows_step, hbus]

/-- Both chunks are flushed in one batch: the merge extends the object of the first one, and who
replays afterwards gets the second chunk twice. -/
theorem replayed_chunk_doubled :
    ∃ w', (sharing ⟨10, 10, 60⟩ "t" fun _ _ => True).system.Reaches
      (runTurns (.split .sql) "t" [(some "c", chunked)], World.holding workingTask 1)
      (.ret (), w') ∧
      w'.handedTo 0 = w'.handedTo 1 ∧
      w'.clientArtifacts 0 = [⟨"a", "", "", [{ text := some "x" }, { text := some "y" }]⟩] ∧
      w'.clientArtifacts 1 =
        [⟨"a", "", "", [{ text := some "x" }, { text := some "y" }, { text := some "y" }]⟩] ∧
      ¬ PublishedIntact w' := by
  have hplay : ((execute ⟨10, 10, 60⟩ "t" anyOp (chunkedTurn 5 ++ replayLate)
      (runTurns (.split .sql) "t" [(some "c", chunked)]) (World.holding workingTask 1)).any
      fun r => decide (r.2.handedTo 0 = r.2.handedTo 1 ∧
        r.2.clientArtifacts 0 = [⟨"a", "", "", [{ text := some "x" }, { text := some "y" }]⟩] ∧
        r.2.clientArtifacts 1 =
          [⟨"a", "", "", [{ text := some "x" }, { text := some "y" }, { text := some "y" }]⟩])) =
      true := by decide +kernel
  obtain ⟨⟨u, w'⟩, hexec, hcheck⟩ := (Option.any_eq_true _ _).mp hplay
  obtain ⟨hsame, hlive, hlate⟩ := of_decide_eq_true hcheck
  refine ⟨w', execute_reaches (fun _ _ _ _ => trivial) (allows_chunkedTurn 5) hexec, hsame, hlive,
    hlate, fun h => ?_⟩
  have heq := h.clients 0 1 hsame
  rw [hlive, hlate] at heq
  simp at heq

/-- The same handler on a slower clock: the first chunk is flushed on its own, so the replay has
what was stored. -/
theorem flushed_apart_intact :
    ∃ w', (sharing ⟨10, 10, 60⟩ "t" fun e w => mergesApart "t" e w = true).system.Reaches
      (runTurns (.split .sql) "t" [(some "c", chunked)],
        { World.holding workingTask 1 with ambient := ⟨"", 500, "", false, false⟩ })
      (.ret (), w') ∧
      w'.clientArtifacts 1 = [⟨"a", "", "", [{ text := some "x" }, { text := some "y" }]⟩] ∧
      PublishedIntact w' := by
  have hplay : ((execute ⟨10, 10, 60⟩ "t" (mergesApart "t") (chunkedTurn 11 ++ replayLate)
      (runTurns (.split .sql) "t" [(some "c", chunked)])
      { World.holding workingTask 1 with ambient := ⟨"", 500, "", false, false⟩ }).any
      fun r => decide (r.2.clientArtifacts 1 =
        [⟨"a", "", "", [{ text := some "x" }, { text := some "y" }]⟩])) = true := by
    decide +kernel
  obtain ⟨⟨u, w'⟩, hexec, hcheck⟩ := (Option.any_eq_true _ _).mp hplay
  have hrun := execute_reaches (T := sharing ⟨10, 10, 60⟩ "t" fun e w => mergesApart "t" e w = true)
    (fun _ _ _ h => h) (allows_chunkedTurn 11) hexec
  exact ⟨w', hrun, of_decide_eq_true hcheck,
    published_events_intact .sql ⟨10, 10, 60⟩ "t" _ _ w' rfl rfl _ hrun⟩

end A2AKit
