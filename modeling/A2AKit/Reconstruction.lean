/-
The artifacts that a subscriber puts together.

`subscribe_task` registers at the bus, which takes a bookmark, loads a snapshot of the task, and
then yields the events behind the bookmark; a client applies the artifact updates among them to the
artifacts of the snapshot.  The handler's context publishes a chunk before it stores it, and stores
its chunks in batches, so the bookmark and the snapshot may lie apart.

`Tracked` says where a turn on `InMemoryStorage` stands: how much of what it has emitted is stored,
how much of it was published, and how much of it is in the snapshot.  Every call of the handler
keeps it (`runCall`), and so does every step of the bus and of the other writers
(`stable_tracked`).

* `artifacts_reconstructed` — the client has the stored artifacts if the snapshot contains exactly
  the writes up to the bookmark, and otherwise it misses the writes between the two, or applies
  them twice.
-/
import A2AKit.FlushSchedule
import A2AKit.PublishedEvents

namespace A2AKit

open Act (Triple)
open InMemoryEventBus (BusTrace DeliveryOk CaughtUp eventsOf publishedOf yieldedBy yieldOf)

namespace World

/-- The steps of the bus and what they have yielded. -/
def busTrace (w : World) : BusTrace (StreamEvent Ref) :=
  w.history.map fun rec => (rec.action, rec.out)

/-- The events published for the task, as they read when they were published. -/
def log (taskId : TaskId) (w : World) : List (StreamEvent Artifact) :=
  w.history.flatMap fun rec => (eventsOf taskId rec.action).map fun e => e.read rec.heap

theorem log_busStep {cfg : BusConfig} (taskId : TaskId) {w w' : World}
    {a : BusAction (StreamEvent Ref)} (h : w.busStep cfg a = some w') :
    w'.log taskId = w.log taskId ++ (eventsOf taskId a).map fun e => e.read w.heap := by
  obtain ⟨out, -, rfl⟩ := busStep_some h
  simp [log]

end World

/-- Other writers leave the artifacts alone, and other publishers announce neither artifacts of the
task nor the end of its stream. -/
def watched (cfg : BusConfig) (taskId : TaskId) : Setting where
  cfg := cfg
  taskId := taskId
  writes := fun args => args.artifacts = []
  bus := fun w a => ∀ t e, a = .publish t e → (∀ r ∈ refs e.writes, r < w.next) ∧
    (t = taskId → e.writes = [] ∧ e.isStreamTerminal = false)
  loads := fun _ _ => True

/-- The steps of the bus were such that the subscription to the task loses nothing. -/
def World.Delivers (cfg : BusConfig) (taskId : TaskId) (u : SubId) (w : World) : Prop :=
  (exec (InMemoryEventBus.step cfg StreamEvent.isStreamTerminal)
    (DeliveryOk cfg StreamEvent.isStreamTerminal u taskId) {}
    (w.history.map BusRecord.action)).isSome = true

instance (cfg : BusConfig) (taskId : TaskId) (u : SubId) (w : World) :
    Decidable (w.Delivers cfg taskId u) :=
  inferInstanceAs (Decidable (_ = true))

/-- The world goes back to an empty bus, and no cancellation is requested. -/
structure Watched (cfg : BusConfig) (w : World) : Prop where
  run : Run (InMemoryEventBus.step cfg StreamEvent.isStreamTerminal) (fun _ _ => True) {}
    w.busTrace w.bus
  intact : Sealed w
  uncancelled : w.cancelled = false

theorem watched_start {cfg : BusConfig} {w : World} (hbus : w.bus = {}) (hhistory : w.history = [])
    (hcancelled : w.cancelled = false) : Watched cfg w := by
  refine ⟨?_, ⟨?_, ?_, ?_, ?_⟩, hcancelled⟩
  · rw [World.busTrace, hhistory, hbus]
    exact .nil _
  · simp [hhistory]
  · simp [hhistory]
  · simp [hhistory]
  · rw [hbus]
    exact InMemoryEventBus.carries_empty

/-- What a turn finds: the events before it, the stored artifacts, and whether the snapshot is
already loaded. -/
structure TurnStart where
  log : List (StreamEvent Artifact)
  artifacts : List Artifact
  loaded : Prop

/-- Where a turn stands that has begun at `t₀`: of the writes `es` those of the batch `ws` are not
stored yet, and `out` were announced. -/
structure Tracked (cfg : BusConfig) (taskId : TaskId) (u : SubId) (t₀ : TurnStart)
    (es : List (ArtifactWrite Artifact)) (ws : List (ArtifactWrite Ref))
    (out : List (ArtifactWrite Artifact)) (w : World) : Prop
    extends Watched cfg w where
  begun : t₀.log <+: w.log taskId
  built : ∀ r ∈ refs ws, r < w.next
  stored : ∃ row flushed, w.row = some row ∧ es = flushed ++ resolve w.heap ws ∧
    row.task.artifacts = applyWrites t₀.artifacts flushed
  loaded : t₀.loaded → (w.snapshots u).isSome = true
  snapshot : ∀ task, w.snapshots u = some task → ∃ seen, seen <+: es ∧ (t₀.loaded → seen = []) ∧
    task.artifacts = applyWrites t₀.artifacts seen
  published : announced ((w.log taskId).drop t₀.log.length) = out
  ending : ∃ pre post, (w.log taskId).drop t₀.log.length = pre ++ post ∧
    (∀ e ∈ pre, e.isStreamTerminal = false) ∧ announced post = []

/-- The turn has not announced its end. -/
structure Going (cfg : BusConfig) (taskId : TaskId) (u : SubId) (t₀ : TurnStart)
    (es : List (ArtifactWrite Artifact)) (ws : List (ArtifactWrite Ref))
    (out : List (ArtifactWrite Artifact)) (w : World) : Prop
    extends Tracked cfg taskId u t₀ es ws out w where
  unended : ∀ e ∈ (w.log taskId).drop t₀.log.length, e.isStreamTerminal = false

section

variable {cfg : BusConfig} {taskId : TaskId} {u : SubId} {t₀ : TurnStart}
  {es out : List (ArtifactWrite Artifact)} {ws : List (ArtifactWrite Ref)} {w w' : World}
  {X : Exc → TaskContext → World → Prop}

theorem announced_append (l l' : List (StreamEvent Artifact)) :
    announced (l ++ l') = announced l ++ announced l' := List.flatMap_append

theorem read_writes (e : StreamEvent Ref) (h : Heap) : (e.read h).writes = resolve h e.writes := by
  cases e <;> rfl

theorem read_isStreamTerminal (e : StreamEvent Ref) (h : Heap) :
    (e.read h).isStreamTerminal = e.isStreamTerminal := by
  cases e <;> rfl

/-! ### Steps of the bus -/

theorem Watched.busStep (h : Watched cfg w) {a : BusAction (StreamEvent Ref)}
    (ha : ∀ t e, a = .publish t e → ∀ r ∈ refs e.writes, r < w.next)
    (hstep : w.busStep cfg a = some w') : Watched cfg w' := by
  have hsealed := h.intact.busStep ha hstep
  obtain ⟨⟨bus, out⟩, hbus, rfl⟩ := World.busStep_some hstep
  refine ⟨?_, hsealed, h.uncancelled⟩
  rw [World.busTrace, List.map_append]
  exact h.run.append (.cons hbus trivial (.nil _))

/-- A step that publishes nothing of the turn's. -/
theorem Tracked.busStep (h : Tracked cfg taskId u t₀ es ws out w)
    {a : BusAction (StreamEvent Ref)}
    (ha : ∀ t e, a = .publish t e → (∀ r ∈ refs e.writes, r < w.next) ∧
      (t = taskId → e.writes = [] ∧ e.isStreamTerminal = false))
    (hstep : w.busStep cfg a = some w') :
    Tracked cfg taskId u t₀ es ws out w' ∧
      ((∀ e ∈ (w.log taskId).drop t₀.log.length, e.isStreamTerminal = false) →
        ∀ e ∈ (w'.log taskId).drop t₀.log.length, e.isStreamTerminal = false) := by
  have hwatched := h.toWatched.busStep (fun t e heq => (ha t e heq).1) hstep
  have hlog := World.log_busStep taskId hstep
  -- what is new announces nothing and ends nothing
  have hnew : ∀ e ∈ (eventsOf taskId a).map (fun e => e.read w.heap),
      e.writes = [] ∧ e.isStreamTerminal = false := by
    intro e he
    obtain ⟨e₀, he₀, rfl⟩ := List.mem_map.mp he
    cases a with
    | publish t e₁ =>
      rw [eventsOf] at he₀
      split at he₀
      · rename_i ht
        obtain rfl := List.mem_singleton.mp he₀
        obtain ⟨hwrites, hterminal⟩ := (ha t e₀ rfl).2 ht
        rw [read_writes, hwrites, read_isStreamTerminal, hterminal]
        exact ⟨rfl, rfl⟩
      · exact absurd he₀ List.not_mem_nil
    | _ => exact absurd he₀ List.not_mem_nil
  have hnothing : announced ((eventsOf taskId a).map fun e => e.read w.heap) = [] :=
    List.flatMap_eq_nil_iff.mpr fun e he => (hnew e he).1
  have hdrop : (w'.log taskId).drop t₀.log.length =
      (w.log taskId).drop t₀.log.length ++ (eventsOf taskId a).map fun e => e.read w.heap := by
    rw [hlog, List.drop_append_of_le_length h.begun.length_le]
  obtain ⟨pre, post, hsplit, hpre, hpost⟩ := h.ending
  obtain ⟨bus, -, rfl⟩ := World.busStep_some hstep
  refine ⟨⟨hwatched, ?_, h.built, h.stored, h.loaded, h.snapshot, ?_, pre,
    post ++ (eventsOf taskId a).map fun e => e.read w.heap, ?_, hpre, ?_⟩, ?_⟩
  · rw [hlog]
    exact h.begun.trans (List.prefix_append _ _)
  · rw [hdrop, announced_append, hnothing, List.append_nil, h.published]
  · rw [hdrop, hsplit, List.append_assoc]
  · rw [announced_append, hpost, hnothing]
    rfl
  · intro hunended e he
    rw [hdrop, List.mem_append] at he
    rcases he with he | he
    · exact hunended e he
    · exact (hnew e he).2

/-! ### The other parties -/

/-- A step that leaves the bus and the objects alone. -/
theorem Watched.frame (h : Watched cfg w) (hhistory : w'.history = w.history)
    (hbus : w'.bus = w.bus) (hheap : w'.heap = w.heap) (hnext : w'.next = w.next)
    (hcancelled : w'.cancelled = w.cancelled) : Watched cfg w' := by
  refine ⟨?_, h.intact.frame hhistory (fun r _ => by rw [hheap]) (Nat.le_of_eq hnext.symm) ?_,
    hcancelled.trans h.uncancelled⟩
  · rw [World.busTrace, hhistory, hbus]
    exact h.run
  · rw [hbus]
    exact h.intact.carries

theorem stable_tracked :
    (watched cfg taskId).Stable (Tracked cfg taskId u t₀ es ws out) := by
  intro w w' hstep h
  cases hstep with
  | @write row h' args now hargs hrow hguard =>
    refine ⟨h.toWatched.frame rfl rfl rfl rfl rfl, h.begun, h.built, ?_, h.loaded, h.snapshot,
      h.published, h.ending⟩
    obtain ⟨row₀, flushed, hrow₀, hes, hstored⟩ := h.stored
    obtain rfl := Option.some_inj.mp (hrow.symm.trans hrow₀)
    refine ⟨_, flushed, rfl, hes, ?_⟩
    have hnone : args.artifacts = [] := hargs
    rw [InMemoryStorage.updatedTask_artifacts, hnone]
    exact hstored
  | delete hdel => exact hdel.elim
  | cancel hcancel => exact hcancel.elim
  | ambient =>
    exact ⟨h.toWatched.frame rfl rfl rfl rfl rfl, h.begun, h.built, h.stored, h.loaded, h.snapshot,
      h.published, h.ending⟩
  | bus hbus hstep => exact (h.busStep hbus hstep).1
  | @load row v _ hrow _ hnone =>
    refine ⟨h.toWatched.frame rfl rfl rfl rfl rfl, h.begun, h.built, h.stored, fun hearly => ?_,
      fun task htask => ?_, h.published, h.ending⟩
    · have hsome := h.loaded hearly
      by_cases hv : u = v
      · rw [hv, hnone] at hsome
        exact nomatch hsome
      · show (Function.update w.snapshots v _ u).isSome = true
        rw [Function.update_of_ne hv]
        exact hsome
    · have htask' : Function.update w.snapshots v (some row.task) u = some task := htask
      by_cases hv : u = v
      · -- the snapshot has what was flushed by now
        subst hv
        rw [Function.update_self] at htask'
        obtain rfl := Option.some_inj.mp htask'
        obtain ⟨row₀, flushed, hrow₀, hes, hstored⟩ := h.stored
        obtain rfl := Option.some_inj.mp (hrow.symm.trans hrow₀)
        refine ⟨flushed, hes ▸ List.prefix_append _ _, fun hearly => ?_, hstored⟩
        have hsome := h.loaded hearly
        rw [hnone] at hsome
        exact nomatch hsome
      · rw [Function.update_of_ne hv] at htask'
        exact h.snapshot task htask'

theorem stable_going :
    (watched cfg taskId).Stable (Going cfg taskId u t₀ es ws out) := by
  intro w w' hstep h
  refine ⟨stable_tracked w w' hstep h.toTracked, ?_⟩
  cases hstep with
  | bus hbus hstep => exact (h.toTracked.busStep hbus hstep).2 h.unended
  | delete hdel => exact hdel.elim
  | cancel hcancel => exact hcancel.elim
  | _ => exact h.unended

/-- The other parties leave the objects alone. -/
theorem stable_objects {O : Heap → Ref → Prop} :
    (watched cfg taskId).Stable fun w => O w.heap w.next := by
  intro w w' hstep hw
  cases hstep with
  | bus _ hstep =>
    obtain ⟨_, -, rfl⟩ := World.busStep_some hstep
    exact hw
  | _ => exact hw

/-- The turn, and what is known of the objects. -/
theorem stable_reading {O : Heap → Ref → Prop} :
    (watched cfg taskId).Stable fun w =>
      Going cfg taskId u t₀ es ws out w ∧ O w.heap w.next :=
  stable_going.and stable_objects

/-! ### The operations of the turn -/

/-- A new object changes none that exists. -/
theorem Going.alloc (h : Going cfg taskId u t₀ es ws out w) (a : Artifact) :
    Going cfg taskId u t₀ es ws out
      { w with heap := Function.update w.heap w.next a, next := w.next + 1 } := by
  have hold : ∀ r < w.next, Function.update w.heap w.next a r = w.heap r :=
    fun r hr => Function.update_of_ne (Nat.ne_of_lt hr) _ _
  have hwatched : Watched cfg
      { w with heap := Function.update w.heap w.next a, next := w.next + 1 } :=
    ⟨h.run, h.intact.frame rfl hold (Nat.le_succ _) h.intact.carries, h.uncancelled⟩
  refine ⟨⟨hwatched, h.begun, fun r hr => Nat.lt_succ_of_lt (h.built r hr), ?_, h.loaded,
    h.snapshot, h.published, h.ending⟩, h.unended⟩
  obtain ⟨row, flushed, hrow, hes, hstored⟩ := h.stored
  refine ⟨row, flushed, hrow, ?_, hstored⟩
  rw [hes]
  exact congrArg _ (resolve_congr fun r hr => hold r (h.built r hr)).symm

/-- A published chunk goes into the buffer. -/
theorem Going.buffer (h : Going cfg taskId u t₀ es ws out w) {r : Ref} (hr : r < w.next)
    (append : Bool) :
    Going cfg taskId u t₀ (es ++ [⟨w.heap r, append⟩]) (ws ++ [⟨r, append⟩]) out w := by
  refine ⟨⟨h.toWatched, h.begun, fun q hq => ?_, ?_, h.loaded, fun task htask => ?_, h.published,
    h.ending⟩, h.unended⟩
  · rw [refs_append, List.mem_append] at hq
    rcases hq with hq | hq
    · exact h.built q hq
    · rw [List.mem_singleton.mp hq]
      exact hr
  · obtain ⟨row, flushed, hrow, hes, hstored⟩ := h.stored
    exact ⟨row, flushed, hrow, by rw [hes, resolve_append, List.append_assoc]; rfl, hstored⟩
  · obtain ⟨seen, hseen, hearly, htask⟩ := h.snapshot task htask
    exact ⟨seen, hseen.trans (List.prefix_append _ _), hearly, htask⟩

/-- The turn publishes an event. -/
theorem Going.publish (h : Going cfg taskId u t₀ es ws out w) {event : StreamEvent Ref}
    (hbuilt : ∀ r ∈ refs event.writes, r < w.next) {id : Nat}
    (hperf : World.perform cfg taskId (.publish event) w = some (w', id)) :
    Tracked cfg taskId u t₀ es ws (out ++ resolve w.heap event.writes) w' ∧
      (event.isStreamTerminal = false →
        Going cfg taskId u t₀ es ws (out ++ resolve w.heap event.writes) w') := by
  simp only [World.perform, Option.map_eq_some_iff, Prod.mk.injEq] at hperf
  obtain ⟨w₁, hstep, rfl, -⟩ := hperf
  have hwatched := h.toWatched.busStep (a := .publish taskId event)
    (fun t e heq => by obtain ⟨-, rfl⟩ := BusAction.publish.inj heq; exact hbuilt) hstep
  have hlog := World.log_busStep taskId hstep
  rw [eventsOf, if_pos rfl, List.map_singleton] at hlog
  have hdrop : (w₁.log taskId).drop t₀.log.length =
      (w.log taskId).drop t₀.log.length ++ [event.read w.heap] := by
    rw [hlog, List.drop_append_of_le_length h.begun.length_le]
  have hannounced : announced ((w₁.log taskId).drop t₀.log.length) =
      out ++ resolve w.heap event.writes := by
    rw [hdrop, announced_concat, h.published, read_writes]
  obtain ⟨bus, -, rfl⟩ := World.busStep_some hstep
  set w₂ : World := { w with
    bus := bus.1
    history := w.history ++ [⟨.publish taskId event, bus.2, w.heap⟩] } with hw₂
  have hwatched' : Watched cfg
      { w₂ with published := w.published ++ [event.read w.heap] } :=
    hwatched.frame rfl rfl rfl rfl rfl
  have hbegun : t₀.log <+: w₂.log taskId := by
    rw [hlog]
    exact h.begun.trans (List.prefix_append _ _)
  have htracked : ∀ pre post, (w₂.log taskId).drop t₀.log.length = pre ++ post →
      (∀ e ∈ pre, e.isStreamTerminal = false) → announced post = [] →
      Tracked cfg taskId u t₀ es ws (out ++ resolve w.heap event.writes)
        { w₂ with published := w.published ++ [event.read w.heap] } :=
    fun pre post hsplit hpre hpost => ⟨hwatched', hbegun, h.built, h.stored, h.loaded, h.snapshot,
      hannounced, pre, post, hsplit, hpre, hpost⟩
  have hgoing : event.isStreamTerminal = false →
      ∀ e ∈ (w₂.log taskId).drop t₀.log.length, e.isStreamTerminal = false := by
    intro hevent e he
    rw [hdrop, List.mem_append] at he
    rcases he with he | he
    · exact h.unended e he
    · rw [List.mem_singleton.mp he, read_isStreamTerminal, hevent]
  cases hevent : event.isStreamTerminal with
  | false =>
    have hall := hgoing hevent
    have ht := htracked _ [] (List.append_nil _).symm hall rfl
    exact ⟨ht, fun _ => ⟨ht, hall⟩⟩
  | true =>
    -- a marker announces no artifact
    have hwrites : (event.read w.heap).writes = [] := by
      cases event with
      | terminalMarker t c status => rfl
      | _ => cases hevent
    exact ⟨htracked _ _ hdrop h.unended (by simp [announced, hwrites]),
      fun hfalse => absurd hfalse (by decide)⟩

/-- A write of the batch and of more is stored. -/
theorem Going.commit (h : Going cfg taskId u t₀ es ws out w) {site : Site}
    {args : UpdateArgs Ref} {own : List (ArtifactWrite Ref)} (hargs : args.artifacts = ws ++ own)
    {r : Except StorageError Nat}
    (hperf : World.perform cfg taskId (.update site args) w = some (w', r)) :
    match r with
    | .ok _ => Going cfg taskId u t₀ (es ++ resolve w.heap own) [] out w' ∧
      w'.heap = w.heap ∧ w'.next = w.next
    | .error _ => w' = w := by
  simp only [World.perform] at hperf
  split at hperf
  · obtain ⟨rfl, rfl⟩ := Prod.mk.inj (Option.some_inj.mp hperf)
    rfl
  rename_i row hrow
  split at hperf
  · obtain ⟨rfl, rfl⟩ := Prod.mk.inj (Option.some_inj.mp hperf)
    rfl
  rename_i task version hok
  obtain ⟨rfl, rfl⟩ := Prod.mk.inj (Option.some_inj.mp hperf)
  obtain ⟨t, v, hsome, -, rfl, -, -⟩ := InMemoryStorage.updateTask_ok hok
  obtain ⟨rfl, rfl⟩ := Prod.mk.inj (Option.some_inj.mp hsome)
  obtain ⟨row₀, flushed, hrow₀, hes, hstored⟩ := h.stored
  obtain rfl := Option.some_inj.mp (hrow.symm.trans hrow₀)
  refine ⟨⟨⟨h.toWatched.frame rfl rfl rfl rfl rfl, h.begun, fun _ hr => absurd hr List.not_mem_nil,
    ⟨_, es ++ resolve w.heap own, rfl, (List.append_nil _).symm, ?_⟩, h.loaded,
    fun task htask => ?_, h.published, h.ending⟩, h.unended⟩, rfl, rfl⟩
  · rw [InMemoryStorage.updatedTask_artifacts, hargs, resolve_append, hstored,
      ← applyWrites_append, ← List.append_assoc, ← hes]
  · obtain ⟨seen, hseen, hearly, htask⟩ := h.snapshot task htask
    exact ⟨seen, hseen.trans (List.prefix_append _ _), hearly, htask⟩

/-! ### Pieces of the calls -/

/-- The system in which nothing is asked of the turn's operations. -/
abbrev watching (cfg : BusConfig) (taskId : TaskId) : System Op World :=
  (watched cfg taskId).systemWith fun _ _ => True

section Pieces

variable {σ α : Type} {P Q : σ → World → Prop} {X : Exc → σ → World → Prop}

/-- An operation that changes nothing. -/
theorem triple_ask {e : Op α} (hP : ∀ s, (watched cfg taskId).Stable (P s))
    (he : ∀ w w' a, World.perform cfg taskId e w = some (w', a) → w' = w) :
    Triple (watching cfg taskId) P (Act.perform e) (fun _ => P) X := by
  refine Triple.perform hP (fun _ => hP) fun s w hw _ => ⟨trivial, fun w' a hperf => ?_⟩
  rw [he w w' a hperf]
  exact hw

/-- An await that is not interrupted. -/
theorem triple_checkpoint (hP : ∀ s, (watched cfg taskId).Stable (P s))
    (hquiet : ∀ s w, P s w → w.cancelled = false) (pt : AwaitPoint) :
    Triple (watching cfg taskId) P (checkpoint pt) (fun _ => P) X := by
  have hstable : ∀ (raised : Bool) s,
      (watched cfg taskId).Stable fun w => P s w ∧ raised = false :=
    fun _ s => (hP s).and (Setting.Stable.const _)
  refine Triple.bind (Triple.perform (Q := fun raised s w => P s w ∧ raised = false) hP hstable ?_)
    fun raised => ?_
  · intro s w hw _
    refine ⟨trivial, fun w' raised hperf => ?_⟩
    obtain ⟨rfl, rfl⟩ := Prod.mk.inj (Option.some_inj.mp hperf)
    exact ⟨hw, by simp [World.interrupted, hquiet s w hw]⟩
  · cases raised with
    | true => exact fun _ _ hw => absurd hw.2 (by decide)
    | false => exact Triple.pure (hstable false) fun _ _ hw => hw.1

/-- `send_event`, with what publishing does. -/
theorem triple_sendEvent (shielded : Bool) {event : StreamEvent Ref}
    (hP : ∀ s, (watched cfg taskId).Stable (P s)) (hQ : ∀ s, (watched cfg taskId).Stable (Q s))
    (hquiet : ∀ s w, Q s w → w.cancelled = false)
    (hpublish : ∀ s w w' id, P s w →
      World.perform cfg taskId (.publish event) w = some (w', id) → Q s w') :
    Triple (watching cfg taskId) P (Emitter.sendEvent shielded event) (fun _ => Q) X := by
  have hpublished : ∀ {X : Exc → σ → World → Prop} id,
      Triple (watching cfg taskId) Q (Act.perform (.published id)) (fun _ => Q) X := by
    intro X id
    refine triple_ask hQ fun w w' _ hperf => ?_
    simp only [World.perform] at hperf
    split at hperf
    · cases hperf
    · exact (Prod.mk.inj (Option.some_inj.mp hperf)).1.symm
  refine Triple.bind (Triple.perform (Q := fun _ => Q) hP (fun _ => hQ) fun s w hw _ =>
    ⟨trivial, fun w' id hperf => hpublish s w w' id hw hperf⟩) fun id => ?_
  split
  · exact hpublished id
  · exact Triple.tryCatch (X := fun _ _ _ => False) (Triple.bind (triple_checkpoint hQ hquiet _)
      fun _ => hpublished id) fun _ _ _ hw => hw.elim

/-- `update_task` of a batch and of objects `own` that read `vals`. -/
theorem triple_update (F : σ → Prop) {O : Heap → Ref → Prop} (site : Site) (args : UpdateArgs Ref)
    {own : List (ArtifactWrite Ref)} {vals : List (ArtifactWrite Artifact)}
    (hargs : args.artifacts = ws ++ own) (hO : ∀ h next, O h next → resolve h own = vals) :
    Triple (watching cfg taskId)
      (fun s w => F s ∧ Going cfg taskId u t₀ es ws out w ∧ O w.heap w.next)
      (Emitter.updateTask .memory site args)
      (fun _ s w => F s ∧ Going cfg taskId u t₀ (es ++ vals) [] out w ∧ O w.heap w.next)
      fun _ s w => F s ∧ Going cfg taskId u t₀ es ws out w ∧ O w.heap w.next := by
  have hsteps : UpdateSteps (watched cfg taskId) (fun _ _ => True) .memory site args
      (fun w => Going cfg taskId u t₀ es ws out w ∧ O w.heap w.next)
      (fun _ _ _ => False)
      (fun _ w => Going cfg taskId u t₀ (es ++ vals) [] out w ∧ O w.heap w.next)
      fun _ w => Going cfg taskId u t₀ es ws out w ∧ O w.heap w.next := by
    have hcalm : ∀ {es ws w}, Going cfg taskId u t₀ es ws out w →
        ¬ w.interrupted = true := by
      intro es ws w h hi
      simp [World.interrupted, h.uncancelled] at hi
    refine ⟨stable_reading, fun _ _ => Setting.Stable.const _, fun _ => stable_reading,
      fun _ => stable_reading, fun _ _ => trivial, fun _ _ _ => trivial, fun _ _ _ _ => trivial,
      fun _ _ _ _ _ _ _ _ => trivial, ?_, (fun _ _ _ _ hk => by cases hk),
      (fun _ _ _ _ _ _ _ hk => by cases hk), (fun w hw hi => absurd hi (hcalm hw.1)),
      (fun _ _ _ hw => hw.elim), fun _ w hw _ hi => absurd hi (hcalm hw.1)⟩
    intro w w' r _ hw _ hperf
    have hcommit := hw.1.commit hargs hperf
    cases r with
    | error e =>
      rw [show w' = w from hcommit]
      exact hw
    | ok v =>
      obtain ⟨hgoing, hheap, hnext⟩ := hcommit
      rw [hO _ _ hw.2] at hgoing
      exact ⟨hgoing, by rw [hheap, hnext]; exact hw.2⟩
  intro s w hw
  refine Act.wp_mono (hsteps.wp hw.2) ?_
  rintro (x | v) s' w' ⟨rfl, hw'⟩
  · exact ⟨hw.1, hw'⟩
  · exact ⟨hw.1, hw'⟩

end Pieces

/-! ### The calls of a handler -/

/-- Before the lifecycle call: everything that was emitted is announced, and stored or buffered. -/
def Emitting (cfg : BusConfig) (taskId : TaskId) (u : SubId) (t₀ : TurnStart)
    (es : List (ArtifactWrite Artifact)) (ctx : TaskContext) (w : World) : Prop :=
  ctx.turnEnded = false ∧ Going cfg taskId u t₀ es ctx.pending es w

theorem stable_emitting (ctx : TaskContext) :
    (watched cfg taskId).Stable (Emitting cfg taskId u t₀ es ctx) :=
  (Setting.Stable.const _).and stable_going

/-- The other fields of the context do not matter. -/
def Framed (F : TaskContext → Prop) : Prop := ∀ ctx version, F ctx → F { ctx with version }

/-- `_versioned_update` -/
theorem triple_versionedUpdate {F : TaskContext → Prop} {O : Heap → Ref → Prop} (hF : Framed F)
    (batch : List (ArtifactWrite Ref)) (args : UpdateArgs Ref) {own : List (ArtifactWrite Ref)}
    {vals : List (ArtifactWrite Artifact)} (hargs : args.artifacts = ws ++ own)
    (hO : ∀ h next, O h next → resolve h own = vals) :
    Triple (watching cfg taskId)
      (fun s w => F s ∧ Going cfg taskId u t₀ es ws out w ∧ O w.heap w.next)
      (TaskContext.versionedUpdate .memory taskId batch args)
      (fun _ s w => F s ∧ Going cfg taskId u t₀ (es ++ vals) [] out w ∧ O w.heap w.next)
      fun _ s w => F s ∧ Going cfg taskId u t₀ es ws out w ∧ O w.heap w.next := by
  have hJ : ∀ {es ws} (s : TaskContext), (watched cfg taskId).Stable fun w =>
      F s ∧ Going cfg taskId u t₀ es ws out w ∧ O w.heap w.next :=
    fun _ => (Setting.Stable.const _).and stable_reading
  have honce : ∀ (second : Bool) version, Triple (watching cfg taskId)
      (fun s w => F s ∧ Going cfg taskId u t₀ es ws out w ∧ O w.heap w.next)
      (do
        let newVersion ← Emitter.updateTask .memory (.turn batch second)
          { args with expectedVersion := version }
        TaskContext.setVersion (some newVersion) : TurnM Unit)
      (fun _ s w => F s ∧ Going cfg taskId u t₀ (es ++ vals) [] out w ∧ O w.heap w.next)
      fun _ s w => F s ∧ Going cfg taskId u t₀ es ws out w ∧ O w.heap w.next := by
    intro second version
    refine Triple.bind (triple_update F (.turn batch second)
      { args with expectedVersion := version } hargs hO) fun newVersion => ?_
    exact Triple.modify hJ fun s w hw => ⟨hF s _ hw.1, hw.2⟩
  refine Triple.get_bind hJ fun ctx => Triple.pre ?_ fun s w hw => hw.2
  refine Triple.tryCatch (honce false ctx.version) fun x => ?_
  split
  · rename_i m current
    refine Triple.bind (triple_ask hJ fun w w' a hperf =>
      (Prod.mk.inj (Option.some_inj.mp hperf)).1.symm) fun task => ?_
    rcases task with _ | task
    · exact Triple.throw hJ fun _ _ hw => hw
    dsimp only
    split
    · exact Triple.throw hJ fun _ _ hw => hw
    · refine Triple.bind ?_ fun fresh => honce true fresh
      rw [TaskContext.freshVersion]
      split
      · exact Triple.pure hJ fun _ _ hw => hw
      · exact triple_ask hJ fun w w' a hperf => (Prod.mk.inj (Option.some_inj.mp hperf)).1.symm
  · exact Triple.throw hJ fun _ _ hw => hw

/-- The context has taken its batch out. -/
theorem triple_takePending {O : Heap → Ref → Prop} :
    Triple (watching cfg taskId)
      (fun ctx w => Emitting cfg taskId u t₀ es ctx w ∧ O w.heap w.next)
      TaskContext.takePending
      (fun batch ctx w => (ctx.turnEnded = false ∧ ctx.pending = []) ∧
        Going cfg taskId u t₀ es batch es w ∧ O w.heap w.next) X := by
  have hbefore : ∀ s : TaskContext, (watched cfg taskId).Stable fun w =>
      Emitting cfg taskId u t₀ es s w ∧ O w.heap w.next :=
    fun s => (stable_emitting s).and stable_objects
  have hafter : ∀ {ws} (s : TaskContext), (watched cfg taskId).Stable fun w =>
      (s.turnEnded = false ∧ s.pending = []) ∧ Going cfg taskId u t₀ es ws es w ∧
        O w.heap w.next :=
    fun _ => (Setting.Stable.const _).and stable_reading
  refine Triple.get_bind hbefore fun ctx => ?_
  refine Triple.bind (Triple.modify (fun s => (Setting.Stable.const _).and (hbefore s)) ?_)
    fun _ => Triple.pure hafter fun _ _ hw => hw
  rintro s w ⟨rfl, ⟨hended, hgoing⟩, hobjects⟩
  exact ⟨⟨hended, rfl⟩, hgoing, hobjects⟩

/-- The same, where nothing is known of the objects. -/
theorem triple_takeBatch :
    Triple (watching cfg taskId) (Emitting cfg taskId u t₀ es) TaskContext.takePending
      (fun batch ctx w => (ctx.turnEnded = false ∧ ctx.pending = []) ∧
        Going cfg taskId u t₀ es batch es w) X :=
  (triple_takePending (O := fun _ _ => True)).conseq (fun _ _ hw => ⟨hw, trivial⟩)
    (fun _ _ _ hw => ⟨hw.1, hw.2.1⟩) fun _ _ _ hw => hw

/-- A write of the batch that may be skipped: it is stored then, or in the buffer again. -/
theorem triple_writeOrSkip (batch : List (ArtifactWrite Ref)) (args : UpdateArgs Ref)
    (hargs : args.artifacts = batch) :
    Triple (watching cfg taskId)
      (fun ctx w => (ctx.turnEnded = false ∧ ctx.pending = []) ∧
        Going cfg taskId u t₀ es batch es w)
      (TaskContext.writeOrSkip .memory taskId batch args)
      (fun _ => Emitting cfg taskId u t₀ es) fun _ _ _ => True := by
  have hframed : Framed fun ctx => ctx.turnEnded = false ∧ ctx.pending = [] := fun _ _ h => h
  have hstable : ∀ {es' ws} (s : TaskContext), (watched cfg taskId).Stable fun w =>
      (s.turnEnded = false ∧ s.pending = []) ∧ Going cfg taskId u t₀ es' ws es w ∧ True :=
    fun _ => (Setting.Stable.const _).and (stable_going.and (Setting.Stable.const _))
  refine Triple.tryCatch (Triple.bind ((triple_versionedUpdate hframed
    batch args (by rw [hargs, List.append_nil]) (O := fun _ _ => True) fun _ _ _ => rfl).pre
      fun s w hw => ⟨hw.1, hw.2, trivial⟩) fun _ => ?_) fun x => ?_
  · refine Triple.pure hstable fun s w hw => ?_
    obtain ⟨⟨hended, hpending⟩, hgoing, -⟩ := hw
    rw [List.append_nil] at hgoing
    exact ⟨hended, by rw [hpending]; exact hgoing⟩
  · have hback : ∀ {X : Exc → TaskContext → World → Prop}, Triple (watching cfg taskId)
        (fun ctx w => (ctx.turnEnded = false ∧ ctx.pending = []) ∧
          Going cfg taskId u t₀ es batch es w ∧ True)
        (TaskContext.rebuffer batch) (fun _ => Emitting cfg taskId u t₀ es) X := by
      intro X
      refine Triple.modify hstable fun s w hw => ?_
      obtain ⟨⟨hended, hpending⟩, hgoing, -⟩ := hw
      exact ⟨hended, by rw [hpending, List.append_nil]; exact hgoing⟩
    have hset : ∀ {X : Exc → TaskContext → World → Prop} version, Triple (watching cfg taskId)
        (Emitting cfg taskId u t₀ es) (TaskContext.setVersion version)
        (fun _ => Emitting cfg taskId u t₀ es) X :=
      fun version => Triple.modify stable_emitting fun _ _ hw => hw
    split
    · refine Triple.bind hback fun _ => ?_
      split
      · exact Triple.bind (hset _) fun _ => Triple.pure stable_emitting fun _ _ hw => hw
      · refine Triple.bind (triple_ask stable_emitting fun w w' a hperf =>
          (Prod.mk.inj (Option.some_inj.mp hperf)).1.symm) fun version => ?_
        exact Triple.bind (hset _) fun _ => Triple.pure stable_emitting fun _ _ hw => hw
    · exact Triple.bind hback fun _ => Triple.throw stable_emitting fun _ _ _ => trivial

theorem triple_touchFlush :
    Triple (watching cfg taskId) (Emitting cfg taskId u t₀ es) TaskContext.touchFlush
      (fun _ => Emitting cfg taskId u t₀ es) X :=
  Triple.bind (triple_ask stable_emitting fun _ _ _ hperf =>
    (Prod.mk.inj (Option.some_inj.mp hperf)).1.symm) fun _ =>
      Triple.modify stable_emitting fun _ _ hw => hw

/-- `_maybe_flush`, whatever the clock says. -/
theorem triple_maybeFlush :
    Triple (watching cfg taskId) (Emitting cfg taskId u t₀ es)
      (TaskContext.maybeFlush .memory taskId) (fun _ => Emitting cfg taskId u t₀ es)
      fun _ _ _ => True := by
  refine Triple.get_bind stable_emitting fun ctx => Triple.pre ?_ fun s w hw => hw.2
  split
  · exact Triple.pure stable_emitting fun _ _ hw => hw
  refine Triple.bind (triple_ask stable_emitting fun _ _ _ hperf =>
    (Prod.mk.inj (Option.some_inj.mp hperf)).1.symm) fun now => ?_
  split
  · refine Triple.bind triple_takeBatch fun batch =>
      Triple.bind (triple_writeOrSkip batch { artifacts := batch } rfl) fun written => ?_
    cases written with
    | true => exact triple_touchFlush
    | false => exact Triple.pure stable_emitting fun _ _ hw => hw
  · exact Triple.pure stable_emitting fun _ _ hw => hw

/-- An event that is no marker, and announces `vals`. -/
theorem triple_event {σ : Type} {F : σ → Prop} {O : Heap → Ref → Prop}
    {X : Exc → σ → World → Prop} (shielded : Bool) {event : StreamEvent Ref}
    {vals : List (ArtifactWrite Artifact)} (hevent : event.isStreamTerminal = false)
    (hO : ∀ h next, O h next →
      resolve h event.writes = vals ∧ ∀ r ∈ refs event.writes, r < next) :
    Triple (watching cfg taskId)
      (fun s w => F s ∧ Going cfg taskId u t₀ es ws out w ∧ O w.heap w.next)
      (Emitter.sendEvent shielded event)
      (fun _ s w => F s ∧ Going cfg taskId u t₀ es ws (out ++ vals) w ∧
        O w.heap w.next) X := by
  refine triple_sendEvent shielded (fun _ => (Setting.Stable.const _).and stable_reading)
    (fun _ => (Setting.Stable.const _).and stable_reading) (fun s w hw => hw.2.1.uncancelled)
    fun s w w' id hw hperf => ?_
  obtain ⟨hF, hgoing, hobjects⟩ := hw
  obtain ⟨hvals, hbuilt⟩ := hO _ _ hobjects
  have hgoing' := (hgoing.publish hbuilt hperf).2 hevent
  rw [hvals] at hgoing'
  simp only [World.perform, Option.map_eq_some_iff, Prod.mk.injEq] at hperf
  obtain ⟨w₁, hstep, rfl, -⟩ := hperf
  obtain ⟨_, -, rfl⟩ := World.busStep_some hstep
  exact ⟨hF, hgoing', hobjects⟩

/-- `emit_artifact` -/
theorem triple_emitArtifact (contextId : Option ContextId) (a : EmitArgs) :
    Triple (watching cfg taskId) (Emitting cfg taskId u t₀ es)
      (TaskContext.emitArtifact .memory taskId contextId a)
      (fun _ => Emitting cfg taskId u t₀ (es ++ [⟨a.artifact, a.append⟩]))
      fun _ _ _ => True := by
  refine Triple.get_bind stable_emitting fun ctx => ?_
  split
  · rename_i hended
    rintro s w ⟨rfl, hrunning, -⟩
    exact nomatch hended.symm.trans hrunning
  split
  · exact Triple.throw (fun s => (Setting.Stable.const _).and (stable_emitting s))
      fun _ _ _ => trivial
  -- the object is built, announced, and put into the buffer
  let O (r : Ref) (h : Heap) (next : Ref) : Prop := h r = a.artifact ∧ r < next
  have hbuilt : ∀ r s, (watched cfg taskId).Stable fun w =>
      s = ctx ∧ Emitting cfg taskId u t₀ es s w ∧ O r w.heap w.next :=
    fun r s => (Setting.Stable.const _).and ((stable_emitting s).and stable_objects)
  refine Triple.bind (Triple.perform (fun s => (Setting.Stable.const _).and (stable_emitting s))
    hbuilt ?_) fun r => ?_
  · rintro s w ⟨rfl, hended, hgoing⟩ _
    refine ⟨trivial, fun w' r hperf => ?_⟩
    obtain ⟨rfl, rfl⟩ := Prod.mk.inj (Option.some_inj.mp hperf)
    exact ⟨rfl, ⟨hended, hgoing.alloc a.artifact⟩, Function.update_self .., Nat.lt_succ_self _⟩
  have hsent : ∀ s : TaskContext, (watched cfg taskId).Stable fun w =>
      (s = ctx ∧ ctx.turnEnded = false) ∧ Going cfg taskId u t₀ es ctx.pending
        (es ++ [⟨a.artifact, a.append⟩]) w ∧ O r w.heap w.next :=
    fun s => (Setting.Stable.const _).and stable_reading
  refine Triple.bind ((triple_event (F := fun s => s = ctx ∧ ctx.turnEnded = false) (O := O r) false
    rfl ?_).pre ?_) fun _ => Triple.bind (Triple.modify hsent ?_) fun _ => triple_maybeFlush
  · rintro h next ⟨hread, hr⟩
    refine ⟨?_, fun q hq => ?_⟩
    · show resolve h [⟨r, a.append⟩] = _
      rw [resolve_cons, hread, resolve_nil]
    · rw [List.mem_singleton.mp hq]
      exact hr
  · rintro s w ⟨rfl, ⟨hended, hgoing⟩, hobjects⟩
    exact ⟨⟨rfl, hended⟩, hgoing, hobjects⟩
  · rintro s w ⟨⟨rfl, hended⟩, hgoing, hread, hr⟩
    have hbuffered := hgoing.buffer hr a.append
    rw [hread] at hbuffered
    exact ⟨hended, hbuffered⟩

/-- An event that announces no artifact and is no marker. -/
theorem triple_plainEvent {σ : Type} {F : σ → Prop} {b : σ → List (ArtifactWrite Ref)}
    {X : Exc → σ → World → Prop} (shielded : Bool) {event : StreamEvent Ref}
    (hevent : event.isStreamTerminal = false) (hwrites : event.writes = []) :
    Triple (watching cfg taskId)
      (fun s w => F s ∧ Going cfg taskId u t₀ es (b s) out w)
      (Emitter.sendEvent shielded event)
      (fun _ s w => F s ∧ Going cfg taskId u t₀ es (b s) out w) X := by
  refine Triple.fix fun s₀ => ?_
  have hsend : Triple (watching cfg taskId)
      (fun s w => (s = s₀ ∧ F s₀) ∧ Going cfg taskId u t₀ es (b s₀) out w ∧ True)
      (Emitter.sendEvent shielded event)
      (fun _ s w => (s = s₀ ∧ F s₀) ∧ Going cfg taskId u t₀ es (b s₀) (out ++ []) w ∧ True)
      X := by
    refine triple_event (O := fun _ _ => True) shielded hevent fun h _ _ => ?_
    rw [hwrites]
    exact ⟨rfl, fun _ hr => absurd hr List.not_mem_nil⟩
  refine hsend.conseq ?_ ?_ fun _ _ _ hw => hw
  · rintro s w ⟨rfl, hF, hgoing⟩
    exact ⟨⟨rfl, hF⟩, hgoing, trivial⟩
  · rintro - s w ⟨⟨rfl, hF⟩, hgoing, -⟩
    rw [List.append_nil] at hgoing
    exact ⟨hF, hgoing⟩

/-- `_emit_status` of a state that goes on. -/
theorem triple_emitStatus {F : TaskContext → Prop} {b : TaskContext → List (ArtifactWrite Ref)}
    (shielded : Bool) (contextId : Option ContextId) (state : TaskState)
    (message : Option Message) :
    Triple (watching cfg taskId)
      (fun s w => F s ∧ Going cfg taskId u t₀ es (b s) out w)
      (TaskContext.emitStatus taskId contextId shielded state message false)
      (fun _ s w => F s ∧ Going cfg taskId u t₀ es (b s) out w) X :=
  Triple.bind (triple_ask (fun _ => (Setting.Stable.const _).and stable_going) fun _ _ _ hperf =>
    (Prod.mk.inj (Option.some_inj.mp hperf)).1.symm) fun _ => triple_plainEvent shielded rfl rfl

theorem triple_makeAgentMessage {P : TaskContext → World → Prop}
    (hP : ∀ s, (watched cfg taskId).Stable (P s)) (contextId : Option ContextId)
    (parts : List Part) :
    Triple (watching cfg taskId) P (TaskContext.makeAgentMessage taskId contextId parts)
      (fun _ => P) X :=
  Triple.bind (triple_ask hP fun _ _ _ hperf =>
    (Prod.mk.inj (Option.some_inj.mp hperf)).1.symm) fun _ => Triple.pure hP fun _ _ hw => hw

/-- `send_status` -/
theorem triple_sendStatus (contextId : Option ContextId) (message : Option String) :
    Triple (watching cfg taskId) (Emitting cfg taskId u t₀ es)
      (TaskContext.sendStatus .memory taskId contextId message)
      (fun _ => Emitting cfg taskId u t₀ es) fun _ _ _ => True := by
  have hstatus : ∀ message, Triple (watching cfg taskId) (Emitting cfg taskId u t₀ es)
      (TaskContext.emitStatus taskId contextId false .working message false)
      (fun _ => Emitting cfg taskId u t₀ es) fun _ _ _ => True := fun message =>
    triple_emitStatus (F := fun s => s.turnEnded = false) (b := TaskContext.pending) false contextId
      .working message
  refine Triple.get_bind stable_emitting fun ctx => Triple.pre ?_ fun s w hw => hw.2
  split
  · exact Triple.pure stable_emitting fun _ _ hw => hw
  cases message with
  | none => exact hstatus none
  | some text =>
    refine Triple.bind (triple_makeAgentMessage stable_emitting contextId _) fun statusMsg => ?_
    refine Triple.bind triple_takeBatch fun batch => ?_
    refine Triple.bind (triple_writeOrSkip batch
      { statusMessage := some statusMsg, artifacts := batch } rfl) fun written => ?_
    cases written with
    | true => exact Triple.bind triple_touchFlush fun _ => hstatus (some statusMsg)
    | false => exact Triple.pure stable_emitting fun _ _ hw => hw

/-! ### The end of the turn -/

/-- Events that announce `vals`, and end nothing. -/
theorem triple_sendEvents {F : TaskContext → Prop} {O : Heap → Ref → Prop}
    {preEvents : List (StreamEvent Ref)} {vals : StreamEvent Ref → List (ArtifactWrite Artifact)}
    (hevents : ∀ e ∈ preEvents, e.isStreamTerminal = false)
    (hO : ∀ h next, O h next → ∀ e ∈ preEvents,
      resolve h e.writes = vals e ∧ ∀ r ∈ refs e.writes, r < next) :
    Triple (watching cfg taskId)
      (fun s w => F s ∧ Going cfg taskId u t₀ es ws out w ∧ O w.heap w.next)
      (TaskContext.sendEvents preEvents)
      (fun _ s w => F s ∧
        Going cfg taskId u t₀ es ws (out ++ preEvents.flatMap vals) w ∧ O w.heap w.next)
      X := by
  induction preEvents generalizing out with
  | nil =>
    refine Triple.pure (fun _ => (Setting.Stable.const _).and stable_reading) fun s w hw => ?_
    rw [List.flatMap_nil, List.append_nil]
    exact hw
  | cons e preEvents ih =>
    refine Triple.bind (triple_event true (hevents e List.mem_cons_self)
      fun h next h' => hO h next h' e List.mem_cons_self) fun _ => ?_
    rw [List.flatMap_cons, ← List.append_assoc]
    exact ih (fun e he => hevents e (List.mem_cons_of_mem _ he))
      fun h next h' e he => hO h next h' e (List.mem_cons_of_mem _ he)

/-- The last status: with or without the marker, it announces no artifact. -/
theorem triple_lastStatus {F : TaskContext → Prop} (contextId : Option ContextId)
    (state : TaskState) (message : Option Message) (final : Bool) :
    Triple (watching cfg taskId)
      (fun s w => F s ∧ Going cfg taskId u t₀ es [] out w)
      (TaskContext.emitStatus taskId contextId true state message final)
      (fun _ s w => F s ∧ Tracked cfg taskId u t₀ es [] out w) X := by
  have hgoing : ∀ s : TaskContext, (watched cfg taskId).Stable fun w =>
      F s ∧ Going cfg taskId u t₀ es [] out w :=
    fun _ => (Setting.Stable.const _).and stable_going
  refine Triple.bind (triple_ask hgoing fun _ _ _ hperf =>
    (Prod.mk.inj (Option.some_inj.mp hperf)).1.symm) fun timestamp => ?_
  refine triple_sendEvent true hgoing (fun _ => (Setting.Stable.const _).and stable_tracked)
    (fun s w hw => hw.2.uncancelled) fun s w w' id hw hperf => ⟨hw.1, ?_⟩
  have hwrites : (if final then StreamEvent.terminalMarker taskId (contextId.getD "")
      { state, timestamp, message } else .statusUpdate taskId (contextId.getD "")
      { state, timestamp, message } : StreamEvent Ref).writes = [] := by
    cases final <;> rfl
  have hpublished := (hw.2.publish (by rw [hwrites]; exact fun _ hr => absurd hr List.not_mem_nil)
    hperf).1
  rw [hwrites, resolve_nil, List.append_nil] at hpublished
  exact hpublished

/-- The turn has ended: everything is stored and announced. -/
def Ended (cfg : BusConfig) (taskId : TaskId) (u : SubId) (t₀ : TurnStart)
    (es : List (ArtifactWrite Artifact)) (ctx : TaskContext) (w : World) : Prop :=
  ctx.turnEnded = true ∧ Tracked cfg taskId u t₀ es [] es w

theorem stable_ended (ctx : TaskContext) :
    (watched cfg taskId).Stable (Ended cfg taskId u t₀ es ctx) :=
  (Setting.Stable.const _).and stable_tracked

/-- `_terminal_transition`, which stores `own` and announces it in `preEvents`. -/
theorem triple_terminalTransition {O : Heap → Ref → Prop} (contextId : Option ContextId)
    (state : TaskState) (message : Option Message) {own : List (ArtifactWrite Ref)}
    (taskMetadata : TaskMetadata) {preEvents : List (StreamEvent Ref)}
    {V : StreamEvent Ref → List (ArtifactWrite Artifact)}
    (hevents : ∀ e ∈ preEvents, e.isStreamTerminal = false)
    (hown : ∀ h next, O h next → resolve h own = preEvents.flatMap V)
    (hO : ∀ h next, O h next → ∀ e ∈ preEvents,
      resolve h e.writes = V e ∧ ∀ r ∈ refs e.writes, r < next) :
    Triple (watching cfg taskId)
      (fun ctx w => Emitting cfg taskId u t₀ es ctx w ∧ O w.heap w.next)
      (TaskContext.terminalTransition .memory taskId contextId state message own taskMetadata
        preEvents)
      (fun _ => Ended cfg taskId u t₀ (es ++ preEvents.flatMap V))
      fun _ _ _ => True := by
  have hstable : ∀ {F : TaskContext → Prop} {es ws out} (s : TaskContext),
      (watched cfg taskId).Stable fun w =>
        F s ∧ Going cfg taskId u t₀ es ws out w ∧ O w.heap w.next :=
    fun _ => (Setting.Stable.const _).and stable_reading
  refine Triple.get_bind (fun s => (stable_emitting s).and stable_objects) fun ctx =>
    Triple.pre ?_ fun s w hw => hw.2
  split
  · exact Triple.throw (fun s => (stable_emitting s).and stable_objects) fun _ _ _ => trivial
  refine Triple.bind triple_takePending fun batch => ?_
  have hframed : Framed fun ctx => ctx.turnEnded = false ∧ ctx.pending = [] := fun _ _ h => h
  refine Triple.bind (Triple.tryCatch (triple_versionedUpdate hframed batch _ rfl hown)
    fun x => ?_) fun _ => ?_
  · refine Triple.bind (Q := fun _ _ _ => True) (Triple.modify hstable fun _ _ _ => trivial)
      fun _ => Triple.throw (fun _ => Setting.Stable.const _) fun _ _ _ => trivial
  -- the write has happened: its events follow
  refine Triple.bind (Q := fun _ s w => s.turnEnded = true ∧
    Going cfg taskId u t₀ (es ++ preEvents.flatMap V) [] es w ∧ O w.heap w.next)
    (Triple.modify hstable fun s w hw => ⟨rfl, hw.2⟩) fun _ => ?_
  refine Triple.bind (triple_sendEvents hevents hO) fun _ => ?_
  exact (triple_lastStatus contextId state message _).pre fun s w hw => ⟨hw.1, hw.2.1⟩

/-- A lifecycle call that adds no artifact. -/
theorem triple_plainTransition (contextId : Option ContextId) (state : TaskState)
    (message : Option Message) (taskMetadata : TaskMetadata) {preEvents : List (StreamEvent Ref)}
    (hevents : ∀ e ∈ preEvents, e.isStreamTerminal = false ∧ e.writes = []) :
    Triple (watching cfg taskId) (Emitting cfg taskId u t₀ es)
      (TaskContext.terminalTransition .memory taskId contextId state message [] taskMetadata
        preEvents)
      (fun _ => Ended cfg taskId u t₀ es) fun _ _ _ => True := by
  have hnone : preEvents.flatMap (fun _ => ([] : List (ArtifactWrite Artifact))) = [] :=
    List.flatMap_eq_nil_iff.mpr fun _ _ => rfl
  have htransition : Triple (watching cfg taskId)
      (fun ctx w => Emitting cfg taskId u t₀ es ctx w ∧ True)
      (TaskContext.terminalTransition .memory taskId contextId state message [] taskMetadata
        preEvents)
      (fun _ => Ended cfg taskId u t₀ (es ++ preEvents.flatMap fun _ => []))
      fun _ _ _ => True := by
    refine triple_terminalTransition (O := fun _ _ => True) contextId state message taskMetadata
      (fun e he => (hevents e he).1) (fun _ _ _ => hnone.symm) fun h _ _ e he => ?_
    rw [(hevents e he).2]
    exact ⟨rfl, fun _ hr => absurd hr List.not_mem_nil⟩
  rw [hnone, List.append_nil] at htransition
  exact htransition.pre fun _ _ hw => ⟨hw, trivial⟩

theorem triple_endWithMessage (contextId : Option ContextId) (state : TaskState)
    (parts : List Part) :
    Triple (watching cfg taskId) (Emitting cfg taskId u t₀ es)
      (TaskContext.endWithMessage .memory taskId contextId state parts)
      (fun _ => Ended cfg taskId u t₀ es) fun _ _ _ => True :=
  Triple.bind (triple_makeAgentMessage stable_emitting contextId parts) fun message =>
    triple_plainTransition contextId state (some message) {} fun _ he => absurd he List.not_mem_nil

/-- `complete` and `complete_json` store the artifact with the batch, and announce it. -/
theorem triple_completeWith (contextId : Option ContextId) (artifact : Artifact) :
    Triple (watching cfg taskId) (Emitting cfg taskId u t₀ es)
      (TaskContext.completeWith .memory taskId contextId artifact)
      (fun _ => Ended cfg taskId u t₀ (es ++ [⟨artifact, false⟩])) fun _ _ _ => True := by
  have hbuilt : ∀ (r : Ref) (s : TaskContext), (watched cfg taskId).Stable fun w =>
      Emitting cfg taskId u t₀ es s w ∧ (w.heap r = artifact ∧ r < w.next) :=
    fun r s => (stable_emitting s).and
      (stable_objects (O := fun h next => h r = artifact ∧ r < next))
  refine Triple.bind (Triple.perform stable_emitting hbuilt ?_) fun r => ?_
  · rintro s w ⟨hended, hgoing⟩ _
    refine ⟨trivial, fun w' r hperf => ?_⟩
    obtain ⟨rfl, rfl⟩ := Prod.mk.inj (Option.some_inj.mp hperf)
    exact ⟨⟨hended, hgoing.alloc artifact⟩, Function.update_self .., Nat.lt_succ_self _⟩
  have hreads : ∀ h next, h r = artifact ∧ r < next →
      resolve h [⟨r, false⟩] = [⟨artifact, false⟩] ∧
        ∀ q ∈ refs [(⟨r, false⟩ : ArtifactWrite Ref)], q < next := by
    rintro h next ⟨hread, hr⟩
    refine ⟨by rw [resolve_cons, hread, resolve_nil], fun q hq => ?_⟩
    rw [List.mem_singleton.mp hq]
    exact hr
  refine triple_terminalTransition (O := fun h next => h r = artifact ∧ r < next)
    (V := fun _ => [⟨artifact, false⟩]) contextId .completed none {} ?_
    (fun h next hobjects => (hreads h next hobjects).1) ?_
  · intro e he
    rw [List.mem_singleton.mp he]
    rfl
  · intro h next hobjects e he
    rw [List.mem_singleton.mp he]
    exact hreads h next hobjects

/-- A lifecycle call ends the turn. -/
theorem triple_runLifecycle (contextId : Option ContextId) (l : Lifecycle) :
    Triple (watching cfg taskId) (Emitting cfg taskId u t₀ es)
      (TaskContext.runLifecycle .memory taskId contextId l)
      (fun _ => Ended cfg taskId u t₀ (es ++ l.ownWrites)) fun _ _ _ => True := by
  have hnone : es = es ++ [] := (List.append_nil es).symm
  have hmessage : ∀ state parts, Triple (watching cfg taskId)
      (Emitting cfg taskId u t₀ es)
      (TaskContext.endWithMessage .memory taskId contextId state parts)
      (fun _ => Ended cfg taskId u t₀ (es ++ [])) fun _ _ _ => True := by
    intro state parts
    rw [← hnone]
    exact triple_endWithMessage contextId state parts
  cases l with
  | complete text artifactId =>
    cases text with
    | none =>
      show Triple _ _ _ (fun _ => Ended cfg taskId u t₀ (es ++ [])) _
      rw [← hnone]
      exact triple_plainTransition contextId .completed none {}
        fun _ he => absurd he List.not_mem_nil
    | some text => exact triple_completeWith contextId _
  | completeJson data artifactId => exact triple_completeWith contextId _
  | fail reason => exact hmessage _ _
  | reject reason => exact hmessage _ _
  | requestInput question => exact hmessage _ _
  | requestAuth details authData => exact hmessage _ _
  | respond text => exact hmessage _ _
  | replyDirectly text =>
    show Triple _ _ _ (fun _ => Ended cfg taskId u t₀ (es ++ [])) _
    rw [← hnone]
    refine Triple.bind (triple_makeAgentMessage stable_emitting contextId _) fun message => ?_
    refine triple_plainTransition contextId .completed (some message) _ fun e he => ?_
    rw [List.mem_singleton.mp he]
    exact ⟨rfl, rfl⟩

/-- After the end of the turn, no call ends it again. -/
theorem triple_terminalTransition_ended {Q : Unit → TaskContext → World → Prop}
    (contextId : Option ContextId) (state : TaskState) (message : Option Message)
    (own : List (ArtifactWrite Ref)) (taskMetadata : TaskMetadata)
    (preEvents : List (StreamEvent Ref)) :
    Triple (watching cfg taskId) (fun ctx _ => ctx.turnEnded = true)
      (TaskContext.terminalTransition .memory taskId contextId state message own taskMetadata
        preEvents) Q fun _ _ _ => True := by
  refine Triple.get_bind (fun _ => Setting.Stable.const _) fun ctx => ?_
  split
  · exact Triple.throw (fun _ => Setting.Stable.const _) fun _ _ _ => trivial
  · rename_i hgoing
    rintro s w ⟨rfl, hended⟩
    exact absurd hended hgoing

theorem triple_runLifecycle_ended {Q : Unit → TaskContext → World → Prop}
    (contextId : Option ContextId) (l : Lifecycle) :
    Triple (watching cfg taskId) (fun ctx _ => ctx.turnEnded = true)
      (TaskContext.runLifecycle .memory taskId contextId l) Q fun _ _ _ => True := by
  have hended : ∀ s : TaskContext, (watched cfg taskId).Stable fun _ => s.turnEnded = true :=
    fun _ => Setting.Stable.const _
  have hmessage : ∀ state parts, Triple (watching cfg taskId) (fun ctx _ => ctx.turnEnded = true)
      (TaskContext.endWithMessage .memory taskId contextId state parts) Q fun _ _ _ => True :=
    fun state parts => Triple.bind (triple_makeAgentMessage hended contextId parts) fun message =>
      triple_terminalTransition_ended contextId state (some message) [] {} []
  have hartifact : ∀ artifact, Triple (watching cfg taskId) (fun ctx _ => ctx.turnEnded = true)
      (TaskContext.completeWith .memory taskId contextId artifact) Q fun _ _ _ => True := by
    intro artifact
    refine Triple.bind (Q := fun (_ : Ref) (ctx : TaskContext) _ => ctx.turnEnded = true)
      (Triple.perform hended (fun _ => hended) fun _ _ hw _ => ⟨trivial, fun _ _ _ => hw⟩)
      fun r => ?_
    exact triple_terminalTransition_ended contextId .completed none _ {} _
  cases l with
  | complete text artifactId =>
    cases text with
    | none => exact triple_terminalTransition_ended contextId .completed none [] {} []
    | some text => exact hartifact _
  | completeJson data artifactId => exact hartifact _
  | fail reason => exact hmessage _ _
  | reject reason => exact hmessage _ _
  | requestInput question => exact hmessage _ _
  | requestAuth details authData => exact hmessage _ _
  | respond text => exact hmessage _ _
  | replyDirectly text =>
    exact Triple.bind (triple_makeAgentMessage hended contextId _) fun message =>
      triple_terminalTransition_ended contextId .completed (some message) [] _ _

/-- What the handler does after its lifecycle call. -/
theorem triple_runHandler_ended (contextId : Option ContextId) (cs : List HandlerCall) :
    Triple (watching cfg taskId) (Ended cfg taskId u t₀ es)
      (TaskContext.runHandler .memory taskId contextId cs)
      (fun _ => Ended cfg taskId u t₀ es) fun _ _ _ => True := by
  induction cs with
  | nil => exact Triple.pure stable_ended fun _ _ hw => hw
  | cons c cs ih =>
    refine Triple.bind ?_ fun _ => ih
    have hskip : ∀ {m : TaskContext → TurnM Unit}, Triple (watching cfg taskId)
        (Ended cfg taskId u t₀ es)
        (do let ctx ← Act.get; if ctx.turnEnded then pure () else m ctx)
        (fun _ => Ended cfg taskId u t₀ es) fun _ _ _ => True := by
      intro m
      refine Triple.get_bind stable_ended fun ctx => ?_
      split
      · exact Triple.pure (fun s => (Setting.Stable.const _).and (stable_ended s))
          fun _ _ hw => hw.2
      · rename_i hgoing
        rintro s w ⟨rfl, hended, -⟩
        exact absurd hended hgoing
    cases c with
    | emitArtifact a => exact hskip
    | sendStatus message => exact hskip
    | wait => exact triple_checkpoint stable_ended (fun _ _ hw => hw.2.uncancelled) _
    | lifecycle l => exact (triple_runLifecycle_ended contextId l).pre fun _ _ hw => hw.1

/-- Where the turn stands after the calls `cs`. -/
def Stands (cfg : BusConfig) (taskId : TaskId) (u : SubId) (t₀ : TurnStart)
    (es : List (ArtifactWrite Artifact)) (cs : List HandlerCall) (ctx : TaskContext) (w : World) :
    Prop :=
  if cs.any HandlerCall.isLifecycle then
    Ended cfg taskId u t₀ (es ++ (emittedBy cs ++ ownArtifacts cs)) ctx w
  else Emitting cfg taskId u t₀ (es ++ emittedBy cs) ctx w

/-- A call that does not end the turn. -/
theorem triple_runCall (contextId : Option ContextId) {c : HandlerCall}
    (hc : c.isLifecycle = false) :
    Triple (watching cfg taskId) (Emitting cfg taskId u t₀ es)
      (TaskContext.runCall .memory taskId contextId c)
      (fun _ => Emitting cfg taskId u t₀ (es ++ c.writes)) fun _ _ _ => True := by
  cases c with
  | emitArtifact a => exact triple_emitArtifact contextId a
  | sendStatus message =>
    simp only [HandlerCall.writes, List.append_nil]
    exact triple_sendStatus contextId message
  | wait =>
    simp only [HandlerCall.writes, List.append_nil]
    exact triple_checkpoint stable_emitting (fun _ _ hw => hw.2.uncancelled) _
  | lifecycle l => cases hc

/-- A handler, call by call. -/
theorem triple_runHandler (contextId : Option ContextId) (cs : List HandlerCall) :
    Triple (watching cfg taskId) (Emitting cfg taskId u t₀ es)
      (TaskContext.runHandler .memory taskId contextId cs)
      (fun _ => Stands cfg taskId u t₀ es cs) fun _ _ _ => True := by
  induction cs generalizing es with
  | nil =>
    refine Triple.pure stable_emitting fun s w hw => ?_
    show Emitting cfg taskId u t₀ (es ++ []) s w
    rw [List.append_nil]
    exact hw
  | cons c cs ih =>
    cases hc : c.isLifecycle with
    | false =>
      refine (Triple.bind (triple_runCall contextId hc) fun _ => ih).conseq (fun _ _ hw => hw)
        (fun _ s w hw => ?_) fun _ _ _ hw => hw
      have hemitted : emittedBy (c :: cs) = c.writes ++ emittedBy cs := by
        simp [emittedBy, hc]
      have hown : ownArtifacts (c :: cs) = ownArtifacts cs := by
        cases c with
        | lifecycle l => cases hc
        | _ => rfl
      rw [Stands, List.any_cons, hc, Bool.false_or, hemitted, hown, List.append_assoc,
        ← List.append_assoc es, ← List.append_assoc es]
      exact hw
    | true =>
      obtain ⟨l, rfl⟩ : ∃ l, c = .lifecycle l := by
        cases c with
        | lifecycle l => exact ⟨l, rfl⟩
        | _ => cases hc
      exact Triple.bind (triple_runLifecycle contextId l) fun _ =>
        triple_runHandler_ended contextId cs

/-! ### What the subscription receives -/

theorem handedTo_eq (u : SubId) (w : World) :
    w.handedTo u = (yieldedBy u w.busTrace).map LogEntry.event := by
  rw [World.handedTo, yieldedBy, World.busTrace, List.flatMap_map, List.map_flatMap,
    List.filterMap_eq_flatMap_toList]
  congr 1
  funext rec
  rcases rec.out with _ | ⟨v, entry⟩
  · rfl
  · by_cases hv : v = u <;> simp [yieldOf, hv, Option.filter_some]

/-- The events of the task, as they read now. -/
theorem Watched.log_eq (h : Watched cfg w) :
    w.log taskId = (publishedOf taskId w.busTrace).map fun e => e.read w.heap := by
  rw [World.log, publishedOf, World.busTrace, List.flatMap_map, List.map_flatMap]
  refine List.flatMap_congr fun rec hrec => List.map_congr_left fun e he => ?_
  refine (h.intact.stored rec hrec e ?_).symm
  cases hact : rec.action with
  | publish t e' =>
    rw [hact, eventsOf] at he
    split at he
    · obtain rfl := List.mem_singleton.mp he
      exact ⟨t, hact⟩
    · exact absurd he List.not_mem_nil
  | _ =>
    rw [hact] at he
    exact absurd he List.not_mem_nil

theorem Watched.delivered (h : Watched cfg w) (hdelivers : w.Delivers cfg taskId u) :
    Run (InMemoryEventBus.step cfg StreamEvent.isStreamTerminal)
      (DeliveryOk cfg StreamEvent.isStreamTerminal u taskId) {} w.busTrace w.bus := by
  refine h.run.admitted ?_
  rw [World.busTrace, List.map_map]
  exact hdelivers

/-- The subscription receives the events behind its bookmark, up to the first marker. -/
theorem Watched.received_eq (h : Watched cfg w) (hdelivers : w.Delivers cfg taskId u)
    {sub : Subscriber (StreamEvent Ref)} (hsub : w.bus.subscribers u = some sub)
    (htask : sub.taskId = taskId)
    (hbookmark : sub.afterEventId = none) (hcaught : CaughtUp taskId w.bus sub) :
    w.received u =
      untilFirst StreamEvent.isStreamTerminal ((w.log taskId).drop sub.snapshotId) := by
  have hrun := h.delivered hdelivers
  have hyielded := (InMemoryEventBus.delivered_exactly_once hrun hsub htask).2 hcaught
  have hbase : sub.base = sub.snapshotId := by rw [Subscriber.base, hbookmark]; rfl
  have hread : StreamEvent.isStreamTerminal ∘ (fun e : StreamEvent Ref => e.read w.heap) =
      StreamEvent.isStreamTerminal := funext fun e => read_isStreamTerminal e w.heap
  calc w.received u
      = ((yieldedBy u w.busTrace).map LogEntry.event).map fun e => e.read w.heap := by
        rw [h.intact.received_eq u, handedTo_eq]
    _ = (untilFirst StreamEvent.isStreamTerminal
          ((publishedOf taskId w.busTrace).drop sub.snapshotId)).map fun e => e.read w.heap := by
        rw [hyielded, hbase, ← map_event_numbered (publishedOf taskId w.busTrace), ← List.map_drop,
          untilFirst_map, map_event_numbered]
        rfl
    _ = untilFirst StreamEvent.isStreamTerminal ((w.log taskId).drop sub.snapshotId) := by
        rw [h.log_eq, ← List.map_drop, untilFirst_map, hread]

theorem Tracked.announced_log (h : Tracked cfg taskId u t₀ es ws out w) :
    announced (w.log taskId) = announced t₀.log ++ out := by
  obtain ⟨events, hevents⟩ := h.begun
  rw [← h.published, ← hevents, List.drop_left, announced_append]

/-- The artifacts that the subscription receives: those announced behind its bookmark. -/
theorem Tracked.announced_received (h : Tracked cfg taskId u t₀ es [] es w)
    (hdelivers : w.Delivers cfg taskId u) {sub : Subscriber (StreamEvent Ref)}
    (hsub : w.bus.subscribers u = some sub) (htask : sub.taskId = taskId)
    (hbookmark : sub.afterEventId = none)
    (hcaught : CaughtUp taskId w.bus sub)
    (hbefore : ∀ e ∈ t₀.log.drop sub.snapshotId, e.isStreamTerminal = false) :
    announced (w.received u) = (announced t₀.log ++ es).drop
      (announced ((w.log taskId).take sub.snapshotId)).length := by
  obtain ⟨events, hevents⟩ := h.begun
  have hdrop : (w.log taskId).drop t₀.log.length = events := by
    rw [← hevents, List.drop_left]
  obtain ⟨pre, post, hsplit, hpre, hpost⟩ := h.ending
  rw [hdrop] at hsplit
  have hlog : w.log taskId = (t₀.log ++ pre) ++ post := by
    rw [← hevents, hsplit, List.append_assoc]
  -- nothing is cut off that announces an artifact
  have hquiet : ∀ e ∈ (t₀.log ++ pre).drop sub.snapshotId, e.isStreamTerminal = false := by
    intro e he
    rw [List.drop_append, List.mem_append] at he
    exact he.elim (hbefore e) fun he => hpre e (List.mem_of_mem_drop he)
  have hnothing : ∀ k, announced (untilFirst StreamEvent.isStreamTerminal (post.drop k)) = [] ∧
      announced (post.drop k) = [] := by
    have hwrites := List.flatMap_eq_nil_iff.mp hpost
    refine fun k => ⟨List.flatMap_eq_nil_iff.mpr fun e he => hwrites e ?_,
      List.flatMap_eq_nil_iff.mpr fun e he => hwrites e (List.mem_of_mem_drop he)⟩
    exact List.mem_of_mem_drop ((untilFirst_isPrefix _ _).subset he)
  have hreceived : announced (w.received u) = announced ((w.log taskId).drop sub.snapshotId) := by
    rw [h.received_eq hdelivers hsub htask hbookmark hcaught, hlog, List.drop_append,
      untilFirst_append _ _ hquiet, announced_append, announced_append, (hnothing _).1,
      (hnothing _).2]
  rw [hreceived, ← h.announced_log, ← List.take_append_drop sub.snapshotId (w.log taskId),
    announced_append, List.take_append_drop, List.drop_left]

/-- What a turn finds in a world. -/
def World.turnStart (taskId : TaskId) (u : SubId) (row : Row) (w : World) : TurnStart where
  log := w.log taskId
  artifacts := row.task.artifacts
  loaded := (w.snapshots u).isSome = true

theorem Watched.emitting (h : Watched cfg w) {row : Row} (hrow : w.row = some row)
    (hearly : ∀ task, w.snapshots u = some task → task.artifacts = row.task.artifacts)
    {ctx : TaskContext} (hended : ctx.turnEnded = false) (hpending : ctx.pending = []) :
    Emitting cfg taskId u (w.turnStart taskId u row) [] ctx w := by
  have hnew : (w.log taskId).drop (w.turnStart taskId u row).log.length = [] := List.drop_length
  refine ⟨hended, ⟨⟨h, List.prefix_rfl, ?_, ⟨row, [], hrow, ?_, rfl⟩, id, ?_, ?_, [], [], ?_, ?_,
    rfl⟩, ?_⟩⟩
  · rw [hpending]
    exact fun _ hr => absurd hr List.not_mem_nil
  · rw [hpending]
    rfl
  · exact fun task htask => ⟨[], List.prefix_rfl, fun _ => rfl, hearly task htask⟩
  · rw [hnew]
    rfl
  · exact hnew
  · exact fun _ he => absurd he List.not_mem_nil
  · rw [hnew]
    exact fun _ he => absurd he List.not_mem_nil

end

/-- **The artifacts of a subscriber.**  A client subscribes to a task without `Last-Event-ID`, takes
the artifacts of the snapshot, and applies the artifact updates that it receives.  When a turn of
the task has ended and the client has received everything, its snapshot holds a first part `seen`
of what the turn has emitted, and it was sent what was announced behind its bookmark `p`.  It has
the stored artifacts if the bookmark lies exactly behind `seen`. -/
theorem artifacts_reconstructed (cfg : BusConfig) (taskId : TaskId) (contextId : Option ContextId)
    (u : SubId) (cs : List HandlerCall) (hcs : cs.any HandlerCall.isLifecycle = true)
    (ctx ctx' : TaskContext) (w w' : World) (row : Row) (task : Task)
    (sub : Subscriber (StreamEvent Ref)) (hended : ctx.turnEnded = false)
    (hpending : ctx.pending = []) (hw : Watched cfg w) (hrow : w.row = some row)
    (hearly : ∀ task, w.snapshots u = some task → task.artifacts = row.task.artifacts)
    (hrun : (watched cfg taskId).system.Reaches
      ((TaskContext.runHandler .memory taskId contextId cs) ctx, w) (.ret (.ok (), ctx'), w'))
    (hdelivers : w'.Delivers cfg taskId u) (hsub : w'.bus.subscribers u = some sub)
    (htask : sub.taskId = taskId) (hbookmark : sub.afterEventId = none)
    (hcaught : CaughtUp taskId w'.bus sub)
    (hbefore : ∀ e ∈ (w.log taskId).drop sub.snapshotId, e.isStreamTerminal = false)
    (hloaded : w'.snapshots u = some task) :
    let emitted := emittedBy cs ++ ownArtifacts cs
    let before := (announced (w.log taskId)).length
    let bookmark := (announced ((w'.log taskId).take sub.snapshotId)).length
    ∃ row' seen, w'.row = some row' ∧ seen <+: emitted ∧
      ((w.snapshots u).isSome = true → seen = []) ∧
      row'.task.artifacts = applyWrites row.task.artifacts emitted ∧
      task.artifacts = applyWrites row.task.artifacts seen ∧
      announced (w'.received u) = (announced (w.log taskId) ++ emitted).drop bookmark ∧
      (seen ++ announced (w'.received u) = emitted ↔ bookmark = before + seen.length) ∧
      (bookmark = before + seen.length →
        applyWrites task.artifacts (announced (w'.received u)) = row'.task.artifacts) := by
  intro emitted before bookmark
  -- what the turn has come to
  have hstands := Prog.wp_sound (triple_runHandler contextId cs ctx w
    (hw.emitting hrow hearly hended hpending)) (Setting.reaches_systemWith _ hrun)
  obtain ⟨-, htracked⟩ : Ended cfg taskId u (w.turnStart taskId u row) emitted ctx' w' := by
    simpa [Stands, hcs] using hstands
  obtain ⟨row', flushed, hrow', hes, hstored⟩ := htracked.stored
  rw [resolve_nil, List.append_nil] at hes
  obtain rfl := hes
  obtain ⟨seen, hseen, hnone, htask'⟩ := htracked.snapshot task hloaded
  have hreceived := htracked.announced_received hdelivers hsub htask hbookmark hcaught hbefore
  -- each write once
  have honce : seen ++ announced (w'.received u) = emitted ↔ bookmark = before + seen.length := by
    rw [hreceived]
    refine append_drop_iff hseen ?_
    rw [← htracked.announced_log, ← List.take_append_drop sub.snapshotId (w'.log taskId),
      announced_append, List.take_append_drop, List.length_append]
    exact Nat.le_add_right _ _
  refine ⟨row', seen, hrow', hseen, hnone, hstored, htask', hreceived, honce, fun heq => ?_⟩
  rw [htask', ← applyWrites_append, honce.mpr heq, hstored]

/-- A chunk is published and waits in the buffer; the client subscribes and loads its snapshot; then
the handler completes with a text, and the client receives everything behind its bookmark. -/
def lateSubscription : List Move :=
  List.replicate 3 Move.step ++ [Move.bus .grant, .step, .step] ++
  [Move.bus (.subscribe 0 "t" none), .bus .grant, .load 0] ++
  List.replicate 8 Move.step ++ [Move.bus .grant] ++ List.replicate 3 Move.step ++
  [Move.bus .grant, .step] ++ List.replicate 3 (Move.bus (.next 0))

theorem allows_lateSubscription :
    ∀ m ∈ lateSubscription, (watched ⟨8, 8, 60⟩ "t").Allows m := by
  have hbus : ∀ a : BusAction (StreamEvent Ref), (∀ t e, a ≠ .publish t e) →
      (watched ⟨8, 8, 60⟩ "t").Allows (.bus a) :=
    fun a ha => allows_bus fun _ t e h => absurd h (ha t e)
  have hload : (watched ⟨8, 8, 60⟩ "t").Allows (.load 0) := by
    intro w w' h
    obtain ⟨row, hfilter, rfl⟩ := Option.map_eq_some_iff.mp h
    obtain ⟨hrow, hload⟩ := Option.filter_eq_some_iff.mp hfilter
    obtain ⟨hlive, hnone⟩ := (Bool.and_eq_true _ _).mp hload
    exact EnvStep.load trivial hrow (by simpa using hlive) (Option.isNone_iff_eq_none.mp hnone)
  simp +contextual [lateSubscription, or_imp, allows_step, hbus, hload]

/-- The chunk is stored, but the client has it neither from its snapshot nor from its stream. -/
theorem buffered_chunk_missed :
    ∃ ctx' w' row' task seen, (watched ⟨8, 8, 60⟩ "t").system.Reaches
      (TaskContext.runHandler .memory "t" (some "c")
        [.emitArtifact (chunk false), .lifecycle (.complete (some "y") "b")]
        { version := some 1 }, World.holding workingTask 1) (.ret (.ok (), ctx'), w') ∧
      w'.row = some row' ∧ w'.snapshots 0 = some task ∧
      row'.task.artifacts = applyWrites []
        [⟨(chunk false).artifact, false⟩, ⟨⟨"b", "", "", [{ text := some "y" }]⟩, false⟩] ∧
      task.artifacts = applyWrites [] seen ∧ task.artifacts = [] ∧
      announced (w'.received 0) = [⟨⟨"b", "", "", [{ text := some "y" }]⟩, false⟩] := by
  obtain ⟨ctx', w', hrun, hcheck⟩ := reaches_of_execute anyOp (fun _ _ _ _ => trivial)
    allows_lateSubscription
    (p := TaskContext.runHandler .memory "t" (some "c")
      [.emitArtifact (chunk false), .lifecycle (.complete (some "y") "b")] { version := some 1 })
    (w := World.holding workingTask 1)
    (fun _ w => decide (w.Delivers ⟨8, 8, 60⟩ "t" 0 ∧
      (announced ((w.log "t").take 1)).length = 1 ∧
      (∃ task ∈ w.snapshots 0, task.artifacts = []) ∧
      ∃ sub ∈ w.bus.subscribers 0, sub.taskId = "t" ∧ sub.afterEventId = none ∧
        sub.snapshotId = 1 ∧ sub.phase.isEnded = true)) (by decide +kernel)
  obtain ⟨hdelivers, hbookmark, ⟨task, htask, hnothing⟩, sub, hsub, hid, hafter, hsnapshot, hphase⟩ :=
    of_decide_eq_true hcheck
  have hcaught : CaughtUp "t" w'.bus sub := by
    refine Or.inl ?_
    cases hph : sub.phase with
    | ended => rfl
    | _ => exact nomatch hph ▸ hphase
  obtain ⟨row', seen, hrow', -, -, hstored, hloaded, hreceived, -, -⟩ :=
    artifacts_reconstructed ⟨8, 8, 60⟩ "t" (some "c") 0
      [.emitArtifact (chunk false), .lifecycle (.complete (some "y") "b")] rfl { version := some 1 }
      ctx' (World.holding workingTask 1) w' _ task sub rfl rfl (watched_start rfl rfl rfl) rfl
      (fun _ h => nomatch h) hrun hdelivers hsub hid hafter hcaught
      (fun _ he => absurd (List.mem_of_mem_drop he) List.not_mem_nil) htask
  refine ⟨ctx', w', row', task, seen, hrun, hrow', htask, hstored, hloaded, hnothing, ?_⟩
  rw [hreceived, hsnapshot, hbookmark]
  rfl

/-- The client that has received everything does not have the stored artifacts. -/
theorem chunk_not_reconstructed :
    ∃ ctx' w' row' task, (watched ⟨8, 8, 60⟩ "t").system.Reaches
      (TaskContext.runHandler .memory "t" (some "c")
        [.emitArtifact (chunk false), .lifecycle (.complete (some "y") "b")]
        { version := some 1 }, World.holding workingTask 1) (.ret (.ok (), ctx'), w') ∧
      w'.Delivers ⟨8, 8, 60⟩ "t" 0 ∧
      ((w'.bus.subscribers 0).map fun sub => (sub.taskId, sub.afterEventId, sub.phase.isEnded)) =
        some ("t", none, true) ∧
      w'.row = some row' ∧ w'.snapshots 0 = some task ∧
      applyWrites task.artifacts (announced (w'.received 0)) ≠ row'.task.artifacts := by
  obtain ⟨ctx', w', hrun, hcheck⟩ := reaches_of_execute anyOp (fun _ _ _ _ => trivial)
    allows_lateSubscription
    (p := TaskContext.runHandler .memory "t" (some "c")
      [.emitArtifact (chunk false), .lifecycle (.complete (some "y") "b")] { version := some 1 })
    (w := World.holding workingTask 1)
    (fun _ w => decide (w.Delivers ⟨8, 8, 60⟩ "t" 0 ∧
      ((w.bus.subscribers 0).map fun sub => (sub.taskId, sub.afterEventId, sub.phase.isEnded)) =
        some ("t", none, true) ∧
      ∃ row ∈ w.row, ∃ task ∈ w.snapshots 0,
        applyWrites task.artifacts (announced (w.received 0)) ≠ row.task.artifacts))
    (by decide +kernel)
  obtain ⟨hdelivers, hended, row, hrow, task, htask, hne⟩ := of_decide_eq_true hcheck
  exact ⟨ctx', w', row, task, hrun, hdelivers, hended, hrow, htask, hne⟩

end A2AKit
