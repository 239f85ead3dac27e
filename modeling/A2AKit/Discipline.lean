/-
Writes and the events that announce them.

Whatever the turn and the ladders do, they keep to one discipline: a state that ends the
stream is written first and announced by a marker afterwards, every version that guards a
write was handed out by the storage before, and between two writes there are only
operations that touch neither the task nor the markers (`Op.quiet`).

`Discipline` turns this into a proof rule.  It takes an assertion `J` that holds between
the calls, `V v` for a version the caller may use, `S v` for a version that an error has
reported, and `O st` for the time between the commit of `st` and its marker, and asks what
a single operation does to them.  From that, every program of the task keeps `J`:

* `Discipline.cancelTaskInStorage`, `Discipline.markFailed` — the ladders;
* `Discipline.run` — the handler, for every tree of calls;
* `Discipline.runTaskInner` — the whole turn.
-/
import A2AKit.Adapter

namespace A2AKit

open Act (Triple)

/-- The state of a write that ends the stream. -/
def UpdateArgs.ending (args : UpdateArgs Ref) : Option TaskState := args.state.filter endsStream

/-- The write sets a state or a status message. -/
def UpdateArgs.setsStatus (args : UpdateArgs Ref) : Bool :=
  args.state.isSome || args.statusMessage.isSome

/-- The other parties and every quiet operation keep `I`. -/
structure Quiet (T : Setting) (I : World → Prop) : Prop where
  stable : T.Stable I
  keep : ∀ {β : Type} (e : Op β) w w' b, e.quiet = true → T.ok e w →
    World.perform T.cfg T.taskId e w = some (w', b) → I w → I w'

theorem Quiet.and {T : Setting} {I I' : World → Prop} (h : Quiet T I) (h' : Quiet T I') :
    Quiet T fun w => I w ∧ I' w where
  stable := h.stable.and h'.stable
  keep e w w' b he hok hperf hw := ⟨h.keep e w w' b he hok hperf hw.1, h'.keep e w w' b he hok hperf hw.2⟩

theorem Quiet.imp {T : Setting} {I : World → Prop} {p : Prop} (h : p → Quiet T I) :
    Quiet T fun w => p → I w where
  stable := Setting.Stable.imp fun hp => (h hp).stable
  keep e w w' b he hok hperf hw hp := (h hp).keep e w w' b he hok hperf (hw hp)

theorem Quiet.const (T : Setting) (p : Prop) : Quiet T fun _ => p :=
  ⟨Setting.Stable.const p, fun _ _ _ _ _ _ _ h => h⟩

/-- What a write leaves behind: the version it returns may be used, unless it has ended the
stream. -/
def AfterWrite (J : World → Prop) (V : Option Nat → World → Prop) (O : TaskState → World → Prop)
    (args : UpdateArgs Ref) (v : Nat) (w : World) : Prop :=
  match args.ending with
  | none => J w ∧ V (some v) w
  | some st => O st w

/-- What an error says about the version it reports.  The first attempt of a write that sets
the status may have met the end of the task; its caller loads the task before it goes on.
A write of a state is not repeated after its second attempt. -/
def Reported (V : Option Nat → World → Prop) (S : Nat → World → Prop) (site : Site)
    (args : UpdateArgs Ref) : Exc → World → Prop
  | .storage (.concurrency _ (some v)) => fun w =>
    match site with
    | .turn _ false => if args.setsStatus then S v w else V (some v) w
    | .turn _ true => if args.state.isSome then S v w else V (some v) w
    | _ => True
  | _ => fun _ => True

theorem stable_afterWrite {T : Setting} {J : World → Prop} {V : Option Nat → World → Prop}
    {O : TaskState → World → Prop} (hJ : Quiet T J) (hV : ∀ v, Quiet T (V v))
    (hO : ∀ st, Quiet T (O st)) (args : UpdateArgs Ref) (v : Nat) :
    T.Stable (AfterWrite J V O args v) := by
  intro w w' hstep hw
  rw [AfterWrite] at hw ⊢
  split at hw
  · exact (hJ.and (hV _)).stable w w' hstep hw
  · exact (hO _).stable w w' hstep hw

theorem quiet_reported {T : Setting} {V : Option Nat → World → Prop} {S : Nat → World → Prop}
    (hV : ∀ v, Quiet T (V v)) (hS : ∀ v, Quiet T (S v)) (site : Site) (args : UpdateArgs Ref)
    (x : Exc) : Quiet T (Reported V S site args x) := by
  have htrue : Quiet T fun _ => True := Quiet.const T True
  match x with
  | .storage (.concurrency _ (some v)) =>
    match site with
    | .turn _ true =>
      by_cases hstate : args.state.isSome = true
      · simpa [Reported, hstate] using hS v
      · simpa [Reported, hstate] using hV (some v)
    | .turn _ false =>
      by_cases hsets : args.setsStatus = true
      · simpa [Reported, hsets] using hS v
      · simpa [Reported, hsets] using hV (some v)
    | .guarded => exact htrue
    | .retry => exact htrue
    | .fallback => exact htrue
    | .validation => exact htrue
    | .conflict => exact htrue
    | .other => exact htrue
  | .storage (.concurrency _ none) => exact htrue
  | .storage (.taskNotFound _) => exact htrue
  | .storage (.taskTerminalState _) => exact htrue
  | .cancelled => exact htrue
  | .runtime _ => exact htrue
  | .group _ => exact htrue

/-- What an argument about the order of writes and markers has to show. -/
structure Discipline (T : Setting) (req : {β : Type} → Op β → World → Prop) (k : StorageKind)
    (sites : Site → Prop) (J : World → Prop) (V : Option Nat → World → Prop)
    (S : Nat → World → Prop) (O : TaskState → World → Prop) : Prop where
  quiet : Quiet T J
  known : ∀ v, Quiet T (V v)
  seen : ∀ v, Quiet T (S v)
  open_ : ∀ st, Quiet T (O st)
  req_quiet : ∀ {β : Type} (e : Op β) w, e.quiet = true → T.ok e w → req e w
  version : ∀ w, J w → T.ok .getVersion w → V (w.row.map Row.version) w
  fresh : ∀ v w row, J w → S v w → w.row = some row →
    row.task.status.state.isTerminal = false → V (some v) w
  write : ∀ site args v₀, sites site → ∃ M, UpdateSteps T req k site args
    (fun w => J w ∧ V v₀ w ∧ V args.expectedVersion w) M
    (fun v w => AfterWrite J V O args v w ∧ V v₀ w)
    (fun x w => J w ∧ V v₀ w ∧ Reported V S site args x w)
  marker : ∀ taskId contextId status w, O status.state w →
    T.ok (.publish (.terminalMarker taskId contextId status)) w →
    req (.publish (.terminalMarker taskId contextId status)) w ∧
      ∀ w' id, World.perform T.cfg T.taskId
        (.publish (.terminalMarker taskId contextId status)) w = some (w', id) → J w'

/-- `m` keeps `I`, and every property of its private state, whatever it returns or raises. -/
def Frames (T : Setting) (req : {β : Type} → Op β → World → Prop) {σ α : Type} (I : World → Prop)
    (m : TaskM σ α) : Prop :=
  ∀ F : σ → Prop, Triple (T.systemWith req) (fun s w => F s ∧ I w) m (fun _ s w => F s ∧ I w)
    fun _ s w => F s ∧ I w

/-- `m` keeps `J`, whatever it does to its private state. -/
def Keeps (T : Setting) (req : {β : Type} → Op β → World → Prop) {σ α : Type} (J : World → Prop)
    (m : TaskM σ α) : Prop :=
  Triple (T.systemWith req) (fun _ => J) m (fun _ _ => J) fun _ _ => J

theorem Frames.keeps {T : Setting} {req : {β : Type} → Op β → World → Prop} {σ α : Type}
    {J : World → Prop} {m : TaskM σ α} (h : Frames T req J m) : Keeps T req J m :=
  (h fun _ => True).conseq (fun _ _ hw => ⟨trivial, hw⟩) (fun _ _ _ hw => hw.2) fun _ _ _ hw => hw.2

/-- A run that ends, however it ends, has kept `J`. -/
theorem Keeps.of_reaches {T : Setting} {req : {β : Type} → Op β → World → Prop} {σ α : Type}
    {J : World → Prop} {m : TaskM σ α} (h : Keeps T req J m) {s : σ} {w w' : World}
    {r : Except Exc α × σ} (hw : J w) (hrun : T.system.Reaches (m s, w) (.ret r, w')) : J w' := by
  have hr := Prog.wp_sound (h s w hw) (Setting.reaches_systemWith _ hrun)
  obtain ⟨r, s'⟩ := r
  cases r with
  | ok a => exact hr
  | error x => exact hr

section Quiet

variable {T : Setting} {req : {β : Type} → Op β → World → Prop} {σ α β : Type}
  {I : World → Prop} {F : σ → Prop}

theorem Setting.Stable.framed (hI : T.Stable I) (p : Prop) :
    (T.systemWith req).Stable fun w => p ∧ I w :=
  (Setting.Stable.const p).and hI

theorem Frames.pure (hI : T.Stable I) (a : α) : Frames T req I (pure a : TaskM σ α) :=
  fun _ => Triple.pure (fun _ => hI.framed _) fun _ _ h => h

theorem Frames.throw (hI : T.Stable I) (x : Exc) : Frames T req I (throw x : TaskM σ α) :=
  fun _ => Triple.throw (fun _ => hI.framed _) fun _ _ h => h

theorem Frames.bind {m : TaskM σ α} {f : α → TaskM σ β} (hm : Frames T req I m)
    (hf : ∀ a, Frames T req I (f a)) : Frames T req I (m >>= f) :=
  fun F => Triple.bind (hm F) fun a => hf a F

theorem Frames.tryCatch {m : TaskM σ α} {f : Exc → TaskM σ α} (hm : Frames T req I m)
    (hf : ∀ x, Frames T req I (f x)) : Frames T req I (tryCatchThe Exc m f) :=
  fun F => Triple.tryCatch (hm F) fun x => hf x F

variable (hreq : ∀ {β : Type} (e : Op β) w, e.quiet = true → T.ok e w → req e w) (hI : Quiet T I)
include hreq hI

theorem Quiet.perform {e : Op α} (he : e.quiet = true) (F : σ → Prop)
    {X : Exc → σ → World → Prop} :
    Triple (T.systemWith req) (fun s w => F s ∧ I w) (Act.perform e) (fun _ s w => F s ∧ I w) X := by
  refine Triple.perform (fun _ => hI.stable.framed _) (fun _ _ => hI.stable.framed _) ?_
  intro s w hw hok
  exact ⟨hreq e w he hok, fun w' a hperf => ⟨hw.1, hI.keep e w w' a he hok hperf hw.2⟩⟩

/-- An await raises nothing but a cancellation. -/
theorem Quiet.checkpoint (pt : AwaitPoint) (F : σ → Prop) :
    Triple (T.systemWith req) (fun s w => F s ∧ I w) (checkpoint pt) (fun _ s w => F s ∧ I w)
      fun x s w => x = .cancelled ∧ F s ∧ I w := by
  refine Triple.bind (hI.perform hreq rfl F) fun raised => ?_
  cases raised with
  | true => exact Triple.throw (fun _ => hI.stable.framed _) fun _ _ hw => ⟨rfl, hw⟩
  | false => exact Triple.pure (fun _ => hI.stable.framed _) fun _ _ hw => hw

theorem Quiet.storageCheckpoint (k : StorageKind) (F : σ → Prop) :
    Triple (T.systemWith req) (fun s w => F s ∧ I w) k.checkpoint (fun _ s w => F s ∧ I w)
      fun x s w => x = .cancelled ∧ F s ∧ I w := by
  cases k with
  | memory => exact Triple.pure (fun _ => hI.stable.framed _) fun _ _ hw => hw
  | split b => exact hI.checkpoint hreq .plain F

theorem Quiet.wait (pt : AwaitPoint) : Frames T req I (A2AKit.checkpoint pt : TaskM σ Unit) :=
  fun F => (hI.checkpoint hreq pt F).conseq (fun _ _ hw => hw) (fun _ _ _ hw => hw)
    fun _ _ _ hw => hw.2

theorem Quiet.loadTask (k : StorageKind) (site : Site) :
    Frames T req I (loadTask k site : TaskM σ _) :=
  Frames.bind (fun F => (hI.storageCheckpoint hreq k F).conseq (fun _ _ hw => hw)
    (fun _ _ _ hw => hw) fun _ _ _ hw => hw.2) fun _ F => hI.perform hreq rfl F

theorem Quiet.published (shielded : Bool) (id : Nat) :
    Frames T req I (if shielded then Act.perform (.published id) else
      tryCatchThe Exc (do
        A2AKit.checkpoint .plain
        Act.perform (.published id)) fun x => do
          Act.perform (.withdraw id)
          throw x : TaskM σ Unit) := by
  split
  · exact fun F => hI.perform hreq rfl F
  · refine Frames.tryCatch (Frames.bind (hI.wait hreq .plain) fun _ F => hI.perform hreq rfl F) ?_
    intro x
    exact Frames.bind (fun F => hI.perform hreq rfl F) fun _ => Frames.throw hI.stable x

theorem Quiet.sendEvent (shielded : Bool) {event : StreamEvent Ref}
    (hevent : event.isStreamTerminal = false) :
    Frames T req I (Emitter.sendEvent shielded event : TaskM σ Unit) := by
  refine Frames.bind (fun F => hI.perform hreq (by simp [Op.quiet, hevent]) F) fun id => ?_
  exact hI.published hreq shielded id

omit hI in
theorem Quiet.makeAgentMessage (hI : Quiet T I) (taskId : TaskId) (contextId : Option ContextId)
    (parts : List Part) : Frames T req I (TaskContext.makeAgentMessage taskId contextId parts) :=
  Frames.bind (fun F => hI.perform hreq rfl F) fun _ => Frames.pure hI.stable _

omit hreq hI in
/-- A program that keeps every quiet assertion also keeps one about its private state. -/
theorem Frames.lift {m : TaskM σ α} {P : σ → World → Prop}
    (hm : ∀ {I}, Quiet T I → Frames T req I m) (hP : ∀ s, Quiet T (P s)) :
    Triple (T.systemWith req) P m (fun _ => P) fun _ => P := by
  intro s w hw
  refine Act.wp_mono (hm (hP s) (fun s' => s' = s) s w ⟨rfl, hw⟩) ?_
  rintro (x | a) s' w' ⟨rfl, hw'⟩
  · exact hw'
  · exact hw'

end Quiet

/-! ### The ladders -/

namespace Discipline

variable {T : Setting} {req : {β : Type} → Op β → World → Prop} {k : StorageKind}
  {sites : Site → Prop} {J : World → Prop} {V : Option Nat → World → Prop}
  {S : Nat → World → Prop} {O : TaskState → World → Prop} {σ : Type} {F : σ → Prop}

/-- `update_task` of the emitter. -/
theorem update (hd : Discipline T req k sites J V S O) (site : Site) (hsite : sites site)
    (args : UpdateArgs Ref) (v₀ : Option Nat) (F : σ → Prop) :
    Triple (T.systemWith req) (fun s w => F s ∧ J w ∧ V v₀ w ∧ V args.expectedVersion w)
      (Emitter.updateTask k site args) (fun v s w => F s ∧ AfterWrite J V O args v w ∧ V v₀ w)
      fun x s w => F s ∧ J w ∧ V v₀ w ∧ Reported V S site args x w := by
  intro s w hw
  obtain ⟨M, hsteps⟩ := hd.write site args v₀ hsite
  refine Act.wp_mono (hsteps.wp hw.2) ?_
  rintro (x | v) s' w' ⟨rfl, hw'⟩
  · exact ⟨hw.1, hw'⟩
  · exact ⟨hw.1, hw'⟩

/-- `get_version` returns a version that may be used. -/
theorem getVersion (hd : Discipline T req k sites J V S O) {I : World → Prop} (hI : Quiet T I)
    (F : σ → Prop) :
    Triple (T.systemWith req) (fun s w => F s ∧ J w ∧ I w) (getVersion k)
      (fun v s w => F s ∧ (J w ∧ I w) ∧ V v w) fun x s w => x = .cancelled ∧ F s ∧ J w ∧ I w := by
  have hJI := hd.quiet.and hI
  refine Triple.bind (hJI.storageCheckpoint hd.req_quiet k F) fun _ => ?_
  refine Triple.perform (fun _ => hJI.stable.framed _)
    (fun v _ => (hJI.stable.and (hd.known v).stable).framed _) ?_
  intro s w hw hok
  refine ⟨hd.req_quiet _ w rfl hok, fun w' v hperf => ?_⟩
  obtain ⟨rfl, rfl⟩ := Prod.mk.inj (Option.some_inj.mp hperf)
  exact ⟨hw.1, hw.2, hd.version w hw.2.1 hok⟩

/-- The first step of a guarded write. -/
theorem readVersion (hd : Discipline T req k sites J V S O) (F : σ → Prop) :
    Triple (T.systemWith req) (fun s w => F s ∧ J w) (A2AKit.getVersion k)
      (fun v s w => F s ∧ J w ∧ V v w) fun _ s w => F s ∧ J w :=
  (hd.getVersion (Quiet.const T True) F).conseq (fun _ _ hw => ⟨hw.1, hw.2, trivial⟩)
    (fun _ _ _ hw => ⟨hw.1, hw.2.1.1, hw.2.2⟩) fun _ _ _ hw => ⟨hw.2.1, hw.2.2.1⟩

/-- A marker closes what a write has opened. -/
theorem sendMarker (hd : Discipline T req k sites J V S O) (shielded : Bool) (taskId : TaskId)
    (contextId : ContextId) (status : TaskStatus) (F : σ → Prop) :
    Triple (T.systemWith req) (fun s w => F s ∧ O status.state w)
      (Emitter.sendEvent shielded (.terminalMarker taskId contextId status))
      (fun _ s w => F s ∧ J w) fun _ s w => F s ∧ J w := by
  refine Triple.bind (Q := fun _ s w => F s ∧ J w) (Triple.perform
    (fun _ => (hd.open_ _).stable.framed _) (fun _ _ => hd.quiet.stable.framed _) ?_)
    fun id => hd.quiet.published hd.req_quiet shielded id F
  intro s w hw hok
  obtain ⟨hreq, hmarker⟩ := hd.marker taskId contextId status w hw.2 hok
  exact ⟨hreq, fun w' id hperf => ⟨hw.1, hmarker w' id hperf⟩⟩

/-- The ladder has written its state, or not. -/
def Ladder (J : World → Prop) (O : TaskState → World → Prop) (st : TaskState) (written : Bool)
    (w : World) : Prop :=
  if written then O st w else J w

section Ladders

variable (hd : Discipline T req k (fun _ => True) J V S O) (hblind : ∀ w, J w → V none w)
include hd

/-- A guarded write of a ladder. -/
theorem guarded {st : TaskState} (hst : endsStream st = true) (site : Site) (message : Message)
    (ws : List (ArtifactWrite Ref)) (version : Option Nat) (F : σ → Prop) :
    Triple (T.systemWith req) (fun s w => F s ∧ J w ∧ V version w)
      (do
        let _ ← Emitter.updateTask k site (endingArgs st message ws version)
        pure true : TaskM σ Bool) (fun written s w => F s ∧ Ladder J O st written w)
      fun _ s w => F s ∧ J w := by
  have hending : (endingArgs st message ws version).ending = some st := by
    simp [UpdateArgs.ending, endingArgs, hst]
  refine Triple.bind ((hd.update site trivial (endingArgs st message ws version) version
    F).conseq (fun s w hw => ⟨hw.1, hw.2.1, hw.2.2, hw.2.2⟩) (fun _ _ _ hw => hw)
    fun _ _ _ hw => ⟨hw.1, hw.2.1⟩) fun v => ?_
  refine Triple.pure (fun s => ((stable_afterWrite hd.quiet hd.known hd.open_ _ v).and (hd.known version).stable).framed _) ?_
  intro s w hw
  have hopen : AfterWrite J V O (endingArgs st message ws version) v w := hw.2.1
  rw [AfterWrite, hending] at hopen
  exact ⟨hw.1, hopen⟩

/-- The final event of a ladder. -/
theorem announce (taskId : TaskId) (contextId : ContextId) (st : TaskState) (message : Message)
    (written : Bool) (F : σ → Prop) :
    Triple (T.systemWith req) (fun s w => F s ∧ Ladder J O st written w)
      (A2AKit.announce taskId contextId st message written) (fun _ s w => F s ∧ J w)
      fun _ s w => F s ∧ J w := by
  cases written with
  | false => exact Frames.pure hd.quiet.stable () F
  | true =>
    refine Triple.bind ((hd.open_ st).perform hd.req_quiet rfl F) fun timestamp => ?_
    exact hd.sendMarker false taskId contextId { state := st, timestamp, message := some message } F

include hblind

theorem artifactFallback (ws : List (ArtifactWrite Ref)) :
    Frames T req J (artifactFallback k ws : TaskM σ Unit) := by
  intro F
  rw [A2AKit.artifactFallback]
  split
  · exact Frames.pure hd.quiet.stable () F
  · refine Triple.tryCatch (X := fun _ s w => F s ∧ J w) (Triple.bind
      (Q := fun v s w => F s ∧ AfterWrite J V O { artifacts := ws } v w ∧ V none w)
      ((hd.update .fallback trivial { artifacts := ws } none F).conseq
        (fun s w hw => ⟨hw.1, hw.2, hblind w hw.2, hblind w hw.2⟩) (fun _ _ _ hw => hw)
        fun _ _ _ hw => ⟨hw.1, hw.2.1⟩) fun v => ?_) fun x => ?_
    · refine Triple.pure (fun s => ?_) fun s w hw => ⟨hw.1, hw.2.1.1⟩
      exact ((stable_afterWrite hd.quiet hd.known hd.open_ _ v).and (hd.known none).stable).framed _
    · split
      · exact Frames.pure hd.quiet.stable () F
      · exact Frames.throw hd.quiet.stable x F

/-- The artifact-only exit of a ladder. -/
theorem fallback_false (ws : List (ArtifactWrite Ref)) (st : TaskState) (F : σ → Prop) :
    Triple (T.systemWith req) (fun s w => F s ∧ J w)
      (do
        A2AKit.artifactFallback k ws
        pure false : TaskM σ Bool) (fun written s w => F s ∧ Ladder J O st written w)
      fun _ s w => F s ∧ J w :=
  Triple.bind (artifactFallback hd hblind ws F) fun _ =>
    Triple.pure (fun _ => hd.quiet.stable.framed _) fun _ _ hw => hw

theorem reloadAndRetry {st : TaskState} (hst : endsStream st = true) (message : Message)
    (ws : List (ArtifactWrite Ref)) (F : σ → Prop) :
    Triple (T.systemWith req) (fun s w => F s ∧ J w) (A2AKit.reloadAndRetry k st message ws)
      (fun written s w => F s ∧ Ladder J O st written w) fun _ s w => F s ∧ J w := by
  refine Triple.bind (hd.readVersion F) fun version => ?_
  have hquiet := hd.quiet.and (hd.known version)
  refine Triple.bind ((hquiet.loadTask hd.req_quiet k .retry F).conseq (fun _ _ hw => hw)
    (fun _ _ _ hw => hw) fun _ _ _ hw => ⟨hw.1, hw.2.1⟩) fun task => ?_
  have hout := (fallback_false hd hblind ws st F).conseq
    (fun (_ : σ) w (hw : F _ ∧ J w ∧ V version w) => ⟨hw.1, hw.2.1⟩) (fun _ _ _ hw => hw)
    fun _ _ _ hw => hw
  rcases task with _ | task
  · exact hout
  dsimp only
  split
  · exact hout
  refine Triple.tryCatch (guarded hd hst .retry message ws version F) ?_
  intro x
  split
  · exact fallback_false hd hblind ws st F
  · exact fallback_false hd hblind ws st F
  · exact Triple.throw (fun _ => hd.quiet.stable.framed _) fun _ _ hw => hw

theorem cancelTaskInStorage (taskId : TaskId) (contextId : Option ContextId) (reason : String)
    (ws : List (ArtifactWrite Ref)) :
    Frames T req J (cancelTaskInStorage k taskId contextId reason ws : TaskM σ Unit) := by
  intro F
  refine Triple.bind (hd.readVersion F) fun version => ?_
  have hquiet := hd.quiet.and (hd.known version)
  refine Triple.bind ((hquiet.loadTask hd.req_quiet k .guarded F).conseq (fun _ _ hw => hw)
    (fun _ _ _ hw => hw) fun _ _ _ hw => ⟨hw.1, hw.2.1⟩) fun task => ?_
  have hdone : Triple (T.systemWith req) (fun s w => F s ∧ J w ∧ V version w)
      (pure () : TaskM σ Unit) (fun _ s w => F s ∧ J w) fun _ s w => F s ∧ J w :=
    Triple.pure (fun _ => hquiet.stable.framed _) fun _ _ hw => ⟨hw.1, hw.2.1⟩
  rcases task with _ | task
  · exact hdone
  dsimp only
  split
  · exact hdone
  refine Triple.bind (hquiet.perform hd.req_quiet rfl F) fun messageId => ?_
  refine Triple.bind (Triple.tryCatch (guarded hd rfl .guarded _ ws version F) ?_)
    fun written => announce hd taskId _ .canceled _ written F
  intro x
  split
  · exact reloadAndRetry hd hblind rfl _ ws F
  · exact reloadAndRetry hd hblind rfl _ ws F
  · exact Triple.throw (fun _ => hd.quiet.stable.framed _) fun _ _ hw => hw

theorem markFailed (taskId : TaskId) (contextId : Option ContextId) (reason : String)
    (ws : List (ArtifactWrite Ref)) :
    Frames T req J (markFailed k taskId contextId reason ws : TaskM σ Unit) := by
  intro F
  refine Triple.bind (hd.quiet.perform hd.req_quiet rfl F) fun messageId => ?_
  refine Triple.bind (hd.readVersion F) fun version => ?_
  refine Triple.bind (Triple.tryCatch (guarded hd rfl .guarded _ ws version F) ?_)
    fun written => announce hd taskId _ .failed _ written F
  intro x
  split
  · exact fallback_false hd hblind ws .failed F
  · exact reloadAndRetry hd hblind rfl _ ws F
  · exact Triple.throw (fun _ => hd.quiet.stable.framed _) fun _ _ hw => hw

/-- `_force_cancel_after` -/
theorem forceCancelAfter (taskId : TaskId) :
    Frames T req J (forceCancelAfter k taskId : TaskM σ Unit) := by
  refine Frames.tryCatch (Frames.bind (hd.quiet.loadTask hd.req_quiet k .other) fun task => ?_)
    fun x => ?_
  · rcases task with _ | task
    · exact Frames.pure hd.quiet.stable ()
    refine Frames.bind ?_ fun _ => Frames.bind (fun F => hd.quiet.perform hd.req_quiet rfl F)
      fun _ F => hd.quiet.perform hd.req_quiet rfl F
    rw [A2AKit.forceCancel]
    split
    · exact Frames.pure hd.quiet.stable ()
    · exact cancelTaskInStorage hd hblind taskId _ _ []
  · split
    · exact Frames.pure hd.quiet.stable ()
    · exact Frames.throw hd.quiet.stable x

theorem markFailedThenAck (taskId : TaskId) (contextId : Option ContextId) (reason : String) :
    Frames T req J (markFailedThenAck k taskId contextId reason : TaskM σ Unit) := by
  refine Frames.bind (Frames.tryCatch (markFailed hd hblind taskId contextId reason []) fun x => ?_)
    fun _ => Frames.bind (fun F => hd.quiet.perform hd.req_quiet rfl F)
      fun _ => Frames.pure hd.quiet.stable ()
  split
  · exact Frames.pure hd.quiet.stable ()
  · exact Frames.bind (fun F => hd.quiet.perform hd.req_quiet rfl F)
      fun _ => Frames.throw hd.quiet.stable x

theorem handleFailedOp (taskId : TaskId) (contextId : Option ContextId)
    (attempt maxRetries : Nat) :
    Frames T req J (handleFailedOp k taskId contextId attempt maxRetries : TaskM σ Unit) := by
  rw [A2AKit.handleFailedOp]
  split
  · refine Frames.bind (fun F => hd.quiet.perform hd.req_quiet rfl F) fun raised => ?_
    split
    · exact markFailedThenAck hd hblind taskId contextId _
    · exact Frames.pure hd.quiet.stable ()
  · exact markFailedThenAck hd hblind taskId contextId _

/-- `_handle_op_inner` -/
theorem handleOpInner (taskId : TaskId) (contextId : Option ContextId)
    (attempt maxRetries : Nat) :
    Frames T req J (handleOpInner k taskId contextId attempt maxRetries : TaskM σ Unit) := by
  rw [A2AKit.handleOpInner]
  split
  · exact markFailedThenAck hd hblind taskId contextId _
  refine Frames.bind (fun F => hd.quiet.perform hd.req_quiet rfl F) fun raised => ?_
  split
  · exact handleFailedOp hd hblind taskId contextId attempt maxRetries
  refine Frames.bind (fun F => hd.quiet.perform hd.req_quiet rfl F) fun raised => ?_
  split
  · exact handleFailedOp hd hblind taskId contextId attempt maxRetries
  · exact Frames.pure hd.quiet.stable ()

end Ladders

end Discipline

/-! ### The calls of a handler -/

/-- The turn has not ended, and its version may be used. -/
def Running (J : World → Prop) (V : Option Nat → World → Prop) (ctx : TaskContext) (w : World) :
    Prop :=
  ctx.turnEnded = false ∧ J w ∧ V ctx.version w

/-- Between two calls of a handler. -/
def TurnKept (J : World → Prop) (V : Option Nat → World → Prop) (ctx : TaskContext) (w : World) :
    Prop :=
  J w ∧ (ctx.turnEnded = false → V ctx.version w)

/-- A version that may be used, if one is given. -/
def Usable (V : Option Nat → World → Prop) (current : Option Nat) (w : World) : Prop :=
  ∀ v, current = some v → V (some v) w

/-- After a write of the turn. -/
def TurnWritten (J : World → Prop) (V : Option Nat → World → Prop) (O : TaskState → World → Prop)
    (args : UpdateArgs Ref) (ctx : TaskContext) (w : World) : Prop :=
  ctx.turnEnded = false ∧ match args.ending with
    | none => J w ∧ V ctx.version w
    | some st => O st w

namespace Discipline

section Turn

variable {T : Setting} {req : {β : Type} → Op β → World → Prop} {k : StorageKind}
  {sites : Site → Prop} {J : World → Prop} {V : Option Nat → World → Prop}
  {S : Nat → World → Prop} {O : TaskState → World → Prop} {taskId : TaskId}
  {contextId : Option ContextId}

variable (hd : Discipline T req k sites J V S O)
include hd

theorem quiet_running (ctx : TaskContext) : Quiet T (Running J V ctx) :=
  (Quiet.const T _).and (hd.quiet.and (hd.known _))

theorem quiet_turnKept (ctx : TaskContext) : Quiet T (TurnKept J V ctx) :=
  hd.quiet.and (Quiet.imp fun _ => hd.known _)

theorem stable_turnWritten (args : UpdateArgs Ref) (ctx : TaskContext) :
    T.Stable (TurnWritten J V O args ctx) := by
  intro w w' hstep hw
  refine ⟨hw.1, ?_⟩
  have hw' := hw.2
  split at hw'
  · exact (hd.quiet.stable.and (hd.known _).stable) w w' hstep hw'
  · exact (hd.open_ _).stable w w' hstep hw'

theorem quiet_usable (current : Option Nat) : Quiet T (Usable V current) where
  stable w w' hstep hw v hv := (hd.known (some v)).stable w w' hstep (hw v hv)
  keep e w w' b he hok hperf hw v hv := (hd.known (some v)).keep e w w' b he hok hperf (hw v hv)

/-- `exc.current_version or await self._storage.get_version(task_id)` -/
theorem freshVersion {I : World → Prop} (hI : Quiet T I) (current : Option Nat)
    (F : TaskContext → Prop) :
    Triple (T.systemWith req)
      (fun s w => F s ∧ (J w ∧ I w) ∧ Usable V current w) (TaskContext.freshVersion k current)
      (fun v s w => F s ∧ (J w ∧ I w) ∧ V v w) fun x s w => x = .cancelled ∧ F s ∧ J w ∧ I w := by
  have hJI := hd.quiet.and hI
  rw [TaskContext.freshVersion]
  split
  · rename_i v hv
    have hcurrent := (Option.filter_eq_some_iff.mp hv).1
    exact Triple.pure (fun s => (hJI.and (hd.quiet_usable current)).stable.framed _)
      fun s w hw => ⟨hw.1, hw.2.1, hw.2.2 v hcurrent⟩
  · exact (hd.getVersion hI F).conseq (fun _ _ hw => ⟨hw.1, hw.2.1⟩) (fun _ _ _ hw => hw)
      fun _ _ _ hw => hw

/-- The reload after a conflict: the reported version may be used if the task was still
alive, or if the write leaves the status alone. -/
theorem reload (batch : List (ArtifactWrite Ref)) (args : UpdateArgs Ref) (m : String)
    (current : Option Nat) (ctx : TaskContext) :
    Triple (T.systemWith req)
      (fun s w => s = ctx ∧ (J w ∧ V ctx.version w) ∧
        Reported V S (.turn batch false) args (.storage (.concurrency m current)) w)
      (loadTask k .other)
      (fun t s w => s = ctx ∧ (J w ∧ V ctx.version w) ∧ ∀ task, t = some task →
        (task.status.state.isTerminal && args.setsStatus) = false → Usable V current w)
      fun x s w => x = .cancelled ∧ s = ctx ∧ J w ∧ V ctx.version w := by
  have hquiet := hd.quiet.and (hd.known ctx.version)
  have hpre := hquiet.and
    (quiet_reported hd.known hd.seen (.turn batch false) args (.storage (.concurrency m current)))
  refine Triple.bind ((hpre.storageCheckpoint hd.req_quiet k _).conseq (fun _ _ hw => hw)
    (fun _ _ _ hw => hw) fun _ _ _ hw => ⟨hw.1, hw.2.1, hw.2.2.1⟩) fun _ => ?_
  refine Triple.perform (fun _ => hpre.stable.framed _) (fun t s => ?_) ?_
  · refine Setting.Stable.framed (I := fun w => (J w ∧ V ctx.version w) ∧ _) ?_ _
    refine hquiet.stable.and fun w w' hstep hw task ht hlive => ?_
    exact (hd.quiet_usable current).stable w w' hstep (hw task ht hlive)
  · intro s w hw hok
    refine ⟨hd.req_quiet _ w rfl hok, fun w' t hperf => ?_⟩
    obtain ⟨rfl, ht⟩ := Prod.mk.inj (Option.some_inj.mp hperf)
    refine ⟨hw.1, hw.2.1, fun task htask hlive v hv => ?_⟩
    obtain ⟨row, hrow, rfl⟩ := Option.map_eq_some_iff.mp (ht.trans htask)
    have hrep := hw.2.2
    rw [hv] at hrep
    simp only [Reported] at hrep
    by_cases hsets : args.setsStatus = true
    · rw [if_pos hsets] at hrep
      refine hd.fresh v w row hw.2.1.1 hrep hrow ?_
      simpa [hsets] using hlive
    · rw [if_neg hsets] at hrep
      exact hrep

variable (hs : ∀ ws second, sites (.turn ws second))
include hs

/-- One attempt of a versioned write. -/
theorem writeOnce (batch : List (ArtifactWrite Ref)) (second : Bool) (args : UpdateArgs Ref)
    {ctx : TaskContext} (hctx : ctx.turnEnded = false) (version : Option Nat) :
    Triple (T.systemWith req)
      (fun s w => s = ctx ∧ J w ∧ V ctx.version w ∧ V version w)
      (do
        let newVersion ← Emitter.updateTask k (.turn batch second)
          { args with expectedVersion := version }
        TaskContext.setVersion (some newVersion) : TurnM Unit)
      (fun _ => TurnWritten J V O args)
      fun x s w => s = ctx ∧ J w ∧ V ctx.version w ∧ Reported V S (.turn batch second) args x w := by
  refine Triple.bind (hd.update (.turn batch second) (hs batch second)
    { args with expectedVersion := version } ctx.version fun s => s = ctx) fun v => ?_
  refine Triple.modify (fun s => ((stable_afterWrite hd.quiet hd.known hd.open_ _ v).and (hd.known _).stable).framed _) ?_
  rintro s w ⟨rfl, hw, -⟩
  refine ⟨hctx, ?_⟩
  rw [AfterWrite] at hw
  exact hw

/-- `_versioned_update` -/
theorem versionedUpdate (batch : List (ArtifactWrite Ref)) (args : UpdateArgs Ref) :
    Triple (T.systemWith req) (Running J V) (TaskContext.versionedUpdate k taskId batch args)
      (fun _ => TurnWritten J V O args)
      fun x s w => Running J V s w ∧ Reported V S (.turn batch true) args x w := by
  refine Triple.get_bind (fun s => (hd.quiet_running s).stable) fun ctx => ?_
  rintro s w ⟨rfl, hctx, hw⟩
  have hquiet := hd.quiet.and (hd.known s.version)
  refine Triple.tryCatch (hd.writeOnce hs batch false args hctx s.version) (fun x => ?_) s w
    ⟨rfl, hw.1, hw.2, hw.2⟩
  have hraise : ∀ m, Triple (T.systemWith req) (fun s' w => s' = s ∧ J w ∧ V s.version w)
      (throw (.storage (.taskTerminalState m)) : TurnM Unit) (fun _ => TurnWritten J V O args)
      fun x s w => Running J V s w ∧ Reported V S (.turn batch true) args x w := by
    intro m
    refine Triple.throw (fun s' => hquiet.stable.framed _) ?_
    rintro s' w ⟨rfl, hw⟩
    exact ⟨⟨hctx, hw⟩, trivial⟩
  split
  · rename_i m current
    refine Triple.bind ((hd.reload batch args m current s).conseq
      (fun s' w hw => ⟨hw.1, ⟨hw.2.1, hw.2.2.1⟩, hw.2.2.2⟩) (fun _ _ _ hw => hw) ?_) fun t => ?_
    · rintro x s' w ⟨rfl, rfl, hw⟩
      exact ⟨⟨hctx, hw⟩, trivial⟩
    rcases t with _ | task
    · exact (hraise _).conseq (fun _ _ hw => ⟨hw.1, hw.2.1⟩) (fun _ _ _ hw => hw) fun _ _ _ hw => hw
    dsimp only
    split
    · exact (hraise _).conseq (fun _ _ hw => ⟨hw.1, hw.2.1⟩) (fun _ _ _ hw => hw) fun _ _ _ hw => hw
    · rename_i hlive
      refine Triple.bind ((hd.freshVersion (hd.known s.version) current fun s' => s' = s).conseq
        (fun s' w hw => ⟨hw.1, hw.2.1, hw.2.2 task rfl (by simpa [UpdateArgs.setsStatus] using hlive)⟩)
        (fun _ _ _ hw => hw) ?_) fun fresh => ?_
      · rintro x s' w ⟨rfl, rfl, hw⟩
        exact ⟨⟨hctx, hw⟩, trivial⟩
      · refine (hd.writeOnce hs batch true args hctx fresh).conseq
          (fun s' w hw => ⟨hw.1, hw.2.1.1, hw.2.1.2, hw.2.2⟩) (fun _ _ _ hw => hw) ?_
        rintro x s' w ⟨rfl, hw⟩
        exact ⟨⟨hctx, hw.1, hw.2.1⟩, hw.2.2⟩
  · rename_i hx
    refine (Triple.throw (P := fun s' w => s' = s ∧ J w ∧ V s.version w)
      (fun s' => hquiet.stable.framed _) ?_).conseq (fun s' w hw => ⟨hw.1, hw.2.1, hw.2.2.1⟩)
      (fun _ _ _ hw => hw) fun _ _ _ hw => hw
    rintro s' w ⟨rfl, hw⟩
    refine ⟨⟨hctx, hw⟩, ?_⟩
    rw [Reported.eq_def]
    split
    · exact absurd rfl (hx _ _)
    · trivial

omit hs in
theorem takePending : Triple (T.systemWith req) (Running J V) TaskContext.takePending
    (fun _ => Running J V) fun _ => Running J V := by
  have hstable : ∀ s, T.Stable (Running J V s) := fun s => (hd.quiet_running s).stable
  refine Triple.get_bind hstable fun ctx => ?_
  refine Triple.bind (Q := fun _ => Running J V) ?_ fun _ => Triple.pure hstable fun _ _ hw => hw
  exact Triple.modify (fun s => (hstable s).framed _) fun _ _ hw => hw.2

theorem writeOrSkip (batch : List (ArtifactWrite Ref)) {args : UpdateArgs Ref}
    (hargs : args.state = none) :
    Triple (T.systemWith req) (Running J V) (TaskContext.writeOrSkip k taskId batch args)
      (fun _ => Running J V) fun _ => Running J V := by
  have hstable : ∀ s, T.Stable (Running J V s) := fun s => (hd.quiet_running s).stable
  refine Triple.tryCatch (Triple.bind (hd.versionedUpdate hs batch args) fun _ => ?_) fun x => ?_
  · refine Triple.pure (hd.stable_turnWritten args) fun s w hw => ?_
    rw [TurnWritten, UpdateArgs.ending, hargs] at hw
    exact hw
  have hstable' : ∀ s, T.Stable fun w => Running J V s w ∧
      Reported V S (.turn batch true) args x w :=
    fun s => (hstable s).and (quiet_reported hd.known hd.seen _ _ x).stable
  split
  · rename_i m current
    refine Triple.bind (Q := fun _ s w => Running J V s w ∧ Usable V current w)
      (Triple.modify hstable' fun s w hw => ⟨hw.1, ?_⟩) fun _ => ?_
    · intro v hv
      have hrep := hw.2
      simp only [hv, Reported, hargs] at hrep
      exact hrep
    have hfinish : ∀ v, Triple (T.systemWith req)
        (fun s w => s.turnEnded = false ∧ J w ∧ V v w)
        (do
          TaskContext.setVersion v
          pure false : TurnM Bool) (fun _ => Running J V) fun _ => Running J V := by
      intro v
      refine Triple.bind (Q := fun _ => Running J V) (Triple.modify (fun s => ?_) ?_) fun _ =>
        Triple.pure hstable fun _ _ hw => hw
      · exact (hd.quiet.and (hd.known v)).stable.framed _
      · exact fun s w hw => hw
    rcases current with _ | v
    · -- the error reports no version, so the storage is asked
      refine Triple.fix fun ctx => ?_
      refine Triple.bind (Q := fun v s w => s = ctx ∧ ctx.turnEnded = false ∧ J w ∧ V v w)
        ((hd.getVersion ((Quiet.const T (ctx.turnEnded = false)).and (hd.known ctx.version))
          fun s => s = ctx).conseq ?_ ?_ ?_) fun v => ?_
      · rintro s w ⟨rfl, hw, -⟩
        exact ⟨rfl, hw.2.1, hw.1, hw.2.2⟩
      · exact fun v s w hw => ⟨hw.1, hw.2.1.2.1, hw.2.1.1, hw.2.2⟩
      · rintro x s w ⟨-, rfl, hw⟩
        exact ⟨hw.2.1, hw.1, hw.2.2⟩
      · refine (hfinish v).pre ?_
        rintro s w ⟨rfl, hw⟩
        exact hw
    · exact (hfinish (some v)).pre fun s w hw => ⟨hw.1.1, hw.1.2.1, hw.2 v rfl⟩
  · refine Triple.bind (Q := fun _ => Running J V)
      (Triple.modify hstable' fun s w hw => hw.1) fun _ => ?_
    exact Triple.throw hstable fun _ _ hw => hw

omit hs in
theorem touchFlush : Triple (T.systemWith req) (Running J V) TaskContext.touchFlush
    (fun _ => Running J V) fun _ => Running J V := by
  have hstable : ∀ s, T.Stable (Running J V s) := fun s => (hd.quiet_running s).stable
  refine Triple.bind (Frames.lift (fun hI F => hI.perform hd.req_quiet rfl F) hd.quiet_running)
    fun now => ?_
  exact Triple.modify hstable fun _ _ hw => hw

theorem flushArtifacts : Triple (T.systemWith req) (Running J V)
    (TaskContext.flushArtifacts k taskId) (fun _ => Running J V) fun _ => Running J V := by
  refine Triple.bind hd.takePending fun batch => ?_
  refine Triple.bind (hd.writeOrSkip hs batch rfl) fun written => ?_
  cases written with
  | true => exact hd.touchFlush
  | false => exact Triple.pure (fun s => (hd.quiet_running s).stable) fun _ _ hw => hw

theorem maybeFlush : Triple (T.systemWith req) (Running J V) (TaskContext.maybeFlush k taskId)
    (fun _ => Running J V) fun _ => Running J V := by
  have hdone : Triple (T.systemWith req) (Running J V) (pure () : TurnM Unit)
      (fun _ => Running J V) fun _ => Running J V :=
    Triple.pure (fun s => (hd.quiet_running s).stable) fun _ _ hw => hw
  refine Triple.get_bind (fun s => (hd.quiet_running s).stable) fun ctx => ?_
  refine Triple.pre (P := Running J V) ?_ fun _ _ hw => hw.2
  split
  · exact hdone
  refine Triple.bind (Frames.lift (fun hI F => hI.perform hd.req_quiet rfl F) hd.quiet_running)
    fun now => ?_
  split
  · exact hd.flushArtifacts hs
  · exact hdone

omit hs in
/-- A status event that does not end the stream. -/
theorem emitStatus (state : TaskState) (message : Option Message) :
    Triple (T.systemWith req) (Running J V)
      (TaskContext.emitStatus taskId contextId false state message false) (fun _ => Running J V)
      fun _ => Running J V := by
  refine Triple.bind (Frames.lift (fun hI F => hI.perform hd.req_quiet rfl F) hd.quiet_running)
    fun timestamp => ?_
  exact Frames.lift (fun hI => hI.sendEvent hd.req_quiet false rfl) hd.quiet_running

omit hs in
/-- A call that is ignored once the turn has ended. -/
theorem unlessEnded {m : TurnM Unit}
    (hm : Triple (T.systemWith req) (Running J V) m (fun _ => Running J V) fun _ => Running J V) :
    Triple (T.systemWith req) (TurnKept J V)
      (do
        let ctx ← Act.get
        if ctx.turnEnded then pure () else m : TurnM Unit)
      (fun _ => TurnKept J V) fun _ => TurnKept J V := by
  refine Triple.get_bind (fun s => (hd.quiet_turnKept s).stable) fun ctx => ?_
  split
  · exact Triple.pure (fun s => (hd.quiet_turnKept s).stable.framed _) fun _ _ hw => hw.2
  · rename_i hended
    refine hm.conseq ?_ (fun _ _ _ hw => ⟨hw.2.1, fun _ => hw.2.2⟩)
      fun _ _ _ hw => ⟨hw.2.1, fun _ => hw.2.2⟩
    rintro s w ⟨rfl, hw⟩
    have hrunning : s.turnEnded = false := by simpa using hended
    exact ⟨hrunning, hw.1, hw.2 hrunning⟩

theorem sendStatusText (message : String) : Triple (T.systemWith req) (Running J V)
    (TaskContext.sendStatusText k taskId contextId message) (fun _ => Running J V)
    fun _ => Running J V := by
  refine Triple.bind (Frames.lift
    (fun hI => hI.makeAgentMessage hd.req_quiet taskId contextId _) hd.quiet_running) fun msg => ?_
  refine Triple.bind hd.takePending fun batch => ?_
  refine Triple.bind (hd.writeOrSkip hs batch rfl) fun written => ?_
  cases written with
  | true => exact Triple.bind hd.touchFlush fun _ => hd.emitStatus .working (some msg)
  | false => exact Triple.pure (fun s => (hd.quiet_running s).stable) fun _ _ hw => hw

theorem sendStatus (message : Option String) : Triple (T.systemWith req) (TurnKept J V)
    (TaskContext.sendStatus k taskId contextId message) (fun _ => TurnKept J V)
    fun _ => TurnKept J V := by
  refine hd.unlessEnded ?_
  cases message with
  | none => exact hd.emitStatus .working none
  | some text => exact hd.sendStatusText hs text

theorem emitArtifact (a : EmitArgs) : Triple (T.systemWith req) (TurnKept J V)
    (TaskContext.emitArtifact k taskId contextId a) (fun _ => TurnKept J V)
    fun _ => TurnKept J V := by
  refine hd.unlessEnded ?_
  split
  · exact Triple.throw (fun s => (hd.quiet_running s).stable) fun _ _ hw => hw
  refine Triple.bind (Frames.lift (fun hI F => hI.perform hd.req_quiet rfl F) hd.quiet_running)
    fun r => ?_
  refine Triple.bind (Frames.lift (fun hI => hI.sendEvent hd.req_quiet false rfl) hd.quiet_running)
    fun _ => ?_
  refine Triple.bind (Q := fun _ => Running J V) ?_ fun _ => hd.maybeFlush hs
  exact Triple.modify (fun s => (hd.quiet_running s).stable) fun _ _ hw => hw

omit hs in
/-- The events before the marker are sent under the shield, where nothing is raised. -/
theorem sendEvents {I : World → Prop} (hI : Quiet T I) {events : List (StreamEvent Ref)}
    (hevents : ∀ e ∈ events, e.isStreamTerminal = false) (F : TaskContext → Prop)
    {X : Exc → TaskContext → World → Prop} :
    Triple (T.systemWith req) (fun s w => F s ∧ I w) (TaskContext.sendEvents events)
      (fun _ s w => F s ∧ I w) X := by
  induction events with
  | nil => exact Triple.pure (fun _ => hI.stable.framed _) fun _ _ hw => hw
  | cons e events ih =>
    have he : e.isStreamTerminal = false := hevents e List.mem_cons_self
    refine Triple.bind (Triple.bind (hI.perform hd.req_quiet (by simp [Op.quiet, he]) F)
      fun id => ?_) fun _ => ih fun e he => hevents e (List.mem_cons_of_mem _ he)
    exact hI.perform hd.req_quiet rfl F

/-- `_terminal_transition`: the write opens what the marker closes. -/
theorem terminalTransition {state : TaskState} (hstate : endsStream state = true)
    (message : Option Message) (artifacts : List (ArtifactWrite Ref)) (metadata : TaskMetadata)
    {events : List (StreamEvent Ref)} (hevents : ∀ e ∈ events, e.isStreamTerminal = false) :
    Triple (T.systemWith req) (TurnKept J V)
      (TaskContext.terminalTransition k taskId contextId state message artifacts metadata events)
      (fun _ => TurnKept J V) fun _ => TurnKept J V := by
  refine Triple.get_bind (fun s => (hd.quiet_turnKept s).stable) fun ctx => ?_
  split
  · exact Triple.throw (fun s => (hd.quiet_turnKept s).stable.framed _) fun _ _ hw => hw.2
  rename_i hended
  refine Triple.pre (P := Running J V) ?_ ?_
  swap
  · rintro s w ⟨rfl, hw⟩
    have hrunning : s.turnEnded = false := by simpa using hended
    exact ⟨hrunning, hw.1, hw.2 hrunning⟩
  have hkept : ∀ s w, Running J V s w → TurnKept J V s w := fun _ _ hw => ⟨hw.2.1, fun _ => hw.2.2⟩
  -- the buffer is taken first; a failure of the write puts it back
  refine Triple.bind (hd.takePending.conseq (fun _ _ hw => hw) (fun _ _ _ hw => hw)
    fun _ => hkept) fun pending => ?_
  refine Triple.bind (Q := fun _ s w => s.turnEnded = false ∧ O state w) (Triple.tryCatch
    ((hd.versionedUpdate hs pending _).conseq (fun _ _ hw => hw) ?_ fun _ _ _ hw => hw.1) fun x => ?_)
    fun _ => ?_
  · rintro _ s w ⟨hrunning, hw⟩
    simp only [UpdateArgs.ending, Option.filter_some, hstate, if_true] at hw
    exact ⟨hrunning, hw⟩
  · refine Triple.bind (Q := fun _ => Running J V)
      (Triple.modify (fun s => (hd.quiet_running s).stable) fun _ _ hw => hw) fun _ => ?_
    exact Triple.throw (fun s => (hd.quiet_running s).stable) hkept
  refine Triple.bind (Q := fun _ s w => s.turnEnded = true ∧ O state w)
    (Triple.modify (fun s => (hd.open_ state).stable.framed _) fun _ _ hw => ⟨rfl, hw.2⟩) fun _ => ?_
  refine Triple.bind (hd.sendEvents (hd.open_ state) hevents fun s => s.turnEnded = true) fun _ => ?_
  refine Triple.bind ((hd.open_ state).perform hd.req_quiet rfl
    fun s : TaskContext => s.turnEnded = true) fun timestamp => ?_
  dsimp only
  -- the end is announced only after it was stored
  rw [if_pos hstate]
  refine (hd.sendMarker true taskId (contextId.getD "") ⟨state, timestamp, message⟩
    fun s => s.turnEnded = true).conseq (fun _ _ hw => hw) ?_ ?_
  · rintro _ s w ⟨hover, hw⟩
    exact ⟨hw, fun h => absurd hover (by simp [h])⟩
  · rintro _ s w ⟨hover, hw⟩
    exact ⟨hw, fun h => absurd hover (by simp [h])⟩

theorem transition_plain {state : TaskState} (hstate : endsStream state = true)
    (message : Option Message) :
    Triple (T.systemWith req) (TurnKept J V)
      (TaskContext.terminalTransition k taskId contextId state message [] {} [])
      (fun _ => TurnKept J V) fun _ => TurnKept J V :=
  hd.terminalTransition hs hstate message [] {} fun e he => absurd he List.not_mem_nil

theorem endWithMessage {state : TaskState} (hstate : endsStream state = true) (parts : List Part) :
    Triple (T.systemWith req) (TurnKept J V)
      (TaskContext.endWithMessage k taskId contextId state parts) (fun _ => TurnKept J V)
      fun _ => TurnKept J V :=
  Triple.bind (Frames.lift (fun hI => hI.makeAgentMessage hd.req_quiet taskId contextId parts)
    hd.quiet_turnKept) fun message => hd.transition_plain hs hstate (some message)

theorem completeWith (artifact : Artifact) :
    Triple (T.systemWith req) (TurnKept J V) (TaskContext.completeWith k taskId contextId artifact)
      (fun _ => TurnKept J V) fun _ => TurnKept J V := by
  refine Triple.bind (Frames.lift (fun hI F => hI.perform hd.req_quiet rfl F) hd.quiet_turnKept)
    fun r => ?_
  refine hd.terminalTransition hs rfl none _ {} fun e he => ?_
  obtain rfl := List.mem_singleton.mp he
  rfl

theorem runLifecycle (l : Lifecycle) :
    Triple (T.systemWith req) (TurnKept J V) (TaskContext.runLifecycle k taskId contextId l)
      (fun _ => TurnKept J V) fun _ => TurnKept J V := by
  cases l with
  | complete text artifactId =>
    cases text with
    | none => exact hd.transition_plain hs rfl none
    | some text => exact hd.completeWith hs _
  | completeJson data artifactId => exact hd.completeWith hs _
  | fail reason => exact hd.endWithMessage hs rfl _
  | reject reason => exact hd.endWithMessage hs rfl _
  | requestInput question => exact hd.endWithMessage hs rfl _
  | requestAuth details authData => exact hd.endWithMessage hs rfl _
  | respond text => exact hd.endWithMessage hs rfl _
  | replyDirectly text =>
    refine Triple.bind (Frames.lift
      (fun hI => hI.makeAgentMessage hd.req_quiet taskId contextId _) hd.quiet_turnKept)
      fun message => ?_
    refine hd.terminalTransition hs rfl _ [] _ fun e he => ?_
    obtain rfl := List.mem_singleton.mp he
    rfl

theorem runCall (c : HandlerCall) :
    Triple (T.systemWith req) (TurnKept J V) (TaskContext.runCall k taskId contextId c)
      (fun _ => TurnKept J V) fun _ => TurnKept J V := by
  cases c with
  | emitArtifact a => exact hd.emitArtifact hs a
  | sendStatus message => exact hd.sendStatus hs message
  | lifecycle l => exact hd.runLifecycle hs l
  | wait => exact Frames.lift (fun hI => hI.wait hd.req_quiet .plain) hd.quiet_turnKept

/-- Every handler, whatever it makes of the exceptions it sees. -/
theorem run (h : Handler) :
    Triple (T.systemWith req) (TurnKept J V) (TaskContext.run k taskId contextId h)
      (fun _ => TurnKept J V) fun _ => TurnKept J V := by
  have hstable : ∀ s, T.Stable (TurnKept J V s) := fun s => (hd.quiet_turnKept s).stable
  induction h with
  | done r =>
    cases r with
    | ok u => exact Triple.pure hstable fun _ _ hw => hw
    | error x => exact Triple.throw hstable fun _ _ hw => hw
  | call c next ih =>
    refine Triple.bind (Q := fun _ => TurnKept J V) (Triple.tryCatch
      (Triple.bind (hd.runCall hs c) fun _ => Triple.pure hstable fun _ _ hw => hw) fun x => ?_) ih
    exact Triple.pure hstable fun _ _ hw => hw

/-- What runs inside the task group. -/
theorem handle (h : Handler) :
    Triple (T.systemWith req) (TurnKept J V)
      (WorkerAdapter.handle k taskId contextId (TaskContext.run k taskId contextId h))
      (fun _ => TurnKept J V) fun _ => TurnKept J V := by
  have hstable : ∀ s, T.Stable (TurnKept J V s) := fun s => (hd.quiet_turnKept s).stable
  refine Triple.bind (hd.run hs h) fun _ => ?_
  refine Triple.get_bind hstable fun ctx => ?_
  refine Triple.pre (P := TurnKept J V) ?_ fun _ _ hw => hw.2
  split
  · exact Triple.pure hstable fun _ _ hw => hw
  refine Triple.bind (Frames.lift (fun hI F => hI.perform hd.req_quiet rfl F) hd.quiet_turnKept)
    fun cancelled => ?_
  split
  · exact Triple.pure hstable fun _ _ hw => hw
  · exact hd.runLifecycle hs _

end Turn

/-! ### The whole turn -/

section Adapter

variable {T : Setting} {req : {β : Type} → Op β → World → Prop} {k : StorageKind}
  {J : World → Prop} {V : Option Nat → World → Prop} {S : Nat → World → Prop}
  {O : TaskState → World → Prop} {taskId : TaskId} {contextId : Option ContextId}

variable (hd : Discipline T req k (fun _ => True) J V S O) (hblind : ∀ w, J w → V none w)

section

include hd

theorem keeps_pure {σ α : Type} (a : α) : Keeps T req J (pure a : TaskM σ α) :=
  Frames.keeps (Frames.pure hd.quiet.stable a)

theorem keeps_throw {σ α : Type} (x : Exc) : Keeps T req J (throw x : TaskM σ α) :=
  Frames.keeps (Frames.throw hd.quiet.stable x)

theorem keeps_perform {σ α : Type} {e : Op α} (he : e.quiet = true) :
    Keeps T req J (Act.perform e : TaskM σ α) :=
  Frames.keeps fun F => hd.quiet.perform hd.req_quiet he F

theorem keeps_takePending : Keeps T req J TaskContext.takePending := by
  refine Triple.get_bind (fun _ => hd.quiet.stable) fun ctx => ?_
  refine Triple.bind (Q := fun _ _ => J) ?_ fun _ => hd.keeps_pure _
  exact Triple.modify (fun _ => hd.quiet.stable.framed _) fun _ _ hw => hw.2

theorem keeps_cleanup : Keeps T req J (WorkerAdapter.cleanup k) := by
  refine Triple.bind (Triple.tryCatch
    (Frames.keeps (hd.quiet.loadTask hd.req_quiet k .other)) fun x => ?_) fun current => ?_
  · split
    · exact hd.keeps_pure _
    · exact hd.keeps_throw x
  refine Triple.bind (Q := fun _ _ => J) ?_ fun _ => hd.keeps_perform rfl
  rw [WorkerAdapter.releaseBus]
  split
  · exact hd.keeps_perform rfl
  · exact hd.keeps_pure ()

end

section

include hd hblind

theorem keeps_cancelPending : Keeps T req J (WorkerAdapter.cancelPending k taskId contextId) :=
  Triple.bind hd.keeps_takePending fun pending =>
    Frames.keeps (hd.cancelTaskInStorage hblind taskId contextId WorkerAdapter.cancelReason pending)

theorem keeps_failPending (x : Exc) :
    Keeps T req J (WorkerAdapter.failPending k taskId contextId x) := by
  refine Triple.get_bind (fun _ => hd.quiet.stable) fun ctx => ?_
  refine Triple.pre (P := fun _ => J) ?_ fun _ _ hw => hw.2
  split
  · exact hd.keeps_pure ()
  · exact Triple.bind hd.keeps_takePending fun pending =>
      Frames.keeps (hd.markFailed hblind taskId contextId x.text pending)

theorem keeps_recover (x : Exc) : Keeps T req J (WorkerAdapter.recover k taskId contextId x) := by
  rw [WorkerAdapter.recover.eq_def]
  split
  · refine Triple.bind (hd.keeps_perform rfl) fun cancelled => ?_
    split
    · exact hd.keeps_cancelPending hblind
    · exact hd.keeps_throw _
  · exact Triple.bind hd.keeps_takePending fun pending =>
      Frames.keeps (hd.artifactFallback hblind pending)
  · exact hd.keeps_failPending hblind x

theorem keeps_cancelEarly : Keeps T req J (WorkerAdapter.cancelEarly k taskId contextId) := by
  have hcancel : Keeps T req J
      (A2AKit.cancelTaskInStorage k taskId contextId WorkerAdapter.cancelReason [] : TurnM Unit) :=
    Frames.keeps (hd.cancelTaskInStorage hblind taskId contextId _ [])
  refine Triple.bind (Frames.keeps (hd.quiet.loadTask hd.req_quiet k .other)) fun task => ?_
  rcases task with _ | task
  · exact hcancel
  dsimp only
  split
  · exact hd.keeps_pure ()
  · exact hcancel

/-- The transition to working. -/
theorem startWorking : Triple (T.systemWith req) (fun (_ : TaskContext) => J)
    (WorkerAdapter.startWorking k) (fun v _ w => J w ∧ (v.isSome = true → V v w))
    fun _ _ => J := by
  refine Triple.tryCatch (X := fun _ _ => J) (Triple.bind
    (Q := fun v _ w => J w ∧ V (some v) w) ?_ fun v => ?_) fun x => ?_
  · refine (hd.update .other trivial { state := some .working } none fun _ => True).conseq
      (fun _ w hw => ⟨trivial, hw, hblind w hw, hblind w hw⟩) (fun _ _ _ hw => hw.2.1)
      fun _ _ _ hw => hw.2.1
  · exact Triple.pure (fun _ => hd.quiet.stable.and (hd.known _).stable)
      fun _ _ hw => ⟨hw.1, fun _ => hw.2⟩
  · have hnone : Triple (T.systemWith req) (fun (_ : TaskContext) => J)
        (pure none : TurnM (Option Nat)) (fun v _ w => J w ∧ (v.isSome = true → V v w))
        fun _ _ => J :=
      Triple.pure (fun _ => hd.quiet.stable) fun _ _ hw => ⟨hw, fun h => nomatch h⟩
    split
    · exact hnone
    · exact hnone
    · exact Triple.throw (fun _ => hd.quiet.stable) fun _ _ hw => hw

variable (hreq : ∀ inScope w, req (.setInScope inScope) w)
  (hscope : ∀ inScope w, (J w → J { w with inScope }) ∧ ∀ v, V v w → V v { w with inScope })
include hreq hscope

omit hd hblind hscope in
/-- Entering or leaving the scope. -/
theorem setInScope (inScope : Bool) {P : TaskContext → World → Prop}
    (hP : ∀ s, T.Stable (P s)) (h : ∀ s w, P s w → P s { w with inScope })
    {X : Exc → TaskContext → World → Prop} :
    Triple (T.systemWith req) P (Act.perform (.setInScope inScope)) (fun _ => P) X := by
  refine Triple.perform hP (fun _ => hP) fun s w hw _ => ⟨hreq inScope w, ?_⟩
  intro w' _ hperf
  rw [← (Prod.mk.inj (Option.some_inj.mp hperf)).1]
  exact h s w hw

theorem keeps_runGroup (h : Handler) : Triple (T.systemWith req) (TurnKept J V)
    (WorkerAdapter.runGroup k taskId contextId (TaskContext.run k taskId contextId h))
    (fun _ _ => J) fun _ _ => J := by
  have hkept : ∀ inScope s w, TurnKept J V s w → TurnKept J V s { w with inScope } :=
    fun inScope s w hw => ⟨(hscope inScope w).1 hw.1, fun h => (hscope inScope w).2 _ (hw.2 h)⟩
  have hout : ∀ {X : Exc → TaskContext → World → Prop}, Triple (T.systemWith req) (fun _ => J)
      (Act.perform (.setInScope false) : TurnM Unit) (fun _ _ => J) X :=
    setInScope hreq false (fun _ => hd.quiet.stable) fun _ w hw => (hscope false w).1 hw
  refine Triple.bind (Q := fun _ _ => J) (Triple.bind (setInScope hreq true
    (fun s => (hd.quiet_turnKept s).stable) (hkept true)) fun _ => ?_) fun _ => ?_
  · refine Triple.bind (Q := fun _ _ => J) (Triple.tryCatch ((hd.handle (fun _ _ => trivial) h).conseq
      (fun _ _ hw => hw) (fun _ _ _ hw => hw.1) fun _ _ _ hw => hw.1) fun x => ?_) fun _ => hout
    split
    · exact hd.keeps_pure ()
    · exact Triple.bind hout fun _ => hd.keeps_throw _
  · refine Triple.bind (hd.keeps_perform rfl) fun cancelled => ?_
    split
    · refine Triple.get_bind (fun _ => hd.quiet.stable) fun ctx => ?_
      refine Triple.pre (P := fun _ => J) ?_ fun _ _ hw => hw.2
      split
      · exact hd.keeps_pure ()
      · exact hd.keeps_cancelPending hblind
    · exact hd.keeps_pure ()

theorem keeps_runTurn (h : Handler) : Keeps T req J
    (WorkerAdapter.runTurn k taskId contextId (TaskContext.run k taskId contextId h)) := by
  refine Triple.bind (hd.keeps_perform rfl) fun cancelled => ?_
  split
  · exact hd.keeps_cancelEarly hblind
  refine Triple.bind (hd.startWorking hblind) fun version => ?_
  rcases version with _ | v
  · exact (hd.keeps_pure ()).pre fun _ _ hw => hw.1
  refine Triple.bind (Q := fun _ => TurnKept J V) (Triple.modify (fun _ => ?_) fun s w hw =>
    ⟨hw.1, fun _ => hw.2 rfl⟩) fun _ => ?_
  · exact hd.quiet.stable.and (Setting.Stable.imp fun _ => (hd.known _).stable)
  refine Triple.bind ((hd.sendStatus (fun _ _ => trivial) none).conseq (fun _ _ hw => hw)
    (fun _ _ _ hw => hw) fun _ _ _ hw => hw.1) fun _ => ?_
  exact Triple.tryCatch (hd.keeps_runGroup hblind hreq hscope h) fun x => hd.keeps_recover hblind x

/-- `_run_task_inner` -/
theorem runTaskInner (h : Handler) : Keeps T req J
    (WorkerAdapter.runTaskInner k taskId contextId (TaskContext.run k taskId contextId h)) := by
  refine Triple.bind (Q := fun _ _ => J) (Triple.tryCatch (hd.keeps_runTurn hblind hreq hscope h)
    fun x => ?_) fun _ => hd.keeps_cleanup
  exact Triple.bind hd.keeps_cleanup fun _ => hd.keeps_throw x

end

end Adapter

end Discipline

end A2AKit
