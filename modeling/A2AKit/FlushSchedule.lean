/-
Any flush schedule stores the same artifacts.

When `emit_artifact` flushes is decided by the clock and the length of the buffer, and
other writers that bump the version make flushes, status writes and transitions lose
their race.  On `InMemoryStorage` none of this shows in the stored artifacts once a
lifecycle call has succeeded: `handler_artifacts_stored`.
-/
import A2AKit.Schedule
import A2AKit.TurnArtifacts

namespace A2AKit

/-- No cancellation is delivered. -/
def Uncancelled {β : Type} (e : Op β) (w : World) : Prop :=
  match e with
  | .await _ => w.interrupted = false
  | _ => True

/-- Other writers bump the version and leave the artifacts alone. -/
def versionBumps (cfg : BusConfig) (taskId : TaskId) : Setting where
  cfg := cfg
  taskId := taskId
  writes := fun args => args.artifacts = []
  bus := fun _ _ => True
  ok := Uncancelled

section

variable {cfg : BusConfig} {taskId : TaskId}

theorem turnSetting_versionBumps : TurnSetting (versionBumps cfg taskId) .memory where
  writes := fun _ h => h
  lost := fun _ _ _ _ _ _ h => nomatch h
  committed := by
    intro ws second args w hok hi
    have hok' : w.interrupted = false := hok
    simp [hi] at hok'

theorem emittedBy_concat {calls : List HandlerCall} (hcalls : ∀ c ∈ calls, c.isLifecycle = false)
    (l : Lifecycle) :
    emittedBy (calls ++ [.lifecycle l]) = calls.flatMap HandlerCall.writes ∧
      ownArtifacts (calls ++ [.lifecycle l]) = l.ownWrites := by
  induction calls with
  | nil => exact ⟨rfl, rfl⟩
  | cons c cs ih =>
    obtain ⟨hemitted, hown⟩ := ih fun c' hc' => hcalls c' (List.mem_cons_of_mem _ hc')
    have hc : c.isLifecycle = false := hcalls c List.mem_cons_self
    refine ⟨by simp [emittedBy, hc, hemitted], ?_⟩
    cases c with
    | lifecycle l' => cases hc
    | emitArtifact a => exact hown
    | sendStatus message => exact hown
    | wait => exact hown

/-- **Artifacts are stored exactly once.**  Whatever makes the turn flush, and however
often other writers bump the version, a lifecycle call that succeeds leaves the initial
artifacts with all emitted writes in order and the artifact of the call. -/
theorem handler_artifacts_stored (contextId : Option ContextId) (calls : List HandlerCall)
    (hcalls : ∀ c ∈ calls, c.isLifecycle = false) (l : Lifecycle) (ctx ctx' : TaskContext)
    (w w' : World) (row : Row) (hrow : w.row = some row) (hpublished : w.published = [])
    (hctx : ctx.turnEnded = false ∧ ctx.pending = [] ∧ ctx.emitted = [])
    (hversion : ∀ v, ctx.version = some v → v ≤ row.version)
    (hrun : (versionBumps cfg taskId).system.Reaches
      (TaskContext.runHandler .memory taskId contextId (calls ++ [.lifecycle l]) ctx, w)
      (.ret (.ok (), ctx'), w')) :
    ∃ row', w'.row = some row' ∧
      row'.task.artifacts =
        applyWrites row.task.artifacts (calls.flatMap HandlerCall.writes ++ l.ownWrites) ∧
      ((artifactIds row.task.artifacts).Nodup → (artifactIds row'.task.artifacts).Nodup) := by
  obtain ⟨hrunning, hpending, hemitted⟩ := hctx
  have hbumped : ¬ (versionBumps cfg taskId).Alone := fun h => h.writes {} rfl
  have hopen : TurnOpen (versionBumps cfg taskId) row.task.artifacts ctx w.data := by
    refine ⟨⟨hrunning, ?_, ?_, fun h => absurd h hbumped, ?_⟩, ?_, ?_, fun h => absurd h hbumped⟩
    · simp [hpending, refs]
    · simp [hpending, refs]
    · intro row₀ hrow₀
      obtain rfl := Option.some_inj.mp (hrow.symm.trans hrow₀)
      simp [hpending, hemitted]
    · rw [hemitted]
      show announced w.published = []
      rw [hpublished]
      rfl
    · intro v hv row₀ hrow₀
      obtain rfl := Option.some_inj.mp (hrow.symm.trans hrow₀)
      exact hversion v hv
  obtain ⟨row', hrow'⟩ := Option.isSome_iff_exists.mp
    ((versionBumps cfg taskId).isSome_row not_false hrun (by simp [hrow]))
  obtain ⟨hemittedBy, hown⟩ := emittedBy_concat hcalls l
  obtain ⟨hemitted', hends⟩ := Prog.wp_sound (wp_runHandler turnSetting_versionBumps _ hopen) hrun
  -- the last call has ended the turn
  have hdone : TurnDone row.task.artifacts l.ownWrites ctx' w'.data := by
    rcases hends with ⟨hany, -⟩ | hdone
    · simp [HandlerCall.isLifecycle] at hany
    · rwa [hown] at hdone
  have hart := hdone.stored row' hrow'
  rw [hemitted', hemitted, List.nil_append, hemittedBy] at hart
  refine ⟨row', hrow', hart, fun hnd => ?_⟩
  rw [hart]
  exact nodup_artifactIds_applyWrites _ hnd

end

/-- The chunk `x` of the artifact `a`. -/
def chunk (append : Bool) : EmitArgs :=
  { artifactId := "a", content := { text := some "x" }, append }

/-- The decidable form of `Uncancelled`. -/
def uncancelled {β : Type} (e : Op β) (w : World) : Bool :=
  match e with
  | .await _ => !w.interrupted
  | _ => true

theorem uncancelled_sound (β : Type) (e : Op β) (w : World) (h : uncancelled e w = true) :
    Uncancelled e w := by
  cases e with
  | await pt => simpa [uncancelled, Uncancelled] using h
  | _ => trivial

/-- The handler emits a chunk whose flush loses a race, and completes with a text. -/
def racedFlush : List Move :=
  -- the chunk is published
  List.replicate 3 Move.step ++ [Move.bus .grant, .step] ++
  -- the buffer is old, and its flush is overtaken once
  [Move.ambient ⟨"", 500, "", false, false⟩, .step, .bump] ++ List.replicate 4 Move.step ++
  -- the transition, what the emitter awaits, and two events
  List.replicate 8 Move.step ++ [Move.bus .grant] ++ List.replicate 3 Move.step ++
  [Move.bus .grant, .step]

/-- Both artifacts are stored once. -/
theorem flush_conflict_stored :
    ∃ ctx' w', (versionBumps ⟨1, 1, 60⟩ "t").system.Reaches
      (TaskContext.runHandler .memory "t" (some "c")
        ([.emitArtifact (chunk true)] ++ [.lifecycle (.complete (some "y") "b")])
        { version := some 1 }, World.holding workingTask 1) (.ret (.ok (), ctx'), w') ∧
      ∃ row', w'.row = some row' ∧
        row'.task.artifacts = applyWrites [] ([HandlerCall.emitArtifact (chunk true)].flatMap
          HandlerCall.writes ++ (Lifecycle.complete (some "y") "b").ownWrites) ∧
        ((artifactIds []).Nodup → (artifactIds row'.task.artifacts).Nodup) := by
  have hmoves : ∀ m ∈ racedFlush, (versionBumps ⟨1, 1, 60⟩ "t").Allows m := by
    simp [racedFlush, allows_step, allows_ambient, allows_bump, allows_bus, versionBumps]
  obtain ⟨ctx', w', hrun, -⟩ := reaches_of_execute uncancelled uncancelled_sound hmoves
    (p := TaskContext.runHandler .memory "t" (some "c")
      ([.emitArtifact (chunk true)] ++ [.lifecycle (.complete (some "y") "b")])
      { version := some 1 }) (w := World.holding workingTask 1) (fun _ _ => true)
    (by decide +kernel)
  refine ⟨ctx', w', hrun, ?_⟩
  exact handler_artifacts_stored (some "c") [.emitArtifact (chunk true)]
    (by simp [HandlerCall.isLifecycle]) (.complete (some "y") "b") { version := some 1 } ctx'
    (World.holding workingTask 1) w' _ rfl rfl ⟨rfl, rfl, rfl⟩
    (fun v hv => Nat.le_of_eq (Option.some_inj.mp hv).symm) hrun

end A2AKit
