/-
The ladders write the artifacts they were given.

The worker hands its buffered artifact writes to the ladder that ends the task and
forgets them, so every exit of the ladder has to write them.  One does not:
`cancel_task_in_storage` returns at once when its first load finds the task terminal
(`lost_to_another_canceller`).  Apart from that, and from merges on SQL and Redis that
are lost and not safe to repeat, `ladder_artifacts_applied` shows that the batch is
applied exactly once, at one point between the writes of the others.
-/
import A2AKit.LadderTermination

namespace A2AKit

/-- A guarded write that does not commit leaves a batch that is safe to merge again. -/
def SafeIfLost (taskId : TaskId) (b : SplitStorage) (args : UpdateArgs Ref) (attempt : Nat)
    (row : Row) (values : Values) (w : World) : Prop :=
  (∀ row', b.backend.updateWrite taskId w.row args attempt row values ≠ .committed row') →
    retrySafe (artifactIds row.task.artifacts) (resolve w.heap args.artifacts) = true

/-- The conditions on a run of a ladder with the artifacts `ws`: the task is not terminal
yet at the first load of `cancel_task_in_storage`, unless there is nothing to write,
lost merges are safe to repeat, and the artifact-only write does not raise while the task
exists. -/
def LadderOk (taskId : TaskId) (ws : List (ArtifactWrite Ref)) {β : Type} (e : Op β)
    (w : World) : Prop :=
  match e with
  | .loadTask .guarded =>
    ws ≠ [] → ∀ row, w.row = some row → row.task.status.state.isTerminal = false
  | .updateWrite b .fallback args attempt row values =>
    SafeIfLost taskId b args attempt row values w ∧
      (w.row.isSome → ∀ e, b.backend.updateWrite taskId w.row args attempt row values ≠ .raised e)
  | .updateWrite b _ args attempt row values => SafeIfLost taskId b args attempt row values w
  | _ => True

/-- Nothing of the batch is written yet: the artifacts are the initial ones with the
writes of others, and the batch still means what it did when it was built. -/
structure Unwritten (init : List Artifact) (others₀ : List (ArtifactWrite Artifact))
    (built : List (ArtifactWrite Artifact)) (ws : List (ArtifactWrite Ref)) (d : TaskData) :
    Prop where
  outside : d.inScope = false
  batch : ∀ l, applyWrites l (resolve d.heap ws) = applyWrites l built
  stored : ∀ row, d.row = some row → ∃ pre, d.others = others₀ ++ pre ∧
    row.task.artifacts = applyWrites init pre

/-- The batch is written once, among the writes of others. -/
structure Written (init : List Artifact) (others₀ built : List (ArtifactWrite Artifact))
    (d : TaskData) : Prop where
  outside : d.inScope = false
  stored : ∀ row, d.row = some row → ∃ pre post, d.others = others₀ ++ (pre ++ post) ∧
    row.task.artifacts = applyWrites init (pre ++ built ++ post)

section

variable {cfg : BusConfig} {taskId : TaskId} {k : StorageKind} {ws : List (ArtifactWrite Ref)}
  {init : List Artifact} {others₀ built : List (ArtifactWrite Artifact)}
  {ok : {β : Type} → Op β → World → Prop}

theorem kept_unwritten : Kept (amongWriters cfg taskId ok) (Unwritten init others₀ built ws) := by
  intro d d' hstep hd
  cases hstep with
  | @write row h args now _ hrow _ =>
    refine ⟨hd.outside, hd.batch, fun row' hrow' => ?_⟩
    obtain ⟨pre, hothers, hart⟩ := hd.stored row hrow
    obtain rfl := Option.some_inj.mp hrow'
    refine ⟨pre ++ resolve h args.artifacts, ?_, ?_⟩
    · show d.others ++ _ = _
      rw [hothers, List.append_assoc]
    · show (InMemoryStorage.updatedTask h row.task args now).artifacts = _
      rw [InMemoryStorage.updatedTask_artifacts, hart, applyWrites_append]
  | delete _ => exact ⟨hd.outside, hd.batch, fun row hrow => nomatch hrow⟩
  | cancel _ => exact ⟨hd.outside, hd.batch, hd.stored⟩

theorem kept_written : Kept (amongWriters cfg taskId ok) (Written init others₀ built) := by
  intro d d' hstep hd
  cases hstep with
  | @write row h args now _ hrow _ =>
    refine ⟨hd.outside, fun row' hrow' => ?_⟩
    obtain ⟨pre, post, hothers, hart⟩ := hd.stored row hrow
    obtain rfl := Option.some_inj.mp hrow'
    refine ⟨pre, post ++ resolve h args.artifacts, ?_, ?_⟩
    · show d.others ++ _ = _
      rw [hothers]
      simp only [List.append_assoc]
    · show (InMemoryStorage.updatedTask h row.task args now).artifacts = _
      rw [InMemoryStorage.updatedTask_artifacts, hart]
      simp only [applyWrites_append]
  | delete _ => exact ⟨hd.outside, fun row hrow => nomatch hrow⟩
  | cancel _ => exact ⟨hd.outside, hd.stored⟩

/-- A lost merge that is safe to repeat does not change what the batch means. -/
theorem applyWrites_merge {h : Heap} {row : Row} (hnd : (refs ws).Nodup)
    (hsafe : retrySafe (artifactIds row.task.artifacts)
      (resolve (mergeInPlace h row.task.artifacts ws).1 ws) = true) (l : List Artifact) :
    applyWrites l (resolve (mergeInPlace h row.task.artifacts ws).1 ws) =
      applyWrites l (resolve h ws) := by
  rw [resolve_mergeInPlace row.task.artifacts hnd] at hsafe ⊢
  rw [retrySafe_inflate] at hsafe
  exact (applyWrites_inflateAll_iff [artifactIds row.task.artifacts] (resolve h ws) l).mpr
    (by simpa using hsafe)

theorem Unwritten.merge {d : TaskData} {args : UpdateArgs Ref} {row : Row} {w : World}
    (hd : Unwritten init others₀ built ws d) (hnd : (refs ws).Nodup) (hargs : args.artifacts = ws)
    (hdata : w.data = d.merge row args)
    (hsafe : retrySafe (artifactIds row.task.artifacts) (resolve w.heap args.artifacts) = true) :
    Unwritten init others₀ built ws (d.merge row args) := by
  subst hargs
  refine ⟨hd.outside, fun l => ?_, hd.stored⟩
  have hheap : w.heap = (mergeInPlace d.heap row.task.artifacts args.artifacts).1 :=
    congrArg TaskData.heap hdata
  rw [hheap] at hsafe
  exact (applyWrites_merge hnd hsafe l).trans (hd.batch l)

theorem Unwritten.commit {d : TaskData} {args : UpdateArgs Ref} {row : Row} {now : Timestamp}
    (hd : Unwritten init others₀ built ws d) (hargs : args.artifacts = ws)
    (hrow : d.row = some row) : Written init others₀ built (d.commit k row args now) := by
  refine ⟨hd.outside, fun row' hrow' => ?_⟩
  obtain ⟨pre, hothers, hart⟩ := hd.stored row hrow
  obtain rfl := Option.some_inj.mp hrow'
  refine ⟨pre, [], ?_, ?_⟩
  · rw [List.append_nil]
    exact hothers
  · show (InMemoryStorage.updatedTask d.heap row.task args now).artifacts = _
    rw [InMemoryStorage.updatedTask_artifacts, hargs, hd.batch, hart, List.append_nil,
      applyWrites_append]

theorem Unwritten.skip {d : TaskData} (hd : Unwritten init others₀ built ws d) (hws : ws = []) :
    Written init others₀ built d := by
  subst hws
  refine ⟨hd.outside, fun row hrow => ?_⟩
  obtain ⟨pre, hothers, hart⟩ := hd.stored row hrow
  refine ⟨pre, [], by rw [List.append_nil, hothers], ?_⟩
  rw [List.append_nil, applyWrites_append, ← hd.batch, hart]
  rfl

theorem safe_of_ok {b : SplitStorage} {site : Site} {args : UpdateArgs Ref} {attempt : Nat}
    {row : Row} {values : Values} {w : World}
    (h : LadderOk taskId ws (.updateWrite b site args attempt row values) w) :
    SafeIfLost taskId b args attempt row values w := by
  cases site with
  | fallback => exact h.1
  | _ => exact h

theorem safe_of_lostMerge {b : SplitStorage} {site : Site} {args : UpdateArgs Ref} {row : Row}
    {w : World} (hw : w.inScope = false)
    (h : LostMerge (amongWriters cfg taskId (LadderOk taskId ws)) b site args row w) :
    retrySafe (artifactIds row.task.artifacts) (resolve w.heap args.artifacts) = true := by
  cases h with
  | write _ hok hlost => exact safe_of_ok hok hlost
  | cancelled _ hi =>
    have hscope : w.inScope = true := (World.interruptible hi).2
    simp [hw] at hscope

/-- The artifact-only write fails only if the task is gone. -/
theorem gone_of_fallback_fails {w : World} {e : StorageError}
    (h : Fails (amongWriters cfg taskId (LadderOk taskId ws)) k .fallback { artifacts := ws } w
      (.storage e)) : w.row = none := by
  rcases hrow : w.row with _ | row
  · rfl
  cases h with
  | update _ hperf =>
    simp [World.perform, hrow, InMemoryStorage.updateTask, terminalGuard] at hperf
  | @read b _ _ _ _ herr =>
    rw [hrow] at herr
    cases b with
    | sql =>
      simp [SplitStorage.backend, SQLStorageBase.backend, SQLStorageBase.updateRead,
        terminalGuard] at herr
    | redis =>
      simp [SplitStorage.backend, RedisStorage.backend, RedisStorage.updateRead] at herr
  | write _ _ hok herr => exact absurd herr (hok.2 (by simp [hrow]) e)

theorem ladderRule_written (hnd : (refs ws).Nodup) :
    LadderRule (amongWriters cfg taskId (LadderOk taskId ws)) k ws
      (Unwritten init others₀ built ws) (Unwritten init others₀ built ws)
      (Written init others₀ built) where
  kept_before := kept_unwritten
  kept_fallback := kept_unwritten
  kept_done := kept_written
  unscoped := by
    rintro d (hd | hd | hd)
    · exact hd.outside
    · exact hd.outside
    · exact hd.outside
  nodup := hnd
  lost := by
    intro b row d w site args _ hargs hd _ hdata hlost
    have hw : w.inScope = false := (congrArg TaskData.inScope hdata).trans hd.outside
    exact hd.merge hnd hargs hdata (safe_of_lostMerge hw hlost)
  lost_fallback := by
    intro b row d w _ hd hdata hlost
    have hw : w.inScope = false := (congrArg TaskData.inScope hdata).trans hd.outside
    exact hd.merge hnd rfl hdata (safe_of_lostMerge hw hlost)
  commit := fun _ _ _ _ _ _ _ _ hd hrow => hd.commit rfl hrow
  commit_fallback := fun _ _ _ hd hrow => hd.commit rfl hrow
  ended := fun _ hd _ => hd
  conflict := fun _ _ _ hd _ _ => hd
  fails_fallback := by
    intro x w hw h
    -- outside the scope nothing is cancelled, so the last rung fails only when the task is gone
    cases x with
    | cancelled =>
      cases h with
      | cancelled hi =>
        have hscope := hi.2
        simp [hw.outside] at hscope
    | runtime m => cases h
    | group x => cases h
    | storage e =>
      refine ⟨hw.outside, fun row hrow => ?_⟩
      exact absurd ((gone_of_fallback_fails h).symm.trans hrow) (by simp)
  skip := fun _ hws hd => hd.skip hws
  gone := fun d hd hnone => ⟨hd.outside, fun row hrow => absurd (hnone.symm.trans hrow) (by simp)⟩
  publish := fun _ _ hd => ⟨hd.outside, hd.stored⟩

/-- **Buffered artifacts are written once.**  In every run that meets the conditions, a
ladder that returns with the task still there has applied its whole batch at one point
between the writes of others. -/
theorem ladder_artifacts_applied {σ : Type} (k : StorageKind) (cfg : BusConfig) (taskId : TaskId)
    (contextId : Option ContextId) (reason : String) (ws : List (ArtifactWrite Ref))
    (hnd : (refs ws).Nodup) (s s' : σ) (w w' : World) (row row' : Row) (hrow : w.row = some row)
    (hw : w.inScope = false)
    (hrun : let S := (amongWriters cfg taskId (LadderOk taskId ws)).system
      S.Reaches (cancelTaskInStorage k taskId contextId reason ws s, w) (.ret (.ok (), s'), w') ∨
        S.Reaches (markFailed k taskId contextId reason ws s, w) (.ret (.ok (), s'), w'))
    (hrow' : w'.row = some row') :
    ∃ pre post, w'.others = w.others ++ (pre ++ post) ∧
      row'.task.artifacts =
        applyWrites row.task.artifacts (pre ++ resolve w.heap ws ++ post) := by
  have hrule : LadderRule (amongWriters cfg taskId (LadderOk taskId ws)) k ws
      (Unwritten row.task.artifacts w.others (resolve w.heap ws) ws) _
      (Written row.task.artifacts w.others (resolve w.heap ws)) := ladderRule_written hnd
  have hstart : Unwritten row.task.artifacts w.others (resolve w.heap ws) ws w.data := by
    refine ⟨hw, fun _ => rfl, fun r hr => ⟨[], ?_, ?_⟩⟩
    · exact (List.append_nil _).symm
    · obtain rfl := Option.some_inj.mp (hrow.symm.trans hr)
      rfl
  rcases hrun with hrun | hrun
  · have hwp := hrule.wp_cancel (s := s) taskId contextId reason ?_ hstart
    · exact (Prog.wp_sound hwp hrun).2.stored row' hrow'
    · -- at the first load the task is not terminal, unless there is nothing to write
      intro d w₀ task hd _ hok htask hterm
      refine hd.skip (Classical.byContradiction fun hne => ?_)
      obtain ⟨row₀, hrow₀, rfl⟩ := Option.map_eq_some_iff.mp htask
      have := hok hne row₀ hrow₀
      simp [this] at hterm
  · have hwp := hrule.wp_markFailed (s := s) taskId contextId reason hstart
    exact (Prog.wp_sound hwp hrun).2.stored row' hrow'

end

/-! ### Another canceller -/

/-- A working task, and a buffered write of a new artifact. -/
def bufferedChunk : World :=
  { World.holding workingTask 1 with
    heap := fun _ => { artifactId := "a", parts := [{ text := some "x" }] }, next := 1 }

theorem env_cancel {cfg : BusConfig} {taskId : TaskId} {ok : {β : Type} → Op β → World → Prop}
    {w : World} {row : Row} (hrow : w.row = some row)
    (hstate : row.task.status.state.isTerminal = false) :
    (amongWriters cfg taskId ok).system.env w
      (w.otherWrite row w.heap { state := some .canceled } "") :=
  EnvStep.write trivial hrow (by simp [terminalGuard, hstate])

/-- The other canceller wins after the version was read: the fallback writes the chunk. -/
theorem fallback_writes_chunk :
    ∃ w' row', (amongWriters ⟨1, 1, 60⟩ "t" (LadderOk "t" [⟨0, false⟩])).system.Reaches
      (markFailed .memory "t" (some "c") "boom" [⟨0, false⟩] (), bufferedChunk)
      (.ret (.ok (), ()), w') ∧ w'.row = some row' ∧
      ∃ pre post, w'.others = [] ++ (pre ++ post) ∧ row'.task.artifacts =
        applyWrites [] (pre ++ resolve bufferedChunk.heap [⟨0, false⟩] ++ post) := by
  have hrun : ∃ w' row', (amongWriters ⟨1, 1, 60⟩ "t" (LadderOk "t" [⟨0, false⟩])).system.Reaches
      (markFailed .memory "t" (some "c") "boom" [⟨0, false⟩] (), bufferedChunk)
      (.ret (.ok (), ()), w') ∧ w'.row = some row' := by
    apply Exists.intro
    apply Exists.intro
    apply And.intro
    · refine .op trivial rfl (.op trivial rfl ?_)
      refine .env (env_cancel rfl rfl) (.op trivial rfl ?_)
      refine .op trivial rfl (.op trivial rfl (.op trivial rfl ?_))
      exact .refl
    · rfl
  obtain ⟨w', row', hrun, hrow'⟩ := hrun
  exact ⟨w', row', hrun, hrow', ladder_artifacts_applied .memory ⟨1, 1, 60⟩ "t" (some "c") "boom"
    [⟨0, false⟩] (by decide) () () bufferedChunk w' _ row' rfl rfl (Or.inr hrun) hrow'⟩

/-- The other canceller wins before the first load: `cancel_task_in_storage` returns
without writing the chunk. -/
theorem lost_to_another_canceller :
    ∃ w' row', (amongWriters ⟨1, 1, 60⟩ "t" fun _ _ => True).system.Reaches
      (cancelTaskInStorage .memory "t" (some "c") "Task was canceled." [⟨0, false⟩] (),
        bufferedChunk) (.ret (.ok (), ()), w') ∧ w'.row = some row' ∧
      ¬ ∃ pre post, w'.others = [] ++ (pre ++ post) ∧ row'.task.artifacts =
        applyWrites [] (pre ++ resolve bufferedChunk.heap [⟨0, false⟩] ++ post) := by
  apply Exists.intro
  apply Exists.intro
  apply And.intro
  · refine .op trivial rfl ?_
    refine .env (env_cancel rfl rfl) (.op trivial rfl ?_)
    exact .refl
  · refine ⟨rfl, ?_⟩
    rintro ⟨pre, post, hothers, hart⟩
    have hnil : pre ++ post = [] := hothers.symm
    obtain ⟨rfl, rfl⟩ := List.append_eq_nil_iff.mp hnil
    exact absurd hart (by decide)

end A2AKit
