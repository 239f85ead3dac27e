/-
Cancellation applies every artifact write once.

A cancellation can be delivered at every await of the handler.  Where it hits decides
whether the batch that is put back was stored: before the commit it was not, and
`cancel_task_in_storage` writes it; after a commit that has ended the task the ladder
returns at its first load.  After the commit of a flush, a status text or a pause,
including the hooks and the push delivery that the emitter awaits, the batch is stored
and in the buffer, and is written twice (`paused_chunk_doubled`).

* `cancelled_turn_artifacts` — what the turn stores in all other runs.
-/
import A2AKit.Adapter
import A2AKit.Schedule
import A2AKit.TurnArtifacts

namespace A2AKit

/-- A cancellation is delivered only where putting the batch back is right: after a commit
only if the task has ended or the batch would change nothing, and between merge and commit
only if the batch is safe to merge again. -/
def RebufferOk {β : Type} (e : Op β) (w : World) : Prop :=
  match e with
  | .await (.committed (.turn ws _) args) => w.interrupted = true →
    (∃ st, args.state = some st ∧ st.isTerminal = true) ∨
      ∀ row, w.row = some row →
        applyWrites row.task.artifacts (resolve w.heap ws) = row.task.artifacts
  | .await (.merged (.turn ws _) _ row) => w.interrupted = true →
    retrySafe (artifactIds row.task.artifacts) (resolve w.heap ws) = true
  | _ => True

/-- Nobody else writes the task; users cancel it, and subscribers use the bus. -/
def cancellable (cfg : BusConfig) (taskId : TaskId)
    (ok : {β : Type} → Op β → World → Prop) : Setting where
  cfg := cfg
  taskId := taskId
  cancels := True
  bus := fun _ _ => True
  ok := ok

/-- Without other writers a write is lost only by a cancellation. -/
theorem LostMerge.interrupted {T : Setting} {b : SplitStorage} {site : Site}
    {args : UpdateArgs Ref} {row : Row} {w : World} (hT : T.Alone)
    (hexact : w.data.Exact T args.expectedVersion) (hlive : w.data.Live T)
    (h : LostMerge T b site args row w) :
    T.ok (.await (.merged site args row)) w ∧ w.interrupted = true := by
  cases h with
  | cancelled hok hi => exact ⟨hok, hi⟩
  | @write attempt values hchecked _ hlost =>
    obtain ⟨cur, hcur, hstate⟩ := hlive hT
    have hguard : terminalGuard T.taskId cur.task.status.state args.state = none := by
      rcases args.state with _ | st <;> simp [terminalGuard, hstate]
    obtain ⟨row', hcommit⟩ := SplitStorage.commits attempt values hchecked (hexact hT cur hcur) hguard
    have hrow : w.row = some cur := hcur
    rw [hrow] at hlost
    exact absurd hcommit (hlost row')

section

variable {cfg : BusConfig} {taskId : TaskId} {ok : {β : Type} → Op β → World → Prop}
  {k : StorageKind}

theorem cancellable_alone : (cancellable cfg taskId ok).Alone := ⟨fun _ h => h, fun h => h⟩

theorem turnSetting_cancellable : TurnSetting (cancellable cfg taskId RebufferOk) k where
  writes := fun _ h => nomatch h
  lost := by
    intro b ws second args row w _ hlost hexact hlive
    obtain ⟨hok, hi⟩ := hlost.interrupted cancellable_alone hexact hlive
    exact hok hi
  committed := fun ws second args w hok hi => hok hi

end

/-! ### The ladders of the turn -/

/-- A completed task has been completed before. -/
def TaskData.Unfinished (p : Prop) (d : TaskData) : Prop :=
  ∀ row, d.row = some row → row.task.status.state = .completed → p

/-- The writes `es` are stored, and no lifecycle call has completed the task. -/
structure Drained (p : Prop) (init : List Artifact) (es : List (ArtifactWrite Artifact))
    (d : TaskData) : Prop where
  stored : d.Stored init es
  unfinished : d.Unfinished p
  outside : d.inScope = false

section

variable {T : Setting} {k : StorageKind} {p : Prop} {init : List Artifact}
  {es : List (ArtifactWrite Artifact)} {ws : List (ArtifactWrite Ref)} {d : TaskData}
  {σ : Type} {s : σ} {w : World}

theorem kept_unfinished (hT : T.Alone) : Kept T (TaskData.Unfinished p) := by
  intro d d' hstep hd row hrow
  rw [hstep.row_alone hT] at hrow
  exact hd row hrow

theorem kept_drained (hT : T.Alone) (hk : TurnSetting T k) : Kept T (Drained p init es) :=
  fun d d' hstep hd => ⟨kept_stored hk d d' hstep hd.stored, kept_unfinished hT d d' hstep
    hd.unfinished, kept_inScope false d d' hstep hd.outside⟩

theorem not_interruptible_of_outside (hd : d.inScope = false) : ¬ d.Interruptible := by
  rintro ⟨-, hscope⟩
  simp [hd] at hscope

/-- A commit that stores what is left and does not complete the task. -/
theorem drained_commit {args : UpdateArgs Ref} {row : Row} {now : Timestamp}
    (hrow : d.row = some row)
    (hart : applyWrites row.task.artifacts (resolve d.heap args.artifacts) = applyWrites init es)
    (hne : args.state ≠ some .completed) (hunf : args.state = none → d.Unfinished p)
    (hout : d.inScope = false) : Drained p init es (d.commit k row args now) := by
  refine ⟨fun row' hrow' => ?_, fun row' hrow' hcompleted => ?_, hout⟩
  · obtain rfl := Option.some_inj.mp hrow'
    show (InMemoryStorage.updatedTask d.heap row.task args now).artifacts = _
    rw [InMemoryStorage.updatedTask_artifacts]
    exact hart
  · obtain rfl := Option.some_inj.mp hrow'
    have hstate : (InMemoryStorage.updatedTask d.heap row.task args now).status.state =
      .completed := hcompleted
    rw [InMemoryStorage.updatedTask_state] at hstate
    rcases hargs : args.state with _ | st
    · rw [hargs] at hstate
      exact hunf hargs row hrow hstate
    · rw [hargs] at hstate
      have hst : st = .completed := hstate
      rw [hargs, hst] at hne
      exact absurd rfl hne

/-- A live task with a version that is exact takes the first write of a ladder. -/
theorem Buffered.not_refused (hT : T.Alone) (hd : Buffered T init es ws w.data)
    {args : UpdateArgs Ref} (hexact : w.data.Exact T args.expectedVersion) {e : StorageError} :
    ¬ Refused args w.row e := by
  obtain ⟨row, hrow, hlive⟩ := hd.live hT
  have hrow' : w.row = some row := hrow
  intro h
  cases h with
  | notFound hnone => simp [hrow'] at hnone
  | terminal hcur hterm =>
    obtain rfl := Option.some_inj.mp (hrow'.symm.trans hcur)
    simp [hlive] at hterm
  | conflict hne _ => exact hne row hrow' (hexact hT row hrow)

/-- The ladder of a turn that holds the batch `ws`: its first write commits. -/
theorem ladderRule_held (hT : T.Alone) (hk : TurnSetting T k) (hnd : (refs ws).Nodup) :
    LadderRule T k ws (fun d => Buffered T init es ws d ∧ d.inScope = false) (fun _ => False)
      (Drained p init es) where
  kept_before := (kept_buffered hk).and (kept_inScope false)
  kept_fallback := Kept.const False
  kept_done := kept_drained hT hk
  unscoped := by
    rintro d (hd | hd | hd)
    · exact hd.2
    · exact absurd hd not_false
    · exact hd.outside
  nodup := hnd
  lost := by
    intro b row d w site args _ _ hd hexact hdata hlost
    have hw : w.data.Exact T args.expectedVersion ∧ w.data.Live T := by
      rw [hdata]
      exact ⟨hexact, hd.1.live⟩
    -- alone with the task, a merge is lost only to a cancellation, and there is none outside the
    -- scope
    obtain ⟨-, hi⟩ := hlost.interrupted hT hw.1 hw.2
    have hout : w.data.inScope = false := by
      rw [hdata]
      exact hd.2
    exact absurd (World.interruptible hi) (not_interruptible_of_outside hout)
  lost_fallback := fun _ _ _ _ _ h => absurd h not_false
  commit := fun d row now state message version _ hne hd hrow =>
    drained_commit hrow (hd.1.stored row hrow) (fun h => hne (Option.some_inj.mp h))
      (fun h => nomatch h) hd.2
  commit_fallback := fun _ _ _ h => absurd h not_false
  ended := by
    intro d hd hended
    obtain ⟨row, hrow, hlive⟩ := hd.1.live hT
    simp [hended row hrow] at hlive
  conflict := fun w args e hd hexact hfails => hd.1.not_refused hT hexact hfails.refused
  fails_fallback := fun _ _ h => absurd h not_false
  skip := fun _ _ h => absurd h not_false
  gone := by
    intro d hd hnone
    obtain ⟨row, hrow, -⟩ := hd.1.live hT
    simp [hnone] at hrow
  publish := fun _ _ hd => ⟨hd.stored, hd.unfinished, hd.outside⟩

/-- The ladder of a turn with nothing in its buffer. -/
theorem ladderRule_drained (hT : T.Alone) (hk : TurnSetting T k) :
    LadderRule T k [] (Drained p init es) (Drained p init es) (Drained p init es) where
  kept_before := kept_drained hT hk
  kept_fallback := kept_drained hT hk
  kept_done := kept_drained hT hk
  unscoped := by
    rintro d (hd | hd | hd)
    · exact hd.outside
    · exact hd.outside
    · exact hd.outside
  nodup := List.nodup_nil
  lost := fun _ _ _ _ _ _ _ _ hd _ _ _ => ⟨hd.stored, hd.unfinished, hd.outside⟩
  lost_fallback := fun _ _ _ _ _ hd _ _ => ⟨hd.stored, hd.unfinished, hd.outside⟩
  commit := fun d row now state message version _ hne hd hrow =>
    drained_commit hrow (hd.stored row hrow) (fun h => hne (Option.some_inj.mp h))
      (fun h => nomatch h) hd.outside
  commit_fallback := fun d row now hd hrow =>
    drained_commit hrow (hd.stored row hrow) (fun h => nomatch h) (fun _ => hd.unfinished) hd.outside
  ended := fun _ hd _ => hd
  conflict := fun _ _ _ hd _ _ => hd
  fails_fallback := by
    intro x w hd hfails
    cases x with
    | cancelled =>
      cases hfails with
      | cancelled hi => exact not_interruptible_of_outside hd.outside hi
    | storage e => exact hd
    | runtime m => exact hd
    | group x => exact hd
  skip := fun _ _ hd => hd
  gone := fun _ hd _ => hd
  publish := fun _ _ hd => ⟨hd.stored, hd.unfinished, hd.outside⟩

/-- On a task that has ended, `cancel_task_in_storage` returns at its first load. -/
theorem wp_cancel_ended {J : TaskData → Prop} (hJ : Kept T J)
    (hd : ∀ d, J d → d.Ended ∧ d.inScope = false) (taskId : TaskId)
    (contextId : Option ContextId) (reason : String) (hw : J w.data) :
    (cancelTaskInStorage k taskId contextId reason ws : TaskM σ Unit).wp T.system
      (fun r s' w => s' = s ∧ r = .ok () ∧ J w.data) s w := by
  refine Act.wp_bind (wp_getVersion k hJ hw ?_
    fun _ hw hi => absurd hi (not_interruptible_of_outside (hd _ hw).2))
  intro version w hw _ _
  refine Act.wp_bind (wp_loadTask k .guarded hJ hw ?_
    fun _ hw hi => absurd hi (not_interruptible_of_outside (hd _ hw).2))
  rintro (_ | task) w hw - ⟨w₀, hw₀, -, htask⟩
  · exact wp_return hJ hw fun w hw => ⟨rfl, rfl, hw⟩
  · obtain ⟨row, hrow, rfl⟩ := Option.map_eq_some_iff.mp htask
    have hterm : row.task.status.state.isTerminal = true := (hd _ hw₀).1 row hrow
    dsimp only
    rw [if_pos hterm]
    exact wp_return hJ hw fun w hw => ⟨rfl, rfl, hw⟩

end

/-! ### The turn -/

/-- The handler is over: it was cancelled, or has ended the turn. -/
inductive GroupLeft (T : Setting) (init : List Artifact) (vals : List (ArtifactWrite Artifact))
    (ctx : TaskContext) (d : TaskData) : Prop
  | held : TurnHeld T init ctx d → d.cancelled = true → GroupLeft T init vals ctx d
  | finished : ctx.turnEnded = false → Finished init ctx.emitted vals d → d.cancelled = true →
      GroupLeft T init vals ctx d
  | ended : TurnDone init vals ctx d → GroupLeft T init vals ctx d

/-- How the task group is left. -/
def GroupEnds (T : Setting) (init : List Artifact) (cs : List HandlerCall) (ctx : TaskContext)
    (r : Except Exc Unit) (ctx' : TaskContext) (w : World) : Prop :=
  ctx'.emitted <+: ctx.emitted ++ emittedBy cs ∧ w.data.inScope = false ∧ match r with
    | .ok _ => GroupLeft T init (ownArtifacts cs) ctx' w.data
    | .error x => (∃ y, x = .group y) ∧
      (TurnHeld T init ctx' w.data ∨ TurnDone init (ownArtifacts cs) ctx' w.data)

/-- The stored artifacts when the turn is over: everything that was emitted, and the artifact
of the lifecycle call unless that was not written. -/
def Settled (p : Prop) (init : List Artifact) (vals es : List (ArtifactWrite Artifact))
    (d : TaskData) : Prop :=
  d.Stored init (es ++ vals) ∨ d.Stored init es ∧ d.Unfinished p

section

variable {T : Setting} {k : StorageKind} {taskId : TaskId} {contextId : Option ContextId}
  {p : Prop} {init : List Artifact} {vals : List (ArtifactWrite Artifact)}
  {cs : List HandlerCall} {ctx : TaskContext} {w : World} {d : TaskData}

theorem kept_cancelled : Kept T fun d => d.cancelled = true := by
  intro d d' hstep hd
  cases hstep with
  | write _ _ _ => exact hd
  | delete _ => exact hd
  | cancel _ => rfl

theorem kept_groupLeft (hk : TurnSetting T k) : Kept T (GroupLeft T init vals ctx) := by
  intro d d' hstep hd
  cases hd with
  | held hheld hc => exact .held (kept_turnHeld hk d d' hstep hheld) (kept_cancelled d d' hstep hc)
  | finished hrun hfin hc =>
    exact .finished hrun (kept_finished hk d d' hstep hfin) (kept_cancelled d d' hstep hc)
  | ended hdone => exact .ended (kept_turnDone hk d d' hstep hdone)

theorem kept_settled (hT : T.Alone) (hk : TurnSetting T k) {es : List (ArtifactWrite Artifact)} :
    Kept T (Settled p init vals es) :=
  (kept_stored hk).or ((kept_stored hk).and (kept_unfinished hT))

theorem ownArtifacts_eq_nil (h : cs.any HandlerCall.isLifecycle = false) : ownArtifacts cs = [] := by
  induction cs with
  | nil => rfl
  | cons c cs ih =>
    rw [List.any_cons, Bool.or_eq_false_iff] at h
    cases c with
    | lifecycle l => exact nomatch h.1
    | emitArtifact a => exact ih h.2
    | sendStatus message => exact ih h.2
    | wait => exact ih h.2

/-- Whether the task is cancelled, and what that says. -/
theorem wp_isCancelled {Q : Except Exc Bool → TaskContext → World → Prop} {J : TaskData → Prop}
    (hJ : Kept T J) (hw : J w.data)
    (hQ : ∀ b w, J w.data → (b = true → w.data.cancelled = true) →
      (b = false → ∃ d, J d ∧ d.cancelled = false) → Q (.ok b) ctx w) :
    (Act.perform .isCancelled : TurnM Bool).wp T.system Q ctx w := by
  refine wp_op hJ hw (K := fun b d => J d ∧ (b = true → d.cancelled = true) ∧
      (b = false → ∃ d, J d ∧ d.cancelled = false))
    (fun b => hJ.and ((Kept.imp fun _ => kept_cancelled).and (Kept.const _)))
    (fun _ _ => trivial) ?_ fun b w hw => hQ b w hw.1 hw.2.1 hw.2.2
  intro w w' b hw _ hperf
  obtain ⟨rfl, rfl⟩ := Prod.mk.inj (Option.some_inj.mp hperf)
  exact ⟨hw, fun h => h, fun h => ⟨w.data, hw, h⟩⟩

/-- The handler and the `fail` after it. -/
theorem wp_handle (hk : TurnSetting T k) (hw : TurnOpen T init ctx w.data) :
    (WorkerAdapter.handle k taskId contextId
      (TaskContext.runHandler k taskId contextId cs)).wp T.system (fun r ctx' w =>
      ctx'.emitted <+: ctx.emitted ++ emittedBy cs ∧ match r with
        | .ok _ => GroupLeft T init (ownArtifacts cs) ctx' w.data
        | .error x => TurnRaised T init (ownArtifacts cs) x ctx' w.data) ctx w := by
  refine Act.wp_bind (Act.wp_mono (wp_runHandler hk cs hw) ?_)
  rintro (x | _) ctx' w ⟨hemitted, hw⟩
  · exact ⟨hemitted, hw⟩
  have hpre : ctx'.emitted <+: ctx.emitted ++ emittedBy cs := by
    rw [hemitted]
  rcases hw with ⟨hany, hopen⟩ | hdone
  · have hown := ownArtifacts_eq_nil hany
    refine Act.wp_bind (wp_get (kept_turnOpen hk) hopen fun w hopen => ?_)
    dsimp only
    rw [if_neg (by simp [hopen.running])]
    refine Act.wp_bind (wp_isCancelled (kept_turnOpen hk) hopen fun b w hopen hset _ => ?_)
    cases b with
    | true =>
      exact wp_return ((kept_turnOpen hk).and kept_cancelled) ⟨hopen, hset rfl⟩
        fun w hw => ⟨hpre, .held hw.1.toTurnHeld hw.2⟩
    | false =>
      refine Act.wp_mono (wp_runLifecycle hk (.fail _) hopen) ?_
      rintro (x | _) ctx'' w ⟨hemitted', hw⟩
      · have hsame : ctx''.emitted = ctx'.emitted := by simpa using hemitted'
        refine ⟨hsame ▸ hpre, ?_⟩
        rw [hown]
        exact hw
      · have hsame : ctx''.emitted = ctx'.emitted := by simpa using hemitted'
        refine ⟨hsame ▸ hpre, .ended ?_⟩
        rw [hown]
        exact hw
  · refine Act.wp_bind (wp_get (kept_turnDone hk) hdone fun w hdone => ?_)
    dsimp only
    rw [if_pos hdone.finished]
    exact wp_return (kept_turnDone hk) hdone fun w hdone => ⟨hpre, .ended hdone⟩

/-- The scope around the handler does not concern the artifacts. -/
theorem wp_setInScope {Q : Except Exc Unit → TaskContext → World → Prop} {J : TaskData → Prop}
    (inScope : Bool) (hJ : Kept T J) (hw : J w.data) (hscope : ∀ d, J d → J { d with inScope })
    (hQ : ∀ w, J w.data → w.data.inScope = inScope → Q (.ok ()) ctx w) :
    (Act.perform (.setInScope inScope) : TurnM Unit).wp T.system Q ctx w := by
  refine wp_op hJ hw (K := fun _ d => J d ∧ d.inScope = inScope)
    (fun _ => hJ.and (kept_inScope inScope)) (fun _ _ => trivial) ?_ fun _ w hw => hQ w hw.1 hw.2
  intro w w' a hw _ hperf
  obtain ⟨rfl, rfl⟩ := Prod.mk.inj (Option.some_inj.mp hperf)
  exact ⟨hscope _ hw, rfl⟩

theorem Buffered.scope {es : List (ArtifactWrite Artifact)} {ws : List (ArtifactWrite Ref)}
    (hd : Buffered T init es ws d) (inScope : Bool) :
    Buffered T init es ws { d with inScope } :=
  ⟨hd.nodup, hd.fresh, hd.live, hd.stored⟩

theorem TurnOpen.scope (hd : TurnOpen T init ctx d) (inScope : Bool) :
    TurnOpen T init ctx { d with inScope } :=
  ⟨⟨hd.running, hd.buffered.scope inScope⟩, hd.announced, hd.seen, hd.exact⟩

theorem GroupLeft.scope (hd : GroupLeft T init vals ctx d) (inScope : Bool) :
    GroupLeft T init vals ctx { d with inScope } := by
  cases hd with
  | held hheld hc => exact .held ⟨hheld.running, hheld.buffered.scope inScope⟩ hc
  | finished hrun hfin hc => exact .finished hrun ⟨hfin.stored, hfin.ended⟩ hc
  | ended hdone => exact .ended ⟨hdone.finished, hdone.stored, hdone.announced⟩

/-- The task group. -/
theorem wp_inTaskGroup (hk : TurnSetting T k) (hw : TurnOpen T init ctx w.data) :
    (WorkerAdapter.inTaskGroup (WorkerAdapter.handle k taskId contextId
      (TaskContext.runHandler k taskId contextId cs))).wp T.system
      (GroupEnds T init cs ctx) ctx w := by
  refine Act.wp_bind (wp_setInScope true (kept_turnOpen hk) hw (fun d hd => hd.scope true) ?_)
  intro w hw _
  refine Act.wp_bind (Act.wp_tryCatch (Act.wp_mono (wp_handle hk hw) ?_))
  have hleave : ∀ {ctx' : TaskContext} {w : World},
      ctx'.emitted <+: ctx.emitted ++ emittedBy cs →
      GroupLeft T init (ownArtifacts cs) ctx' w.data →
      (Act.perform (.setInScope false) : TurnM Unit).wp T.system (GroupEnds T init cs ctx) ctx' w :=
    fun hpre hw => wp_setInScope false (kept_groupLeft hk) hw (fun d hd => hd.scope false)
      fun w hw hout => ⟨hpre, hout, hw⟩
  -- every exception but a cancellation leaves the task group inside an exception group
  have hwrap : ∀ {x : Exc} {ctx' : TaskContext} {w : World},
      ctx'.emitted <+: ctx.emitted ++ emittedBy cs →
      TurnHeld T init ctx' w.data ∨ TurnDone init (ownArtifacts cs) ctx' w.data →
      (do
        Act.perform (.setInScope false)
        throw (.group x) : TurnM Unit).wp T.system (fun r ctx' w => match r with
        | .ok _ => (Act.perform (.setInScope false) : TurnM Unit).wp T.system
            (GroupEnds T init cs ctx) ctx' w
        | .error x => GroupEnds T init cs ctx (.error x) ctx' w) ctx' w := by
    intro x ctx' w hpre hw
    have hkept : Kept T fun d => TurnHeld T init ctx' d ∨ TurnDone init (ownArtifacts cs) ctx' d :=
      (kept_turnHeld hk).or (kept_turnDone hk)
    refine Act.wp_bind (wp_setInScope false hkept hw ?_ fun w hw hout => ?_)
    · rintro d (hd | hd)
      · exact Or.inl ⟨hd.running, hd.buffered.scope false⟩
      · exact Or.inr ⟨hd.finished, hd.stored, hd.announced⟩
    · exact wp_raise (hkept.and (kept_inScope false)) ⟨hw, hout⟩
        fun w hw => ⟨hpre, hw.2, ⟨x, rfl⟩, hw.1⟩
  rintro (x | _) ctx' w ⟨hpre, hw⟩
  · cases x with
    | cancelled =>
      have hleft : GroupLeft T init (ownArtifacts cs) ctx' w.data := by
        rcases hw.2 with hheld | ⟨hrun, hfin⟩ | hdone
        · exact .held hheld hw.1.1
        · exact .finished hrun hfin hw.1.1
        · exact .ended hdone
      exact wp_return (kept_groupLeft hk) hleft fun w hw => hleave hpre hw
    | storage e => exact hwrap hpre hw
    | runtime m => exact hwrap hpre hw
    | group y => exact hwrap hpre hw
  · exact hleave hpre hw

theorem Drained.settled {es : List (ArtifactWrite Artifact)} (hd : Drained p init es d) :
    Settled p init vals es d := Or.inr ⟨hd.stored, hd.unfinished⟩

/-- How a ladder ends that was given the buffer. -/
def LadderLeft (p : Prop) (init : List Artifact) (ctx : TaskContext) (r : Except Exc Unit)
    (ctx' : TaskContext) (w : World) : Prop :=
  ctx' = { ctx with pending := [] } ∧ r ≠ .error .cancelled ∧ Drained p init ctx.emitted w.data

theorem Ends.ladderLeft {r : Except Exc Unit} {ctx' : TaskContext}
    (h : Ends (Drained p init ctx.emitted) { ctx with pending := [] } r ctx' w) :
    LadderLeft p init ctx r ctx' w := by
  obtain ⟨rfl, hw⟩ := h
  rcases r with x | _
  · cases x with
    | cancelled => exact absurd hw not_false
    | storage e => exact ⟨rfl, by simp, hw⟩
    | runtime m => exact ⟨rfl, by simp, hw⟩
    | group y => exact ⟨rfl, by simp, hw⟩
  · exact ⟨rfl, by simp, hw⟩

theorem wp_cancelPending_held (hT : T.Alone) (hk : TurnSetting T k)
    (hheld : TurnHeld T init ctx w.data) (hout : w.data.inScope = false) :
    (WorkerAdapter.cancelPending k taskId contextId).wp T.system (LadderLeft p init ctx) ctx w := by
  have hkept : Kept T fun d => Buffered T init ctx.emitted ctx.pending d ∧ d.inScope = false :=
    (kept_buffered hk).and (kept_inScope false)
  refine Act.wp_bind (wp_takePending hkept ⟨hheld.buffered, hout⟩ fun w hw => ?_)
  refine Act.wp_mono ((ladderRule_held (p := p) hT hk hheld.buffered.nodup).wp_cancel taskId
    contextId WorkerAdapter.cancelReason ?_ hw) fun _ _ _ h => h.ladderLeft
  intro d w₀ task hd hended _ _ _
  obtain ⟨row, hrow, hlive⟩ := hd.1.live hT
  simp [hended row hrow] at hlive

theorem wp_cancelPending_finished (hk : TurnSetting T k)
    (hfin : Finished init ctx.emitted vals w.data) (hout : w.data.inScope = false) :
    (WorkerAdapter.cancelPending k taskId contextId).wp T.system (fun r ctx' w =>
      ctx' = { ctx with pending := [] } ∧ r = .ok () ∧
        Finished init ctx.emitted vals w.data ∧ w.data.inScope = false) ctx w := by
  have hkept : Kept T fun d => Finished init ctx.emitted vals d ∧ d.inScope = false :=
    (kept_finished hk).and (kept_inScope false)
  refine Act.wp_bind (wp_takePending hkept ⟨hfin, hout⟩ fun w hw => ?_)
  refine wp_cancel_ended hkept (fun d hd => ⟨fun row hrow => ?_, hd.2⟩) taskId contextId _ hw
  obtain ⟨st, hst, hin, -⟩ := hd.1.ended
  rw [hin row hrow]
  exact hst

/-- How the task group and the cancel branch end. -/
def RunGroupEnds (T : Setting) (p : Prop) (init : List Artifact) (cs : List HandlerCall)
    (ctx : TaskContext) (r : Except Exc Unit) (ctx' : TaskContext) (w : World) : Prop :=
  ctx'.emitted <+: ctx.emitted ++ emittedBy cs ∧ w.data.inScope = false ∧ match r with
    | .ok _ => Settled p init (ownArtifacts cs) ctx'.emitted w.data
    | .error x => (∃ y, x = .group y) ∧
        (TurnHeld T init ctx' w.data ∨ TurnDone init (ownArtifacts cs) ctx' w.data) ∨
      x ≠ .cancelled ∧ ctx'.turnEnded = false ∧ ctx'.pending = [] ∧
        Drained p init ctx'.emitted w.data

theorem wp_runGroup (hT : T.Alone) (hk : TurnSetting T k) (hw : TurnOpen T init ctx w.data) :
    (WorkerAdapter.runGroup k taskId contextId
      (TaskContext.runHandler k taskId contextId cs)).wp T.system (RunGroupEnds T p init cs ctx)
      ctx w := by
  refine Act.wp_bind (Act.wp_mono (wp_inTaskGroup hk hw) ?_)
  rintro (x | _) ctx' w ⟨hpre, hout, hw⟩
  · exact ⟨hpre, hout, Or.inl hw⟩
  cases hw with
  -- the handler was interrupted: `is_cancelled` is seen, and the turn writes `canceled`
  | held hheld hc =>
    have hkept : Kept T fun d => (TurnHeld T init ctx' d ∧ d.cancelled = true) ∧ d.inScope = false :=
      ((kept_turnHeld hk).and kept_cancelled).and (kept_inScope false)
    refine Act.wp_bind (wp_isCancelled hkept ⟨⟨hheld, hc⟩, hout⟩ fun b w hw _ hfalse => ?_)
    cases b with
    | false =>
      obtain ⟨d, hd, hd'⟩ := hfalse rfl
      simp [hd.1.2] at hd'
    | true =>
      refine Act.wp_bind (wp_get hkept hw fun w hw => ?_)
      dsimp only
      rw [if_neg (by simp [hheld.running])]
      refine Act.wp_mono (wp_cancelPending_held (p := p) hT hk hw.1.1 hw.2) ?_
      rintro (x | _) ctx'' w ⟨rfl, hr, hw⟩
      · exact ⟨hpre, hw.outside, Or.inr ⟨fun h => hr (by rw [h]), hheld.running, rfl, hw⟩⟩
      · exact ⟨hpre, hw.outside, hw.settled⟩
  -- the end was written, and the cancellation came before the context noted it
  | finished hrun hfin hc =>
    have hkept : Kept T fun d =>
        (Finished init ctx'.emitted (ownArtifacts cs) d ∧ d.cancelled = true) ∧ d.inScope = false :=
      ((kept_finished hk).and kept_cancelled).and (kept_inScope false)
    refine Act.wp_bind (wp_isCancelled hkept ⟨⟨hfin, hc⟩, hout⟩ fun b w hw _ hfalse => ?_)
    cases b with
    | false =>
      obtain ⟨d, hd, hd'⟩ := hfalse rfl
      simp [hd.1.2] at hd'
    | true =>
      refine Act.wp_bind (wp_get hkept hw fun w hw => ?_)
      dsimp only
      rw [if_neg (by simp [hrun])]
      refine Act.wp_mono (wp_cancelPending_finished hk hw.1.1 hw.2) ?_
      rintro r ctx'' w ⟨rfl, rfl, hfin, hout⟩
      exact ⟨hpre, hout, Or.inl hfin.stored⟩
  -- the handler has ended the task itself
  | ended hdone =>
    have hkept : Kept T fun d => TurnDone init (ownArtifacts cs) ctx' d ∧ d.inScope = false :=
      (kept_turnDone hk).and (kept_inScope false)
    have hend : ∀ {w : World}, TurnDone init (ownArtifacts cs) ctx' w.data ∧
        w.data.inScope = false →
        (pure () : TurnM Unit).wp T.system (RunGroupEnds T p init cs ctx) ctx' w :=
      fun hw => wp_return hkept hw fun w hw => ⟨hpre, hw.2, Or.inl hw.1.stored⟩
    refine Act.wp_bind (wp_isCancelled hkept ⟨hdone, hout⟩ fun b w hw _ _ => ?_)
    cases b with
    | false => exact hend hw
    | true =>
      refine Act.wp_bind (wp_get hkept hw fun w hw => ?_)
      dsimp only
      rw [if_pos hdone.finished]
      exact hend hw

/-- The turn is over, before its `finally` block. -/
def TurnEnds (p : Prop) (init : List Artifact) (cs : List HandlerCall) (ctx' : TaskContext)
    (w : World) : Prop :=
  ctx'.emitted <+: emittedBy cs ∧ w.data.inScope = false ∧
    Settled p init (ownArtifacts cs) ctx'.emitted w.data

theorem LadderLeft.turnEnds {r : Except Exc Unit} {ctx' : TaskContext}
    (h : LadderLeft p init ctx r ctx' w) (hpre : ctx.emitted <+: emittedBy cs) :
    TurnEnds p init cs ctx' w := by
  obtain ⟨rfl, -, hw⟩ := h
  exact ⟨hpre, hw.outside, hw.settled⟩

theorem wp_failPending (hT : T.Alone) (hk : TurnSetting T k) (x : Exc)
    (hpre : ctx.emitted <+: emittedBy cs) (hout : w.data.inScope = false)
    (hw : TurnHeld T init ctx w.data ∨ TurnDone init (ownArtifacts cs) ctx w.data ∨
      ctx.turnEnded = false ∧ ctx.pending = [] ∧ Drained p init ctx.emitted w.data) :
    (WorkerAdapter.failPending k taskId contextId x).wp T.system
      (fun _ ctx' w => TurnEnds p init cs ctx' w) ctx w := by
  rcases hw with hheld | hdone | ⟨hrun, hpending, hdrained⟩
  · have hkept : Kept T fun d => Buffered T init ctx.emitted ctx.pending d ∧ d.inScope = false :=
      (kept_buffered hk).and (kept_inScope false)
    refine Act.wp_bind (wp_get hkept ⟨hheld.buffered, hout⟩ fun w hw => ?_)
    dsimp only
    rw [if_neg (by simp [hheld.running])]
    refine Act.wp_bind (wp_takePending hkept hw fun w hw => ?_)
    exact Act.wp_mono ((ladderRule_held (p := p) hT hk hheld.buffered.nodup).wp_markFailed taskId
      contextId x.text hw) fun _ _ _ h => h.ladderLeft.turnEnds hpre
  · have hkept : Kept T fun d => TurnDone init (ownArtifacts cs) ctx d ∧ d.inScope = false :=
      (kept_turnDone hk).and (kept_inScope false)
    refine Act.wp_bind (wp_get hkept ⟨hdone, hout⟩ fun w hw => ?_)
    dsimp only
    rw [if_pos hdone.finished]
    exact wp_return hkept hw fun w hw => ⟨hpre, hw.2, Or.inl hw.1.stored⟩
  · refine Act.wp_bind (wp_get (kept_drained hT hk) hdrained fun w hw => ?_)
    dsimp only
    rw [if_neg (by simp [hrun])]
    refine Act.wp_bind (wp_takePending (kept_drained hT hk) hw fun w hw => ?_)
    dsimp only
    rw [hpending]
    exact Act.wp_mono ((ladderRule_drained hT hk).wp_markFailed taskId contextId x.text hw)
      fun _ _ _ h => h.ladderLeft.turnEnds hpre

/-- The handlers around the task group. -/
theorem wp_recover (hT : T.Alone) (hk : TurnSetting T k) {x : Exc} (hctx : ctx.emitted <+: emittedBy cs)
    (hout : w.data.inScope = false)
    (hw : (∃ y, x = .group y) ∧
        (TurnHeld T init ctx w.data ∨ TurnDone init (ownArtifacts cs) ctx w.data) ∨
      x ≠ .cancelled ∧ ctx.turnEnded = false ∧ ctx.pending = [] ∧
        Drained p init ctx.emitted w.data) :
    (WorkerAdapter.recover k taskId contextId x).wp T.system
      (fun _ ctx' w => TurnEnds p init cs ctx' w) ctx w := by
  rcases hw with ⟨⟨y, rfl⟩, hw⟩ | ⟨hx, hw⟩
  · exact wp_failPending hT hk _ hctx hout (hw.imp_right Or.inl)
  · match x, hx with
    | .storage (.taskTerminalState _), _ =>
      refine Act.wp_bind (wp_takePending (kept_drained hT hk) hw.2.2 fun w hd => ?_)
      dsimp only
      rw [hw.2.1]
      exact wp_return (kept_drained hT hk) hd fun w hd => ⟨hctx, hd.outside, hd.settled⟩
    | .storage (.taskNotFound _), _ => exact wp_failPending hT hk _ hctx hout (Or.inr (Or.inr hw))
    | .storage (.concurrency ..), _ => exact wp_failPending hT hk _ hctx hout (Or.inr (Or.inr hw))
    | .runtime _, _ => exact wp_failPending hT hk _ hctx hout (Or.inr (Or.inr hw))
    | .group _, _ => exact wp_failPending hT hk _ hctx hout (Or.inr (Or.inr hw))
    | .cancelled, hx => exact absurd rfl hx

/-- Before the handler: nothing was emitted. -/
structure Fresh (p : Prop) (init : List Artifact) (d : TaskData) : Prop
    extends Drained p init [] d where
  announced : announced d.published = []

/-- The task is working, at version `n`. -/
structure Started (T : Setting) (init : List Artifact) (n : Nat) (d : TaskData) : Prop where
  buffered : Buffered T init [] [] d
  announced : announced d.published = []
  seen : d.Seen (some n)
  exact : d.Exact T (some n)
  outside : d.inScope = false

theorem kept_fresh (hT : T.Alone) (hk : TurnSetting T k) : Kept T (Fresh p init) :=
  fun d d' hstep hd => ⟨kept_drained hT hk d d' hstep hd.toDrained,
    kept_announced d d' hstep hd.announced⟩

theorem kept_started (hk : TurnSetting T k) (n : Nat) : Kept T (Started T init n) :=
  fun d d' hstep hd => ⟨kept_buffered hk d d' hstep hd.buffered,
    kept_announced d d' hstep hd.announced, kept_seen (some n) d d' hstep hd.seen,
    kept_exact (some n) d d' hstep hd.exact, kept_inScope false d d' hstep hd.outside⟩

theorem Fresh.commit (hd : Fresh p init d) {row : Row} (hrow : d.row = some row) (now : Timestamp) :
    Started T init (row.version + 1) (d.commit k row { state := some .working } now) := by
  refine ⟨⟨List.nodup_nil, by simp [refs], fun _ => ⟨_, rfl, ?_⟩, fun row' hrow' => ?_⟩,
    hd.announced, fun row' hrow' => ?_, fun _ row' hrow' => ?_, hd.outside⟩
  · show (InMemoryStorage.updatedTask d.heap row.task _ now).status.state.isTerminal = false
    rw [InMemoryStorage.updatedTask_state]
    rfl
  · obtain rfl := Option.some_inj.mp hrow'
    show applyWrites (InMemoryStorage.updatedTask d.heap row.task _ now).artifacts [] = _
    rw [InMemoryStorage.updatedTask_artifacts]
    exact hd.stored row hrow
  · obtain rfl := Option.some_inj.mp hrow'
    exact le_refl _
  · obtain rfl := Option.some_inj.mp hrow'
    rfl

/-- The transition to working. -/
theorem wp_startWorking (hT : T.Alone) (hk : TurnSetting T k) (hw : Fresh p init w.data) :
    (WorkerAdapter.startWorking k).wp T.system (fun r ctx' w => ctx' = ctx ∧ match r with
      | .ok (some n) => Started T init n w.data
      | _ => Drained p init [] w.data) ctx w := by
  have hrule : UpdateRule T k .other { state := some .working } (Fresh p init) (Started T init)
      (Aborted (Drained p init [])) :=
    { kept := kept_fresh hT hk
      kept_commit := kept_started hk
      kept_raise := kept_aborted (kept_drained hT hk)
      nodup := List.nodup_nil
      pinned := fun _ _ _ _ _ h => nomatch h
      lost := fun _ _ _ _ _ hd _ _ => ⟨⟨hd.stored, hd.unfinished, hd.outside⟩, hd.announced⟩
      commit := fun d row now hd hrow _ => hd.commit hrow now
      interrupted := fun _ w hw _ hi =>
        not_interruptible_of_outside hw.outside (World.interruptible hi)
      fails := by
        intro x w hw hfails
        cases x with
        | cancelled =>
          cases hfails with
          | cancelled hi => exact not_interruptible_of_outside hw.outside hi
        | storage e => exact hw.toDrained
        | runtime m => exact hw.toDrained
        | group y => exact hw.toDrained }
  refine Act.wp_tryCatch (Act.wp_bind (Act.wp_mono (hrule.wp hw) ?_))
  rintro (x | n) ctx' w ⟨rfl, hd⟩
  · match x, hd with
    | .storage (.taskTerminalState _), hd =>
      exact wp_return (kept_drained hT hk) hd fun w hd => ⟨rfl, hd⟩
    | .storage (.concurrency ..), hd =>
      exact wp_return (kept_drained hT hk) hd fun w hd => ⟨rfl, hd⟩
    | .storage (.taskNotFound _), hd =>
      exact wp_raise (kept_drained hT hk) hd fun w hd => ⟨rfl, hd⟩
    | .runtime _, hd => exact wp_raise (kept_drained hT hk) hd fun w hd => ⟨rfl, hd⟩
    | .group _, hd => exact wp_raise (kept_drained hT hk) hd fun w hd => ⟨rfl, hd⟩
    | .cancelled, hd => exact absurd hd not_false
  · exact wp_return (kept_started hk n) hd fun w hd => ⟨rfl, hd⟩

theorem wp_cancelEarly (hT : T.Alone) (hk : TurnSetting T k) (hctx : ctx.emitted = [])
    (hw : Drained p init [] w.data) :
    (WorkerAdapter.cancelEarly k taskId contextId).wp T.system
      (fun _ ctx' w => TurnEnds p init cs ctx' w) ctx w := by
  have hdone : ∀ w : World, Drained p init [] w.data → TurnEnds p init cs ctx w := by
    intro w hw
    refine ⟨by simp [hctx], hw.outside, ?_⟩
    rw [hctx]
    exact hw.settled
  have hcancel : ∀ {w : World}, Drained p init [] w.data →
      (cancelTaskInStorage k taskId contextId WorkerAdapter.cancelReason [] : TurnM Unit).wp
        T.system (fun _ ctx' w => TurnEnds p init cs ctx' w) ctx w := by
    intro w hw
    refine Act.wp_mono ((ladderRule_drained hT hk).wp_cancel taskId contextId _
      (fun d _ _ hd _ _ _ _ => hd) hw) ?_
    rintro (x | _) ctx' w ⟨rfl, hd⟩
    · cases x with
      | cancelled => exact absurd hd not_false
      | storage e => exact hdone w hd
      | runtime m => exact hdone w hd
      | group y => exact hdone w hd
    · exact hdone w hd
  refine Act.wp_bind (wp_loadTask k .other (kept_drained hT hk) hw ?_
    fun w hw hi => absurd hi (not_interruptible_of_outside hw.outside))
  rintro (_ | task) w hw - -
  · exact hcancel hw
  · dsimp only
    split
    · exact wp_return (kept_drained hT hk) hw hdone
    · exact hcancel hw

theorem wp_runTurn (hT : T.Alone) (hk : TurnSetting T k)
    (hctx : ctx.turnEnded = false ∧ ctx.pending = [] ∧ ctx.emitted = [])
    (hw : Fresh p init w.data) :
    (WorkerAdapter.runTurn k taskId contextId
      (TaskContext.runHandler k taskId contextId cs)).wp T.system
      (fun _ ctx' w => TurnEnds p init cs ctx' w) ctx w := by
  obtain ⟨hrunning, hpending, hemitted⟩ := hctx
  have hdone : ∀ {ctx : TaskContext} {w : World}, ctx.emitted = [] → Drained p init [] w.data →
      TurnEnds p init cs ctx w := by
    intro ctx w hemitted hw
    refine ⟨by simp [hemitted], hw.outside, ?_⟩
    rw [hemitted]
    exact hw.settled
  refine Act.wp_bind (wp_isCancelled (kept_fresh hT hk) hw fun b w hw _ _ => ?_)
  cases b with
  | true => exact wp_cancelEarly hT hk hemitted hw.toDrained
  | false =>
    refine Act.wp_bind (Act.wp_mono (wp_startWorking hT hk hw) ?_)
    rintro (x | _ | n) ctx' w ⟨rfl, hw⟩
    · exact hdone hemitted hw
    · exact wp_return (kept_drained hT hk) hw fun w hw => hdone hemitted hw
    refine Act.wp_bind (wp_modify (kept_started hk n) hw fun w hw => ?_)
    -- the status event, outside of the scope
    have hopen : TurnOpen T init { ctx' with version := some n } w.data := by
      refine ⟨⟨hrunning, ?_⟩, ?_, fun m hm => Option.some_inj.mp hm ▸ hw.seen, hw.exact⟩
      · show Buffered T init ctx'.emitted ctx'.pending w.data
        rw [hemitted, hpending]
        exact hw.buffered
      · show announced w.data.published = ctx'.emitted
        rw [hemitted]
        exact hw.announced
    have hkept : Kept T fun d =>
        TurnOpen T init { ctx' with version := some n } d ∧ d.inScope = false :=
      (kept_turnOpen hk).and (kept_inScope false)
    refine Act.wp_bind (Act.wp_bind (wp_get hkept ⟨hopen, hw.outside⟩ fun w hw => ?_))
    dsimp only
    rw [if_neg (by simp [hrunning])]
    refine wp_emitStatus false .working none false hkept hw
      (fun d event hevent hd => ⟨hd.1.publish hevent, hd.2⟩) (fun w hw => ?_)
      fun _ w hw hi => absurd hi (not_interruptible_of_outside hw.2)
    refine Act.wp_tryCatch (Act.wp_mono (wp_runGroup (p := p) hT hk hw.1) ?_)
    rintro (x | _) ctx'' w ⟨hpre, hout, hw⟩
    · have hpre' : ctx''.emitted <+: emittedBy cs := by simpa [hemitted] using hpre
      exact wp_recover hT hk hpre' hout hw
    · exact ⟨by simpa [hemitted] using hpre, hout, hw⟩

/-- The `finally` block releases the bus only of a task that has ended. -/
theorem wp_cleanup_keeps {J : TaskData → Prop} (hJ : Kept T J) (hout : ∀ d, J d → d.inScope = false)
    (hw : J w.data) :
    (WorkerAdapter.cleanup k).wp T.system (fun r ctx' w => r = .ok () ∧ ctx' = ctx ∧ J w.data)
      ctx w := by
  refine Act.wp_bind (Act.wp_tryCatch (wp_loadTask k .other hJ hw ?_
    fun w hw hi => absurd hi (not_interruptible_of_outside (hout _ hw))))
  intro current w hw hloaded _
  -- a task that was seen terminal, or not at all, stays so
  have hended : (current.all fun task => task.status.state.isTerminal) = true → w.data.Ended := by
    intro hterm
    cases current with
    | none =>
      intro row hrow
      have hnone : w.data.row = none := hloaded
      simp [hnone] at hrow
    | some task => exact hloaded hterm
  generalize hall : (current.all fun task => task.status.state.isTerminal) = isTerminal at hended
  have hkept : Kept T fun d => J d ∧ (isTerminal = true → d.Ended) :=
    hJ.and (Kept.imp fun _ => kept_ended)
  have hend : ∀ {w : World}, (J w.data ∧ (isTerminal = true → w.data.Ended)) →
      (Act.perform (.registryCleanup isTerminal) : TurnM Unit).wp T.system
        (fun r ctx' w => r = .ok () ∧ ctx' = ctx ∧ J w.data) ctx w := by
    intro w hw
    refine wp_ask hkept hw (fun w hw => ?_) (fun _ => ⟨_, rfl⟩) fun _ w hw => ⟨rfl, rfl, hw.1⟩
    cases isTerminal with
    | true => exact hw.2 rfl
    | false => trivial
  show ((WorkerAdapter.releaseBus (current.all fun task => task.status.state.isTerminal)) >>=
    fun _ => Act.perform (.registryCleanup
      (current.all fun task => task.status.state.isTerminal))).wp _ _ _ _
  rw [hall]
  refine Act.wp_bind ?_
  cases isTerminal with
  | false => exact wp_return hkept ⟨hw, hended⟩ fun w hw => hend hw
  | true =>
    refine wp_query hkept ⟨hw, hended⟩ (fun w hw => hw.2 rfl) ?_ fun _ w hw => hend hw
    intro w w' a hperf
    simp only [World.perform, Option.map_eq_some_iff] at hperf
    obtain ⟨w₁, hbus, h⟩ := hperf
    rw [← (Prod.mk.inj h).1]
    exact data_busStep hbus

theorem wp_cleanup (hT : T.Alone) (hk : TurnSetting T k) (hw : TurnEnds p init cs ctx w) :
    (WorkerAdapter.cleanup k).wp T.system (fun r ctx' w => r = .ok () ∧ TurnEnds p init cs ctx' w)
      ctx w := by
  obtain ⟨hpre, hout, hset⟩ := hw
  have hkept : Kept T fun d => d.inScope = false ∧
      Settled p init (ownArtifacts cs) ctx.emitted d :=
    (kept_inScope false).and (kept_settled hT hk)
  refine Act.wp_mono (wp_cleanup_keeps hkept (fun d hd => hd.1) ⟨hout, hset⟩) ?_
  rintro r ctx' w ⟨rfl, rfl, hw⟩
  exact ⟨rfl, hpre, hw.1, hw.2⟩

theorem wp_runCalls (hT : T.Alone) (hk : TurnSetting T k)
    (hctx : ctx.turnEnded = false ∧ ctx.pending = [] ∧ ctx.emitted = [])
    (hw : Fresh p init w.data) :
    (WorkerAdapter.runCalls k taskId contextId cs).wp T.system
      (fun _ ctx' w => TurnEnds p init cs ctx' w) ctx w := by
  refine Act.wp_bind (Act.wp_tryCatch (Act.wp_mono (wp_runTurn hT hk hctx hw) ?_))
  rintro (x | _) ctx' w hw
  · refine Act.wp_bind (Act.wp_mono (wp_cleanup hT hk hw) ?_)
    rintro r ctx'' w ⟨rfl, hw⟩
    exact wp_raise ((kept_inScope false).and (kept_settled hT hk)) hw.2
      fun w h => ⟨hw.1, h.1, h.2⟩
  · exact Act.wp_mono (wp_cleanup hT hk hw) fun _ _ _ h => h.2

end

/-- **Cancellation applies every write once.**  When the turn is over, wherever the
cancellation was delivered, the stored artifacts are the initial ones with the writes that
were buffered, in order, and with the artifact of the lifecycle call if that was written. -/
theorem cancelled_turn_artifacts (k : StorageKind) (cfg : BusConfig) (taskId : TaskId)
    (contextId : Option ContextId) (calls : List HandlerCall) (ctx ctx' : TaskContext)
    (r : Except Exc Unit) (w w' : World) (row : Row) (hrow : w.row = some row)
    (hout : w.inScope = false) (hpublished : w.published = [])
    (hctx : ctx.turnEnded = false ∧ ctx.pending = [] ∧ ctx.emitted = [])
    (hrun : (cancellable cfg taskId RebufferOk).system.Reaches
      (WorkerAdapter.runCalls k taskId contextId calls ctx, w) (.ret (r, ctx'), w')) :
    ∃ row', w'.row = some row' ∧ ctx'.emitted <+: emittedBy calls ∧
      (row'.task.artifacts =
          applyWrites row.task.artifacts (ctx'.emitted ++ ownArtifacts calls) ∨
        row'.task.artifacts = applyWrites row.task.artifacts ctx'.emitted ∧
          (row'.task.status.state = .completed → row.task.status.state = .completed)) := by
  have hfresh : Fresh (row.task.status.state = .completed) row.task.artifacts w.data := by
    refine ⟨⟨fun row₀ hrow₀ => ?_, fun row₀ hrow₀ h => ?_, hout⟩, ?_⟩
    · obtain rfl := Option.some_inj.mp (hrow.symm.trans hrow₀)
      rfl
    · obtain rfl := Option.some_inj.mp (hrow.symm.trans hrow₀)
      exact h
    · show announced w.published = []
      rw [hpublished]
      rfl
  obtain ⟨row', hrow'⟩ := Option.isSome_iff_exists.mp
    ((cancellable cfg taskId RebufferOk).isSome_row not_false hrun (by simp [hrow]))
  obtain ⟨hpre, -, hset⟩ := Prog.wp_sound
    (wp_runCalls cancellable_alone turnSetting_cancellable hctx hfresh) hrun
  refine ⟨row', hrow', hpre, ?_⟩
  rcases hset with hstored | ⟨hstored, hunf⟩
  · exact Or.inl (hstored row' hrow')
  · exact Or.inr ⟨hstored row' hrow', hunf row' hrow'⟩

/-! ### Two cancelled turns -/

/-- One chunk of the artifact `a`. -/
def streamedChunk : EmitArgs :=
  { artifactId := "a", content := { text := some "x" }, append := true }

/-- A cancellation is requested, and delivered at the next await. -/
def cancelNow : List Move := [.cancel, .ambient ⟨"", 0, "", true, false⟩]

/-- From the start of the turn to the buffered chunk. -/
def bufferChunk : List Move :=
  -- the transition to working, and its event
  List.replicate 7 Move.step ++ List.replicate 3 Move.step ++ [Move.bus .grant, .step] ++
  -- the chunk is published, and stays in the buffer
  List.replicate 4 Move.step ++ [Move.bus .grant] ++ List.replicate 2 Move.step

/-- `cancel_task_in_storage` without a conflict, and the `finally` block. -/
def cancelLadder : List Move :=
  List.replicate 4 Move.step ++ List.replicate 5 Move.step ++ List.replicate 3 Move.step ++
  [Move.bus .grant, .step] ++ List.replicate 3 Move.step

/-- A cancellation is delivered only between two writes. -/
def plainAwait {β : Type} (e : Op β) (w : World) : Bool :=
  match e with
  | .await .plain => true
  | .await _ => !w.interrupted
  | _ => true

theorem plainAwait_sound (β : Type) (e : Op β) (w : World) (h : plainAwait e w = true) :
    RebufferOk e w := by
  cases e with
  | await pt =>
    cases pt with
    | plain => trivial
    | merged site args row =>
      have hw : w.interrupted = false := by simpa [plainAwait] using h
      cases site with
      | turn ws second => exact fun hi => by simp [hw] at hi
      | _ => trivial
    | committed site args =>
      have hw : w.interrupted = false := by simpa [plainAwait] using h
      cases site with
      | turn ws second => exact fun hi => by simp [hw] at hi
      | _ => trivial
  | _ => trivial

/-- The cancellation is delivered in the first hook after the commit of `request_input`: the
chunk is stored, put back, and stored again by the cancel ladder. -/
theorem paused_chunk_doubled :
    ∃ ctx' w' row', (cancellable ⟨1, 1, 60⟩ "t" fun _ _ => True).system.Reaches
      (WorkerAdapter.runCalls .memory "t" (some "c")
        [.emitArtifact streamedChunk, .lifecycle (.requestInput "?")] {},
        World.holding workingTask 1) (.ret (.ok (), ctx'), w') ∧
      w'.row = some row' ∧ ctx'.emitted = [⟨streamedChunk.artifact, true⟩] ∧
      row'.task.artifacts ≠ applyWrites [] ctx'.emitted ∧
      row'.task.artifacts ≠ applyWrites [] (ctx'.emitted ++
        ownArtifacts [.emitArtifact streamedChunk, .lifecycle (.requestInput "?")]) := by
  have hmoves : ∀ m ∈ bufferChunk ++ [Move.step, .step] ++ cancelNow ++
      List.replicate 3 Move.step ++
      cancelLadder, (cancellable ⟨1, 1, 60⟩ "t" fun _ _ => True).Allows m := by
    simp [bufferChunk, cancelNow, cancelLadder, allows_step, allows_ambient, allows_cancel,
      allows_bus, cancellable]
  obtain ⟨ctx', w', hrun, hcheck⟩ := reaches_of_execute anyOp (fun _ _ _ _ => trivial) hmoves
    (p := WorkerAdapter.runCalls .memory "t" (some "c")
      [.emitArtifact streamedChunk, .lifecycle (.requestInput "?")] {})
    (w := World.holding workingTask 1)
    (fun ctx w => decide (ctx.emitted = [⟨streamedChunk.artifact, true⟩]) &&
      decide (w.row.map (fun row => row.task.artifacts) =
        some [streamedChunk.artifact.extend streamedChunk.artifact.parts]))
    (by decide +kernel)
  rw [Bool.and_eq_true, decide_eq_true_eq, decide_eq_true_eq] at hcheck
  obtain ⟨row', hrow', hart⟩ := Option.map_eq_some_iff.mp hcheck.2
  refine ⟨ctx', w', row', hrun, hrow', hcheck.1, ?_, ?_⟩
  · rw [hart, hcheck.1]
    decide
  · rw [hart, hcheck.1]
    decide

/-- The cancellation is delivered while the handler waits: the cancel ladder stores the chunk. -/
theorem waiting_chunk_stored :
    ∃ ctx' w', (cancellable ⟨1, 1, 60⟩ "t" RebufferOk).system.Reaches
      (WorkerAdapter.runCalls .memory "t" (some "c") [.emitArtifact streamedChunk, .wait] {},
        World.holding workingTask 1) (.ret (.ok (), ctx'), w') ∧
      ∃ row', w'.row = some row' ∧
        ctx'.emitted <+: emittedBy [.emitArtifact streamedChunk, .wait] ∧
        (row'.task.artifacts = applyWrites []
            (ctx'.emitted ++ ownArtifacts [.emitArtifact streamedChunk, .wait]) ∨
          row'.task.artifacts = applyWrites [] ctx'.emitted ∧
            (row'.task.status.state = .completed → TaskState.working = .completed)) := by
  have hmoves : ∀ m ∈ bufferChunk ++ cancelNow ++ List.replicate 3 Move.step ++ cancelLadder,
      (cancellable ⟨1, 1, 60⟩ "t" RebufferOk).Allows m := by
    simp [bufferChunk, cancelNow, cancelLadder, allows_step, allows_ambient, allows_cancel,
      allows_bus, cancellable]
  obtain ⟨ctx', w', hrun, -⟩ := reaches_of_execute plainAwait plainAwait_sound hmoves
    (p := WorkerAdapter.runCalls .memory "t" (some "c") [.emitArtifact streamedChunk, .wait] {})
    (w := World.holding workingTask 1) (fun _ _ => true) (by decide +kernel)
  exact ⟨ctx', w', hrun, cancelled_turn_artifacts .memory ⟨1, 1, 60⟩ "t" (some "c")
    [.emitArtifact streamedChunk, .wait] {} ctx' (.ok ()) (World.holding workingTask 1) w' _ rfl rfl
    rfl ⟨rfl, rfl, rfl⟩ hrun⟩

end A2AKit
