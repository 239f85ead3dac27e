/-
The writes of a turn.

`Buffered init es ws d` says that nothing is lost and nothing is doubled: the stored
artifacts with the buffered writes `ws` on top are the initial artifacts with all
emitted writes `es`.  It is what a write of the turn starts from (`Pending`, together
with the artifact that a lifecycle call adds), and what holds again when the write has
raised and the batch was put back.

`turnRule` instantiates the rule for `update_task`.  It needs a `TurnSetting`: other
writers leave the artifacts alone, a merge that is lost is safe to repeat, and a
cancellation does not hit a write between its commit and its return, unless the write
has made the task terminal or writing its batch again would change nothing.
-/
import A2AKit.AtomicUpdate
import A2AKit.TaskContext

namespace A2AKit

/-- Without other writers, the task is there and not terminal. -/
def TaskData.Live (T : Setting) (d : TaskData) : Prop :=
  T.Alone → ∃ row, d.row = some row ∧ row.task.status.state.isTerminal = false

/-- The artifact writes of a sequence of events. -/
def announced (events : List (StreamEvent Artifact)) : List (ArtifactWrite Artifact) :=
  events.flatMap StreamEvent.writes

/-- The stored artifacts are the initial ones with the writes `es`. -/
def TaskData.Stored (init : List Artifact) (es : List (ArtifactWrite Artifact)) (d : TaskData) :
    Prop :=
  ∀ row, d.row = some row → row.task.artifacts = applyWrites init es

/-- The task is in the state `st`. -/
def TaskData.InState (st : TaskState) (d : TaskData) : Prop :=
  ∀ row, d.row = some row → row.task.status.state = st

/-- The writes `es` are stored or buffered in `ws`. -/
structure Buffered (T : Setting) (init : List Artifact) (es : List (ArtifactWrite Artifact))
    (ws : List (ArtifactWrite Ref)) (d : TaskData) : Prop where
  nodup : (refs ws).Nodup
  fresh : ∀ r ∈ refs ws, r < d.next
  live : d.Live T
  stored : ∀ row, d.row = some row →
    applyWrites row.task.artifacts (resolve d.heap ws) = applyWrites init es

/-- The artifact that a lifecycle call adds to the batch `ws`: none, or a new one that
replaces. -/
structure OwnWrites (ws own : List (ArtifactWrite Ref)) (vals : List (ArtifactWrite Artifact))
    (d : TaskData) : Prop where
  nodup : (refs (ws ++ own)).Nodup
  reads : resolve d.heap own = vals
  replaces : own = [] ∨ ∃ r, own = [⟨r, false⟩]

/-- The task has ended with the writes `es` and the artifact of the lifecycle call. -/
structure Finished (init : List Artifact) (es vals : List (ArtifactWrite Artifact))
    (d : TaskData) : Prop where
  stored : d.Stored init (es ++ vals)
  ended : ∃ st, st.isTerminal = true ∧ d.InState st ∧ (vals ≠ [] → st = .completed)

/-- Before a write of the batch `ws` and the lifecycle call's artifact `own`, made with the
version `v`. -/
structure Pending (T : Setting) (init : List Artifact) (es : List (ArtifactWrite Artifact))
    (ws own : List (ArtifactWrite Ref)) (vals : List (ArtifactWrite Artifact)) (v : Option Nat)
    (d : TaskData) : Prop where
  buffered : Buffered T init es ws d
  own : OwnWrites ws own vals d
  announced : announced d.published = es
  seen : ∀ n, v = some n → d.Seen (some n)
  exact : d.Exact T v

/-- After the commit of version `n`. -/
structure Committed (T : Setting) (init : List Artifact) (es : List (ArtifactWrite Artifact))
    (ws own : List (ArtifactWrite Ref)) (vals : List (ArtifactWrite Artifact))
    (state : Option TaskState) (n : Nat) (d : TaskData) : Prop where
  nodup : (refs ws).Nodup
  fresh : ∀ r ∈ refs ws, r < d.next
  stored : d.Stored init (es ++ vals)
  reads : resolve d.heap own = vals
  announced : announced d.published = es
  seen : d.Seen (some n)
  exact : d.Exact T (some n)
  ended : ∀ st, state = some st → st.isTerminal = true → d.InState st
  live : (∀ st, state = some st → st.isTerminal = false) → d.Live T

/-- After the write has raised.  The batch is not stored, unless the write was cancelled
when the task had just become terminal. -/
def Raised (T : Setting) (init : List Artifact) (es : List (ArtifactWrite Artifact))
    (ws own : List (ArtifactWrite Ref)) (vals : List (ArtifactWrite Artifact))
    (state : Option TaskState) : Exc → TaskData → Prop
  | .cancelled => fun d =>
    d.Interruptible ∧ (Buffered T init es ws d ∨ state.isSome = true ∧ Finished init es vals d)
  | .storage (.concurrency _ current) => fun d =>
    Pending T init es ws own vals current d ∧ ¬ T.Alone
  | _ => Buffered T init es ws

/-- What the other parties and the cancellations must leave alone. -/
structure TurnSetting (T : Setting) (k : StorageKind) : Prop where
  writes : ∀ args, T.writes args → args.artifacts = []
  lost : ∀ b ws second args row w, k = .split b → LostMerge T b (.turn ws second) args row w →
    w.data.Exact T args.expectedVersion → w.data.Live T →
    retrySafe (artifactIds row.task.artifacts) (resolve w.heap ws) = true
  committed : ∀ ws second args w, T.ok (.await (.committed (.turn ws second) args)) w →
    w.interrupted = true →
    (∃ st, args.state = some st ∧ st.isTerminal = true) ∨
      ∀ row, w.row = some row →
        applyWrites row.task.artifacts (resolve w.heap ws) = row.task.artifacts

section

variable {T : Setting} {k : StorageKind} {init : List Artifact}
  {es vals : List (ArtifactWrite Artifact)} {ws own : List (ArtifactWrite Ref)} {v : Option Nat}
  {second : Bool} {d : TaskData}

theorem kept_live : Kept T (TaskData.Live T) := by
  intro d d' hstep hd hT
  rw [hstep.row_alone hT]
  exact hd hT

/-- What holds of the stored artifacts, other writers keep. -/
theorem TurnSetting.kept_artifacts (hT : TurnSetting T k) (P : Heap → List Artifact → Prop) :
    Kept T fun d => ∀ row, d.row = some row → P d.heap row.task.artifacts := by
  intro d d' hstep hd row' hrow'
  cases hstep with
  | @write row h args now hargs hrow _ =>
    obtain rfl := Option.some_inj.mp hrow'
    show P d.heap (InMemoryStorage.updatedTask h row.task args now).artifacts
    rw [InMemoryStorage.updatedTask_artifacts, hT.writes args hargs]
    exact hd row hrow
  | delete _ => exact nomatch hrow'
  | cancel _ => exact hd row' hrow'

theorem kept_stored (hT : TurnSetting T k) : Kept T (TaskData.Stored init es) :=
  hT.kept_artifacts fun _ artifacts => artifacts = applyWrites init es

theorem kept_heap {P : Heap → Ref → Prop} : Kept T fun d => P d.heap d.next := by
  intro d d' hstep hd
  cases hstep <;> exact hd

theorem kept_buffered (hT : TurnSetting T k) : Kept T (Buffered T init es ws) := by
  intro d d' hstep hd
  refine ⟨hd.nodup, ?_, kept_live d d' hstep hd.live, ?_⟩
  · exact kept_heap (P := fun _ next => ∀ r ∈ refs ws, r < next) d d' hstep hd.fresh
  · exact hT.kept_artifacts (fun h artifacts => applyWrites artifacts (resolve h ws) =
      applyWrites init es) d d' hstep hd.stored

theorem kept_ownWrites : Kept T (OwnWrites ws own vals) := by
  intro d d' hstep hd
  exact ⟨hd.nodup, kept_heap (P := fun h _ => resolve h own = vals) d d' hstep hd.reads,
    hd.replaces⟩

/-- A terminal state stays. -/
theorem kept_inState {st : TaskState} (hst : st.isTerminal = true) :
    Kept T (TaskData.InState st) := by
  intro d d' hstep hd row' hrow'
  cases hstep with
  | @write row h args now _ hrow hguard =>
    obtain rfl := Option.some_inj.mp hrow'
    have hrowst := hd row hrow
    show (InMemoryStorage.updatedTask h row.task args now).status.state = st
    rcases hstate : args.state with _ | state
    · simpa [hstate] using hrowst
    · simp [terminalGuard, hstate, hrowst, hst] at hguard
  | delete _ => cases hrow'
  | cancel _ => exact hd row' hrow'

theorem kept_finished (hT : TurnSetting T k) : Kept T (Finished init es vals) := by
  intro d d' hstep hd
  obtain ⟨st, hst, hin, hvals⟩ := hd.ended
  exact ⟨kept_stored hT d d' hstep hd.stored, st, hst, kept_inState hst d d' hstep hin, hvals⟩

/-- The merge of a batch with the artifact of a lifecycle call at its end. -/
theorem OwnWrites.merge (stored : List Artifact) (ho : OwnWrites ws own vals d) :
    resolve (mergeInPlace d.heap stored (ws ++ own)).1 ws =
        inflate (artifactIds stored) (resolve d.heap ws) ∧
      resolve (mergeInPlace d.heap stored (ws ++ own)).1 own = vals := by
  have hmerge := resolve_mergeInPlace (h := d.heap) stored ho.nodup
  rw [resolve_append, resolve_append] at hmerge
  have hsplit : inflate (artifactIds stored) (resolve d.heap ws ++ resolve d.heap own) =
      inflate (artifactIds stored) (resolve d.heap ws) ++ resolve d.heap own := by
    rcases ho.replaces with rfl | ⟨r, rfl⟩
    · simp
    · exact inflate_concat_replace _ _ _
  rw [hsplit] at hmerge
  obtain ⟨hws, hown⟩ := List.append_inj' hmerge (by simp [resolve])
  exact ⟨hws, hown.trans ho.reads⟩

theorem kept_known (v : Option Nat) : Kept T fun d => ∀ n, v = some n → d.Seen (some n) := by
  intro d d' hstep hd n hn
  exact kept_seen (some n) d d' hstep (hd n hn)

theorem DataStep.published {d d' : TaskData} (h : DataStep T d d') : d'.published = d.published := by
  cases h <;> rfl

theorem kept_announced : Kept T fun d => announced d.published = es := by
  intro d d' hstep hd
  rw [hstep.published]
  exact hd

theorem kept_pending (hT : TurnSetting T k) : Kept T (Pending T init es ws own vals v) := by
  intro d d' hstep hd
  exact ⟨kept_buffered hT d d' hstep hd.buffered, kept_ownWrites d d' hstep hd.own,
    kept_announced d d' hstep hd.announced, kept_known v d d' hstep hd.seen, kept_exact v d d' hstep hd.exact⟩

theorem kept_committed (hT : TurnSetting T k) (state : Option TaskState) (n : Nat) :
    Kept T (Committed T init es ws own vals state n) := by
  intro d d' hstep hd
  exact ⟨hd.nodup, kept_heap (P := fun _ next => ∀ r ∈ refs ws, r < next) d d' hstep hd.fresh,
    kept_stored hT d d' hstep hd.stored,
    kept_heap (P := fun h _ => resolve h own = vals) d d' hstep hd.reads,
    kept_announced d d' hstep hd.announced, kept_seen (some n) d d' hstep hd.seen,
    kept_exact (some n) d d' hstep hd.exact,
    fun st hst hterm => kept_inState hterm d d' hstep (hd.ended st hst hterm),
    fun h => kept_live d d' hstep (hd.live h)⟩

theorem kept_raised (hT : TurnSetting T k) (state : Option TaskState) :
    ∀ x, Kept T (Raised T init es ws own vals state x)
  | .cancelled =>
    kept_interruptible.and ((kept_buffered hT).or ((Kept.const _).and (kept_finished hT)))
  | .storage (.concurrency ..) => (kept_pending hT).and (Kept.const _)
  | .storage (.taskNotFound _) => kept_buffered hT
  | .storage (.taskTerminalState _) => kept_buffered hT
  | .runtime _ => kept_buffered hT
  | .group _ => kept_buffered hT

/-- A lost merge of the turn is safe to repeat. -/
theorem Pending.merge (hT : TurnSetting T k) {args : UpdateArgs Ref} {row : Row} {w : World}
    {b : SplitStorage} (hk : k = .split b) (hargs : args.artifacts = ws ++ own)
    (hv : args.expectedVersion = v) (hd : Pending T init es ws own vals v d)
    (hdata : w.data = d.merge row args) (hlost : LostMerge T b (.turn ws second) args row w) :
    Pending T init es ws own vals v (d.merge row args) := by
  obtain ⟨hws, hown⟩ := hd.own.merge row.task.artifacts
  rw [← hargs] at hws hown
  have hsafe : retrySafe (artifactIds row.task.artifacts) (resolve d.heap ws) = true := by
    have h := hT.lost b ws second args row w hk hlost ?_ ?_
    · rw [show w.heap = (mergeInPlace d.heap row.task.artifacts args.artifacts).1 from
        congrArg TaskData.heap hdata, hws, retrySafe_inflate] at h
      exact h
    · rw [hdata, hv]
      exact hd.exact
    · rw [hdata]
      exact hd.buffered.live
  refine ⟨⟨hd.buffered.nodup, hd.buffered.fresh, hd.buffered.live, ?_⟩,
    ⟨hd.own.nodup, hown, hd.own.replaces⟩, hd.announced, hd.seen, hd.exact⟩
  intro row' hrow'
  show applyWrites row'.task.artifacts
    (resolve (mergeInPlace d.heap row.task.artifacts args.artifacts).1 ws) = _
  have hagain : applyWrites row'.task.artifacts
      (inflate (artifactIds row.task.artifacts) (resolve d.heap ws)) =
      applyWrites row'.task.artifacts (resolve d.heap ws) :=
    (applyWrites_inflateAll_iff [artifactIds row.task.artifacts] (resolve d.heap ws)
      row'.task.artifacts).mpr (by simpa using hsafe)
  rw [hws, hagain]
  exact hd.buffered.stored row' hrow'

theorem Pending.commit {args : UpdateArgs Ref} {row : Row} {now : Timestamp}
    (hargs : args.artifacts = ws ++ own) (hd : Pending T init es ws own vals v d)
    (hrow : d.row = some row) :
    Committed T init es ws own vals args.state (row.version + 1) (d.commit k row args now) := by
  refine ⟨hd.buffered.nodup, hd.buffered.fresh, ?_, ?_, ?_, ?_, ?_, ?_, ?_⟩
  · intro row' hrow'
    obtain rfl := Option.some_inj.mp hrow'
    show (InMemoryStorage.updatedTask d.heap row.task args now).artifacts = _
    rw [InMemoryStorage.updatedTask_artifacts, hargs, resolve_append, applyWrites_append,
      hd.buffered.stored row hrow, hd.own.reads, applyWrites_append]
  · cases k with
    | memory => exact hd.own.reads
    | split b =>
      show resolve (mergeInPlace d.heap row.task.artifacts args.artifacts).1 own = vals
      rw [hargs]
      exact (hd.own.merge row.task.artifacts).2
  · exact hd.announced
  · intro row' hrow'
    obtain rfl := Option.some_inj.mp hrow'
    exact le_refl _
  · intro _ row' hrow'
    obtain rfl := Option.some_inj.mp hrow'
    rfl
  · intro st hst _ row' hrow'
    obtain rfl := Option.some_inj.mp hrow'
    simp [hst]
  · intro hst hT
    refine ⟨_, rfl, ?_⟩
    show (InMemoryStorage.updatedTask d.heap row.task args now).status.state.isTerminal = false
    rw [InMemoryStorage.updatedTask_state]
    rcases hstate : args.state with _ | st
    · obtain ⟨row', hrow', hlive⟩ := hd.buffered.live hT
      obtain rfl : row = row' := Option.some_inj.mp (hrow.symm.trans hrow')
      exact hlive
    · exact hst st hstate

/-- A cancellation after the commit. -/
theorem Committed.interrupted (hT : TurnSetting T k) {args : UpdateArgs Ref} {n : Nat}
    {w : World} (hvals : vals ≠ [] → args.state = some .completed)
    (hw : Committed T init es ws own vals args.state n w.data)
    (hok : T.ok (.await (.committed (.turn ws second) args)) w) (hi : w.interrupted = true) :
    Raised T init es ws own vals args.state .cancelled w.data := by
  refine ⟨World.interruptible hi, ?_⟩
  by_cases hterm : ∃ st, args.state = some st ∧ st.isTerminal = true
  · obtain ⟨st, hst, hterm⟩ := hterm
    refine Or.inr ⟨by simp [hst], hw.stored, st, hterm, hw.ended st hst hterm, fun hne => ?_⟩
    exact Option.some_inj.mp (hst.symm.trans (hvals hne))
  · -- the batch can be written again, and a lifecycle call that pauses the task adds nothing
    have hagain := (hT.committed ws second args w hok hi).resolve_left hterm
    have hnil : vals = [] := Classical.byContradiction fun hne =>
      hterm ⟨.completed, hvals hne, rfl⟩
    refine Or.inl ⟨hw.nodup, hw.fresh, hw.live fun st hst => ?_, ?_⟩
    · exact Bool.eq_false_iff.mpr fun h => hterm ⟨st, hst, h⟩
    · intro row hrow
      have hstored := hw.stored row hrow
      rw [hnil, List.append_nil] at hstored
      rw [← hstored]
      exact hagain row hrow

/-- The rule for a write of the turn. -/
theorem turnRule (hT : TurnSetting T k) (args : UpdateArgs Ref)
    (hargs : args.artifacts = ws ++ own) (hvals : vals ≠ [] → args.state = some .completed)
    (hnd : (refs (ws ++ own)).Nodup) :
    UpdateRule T k (.turn ws second) args (Pending T init es ws own vals args.expectedVersion)
      (Committed T init es ws own vals args.state) (Raised T init es ws own vals args.state) where
  kept := kept_pending hT
  kept_commit := kept_committed hT args.state
  kept_raise := kept_raised hT args.state
  nodup := by
    rw [hargs]
    exact hnd
  pinned := fun d row hd hrow n hn => hd.seen n hn row hrow
  lost := fun b row d w hk hd hdata hlost => hd.merge hT hk hargs rfl hdata hlost
  commit := fun d row now hd hrow _ => hd.commit hargs hrow
  interrupted := fun n w hw hok hi => hw.interrupted hT hvals hok hi
  fails := by
    intro x w hw hfails
    match x, hfails with
    | .cancelled, .cancelled hi => exact ⟨hi, Or.inl hw.buffered⟩
    | .storage (.taskNotFound _), _ => exact hw.buffered
    | .storage (.taskTerminalState _), _ => exact hw.buffered
    | .storage (.concurrency _ current), hfails =>
      cases hfails.refused with
      | conflict hne hcurrent =>
        -- without other writers the version was the stored one
        have halone : ¬ T.Alone := fun halone => by
          obtain ⟨row, hrow, -⟩ := hw.buffered.live halone
          exact hne row hrow (hw.exact halone row hrow)
        refine ⟨⟨hw.buffered, hw.own, hw.announced, fun n hn row hrow => ?_, fun h => ?_⟩, halone⟩
        · obtain ⟨row', hrow', rfl⟩ := hcurrent n hn
          obtain rfl := Option.some_inj.mp (hrow'.symm.trans hrow)
          exact le_refl _
        · exact absurd h halone

end

/-! ### The versioned write -/

/-- How a write of the turn ends, with the context it leaves. -/
def WriteEnds (T : Setting) (init : List Artifact) (es : List (ArtifactWrite Artifact))
    (ws own : List (ArtifactWrite Ref)) (vals : List (ArtifactWrite Artifact))
    (state : Option TaskState) (ctx : TaskContext) (r : Except Exc Unit) (ctx' : TaskContext)
    (w : World) : Prop :=
  match r with
  | .ok _ =>
    ∃ n, ctx' = { ctx with version := some n } ∧ Committed T init es ws own vals state n w.data
  | .error x => ctx' = ctx ∧ Raised T init es ws own vals state x w.data

section

variable {T : Setting} {k : StorageKind} {taskId : TaskId} {init : List Artifact}
  {es vals : List (ArtifactWrite Artifact)} {ws own : List (ArtifactWrite Ref)} {second : Bool}
  {ctx : TaskContext} {w : World}

/-- One attempt, with the version that it leaves in the context. -/
theorem wp_writeOnce (hT : TurnSetting T k) (args : UpdateArgs Ref)
    (hargs : args.artifacts = ws ++ own) (hvals : vals ≠ [] → args.state = some .completed)
    (hw : Pending T init es ws own vals args.expectedVersion w.data) :
    (do
      let newVersion ← Emitter.updateTask k (.turn ws second) args
      TaskContext.setVersion (some newVersion) : TurnM Unit).wp T.system
      (WriteEnds T init es ws own vals args.state ctx) ctx w := by
  have hrule : UpdateRule T k (.turn ws second) args
      (Pending T init es ws own vals args.expectedVersion)
      (Committed T init es ws own vals args.state) (Raised T init es ws own vals args.state) :=
    turnRule hT args hargs hvals hw.own.nodup
  refine Act.wp_bind (Act.wp_mono (hrule.wp hw) ?_)
  rintro (x | n) ctx' w ⟨rfl, hw⟩
  · exact ⟨rfl, hw⟩
  · exact wp_modify (kept_committed hT args.state n) hw fun w hw => ⟨n, rfl, hw⟩

theorem wp_freshVersion {J : TaskData → Prop} (hJ : Kept T J) {current : Option Nat}
    {Q : Except Exc (Option Nat) → TaskContext → World → Prop} (hw : J w.data)
    (hcurrent : ∀ d, J d → (∀ n, current = some n → d.Seen (some n)) ∧ ¬ T.Alone)
    (hQ : ∀ v w, J w.data → (∀ n, v = some n → w.data.Seen (some n)) → w.data.Exact T v →
      Q (.ok v) ctx w)
    (hx : ∀ w, J w.data → w.data.Interruptible → Q (.error .cancelled) ctx w) :
    (TaskContext.freshVersion k current).wp T.system Q ctx w := by
  rw [TaskContext.freshVersion]
  split
  · rename_i v hv
    refine wp_return hJ hw fun w hw => hQ (some v) w hw (fun n hn => ?_) fun hT => ?_
    · exact (hcurrent _ hw).1 n ((Option.filter_eq_some_iff.mp hv).1.trans hn)
    · exact absurd hT (hcurrent _ hw).2
  · refine wp_getVersion k hJ hw (fun v w hw hseen hexact => hQ v w hw (fun n hn => ?_) hexact) hx
    rw [← hn]
    exact hseen

/-- `_versioned_update` -/
theorem wp_versionedUpdate (hT : TurnSetting T k) (args : UpdateArgs Ref)
    (hargs : args.artifacts = ws ++ own) (hvals : vals ≠ [] → args.state = some .completed)
    (hw : Pending T init es ws own vals ctx.version w.data) :
    (TaskContext.versionedUpdate k taskId ws args).wp T.system
      (WriteEnds T init es ws own vals args.state ctx) ctx w := by
  refine Act.wp_bind (wp_get (kept_pending hT) hw fun w hw => ?_)
  refine Act.wp_tryCatch (Act.wp_mono
    (wp_writeOnce hT { args with expectedVersion := ctx.version } hargs hvals hw) ?_)
  rintro (x | _) ctx' w hw
  swap
  · exact hw
  obtain ⟨rfl, hraised⟩ := hw
  match x, hraised with
  | .storage (.taskNotFound _), hw => exact wp_raise (kept_raised hT _ _) hw fun w hw => ⟨rfl, hw⟩
  | .storage (.taskTerminalState _), hw =>
    exact wp_raise (kept_raised hT _ _) hw fun w hw => ⟨rfl, hw⟩
  | .runtime _, hw => exact wp_raise (kept_raised hT _ _) hw fun w hw => ⟨rfl, hw⟩
  | .group _, hw => exact wp_raise (kept_raised hT _ _) hw fun w hw => ⟨rfl, hw⟩
  | .cancelled, hw => exact wp_raise (kept_raised hT _ _) hw fun w hw => ⟨rfl, hw⟩
  | .storage (.concurrency m current), hw =>
    have hkept : Kept T
        (Raised T init es ws own vals args.state (.storage (.concurrency m current))) :=
      kept_raised hT _ _
    refine Act.wp_bind (wp_loadTask k .other hkept hw ?_
      fun w hw hi => ⟨rfl, hi, Or.inl hw.1.buffered⟩)
    rintro (_ | task) w hw - -
    · exact wp_raise (kept_buffered hT) hw.1.buffered fun w hw => ⟨rfl, hw⟩
    dsimp only
    split
    · exact wp_raise (kept_buffered hT) hw.1.buffered fun w hw => ⟨rfl, hw⟩
    · refine Act.wp_bind (wp_freshVersion hkept hw (fun d hd => ⟨hd.1.seen, hd.2⟩) ?_
        fun w hw hi => ⟨rfl, hi, Or.inl hw.1.buffered⟩)
      intro fresh w hw hseen hexact
      exact wp_writeOnce hT { args with expectedVersion := fresh } hargs hvals
        ⟨hw.1.buffered, hw.1.own, hw.1.announced, hseen, hexact⟩

end

end A2AKit
