/-
A handler that reacts to a cancellation.

A handler polls `ctx.is_cancelled` and reacts with a lifecycle method of its choice
(`Cooperative`).  The request that it polls also makes the watcher cancel the task
group, so the lifecycle call runs under a pending cancellation.  Where that is delivered
decides what becomes of the choice.  Before the commit the write is lost, and the cancel
ladder writes canceled; after a commit that has ended the task the ladder finds nothing
to do; after the commit of a pause, the turn not being marked as ended yet, it overwrites
the pause (`choice_overwritten`).

* `wp_commits` — where no other writer is and no await before the commit delivers the
  cancellation, a write commits at its first attempt;
* `cooperative_choice_kept` — in such a run the task ends the turn in the chosen state,
  with the message and all artifacts.
-/
import A2AKit.CancelledTurn
import A2AKit.StatusWrites

namespace A2AKit

/-! ### The handler -/

/-- A handler that polls `ctx.is_cancelled` between its calls, and whose last action is a
lifecycle call.  It may react to what its calls raise. -/
inductive Cooperative
  | ends (choice : Lifecycle)
  | call (c : HandlerCall) (plain : c.isLifecycle = false) (next : Except Exc Unit → Cooperative)
  | poll (next : Bool → Cooperative)

def Cooperative.run (k : StorageKind) (taskId : TaskId) (contextId : Option ContextId) :
    Cooperative → TurnM Unit
  | .ends choice => TaskContext.runLifecycle k taskId contextId choice
  | .call c _ next => do
    let r ← tryCatchThe Exc (do
      TaskContext.runCall k taskId contextId c
      pure (.ok ())) fun x => pure (.error x)
    run k taskId contextId (next r)
  | .poll next => do
    let cancelled ← Act.perform .isCancelled
    run k taskId contextId (next cancelled)

/-- The handler can emit `es` and then end with `choice`.  A handler whose next call does not
depend on what it has seen has exactly one such end. -/
inductive Cooperative.Takes : Cooperative → List (ArtifactWrite Artifact) → Lifecycle → Prop
  | ends {choice : Lifecycle} : Takes (.ends choice) [] choice
  | call {c : HandlerCall} {plain : c.isLifecycle = false} {next : Except Exc Unit → Cooperative}
      {es : List (ArtifactWrite Artifact)} {choice : Lifecycle} :
      Takes (next (.ok ())) es choice → Takes (.call c plain next) (c.writes ++ es) choice
  | raised {c : HandlerCall} {plain : c.isLifecycle = false} {next : Except Exc Unit → Cooperative}
      {x : Exc} {es : List (ArtifactWrite Artifact)} {choice : Lifecycle} :
      Takes (next (.error x)) es choice → Takes (.call c plain next) es choice
  | poll {next : Bool → Cooperative} {cancelled : Bool} {es : List (ArtifactWrite Artifact)}
      {choice : Lifecycle} : Takes (next cancelled) es choice → Takes (.poll next) es choice

/-- The state that a lifecycle method writes. -/
def Lifecycle.state : Lifecycle → TaskState
  | .complete .. => .completed
  | .completeJson .. => .completed
  | .fail _ => .failed
  | .reject _ => .rejected
  | .requestInput _ => .inputRequired
  | .requestAuth .. => .authRequired
  | .respond _ => .completed
  | .replyDirectly _ => .completed

/-- The parts of the message of a lifecycle method. -/
def Lifecycle.parts : Lifecycle → Option (List Part)
  | .complete .. => none
  | .completeJson .. => none
  | .fail reason => some [{ text := some reason }]
  | .reject reason => some [{ text := some ((reason.filter (· ≠ "")).getD "Task rejected.") }]
  | .requestInput question => some [{ text := some question }]
  | .requestAuth details authData => some (TaskContext.authParts details authData)
  | .respond text => some (text.map fun t => { text := some t : Part }).toList
  | .replyDirectly text => some [{ text := some text }]

/-- The task is as the lifecycle method `choice` leaves it, with the writes `es` before. -/
structure Decided (taskId : TaskId) (contextId : Option ContextId) (init : List Artifact)
    (es : List (ArtifactWrite Artifact)) (choice : Lifecycle) (task : Task) : Prop where
  state : task.status.state = choice.state
  message : ∃ messageId, task.status.message = choice.parts.map fun parts =>
    { role := .agent, parts, messageId, taskId, contextId := contextId.getD "" }
  artifacts : task.artifacts = applyWrites init (es ++ choice.ownWrites)

/-- A cancellation is delivered only after a commit that has ended the task, and the handler
is started. -/
def EndedFirst {β : Type} (e : Op β) (w : World) : Prop :=
  match e with
  | .await (.committed _ args) => w.interrupted = true →
    ∃ st, args.state = some st ∧ st.isTerminal = true
  | .await _ => w.interrupted = false
  -- the adapter asks before it has written anything
  | .isCancelled => w.written = [] → w.cancelled = false
  | _ => True

/-! ### Writes that nothing disturbs -/

/-- Nobody else writes the task, and no cancellation is delivered before it has ended. -/
structure Undisturbed (T : Setting) : Prop where
  alone : T.Alone
  plain : ∀ w, T.ok (.await .plain) w → w.interrupted = false
  merged : ∀ site args row w, T.ok (.await (.merged site args row)) w → w.interrupted = false
  committed : ∀ site args w, T.ok (.await (.committed site args)) w → w.interrupted = true →
    ∃ st, args.state = some st ∧ st.isTerminal = true

/-- The stored row takes the update `args`. -/
def TaskData.Accepts (T : Setting) (args : UpdateArgs Ref) (d : TaskData) : Prop :=
  ∃ row, d.row = some row ∧ (∀ n, args.expectedVersion = some n → n = row.version) ∧
    terminalGuard T.taskId row.task.status.state args.state = none

/-- A call that was interrupted after its commit had ended the task. -/
structure CutShort (C : Nat → TaskData → Prop) (args : UpdateArgs Ref) (x : Exc) (d : TaskData) :
    Prop where
  cancelled : x = .cancelled
  terminal : ∃ st, args.state = some st ∧ st.isTerminal = true
  interruptible : d.Interruptible
  committed : ∃ v, C v d

section

variable {T : Setting} {k : StorageKind} {b : SplitStorage} {taskId : TaskId} {site : Site}
  {args : UpdateArgs Ref} {row : Row} {σ : Type} {s : σ} {w : World} {J : TaskData → Prop}
  {C : Nat → TaskData → Prop}

theorem InMemoryStorage.accepts {h : Heap} {now : Timestamp}
    (hver : ∀ n, args.expectedVersion = some n → n = row.version)
    (hguard : terminalGuard taskId row.task.status.state args.state = none) :
    InMemoryStorage.updateTask taskId h (some (row.task, row.version)) args now =
      .ok (InMemoryStorage.updatedTask h row.task args now, row.version + 1) := by
  have hfilter : args.expectedVersion.filter (· ≠ row.version) = none :=
    filter_ne_eq_none.mpr hver
  simp only [InMemoryStorage.updateTask, hfilter, hguard]

theorem SplitStorage.reads {h : Heap} {now : Timestamp}
    (hver : ∀ n, args.expectedVersion = some n → n = row.version)
    (hguard : terminalGuard taskId row.task.status.state args.state = none) :
    ∃ h' values, b.backend.updateRead taskId h (some row) args now = (h', .ok (row, values)) := by
  have hfilter : args.expectedVersion.filter (· ≠ row.version) = none :=
    filter_ne_eq_none.mpr hver
  cases b with
  | sql =>
    refine ⟨(mergeValues h row.task args now).1, (mergeValues h row.task args now).2, ?_⟩
    show SQLStorageBase.updateRead taskId h (some row) args now = _
    simp only [SQLStorageBase.updateRead, hfilter, hguard]
  | redis => exact ⟨_, _, rfl⟩

/-- A guarded write that finds the row it was merged with commits. -/
theorem SplitStorage.commits_unchanged (attempt : Nat) (values : Values)
    (hver : ∀ n, args.expectedVersion = some n → n = row.version)
    (hguard : terminalGuard taskId row.task.status.state args.state = none) :
    ∃ row', b.backend.updateWrite taskId (some row) args attempt row values = .committed row' := by
  cases b with
  | sql =>
    simp [SplitStorage.backend, SQLStorageBase.backend, SQLStorageBase.updateWrite, Option.filter]
  | redis =>
    have hexpected : args.expectedVersion.getD row.version = row.version := by
      rcases hv : args.expectedVersion with _ | n
      · rfl
      · exact hver n hv
    have hfilter : (args.state.filter fun _ => row.task.status.state.isTerminal) = none := by
      rcases hs : args.state with _ | state
      · rfl
      · simpa [hs, terminalGuard, Option.filter] using hguard
    simp [SplitStorage.backend, RedisStorage.backend, RedisStorage.updateWrite,
      RedisStorage.updateTaskLua, hexpected, hfilter]

theorem Undisturbed.turnSetting (hT : Undisturbed T) : TurnSetting T k where
  writes := fun args h => absurd h (hT.alone.writes args)
  lost := by
    intro b ws second args row w _ hlost hexact hlive
    obtain ⟨hok, hi⟩ := hlost.interrupted hT.alone hexact hlive
    have hfalse : w.interrupted = false := hT.merged _ _ _ w hok
    simp [hfalse] at hi
  committed := fun _ _ args w hok hi => Or.inl (hT.committed _ args w hok hi)

/-- An await that does not deliver the cancellation. -/
theorem wp_undelivered {Q : Except Exc Unit → σ → World → Prop} {pt : AwaitPoint}
    (hpt : ∀ w, T.ok (.await pt) w → w.interrupted = false) (hJ : Kept T J) (hw : J w.data)
    (hQ : ∀ w, J w.data → Q (.ok ()) s w) : (checkpoint pt : TaskM σ Unit).wp T.system Q s w := by
  refine wp_checkpoint hJ hw (Kept.const False) (fun w _ hok hi => ?_) hQ
    fun _ h => absurd h not_false
  have hfalse : w.interrupted = false := hpt w hok
  simp [hfalse] at hi

theorem kept_cutShort (hC : ∀ v, Kept T (C v)) (x : Exc) : Kept T (CutShort C args x) := by
  intro d d' hstep hd
  obtain ⟨v, hv⟩ := hd.committed
  exact ⟨hd.cancelled, hd.terminal, kept_interruptible d d' hstep hd.interruptible,
    v, hC v d d' hstep hv⟩

/-- An await after the commit. -/
theorem wp_afterCommit (hT : Undisturbed T) {Q : Except Exc Unit → σ → World → Prop}
    (hC : ∀ v, Kept T (C v)) {v : Nat} (hw : C v w.data) (hQ : ∀ w, C v w.data → Q (.ok ()) s w)
    (hx : ∀ w, CutShort C args .cancelled w.data → Q (.error .cancelled) s w) :
    (checkpoint (.committed site args) : TaskM σ Unit).wp T.system Q s w :=
  wp_checkpoint (hC v) hw (kept_cutShort hC .cancelled)
    (fun w hw hok hi => ⟨rfl, hT.committed site args w hok hi, World.interruptible hi, v, hw⟩) hQ hx

/-- The storage has answered, and `C` holds. -/
def Unraised {α : Type} (C : α → TaskData → Prop) : Except StorageError α → TaskData → Prop
  | .ok a, d => C a d
  | .error _, _ => False

/-- The row is committed, and `C` holds. -/
def Committing (C : Nat → TaskData → Prop) : WriteOutcome → TaskData → Prop
  | .committed row', d => C row'.version d
  | _, _ => False

/-- `update_task` of the storage. -/
theorem wp_updateTask_commits (hT : Undisturbed T) (hJ : Kept T J) (hC : ∀ v, Kept T (C v))
    (hnd : (refs args.artifacts).Nodup) (haccepts : ∀ d, J d → d.Accepts T args)
    (hcommit : ∀ d row now, J d → d.row = some row →
      C (row.version + 1) (d.commit k row args now))
    (hw : J w.data) : (updateTask k site args : TaskM σ Nat).wp T.system (CallOutcome C (CutShort C args) s) s w := by
  cases k with
  | memory =>
    refine Act.wp_bind (wp_op hJ hw (K := Unraised C) ?_ (fun _ _ => trivial) ?_ ?_)
    · rintro (e | v)
      · exact Kept.const False
      · exact hC v
    · intro w w' out hw _ hperf
      obtain ⟨row, hrow, hver, hguard⟩ := haccepts _ hw
      have hrow' : w.row = some row := hrow
      simp only [World.perform, hrow', InMemoryStorage.accepts hver hguard, Option.some_inj,
        Prod.mk.injEq] at hperf
      obtain ⟨rfl, rfl⟩ := hperf
      exact hcommit w.data row w.ambient.now hw hrow
    · rintro (e | v) w hw
      · exact absurd hw not_false
      · exact wp_return (hC v) hw fun w hw => ⟨rfl, hw⟩
  | split b =>
    obtain ⟨n, hn⟩ := maxAttempts_pos args
    show (updateLoop b site args (maxAttempts args) 0 : TaskM σ Nat).wp _ _ _ _
    rw [hn]
    refine Act.wp_bind (wp_undelivered hT.plain hJ hw fun w hw => ?_)
    -- the row that is read stays, as nobody else writes it
    refine Act.wp_bind (wp_op hJ hw
      (K := Unraised fun out d => Merged T b args J out.1 out.2 d ∧ d.row = some out.1) ?_
      (fun _ _ => trivial) ?_ ?_)
    · rintro (e | ⟨row, values⟩)
      · exact Kept.const False
      · refine (Merged.kept hJ row values).and fun d d' hstep hd => ?_
        rw [hstep.row_alone hT.alone]
        exact hd
    · intro w w' out hw _ hperf
      obtain ⟨row, hrow, hver, hguard⟩ := haccepts _ hw
      have hrow' : w.row = some row := hrow
      obtain ⟨h', values, hread⟩ : ∃ h' values, b.backend.updateRead T.taskId w.heap (some row) args
          w.ambient.now = (h', .ok (row, values)) := SplitStorage.reads hver hguard
      rw [← hrow'] at hread
      simp only [World.perform, hread, Option.some_inj, Prod.mk.injEq] at hperf
      obtain ⟨rfl, rfl⟩ := hperf
      refine ⟨(Merged.of_read hw (fun r hr n hn => ?_) hread).2, hrow⟩
      obtain rfl : row = r := Option.some_inj.mp (hrow'.symm.trans hr)
      exact (hver n hn).le
    rintro (e | ⟨row, values⟩) w hw
    · exact absurd hw not_false
    have hkept : Kept T fun d => Merged T b args J row values d ∧ d.row = some row := by
      refine (Merged.kept hJ row values).and fun d d' hstep hd => ?_
      rw [hstep.row_alone hT.alone]
      exact hd
    refine Act.wp_bind (wp_undelivered (hT.merged _ _ _) hkept hw fun w hw => ?_)
    refine Act.wp_bind (wp_op hkept hw (K := Committing C) ?_ (fun _ _ => trivial) ?_ ?_)
    · rintro (row' | _ | e)
      · exact hC _
      · exact Kept.const False
      · exact Kept.const False
    · intro w w' out hw _ hperf
      obtain ⟨d₀, now, hd₀, hdata, -⟩ := hw.1.merged
      obtain ⟨cur, hcur, hver, hguard⟩ := haccepts _ hd₀
      obtain rfl : cur = row := by
        have hrow : d₀.row = some row := (congrArg TaskData.row hdata).symm.trans hw.2
        exact Option.some_inj.mp (hcur.symm.trans hrow)
      have hrow' : w.row = some cur := hw.2
      obtain ⟨row', hwrite⟩ := SplitStorage.commits_unchanged (b := b) 0 values hver hguard
      rw [← hrow'] at hwrite
      simp only [World.perform, hwrite, Option.some_inj, Prod.mk.injEq] at hperf
      obtain ⟨rfl, rfl⟩ := hperf
      exact hw.1.commit hnd (fun d row now hd hrow _ => hcommit d row now hd hrow) hwrite
    rintro (row' | _ | e) w hw
    · refine Act.wp_bind (wp_afterCommit hT hC hw (fun w hw => ?_) fun w hw => ⟨rfl, hw⟩)
      exact wp_return (hC _) hw fun w hw => ⟨rfl, hw⟩
    · exact absurd hw not_false
    · exact absurd hw not_false

theorem wp_notify_commits (hT : Undisturbed T) (hC : ∀ v, Kept T (C v)) {v : Nat}
    (hw : C v w.data) :
    (Emitter.notify site args : TaskM σ Unit).wp T.system
      (UpdateEnds (fun _ w => C v w.data) (fun x w => CutShort C args x w.data) s) s w := by
  have hx : ∀ w : World, CutShort C args .cancelled w.data →
      s = s ∧ CutShort C args .cancelled w.data := fun _ hw => ⟨rfl, hw⟩
  rw [Emitter.notify]
  split
  · exact wp_return (hC v) hw fun w hw => ⟨rfl, hw⟩
  · refine Act.wp_bind (wp_afterCommit hT hC hw (fun w hw => ?_) hx)
    refine Act.wp_bind (wp_afterCommit hT hC hw (fun w hw => ?_) hx)
    refine Act.wp_bind (wp_afterCommit hT hC hw (fun w hw => ?_) hx)
    refine Act.wp_bind (wp_afterCommit hT hC hw (fun w hw => ?_) hx)
    exact wp_afterCommit hT hC hw (fun w hw => ⟨rfl, hw⟩) hx

/-- `update_task` of the emitter: the write commits at its first attempt. -/
theorem wp_commits (hT : Undisturbed T) (hJ : Kept T J) (hC : ∀ v, Kept T (C v))
    (hnd : (refs args.artifacts).Nodup) (haccepts : ∀ d, J d → d.Accepts T args)
    (hcommit : ∀ d row now, J d → d.row = some row →
      C (row.version + 1) (d.commit k row args now))
    (hw : J w.data) :
    (Emitter.updateTask k site args : TaskM σ Nat).wp T.system
      (CallOutcome C (CutShort C args) s) s w := by
  refine Act.wp_bind (Act.wp_mono
    (wp_updateTask_commits hT hJ hC hnd haccepts hcommit hw) ?_)
  rintro (x | v) s' w ⟨rfl, hw⟩
  · exact ⟨rfl, hw⟩
  refine Act.wp_bind (Act.wp_mono (wp_notify_commits hT hC hw) ?_)
  rintro (x | _) s' w ⟨rfl, hw⟩
  · exact ⟨rfl, hw⟩
  · exact wp_return (hC v) hw fun w hw => ⟨rfl, hw⟩

end

/-! ### The calls before the last one -/

/-- How a call ends that nothing disturbs: an artifact without content is refused. -/
def CallReturns (T : Setting) (init : List Artifact) (new : List (ArtifactWrite Artifact))
    (ctx : TaskContext) (r : Except Exc Unit) (ctx' : TaskContext) (w : World) : Prop :=
  TurnOpen T init ctx' w.data ∧ match r with
    | .ok _ => ctx'.emitted = ctx.emitted ++ new
    | .error _ => ctx'.emitted = ctx.emitted

section

variable {T : Setting} {k : StorageKind} {taskId : TaskId} {contextId : Option ContextId}
  {init : List Artifact} {es vals : List (ArtifactWrite Artifact)} {ws own : List (ArtifactWrite Ref)}
  {v : Option Nat} {args : UpdateArgs Ref} {ctx : TaskContext} {w : World} {d : TaskData}
  {J : TaskData → Prop} {C : Nat → TaskData → Prop}

theorem Pending.accepts (hT : T.Alone) (hd : Pending T init es ws own vals args.expectedVersion d) :
    d.Accepts T args := by
  obtain ⟨row, hrow, hlive⟩ := hd.buffered.live hT
  refine ⟨row, hrow, fun n hn => ?_, ?_⟩
  · exact Option.some_inj.mp (hn.symm.trans (hd.exact hT row hrow))
  · rcases args.state with _ | st <;> simp [terminalGuard, hlive]

/-- `_versioned_update`, with the version that is stored. -/
theorem wp_versionedUpdate_commits (hT : Undisturbed T) (args : UpdateArgs Ref) (hJ : Kept T J)
    (hC : ∀ v, Kept T (C v)) (hnd : (refs args.artifacts).Nodup)
    (haccepts : ∀ d, J d → d.Accepts T { args with expectedVersion := ctx.version })
    (hcommit : ∀ d row now, J d → d.row = some row →
      C (row.version + 1) (d.commit k row { args with expectedVersion := ctx.version } now))
    (hw : J w.data) :
    (TaskContext.versionedUpdate k taskId ws args).wp T.system (fun r ctx' w => match r with
      | .ok _ => ∃ n, ctx' = { ctx with version := some n } ∧ C n w.data
      | .error x => ctx' = ctx ∧ CutShort C args x w.data) ctx w := by
  refine Act.wp_bind (wp_get hJ hw fun w hw => ?_)
  refine Act.wp_tryCatch (Act.wp_bind (Act.wp_mono
    (wp_commits hT hJ hC hnd haccepts hcommit hw) ?_))
  rintro (x | n) ctx' w ⟨rfl, hw⟩
  · obtain rfl := hw.cancelled
    refine wp_raise (kept_cutShort hC _) hw fun w hw => ⟨rfl, rfl, hw.terminal, ?_, hw.committed⟩
    exact hw.interruptible
  · exact wp_modify (hC n) hw fun w hw => ⟨n, rfl, hw⟩

/-- A write without a lifecycle call is made. -/
theorem wp_writeOrSkip_undisturbed (hT : Undisturbed T) (args : UpdateArgs Ref)
    (hargs : args.artifacts = ws) (hstate : args.state = none) (hpending : ctx.pending = [])
    (hw : TurnOpen T init { ctx with pending := ws } w.data) :
    (TaskContext.writeOrSkip k taskId ws args).wp T.system (fun r ctx' w =>
      r = .ok true ∧ ctx'.emitted = ctx.emitted ∧ TurnOpen T init ctx' w.data) ctx w := by
  have hrunning : ctx.turnEnded = false := hw.running
  have hk : TurnSetting T k := hT.turnSetting
  refine Act.wp_tryCatch (Act.wp_bind (Act.wp_mono (wp_versionedUpdate_commits hT args
    (J := Pending T init ctx.emitted ws [] [] ctx.version)
    (C := Committed T init ctx.emitted ws [] [] none) (kept_pending hk) (kept_committed hk none) ?_
    (fun d hd => hd.accepts hT.alone) ?_ hw.pending) ?_))
  · rw [hargs]
    exact hw.buffered.nodup
  · intro d row now hd hrow
    have hcommitted : Committed T init ctx.emitted ws [] [] args.state (row.version + 1)
        (d.commit k row { args with expectedVersion := ctx.version } now) := by
      refine Pending.commit ?_ hd hrow
      simpa using hargs
    simpa only [hstate] using hcommitted
  · rintro (x | _) ctx' w hw
    · obtain ⟨st, hst, -⟩ := hw.2.terminal
      simp [hstate] at hst
    · obtain ⟨n, rfl, hw⟩ := hw
      exact wp_return (kept_committed hk none n) hw
        fun w hw => ⟨rfl, rfl, hw.turnOpen hrunning hpending⟩

theorem wp_flushArtifacts_undisturbed (hT : Undisturbed T) (hw : TurnOpen T init ctx w.data) :
    (TaskContext.flushArtifacts k taskId).wp T.system (fun r ctx' w =>
      r = .ok () ∧ ctx'.emitted = ctx.emitted ∧ TurnOpen T init ctx' w.data) ctx w := by
  have hk : TurnSetting T k := hT.turnSetting
  refine Act.wp_bind (wp_takePending (kept_turnOpen hk) hw fun w hw => ?_)
  refine Act.wp_bind (Act.wp_mono
    (wp_writeOrSkip_undisturbed hT { artifacts := ctx.pending } rfl rfl rfl hw) ?_)
  rintro r ctx' w ⟨rfl, hemitted, hw⟩
  exact wp_touchFlush (kept_turnOpen hk) hw fun n w hw => ⟨rfl, hemitted, hw.flushed n⟩

theorem wp_sendEvent_undisturbed {σ : Type} {s : σ} {Q : Except Exc Unit → σ → World → Prop}
    {K : TaskData → Prop} (hT : Undisturbed T) (event : StreamEvent Ref) (hJ : Kept T J)
    (hw : J w.data) (hK : Kept T K)
    (h : ∀ d, J d → K { d with published := d.published ++ [event.read d.heap] })
    (hQ : ∀ w, K w.data → Q (.ok ()) s w) :
    (Emitter.sendEvent false event : TaskM σ Unit).wp T.system Q s w := by
  refine Act.wp_bind (wp_publish event hJ hw hK h fun id w hw => ?_)
  refine Act.wp_tryCatch (Act.wp_bind (wp_undelivered hT.plain hK hw fun w hw => ?_))
  exact wp_published id hK hw hQ

theorem wp_emitStatus_undisturbed (hT : Undisturbed T) (state : TaskState)
    (message : Option Message) (hw : TurnOpen T init ctx w.data) :
    (TaskContext.emitStatus taskId contextId false state message false).wp T.system
      (fun r ctx' w => r = .ok () ∧ ctx' = ctx ∧ TurnOpen T init ctx' w.data) ctx w := by
  have hk : TurnSetting T .memory := hT.turnSetting
  refine Act.wp_bind (wp_ask (kept_turnOpen hk) hw (fun _ _ => trivial) (fun _ => ⟨_, rfl⟩) ?_)
  intro timestamp w hw
  exact wp_sendEvent_undisturbed hT _ (kept_turnOpen hk) hw (kept_turnOpen hk)
    (fun d hd => hd.publish rfl) fun w hw => ⟨rfl, rfl, hw⟩

/-- `send_status` -/
theorem wp_sendStatus_undisturbed (hT : Undisturbed T) (message : Option String)
    (hw : TurnOpen T init ctx w.data) :
    (TaskContext.sendStatus k taskId contextId message).wp T.system (fun r ctx' w =>
      r = .ok () ∧ ctx'.emitted = ctx.emitted ∧ TurnOpen T init ctx' w.data) ctx w := by
  have hk : TurnSetting T k := hT.turnSetting
  refine Act.wp_bind (wp_get (kept_turnOpen hk) hw fun w hw => ?_)
  dsimp only
  rw [if_neg (by simp [hw.running])]
  cases message with
  | none =>
    refine Act.wp_mono (wp_emitStatus_undisturbed hT _ _ hw) ?_
    rintro r ctx' w ⟨rfl, rfl, hw'⟩
    exact ⟨rfl, rfl, hw'⟩
  | some text =>
    refine Act.wp_bind (wp_makeAgentMessage _ (kept_turnOpen hk) hw fun statusMsg w hw => ?_)
    refine Act.wp_bind (wp_takePending (kept_turnOpen hk) hw fun w hw => ?_)
    refine Act.wp_bind (Act.wp_mono (wp_writeOrSkip_undisturbed hT
      { statusMessage := some statusMsg, artifacts := ctx.pending } rfl rfl rfl hw) ?_)
    rintro r ctx' w ⟨rfl, hemitted, hw⟩
    refine Act.wp_bind (wp_touchFlush (kept_turnOpen hk) hw fun n w hw => ?_)
    refine Act.wp_mono (wp_emitStatus_undisturbed hT _ _ (hw.flushed n)) ?_
    rintro r ctx'' w ⟨rfl, rfl, hw'⟩
    exact ⟨rfl, hemitted, hw'⟩

/-- `emit_artifact` -/
theorem wp_emitArtifact_undisturbed (hT : Undisturbed T) (a : EmitArgs)
    (hw : TurnOpen T init ctx w.data) :
    (TaskContext.emitArtifact k taskId contextId a).wp T.system
      (CallReturns T init [⟨a.artifact, a.append⟩] ctx) ctx w := by
  have hk : TurnSetting T k := hT.turnSetting
  refine Act.wp_bind (wp_get (kept_turnOpen hk) hw fun w hw => ?_)
  dsimp only
  rw [if_neg (by simp [hw.running])]
  split
  · exact wp_raise (kept_turnOpen hk) hw fun w hw => ⟨hw, rfl⟩
  refine Act.wp_bind (wp_newArtifact hk a.artifact hw fun r w hw hr => ?_)
  refine Act.wp_bind (wp_sendEvent_undisturbed hT _ ((kept_turnOpen hk).and kept_newArtifact)
    ⟨hw, hr⟩ (kept_turnOpen hk) (fun d hd => hd.1.emit hd.2 taskId _ _ _) fun w hw => ?_)
  refine Act.wp_bind (wp_modify (kept_turnOpen hk) hw fun w hw => ?_)
  -- `_maybe_flush`
  refine Act.wp_bind (wp_get (kept_turnOpen hk) hw fun w hw => ?_)
  dsimp only
  split
  · exact wp_return (kept_turnOpen hk) hw fun w hw => ⟨hw, rfl⟩
  · refine Act.wp_bind (wp_ask (kept_turnOpen hk) hw (fun _ _ => trivial) (fun _ => ⟨_, rfl⟩) ?_)
    intro now w hw
    dsimp only
    split
    · refine Act.wp_mono (wp_flushArtifacts_undisturbed hT hw) ?_
      rintro r ctx' w ⟨rfl, hemitted, hw⟩
      exact ⟨hw, hemitted⟩
    · exact wp_return (kept_turnOpen hk) hw fun w hw => ⟨hw, rfl⟩

/-- A call that does not end the turn. -/
theorem wp_runCall_undisturbed (hT : Undisturbed T) {c : HandlerCall}
    (hc : c.isLifecycle = false) (hw : TurnOpen T init ctx w.data) :
    (TaskContext.runCall k taskId contextId c).wp T.system (CallReturns T init c.writes ctx)
      ctx w := by
  have hk : TurnSetting T k := hT.turnSetting
  cases c with
  | emitArtifact a => exact wp_emitArtifact_undisturbed hT a hw
  | sendStatus message =>
    refine Act.wp_mono (wp_sendStatus_undisturbed hT message hw) ?_
    rintro r ctx' w ⟨rfl, hemitted, hw⟩
    exact ⟨hw, by simpa [HandlerCall.writes] using hemitted⟩
  | wait =>
    exact wp_undelivered hT.plain (kept_turnOpen hk) hw
      fun w hw => ⟨hw, by simp [HandlerCall.writes]⟩
  | lifecycle l => cases hc

end

/-! ### The last call -/

/-- The stored task satisfies `P`. -/
def TaskData.Holds (P : Task → Prop) (d : TaskData) : Prop :=
  ∃ row, d.row = some row ∧ P row.task

/-- How the last call of a handler ends: it has returned, or was interrupted after its commit
had ended the task. -/
def LastCall (P : Task → Prop) (state : TaskState) (ctx : TaskContext) (r : Except Exc Unit)
    (ctx' : TaskContext) (w : World) : Prop :=
  ctx'.emitted = ctx.emitted ∧ w.data.Holds P ∧
    (r = .ok () ∧ ctx'.turnEnded = true ∨ r = .error .cancelled ∧ state.isTerminal = true)

section

variable {T : Setting} {k : StorageKind} {taskId : TaskId} {contextId : Option ContextId}
  {init : List Artifact} {vals : List (ArtifactWrite Artifact)} {ctx : TaskContext} {w : World}
  {d : TaskData} {J : TaskData → Prop} {P : Task → Prop}

theorem kept_holds (hT : T.Alone) : Kept T (TaskData.Holds P) := by
  rintro d d' hstep ⟨row, hrow, hP⟩
  exact ⟨row, (hstep.row_alone hT).trans hrow, hP⟩

/-- The events before the final one say nothing of the stored task. -/
theorem wp_sendEvents_keep {Q : Except Exc Unit → TaskContext → World → Prop} (hJ : Kept T J)
    (hpublish : ∀ d event, J d → J { d with published := d.published ++ [event] })
    (events : List (StreamEvent Ref)) (hw : J w.data) (hQ : ∀ w, J w.data → Q (.ok ()) ctx w) :
    (TaskContext.sendEvents events).wp T.system Q ctx w := by
  induction events generalizing w with
  | nil => exact wp_return hJ hw hQ
  | cons event events ih =>
    exact Act.wp_bind (wp_sendEvent true event hJ hw hJ (fun d hd => hpublish d _ hd)
      (fun w hw => ih hw) fun h => nomatch h)

/-- `_terminal_transition`: the write is made, and whatever cancellation comes after it leaves
what was written. -/
theorem wp_terminalTransition_undisturbed (hT : Undisturbed T) (state : TaskState)
    (message : Option Message) (own : List (ArtifactWrite Ref)) (taskMetadata : TaskMetadata)
    (preEvents : List (StreamEvent Ref)) (hw : TurnOpen T init ctx w.data)
    (hown : OwnWrites ctx.pending own vals w.data)
    (hP : ∀ task : Task, task.status.state = state → task.status.message = message →
      task.artifacts = applyWrites init (ctx.emitted ++ vals) → P task) :
    (TaskContext.terminalTransition k taskId contextId state message own taskMetadata
      preEvents).wp T.system (LastCall P state ctx) ctx w := by
  have hk : TurnSetting T k := hT.turnSetting
  have hkept : Kept T fun d => TurnOpen T init ctx d ∧ OwnWrites ctx.pending own vals d :=
    (kept_turnOpen hk).and kept_ownWrites
  refine Act.wp_bind (wp_get hkept ⟨hw, hown⟩ fun w hw => ?_)
  dsimp only
  rw [if_neg (by simp [hw.1.running])]
  refine Act.wp_bind (wp_takePending hkept hw fun w hw => ?_)
  have hpending : Pending T init ctx.emitted ctx.pending own vals ctx.version w.data :=
    ⟨hw.1.buffered, hw.2, hw.1.announced, hw.1.seen, hw.1.exact⟩
  refine Act.wp_bind (Act.wp_tryCatch (Act.wp_mono (wp_versionedUpdate_commits hT
    { state := some state, artifacts := ctx.pending ++ own, statusMessage := message,
      messages := message.toList, taskMetadata }
    (J := Pending T init ctx.emitted ctx.pending own vals ctx.version)
    (C := fun _ => TaskData.Holds P) (kept_pending hk) (fun _ => kept_holds hT.alone)
    hw.2.nodup (fun d hd => hd.accepts hT.alone) ?_ hpending) ?_))
  · intro d row now hd hrow
    refine ⟨_, rfl, hP _ ?_ ?_ ?_⟩
    · show (InMemoryStorage.updatedTask ..).status.state = state
      rw [updatedTask_status]
      rfl
    · show (InMemoryStorage.updatedTask ..).status.message = message
      rw [updatedTask_status]
      rfl
    · show (InMemoryStorage.updatedTask ..).artifacts = _
      rw [InMemoryStorage.updatedTask_artifacts, resolve_append, applyWrites_append,
        hd.buffered.stored row hrow, hd.own.reads, applyWrites_append]
  rintro (x | _) ctx' w hw
  · obtain ⟨rfl, hw⟩ := hw
    obtain rfl := hw.cancelled
    obtain ⟨st, hst, hterm⟩ := hw.terminal
    obtain rfl := Option.some_inj.mp hst
    obtain ⟨_, hholds⟩ := hw.committed
    refine Act.wp_bind (wp_modify (kept_holds hT.alone) hholds fun w hw => ?_)
    exact wp_raise (kept_holds hT.alone) hw fun w hw => ⟨rfl, hw, Or.inr ⟨rfl, hterm⟩⟩
  · obtain ⟨n, rfl, hw⟩ := hw
    refine Act.wp_bind (wp_modify (kept_holds hT.alone) hw fun w hw => ?_)
    refine Act.wp_bind (wp_sendEvents_keep (kept_holds hT.alone) (fun d _ hd => hd) preEvents hw
      fun w hw => ?_)
    exact wp_emitStatus true state message _ (kept_holds hT.alone) hw (fun d _ _ hd => hd)
      (fun w hw => ⟨rfl, hw, Or.inl ⟨rfl, rfl⟩⟩) fun h => nomatch h

/-- A lifecycle method. -/
theorem wp_runLifecycle_undisturbed (hT : Undisturbed T) (choice : Lifecycle)
    (hw : TurnOpen T init ctx w.data) :
    (TaskContext.runLifecycle k taskId contextId choice).wp T.system
      (LastCall (Decided taskId contextId init ctx.emitted choice) choice.state ctx) ctx w := by
  have hk : TurnSetting T k := hT.turnSetting
  have hplain : ∀ {d : TaskData}, TurnOpen T init ctx d → OwnWrites ctx.pending [] [] d :=
    fun hd => ⟨by simpa using hd.buffered.nodup, rfl, Or.inl rfl⟩
  -- a method that leaves a message
  have hmessage : ∀ (state : TaskState) (parts : List Part), state = choice.state →
      some parts = choice.parts → choice.ownWrites = [] →
      (TaskContext.endWithMessage k taskId contextId state parts).wp T.system
        (LastCall (Decided taskId contextId init ctx.emitted choice) choice.state ctx) ctx w := by
    rintro state parts rfl hparts hwrites
    refine Act.wp_bind (wp_agentMessage _ (kept_turnOpen hk) hw fun messageId w hw => ?_)
    refine wp_terminalTransition_undisturbed hT _ _ [] {} [] hw (hplain hw)
      fun task hstate hmsg hart => ⟨hstate, ⟨messageId, ?_⟩, ?_⟩
    · rw [hmsg, ← hparts]
      rfl
    · rw [hart, hwrites]
  -- a method that adds an artifact
  have hartifact : ∀ artifact : Artifact, choice.state = .completed → choice.parts = none →
      choice.ownWrites = [⟨artifact, false⟩] →
      (TaskContext.completeWith k taskId contextId artifact).wp T.system
        (LastCall (Decided taskId contextId init ctx.emitted choice) choice.state ctx) ctx w := by
    intro artifact hstate hparts hwrites
    refine Act.wp_bind (wp_newArtifact hk artifact hw fun r w hw hr => ?_)
    have hown : OwnWrites ctx.pending [⟨r, false⟩] [⟨artifact, false⟩] w.data := by
      refine ⟨?_, by simp [hr.reads], Or.inr ⟨r, rfl⟩⟩
      rw [refs_append]
      refine List.nodup_append.mpr ⟨hw.buffered.nodup, by simp [refs], ?_⟩
      intro q hq q' hq' heq
      obtain rfl : q' = r := by simpa [refs] using hq'
      exact hr.unused (heq ▸ hq)
    rw [hstate]
    refine wp_terminalTransition_undisturbed hT .completed none [⟨r, false⟩] {} _ hw hown
      fun task hst hmsg hart => ⟨hst.trans hstate.symm, ⟨"", ?_⟩, ?_⟩
    · rw [hmsg, hparts]
      rfl
    · rw [hart, hwrites]
  cases choice with
  | complete text artifactId =>
    cases text with
    | some text => exact hartifact _ rfl rfl rfl
    | none =>
      exact wp_terminalTransition_undisturbed hT .completed none [] {} [] hw (hplain hw)
        fun task hstate hmsg hart => ⟨hstate, ⟨"", hmsg⟩, hart⟩
  | completeJson data artifactId => exact hartifact _ rfl rfl rfl
  | fail reason => exact hmessage _ _ rfl rfl rfl
  | reject reason => exact hmessage _ _ rfl rfl rfl
  | requestInput question => exact hmessage _ _ rfl rfl rfl
  | requestAuth details authData => exact hmessage _ _ rfl rfl rfl
  | respond text => exact hmessage _ _ rfl rfl rfl
  | replyDirectly text =>
    refine Act.wp_bind (wp_agentMessage _ (kept_turnOpen hk) hw fun messageId w hw => ?_)
    exact wp_terminalTransition_undisturbed hT .completed _ [] _ _ hw (hplain hw)
      fun task hstate hmsg hart => ⟨hstate, ⟨messageId, hmsg⟩, hart⟩

/-- A handler, up to its last call. -/
theorem wp_run_undisturbed (hT : Undisturbed T) (h : Cooperative)
    (hw : TurnOpen T init ctx w.data) :
    (h.run k taskId contextId).wp T.system (fun r ctx' w => ∃ es choice, h.Takes es choice ∧
      ctx'.emitted = ctx.emitted ++ es ∧
      w.data.Holds (Decided taskId contextId init ctx'.emitted choice) ∧
      (r = .ok () ∧ ctx'.turnEnded = true ∨ r = .error .cancelled ∧ choice.state.isTerminal = true))
      ctx w := by
  have hk : TurnSetting T k := hT.turnSetting
  induction h generalizing ctx w with
  | ends choice =>
    refine Act.wp_mono (wp_runLifecycle_undisturbed hT choice hw) ?_
    rintro r ctx' w ⟨hemitted, hholds, hr⟩
    refine ⟨[], choice, .ends, by simpa using hemitted, ?_, hr⟩
    rw [hemitted]
    exact hholds
  | call c plain next ih =>
    refine Act.wp_bind (Act.wp_tryCatch (Act.wp_bind
      (Act.wp_mono (wp_runCall_undisturbed hT plain hw) ?_)))
    rintro (x | _) ctx₁ w ⟨hopen, hemitted⟩
    · refine wp_return (kept_turnOpen hk) hopen fun w hopen => ?_
      refine Act.wp_mono (ih (.error x) hopen) ?_
      rintro r ctx₂ w ⟨es, choice, htakes, hes, hrest⟩
      exact ⟨es, choice, .raised htakes, by rw [hes, hemitted], hrest⟩
    · refine wp_return (kept_turnOpen hk) hopen fun w hopen => ?_
      refine Act.wp_mono (ih (.ok ()) hopen) ?_
      rintro r ctx₂ w ⟨es, choice, htakes, hes, hrest⟩
      exact ⟨c.writes ++ es, choice, .call htakes, by rw [hes, hemitted, List.append_assoc], hrest⟩
  | poll next ih =>
    refine Act.wp_bind (wp_isCancelled (kept_turnOpen hk) hw fun cancelled w hw _ _ => ?_)
    refine Act.wp_mono (ih cancelled hw) ?_
    rintro r ctx' w ⟨es, choice, htakes, hrest⟩
    exact ⟨es, choice, .poll htakes, hrest⟩

end

/-! ### The turn -/

/-- The handler has ended with a choice of its, and the task is as that leaves it. -/
structure Chosen (h : Cooperative) (taskId : TaskId) (contextId : Option ContextId)
    (init : List Artifact) (choice : Lifecycle) (ctx : TaskContext) (d : TaskData) : Prop where
  takes : h.Takes ctx.emitted choice
  stored : d.Holds (Decided taskId contextId init ctx.emitted choice)
  -- what was interrupted has ended the task
  finished : ctx.turnEnded = false → choice.state.isTerminal = true

/-- The task group is left, or the turn is over. -/
def TurnLeft (h : Cooperative) (taskId : TaskId) (contextId : Option ContextId)
    (init : List Artifact) (ctx : TaskContext) (d : TaskData) : Prop :=
  ∃ choice, Chosen h taskId contextId init choice ctx d ∧ d.inScope = false

section

variable {T : Setting} {k : StorageKind} {taskId : TaskId} {contextId : Option ContextId}
  {init : List Artifact} {choice : Lifecycle} {h : Cooperative} {ctx : TaskContext} {w : World}
  {d : TaskData}

theorem kept_chosen (hT : T.Alone) : Kept T (Chosen h taskId contextId init choice ctx) :=
  fun d d' hstep hd => ⟨hd.takes, kept_holds hT d d' hstep hd.stored, hd.finished⟩

theorem Chosen.ended (hd : Chosen h taskId contextId init choice ctx d)
    (hrunning : ctx.turnEnded = false) : d.Ended := by
  obtain ⟨row, hrow, hdecided⟩ := hd.stored
  intro row' hrow'
  obtain rfl : row = row' := Option.some_inj.mp (hrow.symm.trans hrow')
  rw [hdecided.state]
  exact hd.finished hrunning

theorem kept_turnLeft (hT : T.Alone) : Kept T (TurnLeft h taskId contextId init ctx) := by
  rintro d d' hstep ⟨choice, hd, hout⟩
  exact ⟨choice, kept_chosen hT d d' hstep hd, hstep.inScope.trans hout⟩

/-- The handler has called a lifecycle method, so `fail` is not called. -/
theorem wp_handle_cooperative (hT : Undisturbed T) (hemitted : ctx.emitted = [])
    (hw : TurnOpen T init ctx w.data) :
    (WorkerAdapter.handle k taskId contextId (h.run k taskId contextId)).wp T.system
      (fun r ctx' w => (∃ choice, Chosen h taskId contextId init choice ctx' w.data) ∧
        (r = .ok () ∨ r = .error .cancelled)) ctx w := by
  refine Act.wp_bind (Act.wp_mono (wp_run_undisturbed hT h hw) ?_)
  rintro r ctx' w ⟨es, choice, htakes, hes, hholds, hr⟩
  have htakes' : h.Takes ctx'.emitted choice := by
    rw [hes, hemitted]
    exact htakes
  rcases hr with ⟨rfl, hended⟩ | ⟨rfl, hterm⟩
  · have hchosen : Chosen h taskId contextId init choice ctx' w.data :=
      ⟨htakes', hholds, fun hrunning => absurd hended (by simp [hrunning])⟩
    refine Act.wp_bind (wp_get (kept_chosen hT.alone) hchosen fun w hw => ?_)
    dsimp only
    rw [if_pos hended]
    exact wp_return (kept_chosen hT.alone) hw fun w hw => ⟨⟨choice, hw⟩, Or.inl rfl⟩
  · exact ⟨⟨choice, htakes', hholds, fun _ => hterm⟩, Or.inr rfl⟩

/-- The task group swallows its cancellation. -/
theorem wp_inTaskGroup_cooperative (hT : Undisturbed T) (hemitted : ctx.emitted = [])
    (hw : TurnOpen T init ctx w.data) :
    (WorkerAdapter.inTaskGroup (WorkerAdapter.handle k taskId contextId
      (h.run k taskId contextId))).wp T.system
      (fun r ctx' w => r = .ok () ∧ TurnLeft h taskId contextId init ctx' w.data) ctx w := by
  have hk : TurnSetting T k := hT.turnSetting
  refine Act.wp_bind (wp_setInScope true (kept_turnOpen hk) hw (fun d hd => hd.scope true) ?_)
  intro w hw _
  refine Act.wp_bind (Act.wp_tryCatch (Act.wp_mono (wp_handle_cooperative hT hemitted hw) ?_))
  rintro r ctx' w ⟨⟨choice, hchosen⟩, hr⟩
  have hkept : Kept T (Chosen h taskId contextId init choice ctx') := kept_chosen hT.alone
  have hleave : ∀ {w : World}, Chosen h taskId contextId init choice ctx' w.data →
      (Act.perform (.setInScope false) : TurnM Unit).wp T.system
        (fun r ctx' w => r = .ok () ∧ TurnLeft h taskId contextId init ctx' w.data) ctx' w :=
    fun hw => wp_setInScope false hkept hw (fun d hd => ⟨hd.takes, hd.stored, hd.finished⟩)
      fun w hw hout => ⟨rfl, choice, hw, hout⟩
  rcases hr with rfl | rfl
  · exact hleave hchosen
  · exact wp_return hkept hchosen fun w hw => hleave hw

/-- The cancel branch does not overwrite the choice: the turn has ended, or the task has. -/
theorem wp_runGroup_cooperative (hT : Undisturbed T) (hemitted : ctx.emitted = [])
    (hw : TurnOpen T init ctx w.data) :
    (WorkerAdapter.runGroup k taskId contextId (h.run k taskId contextId)).wp T.system
      (fun r ctx' w => r = .ok () ∧ TurnLeft h taskId contextId init ctx' w.data) ctx w := by
  refine Act.wp_bind (Act.wp_mono (wp_inTaskGroup_cooperative hT hemitted hw) ?_)
  rintro r ctx' w ⟨rfl, choice, hchosen, hout⟩
  have hkept : Kept T fun d =>
      Chosen h taskId contextId init choice ctx' d ∧ d.inScope = false :=
    (kept_chosen hT.alone).and (kept_inScope false)
  have hend : ∀ {w : World}, Chosen h taskId contextId init choice ctx' w.data ∧
      w.data.inScope = false → (pure () : TurnM Unit).wp T.system (fun r ctx' w =>
        r = .ok () ∧ TurnLeft h taskId contextId init ctx' w.data) ctx' w :=
    fun hw => wp_return hkept hw fun w hw => ⟨rfl, choice, hw.1, hw.2⟩
  refine Act.wp_bind (wp_isCancelled hkept ⟨hchosen, hout⟩ fun cancelled w hw _ _ => ?_)
  cases cancelled with
  | false => exact hend hw
  | true =>
    refine Act.wp_bind (wp_get hkept hw fun w hw => ?_)
    dsimp only
    cases hended : ctx'.turnEnded with
    | true =>
      rw [if_pos rfl]
      exact hend hw
    | false =>
      rw [if_neg (by simp)]
      refine Act.wp_bind (wp_takePending hkept hw fun w hw => ?_)
      refine Act.wp_mono (wp_cancel_ended hkept (fun d hd => ⟨hd.1.ended hended, hd.2⟩) taskId
        contextId _ hw) ?_
      rintro r ctx'' w ⟨rfl, rfl, hw⟩
      exact ⟨rfl, choice, ⟨hw.1.takes, hw.1.stored, hw.1.finished⟩, hw.2⟩

end

/-! ### The run -/

section

variable {cfg : BusConfig} {k : StorageKind} {taskId : TaskId} {contextId : Option ContextId}
  {init : List Artifact} {h : Cooperative} {ctx : TaskContext} {w : World} {d : TaskData}

theorem undisturbed_cancellable : Undisturbed (cancellable cfg taskId EndedFirst) where
  alone := cancellable_alone
  plain := fun _ hok => hok
  merged := fun _ _ _ _ hok => hok
  committed := fun _ _ _ hok => hok

/-- The task waits for its turn. -/
structure Waiting (T : Setting) (init : List Artifact) (d : TaskData) : Prop extends
    Fresh True init d where
  live : d.Live T
  unwritten : d.written = []

theorem DataStep.written {T : Setting} {d' : TaskData} (h : DataStep T d d') :
    d'.written = d.written := by
  cases h <;> rfl

theorem kept_waiting {T : Setting} (hT : Undisturbed T) : Kept T (Waiting T init) :=
  fun d d' hstep hd => ⟨kept_fresh hT.alone (k := .memory) hT.turnSetting d d' hstep hd.toFresh,
    kept_live d d' hstep hd.live, hstep.written.trans hd.unwritten⟩

/-- The transition to working is made. -/
theorem wp_startWorking_undisturbed {T : Setting} (hT : Undisturbed T)
    (hw : Waiting T init w.data) :
    (WorkerAdapter.startWorking k).wp T.system (fun r ctx' w =>
      ctx' = ctx ∧ ∃ n, r = .ok (some n) ∧ Started T init n w.data) ctx w := by
  have hk : TurnSetting T k := hT.turnSetting
  refine Act.wp_tryCatch (Act.wp_bind (Act.wp_mono (wp_commits hT (C := Started T init)
    (kept_waiting hT) (kept_started hk) List.nodup_nil (fun d hd => ?_)
    (fun d row now hd hrow => hd.toFresh.commit hrow now) hw) ?_))
  · obtain ⟨row, hrow, hlive⟩ := hd.live hT.alone
    refine ⟨row, hrow, fun _ h => ?_, by simp [terminalGuard, hlive]⟩
    cases h
  · rintro (x | n) ctx' w ⟨rfl, hw⟩
    · obtain ⟨st, hst, hterm⟩ := hw.terminal
      obtain rfl := Option.some_inj.mp hst
      exact absurd hterm (by decide)
    · exact wp_return (kept_started hk n) hw fun w hw => ⟨rfl, n, rfl, hw⟩

theorem wp_runTurn_cooperative
    (hctx : ctx.turnEnded = false ∧ ctx.pending = [] ∧ ctx.emitted = [])
    (hw : Waiting (cancellable cfg taskId EndedFirst) init w.data) :
    (WorkerAdapter.runTurn k taskId contextId (h.run k taskId contextId)).wp
      (cancellable cfg taskId EndedFirst).system (fun r ctx' w =>
        r = .ok () ∧ TurnLeft h taskId contextId init ctx' w.data) ctx w := by
  obtain ⟨hrunning, hpending, hemitted⟩ := hctx
  have hT : Undisturbed (cancellable cfg taskId EndedFirst) := undisturbed_cancellable
  have hk : TurnSetting (cancellable cfg taskId EndedFirst) k := hT.turnSetting
  -- the handler is started
  refine Act.wp_bind (wp_op (kept_waiting hT) hw
    (K := fun b d => b = false ∧ Waiting (cancellable cfg taskId EndedFirst) init d)
    (fun b => (Kept.const _).and (kept_waiting hT)) (fun _ _ => trivial) ?_ ?_)
  · intro w w' b hw hok hperf
    obtain ⟨rfl, rfl⟩ := Prod.mk.inj (Option.some_inj.mp hperf)
    exact ⟨hok hw.unwritten, hw⟩
  rintro b w ⟨rfl, hw⟩
  refine Act.wp_bind (Act.wp_mono (wp_startWorking_undisturbed hT hw) ?_)
  rintro r ctx' w ⟨rfl, n, rfl, hw⟩
  refine Act.wp_bind (wp_modify (kept_started hk n) hw fun w hw => ?_)
  have hopen : TurnOpen (cancellable cfg taskId EndedFirst) init
      { ctx' with version := some n } w.data := by
    refine ⟨⟨hrunning, ?_⟩, ?_, fun m hm => Option.some_inj.mp hm ▸ hw.seen, hw.exact⟩
    · show Buffered _ init ctx'.emitted ctx'.pending w.data
      rw [hemitted, hpending]
      exact hw.buffered
    · show announced w.data.published = ctx'.emitted
      rw [hemitted]
      exact hw.announced
  refine Act.wp_bind (Act.wp_bind (wp_get (kept_turnOpen hk) hopen fun w hw => ?_))
  dsimp only
  rw [if_neg (by simp [hrunning])]
  refine Act.wp_mono (wp_emitStatus_undisturbed hT .working none hw) ?_
  rintro r ctx'' w ⟨rfl, rfl, hopen⟩
  refine Act.wp_tryCatch (Act.wp_mono (wp_runGroup_cooperative hT hemitted hopen) ?_)
  rintro r ctx'' w ⟨rfl, hleft⟩
  exact ⟨rfl, hleft⟩

theorem wp_runTaskInner_cooperative
    (hctx : ctx.turnEnded = false ∧ ctx.pending = [] ∧ ctx.emitted = [])
    (hw : Waiting (cancellable cfg taskId EndedFirst) init w.data) :
    (WorkerAdapter.runTaskInner k taskId contextId (h.run k taskId contextId)).wp
      (cancellable cfg taskId EndedFirst).system (fun _ ctx' w =>
        TurnLeft h taskId contextId init ctx' w.data) ctx w := by
  refine Act.wp_bind (Act.wp_tryCatch (Act.wp_mono (wp_runTurn_cooperative hctx hw) ?_))
  rintro r ctx' w ⟨rfl, hleft⟩
  refine Act.wp_mono (wp_cleanup_keeps (kept_turnLeft cancellable_alone)
    (fun d hd => hd.choose_spec.2) hleft) ?_
  rintro r ctx'' w ⟨rfl, rfl, hleft⟩
  exact hleft

end

/-- **A choice is kept** if the cancellation is delivered only after it has ended the task: the
turn leaves the task in the state that the handler chose, with its message, and with every
artifact that it has emitted. -/
theorem cooperative_choice_kept (k : StorageKind) (cfg : BusConfig) (taskId : TaskId)
    (contextId : Option ContextId) (h : Cooperative) (ctx ctx' : TaskContext) (r : Except Exc Unit)
    (w w' : World) (row : Row) (hrow : w.row = some row)
    (hlive : row.task.status.state.isTerminal = false) (hout : w.inScope = false)
    (hwritten : w.written = []) (hpublished : w.published = [])
    (hctx : ctx.turnEnded = false ∧ ctx.pending = [] ∧ ctx.emitted = [])
    (hrun : (cancellable cfg taskId EndedFirst).system.Reaches
      (WorkerAdapter.runTaskInner k taskId contextId (h.run k taskId contextId) ctx, w)
      (.ret (r, ctx'), w')) :
    ∃ row' choice, w'.row = some row' ∧ h.Takes ctx'.emitted choice ∧
      Decided taskId contextId row.task.artifacts ctx'.emitted choice row'.task := by
  have hwaiting : Waiting (cancellable cfg taskId EndedFirst) row.task.artifacts w.data := by
    refine ⟨⟨⟨fun row₀ hrow₀ => ?_, fun _ _ _ => trivial, hout⟩, ?_⟩, fun _ => ⟨row, hrow, hlive⟩,
      hwritten⟩
    · obtain rfl := Option.some_inj.mp (hrow.symm.trans hrow₀)
      rfl
    · show announced w.published = []
      rw [hpublished]
      rfl
  obtain ⟨choice, hchosen, -⟩ := Prog.wp_sound (wp_runTaskInner_cooperative hctx hwaiting) hrun
  obtain ⟨row', hrow', hdecided⟩ := hchosen.stored
  exact ⟨row', choice, hrow', hchosen.takes, hdecided⟩

/-! ### Three turns -/

/-- A handler that polls once. -/
def reactsWith (choice : Lifecycle) : Cooperative :=
  .poll fun cancelled => .ends (if cancelled then choice else .complete none "answer")

/-- The handler's polls find the request. -/
def RequestFound {β : Type} (e : Op β) (w : World) : Prop :=
  match e with
  | .isCancelled => w.inScope = true → w.cancelled = true
  | _ => True

def requestFound {β : Type} (e : Op β) (w : World) : Bool :=
  match e with
  | .isCancelled => !w.inScope || w.cancelled
  | _ => true

theorem requestFound_sound (β : Type) (e : Op β) (w : World) (h : requestFound e w = true) :
    RequestFound e w := by
  cases e with
  | isCancelled =>
    intro hscope
    have hw : w.inScope = false ∨ w.cancelled = true := by simpa [requestFound] using h
    rcases hw with hw | hw
    · simp [hscope] at hw
    · exact hw
  | _ => trivial

/-- The next await delivers a requested cancellation. -/
def deliver : Move := .ambient ⟨"", 0, "", true, false⟩

/-- From the start of the turn to the first poll of the handler, on SQL. -/
def startOnSql : List Move :=
  List.replicate 14 Move.step ++ [Move.bus .grant, .step, .step]

/-- The cancellation hits `complete` between its merge and its commit. -/
def completeInterrupted : List Move :=
  startOnSql ++ [Move.cancel] ++ List.replicate 4 Move.step ++ [deliver] ++
    List.replicate 21 Move.step ++ [Move.bus .grant] ++ List.replicate 5 Move.step

/-- The cancellation hits `request_input` in the first hook after its commit. -/
def pauseInterrupted : List Move :=
  List.replicate 10 Move.step ++
    [Move.bus .grant, .step, .step, .cancel, .step, .step, .step, deliver] ++
    List.replicate 15 Move.step ++ [Move.bus .grant] ++ List.replicate 4 Move.step

/-- A choice is overwritten by canceled, on SQL before its commit and in memory after it. -/
theorem choice_overwritten :
    (∃ ctx' w' row', (cancellable ⟨1, 1, 60⟩ "t" RequestFound).system.Reaches
      (WorkerAdapter.runTaskInner (.split .sql) "t" (some "c")
        ((reactsWith (.complete (some "partial") "answer")).run (.split .sql) "t" (some "c")) {},
        World.holding workingTask 1) (.ret (.ok (), ctx'), w') ∧
      w'.row = some row' ∧ row'.task.status.state = .canceled ∧ row'.task.artifacts = []) ∧
    ∃ ctx' w' row', (cancellable ⟨1, 1, 60⟩ "t" RequestFound).system.Reaches
      (WorkerAdapter.runTaskInner .memory "t" (some "c")
        ((reactsWith (.requestInput "?")).run .memory "t" (some "c")) {},
        World.holding workingTask 1) (.ret (.ok (), ctx'), w') ∧
      w'.row = some row' ∧ row'.task.status.state = .canceled := by
  constructor
  · have hmoves : ∀ m ∈ completeInterrupted,
        (cancellable ⟨1, 1, 60⟩ "t" RequestFound).Allows m := by
      simp [completeInterrupted, startOnSql, deliver, allows_step, allows_ambient, allows_cancel,
        allows_bus, cancellable]
    obtain ⟨ctx', w', hrun, hcheck⟩ := reaches_of_execute requestFound requestFound_sound hmoves
      (p := WorkerAdapter.runTaskInner (.split .sql) "t" (some "c")
        ((reactsWith (.complete (some "partial") "answer")).run (.split .sql) "t" (some "c")) {})
      (w := World.holding workingTask 1)
      (fun _ w => decide (w.row.map (fun row => (row.task.status.state, row.task.artifacts)) =
        some (.canceled, []))) (by decide +kernel)
    obtain ⟨row', hrow', hdone⟩ := Option.map_eq_some_iff.mp (decide_eq_true_eq.mp hcheck)
    exact ⟨ctx', w', row', hrun, hrow', (Prod.mk.inj hdone).1, (Prod.mk.inj hdone).2⟩
  · have hmoves : ∀ m ∈ pauseInterrupted,
        (cancellable ⟨1, 1, 60⟩ "t" RequestFound).Allows m := by
      simp [pauseInterrupted, deliver, allows_step, allows_ambient, allows_cancel, allows_bus,
        cancellable]
    obtain ⟨ctx', w', hrun, hcheck⟩ := reaches_of_execute requestFound requestFound_sound hmoves
      (p := WorkerAdapter.runTaskInner .memory "t" (some "c")
        ((reactsWith (.requestInput "?")).run .memory "t" (some "c")) {})
      (w := World.holding workingTask 1)
      (fun _ w => decide (w.row.map (fun row => row.task.status.state) = some .canceled))
      (by decide +kernel)
    obtain ⟨row', hrow', hdone⟩ := Option.map_eq_some_iff.mp (decide_eq_true_eq.mp hcheck)
    exact ⟨ctx', w', row', hrun, hrow', hdone⟩

def endedFirst {β : Type} (e : Op β) (w : World) : Bool :=
  match e with
  | .await (.committed _ args) => !w.interrupted || args.state.any TaskState.isTerminal
  | .await _ => !w.interrupted
  | .isCancelled => !w.written.isEmpty || !w.cancelled
  | _ => true

theorem endedFirst_sound (β : Type) (e : Op β) (w : World) (h : endedFirst e w = true) :
    EndedFirst e w := by
  cases e with
  | await pt =>
    cases pt with
    | plain => exact (by simpa [endedFirst] using h : w.interrupted = false)
    | merged site args row => exact (by simpa [endedFirst] using h : w.interrupted = false)
    | committed site args =>
      intro hi
      have hw : w.interrupted = false ∨ args.state.any TaskState.isTerminal = true := by
        simpa [endedFirst] using h
      rcases hw with hw | hw
      · simp [hi] at hw
      · rcases hstate : args.state with _ | st
        · simp [hstate] at hw
        · exact ⟨st, rfl, by simpa [hstate] using hw⟩
  | isCancelled =>
    intro hwritten
    have hw : w.written ≠ [] ∨ w.cancelled = false := by simpa [endedFirst] using h
    exact hw.resolve_left fun hne => hne hwritten
  | _ => trivial

/-- The cancellation hits `complete` after its commit. -/
theorem interrupted_choice_kept :
    ∃ ctx' w', (cancellable ⟨1, 1, 60⟩ "t" EndedFirst).system.Reaches
      (WorkerAdapter.runTaskInner (.split .sql) "t" (some "c")
        ((reactsWith (.complete (some "partial") "answer")).run (.split .sql) "t" (some "c")) {},
        World.holding workingTask 1) (.ret (.ok (), ctx'), w') ∧
      ∃ row' choice, w'.row = some row' ∧
        (reactsWith (.complete (some "partial") "answer")).Takes ctx'.emitted choice ∧
        Decided "t" (some "c") [] ctx'.emitted choice row'.task := by
  have hmoves : ∀ m ∈ startOnSql ++ [Move.cancel] ++ List.replicate 6 Move.step ++ [deliver] ++
      List.replicate 11 Move.step, (cancellable ⟨1, 1, 60⟩ "t" EndedFirst).Allows m := by
    simp [startOnSql, deliver, allows_step, allows_ambient, allows_cancel, allows_bus, cancellable]
  obtain ⟨ctx', w', hrun, -⟩ := reaches_of_execute endedFirst endedFirst_sound hmoves
    (p := WorkerAdapter.runTaskInner (.split .sql) "t" (some "c")
      ((reactsWith (.complete (some "partial") "answer")).run (.split .sql) "t" (some "c")) {})
    (w := World.holding workingTask 1) (fun _ _ => true) (by decide +kernel)
  exact ⟨ctx', w', hrun, cooperative_choice_kept (.split .sql) ⟨1, 1, 60⟩ "t" (some "c")
    (reactsWith (.complete (some "partial") "answer")) {} ctx' (.ok ()) (World.holding workingTask 1)
    w' _ rfl rfl rfl rfl rfl ⟨rfl, rfl, rfl⟩ hrun⟩

end A2AKit
