/-
The ladders that end a task.

`cancelTaskInStorage` and `markFailed` write a final state, guarded by the version
they have read.  When that write is refused they reload the task and try once more,
and when the task turns out to be terminal, or the second write is refused as well,
they write only the artifacts they were given.  `forceCancelAfter` and `handleOpInner`
call them and go on to release the task's resources, or to acknowledge the operation.

`LadderRule` collects what an argument about a ladder has to show, exit by exit, and
`LadderRule.wp_cancel` and `LadderRule.wp_markFailed` are the two rules.
-/
import A2AKit.AtomicUpdate

namespace A2AKit

/-- `except Exception` catches it. -/
def Exc.isException : Exc → Bool
  | .cancelled => false
  | _ => true

/-- A message of the agent with one text part. -/
def agentMessage (taskId : TaskId) (contextId : ContextId) (messageId text : String) : Message :=
  { role := .agent, parts := [{ text := some text }], messageId, taskId, contextId }

section Programs

variable {σ : Type}

/-- The artifact-only fallback: failures are logged. -/
def artifactFallback (k : StorageKind) (artifacts : List (ArtifactWrite Ref)) : TaskM σ Unit :=
  if artifacts.isEmpty then pure ()
  else
    tryCatchThe Exc (do
      let _ ← Emitter.updateTask k .fallback { artifacts }
      pure ()) fun x => if x.isException then pure () else throw x

/-- The arguments of a write that ends the task. -/
def endingArgs (state : TaskState) (message : Message) (artifacts : List (ArtifactWrite Ref))
    (version : Option Nat) : UpdateArgs Ref :=
  { state := some state
    statusMessage := some message
    messages := [message]
    artifacts
    expectedVersion := version }

/-- The second attempt of a ladder; whether it has written the state. -/
def reloadAndRetry (k : StorageKind) (state : TaskState) (message : Message)
    (artifacts : List (ArtifactWrite Ref)) : TaskM σ Bool := do
  let version ← getVersion k
  match ← loadTask k .retry with
  | none => do
    artifactFallback k artifacts
    pure false
  | some task =>
    if task.status.state.isTerminal then do
      artifactFallback k artifacts
      pure false
    else
      tryCatchThe Exc (do
        let _ ← Emitter.updateTask k .retry (endingArgs state message artifacts version)
        pure true) fun
        | .storage (.concurrency ..) => do
          artifactFallback k artifacts
          pure false
        | .storage (.taskTerminalState _) => do
          artifactFallback k artifacts
          pure false
        | x => throw x

/-- The final event, if the state was written. -/
def announce (taskId : TaskId) (contextId : ContextId) (state : TaskState) (message : Message)
    (written : Bool) : TaskM σ Unit :=
  if written then do
    let timestamp ← Act.perform .now
    Emitter.sendEvent false
      (.terminalMarker taskId contextId { state, timestamp, message := some message })
  else pure ()

/-- `cancel_task_in_storage` -/
def cancelTaskInStorage (k : StorageKind) (taskId : TaskId) (contextId : Option ContextId)
    (reason : String) (artifacts : List (ArtifactWrite Ref)) : TaskM σ Unit := do
  let version ← getVersion k
  match ← loadTask k .guarded with
  | none => pure ()
  | some task =>
    if task.status.state.isTerminal then pure ()
    else do
      let resolvedCtx := (contextId.filter (· ≠ "")).getD task.contextId
      let cancelMessage := agentMessage taskId resolvedCtx (← Act.perform .uuid) reason
      let written ← tryCatchThe Exc (do
        let _ ← Emitter.updateTask k .guarded
          (endingArgs .canceled cancelMessage artifacts version)
        pure true) fun
        | .storage (.concurrency ..) => reloadAndRetry k .canceled cancelMessage artifacts
        | .storage (.taskTerminalState _) => reloadAndRetry k .canceled cancelMessage artifacts
        | x => throw x
      announce taskId resolvedCtx .canceled cancelMessage written

/-- `_mark_failed` -/
def markFailed (k : StorageKind) (taskId : TaskId) (contextId : Option ContextId)
    (reason : String) (artifacts : List (ArtifactWrite Ref)) : TaskM σ Unit := do
  let errorMessage := agentMessage taskId (contextId.getD "") (← Act.perform .uuid) reason
  let version ← getVersion k
  let written ← tryCatchThe Exc (do
    let _ ← Emitter.updateTask k .guarded (endingArgs .failed errorMessage artifacts version)
    pure true) fun
    | .storage (.taskTerminalState _) => do
      artifactFallback k artifacts
      pure false
    | .storage (.concurrency ..) => reloadAndRetry k .failed errorMessage artifacts
    | x => throw x
  announce taskId (contextId.getD "") .failed errorMessage written

/-- Cancel a loaded task that has not ended. -/
def forceCancel (k : StorageKind) (taskId : TaskId) (task : Task) : TaskM σ Unit :=
  if task.status.state.isTerminal then pure ()
  else cancelTaskInStorage k taskId (some task.contextId)
    "Task was force-canceled after timeout." []

/-- `_force_cancel_after`, once the deadline is over. -/
def forceCancelAfter (k : StorageKind) (taskId : TaskId) : TaskM σ Unit :=
  tryCatchThe Exc (do
    match ← loadTask k .other with
    | none => pure ()
    | some task => do
      forceCancel k taskId task
      Act.perform .busCleanup
      Act.perform (.registryCleanup true)) fun x => if x.isException then pure () else throw x

/-- Mark the task of an operation failed, whatever that raises, and acknowledge it. -/
def markFailedThenAck (k : StorageKind) (taskId : TaskId) (contextId : Option ContextId)
    (reason : String) : TaskM σ Unit := do
  tryCatchThe Exc (markFailed k taskId contextId reason []) fun x =>
    if x.isException then pure ()
    else do
      let _ ← Act.perform (.ack true)
      throw x
  let _ ← Act.perform (.ack true)
  pure ()

/-- What follows an operation that has raised: it goes back to the queue as long as
attempts are left. -/
def handleFailedOp (k : StorageKind) (taskId : TaskId) (contextId : Option ContextId)
    (attempt maxRetries : Nat) : TaskM σ Unit :=
  if attempt < maxRetries then do
    if ← Act.perform (.nack (min (attempt * 2) 30)) then
      markFailedThenAck k taskId contextId "Worker failed to process task"
  else markFailedThenAck k taskId contextId "Worker failed to process task"

/-- `_handle_op_inner` for an operation on a task; what the dispatched operation does to
the task is a matter of the other parties. -/
def handleOpInner (k : StorageKind) (taskId : TaskId) (contextId : Option ContextId)
    (attempt maxRetries : Nat) : TaskM σ Unit :=
  if attempt > maxRetries then
    markFailedThenAck k taskId contextId "Task repeatedly crashed worker processes"
  else do
    if ← Act.perform .dispatch then handleFailedOp k taskId contextId attempt maxRetries
    else if ← Act.perform (.ack false) then handleFailedOp k taskId contextId attempt maxRetries

end Programs

/-! ### The rules -/

/-- The ladder has raised; it is not cancelled, because it runs outside of the cancel
scope. -/
def Aborted (D : TaskData → Prop) : Exc → TaskData → Prop
  | .cancelled => fun _ => False
  | _ => D

/-- What an argument about a ladder with the artifacts `ws` shows: `J` holds until the
ladder commits, `F` when it turns to the fallback, and `D` when it is over. -/
structure LadderRule (T : Setting) (k : StorageKind) (ws : List (ArtifactWrite Ref))
    (J F D : TaskData → Prop) : Prop where
  kept_before : Kept T J
  kept_fallback : Kept T F
  kept_done : Kept T D
  unscoped : ∀ d, J d ∨ F d ∨ D d → d.inScope = false
  nodup : (refs ws).Nodup
  lost : ∀ b row d w site args, k = .split b → args.artifacts = ws → J d →
    d.Exact T args.expectedVersion → w.data = d.merge row args → LostMerge T b site args row w →
    J (d.merge row args)
  lost_fallback : ∀ b row d w, k = .split b → F d → w.data = d.merge row { artifacts := ws } →
    LostMerge T b .fallback { artifacts := ws } row w → F (d.merge row { artifacts := ws })
  commit : ∀ d row now state message version, state.isTerminal = true → state ≠ .completed →
    J d → d.row = some row → D (d.commit k row (endingArgs state message ws version) now)
  commit_fallback : ∀ d row now, F d → d.row = some row →
    D (d.commit k row { artifacts := ws } now)
  ended : ∀ d, J d → d.Ended → F d
  conflict : ∀ w args e, J w.data → w.data.Exact T args.expectedVersion →
    Fails T k .retry args w (.storage e) → F w.data
  fails_fallback : ∀ x w, F w.data → Fails T k .fallback { artifacts := ws } w x →
    Aborted D x w.data
  skip : ∀ d, ws = [] → F d → D d
  gone : ∀ d, J d → d.row = none → D d
  publish : ∀ d event, D d → D { d with published := d.published ++ [event] }

/-- The ladder is over. -/
def Ends {σ α : Type} (D : TaskData → Prop) (s : σ) (r : Except Exc α) (s' : σ) (w : World) :
    Prop :=
  s' = s ∧ match r with
    | .ok _ => D w.data
    | .error x => Aborted D x w.data

/-- What holds when a write that ends the task has raised: `G` if the task was found
terminal, `H` after a conflict. -/
def Refusal (D G H : TaskData → Prop) : Exc → TaskData → Prop
  | .storage (.taskNotFound _) => D
  | .storage (.taskTerminalState _) => G
  | .storage (.concurrency ..) => H
  | .cancelled => fun _ => False
  | .runtime _ => D
  | .group _ => D

section

variable {T : Setting} {k : StorageKind} {ws : List (ArtifactWrite Ref)} {J F D G H : TaskData → Prop}
  {σ : Type} {s : σ} {w : World}

theorem kept_refusal (hD : Kept T D) (hG : Kept T G) (hH : Kept T H) :
    ∀ x, Kept T (Refusal D G H x)
  | .storage (.taskNotFound _) => hD
  | .storage (.taskTerminalState _) => hG
  | .storage (.concurrency ..) => hH
  | .cancelled => Kept.const False
  | .runtime _ => hD
  | .group _ => hD

theorem kept_aborted (hD : Kept T D) : ∀ x, Kept T (Aborted D x)
  | .storage _ => hD
  | .cancelled => Kept.const False
  | .runtime _ => hD
  | .group _ => hD

theorem isTerminal_canceled : TaskState.canceled.isTerminal = true := rfl

theorem isTerminal_failed : TaskState.failed.isTerminal = true := rfl

namespace LadderRule

theorem not_interruptible (hr : LadderRule T k ws J F D) {d : TaskData}
    (hd : J d ∨ F d ∨ D d) : ¬ d.Interruptible := by
  rintro ⟨-, hscope⟩
  simp [hr.unscoped d hd] at hscope

theorem wp_fallback (hr : LadderRule T k ws J F D) (hw : F w.data) :
    (artifactFallback k ws : TaskM σ Unit).wp T.system (Ends D s) s w := by
  rw [artifactFallback]
  split
  · rename_i hnil
    exact wp_return hr.kept_fallback hw fun w hw =>
      ⟨rfl, hr.skip _ (List.isEmpty_iff.mp hnil) hw⟩
  have hrule : UpdateRule T k .fallback { artifacts := ws } F (fun _ => D)
      (Aborted D) :=
    { kept := hr.kept_fallback
      kept_commit := fun _ => hr.kept_done
      kept_raise := kept_aborted hr.kept_done
      nodup := hr.nodup
      pinned := fun _ _ _ _ _ h => nomatch h
      lost := hr.lost_fallback
      commit := fun d row now hd hrow _ => hr.commit_fallback d row now hd hrow
      interrupted := fun _ _ hw _ hi =>
        hr.not_interruptible (Or.inr (Or.inr hw)) (World.interruptible hi)
      fails := hr.fails_fallback }
  refine Act.wp_tryCatch (Act.wp_bind (Act.wp_mono (hrule.wp hw) ?_))
  rintro (x | v) s' w ⟨rfl, hw⟩
  · cases x with
    | cancelled => exact absurd hw not_false
    | storage e => exact wp_return hr.kept_done hw fun w hw => ⟨rfl, hw⟩
    | runtime m => exact wp_return hr.kept_done hw fun w hw => ⟨rfl, hw⟩
    | group x => exact wp_return hr.kept_done hw fun w hw => ⟨rfl, hw⟩
  · exact wp_return hr.kept_done hw fun w hw => ⟨rfl, hw⟩

/-- With the version that was read. -/
theorem kept_read (hr : LadderRule T k ws J F D) (version : Option Nat) :
    Kept T fun d => J d ∧ d.Seen version ∧ d.Exact T version :=
  hr.kept_before.and ((kept_seen version).and (kept_exact version))

/-- The guarded write of a ladder. -/
theorem ending (hr : LadderRule T k ws J F D) (site : Site) {state : TaskState}
    (hstate : state.isTerminal = true) (hne : state ≠ .completed) (message : Message)
    (version : Option Nat) (hG : Kept T G) (hH : Kept T H)
    (hterminal : ∀ w m, J w.data → w.data.Exact T version → w.data.Ended →
      Fails T k site (endingArgs state message ws version) w (.storage (.taskTerminalState m)) →
      G w.data)
    (hconflict : ∀ w m v, J w.data → w.data.Exact T version →
      Fails T k site (endingArgs state message ws version) w (.storage (.concurrency m v)) →
      H w.data) :
    UpdateRule T k site (endingArgs state message ws version)
      (fun d => J d ∧ d.Seen version ∧ d.Exact T version) (fun _ => D) (Refusal D G H) where
  kept := hr.kept_read version
  kept_commit _ := hr.kept_done
  kept_raise := kept_refusal hr.kept_done hG hH
  nodup := hr.nodup
  pinned := by
    intro d row hd hrow v hv
    obtain rfl : version = some v := hv
    exact hd.2.1 row hrow
  lost := by
    intro b row d w hb hd hdata hlost
    refine ⟨hr.lost b row d w site _ hb rfl hd.1 hd.2.2 hdata hlost, ?_, hd.2.2⟩
    cases version with
    | none => exact hd.2.1
    | some v => exact hd.2.1
  commit := fun d row now hd hrow _ => hr.commit d row now state message version hstate hne hd.1 hrow
  interrupted _ _ hw _ hi :=
    hr.not_interruptible (Or.inr (Or.inr hw)) (World.interruptible hi)
  fails := by
    intro x w hw hfails
    cases x with
    | cancelled =>
      cases hfails with
      | cancelled hi => exact hr.not_interruptible (Or.inl hw.1) hi
    | runtime m => cases hfails
    | group x => cases hfails
    | storage e =>
      -- the three ways in which the storage refuses the ending write
      cases hfails.refused with
      | notFound hnone => exact hr.gone _ hw.1 hnone
      | terminal hrow hterm =>
        refine hterminal w _ hw.1 hw.2.2 (fun row hrow' => ?_) hfails
        obtain rfl := Option.some_inj.mp (hrow.symm.trans hrow')
        exact hterm
      | conflict _ _ => exact hconflict w _ _ hw.1 hw.2.2 hfails

theorem wp_fallback_false (hr : LadderRule T k ws J F D) (hw : F w.data) :
    (do
      artifactFallback k ws
      pure false : TaskM σ Bool).wp T.system (Ends D s) s w := by
  refine Act.wp_bind (Act.wp_mono (hr.wp_fallback hw) ?_)
  rintro (x | _) s' w ⟨rfl, hw⟩
  · exact ⟨rfl, hw⟩
  · exact wp_return hr.kept_done hw fun w hw => ⟨rfl, hw⟩

theorem wp_reloadAndRetry (hr : LadderRule T k ws J F D) {state : TaskState}
    (hstate : state.isTerminal = true) (hne : state ≠ .completed) (message : Message)
    (hw : J w.data) :
    (reloadAndRetry k state message ws : TaskM σ Bool).wp T.system (Ends D s) s w := by
  refine Act.wp_bind (wp_getVersion k hr.kept_before hw ?_
    fun _ hw hi => absurd hi (hr.not_interruptible (Or.inl hw)))
  intro version w hw hseen hexact
  refine Act.wp_bind (wp_loadTask k .retry (hr.kept_read version) ⟨hw, hseen, hexact⟩ ?_
    fun _ hw hi => absurd hi (hr.not_interruptible (Or.inl hw.1)))
  rintro (_ | task) w ⟨hw, hseen, hexact⟩ hloaded -
  · refine hr.wp_fallback_false (hr.ended _ hw fun row hrow => ?_)
    have hnone : w.data.row = none := hloaded
    rw [hnone] at hrow
    exact absurd hrow (by simp)
  dsimp only
  split
  · rename_i hterm
    exact hr.wp_fallback_false (hr.ended _ hw (hloaded hterm))
  · have hrule := hr.ending (G := F) (H := F) .retry hstate hne message version
      hr.kept_fallback hr.kept_fallback (fun w _ hw hexact _ hf => hr.conflict w _ _ hw hexact hf)
      fun w _ _ hw hexact hf => hr.conflict w _ _ hw hexact hf
    refine Act.wp_tryCatch (Act.wp_bind (Act.wp_mono (hrule.wp ⟨hw, hseen, hexact⟩) ?_))
    rintro (x | v) s' w ⟨rfl, hw⟩
    · match x, hw with
      | .storage (.taskNotFound _), hw =>
        exact wp_raise hr.kept_done hw fun w hw => ⟨rfl, hw⟩
      | .storage (.taskTerminalState _), hw => exact hr.wp_fallback_false hw
      | .storage (.concurrency ..), hw => exact hr.wp_fallback_false hw
      | .cancelled, hw => exact absurd hw not_false
      | .runtime _, hw => exact wp_raise hr.kept_done hw fun w hw => ⟨rfl, hw⟩
      | .group _, hw => exact wp_raise hr.kept_done hw fun w hw => ⟨rfl, hw⟩
    · exact wp_return hr.kept_done hw fun w hw => ⟨rfl, hw⟩

theorem wp_announce (hr : LadderRule T k ws J F D) (taskId : TaskId) (contextId : ContextId)
    (state : TaskState) (message : Message) (written : Bool) (hw : D w.data) :
    (announce taskId contextId state message written : TaskM σ Unit).wp T.system (Ends D s) s w := by
  cases written with
  | false => exact wp_return hr.kept_done hw fun w hw => ⟨rfl, hw⟩
  | true =>
    refine Act.wp_bind (wp_ask hr.kept_done hw (fun _ _ => trivial) (fun _ => ⟨_, rfl⟩) ?_)
    intro timestamp w hw
    exact wp_sendEvent false _ hr.kept_done hw hr.kept_done (fun d => hr.publish d _)
      (fun w hw => ⟨rfl, hw⟩)
      fun _ _ hw hi => absurd hi (hr.not_interruptible (Or.inr (Or.inr hw)))

/-- The first write of a ladder and what follows a refusal. -/
theorem wp_written (hr : LadderRule T k ws J F D) (taskId : TaskId) (contextId : ContextId)
    {state : TaskState} {message : Message} {m : TaskM σ Bool}
    (hm : m.wp T.system (Ends D s) s w) :
    (m >>= announce taskId contextId state message).wp T.system (Ends D s) s w := by
  refine Act.wp_bind (Act.wp_mono hm ?_)
  rintro (x | written) s' w ⟨rfl, hw⟩
  · exact ⟨rfl, hw⟩
  · exact hr.wp_announce taskId contextId state message written hw

/-- `cancel_task_in_storage`.  `hfirst` is the exit at the first load. -/
theorem wp_cancel (hr : LadderRule T k ws J F D) (taskId : TaskId)
    (contextId : Option ContextId) (reason : String)
    (hfirst : ∀ d w₀ task, J d → d.Ended → T.ok (.loadTask .guarded) w₀ →
      w₀.row.map Row.task = some task → task.status.state.isTerminal = true → D d)
    (hw : J w.data) :
    (cancelTaskInStorage k taskId contextId reason ws : TaskM σ Unit).wp T.system (Ends D s) s w := by
  refine Act.wp_bind (wp_getVersion k hr.kept_before hw ?_
    fun _ hw hi => absurd hi (hr.not_interruptible (Or.inl hw)))
  intro version w hw hseen hexact
  refine Act.wp_bind (wp_loadTask k .guarded (hr.kept_read version) ⟨hw, hseen, hexact⟩ ?_
    fun _ hw hi => absurd hi (hr.not_interruptible (Or.inl hw.1)))
  rintro (_ | task) w ⟨hw, hseen, hexact⟩ hloaded ⟨w₀, -, hok, htask⟩
  · refine wp_return hr.kept_done (hr.gone _ hw hloaded) fun w hw => ⟨rfl, hw⟩
  dsimp only
  split
  · rename_i hterm
    exact wp_return hr.kept_done (hfirst _ w₀ task hw (hloaded hterm) hok htask hterm)
      fun w hw => ⟨rfl, hw⟩
  refine Act.wp_bind (wp_ask (hr.kept_read version) ⟨hw, hseen, hexact⟩ (fun _ _ => trivial)
    (fun _ => ⟨_, rfl⟩) ?_)
  intro messageId w hw
  refine hr.wp_written taskId _ ?_
  have hrule := hr.ending (G := J) (H := J) .guarded isTerminal_canceled (by decide)
    (agentMessage taskId ((contextId.filter (· ≠ "")).getD task.contextId) messageId reason) version
    hr.kept_before hr.kept_before (fun _ _ hw _ _ _ => hw) fun _ _ _ hw _ _ => hw
  refine Act.wp_tryCatch (Act.wp_bind (Act.wp_mono (hrule.wp hw) ?_))
  rintro (x | v) s' w ⟨rfl, hw⟩
  · match x, hw with
    | .storage (.taskNotFound _), hw =>
      exact wp_raise hr.kept_done hw fun w hw => ⟨rfl, hw⟩
    | .storage (.taskTerminalState _), hw => exact hr.wp_reloadAndRetry rfl (by decide) _ hw
    | .storage (.concurrency ..), hw => exact hr.wp_reloadAndRetry rfl (by decide) _ hw
    | .cancelled, hw => exact absurd hw not_false
    | .runtime _, hw => exact wp_raise hr.kept_done hw fun w hw => ⟨rfl, hw⟩
    | .group _, hw => exact wp_raise hr.kept_done hw fun w hw => ⟨rfl, hw⟩
  · exact wp_return hr.kept_done hw fun w hw => ⟨rfl, hw⟩

/-- `_mark_failed` -/
theorem wp_markFailed (hr : LadderRule T k ws J F D) (taskId : TaskId)
    (contextId : Option ContextId) (reason : String) (hw : J w.data) :
    (markFailed k taskId contextId reason ws : TaskM σ Unit).wp T.system (Ends D s) s w := by
  refine Act.wp_bind (wp_ask hr.kept_before hw (fun _ _ => trivial) (fun _ => ⟨_, rfl⟩) ?_)
  intro messageId w hw
  refine Act.wp_bind (wp_getVersion k hr.kept_before hw ?_
    fun _ hw hi => absurd hi (hr.not_interruptible (Or.inl hw)))
  intro version w hw hseen hexact
  refine hr.wp_written taskId _ ?_
  have hrule := hr.ending (G := F) (H := J) .guarded isTerminal_failed (by decide)
    (agentMessage taskId (contextId.getD "") messageId reason) version
    hr.kept_fallback hr.kept_before (fun w _ hw _ hended _ => hr.ended _ hw hended)
    fun _ _ _ hw _ _ => hw
  refine Act.wp_tryCatch (Act.wp_bind (Act.wp_mono (hrule.wp ⟨hw, hseen, hexact⟩) ?_))
  rintro (x | v) s' w ⟨rfl, hw⟩
  · match x, hw with
    | .storage (.taskNotFound _), hw =>
      exact wp_raise hr.kept_done hw fun w hw => ⟨rfl, hw⟩
    | .storage (.taskTerminalState _), hw => exact hr.wp_fallback_false hw
    | .storage (.concurrency ..), hw => exact hr.wp_reloadAndRetry rfl (by decide) _ hw
    | .cancelled, hw => exact absurd hw not_false
    | .runtime _, hw => exact wp_raise hr.kept_done hw fun w hw => ⟨rfl, hw⟩
    | .group _, hw => exact wp_raise hr.kept_done hw fun w hw => ⟨rfl, hw⟩
  · exact wp_return hr.kept_done hw fun w hw => ⟨rfl, hw⟩

end LadderRule

end

end A2AKit
