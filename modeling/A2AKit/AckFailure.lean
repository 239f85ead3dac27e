/-
A dispatched operation whose acknowledgement fails.

Dispatch and acknowledgement of an operation share one `try` block, so `_handle_op_inner`
answers a failed `ack` as it answers a failed turn: it puts the operation back with `nack`,
and when no attempt is left, or `nack` fails too, it marks the task failed.  A turn that has
paused its task is so run a second time, or its task ends as failed
(`paused_turn_put_back`).

`dispatch_final_iff` says when a successful dispatch is final.
-/
import A2AKit.Announcements
import A2AKit.Footprint

namespace A2AKit

/-- Which calls of the operation handle raise. -/
structure FailurePattern where
  ack : Bool
  nack : Bool
  deriving DecidableEq, Repr

/-- The dispatch has returned normally with the task in `st`, and the handle fails as the
pattern says. -/
def DispatchedIn (fp : FailurePattern) (st : TaskState) {β : Type} (e : Op β) (w : World) : Prop :=
  match e with
  | .dispatch => w.ambient.raises = false ∧ w.row.map (·.task.status.state) = some st
  | .ack false => w.ambient.raises = fp.ack
  | .nack _ => w.ambient.raises = fp.nack
  | _ => True

/-- `_handle_op_inner` neither calls `nack` nor writes a state.  A call of `nack` that raises counts:
on Redis it may raise after its XADD. -/
def DispatchFinal {σ : Type} (T : Setting) (k : StorageKind) (contextId : Option ContextId)
    (attempt maxRetries : Nat) (s : σ) (w : World) : Prop :=
  ∀ p w', T.system.Reaches (handleOpInner k T.taskId contextId attempt maxRetries s, w) (p, w') →
    w'.written = w.written ∧ ∀ delay cont, p ≠ .op (.nack delay) cont

/-! ### The task has ended -/

/-- Neither a state nor the end of the task changes. -/
def StaysEnded (states : List TaskState) (w : World) : Prop := w.written = states ∧ w.ended

section

variable {T : Setting} {states : List TaskState} {w w' : World}

theorem ended_of_terminalGuard {taskId : TaskId} {row : Row} {args : UpdateArgs Ref}
    (hrow : w.row = some row) (hw : w.ended)
    (hguard : terminalGuard taskId row.task.status.state args.state = none) : args.state = none := by
  have hterm : row.task.status.state.isTerminal = true := hw row hrow
  rcases hs : args.state with _ | st
  · rfl
  · simp [terminalGuard, hs, hterm] at hguard

theorem quiet_staysEnded : Quiet T (StaysEnded states) where
  stable w w' hstep hw := by
    cases hstep with
    | @write row h args now _ hrow hguard =>
      refine ⟨hw.1, fun row' hrow' => ?_⟩
      obtain rfl := Option.some_inj.mp hrow'
      have hnone : args.state = none := ended_of_terminalGuard hrow hw.2 hguard
      show (InMemoryStorage.updatedTask h row.task args now).status.state.isTerminal = true
      rw [InMemoryStorage.updatedTask_state, hnone]
      exact hw.2 row hrow
    | delete _ => exact ⟨hw.1, fun row' hrow' => nomatch hrow'⟩
    | bus _ hbus =>
      obtain ⟨out, -, rfl⟩ := World.busStep_some hbus
      exact hw
    | _ => exact hw
  keep e w w' b he _ hperf hw := by
    obtain ⟨hrow, hwritten, -⟩ := (World.performed hperf).of_quiet he
    refine ⟨hwritten.trans hw.1, fun row hrow' => hw.2 row ?_⟩
    rw [← hrow]
    exact hrow'

/-- A guarded write of a split storage is made from the row that it overwrites. -/
def WritesHonestly (taskId : TaskId) {β : Type} (e : Op β) (w : World) : Prop :=
  match e with
  | .updateWrite b _ args _ row values => Honest taskId b args row values w
  | _ => True

/-- A task that has ended is written without a state. -/
theorem StaysEnded.commit {args : UpdateArgs Ref} {row row' : Row} (hw : StaysEnded states w)
    (hrow : w.row = some row) (hcommit : StatusCommit T.taskId args row row') :
    args.state = none ∧
      StaysEnded states { w with row := some row', written := w.written ++ args.state.toList } := by
  have hnone : args.state = none := ended_of_terminalGuard hrow hw.2 hcommit.guard
  refine ⟨hnone, ?_, fun r hr => ?_⟩
  · show w.written ++ args.state.toList = states
    rw [hnone]
    exact (List.append_nil _).trans hw.1
  · obtain rfl := Option.some_inj.mp hr
    obtain ⟨now, hstatus⟩ := hcommit.status
    rw [hstatus, nextStatus_state, hnone]
    exact hw.2 row hrow

theorem streamRule_staysEnded :
    StreamRule T (WritesHonestly T.taskId) (StaysEnded states) fun _ _ => False where
  req_quiet e _ he := by
    cases e with
    | updateWrite b site args attempt row values => exact nomatch he
    | _ => trivial
  req_update _ _ _ := trivial
  req_read _ _ _ _ := trivial
  req_write _ _ _ _ _ _ _ hw := hw
  quiet := quiet_staysEnded
  open_ _ := Quiet.const T False
  merge _ _ hw := hw
  commit args w row row' hw hrow hcommit := by
    obtain ⟨hnone, hw'⟩ := hw.commit hrow hcommit
    simpa only [UpdateArgs.ending, hnone, Option.filter_none] using hw'
  interrupted _ _ _ _ _ hw := hw.elim
  req_marker _ _ _ _ hw := hw.elim
  marker _ _ _ _ _ _ hw := hw.elim

/-- Every operation keeps what the ended task has. -/
theorem StaysEnded.perform {β : Type} {e : Op β} {b : β} (hw : StaysEnded states w)
    (hreq : WritesHonestly T.taskId e w) (hok : T.ok e w)
    (hperf : World.perform T.cfg T.taskId e w = some (w', b)) : StaysEnded states w' := by
  cases e with
  | update site args =>
    rcases World.perform_update hperf with ⟨_, -, rfl, -⟩ | ⟨row, row', hrow, -, hcommit, rfl⟩
    · exact hw
    · exact (hw.commit (T := T) hrow hcommit).2
  | updateRead b site args =>
    rw [← (Prod.mk.inj (Option.some_inj.mp hperf)).1]
    exact hw
  | updateWrite b site args attempt row values =>
    simp only [World.perform] at hperf
    split at hperf
    · rename_i row' hwrite
      rw [← (Prod.mk.inj (Option.some_inj.mp hperf)).1]
      obtain ⟨cur, hcur, hcommit⟩ := Honest.commit hreq hwrite
      exact (hw.commit (T := T) hcur hcommit).2
    · rw [← (Prod.mk.inj (Option.some_inj.mp hperf)).1]
      exact hw
  | publish event =>
    simp only [World.perform, Option.map_eq_some_iff] at hperf
    obtain ⟨w₁, hbus, hw₁⟩ := hperf
    obtain ⟨out, -, rfl⟩ := World.busStep_some hbus
    rw [← (Prod.mk.inj hw₁).1]
    exact hw
  | setInScope inScope =>
    rw [← (Prod.mk.inj (Option.some_inj.mp hperf)).1]
    exact hw
  | _ => exact quiet_staysEnded.keep _ w w' b rfl hok hperf hw

/-- A program that keeps to the discipline writes no state once the task has ended. -/
theorem written_of_ended {σ α : Type} {m : TaskM σ α} {s : σ} {p : Prog Op (Except Exc α × σ)}
    (hm : Keeps T (WritesHonestly T.taskId) (StaysEnded w.written) m) (hw : w.ended)
    (hrun : T.system.Reaches (m s, w) (p, w')) : w'.written = w.written := by
  refine (Prog.wp_invariant (S := T.systemWith (WritesHonestly T.taskId))
    (I := StaysEnded w.written) quiet_staysEnded.stable ?_ (Setting.reaches_systemWith _ hrun)
    (hm s w ⟨rfl, hw⟩) ⟨rfl, hw⟩).1
  intro β e w₁ w₂ b hok hreq hperf hw₁
  exact hw₁.perform hreq hok hperf

end

/-! ### A run that ends in a write -/

section

variable {cfg : BusConfig} {taskId : TaskId} {fp : FailurePattern} {st : TaskState} {σ : Type}
  {w : World} {row : Row}

/-- A read that finds its version and a live task returns a merge. -/
theorem SplitStorage.read_live (b : SplitStorage) (h : Heap) {args : UpdateArgs Ref}
    (now : Timestamp) (hpin : args.expectedVersion = some row.version)
    (hguard : terminalGuard taskId row.task.status.state args.state = none) :
    b.backend.updateRead taskId h (some row) args now =
      ((mergeValues h row.task args now).1, .ok (row, (mergeValues h row.task args now).2)) := by
  cases b with
  | sql =>
    simp [SplitStorage.backend, SQLStorageBase.backend, SQLStorageBase.updateRead, hpin, hguard,
      Option.filter]
  | redis => rfl

variable (cfg taskId fp st) in
/-- A pinned write that meets its version and a live task can be carried through. -/
theorem update_may_commit (k : StorageKind) (site : Site) (args : UpdateArgs Ref) (s : σ)
    (hrow : w.row = some row) (hcalm : w.interrupted = false)
    (hpin : args.expectedVersion = some row.version)
    (hguard : terminalGuard taskId row.task.status.state args.state = none) :
    ∃ p w', (anyParty cfg taskId (DispatchedIn fp st)).system.Reaches
      ((Emitter.updateTask k site args : TaskM σ Nat) s, w) (p, w') ∧
      w'.written = w.written ++ args.state.toList := by
  have hawait : ∀ pt, World.perform cfg taskId (.await pt) w = some (w, false) :=
    fun pt => by simp only [World.perform, hcalm]
  cases k with
  | memory =>
    have hupdate : InMemoryStorage.updateTask taskId w.heap (some (row.task, row.version)) args
        w.ambient.now =
          .ok (InMemoryStorage.updatedTask w.heap row.task args w.ambient.now, row.version + 1) := by
      simp [InMemoryStorage.updateTask, hpin, hguard, Option.filter]
    have hperf : World.perform cfg taskId (.update site args) w =
        some ({ w with
          row := some { row with
            task := InMemoryStorage.updatedTask w.heap row.task args w.ambient.now
            version := row.version + 1 }
          written := w.written ++ args.state.toList }, .ok (row.version + 1)) := by
      simp only [World.perform, hrow, hupdate]
    exact ⟨_, _, .op trivial hperf .refl, rfl⟩
  | split b =>
    have hmax : maxAttempts args = 1 := by simp [maxAttempts, hpin]
    have hread := b.read_live w.heap w.ambient.now hpin hguard
    have hchecked : b.Checked taskId args row :=
      (b.sound.read_ok hread fun r hr e he => by
        obtain rfl := Option.some_inj.mp hr
        exact (Option.some_inj.mp (he.symm.trans hpin)).le).2.2
    obtain ⟨row', hcommit⟩ := SplitStorage.commits (b := b) 0
      (mergeValues w.heap row.task args w.ambient.now).2 hchecked hpin hguard
    -- the world after the read differs in the merged artifact objects only
    let w₁ : World := { w with heap := (mergeValues w.heap row.task args w.ambient.now).1 }
    have hreadPerf : World.perform cfg taskId (.updateRead b site args) w =
        some (w₁, .ok (row, (mergeValues w.heap row.task args w.ambient.now).2)) := by
      simp only [World.perform, hrow, hread, w₁]
    have hcalm₁ : w₁.interrupted = false := hcalm
    have hawait₁ : ∀ pt, World.perform cfg taskId (.await pt) w₁ = some (w₁, false) :=
      fun pt => by simp only [World.perform, hcalm₁]
    have hwritePerf : World.perform cfg taskId (.updateWrite b site args 0 row
        (mergeValues w.heap row.task args w.ambient.now).2) w₁ =
          some ({ w₁ with row := some row', written := w₁.written ++ args.state.toList },
            .committed row') := by
      have hrow₁ : w₁.row = some row := hrow
      simp only [World.perform, hrow₁, hcommit]
    have hprog : (Emitter.updateTask (.split b) site args : TaskM σ Nat) =
        (updateLoop b site args 1 0 >>= fun v => do
          Emitter.notify site args
          pure v) := by
      rw [← hmax]
      rfl
    rw [hprog]
    exact ⟨_, _, .op trivial (hawait .plain) (.op trivial hreadPerf
      (.op trivial (hawait₁ (.merged site args row)) (.op trivial hwritePerf .refl))), rfl⟩

variable (cfg taskId fp st) in
/-- `_mark_failed` writes the state of a task that has not ended. -/
theorem markFailed_may_commit (k : StorageKind) (contextId : Option ContextId) (reason : String)
    (s : σ) (hrow : w.row = some row) (hlive : row.task.status.state.isTerminal = false) :
    ∃ p w', (anyParty cfg taskId (DispatchedIn fp st)).system.Reaches
      ((markFailedThenAck k taskId contextId reason : TaskM σ Unit) s, w) (p, w') ∧
      w'.written = w.written ++ [.failed] := by
  -- nobody else acts, and no cancellation is delivered
  let w₀ : World := { w with ambient := { w.ambient with interrupt := false } }
  have hcalm : w₀.interrupted = false := Bool.and_false _
  have huuid : World.perform cfg taskId .uuid w₀ = some (w₀, w₀.ambient.uuid) := rfl
  have hawait : World.perform cfg taskId (.await .plain) w₀ = some (w₀, false) := by
    simp only [World.perform, hcalm]
  have hrow₀ : w₀.row = some row := hrow
  have hversion : World.perform cfg taskId .getVersion w₀ = some (w₀, some row.version) := by
    simp only [World.perform, hrow₀, Option.map_some]
  obtain ⟨p, w', hrun, hwritten⟩ := update_may_commit cfg taskId fp st k .guarded
    (endingArgs .failed (agentMessage taskId (contextId.getD "") w₀.ambient.uuid reason) []
      (some row.version)) s
    hrow₀ hcalm rfl (by simp [endingArgs, terminalGuard, hlive])
  have hwhole : ∃ p', (anyParty cfg taskId (DispatchedIn fp st)).system.Reaches
      ((markFailedThenAck k taskId contextId reason : TaskM σ Unit) s, w₀) (p', w') := by
    -- the write stands inside two handlers, and something follows each of them
    have hnested : ∀ {α β γ δ ε : Type} (f₁ : _ → Prog Op α) (f₂ : _ → Prog Op β)
        (f₃ : _ → Prog Op γ) (f₄ : _ → Prog Op δ) (f₅ : _ → Prog Op ε), _ :=
      fun f₁ f₂ f₃ f₄ f₅ => Prog.reaches_bind (f := f₅) (Prog.reaches_bind (f := f₄)
        (Prog.reaches_bind (f := f₃) (Prog.reaches_bind (f := f₂) (Prog.reaches_bind (f := f₁) hrun))))
    cases k with
    | memory => exact ⟨_, .op trivial huuid (.op trivial hversion (hnested _ _ _ _ _))⟩
    | split b =>
      exact ⟨_, .op trivial huuid (.op trivial hawait (.op trivial hversion (hnested _ _ _ _ _)))⟩
  obtain ⟨p', hwhole⟩ := hwhole
  exact ⟨p', w', .env (EnvStep.ambient (a := { w.ambient with interrupt := false })) hwhole, hwritten⟩

variable (cfg taskId fp st) in
/-- The acknowledgement fails after a dispatch that has returned. -/
theorem reaches_failed_ack (k : StorageKind) (contextId : Option ContextId)
    {attempt maxRetries : Nat} (hle : attempt ≤ maxRetries) (s : σ)
    (hst : w.row.map (·.task.status.state) = some st) (hack : fp.ack = true) :
    ∃ w', w'.row = w.row ∧ w'.written = w.written ∧
      (anyParty cfg taskId (DispatchedIn fp st)).system.Reaches
        ((handleOpInner k taskId contextId attempt maxRetries : TaskM σ Unit) s, w)
        ((handleFailedOp k taskId contextId attempt maxRetries : TaskM σ Unit) s, w') := by
  let w₀ : World := { w with ambient := { w.ambient with raises := false } }
  let w₁ : World := { w with ambient := { w.ambient with raises := true } }
  have hdispatch : World.perform cfg taskId .dispatch w₀ = some (w₀, false) := rfl
  have hfails : World.perform cfg taskId (.ack false) w₁ = some (w₁, true) := rfl
  refine ⟨w₁, rfl, rfl, ?_⟩
  rw [handleOpInner, if_neg (by omega)]
  refine .env (EnvStep.ambient (a := { w.ambient with raises := false })) ?_
  refine .op ⟨rfl, hst⟩ hdispatch ?_
  refine .env (EnvStep.ambient (a := { w.ambient with raises := true })) ?_
  exact .op hack.symm hfails .refl

end

/-! ### The acknowledgement succeeds -/

/-- The operations of a handled operation that is acknowledged. -/
def HandlesOnce {β : Type} (e : Op β) (_ : World) : Prop :=
  match e with
  | .dispatch => True
  | .ack false => True
  | _ => False

theorem EnvStep.written {T : Setting} {w w' : World} (h : EnvStep T w w') :
    w'.written = w.written := by
  cases h with
  | bus _ hbus =>
    obtain ⟨out, -, rfl⟩ := World.busStep_some hbus
    rfl
  | _ => rfl

theorem HandlesOnce.unchanged {cfg : BusConfig} {taskId : TaskId} {β : Type} {e : Op β}
    {w w' : World} {b : β} (h : HandlesOnce e w)
    (hperf : World.perform cfg taskId e w = some (w', b)) : w' = w := by
  cases e with
  | dispatch => exact (Prod.mk.inj (Option.some_inj.mp hperf)).1.symm
  | ack last => exact (Prod.mk.inj (Option.some_inj.mp hperf)).1.symm
  | _ => exact h.elim

section

variable {T : Setting} {σ : Type} {s : σ} {w : World} (hack : ∀ w, T.ok (.ack false) w → w.ambient.raises = false)
  (hdispatch : ∀ w, T.ok .dispatch w → w.ambient.raises = false)
include hack hdispatch

theorem wp_handlesOnce (k : StorageKind) (contextId : Option ContextId) {attempt maxRetries : Nat}
    (hle : attempt ≤ maxRetries) :
    (handleOpInner k T.taskId contextId attempt maxRetries : TaskM σ Unit).wp
      (T.systemWith HandlesOnce) (fun _ _ _ => True) s w := by
  have htrue : T.Stable fun _ => True := Setting.Stable.const True
  have hfalse : ∀ raised : Bool, T.Stable fun _ => raised = false :=
    fun raised => Setting.Stable.const _
  rw [handleOpInner, if_neg (by omega)]
  refine Act.wp_bind (htrue.op trivial hfalse (fun _ _ _ => trivial) ?_ ?_)
  · intro w w' raised _ hok hperf
    obtain ⟨-, rfl⟩ := Prod.mk.inj (Option.some_inj.mp hperf)
    exact hdispatch w hok
  rintro raised w rfl
  refine Act.wp_bind (htrue.op trivial hfalse (fun _ _ _ => trivial) ?_ ?_)
  · intro w w' raised _ hok hperf
    obtain ⟨-, rfl⟩ := Prod.mk.inj (Option.some_inj.mp hperf)
    exact hack w hok
  rintro raised w rfl
  exact htrue.ret trivial fun _ _ => trivial

/-- Nothing follows an acknowledgement that succeeds. -/
theorem final_of_ack (hcall : ∀ delay w, ∃ w', EnvStep T w w' ∧ T.ok (.nack delay) w') (k : StorageKind) (contextId : Option ContextId) {attempt maxRetries : Nat}
    (hle : attempt ≤ maxRetries) : DispatchFinal T k contextId attempt maxRetries s w := by
  intro p w' hrun
  have hwp := wp_handlesOnce (s := s) (w := w) hack hdispatch k contextId hle
  have hrun' := Setting.reaches_systemWith HandlesOnce hrun
  refine ⟨?_, ?_⟩
  · refine Prog.wp_invariant (S := T.systemWith HandlesOnce)
      (I := fun w₁ => w₁.written = w.written) ?_ ?_ hrun' hwp rfl
    · intro w₁ w₂ hstep hw
      exact hstep.written.trans hw
    · intro β e w₁ w₂ b _ hreq hperf hw
      rw [hreq.unchanged hperf]
      exact hw
  · rintro delay cont rfl
    obtain ⟨w₁, hstep, hok⟩ := hcall delay w'
    exact (Prog.wp_req hwp (hrun'.tail (.env hstep)) hok).elim

end

/-! ### When a dispatch is final -/

/-- The operation is not handed back to the broker. -/
def NotNack {β : Type} : Op β → Prop
  | .nack _ => False
  | _ => True

theorem permits_notNack : Permits (fun _ => NotNack) fun _ => True where
  quiet _ e he := by
    cases e with
    | nack delay => exact nomatch he
    | _ => trivial
  publish _ _ _ := trivial
  update _ _ _ _ := trivial
  read _ _ _ _ _ := trivial
  write _ _ _ _ _ _ _ _ := trivial

/-- Without attempts left, nothing is put back. -/
theorem only_notNack {σ : Type} (k : StorageKind) (taskId : TaskId) (contextId : Option ContextId)
    {attempt maxRetries : Nat} (hlast : maxRetries ≤ attempt) :
    Act.Only NotNack (handleOpInner k taskId contextId attempt maxRetries : TaskM σ Unit) :=
  KeepsTo.only (permits_notNack.handleOpInner k (fun _ => trivial) (fun _ _ => trivial) trivial
    taskId contextId fun hlt => absurd hlt (by omega))

/-- **A successful dispatch is final** exactly if the acknowledgement succeeds, or if no attempt is
left and the turn has ended its task. -/
theorem dispatch_final_iff {σ : Type} (cfg : BusConfig) (taskId : TaskId) (k : StorageKind)
    (contextId : Option ContextId) (attempt maxRetries : Nat) (hle : attempt ≤ maxRetries)
    (fp : FailurePattern) (st : TaskState) (s : σ) (w : World)
    (hst : w.row.map (·.task.status.state) = some st) :
    DispatchFinal (anyParty cfg taskId (DispatchedIn fp st)) k contextId attempt maxRetries s w ↔
      fp.ack = false ∨ maxRetries ≤ attempt ∧ st.isTerminal = true := by
  constructor
  · intro hfinal
    by_contra hcond
    push Not at hcond
    obtain ⟨hack, hrest⟩ := hcond
    obtain ⟨w₁, hrow₁, hwritten₁, hrun₁⟩ := reaches_failed_ack cfg taskId fp st k
      contextId hle s hst (by simpa using hack)
    have hlast : maxRetries ≤ attempt := by
      by_contra hlt
      -- the operation goes back to the queue
      rw [handleFailedOp, if_pos (by omega)] at hrun₁
      exact (hfinal _ _ hrun₁).2 _ _ rfl
    have hlive : st.isTerminal = false := Bool.eq_false_iff.mpr (hrest hlast)
    obtain ⟨row, hrow, rfl⟩ := Option.map_eq_some_iff.mp hst
    rw [handleFailedOp, if_neg (by omega)] at hrun₁
    obtain ⟨p, w', hrun, hwritten⟩ := markFailed_may_commit cfg taskId fp
      row.task.status.state k contextId "Worker failed to process task" s (hrow₁.trans hrow) hlive
    have hsame := (hfinal p w' (hrun₁.trans hrun)).1
    rw [hwritten, hwritten₁] at hsame
    simp at hsame
  · rintro (hack | ⟨hlast, hterm⟩)
    · refine final_of_ack (T := anyParty cfg taskId (DispatchedIn fp st)) (fun w hok => ?_)
        (fun w hok => hok.1) (fun delay w => ?_) k contextId hle
      · exact Eq.trans hok hack
      · exact ⟨_, EnvStep.ambient (a := { w.ambient with raises := fp.nack }), rfl⟩
    · intro p w' hrun
      have hended : w.ended := by
        intro row hrow
        rw [hrow] at hst
        obtain rfl := Option.some_inj.mp hst
        exact hterm
      refine ⟨?_, ?_⟩
      · refine written_of_ended ?_ hended hrun
        exact (Discipline.handleOpInner (streamRule_staysEnded.discipline k)
          (fun w _ => known_none w) taskId contextId attempt maxRetries).keeps
      · rintro delay cont rfl
        exact (Prog.only_reaches hrun (only_notNack k taskId contextId hlast s)).1.elim

/-- A task that its turn has left waiting for the user. -/
def pausedTask : Task :=
  { workingTask with status := { state := .inputRequired, timestamp := "" } }

/-- The turn has paused the task, and the acknowledgement fails: with attempts left the
operation goes back to the queue, and without it the paused task is marked failed. -/
theorem paused_turn_put_back :
    ¬ DispatchFinal (anyParty ⟨1, 1, 60⟩ "t" (DispatchedIn ⟨true, false⟩ .inputRequired)) .memory
        (some "c") 1 3 () (World.holding pausedTask 2) ∧
      ¬ DispatchFinal (anyParty ⟨1, 1, 60⟩ "t" (DispatchedIn ⟨true, false⟩ .inputRequired)) .memory
        (some "c") 3 3 () (World.holding pausedTask 2) := by
  have hfails : ∀ attempt, attempt ≤ 3 → _ := fun attempt hle =>
    reaches_failed_ack ⟨1, 1, 60⟩ "t" ⟨true, false⟩ .inputRequired
      (w := World.holding pausedTask 2) .memory (some "c") hle () rfl rfl
  constructor
  · intro hfinal
    obtain ⟨w₁, -, -, hrun⟩ := hfails 1 (by decide)
    exact (hfinal _ _ hrun).2 _ _ rfl
  · intro hfinal
    obtain ⟨w₁, hrow, hwritten, hrun⟩ := hfails 3 (by decide)
    obtain ⟨p, w', hcommit, hfailed⟩ := markFailed_may_commit ⟨1, 1, 60⟩ "t" ⟨true, false⟩
      .inputRequired .memory (some "c") "Worker failed to process task" () hrow rfl
    have hsame := (hfinal p w' (hrun.trans hcommit)).1
    rw [hfailed, hwritten] at hsame
    exact nomatch hsame

/-- The turn has completed the task: with no attempt left, a failing acknowledgement changes
nothing. -/
theorem completed_turn_final :
    DispatchFinal (anyParty ⟨1, 1, 60⟩ "t" (DispatchedIn ⟨true, false⟩ .completed)) .memory
      (some "c") 3 3 () (World.holding { workingTask with
        status := { state := .completed, timestamp := "" } } 2) :=
  (dispatch_final_iff ⟨1, 1, 60⟩ "t" .memory (some "c") 3 3 (le_refl 3) ⟨true, false⟩ .completed ()
    _ rfl).mpr (Or.inr ⟨le_refl 3, rfl⟩)

end A2AKit
