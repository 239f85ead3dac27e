/-
The rule for `_submit_task` of a follow-up message.

The version is read before the task is loaded, and the write names that version.  So at
the commit the stored task is the one that was validated (`Pins`): an older one is gone, and a
younger one has another version.  `SubmitRule` asks what a submission does to the assertions
around it, exit by exit, and `Hosts.submitTask` is the rule.
-/
import A2AKit.Requests

namespace A2AKit

open Act (Triple)

namespace TaskManager

/-- `_load_and_validate` accepts the message for the task. -/
def accepts (message : Message) (task : Task) : Bool :=
  !task.status.state.isTerminal && (message.contextId = "" || task.contextId = message.contextId) &&
    (awaitsInput task.status.state || message.role = .agent)

/-- The message as it is appended. -/
def boundMessage (message : Message) (task : Task) : Message :=
  { message with contextId := if message.contextId = "" then task.contextId else message.contextId }

/-- The arguments of the write that appends the message. -/
def appendArgs (message : Message) (task : Task) (version : Option Nat) : UpdateArgs Ref :=
  { state := computeStateTransition task
    messages := [boundMessage message task]
    expectedVersion := version }

/-- `_submit_task` from the duplicate check on. -/
def submitValidated {σ : Type} (k : StorageKind) (message : Message) (version : Option Nat)
    (task : Task) : TaskM σ (Task × Bool) :=
  if isDuplicate message task then pure (task, false)
  else do
    match ← appendMessage k message task version with
    | some r => pure r
    | none => do
      announceTransition task
      match ← loadTask k .other with
      | none => throw (.runtime s!"Task {task.id} vanished after update")
      | some updated => pure (updated, true)

theorem submitTask_eq {σ : Type} (k : StorageKind) (message : Message) :
    (submitTask k message : TaskM σ (Task × Bool)) = (do
      let version ← getVersion k
      let task ← loadAndValidate k message
      submitValidated k message version task) := rfl

end TaskManager

open TaskManager

/-- The version was handed out before, and if it is still stored, so is `task`. -/
def Pins (version : Option Nat) (task : Task) (r : Option Row) : Prop :=
  ∃ n, version = some n ∧ ∀ row, r = some row → n ≤ row.version ∧ (row.version = n → row.task = task)

/-- The version was handed out before. -/
def HandedOut (version : Option Nat) (r : Option Row) : Prop :=
  match version with
  | none => r = none
  | some n => ∀ row, r = some row → n ≤ row.version

section

variable {version : Option Nat} {task : Task} {r r' : Option Row}

theorem handedOut_version (r : Option Row) : HandedOut (r.map Row.version) r := by
  rcases r with _ | row
  · rfl
  · intro row' hrow'
    rw [Option.some_inj.mp hrow']

theorem HandedOut.movesOn (h : HandedOut version r) (hmove : MovesOn r r') :
    HandedOut version r' := by
  rcases version with _ | n
  · rcases r' with _ | row'
    · rfl
    · obtain ⟨row, hrow, -⟩ := hmove row' rfl
      exact absurd (h ▸ hrow) (by simp)
  · intro row' hrow'
    obtain ⟨row, hrow, rfl | hlater⟩ := hmove row' hrow'
    · exact h row' hrow
    · have hle : n ≤ row.version := h row hrow
      have hlt : row.version < row'.version := hlater.version
      omega

/-- The task that is loaded after the version was read is the one the version pins. -/
theorem HandedOut.pins {row : Row} (h : HandedOut version (some row)) :
    Pins version row.task (some row) := by
  rcases version with _ | n
  · exact absurd h (by simp [HandedOut])
  · refine ⟨n, rfl, fun row' hrow' => ?_⟩
    obtain rfl := Option.some_inj.mp hrow'
    exact ⟨h row rfl, fun _ => rfl⟩

theorem Pins.movesOn (h : Pins version task r) (hmove : MovesOn r r') : Pins version task r' := by
  obtain ⟨n, rfl, hn⟩ := h
  refine ⟨n, rfl, fun row' hrow' => ?_⟩
  obtain ⟨row, hrow, rfl | hlater⟩ := hmove row' hrow'
  · exact hn row' hrow
  · have hle : n ≤ row.version := (hn row hrow).1
    have hlt : row.version < row'.version := hlater.version
    exact ⟨by omega, fun heq => by omega⟩

theorem Pins.readsExpected (args : UpdateArgs Ref) {row : Row} (h : Pins args.expectedVersion task r)
    (hrow : r = some row) : ReadsExpected args row := by
  obtain ⟨n, hn, hpins⟩ := h
  intro e he
  obtain rfl := Option.some_inj.mp (hn.symm.trans he)
  exact (hpins row hrow).1

/-- A commit is one over the pinned task. -/
theorem Pins.committed {taskId : TaskId} (args : UpdateArgs Ref) {row row' : Row}
    (h : Pins args.expectedVersion task (some row)) (hcommit : TaskCommit taskId args row row') :
    row.task = task := by
  obtain ⟨n, hn, hpins⟩ := h
  exact (hpins row rfl).2 (hcommit.pinned n hn).symm

end

/-- What a submission does to the assertions around it: `B` holds until the task is validated,
`V version task` from then on until the commit, `A task` after it, `D t` when the message was
found in the history of `t`, and `X x` when `x` is raised. -/
structure SubmitRule {W : Type} (taskId : TaskId) (S : System Op W) (π : W → World)
    (message : Message) (B : W → Prop) (V : Option Nat → Task → W → Prop) (A D F : Task → W → Prop)
    (X : Exc → W → Prop) : Prop where
  stable_before : S.Stable B
  stable_validated : ∀ version task, S.Stable (V version task)
  stable_after : ∀ task, S.Stable (A task)
  stable_duplicate : ∀ task, S.Stable (D task)
  stable_final : ∀ task, S.Stable (F task)
  stable_raise : ∀ x, S.Stable (X x)
  req_quiet : ∀ {β : Type} (e : Op β) w, e.quiet = true → S.ok e w → S.req e w
  req_update : ∀ version task w, V version task w → isDuplicate message task = false →
    Pins version task (π w).row →
    S.ok (.update .other (appendArgs message task version)) w →
    S.req (.update .other (appendArgs message task version)) w
  req_read : ∀ b version task w, V version task w → isDuplicate message task = false →
    Pins version task (π w).row →
    S.ok (.updateRead b .other (appendArgs message task version)) w →
    S.req (.updateRead b .other (appendArgs message task version)) w
  req_write : ∀ b version task attempt row values w, V version task w →
    isDuplicate message task = false → Pins version task (π w).row →
    Honest taskId b (appendArgs message task version) row values (π w) →
    S.ok (.updateWrite b .other (appendArgs message task version) attempt row values) w →
    S.req (.updateWrite b .other (appendArgs message task version) attempt row values) w
  missing : ∀ w x, B w → S.ok (.loadTask .validation) w → (π w).row = none → X x w
  rejected : ∀ w row x, B w → S.ok (.loadTask .validation) w → (π w).row = some row →
    accepts message row.task = false → X x w
  validated : ∀ w row version, B w → S.ok (.loadTask .validation) w → (π w).row = some row →
    accepts message row.task = true → HandedOut version (some row) → V version row.task w
  duplicate : ∀ w version task, V version task w → isDuplicate message task = true → D task w
  merge : ∀ b version task w w' out, V version task w →
    S.perform (.updateRead b .other (appendArgs message task version)) w = some (w', out) →
    V version task w'
  commit : ∀ {β : Type} (e : Op β) version w w' b row row', e.commits = true →
    V version row.task w → isDuplicate message row.task = false → S.ok e w →
    S.perform e w = some (w', b) → (π w).row = some row →
    π w' = { π w with
      row := some row'
      written := (π w).written ++ (computeStateTransition row.task).toList } →
    TaskCommit taskId (appendArgs message row.task version) row row' → A row.task w'
  refused : ∀ {β : Type} (op : Op β) b version task w e, op.failure b = some e →
    V version task w → Pins version task (π w).row → S.ok op w →
    Refused (appendArgs message task version) (π w).row e → (∀ m v, e ≠ .concurrency m v) →
    X (.storage e) w
  twin : ∀ version task w row, V version task w → S.ok (.loadTask .conflict) w →
    (π w).row = some row → isDuplicate message row.task = true → D row.task w
  lost : ∀ version task w x, V version task w → S.ok (.loadTask .conflict) w →
    (∀ row, (π w).row = some row → version ≠ some row.version ∧
      isDuplicate message row.task = false) → X x w
  publish : ∀ task event w w' id, event.isStreamTerminal = false → A task w →
    S.perform (.publish event) w = some (w', id) → A task w'
  withdraw : ∀ id w w', X .cancelled w → S.perform (.withdraw id) w = some (w', ()) →
    X .cancelled w'
  vanished : ∀ task w x, A task w → S.ok (.loadTask .other) w → (π w).row = none → X x w
  final : ∀ task w row, A task w → S.ok (.loadTask .other) w → (π w).row = some row →
    F row.task w
  cancelled_before : ∀ pt w, B w → S.ok (.await pt) w → (π w).interrupted = true → X .cancelled w
  cancelled_validated : ∀ pt version task w, V version task w → S.ok (.await pt) w →
    (π w).interrupted = true → X .cancelled w
  cancelled_after : ∀ pt task w, A task w → S.ok (.await pt) w → (π w).interrupted = true →
    X .cancelled w

namespace Hosts

variable {cfg : BusConfig} {taskId : TaskId} {W : Type} {S : System Op W} {π : W → World}
  {σ : Type} {message : Message} {B : W → Prop} {V : Option Nat → Task → W → Prop}
  {A D F : Task → W → Prop} {X : Exc → W → Prop} (h : Hosts cfg taskId S π)
  (hr : SubmitRule taskId S π message B V A D F X)
include h hr

theorem stable_handedOut (version : Option Nat) :
    S.Stable fun w => B w ∧ HandedOut version (π w).row :=
  fun w w' hstep hw => ⟨hr.stable_before w w' hstep hw.1, hw.2.movesOn (h.moves w w' hstep)⟩

theorem stable_pins (version : Option Nat) (task : Task) :
    S.Stable fun w => V version task w ∧ Pins version task (π w).row :=
  fun w w' hstep hw => ⟨hr.stable_validated version task w w' hstep hw.1,
    hw.2.movesOn (h.moves w w' hstep)⟩

omit h hr in
/-- What the load of the task has settled. -/
def Examined (π : W → World) (message : Message) (V : Option Nat → Task → W → Prop)
    (X : Exc → W → Prop) (version : Option Nat) : Option Task → W → Prop
  | none, w => ∀ x, X x w
  | some task, w =>
    (accepts message task = true → V version task w ∧ Pins version task (π w).row) ∧
      (accepts message task = false → ∀ x, X x w)

theorem stable_examined (version : Option Nat) (task : Option Task) :
    S.Stable (Examined π message V X version task) := by
  intro w w' hstep hw
  rcases task with _ | task
  · exact fun x => hr.stable_raise x w w' hstep (hw x)
  · exact ⟨fun hacc => h.stable_pins hr version task w w' hstep (hw.1 hacc),
      fun hacc x => hr.stable_raise x w w' hstep (hw.2 hacc x)⟩

/-- `_load_and_validate` -/
theorem loadAndValidate (k : StorageKind) (version : Option Nat) :
    Triple S (fun (_ : σ) w => B w ∧ HandedOut version (π w).row)
      (TaskManager.loadAndValidate k message)
      (fun task _ w => V version task w ∧ Pins version task (π w).row) fun x _ => X x := by
  refine Triple.bind (Q := fun task _ => Examined π message V X version task)
    ((h.loadTask (h.stable_handedOut hr version) (hr.stable_raise .cancelled)
      (fun w _ hok => hr.req_quiet _ w rfl hok)
      (fun w hw hok hi => hr.cancelled_before .plain w hw.1 hok hi) k .validation
      (h.stable_examined hr version) (fun w _ hok => hr.req_quiet _ w rfl hok) ?_).conseq
      (fun _ _ hw => hw) (fun _ _ _ hw => hw) fun _ _ _ hw => hw.1 ▸ hw.2) fun task => ?_
  · rintro w ⟨hw, hout⟩ hok
    rcases hrow : (π w).row with _ | row
    · exact fun x => hr.missing w x hw hok hrow
    · rw [hrow] at hout
      refine ⟨fun hacc => ?_, fun hacc x => hr.rejected w row x hw hok hrow hacc⟩
      exact ⟨hr.validated w row version hw hok hrow hacc hout, hrow ▸ hout.pins⟩
  · have hstable := fun (_ : σ) => h.stable_examined hr version task
    rcases task with _ | task
    · exact Triple.throw hstable fun _ w hw => hw _
    -- the three refusals of the source are the ways in which `accepts` is false
    have hthrow : ∀ x, accepts message task = false →
        Triple S (fun (_ : σ) => Examined π message V X version (some task)) (throw x)
          (fun task _ w => V version task w ∧ Pins version task (π w).row) fun x _ => X x :=
      fun x hacc => Triple.throw hstable fun _ w hw => hw.2 hacc x
    dsimp only
    split
    · rename_i hterm
      exact hthrow _ (by simp [accepts, hterm])
    split
    · rename_i _ hctx
      exact hthrow _ (by simp [accepts, hctx.1, hctx.2])
    split
    · rename_i _ _ hrole
      have hrole' : awaitsInput task.status.state = false ∧ message.role ≠ .agent := by
        simpa using hrole
      exact hthrow _ (by simp [accepts, hrole'.1, hrole'.2])
    · rename_i hterm hctx hrole
      have hacc : accepts message task = true := by
        simp only [Bool.not_eq_true, Bool.not_eq_true', not_and, not_not, ne_eq] at hterm hctx hrole
        simp only [accepts, hterm, Bool.not_false, Bool.true_and, Bool.and_eq_true, Bool.or_eq_true,
          decide_eq_true_eq]
        refine ⟨?_, ?_⟩
        · by_cases hempty : message.contextId = ""
          · exact Or.inl hempty
          · exact Or.inr (hctx hempty)
        · by_cases hawait : awaitsInput task.status.state = true
          · exact Or.inl hawait
          · exact Or.inr (hrole (by simpa using hawait))
      exact Triple.pure hstable fun _ w hw => hw.1 hacc

omit h hr in
/-- The race for the version is lost. -/
def Outrun (π : W → World) (V : Option Nat → Task → W → Prop) (version : Option Nat) (task : Task)
    (w : W) : Prop :=
  V version task w ∧ Pins version task (π w).row ∧
    ∀ row, (π w).row = some row → version ≠ some row.version

theorem stable_outrun (version : Option Nat) (task : Task) :
    S.Stable (Outrun π V version task) := by
  rintro w w' hstep ⟨hw, hpins, hne⟩
  refine ⟨hr.stable_validated version task w w' hstep hw, hpins.movesOn (h.moves w w' hstep), ?_⟩
  intro row' hrow' hver
  obtain ⟨n, rfl, hn⟩ := hpins
  obtain ⟨row, hrow, rfl | hlater⟩ := h.moves w w' hstep row' hrow'
  · exact hne row' hrow hver
  · have hle : n ≤ row.version := (hn row hrow).1
    have hlt : row.version < row'.version := hlater.version
    have heq : n = row'.version := Option.some_inj.mp hver
    omega

omit h hr in
/-- What the write has raised. -/
def Raised (π : W → World) (V : Option Nat → Task → W → Prop) (X : Exc → W → Prop)
    (version : Option Nat) (task : Task) : Exc → W → Prop
  | .storage (.concurrency _ _) => Outrun π V version task
  | x => X x

theorem stable_raised (version : Option Nat) (task : Task) (x : Exc) :
    S.Stable (Raised π V X version task x) := by
  match x with
  | .storage (.concurrency _ _) => exact h.stable_outrun hr version task
  | .storage (.taskNotFound _) => exact hr.stable_raise _
  | .storage (.taskTerminalState _) => exact hr.stable_raise _
  | .cancelled => exact hr.stable_raise _
  | .runtime _ => exact hr.stable_raise _
  | .group _ => exact hr.stable_raise _

/-- The write that appends the message. -/
theorem appendRule (version : Option Nat) (task : Task) (hnew : isDuplicate message task = false) :
    WriteRule taskId S π .other (appendArgs message task version)
      (fun w => V version task w ∧ Pins version task (π w).row) (fun _ => A task)
      (Raised π V X version task) where
  stable := h.stable_pins hr version task
  stable_commit _ := hr.stable_after task
  stable_raise := h.stable_raised hr version task
  req_await _ w hok := hr.req_quiet _ w rfl hok
  req_update w hw hok := hr.req_update version task w hw.1 hnew hw.2 hok
  req_read b w hw hok := hr.req_read b version task w hw.1 hnew hw.2 hok
  req_write b attempt row values w hw hhonest hok :=
    hr.req_write b version task attempt row values w hw.1 hnew hw.2 hhonest hok
  seen w row hw hrow :=
    Pins.readsExpected (appendArgs message task version) hw.2 hrow
  merge b w w' out hw hperf := by
    refine ⟨hr.merge b version task w w' out hw.1 hperf, ?_⟩
    -- a merge changes artifact objects only
    have hworld := h.perform _ w w' out hperf
    rw [← (Prod.mk.inj (Option.some_inj.mp hworld)).1]
    exact hw.2
  commit e w w' b row row' he hw hok hperf hrow hw' hcommit := by
    obtain rfl : row.task = task :=
      Pins.committed (appendArgs message task version) (hrow ▸ hw.2) hcommit
    exact hr.commit e version w w' b row row' he hw.1 hnew hok hperf hrow hw' hcommit
  refused op b w e hop hw hok _ href := by
    match e, href with
    | .concurrency _ _, .conflict hne _ => exact ⟨hw.1, hw.2, hne⟩
    | .taskNotFound m, href =>
      exact hr.refused op b version task w _ hop hw.1 hw.2 hok href fun _ _ heq => nomatch heq
    | .taskTerminalState m, href =>
      exact hr.refused op b version task w _ hop hw.1 hw.2 hok href fun _ _ heq => nomatch heq
  cancelled pt w hw hok hi := hr.cancelled_validated pt version task w hw.1 hok hi
  interrupted _ w hw hok hi := hr.cancelled_after _ task w hw hok hi

omit h hr in
/-- What the load after a lost race has settled. -/
def Reexamined (message : Message) (D : Task → W → Prop) (X : Exc → W → Prop) :
    Option Task → W → Prop
  | none, w => ∀ x, X x w
  | some task, w =>
    (isDuplicate message task = true → D task w) ∧ (isDuplicate message task = false → ∀ x, X x w)

omit h in
theorem stable_reexamined (task : Option Task) : S.Stable (Reexamined message D X task) := by
  intro w w' hstep hw
  rcases task with _ | task
  · exact fun x => hr.stable_raise x w w' hstep (hw x)
  · exact ⟨fun hdup => hr.stable_duplicate task w w' hstep (hw.1 hdup),
      fun hdup x => hr.stable_raise x w w' hstep (hw.2 hdup x)⟩

theorem resolveConflict (k : StorageKind) (version : Option Nat) (task : Task) (x : Exc) :
    Triple S (fun (_ : σ) => Outrun π V version task) (TaskManager.resolveConflict k message x)
      (fun r _ w => r.2 = false ∧ D r.1 w) fun x _ => X x := by
  refine Triple.bind (Q := fun task _ => Reexamined message D X task)
    ((h.loadTask (h.stable_outrun hr version task) (hr.stable_raise .cancelled)
      (fun w _ hok => hr.req_quiet _ w rfl hok)
      (fun w hw hok hi => hr.cancelled_validated .plain version task w hw.1 hok hi) k .conflict
      (stable_reexamined hr) (fun w _ hok => hr.req_quiet _ w rfl hok) ?_).conseq
      (fun _ _ hw => hw) (fun _ _ _ hw => hw) fun _ _ _ hw => hw.1 ▸ hw.2) fun reloaded => ?_
  · rintro w ⟨hw, -, hne⟩ hok
    rcases hrow : (π w).row with _ | row
    · intro x
      refine hr.lost version task w x hw hok fun row hrow' => ?_
      exact absurd (hrow.symm.trans hrow') (by simp)
    · refine ⟨fun hdup => hr.twin version task w row hw hok hrow hdup, fun hdup x => ?_⟩
      refine hr.lost version task w x hw hok fun row' hrow' => ?_
      obtain rfl := Option.some_inj.mp (hrow.symm.trans hrow')
      exact ⟨hne row hrow, hdup⟩
  · have hstable := fun (_ : σ) => stable_reexamined hr reloaded
    rcases reloaded with _ | reloaded
    · exact Triple.throw hstable fun _ w hw => hw x
    dsimp only
    split
    · rename_i hdup
      exact Triple.pure hstable fun _ w hw => ⟨rfl, hw.1 hdup⟩
    split
    · rename_i hdup _
      exact Triple.throw hstable fun _ w hw => hw.2 (by simpa using hdup) _
    · rename_i hdup _
      exact Triple.throw hstable fun _ w hw => hw.2 (by simpa using hdup) _

/-- The write of the message: `none` if it was appended. -/
theorem appendMessage (k : StorageKind) (version : Option Nat) (task : Task)
    (hnew : isDuplicate message task = false) :
    Triple S (fun (_ : σ) w => V version task w ∧ Pins version task (π w).row)
      (TaskManager.appendMessage k message task version)
      (fun r _ w => match r with
        | none => A task w
        | some r => r.2 = false ∧ D r.1 w) fun x _ => X x := by
  refine Triple.tryCatch (X := fun x _ => Raised π V X version task x)
    (Triple.bind (h.updateTask (h.appendRule hr version task hnew) k) fun _ =>
      Triple.pure (fun _ => hr.stable_after task) fun _ w hw => hw) fun x => ?_
  match x with
  | .storage (.concurrency m v) =>
    refine Triple.bind (h.resolveConflict hr k version task _) fun r => ?_
    exact Triple.pure (fun _ w w' hstep hw => ⟨hw.1, hr.stable_duplicate _ w w' hstep hw.2⟩)
      fun _ w hw => hw
  | .storage (.taskNotFound m) => exact Triple.throw (fun _ => hr.stable_raise _) fun _ w hw => hw
  | .storage (.taskTerminalState m) =>
    exact Triple.throw (fun _ => hr.stable_raise _) fun _ w hw => hw
  | .cancelled => exact Triple.throw (fun _ => hr.stable_raise _) fun _ w hw => hw
  | .runtime m => exact Triple.throw (fun _ => hr.stable_raise _) fun _ w hw => hw
  | .group x => exact Triple.throw (fun _ => hr.stable_raise _) fun _ w hw => hw

theorem announceTransition (task : Task) :
    Triple S (fun (_ : σ) => A task) (TaskManager.announceTransition task) (fun _ _ => A task)
      fun x _ => X x := by
  rw [TaskManager.announceTransition]
  split
  · exact Triple.pure (fun _ => hr.stable_after task) fun _ w hw => hw
  · refine Triple.bind (h.ask (fun w => w.ambient.now) (fun _ => rfl) (hr.stable_after task)
      (fun _ => hr.stable_after task) (fun w _ hok => hr.req_quiet _ w rfl hok)
      fun w hw _ => hw) fun timestamp => ?_
    refine (h.sendEvent false _ (hr.stable_after task) (hr.stable_after task)
      (hr.stable_raise .cancelled) hr.req_quiet (fun w hw hok => ?_)
      (fun w hw hok hi => hr.cancelled_after .plain task w hw hok hi) hr.withdraw).conseq
      (fun _ _ hw => hw) (fun _ _ _ hw => hw) fun _ _ _ hw => hw.1 ▸ hw.2
    exact ⟨hr.req_quiet _ w rfl hok, fun w' id hperf => hr.publish task _ w w' id rfl hw hperf⟩

/-- `_submit_task` after the validation. -/
theorem submitValidated (k : StorageKind) (version : Option Nat) (task : Task) :
    Triple S (fun (_ : σ) w => V version task w ∧ Pins version task (π w).row)
      (TaskManager.submitValidated k message version task)
      (fun r _ => if r.2 then F r.1 else D r.1) fun x _ => X x := by
  rw [TaskManager.submitValidated]
  split
  · rename_i hdup
    exact Triple.pure (fun _ => h.stable_pins hr version task) fun _ w hw =>
      hr.duplicate w version task hw.1 hdup
  rename_i hnew
  refine Triple.bind (h.appendMessage hr k version task (by simpa using hnew)) fun r => ?_
  -- the message was written; otherwise the answer is the stored task
  rcases r with _ | ⟨t, enqueue⟩
  · refine Triple.bind (h.announceTransition hr task) fun _ => ?_
    refine Triple.bind (Q := fun t _ w => match t with
      | none => ∀ x, X x w
      | some t => F t w) ((h.loadTask (hr.stable_after task) (hr.stable_raise .cancelled)
        (fun w _ hok => hr.req_quiet _ w rfl hok)
        (fun w hw hok hi => hr.cancelled_after .plain task w hw hok hi) k .other
        (K := fun t w => match t with
          | none => ∀ x, X x w
          | some t => F t w) ?_ (fun w _ hok => hr.req_quiet _ w rfl hok) ?_).conseq
        (fun _ _ hw => hw) (fun _ _ _ hw => hw) fun _ _ _ hw => hw.1 ▸ hw.2) fun t => ?_
    · rintro (_ | t)
      · exact fun w w' hstep hw x => hr.stable_raise x w w' hstep (hw x)
      · exact hr.stable_final t
    · intro w hw hok
      rcases hrow : (π w).row with _ | row
      · exact fun x => hr.vanished task w x hw hok hrow
      · exact hr.final task w row hw hok hrow
    · rcases t with _ | t
      · exact Triple.throw (fun _ w w' hstep hw x => hr.stable_raise x w w' hstep (hw x))
          fun _ w hw => hw _
      · exact Triple.pure (fun _ => hr.stable_final t) fun _ w hw => hw
  · refine Triple.pure (fun _ w w' hstep hw =>
      ⟨hw.1, hr.stable_duplicate _ w w' hstep hw.2⟩) fun _ w hw => ?_
    obtain ⟨rfl, hw⟩ := hw
    exact hw

/-- `_submit_task` of a message that names a task. -/
theorem submitTask (k : StorageKind) :
    Triple S (fun (_ : σ) => B) (TaskManager.submitTask k message)
      (fun r _ => if r.2 then F r.1 else D r.1) fun x _ => X x := by
  rw [submitTask_eq]
  refine Triple.bind ((h.getVersion hr.stable_before (hr.stable_raise .cancelled)
    (fun w _ hok => hr.req_quiet _ w rfl hok)
    (fun w hw hok hi => hr.cancelled_before .plain w hw hok hi) k (h.stable_handedOut hr)
    (fun w _ hok => hr.req_quiet _ w rfl hok) ?_).conseq (fun _ _ hw => hw) (fun _ _ _ hw => hw)
    fun _ _ _ hw => hw.1 ▸ hw.2) fun version => ?_
  · exact fun w hw _ => ⟨hw, handedOut_version _⟩
  · exact Triple.bind (h.loadAndValidate hr k version) fun task => h.submitValidated hr k version task

end Hosts

/-! ### After the submission -/

/-- What a request needs while it only waits and loads: `I` holds, `R t` of the tasks `t` that
were loaded, and `X` when the client is gone. -/
structure Reading {W : Type} (S : System Call W) (π : W → World) (I : W → Prop)
    (R : Task → W → Prop) (X : Exc → W → Prop) : Prop where
  stable : S.Stable I
  stable_loaded : ∀ t, S.Stable (R t)
  stable_raise : S.Stable (X .cancelled)
  req_quiet : ∀ {β : Type} (e : Op β) o, e.quiet = true → S.ok (.inl e) o → S.req (.inl e) o
  loaded : ∀ o row, I o → (π o).row = some row → R row.task o
  cancelled : ∀ o, I o → S.ok (.inl (.await .plain)) o → (π o).interrupted = true →
    X .cancelled o

namespace Reading

variable {cfg : BusConfig} {taskId : TaskId} {W : Type} {S : System Call W} {π : W → World}
  {I : W → Prop} {R : Task → W → Prop} {X : Exc → W → Prop}
  (h : Hosts cfg taskId (S.comap fun _ => Sum.inl) π) (hr : Reading S π I R X)
include hr

/-- A task is known. -/
theorem knowing (task : Task) : Reading S π (fun o => I o ∧ R task o) R X where
  stable o o' hstep ho := ⟨hr.stable o o' hstep ho.1, hr.stable_loaded task o o' hstep ho.2⟩
  stable_loaded := hr.stable_loaded
  stable_raise := hr.stable_raise
  req_quiet := hr.req_quiet
  loaded o row ho := hr.loaded o row ho.1
  cancelled o ho := hr.cancelled o ho.1

include h

/-- An await of a request. -/
theorem wait :
    Triple S (fun _ => I) (onTask (checkpoint .plain)) (fun _ _ => I) fun x _ => X x :=
  Triple.lift ((h.checkpoint .plain hr.stable hr.stable_raise
    (fun o _ hok => hr.req_quiet _ o rfl hok) hr.cancelled).conseq (fun _ _ ho => ho)
    (fun _ _ _ ho => ho) fun _ _ _ ho => ho.1 ▸ ho.2)

/-- A load of a request, which falls back on the task that it knows. -/
theorem load (k : StorageKind) (task : Task) :
    Triple S (fun _ o => I o ∧ R task o) (onTask (loadTask k .other))
      (fun t _ o => I o ∧ R (t.getD task) o) fun x _ => X x := by
  have hk := hr.knowing task
  refine Triple.lift ((h.loadTask hk.stable hr.stable_raise
    (fun o _ hok => hr.req_quiet _ o rfl hok) hk.cancelled k .other
    (fun t => (hr.knowing (t.getD task)).stable) (fun o _ hok => hr.req_quiet _ o rfl hok)
    ?_).conseq (fun _ _ ho => ho) (fun _ _ _ ho => ho) fun _ _ _ ho => ho.1 ▸ ho.2)
  intro o ho _
  refine ⟨ho.1, ?_⟩
  rcases hrow : (π o).row with _ | row
  · exact ho.2
  · exact hr.loaded o row ho.1 hrow

theorem currentTask (k : StorageKind) (params : SendParams) (task : Task) :
    Triple S (fun _ o => I o ∧ R task o) (TaskManager.currentTask k params task)
      (fun t _ o => I o ∧ R t o) fun x _ => X x := by
  refine Triple.bind (hr.load h k task) fun latest => ?_
  split
  · refine Triple.bind (hr.load h k (latest.getD task)) fun trimmed => ?_
    refine Triple.pure (fun _ => (hr.knowing _).stable) fun _ o ho => ⟨ho.1, ?_⟩
    rcases trimmed with _ | trimmed
    · exact ho.2
    · exact ho.2
  · exact Triple.pure (fun _ => (hr.knowing _).stable) fun _ o ho => ho

theorem setConfig (params : SendParams) :
    Triple S (fun _ => I) (TaskManager.setConfig params) (fun _ _ => I) fun x _ => X x := by
  rw [TaskManager.setConfig]
  split
  · exact hr.wait h
  · exact Triple.pure (fun _ => hr.stable) fun _ _ ho => ho

theorem snapshot (k : StorageKind) (params : SendParams) (task : Task) :
    Triple S (fun _ o => I o ∧ R task o) (TaskManager.snapshot k params)
      (fun t _ o => I o ∧ R (t.getD task) o) fun x _ => X x := by
  rw [TaskManager.snapshot]
  split
  · exact hr.load h k task
  · exact Triple.pure (fun _ => (hr.knowing task).stable) fun _ _ ho => ho

/-- The rest of a request that repeats an earlier one. -/
theorem repetition (k : StorageKind) (params : SendParams) (task : Task) :
    Triple S (fun _ o => I o ∧ R task o)
      (if params.mode = .stream then TaskManager.streamRest k params task false
        else TaskManager.sendRest k params task false) (fun t _ o => I o ∧ R t o)
      fun x _ => X x := by
  split
  · refine Triple.bind ((hr.knowing task).setConfig h params) fun _ => ?_
    refine Triple.bind (hr.snapshot h k params task) fun trimmed => ?_
    refine Triple.bind ((hr.knowing _).wait h) fun _ => ?_
    refine Triple.bind (hr.load h k (trimmed.getD task)) fun fresh => ?_
    exact Triple.pure (fun _ => (hr.knowing _).stable) fun _ _ ho => ho
  · exact hr.currentTask h k params task

end Reading

/-- What the rest of a request does to the assertions around it: `J` holds until the operation
is handed over, and `K` after it. -/
structure HandOver {W : Type} (S : System Call W) (π : W → World) (J K : W → Prop)
    (R : Task → W → Prop) (X : Exc → W → Prop) : Prop where
  before : Reading S π J R X
  after : Reading S π K R X
  enqueue : ∀ message o, J o → S.ok (.inr (.enqueue message)) o →
    S.req (.inr (.enqueue message)) o ∧
      ∀ o', S.perform (.inr (.enqueue message)) o = some (o', ()) →
        K o' ∧ ∀ t, R t o → R t o'

namespace HandOver

variable {cfg : BusConfig} {taskId : TaskId} {W : Type} {S : System Call W} {π : W → World}
  {J K : W → Prop} {R : Task → W → Prop} {X : Exc → W → Prop}
  (h : Hosts cfg taskId (S.comap fun _ => Sum.inl) π) (hr : HandOver S π J K R X)
include hr

theorem enqueued (message : Message) (task : Task) :
    Triple S (fun _ o => J o ∧ R task o) (Act.perform (.inr (.enqueue message)) : RequestM Unit)
      (fun _ _ o => K o ∧ R task o) fun x _ => X x := by
  refine Triple.perform (fun _ => (hr.before.knowing task).stable)
    (fun _ _ => (hr.after.knowing task).stable) fun _ o ho hok => ?_
  obtain ⟨hreq, hstep⟩ := hr.enqueue message o ho.1 hok
  refine ⟨hreq, fun o' _ hperf => ?_⟩
  obtain ⟨hK, hR⟩ := hstep o' hperf
  exact ⟨hK, hR task ho.2⟩

include h

theorem handOver (params : SendParams) (bound : Message) (task : Task) :
    Triple S (fun _ o => J o ∧ R task o) (TaskManager.handOver params bound)
      (fun _ _ o => K o ∧ R task o) fun x _ => X x := by
  rw [TaskManager.handOver]
  split
  · refine Triple.bind ((hr.before.knowing task).wait h) fun _ => ?_
    exact Triple.bind (hr.enqueued bound task) fun _ => (hr.after.knowing task).wait h
  · exact hr.enqueued bound task

/-- The rest of a request whose submission has to be enqueued. -/
theorem rest (k : StorageKind) (params : SendParams) (task : Task) :
    Triple S (fun _ o => J o ∧ R task o)
      (if params.mode = .stream then TaskManager.streamRest k params task true
        else TaskManager.sendRest k params task true) (fun t _ o => K o ∧ R t o) fun x _ => X x := by
  have hconfig := (hr.before.knowing task).setConfig h params
  split
  · refine Triple.bind hconfig fun _ => ?_
    refine Triple.bind (hr.before.snapshot h k params task) fun trimmed => ?_
    refine Triple.bind ((hr.before.knowing _).wait h) fun _ => ?_
    refine Triple.bind (hr.enqueued _ (trimmed.getD task)) fun _ => ?_
    exact Triple.pure (fun _ => (hr.after.knowing _).stable) fun _ _ ho => ho
  · refine Triple.bind hconfig fun _ => Triple.bind (hr.handOver h params _ task) fun _ => ?_
    exact hr.after.currentTask h k params task

end HandOver

end A2AKit
