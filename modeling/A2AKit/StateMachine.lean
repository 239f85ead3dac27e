/-
The state machine of a task.

The parties that change the state of a task are the turns of its operations, the ladders that
end it, the follow-up messages and the background task that enqueues it.  Each of them is
followed through every run against arbitrary other parties, and what it commits is compared with
the state machine of the documentation (`TaskState.mayBecome`).

All writes keep to the state machine except two kinds of the turn: its transition to working is
a blind write, which the storage refuses for a terminal task only, and a pause is written again
under a fresh version after a lost race.  So a redelivered operation takes a paused task back to
working (`redelivery_resumes_paused`).  This cannot happen in a steady turn: it begins on a task
that is not paused, and no other turn pauses the task while it is at work.  What such a turn finds
stored follows from what it has committed itself (`Steady`).  So every change of a run is one of the
state machine, and only a follow-up submits a task again (`state_machine_kept`).
-/
import A2AKit.AckFailure
import A2AKit.EnqueueFailure
import A2AKit.FollowUps

namespace A2AKit

open Act (Triple)
open TaskManager

/-- The state machine: a worker picks the task up, or up again, it pauses or ends it, and a
follow-up message submits a paused task. -/
def TaskState.mayBecome : TaskState → TaskState → Bool
  | .submitted, .working => true
  | .working, .working => true
  | .working, .inputRequired => true
  | .working, .authRequired => true
  | .inputRequired, .submitted => true
  | .authRequired, .submitted => true
  | old, new => !old.isTerminal && new.isTerminal

/-! ### Writes -/

/-- The state that a write commits. -/
def Op.state? {β : Type} : Op β → Option TaskState
  | .update _ args => args.state
  | .updateRead _ _ args => args.state
  | .updateWrite _ _ args _ _ _ => args.state
  | _ => none

/-- A task that is taken up was submitted or working, and one that is paused was working. -/
def expectedFrom (new old : TaskState) : Bool :=
  match new with
  | .working => old == .submitted || old == .working
  | .inputRequired => old == .working
  | .authRequired => old == .working
  | _ => true

/-- The state machine has no other way than the expected ones, and the one back to submitted. -/
theorem mayBecome_of_expected {old new : TaskState} (hsub : new ≠ .submitted)
    (hlive : old.isTerminal = false) (h : expectedFrom new old = true) :
    old.mayBecome new = true := by
  revert hsub hlive h
  cases old <;> cases new <;> decide

theorem mayBecome_terminal {old new : TaskState} (hlive : old.isTerminal = false)
    (hterm : new.isTerminal = true) : old.mayBecome new = true := by
  revert hlive hterm
  cases old <;> cases new <;> decide

/-- A committed state. -/
structure StateWrite (taskId : TaskId) {β : Type} (e : Op β) (w w' : World) (row row' : Row)
    (new : TaskState) : Prop where
  found : w.row = some row
  stored : w'.row = some row'
  state : e.state? = some new
  written : w'.written = w.written ++ [new]
  changed : row'.task.status.state = new
  live : row.task.status.state.isTerminal = false

section

variable {cfg : BusConfig} {taskId : TaskId} {w w' : World}

/-- A commit of `update_task` that sets a state. -/
theorem TaskCommit.commit {β : Type} {e : Op β} {args : UpdateArgs Ref} {row row' : Row}
    (hcommit : TaskCommit taskId args row row') (hrow : w.row = some row)
    (hw' : w' = { w with row := some row', written := w.written ++ args.state.toList })
    (he : e.state? = args.state) (hwritten : w'.written ≠ w.written) :
    ∃ new, StateWrite taskId e w w' row row' new := by
  rcases hs : args.state with _ | new
  · refine absurd ?_ hwritten
    rw [hw', hs]
    exact List.append_nil _
  · obtain ⟨now, hstatus⟩ := hcommit.status
    refine ⟨new, hrow, by rw [hw'], he.trans hs, by rw [hw', hs]; rfl, ?_, ?_⟩
    · rw [hstatus, nextStatus_state, hs]
      rfl
    · have hguard := hcommit.guard
      by_contra hterm
      simp [terminalGuard, hs, hterm] at hguard

/-- What an operation writes that is made from the row it overwrites. -/
theorem commit_of_written {β : Type} {e : Op β} {b : β} (hreq : WritesHonestly taskId e w)
    (hperf : World.perform cfg taskId e w = some (w', b)) (hwritten : w'.written ≠ w.written) :
    ∃ row row' new, StateWrite taskId e w w' row row' new := by
  have hwrites : WritesOf taskId (fun args => e.state? = args.state) e w := by
    cases e with
    | update site args => exact rfl
    | updateWrite b site args attempt row values => exact ⟨hreq, rfl⟩
    | _ => trivial
  rcases hwrites.perform hperf with ⟨-, hsame⟩ | ⟨args, row, row', hargs, hrow, hcommit, hw'⟩
  · exact absurd hsame hwritten
  · exact ⟨row, row', hcommit.commit hrow hw' hargs hwritten⟩

end

/-! ### Steady turns -/

/-- The turn takes its task up first, and it pauses it only after that and once. -/
def InTurn {β : Type} (e : Op β) (w : World) : Prop :=
  (e.state? = some .working → w.written = []) ∧
    ((∃ st ∈ e.state?, awaitsInput st = true) →
      ∃ st ∈ w.written.getLast?, st = .working ∨ st.isTerminal = true)

theorem inTurn_of_none {β : Type} {e : Op β} {w : World} (he : e.state? = none) : InTurn e w :=
  ⟨fun h => absurd (he.symm.trans h) (by simp), fun ⟨_, h, _⟩ => absurd (he.symm.trans h) (by simp)⟩

/-- Other parties write, delete, cancel and use the bus, but no other turn pauses the task while
this one is at work. -/
def steadyTurn (cfg : BusConfig) (taskId : TaskId) : Setting where
  cfg := cfg
  taskId := taskId
  writes := fun args => ∀ st ∈ args.state, awaitsInput st = false ∧ st ≠ .submitted
  deletes := True
  cancels := True
  bus := fun _ _ => True
  loads := fun _ _ => True
  ok := InTurn

/-- The turn has not begun, and the task is not paused. -/
def World.Fresh (w : World) : Prop :=
  w.written = [] ∧ ∀ row ∈ w.row, awaitsInput row.task.status.state = false

/-- What is stored, by the last state that the turn has committed. -/
structure Steady (w : World) : Prop where
  unpaused : (∀ st ∈ w.written.getLast?, awaitsInput st = false) →
    ∀ row ∈ w.row, awaitsInput row.task.status.state = false
  working : w.written.getLast? = some .working →
    ∀ row ∈ w.row, row.task.status.state = .working ∨ row.task.status.state.isTerminal = true
  ended : ∀ st ∈ w.written.getLast?, st.isTerminal = true →
    ∀ row ∈ w.row, row.task.status.state.isTerminal = true

section

variable {cfg : BusConfig} {taskId : TaskId} {w w' : World}

theorem World.Fresh.steady (h : w.Fresh) : Steady w where
  unpaused _ := h.2
  working hlast := by simp [h.1] at hlast
  ended st hlast := by simp [h.1] at hlast

/-- A step that commits nothing keeps it, if a live task keeps its state, goes to working or ends. -/
theorem Steady.moved (hw : Steady w) (hwritten : w'.written = w.written)
    (hstate : ∀ row' ∈ w'.row, ∃ row ∈ w.row,
      row'.task.status.state = row.task.status.state ∨
        row.task.status.state.isTerminal = false ∧ awaitsInput row'.task.status.state = false ∧
          row'.task.status.state ≠ .submitted) : Steady w' := by
  have hlive : ∀ st : TaskState, awaitsInput st = false → st ≠ .submitted →
      st = .working ∨ st.isTerminal = true := by
    intro st
    cases st <;> decide
  refine ⟨fun hlast row' hrow' => ?_, fun hlast row' hrow' => ?_, fun st hlast hterm row' hrow' => ?_⟩
  · rw [hwritten] at hlast
    obtain ⟨row, hrow, hsame | ⟨-, hnew, -⟩⟩ := hstate row' hrow'
    · rw [hsame]
      exact hw.unpaused hlast row hrow
    · exact hnew
  · rw [hwritten] at hlast
    obtain ⟨row, hrow, hsame | ⟨-, hnew, hsub⟩⟩ := hstate row' hrow'
    · rw [hsame]
      exact hw.working hlast row hrow
    · exact hlive _ hnew hsub
  · rw [hwritten] at hlast
    obtain ⟨row, hrow, hsame | ⟨hold, -, -⟩⟩ := hstate row' hrow'
    · rw [hsame]
      exact hw.ended st hlast hterm row hrow
    · exact absurd (hold.symm.trans (hw.ended st hlast hterm row hrow)) (by simp)

theorem stable_steady : (steadyTurn cfg taskId).Stable Steady := by
  intro w w' hstep hw
  have hrows : w'.row = w.row → w'.written = w.written → Steady w' := fun hrow hwritten =>
    hw.moved hwritten fun row' hrow' => ⟨row', hrow ▸ hrow', Or.inl rfl⟩
  cases hstep with
  | @write row heap args now hargs hrow hguard =>
    refine hw.moved rfl fun row' hrow' => ⟨row, hrow, ?_⟩
    obtain rfl := Option.some_inj.mp hrow'
    have hnext : (InMemoryStorage.updatedTask heap row.task args now).status.state =
        args.state.getD row.task.status.state := InMemoryStorage.updatedTask_state ..
    rcases hstate : args.state with _ | st
    · rw [hstate] at hnext
      exact Or.inl hnext
    · rw [hstate] at hnext hguard
      have hst := hargs st hstate
      have hlive : row.task.status.state.isTerminal = false := by
        by_contra hterm
        simp [terminalGuard, hterm] at hguard
      refine Or.inr ⟨hlive, ?_, ?_⟩
      · exact hnext ▸ hst.1
      · exact fun h => hst.2 (hnext.symm.trans h)
  | delete _ =>
    refine hw.moved rfl fun row' hrow' => ?_
    simp at hrow'
  | bus _ hbus =>
    obtain ⟨out, -, rfl⟩ := World.busStep_some hbus
    exact hrows rfl rfl
  | _ => exact hrows rfl rfl

/-- The turn commits a state, or leaves the state alone. -/
theorem Steady.perform {β : Type} {e : Op β} {b : β} (hw : Steady w)
    (hreq : WritesHonestly taskId e w) (hperf : World.perform cfg taskId e w = some (w', b)) :
    Steady w' := by
  have hwrites : WritesOf taskId (fun args => e.state? = args.state) e w := by
    cases e with
    | update site args => exact rfl
    | updateWrite b site args attempt row values => exact ⟨hreq, rfl⟩
    | _ => trivial
  rcases hwrites.perform hperf with ⟨hrow, hwritten⟩ | ⟨args, row, row', -, hrow, hcommit, rfl⟩
  · exact hw.moved hwritten fun row' hrow' => ⟨row', hrow ▸ hrow', Or.inl rfl⟩
  obtain ⟨now, hstatus⟩ := hcommit.status
  have hnext : row'.task.status.state = args.state.getD row.task.status.state := by
    rw [hstatus, nextStatus_state]
  rcases hs : args.state with _ | new
  · rw [hs] at hnext
    refine hw.moved (by simp) fun r hr => ⟨row, hrow, Or.inl ?_⟩
    obtain rfl := Option.some_inj.mp hr
    exact hnext
  · rw [hs] at hnext
    have hlast : ∀ st ∈ (w.written ++ [new]).getLast?, st = new := by simp
    refine ⟨fun hst r hr => ?_, fun hst r hr => ?_, fun st hst hterm r hr => ?_⟩
    · obtain rfl := Option.some_inj.mp hr
      exact hnext ▸ hst new (by simp)
    · obtain rfl := Option.some_inj.mp hr
      exact Or.inl (hnext.trans (hlast _ hst).symm)
    · obtain rfl := Option.some_inj.mp hr
      rw [hnext]
      exact hlast st hst ▸ hterm

/-- What a steady turn commits in its place is expected. -/
theorem StateWrite.expected {β : Type} {e : Op β} {row row' : Row} {new : TaskState}
    (h : StateWrite taskId e w w' row row' new) (hok : InTurn e w) (hw : Steady w) :
    expectedFrom new row.task.status.state = true := by
  obtain ⟨hfirst, hpause⟩ := hok
  rw [h.state] at hfirst hpause
  have hlive := h.live
  -- a task that this turn has taken up, and that has not ended, is working
  have hworking : awaitsInput new = true → row.task.status.state = .working := by
    intro hnew
    obtain ⟨st, hst, rfl | hterm⟩ := hpause ⟨new, rfl, hnew⟩
    · refine (hw.working hst row h.found).resolve_right fun hterm => ?_
      exact absurd (hlive.symm.trans hterm) (by simp)
    · exact absurd (hlive.symm.trans (hw.ended st hst hterm row h.found)) (by simp)
  cases new with
  | working =>
    have hunpaused := hw.unpaused (by simp [hfirst rfl]) row h.found
    revert hunpaused hlive
    cases row.task.status.state <;> decide
  | inputRequired =>
    rw [hworking rfl]
    rfl
  | authRequired =>
    rw [hworking rfl]
    rfl
  | _ => rfl

end

/-! ### The parties -/

/-- A program that is started in a world with `start`, and then commits the state `new` over
`row`. -/
def CommitsOver {E : Type → Type} {W α : Type} (S : System E W) (π : W → World)
    (start : W → Prop) (p : Prog E α) (row : Row) (new : TaskState) (row' : Row) : Prop :=
  ∃ (w w₁ w₂ : W) (β : Type) (e : E β) (b : β) (cont : β → Prog E α), start w ∧
    S.Reaches (p, w) (.op e cont, w₁) ∧ S.ok e w₁ ∧ S.perform e w₁ = some (w₂, b) ∧
      (π w₁).row = some row ∧ (π w₂).row = some row' ∧ (π w₂).written = (π w₁).written ++ [new]

theorem CommitsOver.intro {E : Type → Type} {W α β : Type} {S : System E W} {π : W → World}
    {start : W → Prop} {p : Prog E α} {row row' : Row} {new : TaskState} {w u v : W} {e : E β}
    {b : β} {cont : β → Prog E α} (hrun : S.Reaches (p, w) (.op e cont, u)) (hstart : start w)
    (hok : S.ok e u) (hperf : S.perform e u = some (v, b)) (hrow : (π u).row = some row)
    (hrow' : (π v).row = some row') (hwritten : (π v).written = (π u).written ++ [new]) :
    CommitsOver S π start p row new row' :=
  ⟨w, u, v, β, e, b, cont, hstart, hrun, hok, hperf, hrow, hrow', hwritten⟩

/-- Who changes the state of a task: a turn with its handler, an operation whose dispatch or
acknowledgement has failed, a canceller whose deadline is over, a follow-up message, and the
background task that enqueues a submission. -/
inductive Party
  | turn (contextId : Option ContextId) (ctx : TaskContext) (handler : Handler)
  | operation (contextId : Option ContextId) (attempt maxRetries : Nat)
  | forceCancel
  | followUp (message : Message)
  | enqueue

/-- Any other parties. -/
abbrev amongOthers (cfg : BusConfig) (taskId : TaskId) : Setting :=
  anyParty cfg taskId fun _ _ => True

/-- What a party commits, in some run among any other parties.  A turn that takes the task up or
pauses it is a steady one. -/
def Party.commits (cfg : BusConfig) (taskId : TaskId) (k : StorageKind) :
    Party → Row → TaskState → Row → Prop
  | .turn contextId ctx handler => fun row new row' =>
    let turn := WorkerAdapter.runTaskInner k taskId contextId
      (TaskContext.run k taskId contextId handler) ctx
    new.isTerminal = true ∧
        CommitsOver (amongOthers cfg taskId).system id (fun _ => True) turn row new row' ∨
      CommitsOver (steadyTurn cfg taskId).system id World.Fresh turn row new row'
  | .operation contextId attempt maxRetries =>
    CommitsOver (amongOthers cfg taskId).system id (fun _ => True)
      ((handleOpInner k taskId contextId attempt maxRetries : TaskM Unit Unit) ())
  | .forceCancel =>
    CommitsOver (amongOthers cfg taskId).system id (fun _ => True)
      ((forceCancelAfter k taskId : TaskM Unit Unit) ())
  | .followUp message =>
    CommitsOver (amongOthers cfg taskId).system id (fun _ => True)
      ((submitTask k message : TaskM Unit _) ())
  | .enqueue =>
    CommitsOver (backgroundSystem cfg taskId) Office.world (fun o => o.world.inScope = false)
      (TaskManager.enqueueOrFail k taskId ())

/-- A recorded change of the state, and who has made it. -/
structure Change where
  who : Party
  before : Row
  state : TaskState
  after : Row

/-- The life of a task: its parties commit one after the other, in any order and any number, and
in between there are writes that do not set a state. -/
inductive TaskRun (cfg : BusConfig) (taskId : TaskId) (k : StorageKind) (row₀ : Row) :
    List Change → Row → Prop
  | start : TaskRun cfg taskId k row₀ [] row₀
  | write {cs : List Change} {row row' : Row} : TaskRun cfg taskId k row₀ cs row →
      Later row row' → row'.task.status.state = row.task.status.state →
      TaskRun cfg taskId k row₀ cs row'
  | change {cs : List Change} {row : Row} {c : Change} : TaskRun cfg taskId k row₀ cs row →
      c.before = row → c.who.commits cfg taskId k c.before c.state c.after →
      TaskRun cfg taskId k row₀ (cs ++ [c]) c.after

/-- The change is one of the state machine, and back to submitted it is the follow-up message
that does it, by being appended. -/
structure Change.Kept (c : Change) : Prop where
  recorded : c.after.task.status.state = c.state
  allowed : c.before.task.status.state.mayBecome c.state = true
  resumed : c.state = .submitted → ∃ message, c.who = .followUp message ∧
    Accepted message c.before c.after

section

variable {cfg : BusConfig} {taskId : TaskId} {k : StorageKind} {row row' : Row} {new : TaskState}

/-- The operation sets none but these states. -/
def Sets (states : TaskState → Prop) {β : Type} (e : Op β) : Prop :=
  ∀ st, e.state? = some st → states st

theorem permits_sets (states : TaskState → Prop) : Permits (fun _ => Sets states) states where
  quiet _ e he := by
    cases e with
    | update site args => exact nomatch he
    | updateRead b site args => exact nomatch he
    | updateWrite b site args attempt row values => exact nomatch he
    | _ => exact fun _ h => nomatch h
  publish _ _ _ _ h := nomatch h
  update _ _ _ hargs := hargs
  read _ _ _ _ hargs := hargs
  write _ _ _ _ _ _ _ hargs := hargs

/-- The writes of turns and ladders are made from the row they overwrite. -/
theorem streamRule_honest (T : Setting) :
    StreamRule T (WritesHonestly T.taskId) (fun _ => True) fun _ _ => True where
  req_quiet e _ he := by
    cases e with
    | updateWrite b site args attempt row values => exact nomatch he
    | _ => trivial
  req_update _ _ _ := trivial
  req_read _ _ _ _ := trivial
  req_write _ _ _ _ _ _ _ hw := hw
  quiet := Quiet.const T True
  open_ _ := Quiet.const T True
  merge _ _ _ := trivial
  commit args _ _ _ _ _ _ := by split <;> trivial
  interrupted _ _ _ _ _ _ _ _ := trivial
  req_marker _ _ _ _ _ := trivial
  marker _ _ _ _ _ _ _ _ _ := trivial

/-- A commit of a program that writes over the rows it has read. -/
theorem CommitsOver.write {T : Setting} {start : World → Prop} {σ α : Type} {m : TaskM σ α} {s : σ}
    (hT : T.taskId = taskId) (hkeeps : Keeps T (WritesHonestly taskId) (fun _ => True) m)
    (h : CommitsOver T.system id start (m s) row new row') :
    ∃ (w w₁ w₂ : World) (β : Type) (e : Op β) (cont : β → Prog Op (Except Exc α × σ)), start w ∧
      T.system.Reaches (m s, w) (.op e cont, w₁) ∧ T.ok e w₁ ∧
      StateWrite taskId e w₁ w₂ row row' new := by
  subst hT
  obtain ⟨w, w₁, w₂, β, e, b, cont, hstart, hrun, hok, hperf, hrow, hrow', hwritten⟩ := h
  have hreq : WritesHonestly T.taskId e w₁ := Prog.wp_req (hkeeps s w trivial)
    (Setting.reaches_systemWith _ hrun) hok
  have hne : w₂.written ≠ w₁.written := by
    intro hsame
    exact absurd (hwritten.symm.trans hsame) (by simp)
  obtain ⟨r, r', st, hcommit⟩ := commit_of_written hreq hperf hne
  obtain rfl := Option.some_inj.mp (hrow.symm.trans hcommit.found)
  obtain rfl := Option.some_inj.mp (hrow'.symm.trans hcommit.stored)
  obtain rfl : new = st := by
    have hlists := hwritten.symm.trans hcommit.written
    simpa using hlists
  exact ⟨w, w₁, w₂, β, e, cont, hstart, hrun, hok, hcommit⟩

/-- A program that only ends the task keeps to the state machine. -/
theorem CommitsOver.ending {σ α : Type} {m : TaskM σ α} {s : σ}
    (hkeeps : Keeps (amongOthers cfg taskId) (WritesHonestly taskId) (fun _ => True) m)
    (hends : new.isTerminal = true ∨ Act.Only (Sets fun st => st.isTerminal = true) m)
    (h : CommitsOver (amongOthers cfg taskId).system id (fun _ => True) (m s) row new row') :
    row'.task.status.state = new ∧ row.task.status.state.mayBecome new = true ∧
      new ≠ .submitted := by
  obtain ⟨w, w₁, w₂, β, e, cont, -, hrun, -, hcommit⟩ := h.write rfl hkeeps
  have hterm : new.isTerminal = true := by
    rcases hends with hterm | honly
    · exact hterm
    · exact (Prog.only_reaches hrun (honly s)).1 new hcommit.state
  refine ⟨hcommit.changed, mayBecome_terminal hcommit.live hterm, ?_⟩
  rintro rfl
  exact absurd hterm (by decide)

/-- Wherever a steady turn is, the stored task is as its own commits say. -/
theorem steady_of_reaches {σ α : Type} {m : TaskM σ α} {s : σ} {w w' : World}
    {p : Prog Op (Except Exc α × σ)}
    (hkeeps : Keeps (steadyTurn cfg taskId) (WritesHonestly taskId) (fun _ => True) m)
    (hfresh : w.Fresh) (hrun : (steadyTurn cfg taskId).system.Reaches (m s, w) (p, w')) :
    Steady w' :=
  Prog.wp_invariant (S := (steadyTurn cfg taskId).systemWith (WritesHonestly taskId)) stable_steady
    (fun _ _ _ _ _ _ hreq hperf hw => hw.perform hreq hperf)
    (Setting.reaches_systemWith _ hrun) (hkeeps s w trivial) hfresh.steady

/-- A steady turn keeps to the state machine. -/
theorem CommitsOver.steady {σ α : Type} {m : TaskM σ α} {s : σ}
    (hkeeps : Keeps (steadyTurn cfg taskId) (WritesHonestly taskId) (fun _ => True) m)
    (honly : Act.Only (Sets fun st => st ≠ .submitted) m)
    (h : CommitsOver (steadyTurn cfg taskId).system id World.Fresh (m s) row new row') :
    row'.task.status.state = new ∧ row.task.status.state.mayBecome new = true ∧
      new ≠ .submitted := by
  obtain ⟨w, w₁, w₂, β, e, cont, hfresh, hrun, hok, hcommit⟩ := h.write rfl hkeeps
  have hsub := (Prog.only_reaches hrun (honly s)).1 new hcommit.state
  have hexpected := hcommit.expected hok (steady_of_reaches hkeeps hfresh hrun)
  exact ⟨hcommit.changed, mayBecome_of_expected hsub hcommit.live hexpected, hsub⟩

theorem keeps_turn (T : Setting) (k : StorageKind) (contextId : Option ContextId)
    (handler : Handler) :
    Keeps T (WritesHonestly T.taskId) (fun _ => True) (WorkerAdapter.runTaskInner k taskId contextId
      (TaskContext.run k taskId contextId handler)) :=
  ((streamRule_honest T).discipline k).runTaskInner (fun w _ => known_none w) (fun _ _ => trivial)
    (fun _ _ => ⟨fun hw => hw, fun _ hw => hw⟩) handler

/-! ### Follow-up messages -/

theorem EnvStep.movesOn {T : Setting} {w w' : World} (h : EnvStep T w w') :
    MovesOn w.row w'.row := by
  cases h with
  | @write row h args now _ hrow hguard =>
    intro row' hrow'
    obtain rfl := Option.some_inj.mp hrow'
    obtain ⟨hid, hctx⟩ := updatedTask_ids args h row.task now
    have hcommit : TaskCommit T.taskId { args with expectedVersion := none } row
        { row with
          task := InMemoryStorage.updatedTask h row.task args now, version := row.version + 1 } :=
      ⟨⟨rfl, hguard, (fun _ hn => nomatch hn), now, updatedTask_status _ _⟩, hid, hctx,
        updatedTask_history _ _ _, rfl, fun _ => updatedTask_metadata _ _ _⟩
    exact ⟨row, hrow, Or.inr hcommit.later⟩
  | delete _ => exact fun _ hrow' => nomatch hrow'
  | bus _ hbus =>
    obtain ⟨out, -, rfl⟩ := World.busStep_some hbus
    exact .refl _
  | _ => exact .refl _

/-- A write of a submission is the append of its message over the task it has validated. -/
def AppendsHonestly (taskId : TaskId) (message : Message) {β : Type} (e : Op β) (w : World) :
    Prop :=
  match e with
  | .update _ args => Appends message args w.row
  | .updateWrite b _ args _ row values =>
    Honest taskId b args row values w ∧ Appends message args w.row
  | _ => True

theorem Setting.hosts (T : Setting) (req : {β : Type} → Op β → World → Prop) :
    Hosts T.cfg T.taskId (T.systemWith req) id where
  perform _ _ _ _ hperf := hperf
  same _ _ _ _ _ hsame := hsame
  moves _ _ hstep := EnvStep.movesOn hstep

theorem appends_submitRule (T : Setting) (message : Message) :
    SubmitRule T.taskId (T.systemWith (AppendsHonestly T.taskId message)) id message
      (fun _ => True) (fun _ task _ => accepts message task = true) (fun _ _ => True)
      (fun _ _ => True) (fun _ _ => True) fun _ _ => True where
  stable_before _ _ _ hw := hw
  stable_validated _ _ _ _ _ hw := hw
  stable_after _ _ _ _ hw := hw
  stable_duplicate _ _ _ _ hw := hw
  stable_final _ _ _ _ hw := hw
  stable_raise _ _ _ _ hw := hw
  req_quiet e _ he _ := by
    cases e with
    | update site args => exact nomatch he
    | updateWrite b site args attempt row values => exact nomatch he
    | _ => trivial
  req_update version task w hacc hnew hpins _ := by
    -- the pinned version is the one of the task that accepted the message
    obtain ⟨n, rfl, hn⟩ := hpins
    refine ⟨n, rfl, fun row hrow hver => ?_⟩
    rw [(hn row hrow).2 hver]
    exact ⟨hacc, hnew, rfl⟩
  req_read _ _ _ _ _ _ _ _ := trivial
  req_write b version task attempt row values w hacc hnew hpins hhonest _ := by
    obtain ⟨n, rfl, hn⟩ := hpins
    refine ⟨hhonest, n, rfl, fun row hrow hver => ?_⟩
    rw [(hn row hrow).2 hver]
    exact ⟨hacc, hnew, rfl⟩
  missing _ _ _ _ _ := trivial
  rejected _ _ _ _ _ _ _ := trivial
  validated _ _ _ _ _ _ hacc _ := hacc
  duplicate _ _ _ _ _ := trivial
  merge _ _ _ _ _ _ hacc _ := hacc
  commit _ _ _ _ _ _ _ _ _ _ _ _ _ _ _ := trivial
  refused _ _ _ _ _ _ _ _ _ _ _ _ := trivial
  twin _ _ _ _ _ _ _ _ := trivial
  lost _ _ _ _ _ _ _ := trivial
  publish _ _ _ _ _ _ _ _ := trivial
  withdraw _ _ _ _ _ := trivial
  vanished _ _ _ _ _ _ := trivial
  final _ _ _ _ _ _ := trivial
  cancelled_before _ _ _ _ _ := trivial
  cancelled_validated _ _ _ _ _ _ _ := trivial
  cancelled_after _ _ _ _ _ _ := trivial

/-- The commit of a follow-up message that changes the state. -/
theorem Accepted.resumes {m : Message} (h : Accepted m row row')
    (hnew : computeStateTransition row.task = some new) :
    row'.task.status.state = new ∧ row.task.status.state.mayBecome new = true := by
  refine ⟨by rw [h.state, hnew]; rfl, ?_⟩
  rw [computeStateTransition] at hnew
  split at hnew
  · rename_i hpaused
    obtain rfl := Option.some_inj.mp hnew
    rw [awaitsInput, Bool.or_eq_true_iff] at hpaused
    rcases hpaused with hstate | hstate
    · rw [eq_of_beq hstate]
      rfl
    · rw [eq_of_beq hstate]
      rfl
  · cases hnew

/-- The change by a commit of the append. -/
theorem Appends.change {m : Message} {args : UpdateArgs Ref} {w w' : World} {r r' : Row}
    (h : Appends m args w.row) (hr : w.row = some r) (hcommit : TaskCommit taskId args r r')
    (hw' : w' = { w with row := some r', written := w.written ++ args.state.toList })
    (hrow : w.row = some row) (hrow' : w'.row = some row')
    (hwritten : w'.written = w.written ++ [new]) :
    row'.task.status.state = new ∧ row.task.status.state.mayBecome new = true ∧
      Accepted m row row' := by
  obtain rfl := Option.some_inj.mp (hrow.symm.trans hr)
  obtain rfl : row' = r' := by
    rw [hw'] at hrow'
    exact (Option.some_inj.mp hrow').symm
  have hacc := h.accepted hrow hcommit
  have hstate : args.state = some new := by
    rw [hw'] at hwritten
    have hlist : args.state.toList = [new] := List.append_cancel_left hwritten
    rcases hs : args.state with _ | st
    · rw [hs] at hlist
      exact nomatch hlist
    · rw [hs] at hlist
      simpa using hlist
  obtain ⟨n, hn, happ⟩ := h
  obtain ⟨-, -, hargs⟩ := happ row hrow (hcommit.pinned n hn).symm
  have hnew : computeStateTransition row.task = some new := by
    rw [hargs] at hstate
    exact hstate
  obtain ⟨hchanged, hallowed⟩ := hacc.resumes hnew
  exact ⟨hchanged, hallowed, hacc⟩

theorem CommitsOver.followUp {message : Message}
    (h : CommitsOver (amongOthers cfg taskId).system id (fun _ => True)
      ((submitTask k message : TaskM Unit _) ()) row new row') :
    row'.task.status.state = new ∧ row.task.status.state.mayBecome new = true ∧
      Accepted message row row' := by
  obtain ⟨w, w₁, w₂, β, e, b, cont, -, hrun, hok, hperf, hrow, hrow', hwritten⟩ := h
  have hwp := ((amongOthers cfg taskId).hosts (AppendsHonestly taskId message)).submitTask
    (σ := Unit) (appends_submitRule (amongOthers cfg taskId) message) k () w trivial
  have hreq : AppendsHonestly taskId message e w₁ :=
    Prog.wp_req hwp (Setting.reaches_systemWith _ hrun) hok
  have hne : w₂.written ≠ w₁.written := by
    intro hsame
    exact absurd (hwritten.symm.trans hsame) (by simp)
  have hworld : World.perform cfg taskId e w₁ = some (w₂, b) := hperf
  have hwrites : WritesOf taskId (fun args => Appends message args w₁.row) e w₁ := by
    cases e <;> exact hreq
  rcases hwrites.perform hworld with ⟨-, hsame⟩ | ⟨args, r, r', happ, hr, hcommit, hw'⟩
  · exact absurd hsame hne
  · exact Appends.change happ hr hcommit hw' hrow hrow' hwritten

/-! ### Every change -/

theorem CommitsOver.enqueue
    (h : CommitsOver (backgroundSystem cfg taskId) Office.world (fun o => o.world.inScope = false)
      (TaskManager.enqueueOrFail k taskId ()) row new row') :
    row'.task.status.state = new ∧ row.task.status.state.mayBecome new = true ∧
      new ≠ .submitted := by
  obtain ⟨o, o₁, o₂, β, e, b, cont, hscope, hrun, hok, hperf, hrow, hrow', hwritten⟩ := h
  have hwp := enqueueOrFail cfg taskId k () o ⟨hscope, rfl, rfl⟩
  have hreq : FailsSubmitted taskId e o₁ := Prog.wp_req hwp hrun hok
  obtain ⟨hfailed, r, r', hr, hr', -, -, hsub, hnew⟩ := hreq.commit hperf (by simp [hwritten])
  obtain rfl := Option.some_inj.mp (hrow.symm.trans hr)
  obtain rfl := Option.some_inj.mp (hrow'.symm.trans hr')
  obtain rfl : new = .failed := by
    have hlists := hwritten.symm.trans hfailed
    simpa using hlists
  refine ⟨hnew, ?_, by decide⟩
  rw [hsub]
  rfl

/-- Every commit of every party. -/
theorem Change.kept {c : Change} (h : c.who.commits cfg taskId k c.before c.state c.after) :
    c.Kept := by
  obtain ⟨who, row, new, row'⟩ := c
  have hd := (streamRule_honest (amongOthers cfg taskId)).discipline k
  have hends := permits_sets fun st => st.isTerminal = true
  -- a party that never submits
  have hkept : ∀ {p : Party}, row'.task.status.state = new ∧
      row.task.status.state.mayBecome new = true ∧ new ≠ .submitted →
      Change.Kept ⟨p, row, new, row'⟩ :=
    fun h => ⟨h.1, h.2.1, fun hsub => absurd hsub h.2.2⟩
  cases who with
  | turn contextId ctx handler =>
    rcases h with ⟨hterm, h⟩ | h
    · exact hkept (CommitsOver.ending (s := ctx) (keeps_turn _ k contextId handler) (Or.inl hterm) h)
    · refine hkept (CommitsOver.steady (s := ctx) (keeps_turn _ k contextId handler) ?_ h)
      exact ((permits_sets fun st => st ≠ .submitted).runTaskInner k (fun _ hst => hst) taskId
        contextId handler).only
  | operation contextId attempt maxRetries =>
    refine hkept (CommitsOver.ending (s := ()) ?_ (Or.inr ?_) h)
    · exact (hd.handleOpInner (fun w _ => known_none w) taskId contextId attempt maxRetries).keeps
    · exact KeepsTo.only (hends.handleOpInner k (fun _ _ hs => nomatch hs)
        (fun _ _ _ hs => nomatch hs) rfl taskId contextId fun _ _ _ _ hs => nomatch hs)
  | forceCancel =>
    refine hkept (CommitsOver.ending (s := ()) ?_ (Or.inr ?_) h)
    · exact (hd.forceCancelAfter (fun w _ => known_none w) taskId).keeps
    · exact (hends.forceCancelAfter k rfl taskId).only
  | followUp message =>
    obtain ⟨hchanged, hallowed, hacc⟩ := CommitsOver.followUp h
    exact ⟨hchanged, hallowed, fun _ => ⟨message, rfl, hacc⟩⟩
  | enqueue => exact hkept (CommitsOver.enqueue h)

end

/-- **The state machine holds in every run** in which the turns that take the task up or pause it
are steady: every recorded change of the state is one of the state machine, it is what is stored,
and a paused task that is not ended is only left by a follow-up message that is appended to it.
And as long as a steady turn has not paused the task itself, it is not at work on a paused task. -/
theorem state_machine_kept (cfg : BusConfig) (taskId : TaskId) (k : StorageKind) (row₀ : Row)
    (cs : List Change) (row : Row) (h : TaskRun cfg taskId k row₀ cs row) :
    (∀ c ∈ cs, c.after.task.status.state = c.state ∧
      c.before.task.status.state.mayBecome c.state = true ∧
      (awaitsInput c.before.task.status.state = true → c.state.isTerminal = false →
        ∃ message, c.who = .followUp message ∧ Accepted message c.before c.after)) ∧
    ∀ (contextId : Option ContextId) (handler : Handler) (ctx : TaskContext) (w w' : World)
      (p : Prog Op (Except Exc Unit × TaskContext)), w.Fresh →
      (steadyTurn cfg taskId).system.Reaches (WorkerAdapter.runTaskInner k taskId contextId
        (TaskContext.run k taskId contextId handler) ctx, w) (p, w') →
      (∀ st ∈ w'.written.getLast?, awaitsInput st = false) →
      ∀ now ∈ w'.row, awaitsInput now.task.status.state = false := by
  constructor
  · induction h with
    | start => exact fun c hc => nomatch hc
    | write _ _ _ ih => exact ih
    | @change cs row c _ _ hcommits ih =>
      intro c' hc'
      rcases List.mem_append.mp hc' with hc' | hc'
      · exact ih c' hc'
      obtain rfl := List.mem_singleton.mp hc'
      have hkept := Change.kept hcommits
      refine ⟨hkept.recorded, hkept.allowed, fun hpaused hlive => hkept.resumed ?_⟩
      -- from a paused state the machine goes to submitted or to an end
      have hallowed := hkept.allowed
      revert hpaused hlive hallowed
      cases c'.before.task.status.state <;> cases c'.state <;> decide
  · intro contextId handler ctx w w' p hfresh hrun
    exact (steady_of_reaches (keeps_turn (steadyTurn cfg taskId) k contextId handler) hfresh
      hrun).unpaused

/-! ### Two lives -/

/-- The row of a task that waits for the user. -/
def pausedRow : Row := { task := pausedTask, version := 2 }

/-- The answer of the user. -/
def answer : Message :=
  { role := .user, parts := [], messageId := "m1", taskId := "t", contextId := "c" }

/-- The row after a write of `InMemoryStorage`. -/
def Row.updated (row : Row) (args : UpdateArgs Ref) : Row :=
  { row with
    task := InMemoryStorage.updatedTask (fun _ => { artifactId := "", parts := [] }) row.task args ""
    version := row.version + 1 }

def answeredRow : Row := pausedRow.updated (appendArgs answer pausedTask (some 2))

def resumedRow : Row := answeredRow.updated { state := some .working }

theorem answer_submits : (Party.followUp answer).commits ⟨1, 1, 60⟩ "t" .memory pausedRow .submitted
    answeredRow :=
  .intro (w := World.holding pausedTask 2) (u := World.holding pausedTask 2)
    (e := .update .other (appendArgs answer pausedTask (some 2)))
    (.op trivial rfl (.op trivial rfl .refl)) trivial trivial rfl rfl rfl rfl

theorem turn_resumes : (Party.turn (some "c") {} completing).commits ⟨1, 1, 60⟩ "t" .memory
    answeredRow .working resumedRow :=
  Or.inr (.intro (w := { World.holding pausedTask 2 with row := some answeredRow })
    (u := { World.holding pausedTask 2 with row := some answeredRow })
    (e := .update .other { state := some .working })
    (.op (inTurn_of_none rfl) rfl .refl)
    ⟨rfl, fun row hrow => by obtain rfl := Option.some_inj.mp hrow; rfl⟩
    ⟨fun _ => rfl, fun ⟨_, hst, hpause⟩ => by obtain rfl := Option.some_inj.mp hst; cases hpause⟩
    rfl rfl rfl rfl)

def submission : Change := ⟨.followUp answer, pausedRow, .submitted, answeredRow⟩

def resumption : Change :=
  ⟨.turn (some "c") {} completing, answeredRow, .working, resumedRow⟩

/-- A follow-up message submits the paused task, and a turn takes it up. -/
theorem resumed_by_follow_up :
    TaskRun ⟨1, 1, 60⟩ "t" .memory pausedRow [submission, resumption] resumedRow ∧
      ∀ c ∈ [submission, resumption], c.before.task.status.state.mayBecome c.state = true := by
  have hfirst : TaskRun ⟨1, 1, 60⟩ "t" .memory pausedRow [submission] answeredRow :=
    .change (c := submission) .start rfl answer_submits
  have hrun : TaskRun ⟨1, 1, 60⟩ "t" .memory pausedRow [submission, resumption] resumedRow :=
    .change (c := resumption) hfirst rfl turn_resumes
  exact ⟨hrun, fun c hc => ((state_machine_kept _ _ _ _ _ _ hrun).1 c hc).2.1⟩

/-- Nobody else writes the task. -/
def loneTurn : Setting where
  cfg := ⟨1, 1, 60⟩
  taskId := "t"
  bus := fun _ _ => True

/-- The operation of a turn that has paused its task is delivered again: although the user has
not answered, the task goes back to working, and the handler runs and completes it. -/
theorem redelivery_resumes_paused :
    ∃ ctx' w', loneTurn.system.Reaches
        (WorkerAdapter.runTaskInner .memory "t" (some "c")
          (TaskContext.run .memory "t" (some "c") completing) {}, World.holding pausedTask 2)
        (.ret (.ok (), ctx'), w') ∧
      w'.written = [.working, .completed] ∧
      (w'.row.map fun row => (row.version, row.task.history)) = some (4, []) ∧
      pausedTask.status.state.mayBecome .working = false := by
  have hmoves : ∀ m ∈ turnToCommit ++ List.replicate 7 Move.step ++ [Move.bus .grant] ++
      List.replicate 6 Move.step, loneTurn.Allows m := by
    simp [turnToCommit, allows_step, allows_bus, loneTurn]
  obtain ⟨ctx', w', hrun, hcheck⟩ := reaches_of_execute anyOp (fun _ _ _ _ => trivial) hmoves
    (p := WorkerAdapter.runTaskInner .memory "t" (some "c")
      (TaskContext.run .memory "t" (some "c") completing) {}) (w := World.holding pausedTask 2)
    (fun _ w => decide (w.written = [.working, .completed] ∧
      (w.row.map fun row => (row.version, row.task.history)) = some (4, []))) (by decide +kernel)
  obtain ⟨hwritten, hrow⟩ := of_decide_eq_true hcheck
  exact ⟨ctx', w', hrun, hwritten, hrow, rfl⟩

end A2AKit
