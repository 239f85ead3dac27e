/-
Concrete runs.

A `Move` is the next thing to happen in a run: the program's operation, or a step of
another party.  `execute` plays a list of moves, and `execute_reaches` says that what it
returns is a run of the system.  So a fixed run is checked by evaluation.
-/
import A2AKit.Emitter

namespace A2AKit

/-- `step` is the next operation of the program. -/
inductive Move
  | step
  | bump
  | finish (state : TaskState)
  | cancel
  | ambient (a : Ambient)
  | bus (a : BusAction (StreamEvent Ref))
  | load (u : SubId)
  | announceEnd (taskId : TaskId)

/-- What another party does in a move. -/
def Move.act (cfg : BusConfig) (w : World) : Move → Option World
  | .step => none
  | .bump => w.row.map fun row => w.otherWrite row w.heap {} ""
  | .finish state =>
    (w.row.filter fun row => !row.task.status.state.isTerminal).map fun row =>
      w.otherWrite row w.heap { state := some state } ""
  | .cancel => some { w with cancelled := true }
  | .ambient a => some { w with ambient := a }
  | .bus a => w.busStep cfg a
  | .load u =>
    (w.row.filter fun row =>
        !row.task.status.state.isTerminal && (w.snapshots u).isNone).map fun row =>
      { w with snapshots := Function.update w.snapshots u (some row.task) }
  | .announceEnd taskId =>
    -- the marker of the stored terminal state, as a canceller publishes it after its write
    (w.row.filter fun row => row.task.status.state.isTerminal).bind fun row =>
      w.busStep cfg (.publish taskId
        (.terminalMarker taskId row.task.contextId row.task.status))

/-- Play the moves; `admits` says which operations may be performed. -/
def execute (cfg : BusConfig) (taskId : TaskId) (admits : {β : Type} → Op β → World → Bool)
    {α : Type} : List Move → Prog Op α → World → Option (α × World)
  | [], .ret a, w => some (a, w)
  | [], .op _ _, _ => none
  | .step :: _, .ret _, _ => none
  | .step :: ms, .op e cont, w =>
    if admits e w then
      match World.perform cfg taskId e w with
      | some (w', b) => execute cfg taskId admits ms (cont b) w'
      | none => none
    else none
  | m :: ms, p, w =>
    match m.act cfg w with
    | some w' => execute cfg taskId admits ms p w'
    | none => none

/-- Every operation is admitted. -/
def anyOp {β : Type} (_ : Op β) (_ : World) : Bool := true

/-- The setting allows a move of another party in every world. -/
def Setting.Allows (T : Setting) (m : Move) : Prop :=
  ∀ w w', m.act T.cfg w = some w' → T.system.env w w'

section

variable {T : Setting}

theorem allows_step : T.Allows .step := fun _ _ h => nomatch h

theorem allows_ambient (a : Ambient) : T.Allows (.ambient a) := by
  intro w w' h
  obtain rfl := Option.some_inj.mp h
  exact EnvStep.ambient

theorem allows_cancel (hT : T.cancels) : T.Allows .cancel := by
  intro w w' h
  obtain rfl := Option.some_inj.mp h
  exact EnvStep.cancel hT

theorem allows_bus {a : BusAction (StreamEvent Ref)} (hT : ∀ w, T.bus w a) :
    T.Allows (.bus a) := fun w _ h => EnvStep.bus (hT w) h

theorem allows_bump (hT : T.writes {}) : T.Allows .bump := by
  intro w w' h
  obtain ⟨row, hrow, rfl⟩ := Option.map_eq_some_iff.mp h
  exact env_bump hT hrow

theorem allows_finish {state : TaskState} (hT : T.writes { state := some state }) :
    T.Allows (.finish state) := by
  intro w w' h
  obtain ⟨row, hfilter, rfl⟩ := Option.map_eq_some_iff.mp h
  obtain ⟨hrow, hlive⟩ := Option.filter_eq_some_iff.mp hfilter
  have hlive' : row.task.status.state.isTerminal = false := by simpa using hlive
  exact EnvStep.write hT hrow (by simp [terminalGuard, hlive'])

/-- What is played is a run of every system with these operations. -/
theorem execute_run {S : System Op World} {cfg : BusConfig} {taskId : TaskId}
    {admits : {β : Type} → Op β → World → Bool} {α : Type}
    (hperform : ∀ (β : Type) (e : Op β) w, S.perform e w = World.perform cfg taskId e w)
    (hok : ∀ (β : Type) (e : Op β) w, admits e w = true → S.ok e w) {ms : List Move}
    (hms : ∀ m ∈ ms, ∀ w w', m.act cfg w = some w' → S.env w w') {p : Prog Op α} {w w' : World}
    {a : α} (h : execute cfg taskId admits ms p w = some (a, w')) :
    S.Reaches (p, w) (.ret a, w') := by
  induction ms generalizing p w with
  | nil =>
    cases p with
    | op e cont => exact nomatch h
    | ret b =>
      obtain ⟨rfl, rfl⟩ := Prod.mk.inj (Option.some_inj.mp h)
      exact .refl
  | cons m ms ih =>
    have hms' : ∀ m ∈ ms, ∀ w w', m.act cfg w = some w' → S.env w w' :=
      fun m hm => hms m (List.mem_cons_of_mem _ hm)
    -- a step of the program itself, or of the others
    by_cases hm : m = .step
    · subst hm
      cases p with
      | ret b => exact nomatch h
      | op e cont =>
        simp only [execute] at h
        split at h
        · rename_i hadmits
          split at h
          · rename_i w₁ b hperf
            exact .op (hok _ e w hadmits) ((hperform _ e w).trans hperf) (ih hms' h)
          · exact nomatch h
        · exact nomatch h
    · have hstep : ∃ w₁, m.act cfg w = some w₁ ∧
          execute cfg taskId admits ms p w₁ = some (a, w') := by
        cases m with
        | step => exact absurd rfl hm
        | _ =>
          simp only [execute] at h
          split at h
          · rename_i w₁ hact
            exact ⟨w₁, hact, h⟩
          · exact nomatch h
      obtain ⟨w₁, hact, h⟩ := hstep
      exact .env (hms m List.mem_cons_self w w₁ hact) (ih hms' h)

/-- What is played is a run. -/
theorem execute_reaches {admits : {β : Type} → Op β → World → Bool} {α : Type}
    (hok : ∀ (β : Type) (e : Op β) w, admits e w = true → T.ok e w) {ms : List Move}
    (hms : ∀ m ∈ ms, T.Allows m) {p : Prog Op α} {w w' : World} {a : α}
    (h : execute T.cfg T.taskId admits ms p w = some (a, w')) :
    T.system.Reaches (p, w) (.ret a, w') :=
  execute_run (fun _ _ _ => rfl) hok hms h

/-- A run of a program that returns, checked by evaluation. -/
theorem reaches_of_execute (admits : {β : Type} → Op β → World → Bool) {σ ε : Type}
    (hok : ∀ (β : Type) (e : Op β) w, admits e w = true → T.ok e w) {ms : List Move}
    (hms : ∀ m ∈ ms, T.Allows m) {p : Prog Op (Except ε Unit × σ)} {w : World}
    (check : σ → World → Bool)
    (h : (execute T.cfg T.taskId admits ms p w).any
      (fun r => r.1.1.toBool && check r.1.2 r.2) = true) :
    ∃ s' w', T.system.Reaches (p, w) (.ret (.ok (), s'), w') ∧ check s' w' = true := by
  rcases hexec : execute T.cfg T.taskId admits ms p w with _ | ⟨⟨r, s'⟩, w'⟩
  · simp [hexec] at h
  · rw [hexec, Option.any_some, Bool.and_eq_true] at h
    cases r with
    | error x => simp [Except.toBool] at h
    | ok u => exact ⟨s', w', execute_reaches hok hms hexec, h.2⟩

end

end A2AKit
