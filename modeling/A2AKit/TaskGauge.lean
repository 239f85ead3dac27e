/-
The active-task gauge.

`TracingEmitter` adds 1 to a counter when a task enters `working` and takes 1 away when it becomes
terminal, whatever state the task comes from.  A task that pauses is still counted, and one that
fails before it has worked is taken away although it was never counted.

* `gauge_counts_iff` — after every update the gauge is the number of the working tasks, if and only
  if every task that becomes terminal has been working, and no working task pauses, is resubmitted
  or enters `working` again.
-/
import A2AKit.Dictionary
import A2AKit.EventLog
import A2AKit.Task
import Mathlib.Data.Finset.Card
import Mathlib.Data.List.Basic
import Mathlib.Algebra.Order.Ring.Int

namespace A2AKit

/-- `_MAX_TASK_TIMERS` -/
def maxTaskTimers : Nat := 10000

/-- `TracingEmitter`, with what was reported to its instruments. -/
structure TracingEmitter where
  taskTimers : Dictionary TaskId Nat := ∅
  active : Int := 0
  total : List TaskState := []
  errors : Nat := 0
  durations : List (Nat × TaskState) := []

/-- A call of `update_task`, with the answer of the inner emitter and the time afterwards. -/
structure UpdateCall (ε : Type) where
  taskId : TaskId
  state : Option TaskState
  inner : Except ε Nat
  now : Nat

namespace TracingEmitter

/-- `_record_state_metric` -/
def recordStateMetric (e : TracingEmitter) (now : Nat) (state : TaskState) (taskId : TaskId) :
    TracingEmitter :=
  if state = .working then
    let timers :=
      if taskId ∉ e.taskTimers ∧ maxTaskTimers ≤ e.taskTimers.keys.length then
        e.taskTimers.keys.head?.elim e.taskTimers fun first => e.taskTimers.erase first
      else e.taskTimers
    { e with taskTimers := timers.set taskId now, active := e.active + 1 }
  else if state.isTerminal then
    { taskTimers := e.taskTimers.erase taskId
      active := e.active - 1
      total := e.total ++ [state]
      durations :=
        match e.taskTimers.lookup taskId with
        | some start => e.durations ++ [(now - start, state)]
        | none => e.durations
      errors := if state = .failed then e.errors + 1 else e.errors }
  else e

variable {ε : Type}

/-- `update_task` -/
def updateTask (e : TracingEmitter) (call : UpdateCall ε) : Except ε Nat × TracingEmitter :=
  match call.inner, call.state with
  | .error err, _ => (.error err, e)
  | .ok version, none => (.ok version, e)
  | .ok version, some state => (.ok version, e.recordStateMetric call.now state call.taskId)

/-- The emitter after a sequence of calls. -/
def run (calls : List (UpdateCall ε)) : TracingEmitter :=
  calls.foldl (fun e call => (e.updateTask call).2) {}

end TracingEmitter

open TracingEmitter

variable {ε : Type}

/-- The transition that a call has made. -/
def UpdateCall.transition? (call : UpdateCall ε) : Option (TaskId × TaskState) :=
  match call.inner, call.state with
  | .ok _, some state => some (call.taskId, state)
  | _, _ => none

/-- The successful state transitions, in order. -/
def transitions (calls : List (UpdateCall ε)) : List (TaskId × TaskState) :=
  calls.filterMap UpdateCall.transition?

/-- The state of the last transition of a task. -/
def lastState (ts : List (TaskId × TaskState)) (t : TaskId) : Option TaskState :=
  ((ts.filter fun x => x.1 = t).getLast?).map Prod.snd

/-- The tasks whose last transition is `working`. -/
def workingTasks (ts : List (TaskId × TaskState)) : Finset TaskId :=
  (ts.map Prod.fst).toFinset.filter fun t => lastState ts t = some .working

/-- After every call the gauge is the number of the working tasks; so it is never negative, and 0
when no task is working. -/
def GaugeCounts (calls : List (UpdateCall ε)) : Prop :=
  ∀ done, done <+: calls →
    (run done).active = (workingTasks (transitions done)).card ∧ 0 ≤ (run done).active ∧
      ((∀ t, lastState (transitions done) t ≠ some .working) → (run done).active = 0)

/-- A task becomes terminal from `working`, and leaves `working` only to become terminal. -/
def LeftAsEntered (ts : List (TaskId × TaskState)) : Prop :=
  ∀ before t state after, ts = before ++ (t, state) :: after →
    (lastState before t = some .working ↔ state.isTerminal = true)

/-! ### One transition -/

variable {ts : List (TaskId × TaskState)} {t x : TaskId} {state : TaskState}

theorem lastState_concat : lastState (ts ++ [(t, state)]) x =
    if t = x then some state else lastState ts x := by
  unfold lastState
  rw [List.filter_append]
  by_cases ht : t = x
  · simp [ht]
  · simp [ht]

theorem mem_workingTasks : t ∈ workingTasks ts ↔ lastState ts t = some .working := by
  unfold workingTasks
  rw [Finset.mem_filter, List.mem_toFinset]
  refine and_iff_right_of_imp fun h => ?_
  obtain ⟨y, hy, -⟩ := Option.map_eq_some_iff.mp h
  obtain ⟨hmem, heq⟩ := List.mem_filter.mp (List.mem_of_getLast? hy)
  exact List.mem_map.mpr ⟨y, hmem, of_decide_eq_true heq⟩

/-- A transition puts its task among the working ones, or takes it away. -/
theorem workingTasks_concat : workingTasks (ts ++ [(t, state)]) =
    if state = .working then insert t (workingTasks ts) else (workingTasks ts).erase t := by
  ext x
  rw [mem_workingTasks, lastState_concat]
  split
  · rename_i ht
    subst ht
    split
    · rename_i hstate
      simp [hstate]
    · rename_i hstate
      simp [hstate]
  · rename_i ht
    split
    · rw [Finset.mem_insert, mem_workingTasks]
      exact (or_iff_right (Ne.symm ht)).symm
    · rw [Finset.mem_erase, mem_workingTasks]
      exact (and_iff_right (Ne.symm ht)).symm

/-- What a transition adds to the gauge. -/
def gaugeStep (state : TaskState) : Int :=
  if state = .working then 1 else if state.isTerminal then -1 else 0

theorem recordStateMetric_active (e : TracingEmitter) (now : Nat) :
    (e.recordStateMetric now state t).active = e.active + gaugeStep state := by
  unfold recordStateMetric gaugeStep
  split
  · rfl
  · split
    · rfl
    · exact (Int.add_zero _).symm

/-- The gauge keeps up with a transition if and only if the transition is balanced. -/
theorem gaugeStep_iff :
    ((workingTasks ts).card : Int) + gaugeStep state = (workingTasks (ts ++ [(t, state)])).card ↔
      (lastState ts t = some .working ↔ state.isTerminal = true) := by
  rw [workingTasks_concat, ← mem_workingTasks]
  unfold gaugeStep
  by_cases hworking : state = .working
  · -- counted anew, or counted twice
    subst hworking
    rw [if_pos rfl, if_pos rfl]
    by_cases ht : t ∈ workingTasks ts
    · rw [Finset.insert_eq_of_mem ht, iff_true_left ht]
      refine iff_of_false ?_ (by decide)
      omega
    · rw [Finset.card_insert_of_notMem ht, iff_false_left ht]
      exact iff_of_true (Nat.cast_succ _).symm (by decide)
  · rw [if_neg hworking, if_neg hworking]
    by_cases ht : t ∈ workingTasks ts
    · have hcard := Finset.card_erase_add_one ht
      rw [iff_true_left ht]
      split
      · rename_i hterm
        refine iff_of_true ?_ hterm
        omega
      · rename_i hterm
        refine iff_of_false ?_ hterm
        omega
    · rw [Finset.erase_eq_of_notMem ht, iff_false_left ht]
      split
      · rename_i hterm
        refine iff_of_false ?_ (not_not.mpr hterm)
        omega
      · rename_i hterm
        refine iff_of_true ?_ hterm
        omega

/-! ### Runs -/

theorem run_concat (calls : List (UpdateCall ε)) (call : UpdateCall ε) :
    run (calls ++ [call]) = ((run calls).updateTask call).2 := List.foldl_concat _ _ _ _

theorem transitions_concat (calls : List (UpdateCall ε)) (call : UpdateCall ε) :
    transitions (calls ++ [call]) = transitions calls ++ call.transition?.toList := by
  unfold transitions
  rw [List.filterMap_append]
  cases h : call.transition? <;> simp [h]

/-- A call moves the gauge by its transition, if it makes one. -/
theorem updateTask_active (e : TracingEmitter) (call : UpdateCall ε) :
    (e.updateTask call).2.active =
      e.active + (call.transition?.elim 0 fun x => gaugeStep x.2) := by
  obtain ⟨t, state, inner, now⟩ := call
  cases inner with
  | error err => exact (Int.add_zero _).symm
  | ok version =>
    cases state with
    | none => exact (Int.add_zero _).symm
    | some state => exact recordStateMetric_active e now

theorem balanced_concat : LeftAsEntered (ts ++ [(t, state)]) ↔
    LeftAsEntered ts ∧ (lastState ts t = some .working ↔ state.isTerminal = true) := by
  constructor
  · intro h
    refine ⟨fun before x s after hts => ?_, h ts t state [] rfl⟩
    exact h before x s (after ++ [(t, state)]) (by rw [hts, List.append_assoc, List.cons_append])
  · rintro ⟨h, hlast⟩ before x s after hts
    rcases append_concat_eq hts with ⟨-, rfl, heq⟩ | ⟨after', -, hts'⟩
    · obtain ⟨rfl, rfl⟩ := Prod.mk.inj heq
      exact hlast
    · exact h before x s after' hts'

/-- After every call the gauge is the number of the working tasks. -/
def Counts (calls : List (UpdateCall ε)) : Prop :=
  ∀ done, done <+: calls → (run done).active = (workingTasks (transitions done)).card

theorem counts_concat (calls : List (UpdateCall ε)) (call : UpdateCall ε) :
    Counts (calls ++ [call]) ↔ Counts calls ∧
      (run (calls ++ [call])).active = (workingTasks (transitions (calls ++ [call]))).card := by
  constructor
  · intro h
    exact ⟨fun done hdone => h done (hdone.trans (List.prefix_append _ _)), h _ List.prefix_rfl⟩
  · rintro ⟨h, hlast⟩ done hdone
    rcases List.prefix_concat_iff.mp hdone with rfl | hdone
    · exact hlast
    · exact h done hdone

/-- By induction on the calls: the first transition that is not balanced puts the gauge off. -/
theorem counts_iff (calls : List (UpdateCall ε)) :
    Counts calls ↔ LeftAsEntered (transitions calls) := by
  induction calls using List.reverseRecOn with
  | nil =>
    refine iff_of_true (fun done hdone => ?_) fun before t state after h => ?_
    · rw [List.prefix_nil.mp hdone]
      rfl
    · exact absurd h (by simp [transitions])
  | append_singleton calls call ih =>
    rw [counts_concat, transitions_concat, run_concat, updateTask_active]
    cases call.transition? with
    | none =>
      rw [Option.toList_none, List.append_nil, Option.elim_none, Int.add_zero, ih]
      exact and_iff_left_of_imp fun hbalanced => ih.mpr hbalanced calls List.prefix_rfl
    | some x =>
      obtain ⟨t, state⟩ := x
      rw [Option.toList_some, Option.elim_some, balanced_concat, ih]
      refine and_congr_right fun hbalanced => ?_
      rw [ih.mpr hbalanced calls List.prefix_rfl]
      exact gaugeStep_iff

/-- **The gauge counts the working tasks if and only if every task becomes terminal from `working`
and leaves `working` only to become terminal.** -/
theorem gauge_counts_iff (calls : List (UpdateCall ε)) :
    GaugeCounts calls ↔ LeftAsEntered (transitions calls) := by
  rw [← counts_iff]
  refine ⟨fun h done hdone => (h done hdone).1, fun h done hdone => ⟨h done hdone, ?_, ?_⟩⟩
  · rw [h done hdone]
    exact Int.natCast_nonneg _
  · intro hnone
    rw [h done hdone, Finset.card_eq_zero.mpr, Int.ofNat_zero]
    exact Finset.eq_empty_of_forall_notMem fun t ht => hnone t (mem_workingTasks.mp ht)

/-! ### A task that pauses -/

/-- A task makes a transition. -/
def enters (taskId : TaskId) (state : TaskState) : UpdateCall Unit := ⟨taskId, some state, .ok 1, 0⟩

/-- **A paused task is still counted**, and one that is canceled before it has worked makes the
gauge negative. -/
theorem paused_task_counted : ¬ GaugeCounts [enters "a" .working, enters "a" .inputRequired] ∧
    (run [enters "a" .canceled]).active = -1 := by
  refine ⟨fun h => ?_, rfl⟩
  have hcount := (h _ List.prefix_rfl).1
  exact absurd hcount (by decide)

end A2AKit
