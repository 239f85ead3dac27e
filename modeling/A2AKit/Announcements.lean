/-
Every end is announced once.

`writtenEnds` are the states that end the stream, in the order in which the turn or a
ladder has committed them, and `announcedEnds` the states of the markers they have
published.  A write leaves the first list one ahead until its marker is published
(`Ahead w [st]`).  The turn can lose the marker in one way only: between the commit and
the return of the emitter's `update_task`, where hooks and the push delivery are awaited,
a cancellation is delivered.  Without that the two lists are equal whenever the turn is
over (`ends_announced`).  The ladders run outside of the cancel scope and need nothing.
-/
import A2AKit.Schedule
import A2AKit.StatusWrites

namespace A2AKit

/-- The state of a marker. -/
def StreamEvent.markerState {α : Type} : StreamEvent α → Option TaskState
  | .terminalMarker _ _ status => some status.state
  | _ => none

/-- The ends that the modelled programs have committed. -/
def World.writtenEnds (w : World) : List TaskState := w.written.filter endsStream

/-- The ends that they have announced. -/
def World.announcedEnds (w : World) : List TaskState := w.published.filterMap StreamEvent.markerState

/-- The markers of `sts` are still missing. -/
def Ahead (sts : List TaskState) (w : World) : Prop := w.writtenEnds = w.announcedEnds ++ sts

/-- No cancellation is delivered between the commit of an end and the return of the
emitter's `update_task`. -/
def CommitUninterrupted {β : Type} (e : Op β) (w : World) : Prop :=
  match e with
  | .await (.committed _ args) => args.ending.isSome = true → w.interrupted = false
  | _ => True

/-- Other parties do whatever they like. -/
def anyParty (cfg : BusConfig) (taskId : TaskId) (ok : {β : Type} → Op β → World → Prop) :
    Setting where
  cfg := cfg
  taskId := taskId
  writes := fun _ => True
  deletes := True
  cancels := True
  bus := fun _ _ => True
  loads := fun _ _ => True
  ok := ok

/-- The markers of `sts` are missing; `outside` says that the program is outside of the
cancel scope. -/
def Owed (outside : Bool) (sts : List TaskState) (w : World) : Prop :=
  Ahead sts w ∧ (outside = true → w.inScope = false)

section

variable {T : Setting} {outside : Bool} {sts : List TaskState} {w w' : World}

theorem markerState_eq_none {α : Type} {event : StreamEvent α} :
    event.markerState = none ↔ event.isStreamTerminal = false := by
  cases event <;> simp [StreamEvent.markerState, StreamEvent.isStreamTerminal]

theorem owed_congr (hw : Owed outside sts w) (hwritten : w'.written = w.written)
    (hannounced : w'.announcedEnds = w.announcedEnds) (hscope : w'.inScope = w.inScope) :
    Owed outside sts w' := by
  refine ⟨?_, fun h => hscope.trans (hw.2 h)⟩
  rw [Ahead, World.writtenEnds, hwritten, hannounced]
  exact hw.1

theorem stable_owed : T.Stable (Owed outside sts) := by
  intro w w' hstep hw
  cases hstep with
  | bus _ hbus =>
    obtain ⟨out, -, rfl⟩ := World.busStep_some hbus
    exact hw
  | _ => exact hw

theorem Performed.inScope {cfg : BusConfig} {taskId : TaskId} {β : Type} {e : Op β}
    (h : Performed cfg taskId w e w') (he : e.quiet = true) : w'.inScope = w.inScope := by
  cases h with
  | scope => simp [Op.quiet] at he
  | publish hbus =>
    obtain ⟨out, -, rfl⟩ := World.busStep_some hbus
    rfl
  | cleanup hbus =>
    obtain ⟨out, -, rfl⟩ := World.busStep_some hbus
    rfl
  | _ => rfl

theorem quiet_owed : Quiet T (Owed outside sts) where
  stable := stable_owed
  keep e w w' b he _ hperf hw := by
    have hperf := World.performed hperf
    obtain ⟨-, hwritten, events, hpublished, hevents⟩ := hperf.of_quiet he
    refine owed_congr hw hwritten ?_ (hperf.inScope he)
    have hnone : events.filterMap StreamEvent.markerState = [] :=
      List.filterMap_eq_nil_iff.mpr fun ev hev => markerState_eq_none.mpr (hevents ev hev)
    rw [World.announcedEnds, hpublished, List.filterMap_append, hnone, List.append_nil]
    rfl

theorem filter_toList_state (args : UpdateArgs Ref) :
    args.state.toList.filter endsStream = args.ending.toList := by
  rcases hstate : args.state with _ | st
  · simp [UpdateArgs.ending, hstate]
  · by_cases hst : endsStream st = true
    · simp [UpdateArgs.ending, hstate, hst, Option.filter_some]
    · simp [UpdateArgs.ending, hstate, hst, Option.filter_some]

/-- A commit owes the marker of the state it writes. -/
theorem Owed.commit {args : UpdateArgs Ref} {row' : Row} (hw : Owed outside [] w) :
    Owed outside args.ending.toList
      { w with row := some row', written := w.written ++ args.state.toList } := by
  refine ⟨?_, hw.2⟩
  show (w.written ++ args.state.toList).filter endsStream = w.announcedEnds ++ args.ending.toList
  rw [List.filter_append, filter_toList_state]
  congr 1
  have h := hw.1
  rw [Ahead, List.append_nil] at h
  exact h

/-- A marker pays what is owed. -/
theorem Owed.marker {cfg : BusConfig} {taskId taskId' : TaskId} {contextId : ContextId}
    {status : TaskStatus} {id : Nat} (hw : Owed outside [status.state] w)
    (hperf : World.perform cfg taskId (.publish (.terminalMarker taskId' contextId status)) w =
      some (w', id)) : Owed outside [] w' := by
  simp only [World.perform, Option.map_eq_some_iff] at hperf
  obtain ⟨w₁, hbus, h⟩ := hperf
  obtain ⟨out, -, rfl⟩ := World.busStep_some hbus
  rw [← (Prod.mk.inj h).1]
  refine ⟨?_, hw.2⟩
  show w.writtenEnds = (w.published ++ [_]).filterMap StreamEvent.markerState ++ []
  rw [List.filterMap_append, List.append_nil]
  exact hw.1

/-- The discipline of the turn and the ladders, as long as nothing is cancelled between a
commit and its marker. -/
theorem streamRule_owed (outside : Bool)
    (hcommitted : ∀ site args w, T.ok (.await (.committed site args)) w →
      args.ending.isSome = true → (outside = true → w.inScope = false) → w.interrupted = false) :
    StreamRule T (fun _ _ => True) (Owed outside []) fun st => Owed outside [st] where
  req_quiet _ _ _ := trivial
  req_update _ _ _ := trivial
  req_read _ _ _ _ := trivial
  req_write _ _ _ _ _ _ _ _ := trivial
  req_marker _ _ _ _ _ := trivial
  quiet := quiet_owed
  open_ _ := quiet_owed
  merge _ _ hw := hw
  commit args w row row' hw _ _ := by
    have h : Owed outside args.ending.toList
        { w with row := some row', written := w.written ++ args.state.toList } := hw.commit
    rcases hending : args.ending with _ | st
    · rw [hending] at h
      exact h
    · rw [hending] at h
      exact h
  interrupted site args st w hst hw hok hi := by
    have hfalse := hcommitted site args w hok (by simp [hst]) hw.2
    simp [hi] at hfalse
  marker _ _ _ _ _ _ hw _ hperf := hw.marker hperf

end

theorem not_interrupted_of_outside {w : World} (h : w.inScope = false) : w.interrupted = false := by
  simp [World.interrupted, h]

/-- **Every end is announced once.**  When a turn is over, returned or cancelled, the markers
it has published are exactly the ends it has committed, in the same order, provided that no
cancellation was delivered between the commit of an end and the return of the emitter's
`update_task`.  The ladders of the force cancel and of the adapter need no condition. -/
theorem ends_announced (k : StorageKind) (cfg : BusConfig) (taskId : TaskId)
    (contextId : Option ContextId) (w w' : World) (hw : w.announcedEnds = w.writtenEnds) :
    (∀ (h : Handler) (ctx ctx' : TaskContext) (r : Except Exc Unit),
      (anyParty cfg taskId CommitUninterrupted).system.Reaches
        (WorkerAdapter.runTaskInner k taskId contextId (TaskContext.run k taskId contextId h) ctx, w)
        (.ret (r, ctx'), w') → w'.announcedEnds = w'.writtenEnds) ∧
    (w.inScope = false → ∀ r : Except Exc Unit × Unit,
      (anyParty cfg taskId fun _ _ => True).system.Reaches (forceCancelAfter k taskId (), w)
        (.ret r, w') → w'.announcedEnds = w'.writtenEnds) ∧
    (w.inScope = false → ∀ (attempt maxRetries : Nat) (r : Except Exc Unit × Unit),
      (anyParty cfg taskId fun _ _ => True).system.Reaches
        (handleOpInner k taskId contextId attempt maxRetries (), w) (.ret r, w') →
      w'.announcedEnds = w'.writtenEnds) := by
  have howed : ∀ outside, (outside = true → w.inScope = false) → Owed outside [] w :=
    fun outside h => ⟨by rw [Ahead, List.append_nil, hw], h⟩
  have hpaid : ∀ {outside}, Owed outside [] w' → w'.announcedEnds = w'.writtenEnds := by
    intro outside h
    have h' := h.1
    rw [Ahead, List.append_nil] at h'
    exact h'.symm
  refine ⟨fun h ctx ctx' r hrun => ?_, fun hout r hrun => ?_, fun hout attempt maxRetries r hrun => ?_⟩
  · have hd := (streamRule_owed (T := anyParty cfg taskId CommitUninterrupted) false
      fun _ _ _ hok hsome _ => hok hsome).discipline k
    have hkeeps : Keeps _ _ _ (WorkerAdapter.runTaskInner k taskId contextId
        (TaskContext.run k taskId contextId h)) :=
      hd.runTaskInner (fun w _ => known_none w) (fun _ _ => trivial)
        (fun _ _ => ⟨fun hw => ⟨hw.1, fun h => nomatch h⟩, fun _ hv => hv⟩) h
    exact hpaid (hkeeps.of_reaches (howed false fun h => nomatch h) hrun)
  · have hd := (streamRule_owed (T := anyParty cfg taskId fun _ _ => True) true
      fun _ _ _ _ _ hout => not_interrupted_of_outside (hout rfl)).discipline k
    exact hpaid ((hd.forceCancelAfter (fun w _ => known_none w) taskId).keeps.of_reaches
      (howed true fun _ => hout) hrun)
  · have hd := (streamRule_owed (T := anyParty cfg taskId fun _ _ => True) true
      fun _ _ _ _ _ hout => not_interrupted_of_outside (hout rfl)).discipline k
    exact hpaid ((hd.handleOpInner (fun w _ => known_none w) taskId contextId attempt
      maxRetries).keeps.of_reaches (howed true fun _ => hout) hrun)

/-! ### A lost marker -/

/-- A handler that completes the task. -/
def completing : Handler := .call (.lifecycle (.complete none "answer")) .done

/-- The turn up to the commit of the handler's first write. -/
def turnToCommit : List Move :=
  -- the transition to working, and its event
  List.replicate 7 Move.step ++ List.replicate 3 Move.step ++ [Move.bus .grant, .step] ++
  -- the scope is entered, and the state committed
  List.replicate 2 Move.step

/-- The cancellation is delivered in the first hook after the commit of `complete`: the cancel
branch finds the task terminal and publishes nothing, so `completed` is never announced. -/
theorem completed_not_announced :
    ∃ ctx' w', (anyParty ⟨1, 1, 60⟩ "t" fun _ _ => True).system.Reaches
      (WorkerAdapter.runTaskInner .memory "t" (some "c")
        (TaskContext.run .memory "t" (some "c") completing) {}, World.holding workingTask 1)
      (.ret (.ok (), ctx'), w') ∧
      (w'.row.map fun row => row.task.status.state) = some .completed ∧
      w'.writtenEnds = [.completed] ∧ w'.announcedEnds = [] := by
  have hmoves : ∀ m ∈ turnToCommit ++ [Move.cancel, .ambient ⟨"", 0, "", true, false⟩] ++
      List.replicate 8 Move.step, (anyParty ⟨1, 1, 60⟩ "t" fun _ _ => True).Allows m := by
    simp [turnToCommit, allows_step, allows_ambient, allows_cancel, allows_bus, anyParty]
  obtain ⟨ctx', w', hrun, hcheck⟩ := reaches_of_execute anyOp (fun _ _ _ _ => trivial) hmoves
    (p := WorkerAdapter.runTaskInner .memory "t" (some "c")
      (TaskContext.run .memory "t" (some "c") completing) {}) (w := World.holding workingTask 1)
    (fun _ w => decide ((w.row.map fun row => row.task.status.state) = some .completed ∧
      w.writtenEnds = [.completed] ∧ w.announcedEnds = [])) (by decide +kernel)
  exact ⟨ctx', w', hrun, of_decide_eq_true hcheck⟩

/-- The same turn without a cancellation. -/
theorem completed_announced :
    ∃ ctx' w', (anyParty ⟨1, 1, 60⟩ "t" CommitUninterrupted).system.Reaches
      (WorkerAdapter.runTaskInner .memory "t" (some "c")
        (TaskContext.run .memory "t" (some "c") completing) {}, World.holding workingTask 1)
      (.ret (.ok (), ctx'), w') ∧
      w'.writtenEnds = [.completed] ∧ w'.announcedEnds = w'.writtenEnds := by
  have hmoves : ∀ m ∈ turnToCommit ++ List.replicate 7 Move.step ++ [Move.bus .grant] ++
      List.replicate 6 Move.step, (anyParty ⟨1, 1, 60⟩ "t" CommitUninterrupted).Allows m := by
    simp [turnToCommit, allows_step, allows_bus, anyParty]
  have hok : ∀ (β : Type) (e : Op β) (w : World), (!w.interrupted) = true →
      CommitUninterrupted e w := by
    intro β e w h
    have hfalse : w.interrupted = false := by simpa using h
    cases e with
    | await pt =>
      cases pt with
      | committed site args => exact fun _ => hfalse
      | _ => trivial
    | _ => trivial
  obtain ⟨ctx', w', hrun, hcheck⟩ := reaches_of_execute (fun _ w => !w.interrupted) hok hmoves
    (p := WorkerAdapter.runTaskInner .memory "t" (some "c")
      (TaskContext.run .memory "t" (some "c") completing) {}) (w := World.holding workingTask 1)
    (fun _ w => decide (w.writtenEnds = [.completed])) (by decide +kernel)
  exact ⟨ctx', w', hrun, of_decide_eq_true hcheck,
    (ends_announced .memory ⟨1, 1, 60⟩ "t" (some "c") _ w' rfl).1 completing {} ctx' _ hrun⟩

end A2AKit
