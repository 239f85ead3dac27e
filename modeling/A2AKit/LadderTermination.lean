/-
The ladders leave the task terminal.

Both ladders give up silently when their second write is refused too, so a task can
stay non-terminal although the ladder returns (`second_conflict_stays_working`), and
the callers go on as if it had ended.  `ladders_end_terminal` shows that this is the
only way: in every interleaving with other writers in which nobody overtakes the
retry of the ladder, or the task has ended by then, a ladder that returns leaves the
task terminal or gone, and neither `_force_cancel_after` nor `_handle_op_inner`
releases or acknowledges anything before.
-/
import A2AKit.Ladders

namespace A2AKit

/-- The version that the call names is stored, or the task has ended. -/
def Unraced (args : UpdateArgs Ref) (w : World) : Prop :=
  ∀ row, w.row = some row →
    args.expectedVersion = some row.version ∨ row.task.status.state.isTerminal = true

/-- Nobody overtakes the retry of a ladder. -/
def RetryUnraced {β : Type} (e : Op β) (w : World) : Prop :=
  match e with
  | .update .retry args => Unraced args w
  | .updateRead _ .retry args => Unraced args w
  | .updateWrite _ .retry args _ _ _ => Unraced args w
  | _ => True

/-- Any number of other writers, subscribers and bus users; the task may be deleted, and
its cancellation requested. -/
def amongWriters (cfg : BusConfig) (taskId : TaskId)
    (ok : {β : Type} → Op β → World → Prop) : Setting :=
  { cfg, taskId
    writes := fun _ => True
    deletes := True
    cancels := True
    bus := fun _ _ => True
    loads := fun _ _ => True
    ok }

section

variable {cfg : BusConfig} {taskId : TaskId} {k : StorageKind} {ws : List (ArtifactWrite Ref)}

theorem ended_of_refused {args : UpdateArgs Ref} {w : World} {e : StorageError}
    (hw : Unraced args w) (h : Refused args w.row e) : w.data.Ended := by
  intro row hrow
  have hrow' : w.row = some row := hrow
  cases h with
  | notFound hnone => simp [hnone] at hrow'
  | terminal hrow₁ hterm =>
    obtain rfl := Option.some_inj.mp (hrow₁.symm.trans hrow')
    exact hterm
  | conflict hne _ =>
    rcases hw row hrow' with heq | hterm
    · exact absurd heq (hne row hrow')
    · exact hterm

theorem unraced_of_fails {args : UpdateArgs Ref} {w : World} {e : StorageError}
    (h : Fails (amongWriters cfg taskId RetryUnraced) k .retry args w (.storage e)) :
    Unraced args w := by
  cases h with
  | update hok _ => exact hok
  | read _ hok _ => exact hok
  | write _ _ hok _ => exact hok

/-- The task has ended, and the program is outside of the handler's cancel scope. -/
def EndedOutside (d : TaskData) : Prop := d.Ended ∧ d.inScope = false

theorem kept_endedOutside {T : Setting} : Kept T EndedOutside :=
  kept_ended.and (kept_inScope false)

theorem ladderRule_ended (hnd : (refs ws).Nodup) :
    LadderRule (amongWriters cfg taskId RetryUnraced) k ws (fun d => d.inScope = false)
      EndedOutside EndedOutside where
  kept_before := kept_inScope false
  kept_fallback := kept_endedOutside
  kept_done := kept_endedOutside
  unscoped := by
    rintro d (hd | hd | hd)
    · exact hd
    · exact hd.2
    · exact hd.2
  nodup := hnd
  lost := fun _ _ _ _ _ _ _ _ hd _ _ _ => hd
  lost_fallback := fun _ _ _ _ _ hd _ _ => hd
  commit := by
    intro d row now state message version hstate _ hd _
    refine ⟨fun row' hrow' => ?_, hd⟩
    -- the row is the one just written, whose state is terminal
    obtain rfl := Option.some_inj.mp hrow'
    simpa [endingArgs] using hstate
  commit_fallback := by
    intro d row now hd hrow
    refine ⟨fun row' hrow' => ?_, hd.2⟩
    obtain rfl := Option.some_inj.mp hrow'
    simpa using hd.1 row hrow
  ended := fun _ hd hended => ⟨hended, hd⟩
  conflict := fun _ _ _ hd _ h => ⟨ended_of_refused (unraced_of_fails h) h.refused, hd⟩
  fails_fallback := by
    intro x w hw h
    cases x with
    | cancelled =>
      cases h with
      | cancelled hi =>
        have hscope := hi.2
        simp [hw.2] at hscope
    | storage e => exact hw
    | runtime m => exact hw
    | group x => exact hw
  skip := fun _ _ h => h
  gone := fun d hd hnone => ⟨fun row hrow => by simp [hnone] at hrow, hd⟩
  publish := fun _ _ h => h

variable {σ : Type} {s : σ} {w : World}

theorem wp_busCleanup {T : Setting} {Q : Except Exc Unit → σ → World → Prop}
    (hw : w.data.Ended) (hQ : ∀ w, w.data.Ended → Q (.ok ()) s w) :
    (Act.perform .busCleanup : TaskM σ Unit).wp T.system Q s w := by
  refine wp_query kept_ended hw (fun w hw => hw) ?_ fun _ => hQ
  intro w w' a hperf
  simp only [World.perform, World.busStep, Option.map_map, Option.map_eq_some_iff] at hperf
  obtain ⟨out, -, h⟩ := hperf
  rw [← (Prod.mk.inj h).1]
  rfl

theorem wp_forceCancelAfter (hw : w.inScope = false) :
    (forceCancelAfter k taskId : TaskM σ Unit).wp (amongWriters cfg taskId RetryUnraced).system
      (fun _ _ _ => True) s w := by
  have hrule : LadderRule (amongWriters cfg taskId RetryUnraced) k [] _ _ _ :=
    ladderRule_ended List.nodup_nil
  have houtside : Kept (amongWriters cfg taskId RetryUnraced) fun d => d.inScope = false :=
    kept_inScope false
  refine Act.wp_tryCatch (Act.wp_bind (wp_loadTask k .other houtside hw ?_ ?_))
  · rintro (_ | task) w hw hloaded -
    · exact wp_return (Kept.const True) trivial fun _ _ => trivial
    refine Act.wp_bind (Act.wp_mono (m := forceCancel k taskId task)
      (Q := Ends EndedOutside s) ?_ ?_)
    · rw [forceCancel]
      split
      · rename_i hterm
        exact wp_return kept_endedOutside ⟨hloaded hterm, hw⟩ fun w hw => ⟨rfl, hw⟩
      · exact hrule.wp_cancel taskId _ _ (fun d _ _ hd hended _ _ _ => ⟨hended, hd⟩) hw
    · rintro (x | _) s' w ⟨rfl, hw⟩
      · dsimp only
        split
        · exact wp_return (Kept.const True) trivial fun _ _ => trivial
        · exact wp_raise (Kept.const True) trivial fun _ _ => trivial
      · refine Act.wp_bind (wp_busCleanup hw.1 fun w hw => ?_)
        exact wp_ask kept_ended hw (fun w hw => hw) (fun _ => ⟨_, rfl⟩) fun _ _ _ => trivial
  · exact fun w _ _ => wp_raise (Kept.const True) trivial fun _ _ => trivial

theorem wp_ack {T : Setting} {Q : Except Exc Bool → σ → World → Prop} {J : TaskData → Prop}
    (hJ : Kept T J) (hw : J w.data) (last : Bool)
    (hreq : ∀ w : World, J w.data → last = true → w.data.Ended)
    (hQ : ∀ b w, J w.data → Q (.ok b) s w) :
    (Act.perform (.ack last) : TaskM σ Bool).wp T.system Q s w := by
  refine wp_ask hJ hw (fun w hw => ?_) (fun _ => ⟨_, rfl⟩) hQ
  cases last with
  | true => exact hreq w hw rfl
  | false => trivial

theorem wp_markFailedThenAck (contextId : Option ContextId) (reason : String)
    (hw : w.inScope = false) :
    (markFailedThenAck k taskId contextId reason : TaskM σ Unit).wp
      (amongWriters cfg taskId RetryUnraced).system (fun _ _ _ => True) s w := by
  have hrule : LadderRule (amongWriters cfg taskId RetryUnraced) k [] _ _ _ :=
    ladderRule_ended List.nodup_nil
  have hack : ∀ {w : World} {s : σ}, EndedOutside w.data →
      ((do
        let _ ← Act.perform (.ack true)
        pure () : TaskM σ Unit)).wp (amongWriters cfg taskId RetryUnraced).system
        (fun _ _ _ => True) s w := by
    intro w s hw
    refine Act.wp_bind (wp_ack kept_ended hw.1 true (fun w hw _ => hw) fun _ w _ => ?_)
    exact wp_return (Kept.const True) trivial fun _ _ => trivial
  refine Act.wp_bind (Act.wp_tryCatch
    (Act.wp_mono (hrule.wp_markFailed (s := s) taskId contextId reason hw) ?_))
  rintro (x | _) s' w ⟨rfl, hw⟩
  · cases x with
    | cancelled => exact absurd hw not_false
    | storage e => exact wp_return kept_endedOutside hw fun w hw => hack hw
    | runtime m => exact wp_return kept_endedOutside hw fun w hw => hack hw
    | group x => exact wp_return kept_endedOutside hw fun w hw => hack hw
  · exact hack hw

theorem wp_handleFailedOp (contextId : Option ContextId) (attempt maxRetries : Nat)
    (hw : w.inScope = false) :
    (handleFailedOp k taskId contextId attempt maxRetries : TaskM σ Unit).wp
      (amongWriters cfg taskId RetryUnraced).system (fun _ _ _ => True) s w := by
  rw [handleFailedOp]
  split
  · refine Act.wp_bind (wp_ask (J := fun d => d.inScope = false) (kept_inScope false) hw
      (fun _ _ => trivial) (fun _ => ⟨_, rfl⟩) ?_)
    intro raised w hw
    cases raised with
    | true => exact wp_markFailedThenAck contextId _ hw
    | false => exact wp_return (Kept.const True) trivial fun _ _ => trivial
  · exact wp_markFailedThenAck contextId _ hw

theorem wp_handleOpInner (contextId : Option ContextId) (attempt maxRetries : Nat)
    (hw : w.inScope = false) :
    (handleOpInner k taskId contextId attempt maxRetries : TaskM σ Unit).wp
      (amongWriters cfg taskId RetryUnraced).system (fun _ _ _ => True) s w := by
  rw [handleOpInner]
  split
  · exact wp_markFailedThenAck contextId _ hw
  refine Act.wp_bind (wp_ask (J := fun d => d.inScope = false) (kept_inScope false) hw
    (fun _ _ => trivial) (fun _ => ⟨_, rfl⟩) ?_)
  intro raised w hw
  cases raised with
  | true => exact wp_handleFailedOp contextId attempt maxRetries hw
  | false =>
    refine Act.wp_bind (wp_ack (J := fun d => d.inScope = false) (kept_inScope false) hw false
      (fun _ _ h => nomatch h) fun raised w hw => ?_)
    cases raised with
    | true => exact wp_handleFailedOp contextId attempt maxRetries hw
    | false => exact wp_return (Kept.const True) trivial fun _ _ => trivial

/-- The operations that require the task to have ended are admitted everywhere. -/
theorem required_of_ok {β : Type} {e : Op β} (h : RetryUnraced e w → World.required e w) :
    World.required e w := by
  cases e with
  | busCleanup => exact h trivial
  | registryCleanup releaseKey => exact h trivial
  | ack last => exact h trivial
  | _ => trivial

/-- **Ladders end terminal.**  If nobody overtakes its retry, a ladder that returns
leaves the task terminal or gone, and resources are released and operations acknowledged
for the last time only then. -/
theorem ladders_end_terminal (k : StorageKind) (cfg : BusConfig) (taskId : TaskId)
    (contextId : Option ContextId) (reason : String) (ws : List (ArtifactWrite Ref))
    (hnd : (refs ws).Nodup) (s : σ) (w : World) (hw : w.inScope = false) :
    let S := (amongWriters cfg taskId RetryUnraced).system
    (∀ s' w', S.Reaches (cancelTaskInStorage k taskId contextId reason ws s, w)
        (.ret (.ok (), s'), w') → w'.ended) ∧
      (∀ s' w', S.Reaches (markFailed k taskId contextId reason ws s, w)
        (.ret (.ok (), s'), w') → w'.ended) ∧
      (∀ (β : Type) (e : Op β) cont w', S.Reaches (forceCancelAfter k taskId s, w)
        (.op e cont, w') → World.required e w') ∧
      ∀ attempt maxRetries (β : Type) (e : Op β) cont w',
        S.Reaches (handleOpInner k taskId contextId attempt maxRetries s, w) (.op e cont, w') →
          World.required e w' := by
  intro S
  have hrule : LadderRule (amongWriters cfg taskId RetryUnraced) k ws _ _ _ := ladderRule_ended hnd
  refine ⟨?_, ?_, ?_, ?_⟩
  · intro s' w' hrun
    have hwp := hrule.wp_cancel (s := s) (w := w) taskId contextId reason
      (fun d _ _ hd hended _ _ _ => ⟨hended, hd⟩) hw
    exact (Prog.wp_sound hwp hrun).2.1
  · intro s' w' hrun
    have hwp := hrule.wp_markFailed (s := s) (w := w) taskId contextId reason hw
    exact (Prog.wp_sound hwp hrun).2.1
  · intro β e cont w' hrun
    exact required_of_ok (Prog.wp_req (wp_forceCancelAfter hw) hrun)
  · intro attempt maxRetries β e cont w' hrun
    exact required_of_ok
      (Prog.wp_req (wp_handleOpInner contextId attempt maxRetries hw) hrun)

end

/-! ### Contended ladders -/

/-- One conflict: the retry finds the version it names, and the task ends canceled. -/
theorem one_conflict_ends_canceled :
    ∃ w', (amongWriters ⟨1, 1, 60⟩ "t" RetryUnraced).system.Reaches
      (cancelTaskInStorage .memory "t" (some "c") "Task was canceled." [] (),
        World.holding workingTask 1) (.ret (.ok (), ()), w') ∧ w'.ended := by
  have hrun : ∃ w', (amongWriters ⟨1, 1, 60⟩ "t" RetryUnraced).system.Reaches
      (cancelTaskInStorage .memory "t" (some "c") "Task was canceled." [] (),
        World.holding workingTask 1) (.ret (.ok (), ()), w') := by
    apply Exists.intro
    -- get_version, load_task and the message id, then the lost write
    refine .op trivial rfl (.op trivial rfl (.op trivial rfl ?_))
    refine .env (env_bump trivial rfl) (.op trivial rfl ?_)
    -- the second attempt commits, and the emitter awaits its hooks
    refine .op trivial rfl (.op trivial rfl (.op ?_ rfl ?_))
    · intro row hrow
      cases hrow
      exact Or.inl rfl
    refine .op trivial rfl (.op trivial rfl (.op trivial rfl (.op trivial rfl (.op trivial rfl ?_))))
    -- the final event passes the subscriber lock
    refine .op trivial rfl (.op trivial rfl (.op trivial rfl ?_))
    refine .env (EnvStep.bus (a := .grant) trivial rfl) (.op trivial rfl ?_)
    exact .refl
  obtain ⟨w', hrun⟩ := hrun
  exact ⟨w', hrun, (ladders_end_terminal .memory ⟨1, 1, 60⟩ "t" (some "c") "Task was canceled." []
    List.nodup_nil () (World.holding workingTask 1) rfl).1 () w' hrun⟩

/-- Two conflicts: the ladder returns with the task still working, and
`_force_cancel_after` goes on to the cleanup. -/
theorem second_conflict_stays_working :
    (∃ w', (amongWriters ⟨1, 1, 60⟩ "t" fun _ _ => True).system.Reaches
      (cancelTaskInStorage .memory "t" (some "c") "Task was canceled." [] (),
        World.holding workingTask 1) (.ret (.ok (), ()), w') ∧ ¬ w'.ended) ∧
    ∃ cont w', (amongWriters ⟨1, 1, 60⟩ "t" fun _ _ => True).system.Reaches
      (forceCancelAfter .memory "t" (), World.holding workingTask 1)
      (.op .busCleanup cont, w') ∧ ¬ w'.ended := by
  have hstill : ∀ row : Row, row.task.status.state = .working →
      ¬ (row.task.status.state.isTerminal = true) := by
    intro row hrow
    rw [hrow]
    decide
  constructor
  · apply Exists.intro
    apply And.intro
    · refine .op trivial rfl (.op trivial rfl (.op trivial rfl ?_))
      refine .env (env_bump trivial rfl) (.op trivial rfl ?_)
      refine .op trivial rfl (.op trivial rfl ?_)
      refine .env (env_bump trivial rfl) (.op trivial rfl ?_)
      exact .refl
    · exact fun hended => hstill _ rfl (hended _ rfl)
  · apply Exists.intro
    apply Exists.intro
    apply And.intro
    · refine .op trivial rfl ?_
      refine .op trivial rfl (.op trivial rfl (.op trivial rfl ?_))
      refine .env (env_bump trivial rfl) (.op trivial rfl ?_)
      refine .op trivial rfl (.op trivial rfl ?_)
      refine .env (env_bump trivial rfl) (.op trivial rfl ?_)
      exact .refl
    · exact fun hended => hstill _ rfl (hended _ rfl)

end A2AKit
