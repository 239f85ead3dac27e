/-
The status of a terminal task.

The storage refuses a new state for a terminal task, but not a new status text: what keeps
`send_status` from changing a terminal task is the version it expects.  As long as the
context has not been handed the version of a terminal task (`Stale`), none of its writes
commits on one.  The context is handed such a version by a write that leaves the status
alone, by the conflict of a second attempt, which is skipped, and by `get_version`.  In
every run in which none of these happens while the stored task is terminal
(`ContextUnaware`), the status of a terminal task is frozen (`terminal_status_frozen`).
-/
import A2AKit.Announcements

namespace A2AKit

/-- The stored task is terminal. -/
def World.Over (w : World) : Prop :=
  ∃ row, w.row = some row ∧ row.task.status.state.isTerminal = true

/-- A version from before the end of the task. -/
def Stale (v : Option Nat) (w : World) : Prop :=
  match v with
  | none => w.row = none
  | some n => ∀ row, w.row = some row →
      n ≤ row.version ∧ (row.task.status.state.isTerminal = true → n < row.version)

/-- A progress write that may run on a terminal task: the first attempt of one that sets the
status. -/
def Site.mayMeetEnd (site : Site) (args : UpdateArgs Ref) : Prop :=
  match site with
  | .turn _ second => args.state = none → args.setsStatus = true ∧ second = false
  | _ => True

/-- While the stored task is terminal, the context makes no artifact-only write and no
second attempt of a progress write, and does not ask for the version. -/
def ContextUnaware {β : Type} (e : Op β) (w : World) : Prop :=
  match e with
  | .getVersion => ¬ w.Over
  | .update site args => w.Over → site.mayMeetEnd args
  | .updateRead _ site args => w.Over → site.mayMeetEnd args
  | .updateWrite _ site args _ _ _ => w.Over → site.mayMeetEnd args
  | _ => True

/-- The operation leaves the status of a terminal task alone. -/
def Freezes (cfg : BusConfig) (taskId : TaskId) {β : Type} (e : Op β) (w : World) : Prop :=
  ∀ w' b, World.perform cfg taskId e w = some (w', b) → ∀ row, w.row = some row →
    row.task.status.state.isTerminal = true →
    ∃ row', w'.row = some row' ∧ row'.task.status = row.task.status

section

variable {T : Setting} {cfg : BusConfig} {taskId : TaskId} {w w' : World} {v : Option Nat}
  {site : Site} {args : UpdateArgs Ref} {row row' : Row}

theorem freezes_of_quiet {β : Type} {e : Op β} (he : e.quiet = true) (w : World) :
    Freezes cfg taskId e w := by
  intro w' b hperf row hrow _
  exact ⟨row, (((World.performed hperf).of_quiet he).1).trans hrow, rfl⟩

theorem freezes_publish (event : StreamEvent Ref) (w : World) :
    Freezes cfg taskId (.publish event) w := by
  intro w' b hperf row hrow _
  simp only [World.perform, Option.map_eq_some_iff] at hperf
  obtain ⟨w₁, hbus, h⟩ := hperf
  obtain ⟨out, -, rfl⟩ := World.busStep_some hbus
  rw [← (Prod.mk.inj h).1]
  exact ⟨row, hrow, rfl⟩

theorem stable_stale (v : Option Nat) : T.Stable (Stale v) := by
  intro w w' hstep hw
  cases hstep with
  | @write row heap args now _ hrow _ =>
    cases v with
    | none =>
      have hnone : w.row = none := hw
      simp [hnone] at hrow
    | some n =>
      intro row' hrow'
      obtain rfl := Option.some_inj.mp hrow'
      have hle : n ≤ row.version := (hw row hrow).1
      constructor
      · show n ≤ row.version + 1
        omega
      · intro _
        show n < row.version + 1
        omega
  | delete _ =>
    cases v with
    | none => rfl
    | some n => exact fun row hrow => nomatch hrow
  | bus _ hbus =>
    obtain ⟨out, -, rfl⟩ := World.busStep_some hbus
    exact hw
  | _ => exact hw

theorem quiet_stale (v : Option Nat) : Quiet T (Stale v) where
  stable := stable_stale v
  keep e w w' b he _ hperf hw := by
    have hrow := ((World.performed hperf).of_quiet he).1
    cases v with
    | none => exact hrow.trans hw
    | some n =>
      intro row hrow'
      exact hw row (hrow.symm.trans hrow')

/-- With a stale version nothing is committed on a terminal task. -/
theorem Stale.not_over (hw : Stale args.expectedVersion w) (hrow : w.row = some row)
    (hcommit : StatusCommit taskId args row row') : row.task.status.state.isTerminal = false := by
  rcases hexp : args.expectedVersion with _ | e
  · rw [hexp] at hw
    have hnone : w.row = none := hw
    simp [hnone] at hrow
  · rw [hexp] at hw
    obtain ⟨-, hlt⟩ := hw row hrow
    have hpin : e = row.version := hcommit.pinned e hexp
    refine Bool.eq_false_iff.mpr fun hterm => ?_
    have := hlt hterm
    omega

/-- A commit makes every stale version older. -/
theorem Stale.commit (hw : Stale v w) (hrow : w.row = some row)
    (hcommit : StatusCommit taskId args row row') (written : List TaskState) :
    Stale v { w with row := some row', written } := by
  cases v with
  | none =>
    have hnone : w.row = none := hw
    simp [hnone] at hrow
  | some n =>
    intro r hr
    obtain rfl := Option.some_inj.mp hr
    have hle : n ≤ row.version := (hw row hrow).1
    have hver : row'.version = row.version + 1 := hcommit.version
    constructor
    · omega
    · intro _
      omega

/-- The version of a task that is not terminal may be used. -/
theorem stale_of_alive (hrow : w.row = some row)
    (hlive : row.task.status.state.isTerminal = false) {n : Nat} (hn : n ≤ row.version) :
    Stale (some n) w := by
  intro r hr
  obtain rfl := Option.some_inj.mp (hrow.symm.trans hr)
  exact ⟨hn, fun hterm => by simp [hterm] at hlive⟩

/-- A write of the turn, with a version from before the end. -/
theorem Stale.freezes_update (hw : Stale args.expectedVersion w) :
    Freezes cfg taskId (.update site args) w := by
  intro w' r hperf row hrow hterm
  rcases World.perform_update hperf with ⟨e, -, rfl, -⟩ | ⟨cur, row', hcur, -, hcommit, rfl⟩
  · exact ⟨row, hrow, rfl⟩
  · obtain rfl : row = cur := Option.some_inj.mp (hrow.symm.trans hcur)
    have hlive := hw.not_over hrow hcommit
    simp [hterm] at hlive

theorem Stale.freezes_write {b : SplitStorage} {attempt : Nat} {values : Values} {merged : Row}
    (hw : Stale args.expectedVersion w) (hhonest : Honest taskId b args merged values w) :
    Freezes cfg taskId (.updateWrite b site args attempt merged values) w := by
  intro w' r hperf row hrow hterm
  simp only [World.perform] at hperf
  split at hperf
  · rename_i row' hwrite
    obtain ⟨rfl, rfl⟩ := Prod.mk.inj (Option.some_inj.mp hperf)
    obtain ⟨cur, hcur, hcommit⟩ := hhonest.commit hwrite
    obtain rfl : row = cur := Option.some_inj.mp (hrow.symm.trans hcur)
    have hlive := hw.not_over hrow hcommit
    simp [hterm] at hlive
  · obtain ⟨rfl, rfl⟩ := Prod.mk.inj (Option.some_inj.mp hperf)
    exact ⟨row, hrow, rfl⟩

/-- What an error of the turn reports. -/
theorem reported_stale {e : StorageError} {ws : List (ArtifactWrite Ref)} {second : Bool}
    (hA : w.Over → (Site.turn ws second).mayMeetEnd args) (h : Refused args w.row e) :
    Reported Stale (fun v => Known (some v)) (.turn ws second) args (.storage e) w := by
  cases h with
  | notFound _ => trivial
  | terminal _ _ => trivial
  | @conflict message current _ hcurrent =>
    rcases current with _ | n
    · trivial
    obtain ⟨row, hrow, hver⟩ := hcurrent n rfl
    have hknown : Known (some n) w := by
      intro m hm row' hrow'
      obtain rfl := Option.some_inj.mp hm
      obtain rfl := Option.some_inj.mp (hrow.symm.trans hrow')
      exact hver.ge
    by_cases hterm : row.task.status.state.isTerminal = true
    · -- only a write that does not use the version is admitted here
      have hmay := hA ⟨row, hrow, hterm⟩
      cases second with
      | false =>
        simp only [Reported]
        split
        · exact hknown
        · rename_i hsets
          have hnone : args.state = none := by
            rcases hstate : args.state with _ | st
            · rfl
            · simp [UpdateArgs.setsStatus, hstate] at hsets
          exact absurd (hmay hnone).1 hsets
      | true =>
        simp only [Reported]
        split
        · exact hknown
        · rename_i hstate
          have hnone : args.state = none := by simpa using hstate
          exact absurd (hmay hnone).2 (by simp)
    · have hstale : Stale (some n) w := stale_of_alive hrow (by simpa using hterm) hver.ge
      cases second with
      | true | false =>
        simp only [Reported]
        split
        · exact hknown
        · exact hstale

/-- A state that a write leaves is terminal only if it was, or if the write ends the stream. -/
theorem StatusCommit.alive (h : StatusCommit taskId args row row') (hending : args.ending = none)
    (hlive : row.task.status.state.isTerminal = false) :
    row'.task.status.state.isTerminal = false := by
  obtain ⟨now, hstatus⟩ := h.status
  rw [hstatus, nextStatus_state]
  rcases hstate : args.state with _ | st
  · exact hlive
  · rw [UpdateArgs.ending, hstate, Option.filter_some] at hending
    refine Bool.eq_false_iff.mpr fun hterm => ?_
    have hterm' : st.isTerminal = true := hterm
    simp [endsStream, hterm'] at hending

/-- A call of `update_task` by the context. -/
theorem statusRule_stale (k : StorageKind) (ws : List (ArtifactWrite Ref)) (second : Bool)
    (args : UpdateArgs Ref) (v₀ : Option Nat) :
    StatusRule (anyParty cfg taskId ContextUnaware) (Freezes cfg taskId) k (.turn ws second) args
      (fun w => w.Over → (Site.turn ws second).mayMeetEnd args)
      (fun w => True ∧ Stale v₀ w ∧ Stale args.expectedVersion w)
      (fun v w => AfterWrite (fun _ => True) Stale (fun _ _ => True) args v w ∧ Stale v₀ w)
      (fun x w => True ∧ Stale v₀ w ∧
        Reported Stale (fun v => Known (some v)) (.turn ws second) args x w) where
  stable := (Setting.Stable.const _).and ((stable_stale v₀).and (stable_stale _))
  stable_commit v := (stable_afterWrite (Quiet.const _ True) quiet_stale
    (fun _ => Quiet.const _ True) args v).and (stable_stale v₀)
  stable_raise x := (Setting.Stable.const _).and ((stable_stale v₀).and
    (quiet_reported quiet_stale (fun v => quiet_known (some v)) _ args x).stable)
  admits_update _ hok := hok
  admits_read _ _ hok := hok
  admits_write _ _ _ _ _ hok := hok
  merge _ _ hw := hw
  seen w row hw hrow e he := by
    have hstale := hw.2.2
    rw [he] at hstale
    exact (hstale row hrow).1
  req_await pt w := freezes_of_quiet rfl w
  req_read b w := by
    intro w' r hperf row hrow _
    rw [← (Prod.mk.inj (Option.some_inj.mp hperf)).1]
    exact ⟨row, hrow, rfl⟩
  req_update w hw _ := hw.2.2.freezes_update
  req_write b attempt row values w hw _ hhonest := hw.2.2.freezes_write hhonest
  commit w row row' hw _ hrow hcommit := by
    refine ⟨?_, hw.2.1.commit hrow hcommit _⟩
    have hlive := hw.2.2.not_over hrow hcommit
    rw [AfterWrite]
    -- an ending write says nothing about the versions after it
    rcases hending : args.ending with _ | st
    · exact ⟨trivial, stale_of_alive rfl (hcommit.alive hending hlive) le_rfl⟩
    · trivial
  refused w e hw hA href := ⟨trivial, hw.2.1, reported_stale hA href⟩
  cancelled w hw := ⟨trivial, hw.2.1, trivial⟩
  interrupted v w hw _ _ := ⟨trivial, hw.2, trivial⟩

theorem discipline_stale (cfg : BusConfig) (taskId : TaskId) (k : StorageKind) :
    Discipline (anyParty cfg taskId ContextUnaware) (Freezes cfg taskId) k
      (fun site => ∃ ws second, site = .turn ws second) (fun _ => True) Stale
      (fun v => Known (some v)) (fun _ _ => True) where
  quiet := Quiet.const _ True
  known := quiet_stale
  seen v := quiet_known (some v)
  open_ _ := Quiet.const _ True
  req_quiet e w he _ := freezes_of_quiet he w
  version w _ hok := by
    rcases hrow : w.row with _ | row
    · exact hrow
    · refine stale_of_alive hrow ?_ le_rfl
      exact Bool.eq_false_iff.mpr fun hterm => hok ⟨row, hrow, hterm⟩
  fresh v w row _ hw hrow hlive := stale_of_alive hrow hlive (hw v rfl row hrow)
  write site args v₀ hsite := by
    obtain ⟨ws, second, rfl⟩ := hsite
    exact ⟨_, (statusRule_stale k ws second args v₀).steps⟩
  marker _ _ _ w _ _ := ⟨freezes_publish _ w, fun _ _ _ => trivial⟩

end

/-- **The status of a terminal task is frozen.**  No operation of a handler, whatever calls it
makes, changes the status of a terminal task, provided that the context is not handed the
version of a terminal task.  The context starts with a version from before the end, as the
transition to working returns it (`startWorking_stale`). -/
theorem terminal_status_frozen (k : StorageKind) (cfg : BusConfig) (taskId : TaskId)
    (contextId : Option ContextId) (h : Handler) (ctx : TaskContext) (w w₁ w₂ : World)
    (hctx : ctx.turnEnded = false → Stale ctx.version w) (β : Type) (e : Op β)
    (next : β → Prog Op (Except Exc Unit × TaskContext)) (b : β)
    (hrun : (anyParty cfg taskId ContextUnaware).system.Reaches
      (WorkerAdapter.handle k taskId contextId (TaskContext.run k taskId contextId h) ctx, w)
      (.op e next, w₁))
    (hok : ContextUnaware e w₁) (hperf : World.perform cfg taskId e w₁ = some (w₂, b)) (row : Row)
    (hrow : w₁.row = some row) (hterm : row.task.status.state.isTerminal = true) :
    ∃ row', w₂.row = some row' ∧ row'.task.status = row.task.status := by
  have hkept : Act.Triple _ _ (WorkerAdapter.handle k taskId contextId
      (TaskContext.run k taskId contextId h)) _ _ :=
    (discipline_stale cfg taskId k).handle (fun ws second => ⟨ws, second, rfl⟩) h
  exact Prog.wp_req (hkept ctx w ⟨trivial, hctx⟩) (Setting.reaches_systemWith _ hrun) hok w₂ b
    hperf row hrow hterm

/-- The task after a force cancel. -/
def canceledTask : Task :=
  { workingTask with status := { state := .canceled, timestamp := "12:00", message := none } }

/-- The context has not noticed that the task, now at version 2, was canceled. -/
def unaware : TaskContext := { version := some 1 }

theorem stale_unaware : Stale unaware.version (World.holding canceledTask 2) := by
  intro row hrow
  obtain rfl := Option.some_inj.mp hrow
  exact ⟨by decide, fun _ => by decide⟩

/-- The first attempt of a status text on the canceled task. -/
theorem late_text_refused :
    ∃ next w₁ b, (anyParty ⟨1, 1, 60⟩ "t" ContextUnaware).system.Reaches
        (WorkerAdapter.handle .memory "t" (some "c") (TaskContext.run .memory "t" (some "c")
          (.call (.sendStatus (some "half way")) .done)) unaware, World.holding canceledTask 2)
        (.op (.update (.turn [] false)
          { statusMessage := some (agentMessage "t" "c" "" "half way"), expectedVersion := some 1 })
          next, World.holding canceledTask 2) ∧
      World.perform ⟨1, 1, 60⟩ "t" (.update (.turn [] false)
          { statusMessage := some (agentMessage "t" "c" "" "half way"), expectedVersion := some 1 })
        (World.holding canceledTask 2) = some (w₁, b) ∧
      ∃ row', w₁.row = some row' ∧ row'.task.status = canceledTask.status := by
  have hrun : (anyParty ⟨1, 1, 60⟩ "t" ContextUnaware).system.Reaches
      (WorkerAdapter.handle .memory "t" (some "c") (TaskContext.run .memory "t" (some "c")
        (.call (.sendStatus (some "half way")) .done)) unaware, World.holding canceledTask 2)
      (.op (.update (.turn [] false)
        { statusMessage := some (agentMessage "t" "c" "" "half way"), expectedVersion := some 1 })
        _, World.holding canceledTask 2) :=
    System.Reaches.op (e := Op.uuid) trivial rfl .refl
  have hok : ContextUnaware (.update (.turn [] false)
      { statusMessage := some (agentMessage "t" "c" "" "half way"), expectedVersion := some 1 })
      (World.holding canceledTask 2) := fun _ _ => ⟨rfl, rfl⟩
  exact ⟨_, _, _, hrun, rfl, terminal_status_frozen .memory ⟨1, 1, 60⟩ "t" (some "c") _ unaware _ _ _
    (fun _ => stale_unaware) _ _ _ _ hrun hok rfl _ rfl rfl⟩

/-! ### The version that the turn starts with -/

/-- The transition to working returns a version from before the end of the task. -/
theorem startWorking_stale (k : StorageKind) (T : Setting) :
    Act.Triple (T.systemWith fun _ _ => True) (fun (_ : TaskContext) _ => True)
      (WorkerAdapter.startWorking k) (fun v _ w => v.isSome = true → Stale v w)
      fun _ _ _ => True := by
  have hrule : StatusRule T (fun _ _ => True) k .other { state := some .working } (fun _ => True)
      (fun _ => True) (fun v w => Stale (some v) w) (fun _ _ => True) :=
    { stable := Setting.Stable.const _
      stable_commit := fun v => stable_stale (some v)
      stable_raise := fun _ => Setting.Stable.const _
      admits_update := fun _ _ => trivial
      admits_read := fun _ _ _ => trivial
      admits_write := fun _ _ _ _ _ _ => trivial
      merge := fun _ _ _ => trivial
      seen := fun _ _ _ _ _ h => nomatch h
      req_await := fun _ _ => trivial
      req_read := fun _ _ => trivial
      req_update := fun _ _ _ => trivial
      req_write := fun _ _ _ _ _ _ _ _ => trivial
      commit := fun w row row' _ _ _ hcommit => by
        obtain ⟨now, hstatus⟩ := hcommit.status
        refine stale_of_alive rfl ?_ le_rfl
        rw [hstatus, nextStatus_state]
        rfl
      refused := fun _ _ _ _ _ => trivial
      cancelled := fun _ _ => trivial
      interrupted := fun _ _ _ _ _ => trivial }
  -- a refused `working` is answered without a version
  have hnone : Act.Triple (T.systemWith fun _ _ => True) (fun (_ : TaskContext) _ => True)
      (pure none : TurnM (Option Nat)) (fun v _ w => v.isSome = true → Stale v w)
      fun _ _ _ => True :=
    Act.Triple.pure (fun _ => Setting.Stable.const _) fun _ _ _ h => nomatch h
  refine Act.Triple.tryCatch (X := fun _ _ _ => True) (Act.Triple.bind
    (Q := fun v _ w => Stale (some v) w) ?_ fun v => ?_) fun x => ?_
  · intro s w hw
    refine Act.wp_mono (hrule.steps.wp hw) ?_
    rintro (x | v) s' w' hw'
    · trivial
    · exact hw'.2
  · exact Act.Triple.pure (fun _ => stable_stale (some v)) fun _ _ hw _ => hw
  · split
    · exact hnone
    · exact hnone
    · exact Act.Triple.throw (fun _ => Setting.Stable.const _) fun _ _ hw => hw

/-! ### A status that was overwritten -/

/-- A handler that emits a chunk and reports progress with a text. -/
def streaming : Handler :=
  .call (.emitArtifact { artifactId := "a", content := { text := some "x" } }) fun _ =>
    .call (.sendStatus (some "half way")) .done

/-- Nobody else writes the task. -/
def alone (cfg : BusConfig) (taskId : TaskId) : Setting where
  cfg := cfg
  taskId := taskId
  cancels := True
  bus := fun _ _ => True

/-- The flush is retried on the terminal task and hands its version to the context, so that the
status text replaces the status of the canceled task. -/
theorem canceled_status_overwritten :
    Stale unaware.version (World.holding canceledTask 2) ∧
    ∃ ctx' w', (alone ⟨1, 1, 60⟩ "t").system.Reaches
      (WorkerAdapter.handle .memory "t" (some "c")
        (TaskContext.run .memory "t" (some "c") streaming) unaware, World.holding canceledTask 2)
      (.ret (.ok (), ctx'), w') ∧
      (w'.row.map fun row => row.task.status) = some
        { state := .canceled, timestamp := "12:01"
          message := some (agentMessage "t" "c" "" "half way") } := by
  refine ⟨stale_unaware, ?_⟩
  have hmoves : ∀ m ∈ [Move.cancel, .ambient ⟨"12:01", 1000, "", false, false⟩] ++
      -- the chunk is published, and the interval is over
      List.replicate 3 Move.step ++ [Move.bus .grant] ++ List.replicate 6 Move.step ++
      -- the status text is written and published
      List.replicate 6 Move.step ++ [Move.bus .grant] ++ List.replicate 2 Move.step,
      (alone ⟨1, 1, 60⟩ "t").Allows m := by
    simp [allows_step, allows_ambient, allows_cancel, allows_bus, alone]
  obtain ⟨ctx', w', hrun, hcheck⟩ := reaches_of_execute anyOp (fun _ _ _ _ => trivial) hmoves
    (p := WorkerAdapter.handle .memory "t" (some "c")
      (TaskContext.run .memory "t" (some "c") streaming) unaware)
    (w := World.holding canceledTask 2)
    (fun _ w => decide ((w.row.map fun row => row.task.status) = some
      { state := .canceled, timestamp := "12:01"
        message := some (agentMessage "t" "c" "" "half way") })) (by decide +kernel)
  exact ⟨ctx', w', hrun, of_decide_eq_true hcheck⟩

end A2AKit
