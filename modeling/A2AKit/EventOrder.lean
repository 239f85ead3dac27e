/-
Events at the end of a task.

Every party writes first and publishes afterwards, so another party can finish the task in
between.  `InOrder` says that this has not happened: after the marker of a terminal state
no status event carries another state, and the marked state is the stored one.

The marker of a terminal state is always published for a task that is in that state
(`Announces`), by the turn, by the ladders and by `_submit_task`.  What may come late is an
event that says that the task goes on, since nobody looks at the storage before it is
published.  `Narration` keeps whether the program, or some other party, has written a status that
it has not announced yet.  In every run in which nobody else announces an end just then, and in
which `send_status` without a text is not called after an announced end, the events are in order
(`events_in_order`).
-/
import A2AKit.Announcements
import A2AKit.Submission

namespace A2AKit

namespace StreamEvent

variable {α : Type}

/-- The state that a status event carries. -/
def statusState : StreamEvent α → Option TaskState
  | .statusUpdate _ _ status => some status.state
  | .terminalMarker _ _ status => some status.state
  | _ => none

/-- The event says that the task goes on, or waits for input. -/
def goesOn : StreamEvent α → Bool
  | .statusUpdate .. => true
  | .terminalMarker _ _ status => !status.state.isTerminal
  | _ => false

end StreamEvent

/-- The events that were published for the task, by whomever. -/
def World.taskEvents (taskId : TaskId) (w : World) : List (StreamEvent Ref) :=
  w.history.filterMap fun r =>
    match r.action with
    | .publish t e => if t = taskId then some e else none
    | _ => none

/-- The stored task is in the state `st`. -/
def World.InState (st : TaskState) (w : World) : Prop :=
  ∃ row, w.row = some row ∧ row.task.status.state = st

/-- After the marker `m` of a terminal state, `e` carries the same state, if any. -/
def Agrees (m e : StreamEvent Ref) : Prop :=
  ∀ st, m.markerState = some st → st.isTerminal = true → ∀ st', e.statusState = some st' → st' = st

structure InOrder (taskId : TaskId) (w : World) : Prop where
  ordered : (w.taskEvents taskId).Pairwise Agrees
  stored : ∀ e ∈ w.taskEvents taskId, ∀ st, e.markerState = some st → st.isTerminal = true →
    w.InState st

/-- The marker of a terminal state. -/
def StreamEvent.endMarker {α : Type} (e : StreamEvent α) : Bool :=
  e.markerState.any TaskState.isTerminal

/-- The end of the task was announced. -/
def World.EndAnnounced (taskId : TaskId) (w : World) : Prop :=
  ∃ e ∈ w.taskEvents taskId, e.endMarker = true

instance (taskId : TaskId) (w : World) : Decidable (w.EndAnnounced taskId) :=
  inferInstanceAs (Decidable (∃ _ ∈ _, _))

/-- The marker of a terminal state is published once that state is stored. -/
def MarksStored (w : World) (e : StreamEvent Ref) : Prop :=
  ∀ st, e.markerState = some st → st.isTerminal = true → w.InState st

/-- A status event that says that the task goes on is published before the end is announced, and
the marker of a terminal state only once that state is stored. -/
def Timely (taskId : TaskId) (w : World) (e : StreamEvent Ref) : Prop :=
  (e.goesOn = true → ¬ w.EndAnnounced taskId) ∧ MarksStored w e

/-- Other parties write, cancel and use the bus; their markers are those of stored ends. -/
def orderly (cfg : BusConfig) (taskId : TaskId) : Setting where
  cfg := cfg
  taskId := taskId
  writes := fun _ => True
  cancels := True
  bus := fun w a =>
    match a with
    | .publish t e => t = taskId → MarksStored w e
    | _ => True
  loads := fun _ _ => True

/-- A world, whether the program has written a status that it has not announced yet, and whether
another party has. -/
structure Narration where
  world : World
  unannounced : Bool := false
  pending : Bool := false

/-- A write that has left the task alive. -/
def World.writtenAlive (w w' : World) : Bool :=
  decide (w'.row.map Row.version ≠ w.row.map Row.version) &&
    w'.row.any fun row => !row.task.status.state.isTerminal

/-- A status is announced by its event; a cancellation that is delivered skips it. -/
def Narration.next {β : Type} (n : Narration) (e : Op β) (w' : World) (b : β) : Bool :=
  match e, b with
  | .publish event, _ => n.unannounced && event.statusState.isNone
  | .await _, raised => n.unannounced && !raised
  | .update _ args, _ => n.unannounced || (args.setsStatus && n.world.writtenAlive w')
  | .updateWrite _ _ args _ _ _, _ =>
    n.unannounced || (args.setsStatus && n.world.writtenAlive w')
  | _, _ => n.unannounced

/-- What another party may publish: a status that some other party has written, or one that it has
not written and that no announced end precedes; and the marker of a stored end, while nobody has a
status to announce. -/
structure MayPublish (taskId : TaskId) (unannounced pending : Bool) (w : World)
    (e : StreamEvent Ref) : Prop where
  goesOn : e.goesOn = true → pending = true ∨ ¬ w.EndAnnounced taskId
  marks : MarksStored w e
  waits : e.endMarker = true → unannounced = false ∧ pending = false

/-- Other parties write, cancel and publish so. -/
def others (cfg : BusConfig) (taskId : TaskId) (unannounced pending : Bool) : Setting :=
  { orderly cfg taskId with
    bus := fun w a =>
      match a with
      | .publish t e => t = taskId → MayPublish taskId unannounced pending w e
      | _ => True }

/-- The program waits with the marker of an end for the others' statuses, and a status that
announces no write is not published after the end. -/
def Patient (taskId : TaskId) {β : Type} (e : Op β) (n : Narration) : Prop :=
  match e with
  | .publish event => (event.endMarker = true → n.pending = false) ∧
      (event.goesOn = true → n.unannounced = false → ¬ n.world.EndAnnounced taskId)
  | _ => True

/-- The runs of a program among such parties. -/
def narrated (cfg : BusConfig) (taskId : TaskId) : System Op Narration where
  perform e n :=
    (World.perform cfg taskId e n.world).map fun q => (⟨q.1, n.next e q.1 q.2, n.pending⟩, q.2)
  env n n' := n'.unannounced = n.unannounced ∧
    (n'.pending = true → n.pending = true ∨ n.world.writtenAlive n'.world = true) ∧
    EnvStep (others cfg taskId n.unannounced n.pending) n.world n'.world
  ok e n := Patient taskId e n
  req _ _ := True

/-- What the programs guarantee: the marker of a terminal state is published for a task in
that state, and a merge is written over the row it was made from. -/
def Announces (taskId : TaskId) {β : Type} (e : Op β) (w : World) : Prop :=
  match e with
  | .publish event => MarksStored w event
  | .updateWrite b _ args _ row values => Honest taskId b args row values w
  | _ => True

section

variable {cfg : BusConfig} {taskId : TaskId} {w w' : World} {st : TaskState}

theorem StatusCommit.state_of_terminal {args : UpdateArgs Ref} {row row' : Row}
    (h : StatusCommit taskId args row row') (hterm : row.task.status.state.isTerminal = true) :
    row'.task.status.state = row.task.status.state := by
  obtain ⟨now, hstatus⟩ := h.status
  have hguard := h.guard
  rw [hstatus, nextStatus_state]
  rcases hstate : args.state with _ | state
  · rfl
  · simp [terminalGuard, hstate, hterm] at hguard

/-- A terminal state that is stored stays stored. -/
theorem InState.commit {args : UpdateArgs Ref} {row row' : Row} (hw : w.InState st)
    (hst : st.isTerminal = true) (hrow : w.row = some row)
    (hcommit : StatusCommit taskId args row row') (hrow' : w'.row = some row') : w'.InState st := by
  obtain ⟨cur, hcur, rfl⟩ := hw
  obtain rfl : row = cur := Option.some_inj.mp (hrow.symm.trans hcur)
  exact ⟨row', hrow', hcommit.state_of_terminal hst⟩

theorem marker_of_statusState {α : Type} {e : StreamEvent α} (hst : e.statusState = some st)
    (hgoes : e.goesOn = false) : e.markerState = some st ∧ st.isTerminal = true := by
  cases e with
  | terminalMarker t c status =>
    obtain rfl := Option.some_inj.mp hst
    exact ⟨rfl, by simpa [StreamEvent.goesOn] using hgoes⟩
  | statusUpdate t c status => simp [StreamEvent.goesOn] at hgoes
  | artifactUpdate t c a append lastChunk => simp [StreamEvent.statusState] at hst
  | directReply m => simp [StreamEvent.statusState] at hst

theorem taskEvents_publish {event : StreamEvent Ref} {t : TaskId} {w₁ : World}
    (hbus : w.busStep cfg (.publish t event) = some w₁) (hhistory : w'.history = w₁.history) :
    w'.taskEvents taskId = w.taskEvents taskId ++ if t = taskId then [event] else [] := by
  obtain ⟨out, -, rfl⟩ := World.busStep_some hbus
  rw [World.taskEvents, hhistory, List.filterMap_append]
  split
  · rename_i ht
    simp [World.taskEvents, ht]
  · rename_i ht
    simp [World.taskEvents, ht]

/-- Publishing a timely event keeps the order. -/
theorem InOrder.publish {event : StreamEvent Ref} {t : TaskId} {w₁ : World}
    (hw : InOrder taskId w) (hevent : t = taskId → Timely taskId w event)
    (hbus : w.busStep cfg (.publish t event) = some w₁) (hrow : w'.row = w.row)
    (hhistory : w'.history = w₁.history) : InOrder taskId w' := by
  have hevents : w'.taskEvents taskId =
      w.taskEvents taskId ++ if t = taskId then [event] else [] :=
    taskEvents_publish hbus hhistory
  have hstate : ∀ st, w.InState st → w'.InState st := by
    rintro st ⟨row, h, hst⟩
    exact ⟨row, hrow.trans h, hst⟩
  by_cases ht : t = taskId
  · rw [if_pos ht] at hevents
    obtain ⟨hearly, hmark⟩ := hevent ht
    refine ⟨?_, ?_⟩
    · rw [hevents, List.pairwise_append]
      refine ⟨hw.ordered, List.pairwise_singleton _ _, fun m hm e he => ?_⟩
      obtain rfl := List.mem_singleton.mp he
      intro st hst hterm st' hst'
      obtain ⟨row, hrow, rfl⟩ := hw.stored m hm st hst hterm
      -- after an announced end nothing goes on, and a second marker repeats that end
      by_cases hgoes : e.goesOn = true
      · exact absurd ⟨m, hm, by rw [StreamEvent.endMarker, hst]; exact hterm⟩ (hearly hgoes)
      · obtain ⟨hmarker, hterm'⟩ := marker_of_statusState hst' (by simpa using hgoes)
        obtain ⟨row', hrow', rfl⟩ := hmark st' hmarker hterm'
        obtain rfl := Option.some_inj.mp (hrow.symm.trans hrow')
        rfl
    · intro e he st hst hterm
      rw [hevents, List.mem_append] at he
      rcases he with he | he
      · exact hstate st (hw.stored e he st hst hterm)
      · obtain rfl := List.mem_singleton.mp he
        exact hstate st (hmark st hst hterm)
  · rw [if_neg ht, List.append_nil] at hevents
    refine ⟨?_, fun e he st hst hterm => ?_⟩
    · rw [hevents]
      exact hw.ordered
    · rw [hevents] at he
      exact hstate st (hw.stored e he st hst hterm)

/-- A step that leaves the events alone and commits nothing, or commits over the stored row. -/
theorem InOrder.keep (hw : InOrder taskId w) (hevents : w'.taskEvents taskId = w.taskEvents taskId)
    (hstate : ∀ st, st.isTerminal = true → w.InState st → w'.InState st) : InOrder taskId w' := by
  refine ⟨by rw [hevents]; exact hw.ordered, fun e he st hst hterm => ?_⟩
  rw [hevents] at he
  exact hstate st hterm (hw.stored e he st hst hterm)

/-- A step of the bus that publishes nothing. -/
theorem taskEvents_busStep {a : BusAction (StreamEvent Ref)}
    (hbus : w.busStep cfg a = some w') (ha : ∀ t e, a ≠ .publish t e) :
    w'.taskEvents taskId = w.taskEvents taskId := by
  obtain ⟨out, -, rfl⟩ := World.busStep_some hbus
  rw [World.taskEvents, List.filterMap_append]
  cases a with
  | publish t e => exact absurd rfl (ha t e)
  | _ => simp [World.taskEvents]

/-- The operation takes a step of the bus. -/
def Op.usesBus {β : Type} : Op β → Bool
  | .publish _ => true
  | .busCleanup => true
  | _ => false

/-- A quiet operation that takes no step of the bus leaves row and history alone. -/
theorem Performed.history {β : Type} {e : Op β} (h : Performed cfg taskId w e w')
    (he : e.quiet = true) (hbus : e.usesBus = false) : w'.row = w.row ∧ w'.history = w.history := by
  cases h with
  | commit hloud _ => simp [he] at hloud
  | publish _ => simp [Op.usesBus] at hbus
  | cleanup _ => simp [Op.usesBus] at hbus
  | _ => exact ⟨rfl, rfl⟩

def Op.isPublish {β : Type} : Op β → Bool
  | .publish _ => true
  | _ => false

/-- An operation that is no publish leaves the events alone, and a terminal state. -/
theorem Announces.quiet {β : Type} {e : Op β} {b : β} (hreq : Announces taskId e w)
    (he : e.isPublish = false)
    (hperf : World.perform cfg taskId e w = some (w', b)) :
    w'.taskEvents taskId = w.taskEvents taskId ∧
      ∀ st, st.isTerminal = true → w.InState st → w'.InState st := by
  cases e with
  | update site args =>
    rcases World.perform_update hperf with ⟨e, -, rfl, -⟩ | ⟨row, row', hrow, -, hcommit, rfl⟩
    · exact ⟨rfl, fun _ _ h => h⟩
    · exact ⟨rfl, fun st hterm hst => InState.commit hst hterm hrow hcommit rfl⟩
  | updateWrite sb site args attempt row values =>
    have hhonest : Honest taskId sb args row values w := hreq
    simp only [World.perform] at hperf
    split at hperf
    · rename_i row' hwrite
      obtain ⟨rfl, rfl⟩ := Prod.mk.inj (Option.some_inj.mp hperf)
      obtain ⟨cur, hcur, hcommit⟩ := hhonest.commit hwrite
      exact ⟨rfl, fun st hterm hst => InState.commit hst hterm hcur hcommit rfl⟩
    · obtain ⟨rfl, rfl⟩ := Prod.mk.inj (Option.some_inj.mp hperf)
      exact ⟨rfl, fun _ _ h => h⟩
  | publish event => exact absurd he (by simp [Op.isPublish])
  | busCleanup =>
    simp only [World.perform, Option.map_eq_some_iff] at hperf
    obtain ⟨w₁, hbus, h⟩ := hperf
    rw [← (Prod.mk.inj h).1]
    refine ⟨taskEvents_busStep hbus fun _ _ h => (by cases h), ?_⟩
    obtain ⟨out, -, rfl⟩ := World.busStep_some hbus
    exact fun _ _ h => h
  | updateRead sb site args =>
    rw [← (Prod.mk.inj (Option.some_inj.mp hperf)).1]
    exact ⟨rfl, fun _ _ h => h⟩
  | setInScope inScope =>
    rw [← (Prod.mk.inj (Option.some_inj.mp hperf)).1]
    exact ⟨rfl, fun _ _ h => h⟩
  | _ =>
    obtain ⟨hrow, hhistory⟩ := (World.performed hperf).history rfl rfl
    refine ⟨by rw [World.taskEvents, hhistory, World.taskEvents], fun st _ hst => ?_⟩
    rw [World.InState, hrow]
    exact hst

theorem stable_isSome : (orderly cfg taskId).Stable fun w => w.row.isSome = true := by
  intro w w' hstep hw
  cases hstep with
  | write _ _ _ => rfl
  | delete h => exact absurd h not_false
  | bus _ hbus =>
    obtain ⟨out, -, rfl⟩ := World.busStep_some hbus
    exact hw
  | _ => exact hw

theorem stable_inState (hterm : st.isTerminal = true) :
    (orderly cfg taskId).Stable (World.InState st) := by
  intro w w' hstep hw
  cases hstep with
  | @write row heap args now _ hrow hguard =>
    obtain ⟨cur, hcur, rfl⟩ := hw
    obtain rfl : row = cur := Option.some_inj.mp (hrow.symm.trans hcur)
    refine ⟨_, rfl, ?_⟩
    show (InMemoryStorage.updatedTask heap row.task args now).status.state = _
    rw [InMemoryStorage.updatedTask_state]
    rcases hstate : args.state with _ | state
    · rfl
    · simp [terminalGuard, hstate, hterm] at hguard
  | delete h => exact absurd h not_false
  | bus _ hbus =>
    obtain ⟨out, -, rfl⟩ := World.busStep_some hbus
    exact hw
  | _ => exact hw

theorem quiet_isSome : Quiet (orderly cfg taskId) fun w => w.row.isSome = true :=
  ⟨stable_isSome, fun _ _ _ _ _ _ hperf hw => (World.performed hperf).isSome_row hw⟩

theorem quiet_inState (hterm : st.isTerminal = true) :
    Quiet (orderly cfg taskId) (World.InState st) where
  stable := stable_inState hterm
  keep e w w' b he _ hperf hw := by
    rw [World.InState, ((World.performed hperf).of_quiet he).1]
    exact hw

/-- The stored task, and the state that the program has committed but not announced. -/
theorem streamRule_announces (cfg : BusConfig) (taskId : TaskId) :
    StreamRule (orderly cfg taskId) (Announces taskId) (fun w => w.row.isSome = true)
      fun st w => w.row.isSome = true ∧ (st.isTerminal = true → w.InState st) where
  req_quiet e w he := by
    cases e with
    | publish event =>
      intro st hst
      have hnone : event.markerState = none :=
        markerState_eq_none.mpr (by simpa [Op.quiet] using he)
      simp [hst] at hnone
    | updateWrite => simp [Op.quiet] at he
    | _ => trivial
  req_update _ _ _ := trivial
  req_read _ _ _ _ := trivial
  req_write _ _ _ _ _ _ _ hw := hw
  req_marker t c status w hw st hst hterm := by
    obtain rfl := Option.some_inj.mp hst
    exact hw.2 hterm
  quiet := quiet_isSome
  open_ _ := quiet_isSome.and (Quiet.imp quiet_inState)
  merge _ _ hw := hw
  commit args w row row' _ _ hcommit := by
    rcases hending : args.ending with _ | st
    · rfl
    · refine ⟨rfl, fun _ => ⟨row', rfl, ?_⟩⟩
      obtain ⟨now, hstatus⟩ := hcommit.status
      have hstate : args.state = some st := (Option.filter_eq_some_iff.mp hending).1
      rw [hstatus, nextStatus_state, hstate]
      rfl
  interrupted _ _ _ _ _ hw _ _ := hw.1
  marker _ _ _ w w' id hw _ hperf := (World.performed hperf).isSome_row hw.1

/-! ### What is told -/

/-- The events are in order, and whoever has a status to announce is not too late. -/
structure Told (taskId : TaskId) (n : Narration) : Prop where
  order : InOrder taskId n.world
  early : n.unannounced = true ∨ n.pending = true → ¬ n.world.EndAnnounced taskId

theorem EnvStep.orderly {unannounced pending : Bool}
    (h : EnvStep (others cfg taskId unannounced pending) w w') :
    EnvStep (A2AKit.orderly cfg taskId) w w' := by
  cases h with
  | write _ hrow hguard => exact .write trivial hrow hguard
  | delete h => exact absurd h not_false
  | cancel _ => exact .cancel trivial
  | ambient => exact .ambient
  | @bus w' a hallowed hbus =>
    refine .bus ?_ hbus
    cases a with
    | publish t e => exact fun ht => (hallowed ht).marks
    | _ => trivial
  | load _ hrow hlive hnone => exact .load trivial hrow hlive hnone

theorem not_endAnnounced_publish {event : StreamEvent Ref} {t : TaskId} {w₁ : World}
    (hw : ¬ w.EndAnnounced taskId) (hevent : t = taskId → event.endMarker = false)
    (hbus : w.busStep cfg (.publish t event) = some w₁) (hhistory : w'.history = w₁.history) :
    ¬ w'.EndAnnounced taskId := by
  rintro ⟨e, he, hend⟩
  rw [taskEvents_publish hbus hhistory, List.mem_append] at he
  rcases he with he | he
  · exact hw ⟨e, he, hend⟩
  · split at he
    · rename_i ht
      obtain rfl := List.mem_singleton.mp he
      exact absurd (hend.symm.trans (hevent ht)) (by simp)
    · exact absurd he List.not_mem_nil

theorem not_endAnnounced_congr (hw : ¬ w.EndAnnounced taskId)
    (hevents : w'.taskEvents taskId = w.taskEvents taskId) : ¬ w'.EndAnnounced taskId := by
  rwa [World.EndAnnounced, hevents]

/-- The end of a task that is alive was not announced. -/
theorem InOrder.not_endAnnounced (hw : InOrder taskId w)
    (halive : (w.row.any fun row => !row.task.status.state.isTerminal) = true) :
    ¬ w.EndAnnounced taskId := by
  rintro ⟨e, he, hend⟩
  obtain ⟨st, hst, hterm⟩ := (Option.any_eq_true _ _).mp hend
  obtain ⟨row, hrow, rfl⟩ := hw.stored e he st hst hterm
  obtain ⟨row', hrow', hlive⟩ := (Option.any_eq_true _ _).mp halive
  obtain rfl := Option.some_inj.mp (hrow.symm.trans hrow')
  simp [hterm] at hlive

theorem stable_told : (narrated cfg taskId).Stable (Told taskId) := by
  rintro n ⟨w', flag', pending'⟩ ⟨hflag, hpending, hstep⟩ hn
  dsimp only at hflag hpending hstep
  have hstate : ∀ st, st.isTerminal = true → n.world.InState st → w'.InState st :=
    fun st hterm => stable_inState hterm n.world w' hstep.orderly
  -- a status that another party has just written has found the task alive
  have hkeep : w'.taskEvents taskId = n.world.taskEvents taskId →
      Told taskId ⟨w', flag', pending'⟩ := by
    intro hevents
    have horder := hn.order.keep hevents hstate
    refine ⟨horder, fun hun => ?_⟩
    have hcases : (n.unannounced = true ∨ n.pending = true) ∨
        n.world.writtenAlive w' = true := by
      rcases hun with hun | hun
      · exact Or.inl (Or.inl (hflag ▸ hun))
      · exact (hpending hun).imp Or.inr id
    rcases hcases with hun | halive
    · exact not_endAnnounced_congr (hn.early hun) hevents
    · exact horder.not_endAnnounced ((Bool.and_eq_true _ _).mp halive).2
  cases hstep with
  | @bus w₁ a hallowed hbus =>
    by_cases ha : ∃ t e, a = .publish t e
    · obtain ⟨t, e, rfl⟩ := ha
      have hrow : w'.row = n.world.row := by
        obtain ⟨out, -, hw'⟩ := World.busStep_some hbus
        rw [hw']
      have hearly : flag' = true ∨ pending' = true →
          n.unannounced = true ∨ n.pending = true := by
        refine Or.imp (hflag ▸ id) fun hun => (hpending hun).resolve_right fun halive => ?_
        simp [World.writtenAlive, hrow] at halive
      refine ⟨hn.order.publish (fun ht => ⟨fun hgoes => ?_, (hallowed ht).marks⟩) hbus hrow rfl,
        fun hun => not_endAnnounced_publish (hn.early (hearly hun)) (fun ht => ?_) hbus rfl⟩
      · exact ((hallowed ht).goesOn hgoes).elim (fun hun => hn.early (Or.inr hun)) id
      · -- the marker of an end waits for the statuses that are to be announced
        refine Bool.eq_false_iff.mpr fun hend => ?_
        obtain ⟨hun', hpending'⟩ := (hallowed ht).waits hend
        rcases hearly hun with h | h
        · exact absurd (h.symm.trans hun') (by decide)
        · exact absurd (h.symm.trans hpending') (by decide)
    · exact hkeep (taskEvents_busStep hbus fun t e h => ha ⟨t, e, h⟩)
  | delete h => exact absurd h not_false
  | _ => exact hkeep rfl

/-- Without a publish, a status is left to announce by a write that has found the task alive. -/
theorem Narration.next_true {n : Narration} {β : Type} {e : Op β} {b : β}
    (he : e.isPublish = false) (h : n.next e w' b = true) :
    n.unannounced = true ∨
      (w'.row.any fun row => !row.task.status.state.isTerminal) = true := by
  have htells : ∀ args : UpdateArgs Ref,
      (n.unannounced || (args.setsStatus && n.world.writtenAlive w')) = true →
      n.unannounced = true ∨ (w'.row.any fun row => !row.task.status.state.isTerminal) = true := by
    intro args h
    refine (Bool.or_eq_true_iff.mp h).imp id fun h => ?_
    exact ((Bool.and_eq_true _ _).mp ((Bool.and_eq_true _ _).mp h).2).2
  cases e with
  | publish event => exact absurd he (by simp [Op.isPublish])
  | update site args => exact htells args h
  | updateWrite sb site args attempt row values => exact htells args h
  | await pt => exact Or.inl ((Bool.and_eq_true _ _).mp h).1
  | _ => exact Or.inl h

/-- Every operation keeps the order, where its requirement is met. -/
theorem Told.perform {n : Narration} {β : Type} {e : Op β} {b : β} (hn : Told taskId n)
    (hok : Patient taskId e n) (hreq : Announces taskId e n.world)
    (hperf : World.perform cfg taskId e n.world = some (w', b)) :
    Told taskId ⟨w', n.next e w' b, n.pending⟩ := by
  have hquiet : e.isPublish = false → Told taskId ⟨w', n.next e w' b, n.pending⟩ := by
    intro he
    obtain ⟨hevents, hstate⟩ := hreq.quiet he hperf
    have horder := hn.order.keep hevents hstate
    refine ⟨horder, fun hun => ?_⟩
    have hcases : (n.unannounced = true ∨ n.pending = true) ∨
        (w'.row.any fun row => !row.task.status.state.isTerminal) = true := by
      rcases hun with hun | hun
      · exact (Narration.next_true he hun).imp Or.inl id
      · exact Or.inl (Or.inr hun)
    rcases hcases with hun | halive
    · exact not_endAnnounced_congr (hn.early hun) hevents
    · exact horder.not_endAnnounced halive
  cases e with
  -- the one operation that adds an event
  | publish event =>
    simp only [World.perform, Option.map_eq_some_iff] at hperf
    obtain ⟨w₁, hbus, h⟩ := hperf
    obtain ⟨rfl, -⟩ := Prod.mk.inj h
    obtain ⟨hwaits, hbare⟩ := hok
    have hearly : event.goesOn = true → ¬ n.world.EndAnnounced taskId := by
      intro hgoes
      cases hun : n.unannounced with
      | true => exact hn.early (Or.inl hun)
      | false => exact hbare hgoes hun
    refine ⟨hn.order.publish (fun _ => ⟨hearly, hreq⟩) hbus ?_ rfl, ?_⟩
    · obtain ⟨out, -, rfl⟩ := World.busStep_some hbus
      rfl
    · rintro (hun | hun)
      · -- an event without a status leaves something to announce
        obtain ⟨hun', hnone⟩ := (Bool.and_eq_true _ _).mp hun
        refine not_endAnnounced_publish (hn.early (Or.inl hun')) (fun _ => ?_) hbus rfl
        cases event with
        | terminalMarker t c status => cases hnone
        | _ => rfl
      · refine not_endAnnounced_publish (hn.early (Or.inr hun)) (fun _ => ?_) hbus rfl
        exact Bool.eq_false_iff.mpr fun hend => absurd (hun.symm.trans (hwaits hend)) (by decide)
  | _ => exact hquiet rfl

/-- Whatever a program that keeps the discipline has done so far, the events are in order. -/
theorem InOrder.of_reaches {σ α : Type} {m : TaskM σ α} {s : σ} {p : Prog Op (Except Exc α × σ)}
    {n : Narration}
    (hm : Keeps (A2AKit.orderly cfg taskId) (Announces taskId) (fun w => w.row.isSome = true) m)
    (hrow : w.row.isSome = true) (hw : InOrder taskId w)
    (hrun : (narrated cfg taskId).Reaches (m s, { world := w }) (p, n)) :
    InOrder taskId n.world := by
  -- the run in the world alone, where every operation meets its requirement
  have hboth : ((A2AKit.orderly cfg taskId).systemWith (Announces taskId)).Reaches (m s, w)
      (p, n.world) ∧ Told taskId n := by
    generalize hc : ((p, n) : Prog Op (Except Exc α × σ) × Narration) = c at hrun
    induction hrun generalizing p n with
    | refl =>
      obtain ⟨rfl, rfl⟩ := Prod.mk.inj hc
      exact ⟨.refl, hw, fun h => by simp at h⟩
    | @tail c₁ c₂ hrun hstep ih =>
      obtain ⟨p₁, n₁⟩ := c₁
      obtain ⟨hworld, htold⟩ := ih rfl
      subst hc
      cases hstep with
      | env henv => exact ⟨hworld.tail (.env henv.2.2.orderly), stable_told _ _ henv htold⟩
      | @op β e cont _ _ b hok hperf =>
        obtain ⟨⟨w₂, b₂⟩, hperf', hpair⟩ := Option.map_eq_some_iff.mp hperf
        obtain ⟨rfl, rfl⟩ := Prod.mk.inj hpair
        have hreq : Announces taskId e n₁.world := Prog.wp_req (hm s w hrow) hworld trivial
        exact ⟨hworld.tail (.op trivial hperf'), htold.perform hok hreq hperf'⟩
  exact hboth.2.order

end

/-- **The marker of a terminal state is the last word.**  In every state that a turn, a force
cancel, the adapter's failure ladder or a follow-up message can reach, no status event with
another state was published after the marker of a terminal state, and that state is the
stored one, provided that nobody announces an end between another party's write of a status and its
event, and that no status without a write is published once an end is announced. -/
theorem events_in_order (k : StorageKind) (cfg : BusConfig) (taskId : TaskId)
    (contextId : Option ContextId) (w : World) (n : Narration) (hrow : w.row.isSome = true)
    (hw : InOrder taskId w) :
    (∀ (h : Handler) (ctx : TaskContext) (p : Prog Op (Except Exc Unit × TaskContext)),
      (narrated cfg taskId).Reaches
        (WorkerAdapter.runTaskInner k taskId contextId (TaskContext.run k taskId contextId h) ctx,
          { world := w }) (p, n) → InOrder taskId n.world) ∧
    (∀ p : Prog Op (Except Exc Unit × Unit),
      (narrated cfg taskId).Reaches (forceCancelAfter k taskId (), { world := w }) (p, n) →
      InOrder taskId n.world) ∧
    (∀ (attempt maxRetries : Nat) (p : Prog Op (Except Exc Unit × Unit)),
      (narrated cfg taskId).Reaches
        (handleOpInner k taskId contextId attempt maxRetries (), { world := w }) (p, n) →
      InOrder taskId n.world) ∧
    ∀ (message : Message) (p : Prog Op (Except Exc (Task × Bool) × Unit)),
      (narrated cfg taskId).Reaches (TaskManager.submitTask k message (), { world := w })
        (p, n) →
      InOrder taskId n.world := by
  have hd := (streamRule_announces cfg taskId).discipline k
  have hblind : ∀ w : World, w.row.isSome = true → Known none w := fun w _ => known_none w
  refine ⟨fun h ctx p hrun => ?_, fun p hrun => ?_, fun attempt maxRetries p hrun => ?_,
    fun message p hrun => ?_⟩
  · have hkeeps : Keeps _ _ _ (WorkerAdapter.runTaskInner k taskId contextId
        (TaskContext.run k taskId contextId h)) :=
      hd.runTaskInner hblind (fun _ _ => trivial) (fun _ _ => ⟨fun hw => hw, fun _ hv => hv⟩) h
    exact InOrder.of_reaches hkeeps hrow hw hrun
  · exact InOrder.of_reaches (hd.forceCancelAfter hblind taskId).keeps hrow hw hrun
  · exact InOrder.of_reaches (hd.handleOpInner hblind taskId contextId attempt maxRetries).keeps
      hrow hw hrun
  · exact InOrder.of_reaches (hd.submitTask message).keeps hrow hw hrun

/-! ### A late status -/

/-- Another party may announce the terminal state that is stored. -/
theorem allows_announceEnd {T : Setting} {taskId : TaskId}
    (hT : ∀ w e, MarksStored w e → T.bus w (.publish taskId e)) :
    T.Allows (.announceEnd taskId) := by
  intro w w' h
  obtain ⟨row, hfilter, hbus⟩ := Option.bind_eq_some_iff.mp h
  obtain ⟨hrow, hterm⟩ := Option.filter_eq_some_iff.mp hfilter
  refine EnvStep.bus (hT w _ ?_) hbus
  intro st hst _
  exact ⟨row, hrow, Option.some_inj.mp hst⟩

/-- A status event with another state after the marker of a terminal state. -/
theorem not_inOrder {taskId : TaskId} {w : World} {st st' : TaskState} {m e : StreamEvent Ref}
    {before : List (StreamEvent Ref)} (hevents : w.taskEvents taskId = before ++ [m, e])
    (hm : m.markerState = some st) (hterm : st.isTerminal = true) (he : e.statusState = some st')
    (hne : st' ≠ st) : ¬ InOrder taskId w := by
  intro hw
  have hordered := hw.ordered
  rw [hevents, List.pairwise_append] at hordered
  exact hne ((List.rel_of_pairwise_cons hordered.2.1 List.mem_cons_self) st hm hterm st' he)

/-- A handler that reports progress without a text. -/
def reporting : Handler := .call .wait fun _ => .call (.sendStatus none) .done

/-- A force cancel commits `canceled` and publishes its marker while the handler waits. -/
def canceledWhileWaiting : List Move :=
  -- the transition to working, its event, and the scope
  List.replicate 7 Move.step ++ List.replicate 3 Move.step ++ [Move.bus .grant, .step] ++
  [Move.step] ++ [Move.finish .canceled, .announceEnd "t", .bus .grant] ++
  -- the handler reports, and cannot end its turn any more
  List.replicate 4 Move.step ++ [Move.bus .grant] ++ List.replicate 12 Move.step

/-- `send_status` without a text does not look at the storage: the bus carries `working`
after the marker of `canceled`. -/
theorem working_after_canceled :
    ∃ ctx' w', (orderly ⟨1, 1, 60⟩ "t").system.Reaches
      (WorkerAdapter.runTaskInner .memory "t" (some "c")
        (TaskContext.run .memory "t" (some "c") reporting) {}, World.holding workingTask 1)
      (.ret (.ok (), ctx'), w') ∧
      (w'.row.map fun row => row.task.status.state) = some .canceled ∧
      (w'.taskEvents "t").map StreamEvent.statusState =
        [some .working, some .canceled, some .working] ∧ ¬ InOrder "t" w' := by
  have hmoves : ∀ m ∈ canceledWhileWaiting,
      (orderly ⟨1, 1, 60⟩ "t").Allows m := by
    simp [canceledWhileWaiting, allows_step, allows_bus, allows_finish, allows_announceEnd, orderly]
  obtain ⟨ctx', w', hrun, hcheck⟩ := reaches_of_execute anyOp (fun _ _ _ _ => trivial) hmoves
    (p := WorkerAdapter.runTaskInner .memory "t" (some "c")
      (TaskContext.run .memory "t" (some "c") reporting) {}) (w := World.holding workingTask 1)
    (fun _ w => decide ((w.row.map fun row => row.task.status.state) = some .canceled ∧
      w.taskEvents "t" = [.statusUpdate "t" "c" ⟨.working, "", none⟩,
        .terminalMarker "t" "c" ⟨.canceled, "", none⟩, .statusUpdate "t" "c" ⟨.working, "", none⟩]))
    (by decide +kernel)
  obtain ⟨hrow, hevents⟩ := of_decide_eq_true hcheck
  refine ⟨ctx', w', hrun, hrow, by rw [hevents]; rfl, ?_⟩
  exact not_inOrder (hevents.trans (List.append_cons [_] _ _).symm) rfl rfl rfl (by decide)

/-- A status is published before the end is announced. -/
def Early (taskId : TaskId) {β : Type} (e : Op β) (w : World) : Prop :=
  match e with
  | .publish event => event.goesOn = true → ¬ w.EndAnnounced taskId
  | _ => True

instance (taskId : TaskId) (β : Type) (e : Op β) (w : World) : Decidable (Early taskId e w) := by
  cases e <;> unfold Early <;> infer_instance

/-- Other parties that announce no end, among which every status is published early. -/
def unhurried (cfg : BusConfig) (taskId : TaskId) : Setting where
  cfg := cfg
  taskId := taskId
  writes := fun _ => True
  cancels := True
  bus := fun w a =>
    match a with
    | .publish t e => t = taskId → MayPublish taskId true false w e
    | _ => True
  loads := fun _ _ => True
  ok := Early taskId

theorem EnvStep.unhurried {cfg : BusConfig} {taskId : TaskId} {w w' : World} {flag : Bool}
    (h : EnvStep (A2AKit.unhurried cfg taskId) w w') :
    EnvStep (others cfg taskId flag false) w w' := by
  cases h with
  | write _ hrow hguard => exact .write trivial hrow hguard
  | delete h => exact absurd h not_false
  | cancel _ => exact .cancel trivial
  | ambient => exact .ambient
  | @bus w' a hallowed hbus =>
    refine .bus ?_ hbus
    cases a with
    | publish t e =>
      exact fun ht => ⟨(hallowed ht).goesOn, (hallowed ht).marks,
        fun hend => absurd ((hallowed ht).waits hend).1 (by decide)⟩
    | _ => trivial
  | load _ hrow hlive hnone => exact .load trivial hrow hlive hnone

/-- A run in which nobody else has a status to announce. -/
theorem narrated_of_reaches {cfg : BusConfig} {taskId : TaskId} {α : Type} {p p' : Prog Op α}
    {w w' : World}
    (h : (unhurried cfg taskId).system.Reaches (p, w) (p', w')) :
    ∃ flag, (narrated cfg taskId).Reaches (p, { world := w }) (p', ⟨w', flag, false⟩) := by
  generalize hc : (p', w') = c at h
  induction h generalizing p' w' with
  | refl =>
    obtain ⟨rfl, rfl⟩ := Prod.mk.inj hc
    exact ⟨false, .refl⟩
  | @tail c₁ c₂ hrun hstep ih =>
    obtain ⟨p₁, w₁⟩ := c₁
    obtain ⟨flag, hnarrated⟩ := ih rfl
    subst hc
    cases hstep with
    | env henv =>
      have hquiet : EnvStep (others cfg taskId flag false) w₁ w' := henv.unhurried
      exact ⟨flag, hnarrated.tail
        (.env ⟨rfl, fun h => (Bool.false_ne_true h).elim, hquiet⟩)⟩
    | @op β e cont _ _ b hok hperf =>
      have hpatient : Patient taskId e ⟨w₁, flag, false⟩ := by
        cases e with
        | publish event => exact ⟨fun _ => rfl, fun hgoes _ => hok hgoes⟩
        | _ => trivial
      have hperf' : World.perform cfg taskId e w₁ = some (w', b) := hperf
      refine ⟨Narration.next ⟨w₁, flag, false⟩ e w' b, hnarrated.tail (.op hpatient ?_)⟩
      simp [narrated, hperf']

/-- A turn that completes the task. -/
theorem completed_in_order :
    ∃ ctx' n, (narrated ⟨1, 1, 60⟩ "t").Reaches
      (WorkerAdapter.runTaskInner .memory "t" (some "c")
        (TaskContext.run .memory "t" (some "c") completing) {},
        { world := World.holding workingTask 1 }) (.ret (.ok (), ctx'), n) ∧
      (n.world.taskEvents "t").map StreamEvent.statusState = [some .working, some .completed] ∧
      InOrder "t" n.world := by
  have hmoves : ∀ m ∈ turnToCommit ++ List.replicate 7 Move.step ++ [Move.bus .grant] ++
      List.replicate 6 Move.step, (unhurried ⟨1, 1, 60⟩ "t").Allows m := by
    simp [turnToCommit, allows_step, allows_bus, unhurried]
  obtain ⟨ctx', w', hrun, hcheck⟩ := reaches_of_execute
    (fun e w => decide (Early "t" e w))
    (fun _ e w h => of_decide_eq_true (p := Early "t" e w) h) hmoves
    (p := WorkerAdapter.runTaskInner .memory "t" (some "c")
      (TaskContext.run .memory "t" (some "c") completing) {}) (w := World.holding workingTask 1)
    (fun _ w => decide ((w.taskEvents "t").map StreamEvent.statusState =
      [some .working, some .completed])) (by decide +kernel)
  obtain ⟨flag, hnarrated⟩ := narrated_of_reaches hrun
  refine ⟨ctx', _, hnarrated, of_decide_eq_true hcheck, ?_⟩
  refine (events_in_order .memory ⟨1, 1, 60⟩ "t" (some "c") _ _ rfl ⟨?_, ?_⟩).1 completing {} _
    hnarrated
  · exact List.Pairwise.nil
  · exact fun e he => absurd he List.not_mem_nil

end A2AKit
