/-
The life of a stored task.

Whatever calls interleave on a backend, a stored task is born submitted, its
`stateTransitions` log only grows at the end and records every state it was in,
a terminal state ends the log for good, and its version counts the successful
updates (`LifecycleContract`).

The contract is proved once for `VersionedStore` runs with the steps `Advances`
and carried to the backends by simulation: `InMemoryStorage` and `SQLStorageBase`
satisfy it in every run.  `RedisStorage` guards its write with the caller's
expected version but merges from what it read, so there it needs that no call
reads a version older than the one it expects (`ReadsExpected`): otherwise the
write can commit a merge that never saw the row it replaces.
-/
import A2AKit.StorageInvariant
import A2AKit.VersionedStore

namespace A2AKit

/-! ### Transition logs -/

/-- A task as `create_task` leaves it. -/
def Born (t : Task) : Prop :=
  t.status.state = .submitted ∧ ∃ r, r.state = .submitted ∧ t.metadata.transitions = [r]

/-- One update: the state and its log stay, or a non-terminal state is left and
the new one recorded. -/
def Advances (t t' : Task) : Prop :=
  (t'.status.state = t.status.state ∧ t'.metadata.transitions = t.metadata.transitions) ∨
    (t.status.state.isTerminal = false ∧ ∃ r, r.state = t'.status.state ∧
      t'.metadata.transitions = t.metadata.transitions ++ [r])

/-- The log starts submitted, ends in the current state, and has a terminal record
at most at its end. -/
structure WellFormed (t : Task) : Prop where
  first : (t.metadata.transitions.head?.map (·.state)) = some .submitted
  last : (t.metadata.transitions.getLast?.map (·.state)) = some t.status.state
  terminalLast : ∀ r ∈ t.metadata.transitions.dropLast, r.state.isTerminal = false

theorem Born.wellFormed {t : Task} (h : Born t) : WellFormed t := by
  obtain ⟨hstate, r, hr, hlog⟩ := h
  constructor <;> simp [hlog, hr, hstate]

theorem WellFormed.advances {t t' : Task} (h : WellFormed t) (hadv : Advances t t') :
    WellFormed t' := by
  rcases hadv with ⟨hstate, hlog⟩ | ⟨hlive, r, hr, hlog⟩
  · constructor
    · rw [hlog]
      exact h.first
    · rw [hlog, hstate]
      exact h.last
    · rw [hlog]
      exact h.terminalLast
  · obtain ⟨q, hq, hqstate⟩ := Option.map_eq_some_iff.mp h.last
    obtain ⟨rs, hrs⟩ := List.getLast?_eq_some_iff.mp hq
    have hdrop : rs = t.metadata.transitions.dropLast := by rw [hrs, List.dropLast_concat]
    constructor
    · rw [hlog, List.head?_append_of_ne_nil _ (by simp [hrs])]
      exact h.first
    · rw [hlog, List.getLast?_concat, Option.map_some, hr]
    · rw [hlog, List.dropLast_concat, hrs]
      intro p hp
      -- the record that was last so far carries the state that is being left
      rcases List.mem_append.mp hp with hp | hp
      · exact h.terminalLast p (hdrop ▸ hp)
      · rw [List.mem_singleton.mp hp, hqstate]
        exact hlive

theorem wellFormed_of_advances {t t' : Task} (h : Born t)
    (hgen : Relation.ReflTransGen Advances t t') : WellFormed t' := by
  induction hgen with
  | refl => exact h.wellFormed
  | tail _ hadv ih => exact ih.advances hadv

/-- Several updates: the log grows at its end, and a terminal state stays. -/
theorem advances_trans {t t' : Task} (h : Relation.ReflTransGen Advances t t') :
    t.metadata.transitions <+: t'.metadata.transitions ∧
      (t.status.state.isTerminal = true →
        t'.status.state = t.status.state ∧ t'.metadata.transitions = t.metadata.transitions) := by
  induction h with
  | refl => exact ⟨List.prefix_rfl, fun _ => ⟨rfl, rfl⟩⟩
  | tail _ hadv ih =>
    obtain ⟨hlogs, hfrozen⟩ := ih
    rcases hadv with ⟨hstate, hlog⟩ | ⟨hlive, r, -, hlog⟩
    · refine ⟨by rw [hlog]; exact hlogs, fun hterm => ?_⟩
      rw [hstate, hlog]
      exact hfrozen hterm
    · refine ⟨by rw [hlog]; exact hlogs.trans (List.prefix_append _ _), fun hterm => ?_⟩
      rw [(hfrozen hterm).1, hterm] at hlive
      exact absurd hlive (by simp)

/-! ### The contract -/

section Contract

variable {σ α ω : Type}

/-- The number of successful updates of a task along a trace. -/
def updatesOf (updated : ω → Option TaskId) (taskId : TaskId) (tr : List (α × ω)) : Nat :=
  tr.countP fun p => updated p.2 = some taskId

/-- What the runs of a storage from `init` keep.  `stored` is the task and version
under an id, `updated` the task that a successful `update_task` wrote, `raised`
tells the outcomes that are an exception. -/
structure LifecycleContract (step : σ → α → Option (σ × ω)) (ok : σ → α → Prop) (init : σ)
    (stored : σ → TaskId → Option (Task × Nat)) (updated : ω → Option TaskId)
    (raised : ω → Bool) : Prop where
  wellFormed : ∀ {tr s taskId t v}, Run step ok init tr s → stored s taskId = some (t, v) →
    WellFormed t
  version : ∀ {tr s taskId t v}, Run step ok init tr s → stored s taskId = some (t, v) →
    v = 1 + updatesOf updated taskId tr
  extended : ∀ {tr s tr' s' taskId t v t' v'}, Run step ok init tr s → Run step ok s tr' s' →
    stored s taskId = some (t, v) → stored s' taskId = some (t', v') →
    t.metadata.transitions <+: t'.metadata.transitions ∧ v' = v + updatesOf updated taskId tr'
  frozen : ∀ {tr s tr' s' taskId t v t' v'}, Run step ok init tr s → Run step ok s tr' s' →
    stored s taskId = some (t, v) → stored s' taskId = some (t', v') →
    t.status.state.isTerminal = true → t'.status.state = t.status.state
  unchanged : ∀ {tr s a s' o}, Run step ok init tr s → ok s a → step s a = some (s', o) →
    raised o = true → stored s' = stored s

/-- The versioned store behind a storage state. -/
def toStore (used : σ → List TaskId) (stored : σ → TaskId → Option (Task × Nat)) (s : σ) :
    VersionedStore TaskId Task where
  used := { id | id ∈ used s }
  entry id := (stored s id).map fun p => (p.2, p.1)

/-- What a step of the storage shows of itself as a store. -/
def toObs (updated : ω → Option TaskId) (o : ω) : VersionedStore.Obs TaskId :=
  match updated o with
  | some id => .committed id
  | none => .silent

variable {step : σ → α → Option (σ × ω)} {ok : σ → α → Prop} {init : σ}
  {stored : σ → TaskId → Option (Task × Nat)} {used : σ → List TaskId}
  {updated : ω → Option TaskId} {raised : ω → Bool} {I : σ → Prop}

theorem commits_toObs (taskId : TaskId) (tr : List (α × ω)) :
    VersionedStore.commits taskId (tr.map fun p => toObs updated p.2) =
      updatesOf updated taskId tr := by
  induction tr with
  | nil => rfl
  | cons p tr ih =>
    rw [List.map_cons, updatesOf, List.countP_cons]
    rw [updatesOf] at ih
    rcases hp : updated p.2 with _ | id
    · rw [show toObs updated p.2 = .silent by rw [toObs, hp], VersionedStore.commits, ih]
      simp
    · rw [show toObs updated p.2 = .committed id by rw [toObs, hp], VersionedStore.commits, ih]
      simp

/-- Steps that are store steps make runs that are store runs. -/
theorem run_toStore
    (hI : ∀ s a s' o, I s → ok s a → step s a = some (s', o) → I s')
    (hstep : ∀ s a s' o, I s → ok s a → step s a = some (s', o) →
      VersionedStore.Step Born Advances (toStore used stored s) (toObs updated o)
        (toStore used stored s'))
    {s s' : σ} {tr : List (α × ω)} (h : Run step ok s tr s') (hs : I s) :
    VersionedStore.Run Born Advances (toStore used stored s) (tr.map fun p => toObs updated p.2)
      (toStore used stored s') :=
  h.rel (R := fun s tr s' => VersionedStore.Run Born Advances (toStore used stored s)
      (tr.map fun p => toObs updated p.2) (toStore used stored s')) hI
    (fun _ _ => VersionedStore.Run.nil _)
    (fun _ _ _ _ _ _ hs _ hok hst hrest => VersionedStore.Run.cons (hstep _ _ _ _ hs hok hst) hrest)
    hs

variable (used) in
/-- A storage whose steps are store steps keeps the contract. -/
theorem lifecycleContract_of_store (hinit : I init) (hempty : ∀ id, stored init id = none)
    (hunused : used init = [])
    (hI : ∀ s a s' o, I s → ok s a → step s a = some (s', o) → I s')
    (hstep : ∀ s a s' o, I s → ok s a → step s a = some (s', o) →
      VersionedStore.Step Born Advances (toStore used stored s) (toObs updated o)
        (toStore used stored s'))
    (hraised : ∀ s a s' o, I s → ok s a → step s a = some (s', o) → raised o = true →
      stored s' = stored s) :
    LifecycleContract step ok init stored updated raised := by
  have hentry : ∀ {s id t v}, stored s id = some (t, v) →
      (toStore used stored s).entry id = some (v, t) := by
    intro s id t v h
    simp [toStore, h]
  have hinit' : (toStore used stored init).Allocated := by
    intro id hid
    simp [toStore, hempty] at hid
  -- from the start of the run: the first version is 1, and every update adds one
  have hbirth : ∀ {tr s taskId t v}, Run step ok init tr s → stored s taskId = some (t, v) →
      ∃ t₀, Born t₀ ∧ Relation.ReflTransGen Advances t₀ t ∧ v = 1 + updatesOf updated taskId tr := by
    intro tr s taskId t v hrun hs
    have hrun' := run_toStore hI hstep hrun hinit
    obtain ⟨t₀, hborn, hgen, hv⟩ := hrun'.birth hinit' (by simp [toStore, hunused]) (hentry hs)
    exact ⟨t₀, hborn, hgen, by rw [hv, commits_toObs]⟩
  -- between two states of the run: updates lead from the one to the other
  have hpersist : ∀ {tr s tr' s' taskId t v t' v'}, Run step ok init tr s → Run step ok s tr' s' →
      stored s taskId = some (t, v) → stored s' taskId = some (t', v') →
      Relation.ReflTransGen Advances t t' ∧ v' = v + updatesOf updated taskId tr' := by
    intro tr s tr' s' taskId t v t' v' hrun hrun' hs hs'
    have hIs : I s := hrun.inv hI hinit
    have halloc := (run_toStore hI hstep hrun hinit).allocated hinit'
    obtain ⟨hgen, hv⟩ := (run_toStore hI hstep hrun' hIs).persist halloc (hentry hs) (hentry hs')
    exact ⟨hgen, by rw [hv, commits_toObs]⟩
  constructor
  · intro tr s taskId t v hrun hs
    obtain ⟨t₀, hborn, hgen, -⟩ := hbirth hrun hs
    exact wellFormed_of_advances hborn hgen
  · intro tr s taskId t v hrun hs
    obtain ⟨-, -, -, hv⟩ := hbirth hrun hs
    exact hv
  · intro tr s tr' s' taskId t v t' v' hrun hrun' hs hs'
    obtain ⟨hgen, hv⟩ := hpersist hrun hrun' hs hs'
    exact ⟨(advances_trans hgen).1, hv⟩
  · intro tr s tr' s' taskId t v t' v' hrun hrun' hs hs' hterm
    obtain ⟨hgen, -⟩ := hpersist hrun hrun' hs hs'
    exact ((advances_trans hgen).2 hterm).1
  · intro tr s a s' o hrun hok hst ho
    exact hraised s a s' o (hrun.inv hI hinit) hok hst ho

end Contract

/-! ### Updates advance the log -/

theorem terminalGuard_eq_none {taskId : TaskId} {current state : TaskState} :
    terminalGuard taskId current (some state) = none ↔ current.isTerminal = false := by
  simp [terminalGuard]

theorem initialTask_born (taskId : TaskId) (contextId : ContextId) (message : Message)
    (key : Option String) (now : Timestamp) : Born (initialTask taskId contextId message key now) :=
  ⟨rfl, _, rfl, rfl⟩

theorem advances_mergeValues {h : Heap} {t : Task} {args : UpdateArgs Ref} {now : Timestamp}
    {taskId : TaskId} (hguard : terminalGuard taskId t.status.state args.state = none) :
    Advances t ((mergeValues h t args now).2.applyTo t) := by
  have hmd : (((if args.taskMetadata.isEmpty then none
      else some (t.metadata.update args.taskMetadata)).getD t.metadata).transitions =
      t.metadata.transitions) := by
    split <;> rfl
  rcases hstate : args.state with _ | state
  · left
    rcases hmsg : args.statusMessage with _ | message
    · simp [mergeValues, hstate, hmsg, Values.applyTo, hmd]
    · simp [mergeValues, hstate, hmsg, Values.applyTo, hmd]
  · right
    rw [hstate, terminalGuard_eq_none] at hguard
    refine ⟨hguard, buildTransitionRecord state now args.statusMessage, ?_, ?_⟩
    · simp [mergeValues, hstate, Values.applyTo, buildTransitionRecord]
    · simp [mergeValues, hstate, Values.applyTo, hmd]

theorem InMemoryStorage.advances_updatedTask {h : Heap} {t : Task} {args : UpdateArgs Ref}
    {now : Timestamp} {taskId : TaskId}
    (hguard : terminalGuard taskId t.status.state args.state = none) :
    Advances t (InMemoryStorage.updatedTask h t args now) := by
  have hmd : ((if args.taskMetadata.isEmpty then t.metadata
      else t.metadata.update args.taskMetadata).transitions = t.metadata.transitions) := by
    split <;> rfl
  rcases hstate : args.state with _ | state
  · left
    rcases hmsg : args.statusMessage with _ | message
    · simp [InMemoryStorage.updatedTask, hstate, hmsg, hmd]
    · simp [InMemoryStorage.updatedTask, hstate, hmsg, hmd]
  · right
    rw [hstate, terminalGuard_eq_none] at hguard
    refine ⟨hguard, buildTransitionRecord state now args.statusMessage, ?_, ?_⟩
    · simp [InMemoryStorage.updatedTask, hstate, buildTransitionRecord]
    · simp [InMemoryStorage.updatedTask, hstate, hmd]

/-! ### SQL and Redis -/

/-- The task a successful `update_task` wrote. -/
def StorageOutcome.updated : StorageOutcome → Option TaskId
  | .committed taskId _ _ _ => some taskId
  | _ => none

def StorageOutcome.isRaised : StorageOutcome → Bool
  | .raised _ _ => true
  | _ => false

theorem stored_insert (s : StorageState) (taskId : TaskId) (row : Row) (s' : StorageState)
    (hrows : s'.rows = s.rows.insert taskId row) :
    (toStore StorageState.used StorageState.stored s').entry =
      Function.update (toStore StorageState.used StorageState.stored s).entry taskId
        (some (row.version, row.task)) := by
  funext id
  by_cases hid : id = taskId
  · subst hid
    simp [toStore, StorageState.stored, hrows]
  · simp [toStore, StorageState.stored, hrows, hid, AList.lookup_insert_ne hid]

theorem store_remove {s s' : StorageState} (hused : s.used ⊆ s'.used)
    (hrows : ∀ id, s'.rows.lookup id = s.rows.lookup id ∨ s'.rows.lookup id = none) :
    VersionedStore.Step Born Advances (toStore StorageState.used StorageState.stored s) .silent
      (toStore StorageState.used StorageState.stored s') := by
  refine VersionedStore.Step.of_remove (fun id hid => hused hid) fun id => ?_
  rcases hrows id with h | h
  · exact Or.inl (by simp [toStore, StorageState.stored, h])
  · exact Or.inr (by simp [toStore, StorageState.stored, h])

theorem Backend.step_store {b : Backend} {cond : UpdateArgs Ref → Row → Prop}
    {Checked : TaskId → UpdateArgs Ref → Row → Prop} (hb : b.Sound cond Checked)
    {s s' : StorageState} {a : StorageAction} {o : StorageOutcome} (hs : StorageInv Checked s)
    (h : b.step s a = some (s', o)) :
    VersionedStore.Step Born Advances (toStore StorageState.used StorageState.stored s)
      (toObs StorageOutcome.updated o) (toStore StorageState.used StorageState.stored s') := by
  -- a step that touches no row is a removal of nothing
  have hsame : ∀ t : StorageState, t.used = s.used → t.rows = s.rows →
      VersionedStore.Step Born Advances (toStore StorageState.used StorageState.stored s) .silent
        (toStore StorageState.used StorageState.stored t) := by
    intro t hused hrows
    exact store_remove (by rw [hused]; exact List.Subset.refl _) fun id => Or.inl (by rw [hrows])
  cases a with
  | create taskId contextId message key now =>
    obtain ⟨hfresh, hused, -, -, -, ⟨hrows, id, rfl⟩ | ⟨rfl, hrows⟩⟩ := step_create h
    · exact store_remove (by rw [hused]; exact List.subset_cons_self _ _)
        fun id => Or.inl (by rw [hrows])
    · refine VersionedStore.Step.of_create (k := taskId) hfresh (initialTask_born taskId contextId
        message (key.filter (· ≠ "")) now) ?_ (stored_insert s taskId _ s' hrows)
      ext id
      simp [toStore, hused]
  | start c taskId args =>
    obtain ⟨-, rfl, rfl⟩ := step_start h
    exact hsame _ rfl rfl
  | read c now =>
    obtain ⟨taskId, args, attempt, -, h', ⟨e, -, rfl, rfl⟩ | ⟨row, values, -, rfl, rfl⟩⟩ :=
      step_read h
    · exact hsame _ rfl rfl
    · exact hsame _ rfl rfl
  | write c =>
    obtain ⟨taskId, args, attempt, now, row, values, hcall, hcase⟩ := step_write h
    rcases hcase with ⟨row', hwrite, rfl, rfl⟩ | ⟨-, rfl, rfl⟩ | ⟨e, -, rfl, rfl⟩
    · obtain ⟨cur, heap, hcur, -, -, hguard, hvalues, hrow'⟩ := hs.commit hb hcall hwrite
      have hentry : (toStore StorageState.used StorageState.stored s).entry taskId =
          some (cur.version, cur.task) := by
        simp [toStore, StorageState.stored, hcur]
      have hver : row'.version = cur.version + 1 := by rw [hrow']
      have hadv : Advances cur.task row'.task := by
        rw [hrow', hvalues]
        exact advances_mergeValues hguard
      refine VersionedStore.Step.of_commit hentry hadv rfl ?_
      rw [← hver]
      exact stored_insert s taskId row' _ rfl
    · exact hsame _ rfl rfl
    · exact hsame _ rfl rfl
  | delete taskId =>
    obtain ⟨hdel, rfl⟩ := step_delete h
    exact store_remove (by rw [hdel.used]; exact List.Subset.refl _) hdel.rows
  | deleteContext contextId =>
    obtain ⟨hdel, rfl⟩ := step_deleteContext h
    exact store_remove (by rw [hdel.used]; exact List.Subset.refl _) hdel.rows
  | getVersion taskId =>
    obtain ⟨rfl, rfl⟩ := step_getVersion h
    exact hsame _ rfl rfl
  | expireIdempotency contextId key =>
    obtain ⟨hdel, -, rfl⟩ := step_expire h
    exact store_remove (by rw [hdel.used]; exact List.Subset.refl _) hdel.rows

theorem step_raised {b : Backend} {s s' : StorageState} {a : StorageAction} {o : StorageOutcome}
    (h : b.step s a = some (s', o)) (ho : o.isRaised = true) : s'.stored = s.stored := by
  cases a with
  | create taskId contextId message key now =>
    obtain ⟨-, -, -, -, -, ⟨-, id, rfl⟩ | ⟨rfl, -⟩⟩ := step_create h <;>
      exact absurd ho (by simp [StorageOutcome.isRaised])
  | start c taskId args =>
    obtain ⟨-, -, rfl⟩ := step_start h
    exact absurd ho (by simp [StorageOutcome.isRaised])
  | read c now =>
    obtain ⟨taskId, args, attempt, -, h', ⟨e, -, rfl, -⟩ | ⟨row, values, -, -, rfl⟩⟩ := step_read h
    · rfl
    · exact absurd ho (by simp [StorageOutcome.isRaised])
  | write c =>
    obtain ⟨taskId, args, attempt, now, row, values, -, hcase⟩ := step_write h
    rcases hcase with ⟨row', -, -, rfl⟩ | ⟨-, -, rfl⟩ | ⟨e, -, rfl, -⟩
    · exact absurd ho (by simp [StorageOutcome.isRaised])
    · exact absurd ho (by simp [StorageOutcome.isRaised])
    · rfl
  | delete taskId =>
    obtain ⟨-, rfl⟩ := step_delete h
    exact absurd ho (by simp [StorageOutcome.isRaised])
  | deleteContext contextId =>
    obtain ⟨-, rfl⟩ := step_deleteContext h
    exact absurd ho (by simp [StorageOutcome.isRaised])
  | getVersion taskId =>
    obtain ⟨-, rfl⟩ := step_getVersion h
    exact absurd ho (by simp [StorageOutcome.isRaised])
  | expireIdempotency contextId key =>
    obtain ⟨-, -, rfl⟩ := step_expire h
    exact absurd ho (by simp [StorageOutcome.isRaised])

/-- An empty database, over any objects of the callers. -/
def StorageState.empty (h : Heap) : StorageState := { heap := h }

theorem storageInv_empty (Checked : TaskId → UpdateArgs Ref → Row → Prop) (h : Heap) :
    StorageInv Checked (StorageState.empty h) := by
  constructor
  · intro id row hrow
    exact absurd hrow (by simp [StorageState.empty])
  · intro c taskId args attempt now row values hcall
    exact absurd hcall (by simp [StorageState.empty])

/-- A sound backend keeps the contract in the runs that meet its condition. -/
theorem Backend.Sound.lifecycle {b : Backend} {cond : UpdateArgs Ref → Row → Prop}
    {Checked : TaskId → UpdateArgs Ref → Row → Prop} (hb : b.Sound cond Checked) (h : Heap) :
    LifecycleContract b.step (ReadMeets cond) (StorageState.empty h) StorageState.stored
      StorageOutcome.updated StorageOutcome.isRaised :=
  lifecycleContract_of_store StorageState.used (I := StorageInv Checked)
    (storageInv_empty Checked h) (fun id => by simp [StorageState.empty, StorageState.stored]) rfl
    (fun _ _ _ _ hs hok hst => hs.step hb hok hst)
    (fun _ _ _ _ hs _ hst => Backend.step_store hb hs hst)
    (fun _ _ _ _ _ _ hst ho => step_raised hst ho)

/-! ### InMemoryStorage -/

namespace InMemoryStorage

def Outcome.written : Outcome → Option TaskId
  | .updated taskId _ => some taskId
  | _ => none

def Outcome.isRaised : Outcome → Bool
  | .raised _ _ => true
  | _ => false

/-- Only drawn ids are present. -/
def Inv (s : State) : Prop := ∀ id t, s.tasks.lookup id = some t → id ∈ s.used

theorem erase_rows (ids : List TaskId) (s : State) :
    (ids.foldl State.erase s).used = s.used ∧
      ∀ id, ((ids.foldl State.erase s).tasks.lookup id = s.tasks.lookup id ∧
          (ids.foldl State.erase s).versions.lookup id = s.versions.lookup id) ∨
        (ids.foldl State.erase s).tasks.lookup id = none := by
  induction ids generalizing s with
  | nil => exact ⟨rfl, fun _ => Or.inl ⟨rfl, rfl⟩⟩
  | cons taskId ids ih =>
    obtain ⟨hused, hrows⟩ := ih (s.erase taskId)
    refine ⟨hused, fun id => ?_⟩
    rw [List.foldl_cons]
    rcases hrows id with ⟨h, h'⟩ | h
    · by_cases hid : id = taskId
      · refine Or.inr ?_
        rw [h, hid]
        exact AList.lookup_erase _ _
      · refine Or.inl ⟨?_, ?_⟩
        · rw [h]
          exact AList.lookup_erase_ne hid
        · rw [h']
          exact AList.lookup_erase_ne hid
    · exact Or.inr h

theorem store_remove {s s' : State} (hused : s.used ⊆ s'.used)
    (hrows : ∀ id, (s'.tasks.lookup id = s.tasks.lookup id ∧
      s'.versions.lookup id = s.versions.lookup id) ∨ s'.tasks.lookup id = none) :
    VersionedStore.Step Born Advances (toStore State.used State.stored s) .silent
      (toStore State.used State.stored s') := by
  refine VersionedStore.Step.of_remove (fun id hid => hused hid) fun id => ?_
  rcases hrows id with ⟨h, h'⟩ | h
  · exact Or.inl (by simp [toStore, State.stored, h, h'])
  · exact Or.inr (by simp [toStore, State.stored, h])

theorem stored_insert (s s' : State) (taskId : TaskId) (t : Task) (v : Nat)
    (htasks : s'.tasks = s.tasks.insert taskId t)
    (hversions : s'.versions = s.versions.insert taskId v) :
    (toStore State.used State.stored s').entry =
      Function.update (toStore State.used State.stored s).entry taskId (some (v, t)) := by
  funext id
  by_cases hid : id = taskId
  · subst hid
    simp [toStore, State.stored, htasks, hversions]
  · simp [toStore, State.stored, htasks, hversions, hid, AList.lookup_insert_ne hid]

/-- Every step is a store step, keeps the invariant, and changes nothing if it
raises. -/
theorem step_spec {s s' : State} {a : Action} {o : Outcome} (hs : Inv s)
    (h : step s a = some (s', o)) :
    Inv s' ∧
      VersionedStore.Step Born Advances (toStore State.used State.stored s)
        (toObs Outcome.written o) (toStore State.used State.stored s') ∧
      (o.isRaised = true → s'.stored = s.stored) := by
  cases a with
  | create taskId contextId message key now =>
    simp only [step] at h
    split at h
    · exact absurd h (by simp)
    · rename_i hfresh
      split at h <;> simp only [Option.some_inj, Prod.mk.injEq] at h <;> obtain ⟨rfl, rfl⟩ := h
      · -- an idempotency key gave back the task of an earlier creation
        refine ⟨fun id t ht => List.mem_cons_of_mem _ (hs id t ht),
          store_remove (List.subset_cons_self _ _) fun _ => Or.inl ⟨rfl, rfl⟩, fun hr => ?_⟩
        exact absurd hr (by simp [Outcome.isRaised])
      · refine ⟨fun id t ht => ?_, ?_, fun hr => absurd hr (by simp [Outcome.isRaised])⟩
        · by_cases hid : id = taskId
          · rw [hid]
            exact List.mem_cons_self
          · exact List.mem_cons_of_mem _ (hs id t (by
              rw [← ht]
              exact (AList.lookup_insert_ne hid).symm))
        · refine VersionedStore.Step.of_create (k := taskId) hfresh (initialTask_born taskId
            contextId message (key.filter (· ≠ "")) now) ?_ (stored_insert s _ taskId _ 1 rfl rfl)
          ext id
          simp [toStore]
  | update taskId args now =>
    simp only [step] at h
    split at h <;> rename_i hup <;> simp only [Option.some_inj, Prod.mk.injEq] at h <;>
      obtain ⟨rfl, rfl⟩ := h
    · exact ⟨hs, store_remove (List.Subset.refl _) fun _ => Or.inl ⟨rfl, rfl⟩, fun _ => rfl⟩
    · rename_i t' v'
      obtain ⟨t, v, hstored, rfl, rfl, -, hguard⟩ := updateTask_ok hup
      have hmem : taskId ∈ s.used := by
        obtain ⟨t₀, ht₀, -⟩ := Option.map_eq_some_iff.mp hstored
        exact hs taskId t₀ ht₀
      refine ⟨fun id t ht => ?_, ?_, fun hr => absurd hr (by simp [Outcome.isRaised])⟩
      · by_cases hid : id = taskId
        · rw [hid]
          exact hmem
        · exact hs id t (by rw [← ht]; exact (AList.lookup_insert_ne hid).symm)
      · have hentry : (toStore State.used State.stored s).entry taskId = some (v, t) := by
          simp [toStore, hstored]
        exact VersionedStore.Step.of_commit hentry (advances_updatedTask hguard) rfl
          (stored_insert s _ taskId _ _ rfl rfl)
  | delete taskId =>
    simp only [step, Option.some_inj, Prod.mk.injEq] at h
    obtain ⟨rfl, rfl⟩ := h
    obtain ⟨hused, hrows⟩ := erase_rows [taskId] s
    refine ⟨fun id t ht => ?_, store_remove (List.Subset.refl _) hrows,
      fun hr => absurd hr (by simp [Outcome.isRaised])⟩
    rcases hrows id with ⟨h, -⟩ | h
    · exact hs id t (h.symm.trans ht)
    · exact absurd (h.symm.trans ht) (by simp)
  | deleteContext contextId =>
    simp only [step, Option.some_inj, Prod.mk.injEq] at h
    obtain ⟨rfl, rfl⟩ := h
    obtain ⟨hused, hrows⟩ := erase_rows (tasksOf s contextId) s
    refine ⟨fun id t ht => ?_, store_remove (by rw [hused]; exact List.Subset.refl _) hrows,
      fun hr => absurd hr (by simp [Outcome.isRaised])⟩
    rw [hused]
    rcases hrows id with ⟨h, -⟩ | h
    · exact hs id t (h.symm.trans ht)
    · exact absurd (h.symm.trans ht) (by simp)

def State.empty (h : Heap) : State := { heap := h }

theorem lifecycle (h : Heap) :
    LifecycleContract step (fun _ _ => True) (State.empty h) State.stored Outcome.written
      Outcome.isRaised :=
  lifecycleContract_of_store State.used (I := Inv)
    (fun id t ht => absurd ht (by simp [State.empty]))
    (fun id => by simp [State.empty, State.stored]) rfl
    (fun _ _ _ _ hs _ hst => (step_spec hs hst).1)
    (fun _ _ _ _ hs _ hst => (step_spec hs hst).2.1)
    (fun _ _ _ _ hs _ hst => (step_spec hs hst).2.2)

end InMemoryStorage

/-- **The life of a stored task**, on every backend: in all runs on
`InMemoryStorage` and `SQLStorageBase`, and on `RedisStorage` in the runs in which
no pinned call reads a version older than the one it expects. -/
theorem storage_lifecycle (h : Heap) :
    LifecycleContract InMemoryStorage.step (fun _ _ => True) (InMemoryStorage.State.empty h)
        InMemoryStorage.State.stored InMemoryStorage.Outcome.written
        InMemoryStorage.Outcome.isRaised ∧
      LifecycleContract SQLStorageBase.backend.step (fun _ _ => True) (StorageState.empty h)
        StorageState.stored StorageOutcome.updated StorageOutcome.isRaised ∧
      LifecycleContract RedisStorage.backend.step (ReadMeets ReadsExpected) (StorageState.empty h)
        StorageState.stored StorageOutcome.updated StorageOutcome.isRaised := by
  refine ⟨InMemoryStorage.lifecycle h, ?_, RedisStorage.sound.lifecycle h⟩
  have hsql := SQLStorageBase.sound.lifecycle h
  have htriv : (ReadMeets fun _ _ => True) = fun _ _ => True := by
    funext s a
    simp [ReadMeets]
  rwa [htriv] at hsql

/-- A write of `completed` pinned to version 2 reads version 1, and then a write of
`working` commits version 2. -/
def staleRead : List StorageAction :=
  [.create "t" "ctx" ⟨.user, [], "m", "", ""⟩ none "t0",
    .start 0 "t" { state := some .completed, expectedVersion := some 2 }, .read 0 "t1",
    .start 1 "t" { state := some .working }, .read 1 "t2", .write 1]

/-- On Redis a call pinned to version 2 that reads version 1 commits its merge on
top of the version 2 another writer made in between, and the record of that
writer's transition is gone. -/
theorem redis_lifecycle_stale_merge :
    ¬ LifecycleContract RedisStorage.backend.step (fun _ _ => True)
      (StorageState.empty fun _ => { artifactId := "", parts := [] })
      StorageState.stored StorageOutcome.updated StorageOutcome.isRaised := by
  intro hcontract
  set s := finalState RedisStorage.backend.step (fun _ _ => True)
    (StorageState.empty fun _ => { artifactId := "", parts := [] }) staleRead with hs
  have hrun := run_finalState RedisStorage.backend.step (fun _ _ => True)
    (StorageState.empty fun _ => { artifactId := "", parts := [] }) staleRead rfl
  have hrun' := run_finalState RedisStorage.backend.step (fun _ _ => True) s [.write 0] rfl
  have hbefore : (s.stored "t").map (·.1.metadata.transitions) =
      some [⟨.submitted, "t0", none⟩, ⟨.working, "t2", none⟩] := by decide
  have hafter : ((finalState RedisStorage.backend.step (fun _ _ => True) s [.write 0]).stored
      "t").map (·.1.metadata.transitions) =
        some [⟨.submitted, "t0", none⟩, ⟨.completed, "t1", none⟩] := by
    decide
  obtain ⟨⟨t, v⟩, ht, hlog⟩ := Option.map_eq_some_iff.mp hbefore
  obtain ⟨⟨t', v'⟩, ht', hlog'⟩ := Option.map_eq_some_iff.mp hafter
  have hext := (hcontract.extended hrun hrun' ht ht').1
  simp only at hlog hlog'
  rw [hlog, hlog'] at hext
  exact absurd hext (by decide)

end A2AKit
