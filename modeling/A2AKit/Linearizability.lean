/-
Linearizability of `update_task` on SQL and Redis.

Any number of calls interleave their read and write halves on one task.  In every
run the calls that returned a version can be put in the order of these versions
such that the stored history, status and metadata are what the calls make of the
initial task when they run one after another in that order
(`updateTask_linearizable`); calls that raised leave no trace.

The serial meaning of a call is `Ledger.update`.  A commit applies it to the row
it replaces because the merge was made from that very row: for a blind call this
is the version guard, for a pinned one it needs that the expected version was
handed out before (`PinsIssued`), hence is not newer than what the call reads.
-/
import A2AKit.StorageInvariant

namespace A2AKit

/-! ### The serial meaning of a call -/

/-- What `update_task` folds into a task, apart from the artifacts. -/
structure Ledger where
  history : List Message
  status : TaskStatus
  metadata : Metadata

def Task.ledger (t : Task) : Ledger :=
  { history := t.history, status := t.status, metadata := t.metadata }

/-- One call with nobody else around. -/
def Ledger.update (l : Ledger) (args : UpdateArgs Ref) (now : Timestamp) : Ledger :=
  let md := l.metadata.update args.taskMetadata
  match args.state, args.statusMessage with
  | some state, message =>
    { history := l.history ++ args.messages
      status := { state, timestamp := now, message }
      metadata := (md.appendTransition (buildTransitionRecord state now message)).touch now }
  | none, some message =>
    { history := l.history ++ args.messages
      status := { l.status with timestamp := now, message := some message }
      metadata := md.touch now }
  | none, none => { l with history := l.history ++ args.messages, metadata := md }

theorem Metadata.update_of_isEmpty (md : Metadata) {tm : TaskMetadata} (h : tm.isEmpty = true) :
    md.update tm = md := by
  have hnil : tm.entries = ∅ := AList.ext (List.isEmpty_iff.mp h)
  rw [Metadata.update, hnil, AList.empty_union]

/-- The columns merged from a row, written back to it. -/
theorem ledger_mergeValues (h : Heap) (t : Task) (args : UpdateArgs Ref) (now : Timestamp) :
    ((mergeValues h t args now).2.applyTo t).ledger = t.ledger.update args now := by
  have hhistory : (if args.messages.isEmpty then none else some (t.history ++ args.messages)).getD
      t.history = t.history ++ args.messages := by
    split
    · rename_i hnil
      rw [List.isEmpty_iff.mp hnil, List.append_nil]
      rfl
    · rfl
  have hmetadata : (if args.taskMetadata.isEmpty then none
      else some (t.metadata.update args.taskMetadata)).getD t.metadata =
        t.metadata.update args.taskMetadata := by
    split
    · rename_i hnil
      rw [Metadata.update_of_isEmpty _ hnil]
      rfl
    · rfl
  rcases hstate : args.state with _ | state
  · rcases hmessage : args.statusMessage with _ | message
    · simp only [mergeValues, Values.applyTo, Task.ledger, Ledger.update, hstate, hmessage,
        hhistory, hmetadata, Option.getD_none]
    · simp only [mergeValues, Values.applyTo, Task.ledger, Ledger.update, hstate, hmessage,
        hhistory, hmetadata, Option.getD_none, Option.getD_some]
  · simp only [mergeValues, Values.applyTo, Task.ledger, Ledger.update, hstate, hhistory,
      hmetadata, Option.getD_some]

/-! ### Calls and commits of a trace -/

abbrev StorageTrace := List (StorageAction × StorageOutcome)

def startOf (c : CallId) : StorageAction × StorageOutcome → Option (TaskId × UpdateArgs Ref)
  | (.start c' taskId args, _) => if c' = c then some (taskId, args) else none
  | _ => none

/-- The task and the arguments call `c` was started with. -/
def called (tr : StorageTrace) (c : CallId) : Option (TaskId × UpdateArgs Ref) :=
  tr.findSome? (startOf c)

/-- A call that returned a version: its arguments, the timestamp of the attempt
that committed, and the version. -/
structure Commit where
  call : CallId
  args : UpdateArgs Ref
  now : Timestamp
  version : Nat

def commitOf (id : TaskId) : StorageAction × StorageOutcome → Option Commit
  | (.write c, .committed taskId args now v) =>
    if taskId = id then some ⟨c, args, now, v⟩ else none
  | _ => none

def commitsOf (id : TaskId) (tr : StorageTrace) : List Commit := tr.filterMap (commitOf id)

theorem called_snoc {tr : StorageTrace} {c : CallId} {p : TaskId × UpdateArgs Ref}
    (q : StorageAction × StorageOutcome) (h : called tr c = some p) :
    called (tr ++ [q]) c = some p := by
  rw [called, List.findSome?_append, ← called, h]
  rfl

theorem called_snoc_of_ne {tr : StorageTrace} {c : CallId} {q : StorageAction × StorageOutcome}
    (h : startOf c q = none) : called (tr ++ [q]) c = called tr c := by
  rw [called, List.findSome?_append, ← called]
  simp [h]

theorem commitsOf_snoc (id : TaskId) (tr : StorageTrace) (q : StorageAction × StorageOutcome) :
    commitsOf id (tr ++ [q]) = commitsOf id tr ++ (commitOf id q).toList := by
  rw [commitsOf, List.filterMap_append, ← commitsOf]
  cases hq : commitOf id q <;> simp [hq]

/-! ### Versions handed out -/

/-- The task and arguments of a call that has not returned. -/
def CallState.pending : CallState → Option (TaskId × UpdateArgs Ref)
  | .reading taskId args _ => some (taskId, args)
  | .writing taskId args _ _ _ _ => some (taskId, args)
  | _ => none

/-- Every expected version was handed out by an earlier call. -/
def PinsIssued (s : StorageState) : StorageAction → Prop
  | .start _ taskId args => ∀ e, args.expectedVersion = some e → (taskId, e) ∈ s.issued
  | _ => True

instance (s : StorageState) (a : StorageAction) : Decidable (PinsIssued s a) :=
  match a with
  | .start _ taskId args =>
    decidable_of_iff (∀ e ∈ args.expectedVersion, (taskId, e) ∈ s.issued) (by
      simp [PinsIssued])
  | .create .. | .read .. | .write .. | .delete .. | .deleteContext .. | .getVersion ..
  | .expireIdempotency .. => isTrue trivial

/-- Versions handed out are not newer than what is stored. -/
structure IssuedInv (s : StorageState) : Prop where
  bound : ∀ id v, (id, v) ∈ s.issued → id ∈ s.used ∧
    ∀ row, s.rows.lookup id = some row → v ≤ row.version
  pending : ∀ c id args, (s.calls c).pending = some (id, args) →
    ∀ e, args.expectedVersion = some e → (id, e) ∈ s.issued

/-- No call is in flight. -/
structure Quiescent (s : StorageState) : Prop where
  idle : ∀ c, s.calls c = .idle
  allocated : ∀ id row, s.rows.lookup id = some row → id ∈ s.used
  issued : ∀ id v, (id, v) ∈ s.issued → id ∈ s.used ∧
    ∀ row, s.rows.lookup id = some row → v ≤ row.version

theorem Quiescent.storageInv {s : StorageState} (h : Quiescent s)
    (Checked : TaskId → UpdateArgs Ref → Row → Prop) : StorageInv Checked s :=
  ⟨h.allocated, fun c _ _ _ _ _ _ hcall => absurd ((h.idle c).symm.trans hcall) (by simp)⟩

theorem Quiescent.issuedInv {s : StorageState} (h : Quiescent s) : IssuedInv s := by
  refine ⟨h.issued, fun c id args hcall => ?_⟩
  rw [h.idle c] at hcall
  exact absurd hcall (by simp [CallState.pending])

section

variable {b : Backend} {cond : UpdateArgs Ref → Row → Prop}
  {Checked : TaskId → UpdateArgs Ref → Row → Prop} {s s' : StorageState}

/-- A call that has not returned after a step had not before it, or is started by it. -/
theorem step_pending {a : StorageAction} {o : StorageOutcome} (h : b.step s a = some (s', o))
    {c : CallId} {id : TaskId} {args : UpdateArgs Ref}
    (hc : (s'.calls c).pending = some (id, args)) :
    (s.calls c).pending = some (id, args) ∨ a = .start c id args := by
  -- a call that moves stays at what it was asked for, or returns
  have hmoved : ∀ c₁ st, s'.calls = (s.setCall c₁ st).calls →
      st.pending = none ∨ st.pending = (s.calls c₁).pending →
      (s.calls c).pending = some (id, args) := by
    intro c₁ st hcalls hst
    rw [hcalls] at hc
    by_cases hc₁ : c = c₁
    · subst hc₁
      rw [StorageState.setCall_self] at hc
      rcases hst with hst | hst
      · exact absurd (hst.symm.trans hc) (by simp)
      · rw [← hst, hc]
    · rwa [StorageState.setCall_of_ne _ _ hc₁] at hc
  cases a with
  | create taskId contextId message key now =>
    rw [(step_create h).2.2.1] at hc
    exact Or.inl hc
  | start c₁ taskId args₁ =>
    obtain ⟨-, rfl, -⟩ := step_start h
    by_cases hc₁ : c = c₁
    · subst hc₁
      rw [StorageState.setCall_self] at hc
      obtain ⟨rfl, rfl⟩ : taskId = id ∧ args₁ = args := by simpa [CallState.pending] using hc
      exact Or.inr rfl
    · rw [StorageState.setCall_of_ne _ _ hc₁] at hc
      exact Or.inl hc
  | read c₁ now =>
    obtain ⟨taskId, args₁, attempt, hcall, h', hcase⟩ := step_read h
    rcases hcase with ⟨e, -, hs', -⟩ | ⟨row, values, -, hs', -⟩
    · exact Or.inl (hmoved c₁ (.returned (.error e)) (by rw [hs']; rfl) (Or.inl rfl))
    · exact Or.inl (hmoved c₁ (.writing taskId args₁ attempt now row values) (by rw [hs']; rfl)
        (Or.inr (by rw [hcall]; rfl)))
  | write c₁ =>
    obtain ⟨taskId, args₁, attempt, now, row, values, hcall, hcase⟩ := step_write h
    rcases hcase with ⟨row', -, hs', -⟩ | ⟨-, hs', -⟩ | ⟨e, -, hs', -⟩
    · exact Or.inl (hmoved c₁ (.returned (.ok row'.version)) (by rw [hs']) (Or.inl rfl))
    · exact Or.inl (hmoved c₁ _ (congrArg _ hs') (Or.inr (by rw [hcall]; rfl)))
    · exact Or.inl (hmoved c₁ _ (congrArg _ hs') (Or.inl rfl))
  | delete taskId =>
    rw [(step_delete h).1.calls] at hc
    exact Or.inl hc
  | deleteContext contextId =>
    rw [(step_deleteContext h).1.calls] at hc
    exact Or.inl hc
  | getVersion taskId =>
    obtain ⟨rfl, -⟩ := step_getVersion h
    exact Or.inl hc
  | expireIdempotency contextId key =>
    rw [(step_expire h).1.calls] at hc
    exact Or.inl hc

/-- With the pins handed out before, no call reads a version older than the one it
expects. -/
theorem IssuedInv.readMeets (hs : IssuedInv s) (hcond : ∀ args row, ReadsExpected args row →
    cond args row) (a : StorageAction) : ReadMeets cond s a := by
  intro c now taskId args attempt row _ hcall hrow
  refine hcond args row fun e he => ?_
  have hissued := hs.pending c taskId args (by rw [hcall]; rfl) e he
  exact (hs.bound taskId e hissued).2 row hrow

theorem step_used {a : StorageAction} {o : StorageOutcome} (h : b.step s a = some (s', o)) :
    s.used ⊆ s'.used := by
  have hsame : s'.used = s.used → s.used ⊆ s'.used := fun heq => by rw [heq]; exact fun _ h => h
  cases a with
  | create taskId contextId message key now =>
    rw [(step_create h).2.1]
    exact List.subset_cons_self _ _
  | start c taskId args =>
    obtain ⟨-, rfl, -⟩ := step_start h
    exact hsame rfl
  | read c now =>
    obtain ⟨taskId, args, attempt, -, h', hcase⟩ := step_read h
    rcases hcase with ⟨e, -, rfl, -⟩ | ⟨row, values, -, rfl, -⟩ <;> exact hsame rfl
  | write c =>
    obtain ⟨taskId, args, attempt, now, row, values, -, hcase⟩ := step_write h
    rcases hcase with ⟨row', -, rfl, -⟩ | ⟨-, rfl, -⟩ | ⟨e, -, rfl, -⟩ <;> exact hsame rfl
  | delete taskId => exact hsame (step_delete h).1.used
  | deleteContext contextId => exact hsame (step_deleteContext h).1.used
  | getVersion taskId =>
    obtain ⟨rfl, -⟩ := step_getVersion h
    exact hsame rfl
  | expireIdempotency contextId key => exact hsame (step_expire h).1.used

/-- Stored versions never go back. -/
theorem StorageInv.step_version (hb : b.Sound cond Checked) {a : StorageAction}
    {o : StorageOutcome} (hs : StorageInv Checked s) (h : b.step s a = some (s', o))
    {id : TaskId} {row' : Row} (hrow' : s'.rows.lookup id = some row') :
    id ∉ s.used ∨ ∃ row, s.rows.lookup id = some row ∧ row.version ≤ row'.version := by
  have hdeletes : Deletes s s' → ∃ row, s.rows.lookup id = some row ∧ row.version ≤ row'.version := by
    intro hdel
    rcases hdel.rows id with heq | heq
    · exact ⟨row', by rw [← heq, hrow'], le_rfl⟩
    · exact absurd (heq.symm.trans hrow') (by simp)
  cases a with
  | create taskId contextId message key now =>
    obtain ⟨hfresh, -, -, -, -, hrows⟩ := step_create h
    by_cases hid : id = taskId
    · exact Or.inl (hid ▸ hfresh)
    · rcases hrows with ⟨hrows, -⟩ | ⟨-, hrows⟩
      · exact Or.inr ⟨row', by rw [← hrows, hrow'], le_rfl⟩
      · rw [hrows, AList.lookup_insert_ne hid] at hrow'
        exact Or.inr ⟨row', hrow', le_rfl⟩
  | start c taskId args =>
    obtain ⟨-, rfl, -⟩ := step_start h
    exact Or.inr ⟨row', hrow', le_rfl⟩
  | read c now =>
    obtain ⟨taskId, args, attempt, -, h', hcase⟩ := step_read h
    rcases hcase with ⟨e, -, rfl, -⟩ | ⟨row, values, -, rfl, -⟩ <;>
      exact Or.inr ⟨row', hrow', le_rfl⟩
  | write c =>
    obtain ⟨taskId, args, attempt, now, row, values, hcall, hcase⟩ := step_write h
    rcases hcase with ⟨row₁, hwrite, rfl, -⟩ | ⟨-, rfl, -⟩ | ⟨e, -, rfl, -⟩
    · by_cases hid : id = taskId
      · subst hid
        obtain ⟨cur, -, hcur, -, -, -, -, hrow₁⟩ := hs.commit hb hcall hwrite
        have hver : row₁.version = cur.version + 1 := by rw [hrow₁]
        have heq : row₁ = row' := Option.some_inj.mp ((AList.lookup_insert _).symm.trans hrow')
        exact Or.inr ⟨cur, hcur, by rw [← heq]; omega⟩
      · exact Or.inr ⟨row', by rw [← hrow']; exact (AList.lookup_insert_ne hid).symm, le_rfl⟩
    · exact Or.inr ⟨row', hrow', le_rfl⟩
    · exact Or.inr ⟨row', hrow', le_rfl⟩
  | delete taskId => exact Or.inr (hdeletes (step_delete h).1)
  | deleteContext contextId => exact Or.inr (hdeletes (step_deleteContext h).1)
  | getVersion taskId =>
    obtain ⟨rfl, -⟩ := step_getVersion h
    exact Or.inr ⟨row', hrow', le_rfl⟩
  | expireIdempotency contextId key => exact Or.inr (hdeletes (step_expire h).1)

/-- A version that is handed out is the stored one. -/
theorem step_issued {a : StorageAction} {o : StorageOutcome} (h : b.step s a = some (s', o)) :
    s.issued ⊆ s'.issued ∧ ∀ id v, (id, v) ∈ s'.issued → (id, v) ∈ s.issued ∨
      ∃ row, s'.rows.lookup id = some row ∧ row.version = v := by
  have hsame : s'.issued = s.issued → s.issued ⊆ s'.issued ∧
      ∀ id v, (id, v) ∈ s'.issued → (id, v) ∈ s.issued ∨
        ∃ row, s'.rows.lookup id = some row ∧ row.version = v := by
    intro heq
    rw [heq]
    exact ⟨List.Subset.refl _, fun _ _ h => Or.inl h⟩
  cases a with
  | create taskId contextId message key now => exact hsame (step_create h).2.2.2.2.1
  | start c taskId args =>
    obtain ⟨-, rfl, -⟩ := step_start h
    exact hsame rfl
  | read c now =>
    obtain ⟨taskId, args, attempt, -, h', hcase⟩ := step_read h
    rcases hcase with ⟨e, -, rfl, -⟩ | ⟨row, values, -, rfl, -⟩ <;> exact hsame rfl
  | write c =>
    obtain ⟨taskId, args, attempt, now, row, values, -, hcase⟩ := step_write h
    rcases hcase with ⟨row', -, rfl, -⟩ | ⟨-, rfl, -⟩ | ⟨e, -, rfl, -⟩
    · refine ⟨List.subset_cons_self _ _, fun id v hv => ?_⟩
      rcases List.mem_cons.mp hv with hv | hv
      · simp only [Prod.mk.injEq] at hv
        obtain ⟨rfl, rfl⟩ := hv
        exact Or.inr ⟨row', AList.lookup_insert _, rfl⟩
      · exact Or.inl hv
    · exact hsame rfl
    · exact hsame rfl
  | delete taskId => exact hsame (step_delete h).1.issued
  | deleteContext contextId => exact hsame (step_deleteContext h).1.issued
  | getVersion taskId =>
    obtain ⟨rfl, -⟩ := step_getVersion h
    refine ⟨List.subset_append_right _ _, fun id v hv => ?_⟩
    rcases List.mem_append.mp hv with hv | hv
    · obtain ⟨u, hu, heq⟩ := List.mem_map.mp hv
      obtain ⟨row, hrow, rfl⟩ := Option.map_eq_some_iff.mp (Option.mem_toList.mp hu)
      simp only [Prod.mk.injEq] at heq
      obtain ⟨rfl, rfl⟩ := heq
      exact Or.inr ⟨row, hrow, rfl⟩
    · exact Or.inl hv
  | expireIdempotency contextId key => exact hsame (step_expire h).1.issued

theorem IssuedInv.step (hb : b.Sound cond Checked)
    (hcond : ∀ args row, ReadsExpected args row → cond args row) {a : StorageAction}
    {o : StorageOutcome} (hs : IssuedInv s) (hinv : StorageInv Checked s) (hpins : PinsIssued s a)
    (h : b.step s a = some (s', o)) : IssuedInv s' := by
  obtain ⟨hsub, hnew⟩ := step_issued h
  have hinv' := hinv.step hb (hs.readMeets hcond a) h
  refine ⟨fun id v hv => ?_, fun c id args hc e he => ?_⟩
  · rcases hnew id v hv with hold | ⟨row, hrow, rfl⟩
    · obtain ⟨hused, hle⟩ := hs.bound id v hold
      refine ⟨step_used h hused, fun row' hrow' => ?_⟩
      rcases hinv.step_version hb h hrow' with hfresh | ⟨row, hrow, hver⟩
      · exact absurd hused hfresh
      · exact Nat.le_trans (hle row hrow) hver
    · refine ⟨hinv'.allocated id row hrow, fun row' hrow' => ?_⟩
      rw [Option.some_inj.mp (hrow'.symm.trans hrow)]
  · rcases step_pending h hc with hc | rfl
    · exact hsub (hs.pending c id args hc e he)
    · exact hsub (hpins e he)

/-! ### Traces and calls -/

/-- What the trace knows of a call. -/
def Tracks (tr : StorageTrace) (c : CallId) : CallState → Prop
  | .idle => called tr c = none
  | .reading taskId args _ => called tr c = some (taskId, args)
  | .writing taskId args _ now _ _ =>
    called tr c = some (taskId, args) ∧ ∃ o, (.read c now, o) ∈ tr
  | .returned (.ok v) => ∃ taskId args now,
    called tr c = some (taskId, args) ∧ ⟨c, args, now, v⟩ ∈ commitsOf taskId tr
  | .returned (.error _) => True

/-- The calls are where the trace left them, and every commit is the return of a
call with its own arguments. -/
structure TraceInv (tr : StorageTrace) (s : StorageState) : Prop where
  tracks : ∀ c, Tracks tr c (s.calls c)
  commits : ∀ id, ∀ cm ∈ commitsOf id tr, s.calls cm.call = .returned (.ok cm.version) ∧
    called tr cm.call = some (id, cm.args) ∧ ∃ o, (.read cm.call cm.now, o) ∈ tr

theorem commitsOf_subset_snoc (id : TaskId) (tr : StorageTrace)
    (q : StorageAction × StorageOutcome) : commitsOf id tr ⊆ commitsOf id (tr ++ [q]) := by
  rw [commitsOf_snoc]
  exact List.subset_append_left _ _

theorem Tracks.snoc {tr : StorageTrace} {c : CallId} {st : CallState}
    {q : StorageAction × StorageOutcome} (h : Tracks tr c st)
    (hq : st = .idle → startOf c q = none) : Tracks (tr ++ [q]) c st := by
  match st, h, hq with
  | .idle, h, hq => exact (called_snoc_of_ne (hq rfl)).trans h
  | .reading .., h, _ => exact called_snoc q h
  | .writing .., ⟨h, o, hmem⟩, _ => exact ⟨called_snoc q h, o, List.mem_append_left _ hmem⟩
  | .returned (.ok v), ⟨taskId, args, now, h, hmem⟩, _ =>
    exact ⟨taskId, args, now, called_snoc q h, commitsOf_subset_snoc _ _ _ hmem⟩
  | .returned (.error _), _, _ => trivial

/-- A step that commits nothing and moves at most the call `c`, which has not
returned. -/
theorem TraceInv.move {tr : StorageTrace} {q : StorageAction × StorageOutcome}
    (hs : TraceInv tr s) (c : CallId) (hothers : ∀ c', c' ≠ c → s'.calls c' = s.calls c')
    (hstart : ∀ c', c' ≠ c → startOf c' q = none) (hcommit : ∀ id, commitOf id q = none)
    (hself : Tracks (tr ++ [q]) c (s'.calls c))
    (hmoved : ∀ v, s.calls c = .returned (.ok v) → s'.calls c = s.calls c) :
    TraceInv (tr ++ [q]) s' := by
  refine ⟨fun c' => ?_, fun id cm hcm => ?_⟩
  · by_cases hc : c' = c
    · rw [hc]
      exact hself
    · rw [hothers c' hc]
      exact (hs.tracks c').snoc fun _ => hstart c' hc
  · rw [commitsOf_snoc, hcommit, Option.toList_none, List.append_nil] at hcm
    obtain ⟨hret, hcalled, o, hread⟩ := hs.commits id cm hcm
    refine ⟨?_, called_snoc q hcalled, o, List.mem_append_left _ hread⟩
    by_cases hc : cm.call = c
    · rw [hc, hmoved cm.version (hc ▸ hret), ← hc]
      exact hret
    · rw [hothers _ hc]
      exact hret

/-- A step that is none of a call. -/
theorem TraceInv.still {tr : StorageTrace} {q : StorageAction × StorageOutcome}
    (hs : TraceInv tr s) (hcalls : s'.calls = s.calls) (hstart : ∀ c, startOf c q = none)
    (hcommit : ∀ id, commitOf id q = none) : TraceInv (tr ++ [q]) s' := by
  refine hs.move 0 (fun c' _ => by rw [hcalls]) (fun c' _ => hstart c') hcommit ?_
    (fun _ _ => by rw [hcalls])
  rw [hcalls]
  exact (hs.tracks 0).snoc fun _ => hstart 0

/-- A write that commits: the call has returned the version. -/
theorem TraceInv.commit {tr : StorageTrace} {c : CallId} {taskId : TaskId} {args : UpdateArgs Ref}
    {now : Timestamp} {v : Nat} (hs : TraceInv tr s) (hcalled : called tr c = some (taskId, args))
    (hread : ∃ o, (.read c now, o) ∈ tr) (hmoved : ∀ v, s.calls c ≠ .returned (.ok v))
    (hcalls : s'.calls = (s.setCall c (.returned (.ok v))).calls) :
    TraceInv (tr ++ [(.write c, .committed taskId args now v)]) s' := by
  obtain ⟨o, hread⟩ := hread
  refine ⟨fun c' => ?_, fun id cm hcm => ?_⟩
  · rw [hcalls]
    by_cases hc : c' = c
    · subst hc
      rw [s.setCall_self]
      refine ⟨taskId, args, now, called_snoc _ hcalled, ?_⟩
      rw [commitsOf_snoc]
      simp [commitOf]
    · rw [s.setCall_of_ne _ hc]
      exact (hs.tracks c').snoc fun _ => rfl
  · rw [commitsOf_snoc, List.mem_append] at hcm
    rw [hcalls]
    rcases hcm with hcm | hcm
    · obtain ⟨hret, hcalled', o', hread'⟩ := hs.commits id cm hcm
      -- no call commits twice
      have hc : cm.call ≠ c := fun hc => hmoved cm.version (hc ▸ hret)
      rw [s.setCall_of_ne _ hc]
      exact ⟨hret, called_snoc _ hcalled', o', List.mem_append_left _ hread'⟩
    · by_cases hid : taskId = id
      · have hcm' : cm = ⟨c, args, now, v⟩ := by simpa [commitOf, hid] using hcm
        rw [hcm', s.setCall_self, ← hid]
        exact ⟨rfl, called_snoc _ hcalled, o, List.mem_append_left _ hread⟩
      · exact absurd hcm (by simp [commitOf, hid])

theorem TraceInv.step {tr : StorageTrace} {a : StorageAction} {o : StorageOutcome}
    (hs : TraceInv tr s) (h : b.step s a = some (s', o)) : TraceInv (tr ++ [(a, o)]) s' := by
  cases a with
  | create taskId contextId message key now =>
    exact hs.still (step_create h).2.2.1 (fun _ => rfl) fun _ => rfl
  | start c taskId args =>
    obtain ⟨hidle, rfl, rfl⟩ := step_start h
    -- an idle call was never started
    have hnew : called tr c = none := by
      have := hs.tracks c
      rwa [hidle] at this
    refine hs.move c (fun c' hc => s.setCall_of_ne _ hc) (fun c' hc => if_neg (Ne.symm hc))
      (fun _ => rfl) ?_ (fun v hv => absurd (hidle.symm.trans hv) (by simp))
    rw [s.setCall_self]
    show called _ _ = _
    rw [called, List.findSome?_append, ← called, hnew]
    simp [startOf]
  | read c now =>
    obtain ⟨taskId, args, attempt, hcall, h', hcase⟩ := step_read h
    have hcalled : called tr c = some (taskId, args) := by
      have := hs.tracks c
      rwa [hcall] at this
    have hmoved : ∀ v, s.calls c ≠ .returned (.ok v) := by simp [hcall]
    rcases hcase with ⟨e, -, rfl, rfl⟩ | ⟨row, values, -, rfl, rfl⟩
    · refine hs.move c (fun c' hc => StorageState.setCall_of_ne _ _ hc) (fun _ _ => rfl)
        (fun _ => rfl) ?_ (fun v hv => absurd hv (hmoved v))
      rw [StorageState.setCall_self]
      trivial
    · refine hs.move c (fun c' hc => StorageState.setCall_of_ne _ _ hc) (fun _ _ => rfl)
        (fun _ => rfl) ?_ (fun v hv => absurd hv (hmoved v))
      rw [StorageState.setCall_self]
      exact ⟨called_snoc _ hcalled, .inFlight, List.mem_append_right _ (List.mem_singleton_self _)⟩
  | write c =>
    obtain ⟨taskId, args, attempt, now, row, values, hcall, hcase⟩ := step_write h
    obtain ⟨hcalled, o', hread⟩ : called tr c = some (taskId, args) ∧ ∃ o, (.read c now, o) ∈ tr := by
      have := hs.tracks c
      rwa [hcall] at this
    have hmoved : ∀ v, s.calls c ≠ .returned (.ok v) := by simp [hcall]
    rcases hcase with ⟨row', hwrite, rfl, rfl⟩ | ⟨-, rfl, rfl⟩ | ⟨e, -, rfl, rfl⟩
    · exact hs.commit hcalled ⟨o', hread⟩ hmoved rfl
    · refine hs.move c (fun c' hc => s.setCall_of_ne _ hc) (fun _ _ => rfl) (fun _ => rfl) ?_
        (fun v hv => absurd hv (hmoved v))
      rw [s.setCall_self]
      exact called_snoc _ hcalled
    · refine hs.move c (fun c' hc => s.setCall_of_ne _ hc) (fun _ _ => rfl) (fun _ => rfl) ?_
        (fun v hv => absurd hv (hmoved v))
      rw [s.setCall_self]
      trivial
  | delete taskId => exact hs.still (step_delete h).1.calls (fun _ => rfl) fun _ => rfl
  | deleteContext contextId =>
    exact hs.still (step_deleteContext h).1.calls (fun _ => rfl) fun _ => rfl
  | getVersion taskId =>
    obtain ⟨rfl, -⟩ := step_getVersion h
    exact hs.still rfl (fun _ => rfl) fun _ => rfl
  | expireIdempotency contextId key =>
    exact hs.still (step_expire h).1.calls (fun _ => rfl) fun _ => rfl

/-! ### The serial order -/

/-- The calls of `cms` one after another. -/
def applyCommits (l : Ledger) (cms : List Commit) : Ledger :=
  cms.foldl (fun l cm => l.update cm.args cm.now) l

/-- While the task exists it is what its commits make of `row₀`, and their versions
count up from it. -/
structure LedgerInv (id : TaskId) (row₀ : Row) (tr : StorageTrace) (s : StorageState) : Prop where
  used : id ∈ s.used
  stored : ∀ row, s.rows.lookup id = some row →
    row.task.ledger = applyCommits row₀.task.ledger (commitsOf id tr) ∧
      row.version = row₀.version + (commitsOf id tr).length ∧
      ∀ i cm, (commitsOf id tr)[i]? = some cm → cm.version = row₀.version + i + 1

/-- A step that commits nothing to `id`. -/
theorem LedgerInv.frame {id : TaskId} {row₀ : Row} {tr : StorageTrace}
    {q : StorageAction × StorageOutcome} (hs : LedgerInv id row₀ tr s) (hused : s.used ⊆ s'.used)
    (hrows : ∀ row, s'.rows.lookup id = some row → s.rows.lookup id = some row)
    (hcommit : commitOf id q = none) : LedgerInv id row₀ (tr ++ [q]) s' := by
  refine ⟨hused hs.used, fun row hrow => ?_⟩
  rw [commitsOf_snoc, hcommit, Option.toList_none, List.append_nil]
  exact hs.stored row (hrows row hrow)

theorem LedgerInv.deletes {id : TaskId} {row₀ : Row} {tr : StorageTrace}
    {q : StorageAction × StorageOutcome} (hs : LedgerInv id row₀ tr s) (h : Deletes s s')
    (hcommit : commitOf id q = none) : LedgerInv id row₀ (tr ++ [q]) s' := by
  refine hs.frame (by rw [h.used]; exact List.Subset.refl _) (fun row hrow => ?_) hcommit
  rcases h.rows id with heq | heq
  · rw [← heq, hrow]
  · exact absurd (heq.symm.trans hrow) (by simp)

/-- A commit to `id` is the next one in the order. -/
theorem LedgerInv.commit {id : TaskId} {row₀ cur row' : Row} {tr : StorageTrace}
    {q : StorageAction × StorageOutcome} {c : CallId} {args : UpdateArgs Ref} {now : Timestamp}
    (hs : LedgerInv id row₀ tr s) (hcur : s.rows.lookup id = some cur) (hused : s'.used = s.used)
    (hrow : s'.rows.lookup id = some row')
    (hcommit : commitOf id q = some ⟨c, args, now, row'.version⟩)
    (hledger : row'.task.ledger = cur.task.ledger.update args now)
    (hversion : row'.version = cur.version + 1) : LedgerInv id row₀ (tr ++ [q]) s' := by
  obtain ⟨hbefore, hcount, hvers⟩ := hs.stored cur hcur
  refine ⟨hused ▸ hs.used, fun r hr => ?_⟩
  obtain rfl : r = row' := Option.some_inj.mp (hr.symm.trans hrow)
  rw [commitsOf_snoc, hcommit, Option.toList_some]
  refine ⟨?_, ?_, fun i cm hcm => ?_⟩
  · rw [applyCommits, List.foldl_concat, ← applyCommits, ← hbefore, hledger]
  · rw [hversion, hcount, List.length_append, List.length_singleton]
    omega
  · rw [List.getElem?_append] at hcm
    split at hcm
    · exact hvers i cm hcm
    · rename_i hlen
      have hi : i = (commitsOf id tr).length := by
        have := (List.getElem?_eq_some_iff.mp hcm).1
        simp only [List.length_singleton] at this
        omega
      rw [hi, Nat.sub_self, List.getElem?_cons_zero, Option.some_inj] at hcm
      rw [← hcm, hi, hversion, hcount]

theorem LedgerInv.step (hb : b.Sound cond Checked) {id : TaskId} {row₀ : Row} {tr : StorageTrace}
    {a : StorageAction} {o : StorageOutcome} (hs : LedgerInv id row₀ tr s)
    (hinv : StorageInv Checked s) (h : b.step s a = some (s', o)) :
    LedgerInv id row₀ (tr ++ [(a, o)]) s' := by
  cases a with
  | create taskId contextId message key now =>
    obtain ⟨hfresh, hused, -, -, -, hrows⟩ := step_create h
    refine hs.frame (by rw [hused]; exact List.subset_cons_self _ _) (fun row hrow => ?_) rfl
    -- ids are used once, so this is no new task under the same id
    have hid : id ≠ taskId := fun hid => hfresh (hid ▸ hs.used)
    rcases hrows with ⟨hrows, -⟩ | ⟨-, hrows⟩
    · rw [← hrows, hrow]
    · rwa [hrows, AList.lookup_insert_ne hid] at hrow
  | start c taskId args =>
    obtain ⟨-, rfl, rfl⟩ := step_start h
    exact hs.frame (List.Subset.refl _) (fun _ hrow => hrow) rfl
  | read c now =>
    obtain ⟨taskId, args, attempt, -, h', hcase⟩ := step_read h
    rcases hcase with ⟨e, -, rfl, rfl⟩ | ⟨row, values, -, rfl, rfl⟩ <;>
      exact hs.frame (List.Subset.refl _) (fun _ hrow => hrow) rfl
  | write c =>
    obtain ⟨taskId, args, attempt, now, row, values, hcall, hcase⟩ := step_write h
    rcases hcase with ⟨row', hwrite, rfl, rfl⟩ | ⟨-, rfl, rfl⟩ | ⟨e, -, rfl, rfl⟩
    · by_cases hid : taskId = id
      · subst hid
        obtain ⟨cur, hp, hcur, -, -, -, hvalues, hrow'⟩ := hinv.commit hb hcall hwrite
        refine hs.commit hcur rfl (AList.lookup_insert _) (if_pos rfl) ?_ (by rw [hrow'])
        rw [← ledger_mergeValues hp, ← hvalues, hrow']
      · refine hs.frame (List.Subset.refl _) (fun r hr => ?_) (by simp [commitOf, hid])
        rw [← hr]
        exact (AList.lookup_insert_ne (Ne.symm hid)).symm
    · exact hs.frame (List.Subset.refl _) (fun _ hrow => hrow) rfl
    · exact hs.frame (List.Subset.refl _) (fun _ hrow => hrow) rfl
  | delete taskId => exact hs.deletes (step_delete h).1 rfl
  | deleteContext contextId => exact hs.deletes (step_deleteContext h).1 rfl
  | getVersion taskId =>
    obtain ⟨rfl, -⟩ := step_getVersion h
    exact hs.frame (List.Subset.refl _) (fun _ hrow => hrow) rfl
  | expireIdempotency contextId key => exact hs.deletes (step_expire h).1 rfl

/-- Everything the runs from a quiescent state keep. -/
structure CallsInv (Checked : TaskId → UpdateArgs Ref → Row → Prop) (id : TaskId) (row₀ : Row)
    (tr : StorageTrace) (s : StorageState) : Prop where
  storage : StorageInv Checked s
  issued : IssuedInv s
  trace : TraceInv tr s
  ledger : LedgerInv id row₀ tr s

theorem callsInv_of_run (hb : b.Sound cond Checked)
    (hcond : ∀ args row, ReadsExpected args row → cond args row) {id : TaskId} {row₀ : Row}
    {tr : StorageTrace} (hquiet : Quiescent s) (hrow₀ : s.rows.lookup id = some row₀)
    (hrun : Run b.step PinsIssued s tr s') : CallsInv Checked id row₀ tr s' := by
  refine hrun.forward (fun tr s a s' o hs hok hstep => ?_) ?_
  · exact ⟨hs.storage.step hb (hs.issued.readMeets hcond a) hstep,
      hs.issued.step hb hcond hs.storage hok hstep, hs.trace.step hstep,
      hs.ledger.step hb hs.storage hstep⟩
  · refine ⟨hquiet.storageInv Checked, hquiet.issuedInv, ⟨fun c => ?_, fun id cm hcm => ?_⟩,
      hquiet.allocated id row₀ hrow₀, fun row hrow => ?_⟩
    · rw [hquiet.idle c]
      rfl
    · exact absurd hcm (by simp [commitsOf])
    · rw [Option.some_inj.mp (hrow.symm.trans hrow₀)]
      exact ⟨rfl, rfl, fun i cm hcm => absurd hcm (by simp [commitsOf])⟩

/-- `order` explains what a run made of `row₀`: it lists the calls on the task that
returned a version, each once, with its own arguments and the timestamp of one of
its reads, by the versions they returned, and applying them one after another gives
what is stored. -/
structure SerialOrder (id : TaskId) (row₀ row : Row) (tr : StorageTrace) (s : StorageState)
    (order : List Commit) : Prop where
  once : (order.map Commit.call).Nodup
  successful : ∀ c, c ∈ order.map Commit.call ↔
    ∃ args v, called tr c = some (id, args) ∧ s.calls c = .returned (.ok v)
  own : ∀ cm ∈ order, called tr cm.call = some (id, cm.args) ∧ ∃ o, (.read cm.call cm.now, o) ∈ tr
  versions : ∀ i cm, order[i]? = some cm →
    s.calls cm.call = .returned (.ok (row₀.version + i + 1))
  stored : row.task.ledger = applyCommits row₀.task.ledger order
  version : row.version = row₀.version + order.length

theorem CallsInv.serialOrder {id : TaskId} {row₀ row : Row} {tr : StorageTrace}
    (hs : CallsInv Checked id row₀ tr s) (hrow : s.rows.lookup id = some row) :
    SerialOrder id row₀ row tr s (commitsOf id tr) := by
  obtain ⟨hledger, hver, hvers⟩ := hs.ledger.stored row hrow
  have hversions : ∀ i cm, (commitsOf id tr)[i]? = some cm →
      s.calls cm.call = .returned (.ok (row₀.version + i + 1)) := by
    intro i cm hcm
    rw [← hvers i cm hcm]
    exact (hs.trace.commits id cm (List.mem_of_getElem? hcm)).1
  refine ⟨?_, fun c => ⟨fun hc => ?_, ?_⟩, fun cm hcm => (hs.trace.commits id cm hcm).2, hversions,
    hledger, hver⟩
  · -- a call that stood twice in the order would have returned two versions
    rw [List.nodup_iff_getElem?_ne_getElem?]
    intro i j hij hj heq
    simp only [List.length_map] at hj
    rw [List.getElem?_map, List.getElem?_map, List.getElem?_eq_getElem (by omega),
      List.getElem?_eq_getElem hj] at heq
    simp only [Option.map_some, Option.some_inj] at heq
    have hi := hversions i _ (List.getElem?_eq_getElem (by omega))
    have hj := hversions j _ (List.getElem?_eq_getElem hj)
    rw [heq, hj] at hi
    simp only [CallState.returned.injEq, Except.ok.injEq] at hi
    omega
  · obtain ⟨cm, hcm, rfl⟩ := List.mem_map.mp hc
    obtain ⟨hret, hcalled, -⟩ := hs.trace.commits id cm hcm
    exact ⟨cm.args, cm.version, hcalled, hret⟩
  · rintro ⟨args, v, hcalled, hret⟩
    have htracks := hs.trace.tracks c
    rw [hret] at htracks
    obtain ⟨taskId, args', now, hcalled', hmem⟩ := htracks
    rw [hcalled, Option.some_inj, Prod.mk.injEq] at hcalled'
    obtain ⟨rfl, rfl⟩ := hcalled'
    exact List.mem_map_of_mem hmem

end

/-- **Linearizability.**  In every run of `update_task` calls on SQL or Redis whose
pins were handed out before, the successful calls have a serial order. -/
theorem updateTask_linearizable {b : Backend}
    (hb : b = SQLStorageBase.backend ∨ b = RedisStorage.backend) {s s' : StorageState}
    {tr : StorageTrace} {id : TaskId} {row₀ row : Row} (hquiet : Quiescent s)
    (hrun : Run b.step PinsIssued s tr s') (hrow₀ : s.rows.lookup id = some row₀)
    (hrow : s'.rows.lookup id = some row) :
    ∃ order, SerialOrder id row₀ row tr s' order := by
  rcases hb with rfl | rfl
  · exact ⟨_, (callsInv_of_run SQLStorageBase.sound (fun _ _ _ => trivial) hquiet hrow₀
      hrun).serialOrder hrow⟩
  · exact ⟨_, (callsInv_of_run RedisStorage.sound (fun _ _ h => h) hquiet hrow₀
      hrun).serialOrder hrow⟩

/-- A database with one task, whose version has been handed out. -/
def StorageState.single (id : TaskId) (row : Row) (h : Heap) : StorageState where
  rows := (∅ : AList fun _ : TaskId => Row).insert id row
  used := [id]
  heap := h
  issued := [(id, row.version)]

theorem StorageState.single_quiescent (id : TaskId) (row : Row) (h : Heap) :
    Quiescent (StorageState.single id row h) := by
  have hrow : ∀ id' row', (StorageState.single id row h).rows.lookup id' = some row' →
      id' = id ∧ row' = row := by
    intro id' row' hlookup
    by_cases hid : id' = id
    · subst hid
      exact ⟨rfl, Option.some_inj.mp (hlookup.symm.trans (AList.lookup_insert _))⟩
    · rw [StorageState.single, AList.lookup_insert_ne hid] at hlookup
      exact absurd hlookup (by simp)
  refine ⟨fun _ => rfl, fun id' row' hlookup => ?_, fun id' v hv => ?_⟩
  · rw [(hrow id' row' hlookup).1]
    exact List.mem_singleton_self id
  · have hv' : id' = id ∧ v = row.version := by simpa [StorageState.single] using hv
    refine ⟨by rw [hv'.1]; exact List.mem_singleton_self id, fun row' hlookup => ?_⟩
    rw [hv'.2, (hrow id' row' hlookup).2]

/-- A pinned call and a blind one both read version 1; the blind one commits on its
second attempt. -/
def racingCalls : List StorageAction :=
  [.start 0 "t" { state := some .working, expectedVersion := some 1 },
    .start 1 "t" { messages := [⟨.agent, [], "n", "t", "ctx"⟩] },
    .read 1 "t1", .read 0 "t2", .write 0, .write 1, .read 1 "t3", .write 1]

theorem racingCalls_linearizable :
    ∃ s s' tr row₀ row, Run SQLStorageBase.backend.step PinsIssued s tr s' ∧
      (s'.stored "t").map (·.2) = some 3 ∧ ∃ order, SerialOrder "t" row₀ row tr s' order := by
  have hrun := run_finalState SQLStorageBase.backend.step PinsIssued
    (.single "t" ⟨initialTask "t" "ctx" ⟨.user, [], "m", "", ""⟩ none "t0", 1, none⟩
      fun _ => ⟨"", "", "", []⟩) racingCalls rfl
  exact ⟨_, _, _, _, _, hrun, by decide, updateTask_linearizable (Or.inl rfl)
    (StorageState.single_quiescent _ _ _) hrun rfl rfl⟩

end A2AKit
