/-
Artifact batches and lost version races on SQL and Redis.

The merge of an attempt works on the caller's artifact objects, so an attempt that
loses its race leaves its mark on the batch that the next attempt merges: the next
turn of the blind retry loop, or another call with the same list object after a
`ConcurrencyError`.  `mergesOf` collects the ids that were present in the rows the
batch was merged with along a run, and `batch_committed_iff` says when the attempt
that finally commits still writes the fold of the batch as it was built.
-/
import A2AKit.Linearizability

namespace A2AKit

/-! ### Merges along a run -/

/-- The ids in the row that a step merges the batch `ws` with. -/
def mergeOf (b : Backend) (ws : List (ArtifactWrite Ref)) (s : StorageState) :
    StorageAction → Option (List String)
  | .read c now =>
    match s.calls c with
    | .reading taskId args _ =>
      match (b.updateRead taskId s.heap (s.rows.lookup taskId) args now).2 with
      | .ok (row, _) =>
        if args.artifacts = ws then some (artifactIds row.task.artifacts) else none
      | .error _ => none
    | _ => none
  | _ => none

def mergesOf (b : Backend) (ws : List (ArtifactWrite Ref)) :
    StorageState → StorageTrace → List (List String)
  | _, [] => []
  | s, (a, _) :: tr =>
    (mergeOf b ws s a).toList ++
      match b.step s a with
      | some (s', _) => mergesOf b ws s' tr
      | none => []

/-- The writes of a batch have objects of their own, and two batches share one only
if they are the same list. -/
def Apart (ws : List (ArtifactWrite Ref)) (args : UpdateArgs Ref) : Prop :=
  (refs args.artifacts).Nodup ∧ (args.artifacts = ws ∨ ∀ q ∈ refs ws, q ∉ refs args.artifacts)

/-- Pins were handed out before, and no other call merges the objects of `ws`. -/
def BatchOk (ws : List (ArtifactWrite Ref)) (s : StorageState) (a : StorageAction) : Prop :=
  PinsIssued s a ∧ match a with
    | .start _ _ args => Apart ws args
    | _ => True

instance (ws : List (ArtifactWrite Ref)) (args : UpdateArgs Ref) : Decidable (Apart ws args) :=
  inferInstanceAs (Decidable (_ ∧ _))

instance (ws : List (ArtifactWrite Ref)) (s : StorageState) (a : StorageAction) :
    Decidable (BatchOk ws s a) :=
  match a with
  | .start .. => inferInstanceAs (Decidable (_ ∧ Apart ws _))
  | .create .. | .read .. | .write .. | .delete .. | .deleteContext .. | .getVersion ..
  | .expireIdempotency .. => inferInstanceAs (Decidable (_ ∧ True))

structure BatchInv (Checked : TaskId → UpdateArgs Ref → Row → Prop)
    (ws : List (ArtifactWrite Ref)) (s : StorageState) : Prop where
  storage : StorageInv Checked s
  issued : IssuedInv s
  pending : ∀ c id args, (s.calls c).pending = some (id, args) → Apart ws args

section

variable {b : Backend} {cond : UpdateArgs Ref → Row → Prop}
  {Checked : TaskId → UpdateArgs Ref → Row → Prop} {ws : List (ArtifactWrite Ref)}
  {s s' : StorageState} {a : StorageAction} {o : StorageOutcome}

theorem BatchInv.step (hb : b.Sound cond Checked)
    (hcond : ∀ args row, ReadsExpected args row → cond args row) (hs : BatchInv Checked ws s)
    (hok : BatchOk ws s a) (h : b.step s a = some (s', o)) : BatchInv Checked ws s' := by
  refine ⟨hs.storage.step hb (hs.issued.readMeets hcond a) h,
    hs.issued.step hb hcond hs.storage hok.1 h, fun c id args hc => ?_⟩
  rcases step_pending h hc with hc | rfl
  · exact hs.pending c id args hc
  · exact hok.2

theorem Quiescent.batchInv (hs : Quiescent s) : BatchInv Checked ws s := by
  refine ⟨hs.storageInv Checked, hs.issuedInv, fun c id args hc => ?_⟩
  rw [hs.idle c] at hc
  exact absurd hc (by simp [CallState.pending])

/-- A step inflates the batch if it merges it, and otherwise leaves its objects
alone. -/
theorem BatchInv.resolve_step (hb : b.Sound cond Checked)
    (hcond : ∀ args row, ReadsExpected args row → cond args row) (hs : BatchInv Checked ws s)
    (h : b.step s a = some (s', o)) :
    resolve s'.heap ws = inflateAll (mergeOf b ws s a).toList (resolve s.heap ws) := by
  have hsame : s'.heap = s.heap → mergeOf b ws s a = none →
      resolve s'.heap ws = inflateAll (mergeOf b ws s a).toList (resolve s.heap ws) := by
    intro hheap hnone
    rw [hheap, hnone]
    rfl
  cases a with
  | create taskId contextId message key now => exact hsame (step_create h).2.2.2.1 rfl
  | start c taskId args =>
    obtain ⟨-, rfl, -⟩ := step_start h
    exact hsame rfl rfl
  | read c now =>
    obtain ⟨taskId, args, attempt, hcall, h', hcase⟩ := step_read h
    rcases hcase with ⟨e, hread, rfl, -⟩ | ⟨row, values, hread, rfl, -⟩
    · refine hsame (hb.read_error hread) ?_
      simp only [mergeOf, hcall, hread]
    · obtain ⟨-, hmerge, -⟩ := hb.read_ok hread fun r hr =>
        hs.issued.readMeets hcond _ c now taskId args attempt r rfl hcall hr
      obtain ⟨hnd, hapart⟩ := hs.pending c taskId args (by rw [hcall]; rfl)
      have hheap : (mergeValues s.heap row.task args now).1 = h' := by rw [hmerge]
      show resolve h' ws = _
      simp only [mergeOf, hcall, hread]
      -- another batch shares no object with this one
      by_cases hws : args.artifacts = ws
      · rw [if_pos hws, ← hheap, ← hws, resolve_mergeValues row.task now hnd]
        rfl
      · have hapart := hapart.resolve_left hws
        rw [if_neg hws, ← hheap]
        exact resolve_congr fun q hq => mergeValues_frame row.task now hnd (hapart q hq)
  | write c =>
    obtain ⟨taskId, args, attempt, now, row, values, -, hcase⟩ := step_write h
    rcases hcase with ⟨row', -, rfl, -⟩ | ⟨-, rfl, -⟩ | ⟨e, -, rfl, -⟩ <;> exact hsame rfl rfl
  | delete taskId => exact hsame (step_delete h).1.heap rfl
  | deleteContext contextId => exact hsame (step_deleteContext h).1.heap rfl
  | getVersion taskId =>
    obtain ⟨rfl, -⟩ := step_getVersion h
    exact hsame rfl rfl
  | expireIdempotency contextId key => exact hsame (step_expire h).1.heap rfl

theorem BatchInv.resolve_run (hb : b.Sound cond Checked)
    (hcond : ∀ args row, ReadsExpected args row → cond args row) {tr : StorageTrace}
    (hrun : Run b.step (BatchOk ws) s tr s') (hs : BatchInv Checked ws s) :
    resolve s'.heap ws = inflateAll (mergesOf b ws s tr) (resolve s.heap ws) := by
  refine hrun.rel (I := BatchInv Checked ws) (R := fun s tr s' =>
    resolve s'.heap ws = inflateAll (mergesOf b ws s tr) (resolve s.heap ws))
    (fun _ _ _ _ hs hok hstep => hs.step hb hcond hok hstep) (fun _ _ => rfl) ?_ hs
  intro s a s₁ o tr s₂ hs _ _ hstep hrest
  rw [hrest, hs.resolve_step hb hcond hstep, mergesOf, hstep, inflateAll, inflateAll, inflateAll,
    List.foldl_append]

/-- Only its own write step moves a call that is between its halves. -/
theorem step_keeps_writing (h : b.step s a = some (s', o)) {c : CallId} {taskId : TaskId}
    {args : UpdateArgs Ref} {attempt : Nat} {now : Timestamp} {row : Row} {values : Values}
    (hcall : s.calls c = .writing taskId args attempt now row values) (ha : a ≠ .write c) :
    s'.calls c = .writing taskId args attempt now row values := by
  cases a with
  | create taskId contextId message key now => rw [(step_create h).2.2.1, hcall]
  | start c₁ taskId args =>
    obtain ⟨hidle, rfl, -⟩ := step_start h
    have hc : c ≠ c₁ := fun hc => by simp [← hc, hcall] at hidle
    rw [s.setCall_of_ne _ hc, hcall]
  | read c₁ now =>
    obtain ⟨taskId, args, attempt, hreading, h', hcase⟩ := step_read h
    have hc : c ≠ c₁ := fun hc => by simp [← hc, hcall] at hreading
    rcases hcase with ⟨e, -, rfl, -⟩ | ⟨row, values, -, rfl, -⟩ <;>
      rw [StorageState.setCall_of_ne _ _ hc, hcall]
  | write c₁ =>
    obtain ⟨taskId, args, attempt, now, row, values, -, hcase⟩ := step_write h
    have hc : c ≠ c₁ := fun hc => ha (by rw [hc])
    rcases hcase with ⟨row', -, rfl, -⟩ | ⟨-, rfl, -⟩ | ⟨e, -, rfl, -⟩
    · exact (s.setCall_of_ne _ hc).trans hcall
    · exact (s.setCall_of_ne _ hc).trans hcall
    · exact (s.setCall_of_ne _ hc).trans hcall
  | delete taskId => rw [(step_delete h).1.calls, hcall]
  | deleteContext contextId => rw [(step_deleteContext h).1.calls, hcall]
  | getVersion taskId =>
    obtain ⟨rfl, -⟩ := step_getVersion h
    exact hcall
  | expireIdempotency contextId key => rw [(step_expire h).1.calls, hcall]

theorem calls_of_no_write {ok : StorageState → StorageAction → Prop} {tr : StorageTrace}
    (hrun : Run b.step ok s tr s') {c : CallId} {taskId : TaskId} {args : UpdateArgs Ref}
    {attempt : Nat} {now : Timestamp} {row : Row} {values : Values}
    (hcall : s.calls c = .writing taskId args attempt now row values)
    (hwrite : ∀ o, (.write c, o) ∉ tr) :
    s'.calls c = .writing taskId args attempt now row values := by
  induction hrun with
  | nil s => exact hcall
  | cons hstep _ _ ih =>
    refine ih (step_keeps_writing hstep hcall fun ha => ?_) fun o ho =>
      hwrite o (List.mem_cons_of_mem _ ho)
    rw [ha] at hwrite
    exact hwrite _ List.mem_cons_self

end

/-! ### The attempt that commits -/

/-- A run in which the batch `ws` is committed: after `before` some call with this
batch reads and merges, and when it gets to its write, after `between`, it replaces
the row `cur` by `new`. -/
structure BatchCommit (b : Backend) (ws : List (ArtifactWrite Ref)) where
  init : StorageState
  before : StorageTrace
  atRead : StorageState
  merged : StorageState
  between : StorageTrace
  atWrite : StorageState
  final : StorageState
  call : CallId
  taskId : TaskId
  args : UpdateArgs Ref
  now : Timestamp
  version : Nat
  cur : Row
  new : Row
  quiescent : Quiescent init
  batch : args.artifacts = ws
  runBefore : Run b.step (BatchOk ws) init before atRead
  read : b.step atRead (.read call now) = some (merged, .inFlight)
  runBetween : Run b.step (BatchOk ws) merged between atWrite
  pending : ∀ o, (.write call, o) ∉ between
  write : b.step atWrite (.write call) = some (final, .committed taskId args now version)
  replaced : atWrite.rows.lookup taskId = some cur
  committed : final.rows.lookup taskId = some new

/-- The rows the batch was merged with by attempts that were lost. -/
def BatchCommit.lost {b : Backend} {ws : List (ArtifactWrite Ref)} (r : BatchCommit b ws) :
    List (List String) :=
  mergesOf b ws r.init r.before

/-- The batch as the caller built it. -/
def BatchCommit.built {b : Backend} {ws : List (ArtifactWrite Ref)} (r : BatchCommit b ws) :
    List (ArtifactWrite Artifact) :=
  resolve r.init.heap ws

theorem BatchCommit.artifacts {b : Backend} {cond : UpdateArgs Ref → Row → Prop}
    {Checked : TaskId → UpdateArgs Ref → Row → Prop} {ws : List (ArtifactWrite Ref)}
    (hb : b.Sound cond Checked) (hcond : ∀ args row, ReadsExpected args row → cond args row)
    (r : BatchCommit b ws) :
    r.new.task.artifacts = applyWrites r.cur.task.artifacts (inflateAll r.lost r.built) := by
  have hstart : BatchInv Checked ws r.init := r.quiescent.batchInv
  have hinv : BatchInv Checked ws r.atRead :=
    r.runBefore.inv (fun _ _ _ _ hs hok hstep => hs.step hb hcond hok hstep) hstart
  have hheap := hstart.resolve_run hb hcond r.runBefore
  obtain ⟨taskId, args, attempt, hreading, h', hcase⟩ := step_read r.read
  obtain ⟨e, -, -, ho⟩ | ⟨row, values, hread, hmerged, -⟩ := hcase
  · exact absurd ho (by simp)
  have hcond' := hinv.issued.readMeets hcond (.read r.call r.now)
  obtain ⟨-, hmerge, -⟩ := hb.read_ok hread fun q hq =>
    hcond' r.call r.now taskId args attempt q rfl hreading hq
  -- the call carries its merge unchanged from the read to the write
  have hwriting : r.merged.calls r.call = .writing taskId args attempt r.now row values := by
    rw [hmerged, StorageState.setCall_self]
  have hwriting' := calls_of_no_write r.runBetween hwriting r.pending
  have hinv' : BatchInv Checked ws r.atWrite :=
    r.runBetween.inv (fun _ _ _ _ hs hok hstep => hs.step hb hcond hok hstep)
      (hinv.step (a := .read r.call r.now) hb hcond ⟨trivial, trivial⟩ r.read)
  obtain ⟨taskId₁, args₁, attempt₁, now₁, row₁, values₁, hcall₁, hcase⟩ := step_write r.write
  rw [hwriting'] at hcall₁
  simp only [CallState.writing.injEq] at hcall₁
  obtain ⟨rfl, rfl, rfl, rfl, rfl, rfl⟩ := hcall₁
  obtain ⟨row', hwrite, hfinal, ho⟩ | ⟨-, -, ho⟩ | ⟨e, -, -, ho⟩ := hcase
  · simp only [StorageOutcome.committed.injEq] at ho
    obtain ⟨htask, hargs, -, -⟩ := ho
    obtain ⟨cur, -, hcur, -, htask', -, -, hrow'⟩ := hinv'.storage.commit hb hwriting' hwrite
    have hcur' : r.cur = cur := by
      have := r.replaced
      rw [htask, hcur] at this
      exact (Option.some_inj.mp this).symm
    have hnew : r.new = row' := by
      have := r.committed
      rw [htask, hfinal] at this
      exact (Option.some_inj.mp (this.symm.trans (AList.lookup_insert _)))
    have hbatch : args.artifacts = ws := hargs ▸ r.batch
    have hnd : (refs args.artifacts).Nodup :=
      (hinv.pending r.call taskId args (by rw [hreading]; rfl)).1
    have hvalues : values = (mergeValues r.atRead.heap row.task args r.now).2 := by rw [hmerge]
    rw [hnew, hrow', hcur']
    show (values.applyTo cur.task).artifacts = _
    rw [htask', hvalues, artifacts_mergeValues row.task r.now hnd, hbatch, hheap]
    rfl
  · exact absurd ho (by simp)
  · exact absurd ho (by simp)

/-- **Batches and lost races.**  What the attempt that commits writes is the fold of
the batch as the caller built it, over the artifacts of the version it replaces, iff
every lost merge of the batch was safe to lose. -/
theorem batch_committed_iff {b : Backend}
    (hb : b = SQLStorageBase.backend ∨ b = RedisStorage.backend) {ws : List (ArtifactWrite Ref)}
    (r : BatchCommit b ws) :
    r.new.task.artifacts = applyWrites r.cur.task.artifacts r.built ↔
      ∀ present ∈ r.lost, retrySafe present r.built = true := by
  rw [← applyWrites_inflateAll_iff r.lost r.built r.cur.task.artifacts]
  rcases hb with rfl | rfl
  · rw [r.artifacts SQLStorageBase.sound fun _ _ _ => trivial]
  · rw [r.artifacts RedisStorage.sound fun _ _ h => h]

/-- Two writes of one artifact, the second of which appends to it or replaces it. -/
def twoWrites (append : Bool) : List (ArtifactWrite Ref) := [⟨0, false⟩, ⟨1, append⟩]

def noArtifacts : StorageState :=
  .single "t" ⟨initialTask "t" "ctx" ⟨.user, [], "m", "", ""⟩ none "t0", 1, none⟩ fun r =>
    ⟨"a", "", "", [{ text := some (if r = 0 then "x" else "y") }]⟩

/-- The blind call 0 merges the batch and then loses its race to call 1. -/
def lostRace (append : Bool) : List StorageAction :=
  [.start 0 "t" { artifacts := twoWrites append }, .read 0 "t1",
    .start 1 "t" { state := some .working }, .read 1 "t2", .write 1, .write 0]

def afterRace (append : Bool) (more : List StorageAction) : StorageState :=
  finalState SQLStorageBase.backend.step (BatchOk (twoWrites append)) noArtifacts
    (lostRace append ++ more)

/-- The second attempt of call 0. -/
def secondAttempt (append : Bool) : BatchCommit SQLStorageBase.backend (twoWrites append) where
  init := noArtifacts
  before := traceOf SQLStorageBase.backend.step (BatchOk (twoWrites append)) noArtifacts
    (lostRace append)
  atRead := afterRace append []
  merged := afterRace append [.read 0 "t3"]
  between := []
  atWrite := afterRace append [.read 0 "t3"]
  final := afterRace append [.read 0 "t3", .write 0]
  call := 0
  taskId := "t"
  args := { artifacts := twoWrites append }
  now := "t3"
  version := 3
  cur := ((afterRace append [.read 0 "t3"]).rows.lookup "t").get (by cases append <;> rfl)
  new := ((afterRace append [.read 0 "t3", .write 0]).rows.lookup "t").get
    (by cases append <;> rfl)
  quiescent := StorageState.single_quiescent _ _ _
  batch := rfl
  runBefore := run_finalState _ _ _ _ (by cases append <;> rfl)
  read := by cases append <;> rfl
  runBetween := Run.nil _
  pending := by simp
  write := by cases append <;> rfl
  replaced := by cases append <;> rfl
  committed := by cases append <;> rfl

/-- A replaced first write may be lost: the second attempt writes the batch as built. -/
theorem secondAttempt_replace :
    (secondAttempt false).lost = [[]] ∧
      (secondAttempt false).new.task.artifacts =
        applyWrites (secondAttempt false).cur.task.artifacts (secondAttempt false).built :=
  ⟨by decide, (batch_committed_iff (Or.inl rfl) (secondAttempt false)).mpr (by decide)⟩

/-- An appended second write is there twice after the second attempt. -/
theorem secondAttempt_append :
    ¬ ∀ (ws : List (ArtifactWrite Ref)) (r : BatchCommit SQLStorageBase.backend ws),
      r.new.task.artifacts = applyWrites r.cur.task.artifacts r.built := by
  intro h
  have heq := h _ (secondAttempt true)
  exact absurd heq (by decide)

end A2AKit
