/-
Writes of the emitter are atomic.

The proofs about the programs of a task speak of its `TaskData` and use assertions
that the other parties keep (`Kept`).  For `update_task` of the emitter there is one
rule, `UpdateRule.wp`.  It is given an assertion `J` that holds before the call and
survives every merge that is lost, and says that the call either commits at once, on
the row that is stored at that moment, or leaves the row alone.  On SQL and Redis this
is so although the merge and the guarded write are two steps: a commit needs the
version that was merged, and with that version the row is still the one that was read.

* `UpdateRule.steps` — the rule for the retry loop, at these assertions;
* `Fails.refused` — what each error of a storage says about the stored row;
* `UpdateRule.wp` — the rule for the emitter.
-/
import A2AKit.Rules

namespace A2AKit

/-- What the rules speak of. -/
structure TaskData where
  row : Option Row
  heap : Heap
  next : Ref
  cancelled : Bool
  inScope : Bool
  others : List (ArtifactWrite Artifact)
  written : List TaskState
  published : List (StreamEvent Artifact)

def World.data (w : World) : TaskData :=
  ⟨w.row, w.heap, w.next, w.cancelled, w.inScope, w.others, w.written, w.published⟩

/-- What the other parties may do to the data. -/
inductive DataStep (T : Setting) : TaskData → TaskData → Prop
  | write {d : TaskData} {row : Row} {h : Heap} {args : UpdateArgs Ref} {now : Timestamp} :
      T.writes args → d.row = some row →
      terminalGuard T.taskId row.task.status.state args.state = none →
      DataStep T d { d with
        row := some { row with
          task := InMemoryStorage.updatedTask h row.task args now, version := row.version + 1 }
        others := d.others ++ resolve h args.artifacts }
  | delete {d : TaskData} : T.deletes → DataStep T d { d with row := none }
  | cancel {d : TaskData} : T.cancels → DataStep T d { d with cancelled := true }

/-- The other parties keep `J`. -/
def Kept (T : Setting) (J : TaskData → Prop) : Prop := ∀ d d', DataStep T d d' → J d → J d'

section

variable {T : Setting} {w w' : World}

theorem data_busStep {a : BusAction (StreamEvent Ref)} (h : w.busStep T.cfg a = some w') :
    w'.data = w.data := by
  obtain ⟨out, -, rfl⟩ := World.busStep_some h
  rfl

theorem EnvStep.data (h : EnvStep T w w') : w'.data = w.data ∨ DataStep T w.data w'.data := by
  cases h with
  | write hargs hrow hguard => exact Or.inr (DataStep.write hargs hrow hguard)
  | delete hdel => exact Or.inr (DataStep.delete hdel)
  | cancel hc => exact Or.inr (DataStep.cancel hc)
  | ambient => exact Or.inl rfl
  | bus _ hbus => exact Or.inl (data_busStep hbus)
  | load => exact Or.inl rfl

theorem Kept.stable {J : TaskData → Prop} (hJ : Kept T J) : T.system.Stable fun w => J w.data := by
  intro w w' hstep hw
  rcases EnvStep.data hstep with heq | hdata
  · show J w'.data
    rw [heq]
    exact hw
  · exact hJ _ _ hdata hw

theorem Kept.rely {J : TaskData → Prop} (hJ : Kept T J) (h : T.system.Rely w w')
    (hw : J w.data) : J w'.data :=
  hJ.stable.rely h hw

theorem Kept.and {J J' : TaskData → Prop} (hJ : Kept T J) (hJ' : Kept T J') :
    Kept T fun d => J d ∧ J' d := fun d d' hstep hd =>
  ⟨hJ d d' hstep hd.1, hJ' d d' hstep hd.2⟩

theorem Kept.or {J J' : TaskData → Prop} (hJ : Kept T J) (hJ' : Kept T J') :
    Kept T fun d => J d ∨ J' d := fun d d' hstep hd =>
  hd.imp (hJ d d' hstep) (hJ' d d' hstep)

theorem Kept.imp {J : TaskData → Prop} {p : Prop} (hJ : p → Kept T J) :
    Kept T fun d => p → J d := fun d d' hstep hd hp =>
  hJ hp d d' hstep (hd hp)

theorem Kept.const (p : Prop) : Kept T fun _ => p := fun _ _ _ h => h

end

/-! ### Facts that other parties keep -/

/-- The task is terminal or gone. -/
def TaskData.Ended (d : TaskData) : Prop :=
  ∀ row, d.row = some row → row.task.status.state.isTerminal = true

/-- A version that `get_version` has returned. -/
def TaskData.Seen (d : TaskData) : Option Nat → Prop
  | some v => ∀ row, d.row = some row → v ≤ row.version
  | none => d.row = none

/-- Nobody else writes or deletes the task. -/
structure Setting.Alone (T : Setting) : Prop where
  writes : ∀ args, ¬ T.writes args
  deletes : ¬ T.deletes

/-- Without other writers, `v` is the stored version. -/
def TaskData.Exact (T : Setting) (v : Option Nat) (d : TaskData) : Prop :=
  T.Alone → ∀ row, d.row = some row → v = some row.version

/-- A cancellation may be delivered. -/
def TaskData.Interruptible (d : TaskData) : Prop := d.cancelled = true ∧ d.inScope = true

/-- A task that `load_task` has returned. -/
def TaskData.Loaded (d : TaskData) : Option Task → Prop
  | some task => task.status.state.isTerminal = true → d.Ended
  | none => d.row = none

section

variable {T : Setting}

theorem DataStep.row_none {d d' : TaskData} (h : DataStep T d d') (hd : d.row = none) :
    d'.row = none := by
  cases h with
  | write _ hrow _ => simp [hd] at hrow
  | delete _ => rfl
  | cancel _ => exact hd

theorem kept_ended : Kept T TaskData.Ended := by
  intro d d' hstep hd
  cases hstep with
  | @write row h args now _ hrow hguard =>
    intro row' hrow'
    obtain rfl := Option.some_inj.mp hrow'
    have hterm := hd row hrow
    -- a terminal task takes no new state
    rcases hstate : args.state with _ | state
    · simpa [hstate] using hterm
    · simp [terminalGuard, hstate, hterm] at hguard
  | delete _ => simp [TaskData.Ended]
  | cancel _ => exact hd

theorem kept_seen (v : Option Nat) : Kept T fun d => d.Seen v := by
  intro d d' hstep hd
  cases v with
  | none => exact hstep.row_none hd
  | some v =>
    cases hstep with
    | @write row h args now _ hrow _ =>
      intro row' hrow'
      obtain rfl := Option.some_inj.mp hrow'
      have hle : v ≤ row.version := hd row hrow
      show v ≤ row.version + 1
      omega
    | delete _ => simp [TaskData.Seen]
    | cancel _ => exact hd

theorem DataStep.inScope {d d' : TaskData} (h : DataStep T d d') : d'.inScope = d.inScope := by
  cases h <;> rfl

theorem kept_inScope (b : Bool) : Kept T fun d => d.inScope = b := fun _ _ hstep hd =>
  hstep.inScope.trans hd

theorem kept_interruptible : Kept T TaskData.Interruptible := by
  intro d d' hstep hd
  refine ⟨?_, hstep.inScope.trans hd.2⟩
  cases hstep with
  | write _ _ _ => exact hd.1
  | delete _ => exact hd.1
  | cancel _ => rfl

/-- Without other writers the row stays what it is. -/
theorem DataStep.row_alone {d d' : TaskData} (h : DataStep T d d') (hT : T.Alone) :
    d'.row = d.row := by
  cases h with
  | write hargs _ _ => exact absurd hargs (hT.writes _)
  | delete hdel => exact absurd hdel hT.deletes
  | cancel _ => rfl

theorem kept_exact (v : Option Nat) : Kept T (TaskData.Exact T v) := by
  intro d d' hstep hd hT row hrow
  exact hd hT row ((hstep.row_alone hT).symm.trans hrow)

theorem kept_loaded (t : Option Task) : Kept T fun d => d.Loaded t := by
  cases t with
  | none => exact fun d d' hstep hd => hstep.row_none hd
  | some task => exact Kept.imp fun _ => kept_ended

end

/-! ### Single operations -/

section

variable {T : Setting} {σ α : Type} {s : σ} {w : World} {Q : Except Exc α → σ → World → Prop}
  {J : TaskData → Prop}

theorem wp_return {a : α} (hJ : Kept T J) (hw : J w.data) (h : ∀ w, J w.data → Q (.ok a) s w) :
    (pure a : TaskM σ α).wp T.system Q s w :=
  Act.wp_pure fun w' hrely => h w' (hJ.rely hrely hw)

theorem wp_raise {x : Exc} (hJ : Kept T J) (hw : J w.data)
    (h : ∀ w, J w.data → Q (.error x) s w) : (throw x : TaskM σ α).wp T.system Q s w :=
  Act.wp_throw fun w' hrely => h w' (hJ.rely hrely hw)

theorem wp_get {Q : Except Exc σ → σ → World → Prop} (hJ : Kept T J) (hw : J w.data)
    (h : ∀ w, J w.data → Q (.ok s) s w) : (Act.get : TaskM σ σ).wp T.system Q s w :=
  Act.wp_get fun w' hrely => h w' (hJ.rely hrely hw)

theorem wp_modify {Q : Except Exc Unit → σ → World → Prop} {f : σ → σ} (hJ : Kept T J)
    (hw : J w.data) (h : ∀ w, J w.data → Q (.ok ()) (f s) w) :
    (Act.modify f : TaskM σ Unit).wp T.system Q s w :=
  Act.wp_modify fun w' hrely => h w' (hJ.rely hrely hw)

/-- An operation, with what holds after it as `K`. -/
theorem wp_op {e : Op α} {K : α → TaskData → Prop} (hJ : Kept T J) (hw : J w.data)
    (hK : ∀ a, Kept T (K a)) (hreq : ∀ w, J w.data → World.required e w)
    (h : ∀ w w' a, J w.data → T.ok e w → World.perform T.cfg T.taskId e w = some (w', a) →
      K a w'.data)
    (hQ : ∀ a w, K a w.data → Q (.ok a) s w) :
    (Act.perform e : TaskM σ α).wp T.system Q s w := by
  refine Act.wp_perform fun w₁ hrely hok => ?_
  have hw₁ : J w₁.data := hJ.rely hrely hw
  refine ⟨hreq w₁ hw₁, fun w₂ a hperf w₃ hrely' => hQ a w₃ ?_⟩
  exact (hK a).rely hrely' (h w₁ w₂ a hw₁ hok hperf)

/-- An operation that leaves the data alone. -/
theorem wp_query {e : Op α} (hJ : Kept T J) (hw : J w.data)
    (hreq : ∀ w, J w.data → World.required e w)
    (he : ∀ w w' a, World.perform T.cfg T.taskId e w = some (w', a) → w'.data = w.data)
    (hQ : ∀ a w, J w.data → Q (.ok a) s w) : (Act.perform e : TaskM σ α).wp T.system Q s w := by
  refine wp_op hJ hw (K := fun _ => J) (fun _ => hJ) hreq ?_ hQ
  intro w w' a hw _ hperf
  show J w'.data
  rw [he w w' a hperf]
  exact hw

/-- An operation that only asks. -/
theorem wp_ask {e : Op α} (hJ : Kept T J) (hw : J w.data)
    (hreq : ∀ w, J w.data → World.required e w)
    (he : ∀ w, ∃ a, World.perform T.cfg T.taskId e w = some (w, a))
    (hQ : ∀ a w, J w.data → Q (.ok a) s w) : (Act.perform e : TaskM σ α).wp T.system Q s w := by
  refine wp_query hJ hw hreq (fun w w' a hperf => ?_) hQ
  obtain ⟨a', ha'⟩ := he w
  rw [(Prod.mk.inj (Option.some_inj.mp (ha'.symm.trans hperf))).1]

end

section

variable {T : Setting} {σ : Type} {s : σ} {w : World} {J : TaskData → Prop}

theorem World.interruptible (h : w.interrupted = true) : w.data.Interruptible := by
  rw [World.interrupted, Bool.and_eq_true, Bool.and_eq_true] at h
  exact h.1

theorem wp_checkpoint {Q : Except Exc Unit → σ → World → Prop} {pt : AwaitPoint}
    {K : TaskData → Prop} (hJ : Kept T J) (hw : J w.data) (hK : Kept T K)
    (hx : ∀ w, J w.data → T.ok (.await pt) w → w.interrupted = true → K w.data)
    (hQ : ∀ w, J w.data → Q (.ok ()) s w) (hQx : ∀ w, K w.data → Q (.error .cancelled) s w) :
    (checkpoint pt : TaskM σ Unit).wp T.system Q s w := by
  refine Act.wp_bind (wp_op hJ hw
    (K := fun raised d => if raised then K d else J d) ?_ (fun _ _ => trivial) ?_ ?_)
  · intro raised
    cases raised with
    | true => exact hK
    | false => exact hJ
  · intro w w' raised hw hok hperf
    simp only [World.perform, Option.some_inj, Prod.mk.injEq] at hperf
    obtain ⟨rfl, hraised⟩ := hperf
    cases raised with
    | true => exact hx w hw hok hraised
    | false => exact hw
  · intro raised w hw
    cases raised with
    | true => exact wp_raise hK hw hQx
    | false => exact wp_return hJ hw hQ

/-- An await between two writes. -/
theorem wp_checkpoint_plain {Q : Except Exc Unit → σ → World → Prop} {pt : AwaitPoint}
    (hJ : Kept T J) (hw : J w.data) (hQ : ∀ w, J w.data → Q (.ok ()) s w)
    (hx : ∀ w, J w.data → w.data.Interruptible → Q (.error .cancelled) s w) :
    (checkpoint pt : TaskM σ Unit).wp T.system Q s w :=
  wp_checkpoint hJ hw (hJ.and kept_interruptible) (fun _ hw _ hi => ⟨hw, World.interruptible hi⟩) hQ
    fun w hw => hx w hw.1 hw.2

theorem wp_storageCheckpoint {Q : Except Exc Unit → σ → World → Prop} (k : StorageKind)
    (hJ : Kept T J) (hw : J w.data) (hQ : ∀ w, J w.data → Q (.ok ()) s w)
    (hx : ∀ w, J w.data → w.data.Interruptible → Q (.error .cancelled) s w) :
    (k.checkpoint : TaskM σ Unit).wp T.system Q s w := by
  cases k with
  | memory => exact wp_return hJ hw hQ
  | split b => exact wp_checkpoint_plain hJ hw hQ hx

theorem wp_getVersion {Q : Except Exc (Option Nat) → σ → World → Prop} (k : StorageKind)
    (hJ : Kept T J) (hw : J w.data)
    (hQ : ∀ v w, J w.data → w.data.Seen v → w.data.Exact T v → Q (.ok v) s w)
    (hx : ∀ w, J w.data → w.data.Interruptible → Q (.error .cancelled) s w) :
    (getVersion k : TaskM σ _).wp T.system Q s w := by
  refine Act.wp_bind (wp_storageCheckpoint k hJ hw ?_ hx)
  intro w hw
  refine wp_op hJ hw (K := fun v d => J d ∧ d.Seen v ∧ d.Exact T v)
    (fun v => hJ.and ((kept_seen v).and (kept_exact v)))
    (fun _ _ => trivial) ?_ fun v w hw => hQ v w hw.1 hw.2.1 hw.2.2
  intro w w' v hw _ hperf
  simp only [World.perform, Option.some_inj, Prod.mk.injEq] at hperf
  obtain ⟨rfl, rfl⟩ := hperf
  refine ⟨hw, ?_, fun _ row hrow => ?_⟩
  · rcases hrow : w.row with _ | row
    · exact hrow
    · intro row' hrow'
      obtain rfl : row = row' := Option.some_inj.mp (hrow.symm.trans hrow')
      exact le_refl _
  · have hrow' : w.row = some row := hrow
    rw [hrow']
    rfl

/-- `load_task`, where the operation was admitted. -/
theorem wp_loadTask {Q : Except Exc (Option Task) → σ → World → Prop} (k : StorageKind)
    (site : Site) (hJ : Kept T J) (hw : J w.data)
    (hQ : ∀ t w, J w.data → w.data.Loaded t →
      (∃ w₀, J w₀.data ∧ T.ok (.loadTask site) w₀ ∧ w₀.row.map Row.task = t) → Q (.ok t) s w)
    (hx : ∀ w, J w.data → w.data.Interruptible → Q (.error .cancelled) s w) :
    (loadTask k site : TaskM σ _).wp T.system Q s w := by
  refine Act.wp_bind (wp_storageCheckpoint k hJ hw ?_ hx)
  intro w hw
  refine wp_op hJ hw (K := fun t d => J d ∧ d.Loaded t ∧
      ∃ w₀, J w₀.data ∧ T.ok (.loadTask site) w₀ ∧ w₀.row.map Row.task = t)
    (fun t => hJ.and ((kept_loaded t).and (Kept.const _))) (fun _ _ => trivial) ?_
    fun t w hw => hQ t w hw.1 hw.2.1 hw.2.2
  intro w w' t hw hok hperf
  simp only [World.perform, Option.some_inj, Prod.mk.injEq] at hperf
  obtain ⟨rfl, rfl⟩ := hperf
  refine ⟨hw, ?_, w, hw, hok, rfl⟩
  rcases hrow : w.row with _ | row
  · exact hrow
  · intro hterm row' hrow'
    obtain rfl : row = row' := Option.some_inj.mp (hrow.symm.trans hrow')
    exact hterm

theorem wp_publish {Q : Except Exc Nat → σ → World → Prop} {K : TaskData → Prop}
    (event : StreamEvent Ref) (hJ : Kept T J) (hw : J w.data) (hK : Kept T K)
    (h : ∀ d, J d → K { d with published := d.published ++ [event.read d.heap] })
    (hQ : ∀ id w, K w.data → Q (.ok id) s w) :
    (Act.perform (.publish event) : TaskM σ Nat).wp T.system Q s w := by
  refine wp_op hJ hw (K := fun _ => K) (fun _ => hK) (fun _ _ => trivial) ?_ hQ
  intro w w' id hw _ hperf
  simp only [World.perform, World.busStep, Option.map_map, Option.map_eq_some_iff] at hperf
  obtain ⟨out, -, hw'⟩ := hperf
  obtain ⟨rfl, -⟩ := Prod.mk.inj hw'
  exact h _ hw

theorem wp_published {Q : Except Exc Unit → σ → World → Prop} (id : Nat) (hJ : Kept T J)
    (hw : J w.data) (hQ : ∀ w, J w.data → Q (.ok ()) s w) :
    (Act.perform (.published id) : TaskM σ Unit).wp T.system Q s w := by
  refine wp_query hJ hw (fun _ _ => trivial) ?_ fun _ => hQ
  intro w w' a hperf
  simp only [World.perform] at hperf
  split at hperf
  · simp at hperf
  · simp only [Option.some_inj, Prod.mk.injEq] at hperf
    rw [hperf.1]

/-- Publishing appends the event, whether or not the publisher is cancelled while it
waits for the lock. -/
theorem wp_sendEvent {Q : Except Exc Unit → σ → World → Prop} {K : TaskData → Prop}
    (shielded : Bool) (event : StreamEvent Ref) (hJ : Kept T J) (hw : J w.data) (hK : Kept T K)
    (h : ∀ d, J d → K { d with published := d.published ++ [event.read d.heap] })
    (hQ : ∀ w, K w.data → Q (.ok ()) s w)
    (hx : shielded = false → ∀ w, K w.data → w.data.Interruptible → Q (.error .cancelled) s w) :
    (Emitter.sendEvent shielded event : TaskM σ Unit).wp T.system Q s w := by
  refine Act.wp_bind (wp_publish event hJ hw hK h fun id w hw => ?_)
  cases shielded with
  | true => exact wp_published id hK hw hQ
  | false =>
    refine Act.wp_tryCatch (Act.wp_bind (wp_checkpoint_plain hK hw ?_ ?_))
    · exact fun w hw => wp_published id hK hw hQ
    · intro w hw hc
      refine Act.wp_bind (wp_query (hK.and kept_interruptible) ⟨hw, hc⟩ (fun _ _ => trivial) ?_ ?_)
      · intro w w' a hperf
        simp only [World.perform] at hperf
        split at hperf
        · simp only [Option.some_inj, Prod.mk.injEq] at hperf
          rw [← hperf.1]
          rfl
        · simp at hperf
      · intro _ w hw
        exact wp_raise (hK.and kept_interruptible) hw fun w hw => hx rfl w hw.1 hw.2

end

/-! ### What the storages promise -/

/-- What a split storage has checked when its read returns a merge. -/
def SplitStorage.Checked : SplitStorage → TaskId → UpdateArgs Ref → Row → Prop
  | .sql => SQLStorageBase.Checked
  | .redis => fun _ => ReadsExpected

theorem SplitStorage.sound : ∀ b : SplitStorage, b.backend.Sound ReadsExpected b.Checked
  | .sql =>
    { read_ok := fun h _ => SQLStorageBase.sound.read_ok h fun _ _ => trivial
      read_error := SQLStorageBase.sound.read_error
      write_ok := SQLStorageBase.sound.write_ok }
  | .redis => RedisStorage.sound

/-- What an error says about the stored row. -/
inductive Refused (args : UpdateArgs Ref) (stored : Option Row) : StorageError → Prop
  | notFound {message : String} : stored = none → Refused args stored (.taskNotFound message)
  | terminal {message : String} {row : Row} : stored = some row →
      row.task.status.state.isTerminal = true →
      -- the version is checked first
      (∀ n, args.expectedVersion = some n → row.version = n) →
      Refused args stored (.taskTerminalState message)
  | conflict {message : String} {current : Option Nat} :
      (∀ row, stored = some row → args.expectedVersion ≠ some row.version) →
      (∀ v, current = some v → ∃ row, stored = some row ∧ row.version = v) →
      Refused args stored (.concurrency message current)

section

variable {taskId : TaskId} {args : UpdateArgs Ref} {stored : Option Row} {e : StorageError}

theorem refused_of_terminalGuard {row : Row} (hstored : stored = some row)
    (hver : args.expectedVersion.filter (· ≠ row.version) = none)
    (h : terminalGuard taskId row.task.status.state args.state = some e) :
    Refused args stored e := by
  simp only [terminalGuard] at h
  split at h
  · split at h
    · rename_i hterm
      obtain rfl := Option.some_inj.mp h
      refine .terminal hstored hterm fun n hn => ?_
      have hpass := Option.filter_eq_none_iff.mp hver n hn
      have heq : n = row.version := by simpa using hpass
      exact heq.symm
    · simp at h
  · simp at h

theorem refused_of_filter {row : Row} {expected : Nat} (hstored : stored = some row)
    (h : args.expectedVersion.filter (· ≠ row.version) = some expected) :
    Refused args stored (versionMismatch taskId expected row.version) := by
  obtain ⟨hexp, hne⟩ := Option.filter_eq_some_iff.mp h
  refine .conflict (fun row' hrow' heq => ?_) fun v hv => ⟨row, hstored, Option.some_inj.mp hv⟩
  obtain rfl : row = row' := Option.some_inj.mp (hstored.symm.trans hrow')
  rw [hexp, Option.some_inj] at heq
  simp [heq] at hne

theorem InMemoryStorage.refused {h : Heap} {row : Row} {now : Timestamp}
    (herr : InMemoryStorage.updateTask taskId h (some (row.task, row.version)) args now =
      .error e) : Refused args (some row) e := by
  simp only [InMemoryStorage.updateTask] at herr
  split at herr
  · rename_i expected hexp
    obtain rfl := Except.error.inj herr
    exact refused_of_filter rfl hexp
  · rename_i hver
    split at herr
    · rename_i hguard
      obtain rfl := Except.error.inj herr
      exact refused_of_terminalGuard rfl hver hguard
    · simp at herr

/-- A pinned write that finds its version, and no terminal task to change, commits. -/
theorem SplitStorage.commits {b : SplitStorage} (attempt : Nat) {row cur : Row} (values : Values)
    (hchecked : b.Checked taskId args row) (hpin : args.expectedVersion = some cur.version)
    (hstate : terminalGuard taskId cur.task.status.state args.state = none) :
    ∃ row', b.backend.updateWrite taskId (some cur) args attempt row values = .committed row' := by
  cases b with
  | sql =>
    have hver : cur.version = row.version := hchecked.1 _ hpin
    simp [SplitStorage.backend, SQLStorageBase.backend, SQLStorageBase.updateWrite, Option.filter,
      hver]
  | redis =>
    have hfilter : (args.state.filter fun _ => cur.task.status.state.isTerminal) = none := by
      rcases hs : args.state with _ | state
      · rfl
      · simpa [hs, terminalGuard, Option.filter] using hstate
    simp [SplitStorage.backend, RedisStorage.backend, RedisStorage.updateWrite,
      RedisStorage.updateTaskLua, hpin, hfilter]

theorem SplitStorage.refused_read {b : SplitStorage} {h h' : Heap} {now : Timestamp}
    (herr : b.backend.updateRead taskId h stored args now = (h', .error e)) :
    Refused args stored e := by
  cases b with
  | sql =>
    change SQLStorageBase.updateRead taskId h stored args now = _ at herr
    simp only [SQLStorageBase.updateRead] at herr
    split at herr
    · obtain rfl := Except.error.inj (Prod.mk.inj herr).2
      exact .notFound rfl
    · split at herr
      · rename_i hexp
        obtain rfl := Except.error.inj (Prod.mk.inj herr).2
        exact refused_of_filter rfl hexp
      · rename_i hver
        split at herr
        · rename_i hguard
          obtain rfl := Except.error.inj (Prod.mk.inj herr).2
          exact refused_of_terminalGuard rfl hver hguard
        · simp at herr
  | redis =>
    change RedisStorage.updateRead taskId h stored args now = _ at herr
    simp only [RedisStorage.updateRead] at herr
    split at herr
    · obtain rfl := Except.error.inj (Prod.mk.inj herr).2
      exact .notFound rfl
    · simp at herr

theorem RedisStorage.versionMismatch_reply {expected current : Nat} {newState : Option TaskState}
    {values : Values}
    (h : RedisStorage.updateTaskLua stored expected newState values =
      .error (.versionMismatch current)) :
    ∃ cur, stored = some cur ∧ cur.version = current ∧ cur.version ≠ expected := by
  simp only [RedisStorage.updateTaskLua] at h
  split at h
  · simp at h
  · rename_i cur
    split at h
    · rename_i hne
      simp only [Except.error.injEq, RedisStorage.ErrorReply.versionMismatch.injEq] at h
      exact ⟨cur, rfl, h, hne⟩
    · split at h <;> simp at h

theorem SplitStorage.refused_write {b : SplitStorage} {attempt : Nat} {row : Row} {values : Values}
    (hchecked : b.Checked taskId args row)
    (herr : b.backend.updateWrite taskId stored args attempt row values = .raised e) :
    Refused args stored e := by
  cases b with
  | sql =>
    change SQLStorageBase.updateWrite taskId stored args attempt row values = _ at herr
    simp only [SQLStorageBase.updateWrite] at herr
    split at herr
    · simp at herr
    · rename_i hnone
      split at herr
      · obtain rfl := WriteOutcome.raised.inj herr
        refine .conflict (fun cur hcur heq => ?_) fun _ hv => by cases hv
        -- the read has found the pinned version, so the row has moved on since
        have hver : cur.version = row.version := hchecked.1 cur.version heq
        simp [hcur, hver] at hnone
      · simp at herr
  | redis =>
    change RedisStorage.updateWrite taskId stored args attempt row values = _ at herr
    simp only [RedisStorage.updateWrite] at herr
    split at herr
    · simp at herr
    · rename_i hlua
      obtain rfl := WriteOutcome.raised.inj herr
      refine .notFound ?_
      simp only [RedisStorage.updateTaskLua] at hlua
      split at hlua
      · rfl
      · split at hlua
        · simp at hlua
        · split at hlua <;> simp at hlua
    · rename_i current hlua
      obtain ⟨cur, rfl, rfl, hne⟩ := RedisStorage.versionMismatch_reply hlua
      split at herr
      · rename_i expected hexp
        obtain rfl := WriteOutcome.raised.inj herr
        refine .conflict (fun cur' hcur heq => ?_) fun v hv => ⟨cur, rfl, Option.some_inj.mp hv⟩
        obtain rfl := Option.some_inj.mp hcur
        simp [heq] at hne
      · rename_i hexp
        split at herr
        · obtain rfl := WriteOutcome.raised.inj herr
          exact .conflict (fun cur _ heq => by simp [hexp] at heq)
            fun v hv => ⟨cur, rfl, Option.some_inj.mp hv⟩
        · simp at herr
    · rename_i current new hlua
      obtain rfl := WriteOutcome.raised.inj herr
      simp only [RedisStorage.updateTaskLua] at hlua
      split at hlua
      · simp at hlua
      · rename_i cur
        split at hlua
        · simp at hlua
        · rename_i hver
          split at hlua
          · rename_i hfilter
            refine .terminal rfl (Option.filter_eq_some_iff.mp hfilter).2 fun n hn => ?_
            simpa [hn] using hver
          · simp at hlua

end

/-! ### The rule for a write -/

/-- The artifact objects after a merge; `InMemoryStorage` works on copies. -/
def StorageKind.mergedHeap :
    StorageKind → Heap → List Artifact → List (ArtifactWrite Ref) → Heap
  | .memory, h, _, _ => h
  | .split _, h, stored, ws => (mergeInPlace h stored ws).1

/-- A write at once. -/
def TaskData.commit (d : TaskData) (k : StorageKind) (row : Row) (args : UpdateArgs Ref)
    (now : Timestamp) : TaskData :=
  { d with
    row := some { row with
      task := InMemoryStorage.updatedTask d.heap row.task args now, version := row.version + 1 }
    heap := k.mergedHeap d.heap row.task.artifacts args.artifacts
    written := d.written ++ args.state.toList }

/-- The merge of the batch with `row`, without its commit. -/
def TaskData.merge (d : TaskData) (row : Row) (args : UpdateArgs Ref) : TaskData :=
  { d with heap := (mergeInPlace d.heap row.task.artifacts args.artifacts).1 }

/-- A merge that is not committed: the guarded write is refused or lost, or the call is
cancelled before it. -/
inductive LostMerge (T : Setting) (b : SplitStorage) (site : Site) (args : UpdateArgs Ref)
    (row : Row) (w : World) : Prop
  | write {attempt : Nat} {values : Values} : b.Checked T.taskId args row →
      T.ok (.updateWrite b site args attempt row values) w →
      (∀ row', b.backend.updateWrite T.taskId w.row args attempt row values ≠ .committed row') →
      LostMerge T b site args row w
  | cancelled : T.ok (.await (.merged site args row)) w → w.interrupted = true →
      LostMerge T b site args row w

/-- The call raises without a commit. -/
inductive Fails (T : Setting) (k : StorageKind) (site : Site) (args : UpdateArgs Ref)
    (w : World) : Exc → Prop
  | update {e : StorageError} : T.ok (.update site args) w →
      World.perform T.cfg T.taskId (.update site args) w = some (w, .error e) →
      Fails T k site args w (.storage e)
  | read {b : SplitStorage} {e : StorageError} {h : Heap} : k = .split b →
      T.ok (.updateRead b site args) w →
      b.backend.updateRead T.taskId w.heap w.row args w.ambient.now = (h, .error e) →
      Fails T k site args w (.storage e)
  | write {b : SplitStorage} {attempt : Nat} {row : Row} {values : Values} {e : StorageError} :
      k = .split b → b.Checked T.taskId args row →
      T.ok (.updateWrite b site args attempt row values) w →
      b.backend.updateWrite T.taskId w.row args attempt row values = .raised e →
      Fails T k site args w (.storage e)
  | cancelled : w.data.Interruptible → Fails T k site args w .cancelled

theorem Fails.refused {T : Setting} {k : StorageKind} {site : Site} {args : UpdateArgs Ref}
    {w : World} {e : StorageError} (h : Fails T k site args w (.storage e)) :
    Refused args w.row e := by
  cases h with
  | update _ hperf =>
    simp only [World.perform] at hperf
    split at hperf
    · rename_i hrow
      obtain rfl := Except.error.inj (Prod.mk.inj (Option.some_inj.mp hperf)).2
      exact .notFound hrow
    · rename_i row hrow
      split at hperf
      · rename_i herr
        obtain rfl := Except.error.inj (Prod.mk.inj (Option.some_inj.mp hperf)).2
        rw [hrow]
        exact InMemoryStorage.refused herr
      · simp at hperf
  | read _ _ herr => exact SplitStorage.refused_read herr
  | write _ hchecked _ herr => exact SplitStorage.refused_write hchecked herr

/-- What a call of `update_task` needs of the assertions around it: `J` before the
commit, `C v` once version `v` is committed, `X x` when the call has raised `x`. -/
structure UpdateRule (T : Setting) (k : StorageKind) (site : Site) (args : UpdateArgs Ref)
    (J : TaskData → Prop) (C : Nat → TaskData → Prop) (X : Exc → TaskData → Prop) : Prop where
  kept : Kept T J
  kept_commit : ∀ v, Kept T (C v)
  kept_raise : ∀ x, Kept T (X x)
  nodup : (refs args.artifacts).Nodup
  pinned : ∀ d row, J d → d.row = some row → ReadsExpected args row
  lost : ∀ b row d w, k = .split b → J d → w.data = d.merge row args →
    LostMerge T b site args row w → J (d.merge row args)
  commit : ∀ d row now, J d → d.row = some row →
    terminalGuard T.taskId row.task.status.state args.state = none →
    C (row.version + 1) (d.commit k row args now)
  interrupted : ∀ v w, C v w.data → T.ok (.await (.committed site args)) w →
    w.interrupted = true → X .cancelled w.data
  fails : ∀ x w, J w.data → Fails T k site args w x → X x w.data

/-- Between the halves of a write on a split storage. -/
structure Merged (T : Setting) (b : SplitStorage) (args : UpdateArgs Ref) (J : TaskData → Prop)
    (row : Row) (values : Values) (d : TaskData) : Prop where
  checked : b.Checked T.taskId args row
  merged : ∃ d₀ now, J d₀ ∧ d = d₀.merge row args ∧
    values = (mergeValues d₀.heap row.task args now).2
  follows : ∀ cur, d.row = some cur → Follows row cur

section

variable {T : Setting} {σ : Type} {s : σ} {w : World} {k : StorageKind} {b : SplitStorage}
  {site : Site} {args : UpdateArgs Ref} {J : TaskData → Prop} {C : Nat → TaskData → Prop}
  {X : Exc → TaskData → Prop}

theorem heap_mergeValues_eq (h : Heap) (t : Task) (args : UpdateArgs Ref) (now : Timestamp) :
    (mergeValues h t args now).1 = (mergeInPlace h t.artifacts args.artifacts).1 := by
  rw [heap_mergeValues]
  split
  · rename_i hnil
    rw [List.isEmpty_iff.mp hnil]
    rfl
  · rfl

theorem Merged.kept (hJ : Kept T J) (row : Row) (values : Values) :
    Kept T (Merged T b args J row values) := by
  intro d d' hstep hd
  obtain ⟨d₀, now, hd₀, rfl, hvalues⟩ := hd.merged
  -- the others do not see the artifact objects, so they take the same step before the merge
  cases hstep with
  | @write cur h args' now' hargs hcur hguard =>
    have hstep : DataStep T d₀ _ := @DataStep.write T d₀ cur h args' now' hargs hcur hguard
    refine ⟨hd.checked, ⟨_, now, hJ _ _ hstep hd₀, rfl, hvalues⟩, ?_⟩
    intro cur' hcur'
    obtain rfl := Option.some_inj.mp hcur'
    have hle : row.version ≤ cur.version := (hd.follows cur hcur).1
    constructor
    · show row.version ≤ cur.version + 1
      omega
    · intro heq
      have heq' : cur.version + 1 = row.version := heq
      omega
  | delete hdel =>
    have hstep : DataStep T d₀ _ := DataStep.delete hdel
    refine ⟨hd.checked, ⟨_, now, hJ _ _ hstep hd₀, rfl, hvalues⟩, ?_⟩
    intro cur hcur
    exact absurd hcur (by simp)
  | cancel hc =>
    have hstep : DataStep T d₀ _ := DataStep.cancel hc
    exact ⟨hd.checked, ⟨_, now, hJ _ _ hstep hd₀, rfl, hvalues⟩, hd.follows⟩

/-- A read that returns a merge. -/
theorem Merged.of_read (hw : J w.data)
    (hpinned : ∀ row, w.row = some row → ReadsExpected args row) {h' : Heap} {row : Row}
    {values : Values}
    (hread : b.backend.updateRead T.taskId w.heap w.row args w.ambient.now =
      (h', .ok (row, values))) :
    w.row = some row ∧ Merged T b args J row values { w.data with heap := h' } := by
  obtain ⟨hrow, hmerge, hchecked⟩ := b.sound.read_ok hread hpinned
  refine ⟨hrow, hchecked, ⟨w.data, w.ambient.now, hw, ?_, ?_⟩, ?_⟩
  · have hheap : h' = (mergeInPlace w.heap row.task.artifacts args.artifacts).1 := by
      rw [← heap_mergeValues_eq w.heap row.task args w.ambient.now, hmerge]
    rw [hheap]
    rfl
  · show values = (mergeValues w.heap row.task args w.ambient.now).2
    rw [hmerge]
  · intro cur hcur
    obtain rfl : row = cur := Option.some_inj.mp (hrow.symm.trans hcur)
    exact ⟨le_refl _, fun _ => rfl⟩

theorem UpdateRule.read (hr : UpdateRule T (.split b) site args J C X) (hw : J w.data) {h' : Heap}
    {row : Row} {values : Values}
    (hread : b.backend.updateRead T.taskId w.heap w.row args w.ambient.now =
      (h', .ok (row, values))) :
    Merged T b args J row values { w.data with heap := h' } :=
  (Merged.of_read hw (fun r hrow => hr.pinned _ r hw hrow) hread).2

/-- A guarded write that commits is a write at once. -/
theorem Merged.commit (hnd : (refs args.artifacts).Nodup)
    (hcommit : ∀ d row now, J d → d.row = some row →
      terminalGuard T.taskId row.task.status.state args.state = none →
      C (row.version + 1) (d.commit (.split b) row args now))
    {attempt : Nat} {row row' : Row} {values : Values} (hw : Merged T b args J row values w.data)
    (hwrite : b.backend.updateWrite T.taskId w.row args attempt row values = .committed row') :
    C row'.version
      { w.data with row := some row', written := w.data.written ++ args.state.toList } := by
  obtain ⟨cur, hcur, hver, hguard, rfl⟩ := b.sound.write_ok hw.checked hw.follows hwrite
  obtain ⟨d₀, now, hd₀, hdata, rfl⟩ := hw.merged
  have htask : cur.task = row.task := (hw.follows cur hcur).2 hver
  have hrow : d₀.row = some cur := (congrArg TaskData.row hdata).symm.trans hcur
  have hcommitted := hcommit d₀ cur now hd₀ hrow hguard
  rw [← htask, applyTo_mergeValues cur.task now hnd, hdata]
  rw [TaskData.commit, StorageKind.mergedHeap, htask] at hcommitted
  rw [htask]
  exact hcommitted

theorem UpdateRule.write (hr : UpdateRule T (.split b) site args J C X) {attempt : Nat}
    {row row' : Row} {values : Values} (hw : Merged T b args J row values w.data)
    (hwrite : b.backend.updateWrite T.taskId w.row args attempt row values = .committed row') :
    C row'.version
      { w.data with row := some row', written := w.data.written ++ args.state.toList } :=
  hw.commit hr.nodup hr.commit hwrite

theorem UpdateRule.lost_merge (hr : UpdateRule T (.split b) site args J C X) {row : Row}
    {values : Values} (hw : Merged T b args J row values w.data)
    (hlost : LostMerge T b site args row w) : J w.data := by
  obtain ⟨d₀, _, hd₀, hdata, _⟩ := hw.merged
  rw [hdata]
  exact hr.lost b row d₀ w rfl hd₀ hdata hlost

/-- What holds when the call is over. -/
def CallOutcome (C : Nat → TaskData → Prop) (X : Exc → TaskData → Prop) (s : σ) (r : Except Exc Nat)
    (s' : σ) (w : World) : Prop :=
  s' = s ∧ match r with
    | .ok v => C v w.data
    | .error x => X x w.data

/-- The rule for the retry loop at the assertions of `UpdateRule`. -/
theorem UpdateRule.steps (hr : UpdateRule T k site args J C X) :
    UpdateSteps T World.required k site args (fun w => J w.data)
      (fun row values w => ∃ b, k = .split b ∧ Merged T b args J row values w.data)
      (fun v w => C v w.data) (fun x w => X x w.data) where
  stable := hr.kept.stable
  stable_merged row values w w' hstep := by
    rintro ⟨b, rfl, hw⟩
    exact ⟨b, rfl, (Merged.kept hr.kept row values).stable w w' hstep hw⟩
  stable_commit v := (hr.kept_commit v).stable
  stable_raise x := (hr.kept_raise x).stable
  req_await _ _ := trivial
  req_update _ _ _ := trivial
  req_read _ _ _ _ := trivial
  req_write _ _ _ _ _ _ _ _ := trivial
  -- in memory the read, the merge and the write are one operation
  update w w' r _ hw hok hperf := by
    have hanswer := hperf
    simp only [World.perform] at hperf
    split at hperf
    · simp only [Option.some_inj, Prod.mk.injEq] at hperf
      obtain ⟨rfl, rfl⟩ := hperf
      exact hr.fails _ w hw (.update hok hanswer)
    · rename_i row hrow
      split at hperf
      · simp only [Option.some_inj, Prod.mk.injEq] at hperf
        obtain ⟨rfl, rfl⟩ := hperf
        exact hr.fails _ w hw (.update hok hanswer)
      · rename_i task version hok'
        simp only [Option.some_inj, Prod.mk.injEq] at hperf
        obtain ⟨rfl, rfl⟩ := hperf
        obtain ⟨t, v, hstored, rfl, rfl, -, hguard⟩ := InMemoryStorage.updateTask_ok hok'
        obtain ⟨rfl, rfl⟩ := Prod.mk.inj (Option.some_inj.mp hstored)
        obtain rfl : k = .memory := by assumption
        exact hr.commit w.data row w.ambient.now hw hrow hguard
  read b w w' out hk hw hok hperf := by
    subst hk
    simp only [World.perform, Option.some_inj, Prod.mk.injEq] at hperf
    obtain ⟨rfl, hout⟩ := hperf
    rcases out with e | ⟨row, values⟩
    · have hread : b.backend.updateRead T.taskId w.heap w.row args w.ambient.now = (w.heap, .error e) :=
        Prod.ext (b.sound.read_error (Prod.ext rfl hout)) hout
      rw [hread]
      exact hr.fails _ w hw (.read rfl hok hread)
    · exact ⟨b, rfl, hr.read hw (Prod.ext rfl hout)⟩
  -- elsewhere the write is compared with the version that was read
  write b attempt row values w w' out hk hw hok hperf := by
    subst hk
    obtain ⟨b', hb, hw⟩ := hw
    obtain rfl := StorageKind.split.inj hb
    simp only [World.perform] at hperf
    split at hperf
    · rename_i row' hwrite
      simp only [Option.some_inj, Prod.mk.injEq] at hperf
      obtain ⟨rfl, rfl⟩ := hperf
      exact hr.write hw hwrite
    · rename_i hwrite
      simp only [Option.some_inj, Prod.mk.injEq] at hperf
      obtain ⟨rfl, rfl⟩ := hperf
      -- a merge that is not written may still have changed the heap
      have hJ := hr.lost_merge hw (.write hw.checked hok fun row' hrow' => hwrite row' hrow')
      rcases hout : b.backend.updateWrite T.taskId w.row args attempt row values with row' | _ | e
      · exact absurd hout (hwrite row')
      · exact hJ
      · exact hr.fails _ w hJ (.write rfl hw.checked hok hout)
  cancelled w hw hi := hr.fails _ w hw (.cancelled (World.interruptible hi))
  lost row values w := by
    rintro ⟨b, rfl, hw⟩ hok hi
    have hJ := hr.lost_merge hw (.cancelled hok hi)
    exact hr.fails _ w hJ (.cancelled (World.interruptible hi))
  interrupted v w := hr.interrupted v w

/-- `update_task` of the emitter. -/
theorem UpdateRule.wp (hr : UpdateRule T k site args J C X) (hw : J w.data) :
    (Emitter.updateTask k site args : TaskM σ Nat).wp T.system (CallOutcome C X s) s w := by
  refine Act.wp_mono (hr.steps.wp hw) ?_
  rintro (x | v) s' w hw
  · exact hw
  · exact hw

end

end A2AKit
