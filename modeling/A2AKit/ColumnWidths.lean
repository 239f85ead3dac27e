/-
The widths of the SQL columns.

`PostgreSQLStorage` stores ids, states and idempotency keys in `VARCHAR` columns, and PostgreSQL
refuses a value that has more characters than its column.  `InMemoryStorage` has no such bound.

* `postgres_accepts` — PostgreSQL takes what `InMemoryStorage` takes, if the context ids have at
  most 36 and the message ids at most 255 characters and no task waits for input or credentials;
* `waiting_refused` — the values of these two states have 25 and 24 characters, for a column of 20.
-/
import A2AKit.BackendRefinement

namespace A2AKit

namespace Sequential

/-- `str(uuid.uuid4())` -/
structure Uuid where
  text : String
  length_eq : text.length = 36 := by decide

/-- A call of `create_task`, with the message id as its key, or of `update_task`. -/
inductive TaskCall
  | createTask (taskId : Uuid) (now : Timestamp) (contextId : ContextId) (message : Message)
  | updateTask (taskId : TaskId) (args : JsonUpdate) (now : Timestamp)

/-- What a PostgreSQL call raises besides. -/
inductive PostgresError
  | call (e : CallError)
  | dataError (message : String)

namespace PostgreSQLStorage

/-- The `String` columns of `tasks_table`. -/
def idWidth : Nat := 36

def contextIdWidth : Nat := 36

def statusStateWidth : Nat := 20

def idempotencyKeyWidth : Nat := 255

/-- The columns that a row is too long for. -/
def tooLong (row : TaskRow) : Option Nat :=
  if idWidth < row.task.id.length then some idWidth
  else if contextIdWidth < row.task.contextId.length then some contextIdWidth
  else if statusStateWidth < row.task.status.state.value.length then some statusStateWidth
  else if row.idempotencyKey.any (fun key => idempotencyKeyWidth < key.length) then
    some idempotencyKeyWidth
  else none

def dataError (width : Nat) : PostgresError :=
  .dataError s!"value too long for type character varying({width})"

/-- `create_task`: the values are converted before the index is asked for a conflict. -/
def createTask (s : SQLStorageBase.State) (taskId : TaskId) (now : Timestamp)
    (contextId : ContextId) (message : Message) (idempotencyKey : Option String) :
    SQLStorageBase.State × Except PostgresError JsonTask :=
  let key := idempotencyKey.filter (· ≠ "")
  match tooLong { task := initialTask taskId contextId message key now
                  version := 1
                  idempotencyKey := key } with
  | some width => (s, .error (dataError width))
  | none =>
    let out := SQLStorageBase.createTask s taskId now contextId message idempotencyKey
    (out.1, out.2.mapError .call)

/-- `update_task`: where the new row is refused, the transaction is rolled back. -/
def updateTask (s : SQLStorageBase.State) (h : Heap) (taskId : TaskId) (args : JsonUpdate)
    (now : Timestamp) : SQLStorageBase.State × Heap × Except PostgresError Nat :=
  let out := SQLStorageBase.updateTask s h taskId args now
  match out.2.2 with
  | .error e => (out.1, out.2.1, .error (.call e))
  | .ok version =>
    match (out.1.tasks.lookup taskId).bind tooLong with
    | some width => (s, out.2.1, .error (dataError width))
    | none => (out.1, out.2.1, .ok version)

/-- The state after a call, and whether it has succeeded. -/
def perform (s : SQLStorageBase.State) (h : Heap) : TaskCall → SQLStorageBase.State × Heap × Bool
  | .createTask taskId now contextId message =>
    let out := createTask s taskId.text now contextId message (some message.messageId)
    (out.1, h, out.2.isOk)
  | .updateTask taskId args now =>
    let out := updateTask s h taskId args now
    (out.1, out.2.1, out.2.2.isOk)

end PostgreSQLStorage

namespace InMemoryStorage

def perform (s : State) (h : Heap) : TaskCall → State × Bool
  | .createTask taskId now contextId message =>
    ((createTask s taskId.text now contextId message (some message.messageId)).1, true)
  | .updateTask taskId args now =>
    let out := updateTask s h taskId args now
    (out.1, out.2.isOk)

end InMemoryStorage

/-- The ids that calls draw. -/
def TaskCall.drawn : TaskCall → List TaskId
  | .createTask taskId _ _ _ => [taskId.text]
  | .updateTask _ _ _ => []

/-- A sequence of calls; `uuid4` does not repeat itself. -/
structure TaskCalls where
  calls : List TaskCall
  fresh : (calls.flatMap TaskCall.drawn).Nodup := by decide

/-- Both storages get the same calls; the objects of the caller are `h` for `InMemoryStorage`, which
leaves them alone, and `hp` for PostgreSQL. -/
def AcceptsWhatMemoryAccepts (h : Heap) : InMemoryStorage.State → SQLStorageBase.State → Heap →
    List TaskCall → Prop
  | _, _, _, [] => True
  | m, p, hp, call :: calls =>
    let memory := InMemoryStorage.perform m h call
    let postgres := PostgreSQLStorage.perform p hp call
    (memory.2 = true → postgres.2.2 = true) ∧
      AcceptsWhatMemoryAccepts h memory.1 postgres.1 postgres.2.1 calls

/-- What the widths ask of a call on a storage in state `m`. -/
def FitsColumns (m : InMemoryStorage.State) (h : Heap) : TaskCall → Prop
  | .createTask _ _ contextId message =>
    contextId.length ≤ 36 ∧ message.messageId.length ≤ 255
  | .updateTask taskId args now =>
    ∀ task, m.tasks.lookup taskId = some task →
      refusal taskId task ((m.versions.lookup taskId).getD 1) args = none →
      (InMemoryStorage.work h task args now).isOk →
      args.state ≠ some .inputRequired ∧ args.state ≠ some .authRequired

/-- At every call of a run on `InMemoryStorage`. -/
def AllFitColumns (h : Heap) : InMemoryStorage.State → List TaskCall → Prop
  | _, [] => True
  | m, call :: calls =>
    FitsColumns m h call ∧ AllFitColumns h (InMemoryStorage.perform m h call).1 calls

/-- No update writes the key that `create_task` keeps in the metadata. -/
def KeepsKey : TaskCall → Prop
  | .updateTask _ args _ => args.taskMetadata.lookup idempotencyMetaKey = none
  | _ => True

/-- The values that fit `status_state`. -/
theorem stateValue_fits (state : TaskState) :
    state.value.length ≤ PostgreSQLStorage.statusStateWidth ↔
      state ≠ .inputRequired ∧ state ≠ .authRequired := by
  cases state <;> decide

theorem tooLong_eq_none {row : TaskRow} : PostgreSQLStorage.tooLong row = none ↔
    row.task.id.length ≤ 36 ∧ row.task.contextId.length ≤ 36 ∧
      (row.task.status.state ≠ .inputRequired ∧ row.task.status.state ≠ .authRequired) ∧
      ∀ key, row.idempotencyKey = some key → key.length ≤ 255 := by
  rw [← stateValue_fits]
  unfold PostgreSQLStorage.tooLong
  split_ifs with hid hcontext hstate hkey
  · simp only [false_iff, not_and]
    intro h
    exact absurd h (Nat.not_le.mpr hid)
  · simp only [false_iff, not_and]
    intro _ h
    exact absurd h (Nat.not_le.mpr hcontext)
  · simp only [false_iff, not_and]
    intro _ _ h
    exact absurd h (Nat.not_le.mpr hstate)
  · simp only [false_iff]
    rintro ⟨-, -, -, h⟩
    obtain ⟨key, hmem, hlong⟩ := (Option.any_eq_true _ _).mp hkey
    have hshort := h key hmem
    have hlong : PostgreSQLStorage.idempotencyKeyWidth < key.length := of_decide_eq_true hlong
    exact absurd hshort (Nat.not_le.mpr hlong)
  · simp only [true_iff]
    refine ⟨Nat.not_lt.mp hid, Nat.not_lt.mp hcontext, Nat.not_lt.mp hstate, fun key hmem => ?_⟩
    by_contra hlong
    refine hkey ((Option.any_eq_true _ _).mpr ⟨key, hmem, decide_eq_true ?_⟩)
    exact Nat.not_le.mp hlong

/-! ### Metadata -/

theorem lookup_updateMetadata (md : JsonDict) {taskMetadata : JsonDict} {key : String}
    (hkey : taskMetadata.lookup key = none) :
    (updateMetadata md taskMetadata).lookup key = md.lookup key := by
  have hfold : ∀ (l : List (Sigma fun _ : String => Json)) (md : JsonDict), key ∉ l.keys →
      (l.foldl (fun md e => Dictionary.set md e.1 e.2) md).lookup key = md.lookup key := by
    intro l
    induction l with
    | nil => exact fun _ _ => rfl
    | cons e l ih =>
      intro md hl
      rw [List.keys_cons, List.mem_cons, not_or] at hl
      rw [List.foldl_cons, ih _ hl.2, Dictionary.lookup_set_of_ne md _ hl.1]
  exact hfold _ md (AList.lookup_eq_none.mp hkey)

theorem lookup_appendTransition {md md' : JsonDict} {record : Json} {key : String}
    (h : appendTransition md record = .ok md') (hkey : key ≠ stateTransitionsKey) :
    md'.lookup key = md.lookup key := by
  unfold appendTransition at h
  split at h
  · cases h
    exact Dictionary.lookup_set_of_ne md _ hkey
  · cases h
    exact Dictionary.lookup_set_of_ne md _ hkey
  · exact nomatch h

theorem lookup_touch (md : JsonDict) (now : Timestamp) {key : String}
    (hkey : key ≠ metaLastModifiedKey) : (touch md now).lookup key = md.lookup key :=
  Dictionary.lookup_set_of_ne md _ hkey

theorem bind_ok {α β : Type} {x : Except CallError α} {f : α → Except CallError β} {b : β}
    (h : x >>= f = .ok b) : ∃ a, x = .ok a ∧ f a = .ok b := by
  cases x with
  | error e => exact nomatch h
  | ok a => exact ⟨a, rfl, h⟩

section

variable {h : Heap} {task row : JsonTask} {args : JsonUpdate} {now : Timestamp}

/-- An update keeps the key that `create_task` has written. -/
theorem idempotencyKey_workMetadata {md : JsonDict}
    (hmd : InMemoryStorage.workMetadata task args now = .ok md)
    (hkeep : args.taskMetadata.lookup idempotencyMetaKey = none) :
    md.lookup idempotencyMetaKey = task.metadata.lookup idempotencyMetaKey := by
  have hmodified : idempotencyMetaKey ≠ metaLastModifiedKey := by decide
  have htransitions : idempotencyMetaKey ≠ stateTransitionsKey := by decide
  rw [← lookup_updateMetadata task.metadata hkeep]
  unfold InMemoryStorage.workMetadata at hmd
  cases hstate : args.state with
  | none =>
    rw [hstate] at hmd
    cases hmessage : args.statusMessage with
    | none =>
      rw [hmessage] at hmd
      cases hmd
      rfl
    | some message =>
      rw [hmessage] at hmd
      cases hmd
      exact lookup_touch _ now hmodified
  | some state =>
    rw [hstate] at hmd
    dsimp only at hmd
    cases happend : appendTransition (updateMetadata task.metadata args.taskMetadata)
        (transitionRecord state now args.statusMessage) with
    | error e =>
      rw [happend] at hmd
      exact nomatch hmd
    | ok md' =>
      rw [happend] at hmd
      cases hmd
      rw [lookup_touch _ now hmodified, lookup_appendTransition happend htransitions]

/-- The merge of SQL has the metadata of the working copy, whatever becomes of the artifacts. -/
theorem mergeColumns_metadata (h : Heap) (args : JsonUpdate) (now : Timestamp)
    (hmetadata : row.metadata = task.metadata) :
    (mergeColumns h row args now).2.map (fun values => (values.applyTo row).metadata) =
      InMemoryStorage.workMetadata task args now := by
  have hupdated : (if args.taskMetadata.entries.isEmpty then none
      else some (updateMetadata row.metadata args.taskMetadata)).getD row.metadata =
        updateMetadata task.metadata args.taskMetadata := by
    rw [hmetadata]
    split
    · rename_i hnil
      rw [updateMetadata, List.isEmpty_iff.mp hnil]
      rfl
    · rfl
  rcases hstate : args.state with _ | state
  · rcases hmessage : args.statusMessage with _ | message
    · simp only [mergeColumns, InMemoryStorage.workMetadata, hstate, hmessage, Except.map,
        Columns.applyTo, hupdated]
      rfl
    · simp only [mergeColumns, InMemoryStorage.workMetadata, hstate, hmessage, Except.map,
        Columns.applyTo, hupdated]
      rfl
  · simp only [mergeColumns, InMemoryStorage.workMetadata, hstate, hupdated]
    cases appendTransition (updateMetadata task.metadata args.taskMetadata)
        (transitionRecord state now args.statusMessage) <;> rfl

/-- The working copy beside its metadata. -/
theorem work_ok_of_metadata (h : Heap) {md : JsonDict}
    (hmd : InMemoryStorage.workMetadata task args now = .ok md) :
    ∃ work, InMemoryStorage.work h task args now = .ok work ∧ work.metadata = md ∧
      work.contextId = task.contextId ∧
      work.status.state = args.state.getD task.status.state := by
  unfold InMemoryStorage.work
  rw [hmd]
  refine ⟨_, rfl, rfl, rfl, ?_⟩
  dsimp only
  rcases args.state with _ | state
  · rcases args.statusMessage with _ | message <;> rfl
  · rfl

theorem work_error_of_metadata (h : Heap) {e : CallError}
    (hmd : InMemoryStorage.workMetadata task args now = .error e) :
    InMemoryStorage.work h task args now = .error e := by
  unfold InMemoryStorage.work
  rw [hmd]
  rfl

theorem mergeColumns_state {values : Columns}
    (hok : (mergeColumns h row args now).2 = .ok values) :
    (values.applyTo row).status.state = args.state.getD row.status.state := by
  unfold mergeColumns at hok
  rcases hstate : args.state with _ | state
  · rw [hstate] at hok
    rcases hmessage : args.statusMessage with _ | message
    · rw [hmessage] at hok
      cases hok
      rfl
    · rw [hmessage] at hok
      cases hok
      rfl
  · rw [hstate] at hok
    dsimp only at hok
    obtain ⟨md, -, hmd⟩ := bind_ok hok
    cases hmd
    rfl

end

/-! ### The same tasks in both storages -/

/-- A row of PostgreSQL beside a task of `InMemoryStorage`; artifacts, history and status message
need not agree. -/
structure RowMatches (task : JsonTask) (version : Nat) (row : TaskRow) : Prop where
  version : row.version = version
  contextId : row.task.contextId = task.contextId
  state : row.task.status.state = task.status.state
  metadata : row.task.metadata = task.metadata
  key : task.metadata.lookup idempotencyMetaKey = row.idempotencyKey.map .string
  narrow : PostgreSQLStorage.tooLong row = none

/-- The storages have the same ids, and rows that match. -/
structure SameTasks (m : InMemoryStorage.State) (p : SQLStorageBase.State) : Prop where
  missing : ∀ x, m.tasks.lookup x = none → p.tasks.lookup x = none
  present : ∀ x task, m.tasks.lookup x = some task → ∃ row, p.tasks.lookup x = some row ∧
    RowMatches task ((m.versions.lookup x).getD 1) row

section

variable {m : InMemoryStorage.State} {p : SQLStorageBase.State}

theorem SameTasks.set (hsame : SameTasks m p) {taskId : TaskId} {task : JsonTask} {version : Nat}
    {row : TaskRow} (hrow : RowMatches task version row) :
    SameTasks { m with
        tasks := Dictionary.set m.tasks taskId task
        versions := Dictionary.set m.versions taskId version }
      { p with tasks := Dictionary.set p.tasks taskId row } where
  missing x hx := by
    rw [Dictionary.lookup_set] at hx
    by_cases hxt : x = taskId
    · rw [if_pos hxt] at hx
      exact nomatch hx
    · rw [if_neg hxt] at hx
      exact (Dictionary.lookup_set_of_ne _ _ hxt).trans (hsame.missing x hx)
  present x task' hx := by
    rw [Dictionary.lookup_set] at hx
    by_cases hxt : x = taskId
    · subst hxt
      rw [if_pos rfl] at hx
      cases hx
      refine ⟨row, Dictionary.lookup_set_self _ _ _, ?_⟩
      rw [Dictionary.lookup_set_self]
      exact hrow
    · rw [if_neg hxt] at hx
      obtain ⟨row', hrow', hmatch⟩ := hsame.present x task' hx
      refine ⟨row', (Dictionary.lookup_set_of_ne _ _ hxt).trans hrow', ?_⟩
      rw [Dictionary.lookup_set_of_ne _ _ hxt]
      exact hmatch

/-- A row of PostgreSQL has its task in `InMemoryStorage`. -/
theorem SameTasks.task (hsame : SameTasks m p) {x : TaskId} {row : TaskRow}
    (hrow : p.tasks.lookup x = some row) : ∃ task, m.tasks.lookup x = some task ∧
      RowMatches task ((m.versions.lookup x).getD 1) row := by
  cases htask : m.tasks.lookup x with
  | none =>
    rw [hsame.missing x htask] at hrow
    exact nomatch hrow
  | some task =>
    obtain ⟨row', hrow', hmatch⟩ := hsame.present x task htask
    rw [hrow] at hrow'
    cases hrow'
    exact ⟨task, rfl, hmatch⟩

/-- The scan of the dictionary finds a task where the index has an entry. -/
theorem SameTasks.find (hsame : SameTasks m p) (contextId : ContextId) (key : String) :
    (InMemoryStorage.find m contextId key).isSome =
      (SQLStorageBase.find p contextId key).isSome := by
  unfold InMemoryStorage.find SQLStorageBase.find
  rw [Option.isSome_map, Bool.eq_iff_iff, Dictionary.isSome_find_values,
    Dictionary.isSome_find_values]
  constructor
  · rintro ⟨x, task, htask, htest⟩
    obtain ⟨row, hrow, hmatch⟩ := hsame.present x task htask
    rw [Bool.and_eq_true] at htest
    refine ⟨x, row, hrow, ?_⟩
    rw [Bool.and_eq_true, hmatch.contextId]
    refine ⟨htest.1, ?_⟩
    have hkey := htest.2
    rw [hmatch.key] at hkey
    cases hrowKey : row.idempotencyKey with
    | none =>
      rw [hrowKey] at hkey
      exact nomatch hkey
    | some k =>
      rw [hrowKey] at hkey
      have hk : k = key := of_decide_eq_true hkey
      rw [hk]
      exact decide_eq_true rfl
  · rintro ⟨x, row, hrow, htest⟩
    obtain ⟨task, htask, hmatch⟩ := hsame.task hrow
    rw [Bool.and_eq_true] at htest
    have hkey : row.idempotencyKey = some key := of_decide_eq_true htest.2
    refine ⟨x, task, htask, ?_⟩
    rw [Bool.and_eq_true, ← hmatch.contextId]
    refine ⟨htest.1, ?_⟩
    rw [hmatch.key, hkey]
    exact decide_eq_true rfl

end

theorem refusal_congr {taskId : TaskId} {task row : JsonTask} {version : Nat} {args : JsonUpdate}
    (hstate : row.status.state = task.status.state) :
    refusal taskId row version args = refusal taskId task version args := by
  unfold refusal
  rw [hstate]

/-! ### One call -/

section

variable {m : InMemoryStorage.State} {p : SQLStorageBase.State} {h hp : Heap}

theorem SameTasks.createTask (hsame : SameTasks m p) (h hp : Heap) (taskId : Uuid)
    (now : Timestamp) {contextId : ContextId} {message : Message} (hcontext : contextId.length ≤ 36)
    (hmessage : message.messageId.length ≤ 255) :
    (PostgreSQLStorage.perform p hp (.createTask taskId now contextId message)).2.2 = true ∧
      SameTasks (InMemoryStorage.perform m h (.createTask taskId now contextId message)).1
        (PostgreSQLStorage.perform p hp (.createTask taskId now contextId message)).1 := by
  set key := (some message.messageId).filter (· ≠ "") with hkey
  have hshort : ∀ k, key = some k → k.length ≤ 255 := by
    intro k hk
    rw [hkey, Option.filter_eq_some_iff] at hk
    obtain ⟨hk, -⟩ := hk
    cases hk
    exact hmessage
  let task := initialTask taskId.text contextId message key now
  let row : TaskRow := { task, version := 1, idempotencyKey := key }
  -- no column of the new row is too short, so the INSERT is the one of the base class
  have hnarrow : PostgreSQLStorage.tooLong row = none :=
    tooLong_eq_none.mpr ⟨taskId.length_eq.le, hcontext, ⟨nofun, nofun⟩, hshort⟩
  have hfound : ((key.bind (InMemoryStorage.find m contextId)).isSome) =
      (key.bind (SQLStorageBase.find p contextId)).isSome := by
    cases key with
    | none => rfl
    | some k => exact hsame.find contextId k
  have hperform : PostgreSQLStorage.perform p hp (.createTask taskId now contextId message) =
      ((SQLStorageBase.createTask p taskId.text now contextId message (some message.messageId)).1,
        hp, ((SQLStorageBase.createTask p taskId.text now contextId message
          (some message.messageId)).2.mapError PostgresError.call).isOk) := by
    unfold PostgreSQLStorage.perform PostgreSQLStorage.createTask
    dsimp only
    rw [show PostgreSQLStorage.tooLong
      { task := initialTask taskId.text contextId message
          ((some message.messageId).filter (· ≠ "")) now
        version := 1
        idempotencyKey := (some message.messageId).filter (· ≠ "") } = none from hnarrow]
  rw [hperform]
  unfold InMemoryStorage.perform InMemoryStorage.createTask SQLStorageBase.createTask
  dsimp only
  rw [← hkey]
  -- both look for the key first, and find the same
  cases hmemory : key.bind (InMemoryStorage.find m contextId) with
  | some existing =>
    rw [hmemory] at hfound
    obtain ⟨existing', hpostgres⟩ := Option.isSome_iff_exists.mp hfound.symm
    rw [hpostgres]
    exact ⟨rfl, hsame⟩
  | none =>
    rw [hmemory] at hfound
    have hpostgres : key.bind (SQLStorageBase.find p contextId) = none := by
      rw [← Option.not_isSome_iff_eq_none, ← hfound]
      exact nofun
    rw [hpostgres]
    dsimp only
    rw [Dictionary.lookup_set_self]
    refine ⟨rfl, ?_⟩
    suffices hrow : RowMatches task 1 row from hsame.set hrow
    refine ⟨rfl, rfl, rfl, rfl, ?_, hnarrow⟩
    show (Sequential.initialMetadata key now).lookup idempotencyMetaKey = key.map Json.string
    unfold Sequential.initialMetadata
    rw [lookup_touch _ now (by decide), Dictionary.lookup_set_of_ne _ _ (by decide),
      Dictionary.lookup_set_of_ne _ _ (by decide)]
    cases key with
    | none => rfl
    | some k => exact Dictionary.lookup_set_self _ _ _

/-- An update that fits leaves a row that fits. -/
theorem RowMatches.update (hp : Heap) {task work : JsonTask} {version : Nat} {row : TaskRow}
    {args : JsonUpdate} {now : Timestamp} {values : Columns}
    (hmatch : RowMatches task version row)
    (hstate : args.state ≠ some .inputRequired ∧ args.state ≠ some .authRequired)
    (hkeep : args.taskMetadata.lookup idempotencyMetaKey = none)
    (hvalues : (mergeColumns hp row.task args now).2 = .ok values)
    (hmd : InMemoryStorage.workMetadata task args now = .ok (values.applyTo row.task).metadata)
    (hmetadata : work.metadata = (values.applyTo row.task).metadata)
    (hcontext : work.contextId = task.contextId)
    (hwork : work.status.state = args.state.getD task.status.state) :
    RowMatches work (version + 1)
      { row with task := values.applyTo row.task, version := row.version + 1 } where
  version := congrArg (· + 1) hmatch.version
  contextId := hmatch.contextId.trans hcontext.symm
  state := by
    show (values.applyTo row.task).status.state = work.status.state
    rw [mergeColumns_state hvalues, hwork, hmatch.state]
  metadata := hmetadata.symm
  key := by
    rw [hmetadata, idempotencyKey_workMetadata hmd hkeep]
    exact hmatch.key
  narrow := by
    obtain ⟨hid, hcontextId, hold, hshort⟩ := tooLong_eq_none.mp hmatch.narrow
    refine tooLong_eq_none.mpr ⟨hid, hcontextId, ?_, hshort⟩
    show (values.applyTo row.task).status.state ≠ _ ∧ (values.applyTo row.task).status.state ≠ _
    rw [mergeColumns_state hvalues]
    cases hargs : args.state with
    | none => exact hold
    | some state =>
      rw [hargs] at hstate
      exact ⟨fun heq => hstate.1 (congrArg some heq), fun heq => hstate.2 (congrArg some heq)⟩

theorem SameTasks.updateTask (hsame : SameTasks m p) (hp : Heap) {taskId : TaskId} {args : JsonUpdate}
    {now : Timestamp} (hfits : FitsColumns m h (.updateTask taskId args now))
    (hkeep : args.taskMetadata.lookup idempotencyMetaKey = none) :
    ((InMemoryStorage.perform m h (.updateTask taskId args now)).2 = true →
        (PostgreSQLStorage.perform p hp (.updateTask taskId args now)).2.2 = true) ∧
      SameTasks (InMemoryStorage.perform m h (.updateTask taskId args now)).1
        (PostgreSQLStorage.perform p hp (.updateTask taskId args now)).1 := by
  unfold InMemoryStorage.perform PostgreSQLStorage.perform InMemoryStorage.updateTask
    PostgreSQLStorage.updateTask
  dsimp only
  rw [SQLStorageBase.updateTask_eq]
  cases htask : m.tasks.lookup taskId with
  | none =>
    rw [hsame.missing taskId htask]
    exact ⟨nofun, hsame⟩
  | some task =>
    obtain ⟨row, hrow, hmatch⟩ := hsame.present taskId task htask
    rw [hrow]
    dsimp only
    rw [hmatch.version, refusal_congr hmatch.state]
    cases hrefusal : refusal taskId task ((m.versions.lookup taskId).getD 1) args with
    | some e => exact ⟨nofun, hsame⟩
    | none =>
      have hmerge := mergeColumns_metadata hp args now hmatch.metadata
      dsimp only
      -- both merge the same metadata, so they fail together
      rcases hcolumns : mergeColumns hp row.task args now with ⟨h', e | values⟩
      · rw [hcolumns] at hmerge
        rw [work_error_of_metadata h hmerge.symm]
        exact ⟨nofun, hsame⟩
      · rw [hcolumns] at hmerge
        obtain ⟨work, hwork, hmetadata, hcontext, hstate⟩ := work_ok_of_metadata h hmerge.symm
        have hwaits := hfits task htask hrefusal (by rw [hwork]; rfl)
        have hnew := hmatch.update hp hwaits hkeep (by rw [hcolumns]) hmerge.symm hmetadata
          hcontext hstate
        rw [hmatch.version] at hnew
        rw [hwork]
        dsimp only
        rw [Dictionary.lookup_set_self, Option.bind_some, hnew.narrow]
        exact ⟨fun _ => rfl, hsame.set hnew⟩

end

/-! ### Runs -/

/-- A new state that PostgreSQL has stored fits its column. -/
theorem stored_state_fits {p : SQLStorageBase.State} {hp : Heap} {taskId : TaskId}
    {args : JsonUpdate} {now : Timestamp}
    (hok : (PostgreSQLStorage.perform p hp (.updateTask taskId args now)).2.2 = true) :
    args.state ≠ some .inputRequired ∧ args.state ≠ some .authRequired := by
  unfold PostgreSQLStorage.perform PostgreSQLStorage.updateTask at hok
  dsimp only at hok
  rw [SQLStorageBase.updateTask_eq] at hok
  cases hrow : p.tasks.lookup taskId with
  | none =>
    rw [hrow] at hok
    exact nomatch hok
  | some row =>
    rw [hrow] at hok
    dsimp only at hok
    cases hrefusal : refusal taskId row.task row.version args with
    | some e =>
      rw [hrefusal] at hok
      exact nomatch hok
    | none =>
      rw [hrefusal] at hok
      dsimp only at hok
      rcases hcolumns : mergeColumns hp row.task args now with ⟨h', e | values⟩
      · rw [hcolumns] at hok
        exact nomatch hok
      · rw [hcolumns] at hok
        dsimp only at hok
        rw [Dictionary.lookup_set_self, Option.bind_some] at hok
        split at hok
        · exact nomatch hok
        · rename_i hnarrow
          obtain ⟨-, -, hstate, -⟩ := tooLong_eq_none.mp hnarrow
          have hnew : (values.applyTo row.task).status.state = args.state.getD _ :=
            mergeColumns_state (by rw [hcolumns])
          cases hargs : args.state with
          | none => exact ⟨nofun, nofun⟩
          | some state =>
            rw [hargs] at hnew
            refine ⟨?_, ?_⟩
            · rintro heq
              cases heq
              exact hstate.1 hnew
            · rintro heq
              cases heq
              exact hstate.2 hnew

/-- A task that PostgreSQL has stored has short ids. -/
theorem stored_ids_fit {p : SQLStorageBase.State} {hp : Heap} {taskId : Uuid} {now : Timestamp}
    {contextId : ContextId} {message : Message}
    (hok : (PostgreSQLStorage.perform p hp (.createTask taskId now contextId message)).2.2 = true) :
    contextId.length ≤ 36 ∧ message.messageId.length ≤ 255 := by
  unfold PostgreSQLStorage.perform PostgreSQLStorage.createTask at hok
  dsimp only at hok
  split at hok
  · exact nomatch hok
  · rename_i hnarrow
    obtain ⟨-, hcontext, -, hshort⟩ := tooLong_eq_none.mp hnarrow
    refine ⟨hcontext, ?_⟩
    by_cases hempty : message.messageId = ""
    · rw [hempty]
      decide
    · exact hshort message.messageId (by simp [Option.filter, hempty])

section

variable {h : Heap} {m : InMemoryStorage.State} {p : SQLStorageBase.State} {hp : Heap}

theorem accepts_of_fits {calls : List TaskCall} (hsame : SameTasks m p)
    (hfits : AllFitColumns h m calls) (hkeep : ∀ call ∈ calls, KeepsKey call) :
    AcceptsWhatMemoryAccepts h m p hp calls := by
  induction calls generalizing m p hp with
  | nil => trivial
  | cons call calls ih =>
    obtain ⟨hfit, hrest⟩ := hfits
    have hkeeps := hkeep call List.mem_cons_self
    have htail : ∀ call ∈ calls, KeepsKey call := fun call hcall =>
      hkeep call (List.mem_cons_of_mem _ hcall)
    cases call with
    | createTask taskId now contextId message =>
      obtain ⟨hok, hnext⟩ := hsame.createTask h hp taskId now hfit.1 hfit.2
      exact ⟨fun _ => hok, ih hnext hrest htail⟩
    | updateTask taskId args now =>
      obtain ⟨hok, hnext⟩ := hsame.updateTask hp hfit hkeeps
      exact ⟨hok, ih hnext hrest htail⟩

theorem fits_of_accepts {calls : List TaskCall} (haccepts : AcceptsWhatMemoryAccepts h m p hp calls) :
    AllFitColumns h m calls := by
  induction calls generalizing m p hp with
  | nil => trivial
  | cons call calls ih =>
    obtain ⟨hok, hrest⟩ := haccepts
    refine ⟨?_, ih hrest⟩
    cases call with
    | createTask taskId now contextId message => exact stored_ids_fit (hok rfl)
    | updateTask taskId args now =>
      intro task htask hrefusal hwork
      refine stored_state_fits (hok ?_)
      obtain ⟨work, hwork⟩ : ∃ work, InMemoryStorage.work h task args now = .ok work := by
        cases hw : InMemoryStorage.work h task args now with
        | error e =>
          rw [hw] at hwork
          exact nomatch hwork
        | ok work => exact ⟨work, rfl⟩
      unfold InMemoryStorage.perform InMemoryStorage.updateTask
      dsimp only
      rw [htask]
      dsimp only
      rw [hrefusal]
      dsimp only
      rw [hwork]
      rfl

end

/-- **PostgreSQL takes what `InMemoryStorage` takes** in every sequence in which all calls fit the
columns and no update writes `_idempotency_key`; and it does so only if all calls fit. -/
theorem postgres_accepts (h : Heap) (calls : TaskCalls) :
    (AllFitColumns h {} calls.calls ∧ (∀ call ∈ calls.calls, KeepsKey call) →
        AcceptsWhatMemoryAccepts h {} {} h calls.calls) ∧
      (AcceptsWhatMemoryAccepts h {} {} h calls.calls → AllFitColumns h {} calls.calls) := by
  constructor
  · rintro ⟨hfits, hkeep⟩
    exact accepts_of_fits ⟨fun _ _ => rfl, nofun⟩ hfits hkeep
  · intro haccepts
    exact fits_of_accepts haccepts

def firstTask : Uuid where
  text := "6f9619ff-8b86-4d01-b42d-00cf4fc964ff"

/-- A task that is created, worked on and completed. -/
theorem postgres_accepts_completed :
    AcceptsWhatMemoryAccepts (fun _ => { artifactId := "", parts := [] }) {} {}
      (fun _ => { artifactId := "", parts := [] })
      [.createTask firstTask "t0" "ctx" ⟨.user, [], "m", "", ""⟩,
        .updateTask firstTask.text { state := some .working } "t1",
        .updateTask firstTask.text { state := some .completed } "t2"] := by
  refine (postgres_accepts _ { calls := _, fresh := ?_ }).1 ⟨⟨⟨by decide, by decide⟩,
    fun _ _ _ _ => ⟨by decide, by decide⟩, fun _ _ _ _ => ⟨by decide, by decide⟩, trivial⟩, ?_⟩
  · decide
  · intro call hcall
    simp only [List.mem_cons, List.not_mem_nil, or_false] at hcall
    rcases hcall with rfl | rfl | rfl
    · trivial
    · rfl
    · rfl

/-- A worker that asks for input. -/
theorem waiting_refused :
    ¬ AcceptsWhatMemoryAccepts (fun _ => { artifactId := "", parts := [] }) {} {}
      (fun _ => { artifactId := "", parts := [] })
      [.createTask firstTask "t0" "ctx" ⟨.user, [], "m", "", ""⟩,
        .updateTask firstTask.text { state := some .working } "t1",
        .updateTask firstTask.text { state := some .inputRequired } "t2"] := by
  rintro ⟨-, -, hwaiting, -⟩
  revert hwaiting
  decide +kernel

end Sequential

end A2AKit
