/-
What requests that create tasks keep.

A step of a request is one of a few kinds (`ArchiveStep`): it works on one task, draws an id,
opens or gives up a transaction, or stores a new task.  In all of them a task that a call with
some context and key would find stays the one that is found (`ArchiveStep.found`), and every
task that is found was there at the start or was stored by exactly one request
(`ArchiveInv.step`).

* `archiveStep` — the operations take such steps;
* `requests_fit` — the requests together.
-/
import Mathlib.Data.List.Find
import A2AKit.Creation

namespace A2AKit

/-! ### Rows that are kept -/

/-- What every writer keeps of a row. -/
structure SameTask (row row' : Row) : Prop where
  moves : row' = row ∨ Later row row'
  idempotencyKey : row'.idempotencyKey = row.idempotencyKey
  entry : ∀ key ∈ [idempotencyMetaKey, justCreatedKey],
    row'.task.metadata.entries.lookup key = row.task.metadata.entries.lookup key

/-- The caller does not pass an entry of the storage. -/
def Harmless (args : UpdateArgs Ref) : Prop :=
  ∀ key ∈ [idempotencyMetaKey, justCreatedKey], key ∉ args.taskMetadata.entries

theorem SameTask.refl (row : Row) : SameTask row row := ⟨Or.inl rfl, rfl, fun _ _ => rfl⟩

theorem SameTask.id {row row' : Row} (h : SameTask row row') : row'.task.id = row.task.id := by
  rcases h.moves with rfl | hlater
  · rfl
  · exact hlater.id

theorem SameTask.contextId {row row' : Row} (h : SameTask row row') :
    row'.task.contextId = row.task.contextId := by
  rcases h.moves with rfl | hlater
  · rfl
  · exact hlater.contextId

theorem SameTask.hits {row row' : Row} (h : SameTask row row') (store : Store) (contextId : ContextId)
    (key : String) : store.hits contextId key row' = store.hits contextId key row := by
  have hentry := h.entry idempotencyMetaKey (by simp)
  cases store <;> simp only [Store.hits, h.contextId, h.idempotencyKey, hentry]

theorem TaskCommit.sameTask {taskId : TaskId} {args : UpdateArgs Ref} {row row' : Row}
    (h : TaskCommit taskId args row row') (hargs : Harmless args) : SameTask row row' := by
  refine ⟨Or.inr h.later, h.idempotencyKey, fun key hkey => h.metadata key (hargs key hkey) ?_⟩
  rcases List.mem_pair.mp hkey with rfl | rfl <;> decide

theorem harmless_tenant (tenant : String) : Harmless { taskMetadata := tenantMetadata tenant } := by
  intro key hkey hmem
  rcases (AList.mem_insert _).mp hmem with rfl | hempty
  · revert hkey
    decide
  · exact AList.notMem_empty _ hempty

namespace Archive

variable {ι : Type} {store : Store} {a a' : Archive ι} {i : ι} {taskId : TaskId} {row : Row}
  {contextId : ContextId} {key : String}

/-- What the parties have done to a task. -/
def accounts (a : Archive ι) (taskId : TaskId) : ι → Account := (a.offices taskId).accounts

/-! ### Looking up a task -/

/-- What is found depends on what is kept of the rows. -/
theorem find_congr (hids : a'.ids = a.ids) (hidem : a'.idempotency = a.idempotency)
    (hrows : ∀ t, Option.Rel SameTask (a.row t) (a'.row t)) :
    a'.find store contextId key = a.find store contextId key := by
  have hhits : ∀ t, (a'.row t).any (store.hits contextId key) =
      (a.row t).any (store.hits contextId key) := by
    intro t
    have h := hrows t
    generalize a.row t = r, a'.row t = r' at h
    cases h with
    | none => rfl
    | some hsame => exact hsame.hits store contextId key
  have hfun : (fun t => (a'.row t).any (store.hits contextId key)) =
      fun t => (a.row t).any (store.hits contextId key) := funext hhits
  cases store <;> simp only [find, hids, hidem, hfun]

theorem find_eq_of_row (hids : a'.ids = a.ids) (hidem : a'.idempotency = a.idempotency)
    (hrow : a'.row = a.row) : a'.find store contextId key = a.find store contextId key := by
  cases store <;> simp only [find, hids, hidem, hrow]

variable [DecidableEq ι]

theorem row_add (h : a.row taskId = none) :
    (a.add store i taskId row).row = Function.update a.row taskId (some row) := by
  funext t
  by_cases ht : t = taskId
  · subst ht
    simp [Archive.row, add, Office.put]
  · simp [Archive.row, add, Function.update_of_ne ht]

/-- A new task is one commit of the party that has stored it. -/
theorem accounts_add (h : a.row taskId = none) :
    (a.add store i taskId row).accounts = Function.update a.accounts taskId
      (Function.update (a.accounts taskId) i
        { a.accounts taskId i with commits := (a.accounts taskId i).commits + 1 }) := by
  funext t
  by_cases ht : t = taskId
  · subst ht
    have hworld : (a.offices t).world.row = none := h
    simp [accounts, add, Office.put, hworld]
  · simp [accounts, add, Function.update_of_ne ht]

/-- After a new task is stored, it is found where nothing was found before. -/
theorem find_add (hnew : taskId ∉ a.ids) (hnone : a.row taskId = none)
    (hfree : ∀ k, row.idempotencyKey = some k → a.find store row.task.contextId k = none) :
    (a.add store i taskId row).find store contextId key =
      (a.find store contextId key).or
        (if store.hits contextId key row then some taskId else none) := by
  have hscan : ∀ p : Row → Bool, (a.ids ++ [taskId]).find? (fun t =>
      ((a.add store i taskId row).row t).any p) = (a.ids.find? fun t => (a.row t).any p).or
        (if p row then some taskId else none) := by
    intro p
    have hold : a.ids.find? (fun t => ((a.add store i taskId row).row t).any p) =
        a.ids.find? fun t => (a.row t).any p := by
      refine List.find?_congr fun t ht => ?_
      have hne : t ≠ taskId := fun heq => hnew (heq ▸ ht)
      rw [row_add hnone, Function.update_of_ne hne]
    rw [List.find?_append, hold, row_add hnone]
    simp [List.find?_cons]
    split <;> simp_all
  match store with
  | .memory => exact hscan _
  | .sqlite => exact hscan _
  | .postgres => exact hscan _
  | .redis =>
    show (indexEntry .redis taskId row ++ a.idempotency).lookup (idemKey contextId key) = _
    cases hkey : row.idempotencyKey with
    | none => simp [indexEntry, Store.hits, hkey, find]
    | some k =>
      have hold : a.idempotency.lookup (idemKey row.task.contextId k) = none := hfree k hkey
      by_cases heq : idemKey row.task.contextId k = idemKey contextId key
      · rw [heq] at hold
        simp [indexEntry, Store.hits, hkey, find, heq, hold]
      · have hne : (idemKey contextId key == idemKey row.task.contextId k) = false :=
          beq_false_of_ne (Ne.symm heq)
        simp [indexEntry, Store.hits, hkey, find, heq, hne, List.lookup_cons]

/-- The entries of a new task. -/
theorem lookup_initialMetadata (k : Option String) (now : Timestamp) :
    (initialMetadata k now).entries.lookup idempotencyMetaKey = k ∧
      (initialMetadata k now).entries.lookup justCreatedKey = none := by
  have hidem : ∀ d : Dict, ((d.insert metaCreatedAtKey now).insert metaLastModifiedKey now).lookup
      idempotencyMetaKey = d.lookup idempotencyMetaKey := by
    intro d
    rw [AList.lookup_insert_ne (by decide), AList.lookup_insert_ne (by decide)]
  have hmark : ∀ d : Dict, ((d.insert metaCreatedAtKey now).insert metaLastModifiedKey now).lookup
      justCreatedKey = d.lookup justCreatedKey := by
    intro d
    rw [AList.lookup_insert_ne (by decide), AList.lookup_insert_ne (by decide)]
  cases k with
  | none => exact ⟨(hidem ∅).trans rfl, (hmark ∅).trans rfl⟩
  | some k =>
    refine ⟨(hidem _).trans (AList.lookup_insert _), (hmark _).trans ?_⟩
    exact (AList.lookup_insert_ne (by decide)).trans rfl

variable {c : ContextId} {message : Message} {k : Option String}

omit [DecidableEq ι] in
/-- Which calls find a new task: those that look where its own call has looked. -/
theorem hits_newRow (h : store.hits contextId key (a.newRow taskId c message k) = true) :
    ∃ k', k = some k' ∧ a.find store contextId key = a.find store c k' := by
  cases store with
  | redis =>
    obtain ⟨k', hk', heq⟩ := (Option.any_eq_true _ _).mp h
    exact ⟨k', hk', congrArg (fun s => a.idempotency.lookup s) (of_decide_eq_true heq).symm⟩
  | memory =>
    obtain ⟨hctx, hkey⟩ := Bool.and_eq_true_iff.mp h
    obtain rfl : c = contextId := of_decide_eq_true hctx
    have hlookup := of_decide_eq_true hkey
    exact ⟨key, (lookup_initialMetadata k _).1.symm.trans hlookup, rfl⟩
  | _ =>
    obtain ⟨hctx, hkey⟩ := Bool.and_eq_true_iff.mp h
    obtain rfl : c = contextId := of_decide_eq_true hctx
    exact ⟨key, of_decide_eq_true hkey, rfl⟩

omit [DecidableEq ι] in
theorem hits_newRow_self {k' : Option String} {k : String}
    (h : (a.newRow taskId c message k').idempotencyKey = some k) :
    store.hits (a.newRow taskId c message k').task.contextId k (a.newRow taskId c message k') =
      true := by
  have hk : k' = some k := h
  subst hk
  cases store with
  | memory =>
    refine Bool.and_eq_true_iff.mpr ⟨decide_eq_true rfl, decide_eq_true ?_⟩
    exact (lookup_initialMetadata (some k) _).1
  | redis => simp [Store.hits, newRow]
  | _ => exact Bool.and_eq_true_iff.mpr ⟨decide_eq_true rfl, decide_eq_true rfl⟩

end Archive

/-! ### Steps -/

section

variable {ι : Type} [DecidableEq ι]

/-- A step of party `i` on one task: nothing that counts, a commit to a task that it has stored,
or the hand-over of its operation. -/
inductive TaskStep (i : ι) (r r' : Option Row) (f f' : ι → Account) : Prop
  | idle : r' = r → f' = f → TaskStep i r r' f f'
  | write {row row' : Row} : r = some row → r' = some row' → SameTask row row' →
      (f i).commits ≠ 0 →
      f' = Function.update f i { f i with commits := (f i).commits + 1 } → TaskStep i r r' f f'
  | handOver {m : Message} : r' = r → (f i).commits ≠ 0 → (f i).handed = [] →
      f' = Function.update f i { f i with handed := [m] } → TaskStep i r r' f f'

/-- Nothing but one task has changed. -/
structure Beside (a a' : Archive ι) (taskId : TaskId) : Prop where
  ids : a'.ids = a.ids
  sessions : a'.sessions = a.sessions
  idempotency : a'.idempotency = a.idempotency
  drawn : a'.drawn = a.drawn
  row : ∀ t, t ≠ taskId → a'.row t = a.row t
  accounts : ∀ t, t ≠ taskId → a'.accounts t = a.accounts t

/-- The row can be stored as a new task of party `i`. -/
structure Storable (store : Store) (a : Archive ι) (i : ι) (taskId : TaskId) (row : Row) :
    Prop where
  id : row.task.id = taskId
  unmarked : row.task.metadata.entries.lookup justCreatedKey = none
  unstored : taskId ∉ a.ids
  owner : ∀ j, (taskId, j) ∈ a.drawn → j = i
  own : ∀ k, row.idempotencyKey = some k → store.hits row.task.contextId k row = true
  unfound : ∀ c k, store.hits c k row = true → a.find store c k = none
  apart : ∀ j r c k, (j, r) ∈ a.sessions → j ≠ i → store.hits c k r = true →
    store.hits c k row = false

/-- A step of party `i`. -/
inductive ArchiveStep (store : Store) (i : ι) (a a' : Archive ι) : Prop
  | task (taskId : TaskId) : Beside a a' taskId →
      TaskStep i (a.row taskId) (a'.row taskId) (a.accounts taskId) (a'.accounts taskId) →
      ArchiveStep store i a a'
  | draw {taskId : TaskId} : a.isFresh taskId = true →
      a' = { a with drawn := (taskId, i) :: a.drawn } → ArchiveStep store i a a'
  | insert {row : Row} : store = .sqlite ∨ store = .postgres → (row.task.id, i) ∈ a.drawn →
      Storable store a i row.task.id row → (∀ r, (i, r) ∉ a.sessions) →
      a' = { a with sessions := (i, row) :: a.sessions } → ArchiveStep store i a a'
  | rollback : a' = a.endSession i → ArchiveStep store i a a'
  | create {taskId : TaskId} {row : Row} : Storable store a i taskId row →
      a' = (a.add store i taskId row).endSession i → ArchiveStep store i a a'

/-- What the requests keep. -/
structure ArchiveInv (store : Store) (start a : Archive ι) : Prop where
  listed : ∀ t row, a.row t = some row → t ∈ a.ids
  proper : ∀ t row, a.row t = some row →
    row.task.id = t ∧ row.task.metadata.entries.lookup justCreatedKey = none
  there : ∀ c k t, a.find store c k = some t → ∃ row, a.row t = some row
  owned : ∀ t i, a.accounts t i ≠ {} → t ∈ a.ids
  account : ∀ t i, (a.accounts t i).handed.length ≤ 1 ∧
    ((a.accounts t i).handed ≠ [] → (a.accounts t i).commits ≠ 0)
  unique : ∀ t i j, (a.accounts t i).commits ≠ 0 → (a.accounts t j).commits ≠ 0 → i = j
  drawn : ∀ t i j, (t, i) ∈ a.drawn → (t, j) ∈ a.drawn → i = j
  sql : ∀ i row, (i, row) ∈ a.sessions → store = .sqlite ∨ store = .postgres
  single : ∀ i row row', (i, row) ∈ a.sessions → (i, row') ∈ a.sessions → row' = row
  session : ∀ i row, (i, row) ∈ a.sessions →
    (row.task.id, i) ∈ a.drawn ∧ Storable store a i row.task.id row
  origin : ∀ c k t, a.find store c k = some t →
    start.find store c k = some t ∨ ∃ i, (a.accounts t i).commits ≠ 0

/-- What request `i` relies on. -/
structure Aside (store : Store) (start : Archive ι) (i : ι) (a a' : Archive ι) : Prop where
  accounts : ∀ t, a'.accounts t i = a.accounts t i
  sessions : ∀ row, (i, row) ∈ a'.sessions ↔ (i, row) ∈ a.sessions
  drawn : ∀ t, (t, i) ∈ a.drawn → (t, i) ∈ a'.drawn
  unstored : ∀ t, (t, i) ∈ a.drawn → t ∉ a.ids → t ∉ a'.ids
  rows : ∀ t row, a.row t = some row → ∃ row', a'.row t = some row' ∧ SameTask row row'
  found : ∀ c k t, a.find store c k = some t → a'.find store c k = some t
  inv : ArchiveInv store start a'

/-- What request `i` has to meet on a task. -/
def TaskReq (taskId : TaskId) (i : ι) {β : Type} (e : Call β) (o : Office ι) : Prop :=
  match e with
  | .inl (.update _ args) => (o.accounts i).commits ≠ 0 ∧ Harmless args
  | .inl (.updateWrite b _ args _ row values) =>
    Honest taskId b args row values o.world ∧ (o.accounts i).commits ≠ 0 ∧ Harmless args
  | .inr (.createTask _ _) => False
  | .inr (.enqueue _) => (o.accounts i).commits ≠ 0 ∧ (o.accounts i).handed = []
  | _ => True

/-- What request `i` has to meet. -/
def ArchiveReq (store : Store) (i : ι) {β : Type} (e : ArchiveCall β) (a : Archive ι) : Prop :=
  match e with
  | .inl (.createInMemory _ _ _) => store = .memory
  | .inl (.insert t _ _ _) => (store = .sqlite ∨ store = .postgres) ∧ (t, i) ∈ a.drawn ∧
      t ∉ a.ids ∧ ∀ row, (i, row) ∉ a.sessions
  | .inl (.createScript t _ _ _) => store = .redis ∧ (t, i) ∈ a.drawn ∧ t ∉ a.ids
  | .inr (t, e) => TaskReq t i e (a.offices t)
  | _ => True

variable {cfg : BusConfig} {store : Store} {start a a' : Archive ι} {i : ι}

omit [DecidableEq ι] in
theorem Archive.isFresh_iff {taskId : TaskId} :
    a.isFresh taskId = true ↔ taskId ∉ a.ids ∧ ∀ j, (taskId, j) ∉ a.drawn := by
  simp only [Archive.isFresh, Bool.and_eq_true, Bool.not_eq_true', List.contains_eq_mem,
    decide_eq_false_iff_not, List.any_eq_false, decide_eq_true_eq, Prod.forall]
  refine and_congr_right fun _ => ⟨fun h j hj => h taskId j hj rfl, fun h t j hj ht => ?_⟩
  exact h j (ht ▸ hj)

omit [DecidableEq ι] in
/-- A row that nothing was found for can be stored. -/
theorem storable_newRow {taskId : TaskId} {c : ContextId} {message : Message} {k : Option String}
    (hnew : taskId ∉ a.ids) (howner : ∀ j, (taskId, j) ∈ a.drawn → j = i)
    (hnone : k.bind (a.find store c) = none)
    (hapart : ∀ j r c' k', (j, r) ∈ a.sessions → j ≠ i → store.hits c' k' r = true →
      store.hits c' k' (a.newRow taskId c message k) = false) :
    Storable store a i taskId (a.newRow taskId c message k) where
  id := rfl
  unmarked := (Archive.lookup_initialMetadata k _).2
  unstored := hnew
  owner := howner
  own _ := Archive.hits_newRow_self
  unfound c' k' hhits := by
    obtain ⟨k'', rfl, hfind⟩ := Archive.hits_newRow hhits
    exact hfind.trans hnone
  apart := hapart

omit [DecidableEq ι] in
/-- Two rows that a unique index tells apart. -/
theorem hits_newRow_of_sql {taskId : TaskId} {c c' : ContextId} {message : Message}
    {k : Option String} {k' : String} (hsql : store = .sqlite ∨ store = .postgres)
    (h : store.hits c' k' (a.newRow taskId c message k) = true) : c' = c ∧ k = some k' := by
  have hhits : (decide (c = c') && decide (k = some k')) = true := by
    rcases hsql with rfl | rfl <;> exact h
  obtain ⟨hctx, hkey⟩ := Bool.and_eq_true_iff.mp hhits
  exact ⟨(of_decide_eq_true hctx).symm, of_decide_eq_true hkey⟩

/-- What an operation on a task does. -/
theorem taskStep {taskId : TaskId} {β : Type} {e : Call β} {b : β} {o o' : Office ι}
    (hreq : TaskReq taskId i e o) (h : Office.perform cfg taskId i e o = some (o', b)) :
    TaskStep i o.world.row o'.world.row o.accounts o'.accounts := by
  rcases e with e | e
  · obtain ⟨hworld, hput⟩ := Office.perform_op h
    have hwrites : WritesOf taskId (fun args => (o.accounts i).commits ≠ 0 ∧ Harmless args) e
        o.world := by
      cases e <;> exact hreq
    rcases hwrites.perform hworld with
      ⟨hrow, -⟩ | ⟨args, row, row', ⟨hown, hargs⟩, hrow, hcommit, hw'⟩
    · exact .idle hrow (by rw [hput]; exact Office.put_same hrow)
    · have hrow' : o'.world.row = some row' := by rw [hw']
      refine .write hrow hrow' (hcommit.sameTask hargs) hown ?_
      rw [hput, Office.put_commit hrow hrow' hcommit.later.version]
  · cases e with
    | createTask contextId m => exact hreq.elim
    | enqueue m =>
      obtain ⟨rfl, -⟩ := Prod.mk.inj (Option.some_inj.mp h)
      refine .handOver (m := m) rfl hreq.1 hreq.2 ?_
      show Function.update o.accounts i _ = _
      rw [hreq.2]
      rfl
    | runTask =>
      obtain ⟨rfl, -⟩ := Prod.mk.inj (Option.some_inj.mp h)
      exact .idle rfl rfl

omit [DecidableEq ι] in
/-- An archive is beside itself. -/
theorem Beside.refl (a : Archive ι) (taskId : TaskId) : Beside a a taskId :=
  ⟨rfl, rfl, rfl, rfl, fun _ _ => rfl, fun _ _ => rfl⟩

theorem ArchiveStep.refl : ArchiveStep store i a a :=
  .task "" (.refl a "") (.idle rfl rfl)

theorem Archive.endSession_add {t : TaskId} {row : Row} : (a.add store i t row).endSession i =
    { a.add store i t row with sessions := a.sessions.filter fun s => s.1 ≠ i } := rfl

/-- Without transactions there is nothing to close. -/
theorem ArchiveInv.sessions_eq (hinv : ArchiveInv store start a) (hlite : store ≠ .sqlite)
    (hpost : store ≠ .postgres) : a.sessions.filter (fun s => s.1 ≠ i) = a.sessions := by
  rw [List.filter_eq_self]
  rintro ⟨j, r⟩ hmem
  rcases hinv.sql j r hmem with heq | heq
  · exact absurd heq hlite
  · exact absurd heq hpost

omit [DecidableEq ι] in
/-- A row that nothing was found for can be stored where there are no transactions. -/
theorem ArchiveInv.storable {t : TaskId} {c : ContextId} {message : Message} {k : Option String}
    (hinv : ArchiveInv store start a) (hlite : store ≠ .sqlite) (hpost : store ≠ .postgres)
    (hnew : t ∉ a.ids) (howner : ∀ j, (t, j) ∈ a.drawn → j = i)
    (hnone : k.bind (a.find store c) = none) :
    Storable store a i t (a.newRow t c message k) := by
  refine storable_newRow hnew howner hnone fun j r _ _ hmem => ?_
  rcases hinv.sql j r hmem with heq | heq
  · exact absurd heq hlite
  · exact absurd heq hpost

section

variable {t : TaskId} {c : ContextId} {message : Message} {k : Option String}

/-- The task of an earlier call, or a new one. -/
theorem createInMemory_spec {task : Task} (hinv : ArchiveInv .memory start a)
    (h : a.perform cfg .memory i (.inl (.createInMemory c message k)) = some (a', task)) :
    (∃ k' t row, k = some k' ∧ a.find .memory c k' = some t ∧ a.row t = some row ∧
      task = row.task ∧ a' = a) ∨
    ∃ t, Storable .memory a i t (a.newRow t c message k) ∧
      task = (a.newRow t c message k).task.markCreated ∧
      a' = (a.add .memory i t (a.newRow t c message k)).endSession i := by
  simp only [Archive.perform] at h
  split at h
  · rename_i row hrow
    obtain ⟨rfl, rfl⟩ := Prod.mk.inj (Option.some_inj.mp h)
    obtain ⟨t, ht, hstored⟩ := Option.bind_eq_some_iff.mp hrow
    obtain ⟨k', rfl, hfind⟩ := Option.bind_eq_some_iff.mp ht
    exact Or.inl ⟨k', t, row, rfl, hfind, hstored, rfl, rfl⟩
  · rename_i hnone
    split at h
    · rename_i hfresh
      obtain ⟨hnew, hdrawn⟩ := Archive.isFresh_iff.mp hfresh
      have hfind : k.bind (a.find .memory c) = none := by
        rcases hk : k.bind (a.find .memory c) with _ | t
        · rfl
        · obtain ⟨k', -, hk'⟩ := Option.bind_eq_some_iff.mp hk
          obtain ⟨row, hrow⟩ := hinv.there c k' t hk'
          rw [hk] at hnone
          exact nomatch hnone.symm.trans hrow
      obtain ⟨rfl, rfl⟩ := Prod.mk.inj (Option.some_inj.mp h)
      refine Or.inr ⟨a.ambient.uuid, hinv.storable nofun nofun hnew
        (fun j hj => absurd hj (hdrawn j)) hfind, rfl, ?_⟩
      rw [Archive.endSession_add, hinv.sessions_eq nofun nofun]
      rfl
    · exact nomatch h

theorem createScript_spec {existing : TaskId} (hinv : ArchiveInv .redis start a)
    (hmine : (t, i) ∈ a.drawn) (hnew : t ∉ a.ids)
    (h : a.perform cfg .redis i (.inl (.createScript t c message k)) = some (a', existing)) :
    (∃ k', k = some k' ∧ a.find .redis c k' = some existing ∧ a' = a) ∨
    Storable .redis a i t (a.newRow t c message k) ∧ existing = t ∧
      a' = (a.add .redis i t (a.newRow t c message k)).endSession i := by
  simp only [Archive.perform] at h
  split at h
  · rename_i t' ht'
    obtain ⟨rfl, rfl⟩ := Prod.mk.inj (Option.some_inj.mp h)
    obtain ⟨k', rfl, hfind⟩ := Option.bind_eq_some_iff.mp ht'
    exact Or.inl ⟨k', rfl, hfind, rfl⟩
  · rename_i hnone
    obtain ⟨rfl, rfl⟩ := Prod.mk.inj (Option.some_inj.mp h)
    refine Or.inr ⟨hinv.storable nofun nofun hnew (fun j hj => hinv.drawn t j i hj hmine) hnone,
      rfl, ?_⟩
    rw [Archive.endSession_add, hinv.sessions_eq nofun nofun]
    rfl

/-- The unique index: the row is ignored, or belongs to the transaction. -/
theorem insert_spec (hinv : ArchiveInv store start a) (hsql : store = .sqlite ∨ store = .postgres)
    (hmine : (t, i) ∈ a.drawn) (hnew : t ∉ a.ids)
    (h : a.perform cfg store i (.inl (.insert t c message k)) = some (a', ())) :
    (∃ k' t', k = some k' ∧ a.find store c k' = some t' ∧ a' = a) ∨
    Storable store a i t (a.newRow t c message k) ∧
      a' = { a with sessions := (i, a.newRow t c message k) :: a.sessions } := by
  simp only [Archive.perform] at h
  split at h
  · exact nomatch h
  · rename_i hfree
    split at h
    · rename_i t' ht'
      obtain ⟨k', rfl, hfind⟩ := Option.bind_eq_some_iff.mp ht'
      exact Or.inl ⟨k', t', rfl, hfind, (Prod.mk.inj (Option.some_inj.mp h)).1.symm⟩
    · rename_i hnone
      refine Or.inr ⟨?_, (Prod.mk.inj (Option.some_inj.mp h)).1.symm⟩
      refine storable_newRow hnew (fun j hj => hinv.drawn t j i hj hmine) hnone ?_
      intro j r c' k' hmem hj hhits
      by_contra hboth
      obtain ⟨rfl, rfl⟩ := hits_newRow_of_sql hsql (by simpa using hboth)
      -- the insert would have waited
      refine hfree (List.any_eq_true.mpr ⟨(j, r), hmem, ?_⟩)
      simp [hj, hhits]

theorem commit_spec (hinv : ArchiveInv store start a)
    (h : a.perform cfg store i (.inl .commit) = some (a', ())) :
    (a' = a ∧ ∀ row, (i, row) ∉ a.sessions) ∨
    ∃ row, (i, row) ∈ a.sessions ∧ Storable store a i row.task.id row ∧
      a' = (a.add store i row.task.id row).endSession i := by
  simp only [Archive.perform] at h
  split at h
  · rename_i hnone
    refine Or.inl ⟨(Prod.mk.inj (Option.some_inj.mp h)).1.symm, fun row hmem => ?_⟩
    exact List.find?_eq_none.mp hnone (i, row) hmem (decide_eq_true rfl)
  · rename_i s hs
    have hparty := List.find?_some hs
    obtain rfl : s.1 = i := of_decide_eq_true hparty
    have hmem := List.mem_of_find?_eq_some hs
    exact Or.inr ⟨s.2, hmem, (hinv.session s.1 s.2 hmem).2,
      (Prod.mk.inj (Option.some_inj.mp h)).1.symm⟩

end

/-- **What the operations do.** -/
theorem archiveStep {β : Type} {e : ArchiveCall β} {b : β} (hinv : ArchiveInv store start a)
    (hreq : ArchiveReq store i e a) (h : a.perform cfg store i e = some (a', b)) :
    ArchiveStep store i a a' := by
  rcases e with e | ⟨t, e⟩
  · cases e with
    | uuid =>
      simp only [Archive.perform] at h
      split at h
      · rename_i hfresh
        exact .draw hfresh (Prod.mk.inj (Option.some_inj.mp h)).1.symm
      · exact nomatch h
    | await =>
      rw [← (Prod.mk.inj (Option.some_inj.mp h)).1]
      exact .refl
    | createInMemory c message k =>
      obtain rfl : store = .memory := hreq
      rcases createInMemory_spec hinv h with ⟨_, _, _, -, -, -, -, rfl⟩ | ⟨t, hstore, -, rfl⟩
      · exact .refl
      · exact .create hstore rfl
    | insert t c message k =>
      obtain ⟨hsql, hmine, hnew, hidle⟩ := hreq
      rcases insert_spec hinv hsql hmine hnew h with ⟨_, _, -, -, rfl⟩ | ⟨hstore, rfl⟩
      · exact .refl
      · exact .insert hsql hmine hstore hidle rfl
    | select c k =>
      rw [← (Prod.mk.inj (Option.some_inj.mp h)).1]
      exact .refl
    | commit =>
      rcases commit_spec hinv h with ⟨rfl, -⟩ | ⟨row, -, hstore, rfl⟩
      · exact .refl
      · exact .create hstore rfl
    | rollback =>
      exact .rollback (Prod.mk.inj (Option.some_inj.mp h)).1.symm
    | createScript t c message k =>
      obtain ⟨rfl, hmine, hnew⟩ := hreq
      rcases createScript_spec hinv hmine hnew h with ⟨_, -, -, rfl⟩ | ⟨hstore, -, rfl⟩
      · exact .refl
      · exact .create hstore rfl
    | load t =>
      rw [← (Prod.mk.inj (Option.some_inj.mp h)).1]
      exact .refl
  · obtain ⟨⟨o, b'⟩, hperf, heq⟩ := Option.map_eq_some_iff.mp h
    obtain ⟨rfl, rfl⟩ := Prod.mk.inj heq
    -- an operation on the task `t` leaves the offices of the other tasks
    refine .task t ⟨rfl, rfl, rfl, rfl, fun s hs => ?_, fun s hs => ?_⟩ ?_
    · simp [Archive.row, Function.update_of_ne hs]
    · simp [Archive.accounts, Function.update_of_ne hs]
    · have hself : ∀ o' : Office ι, Function.update a.offices t o' t = o' :=
        fun o' => Function.update_self ..
      simp only [Archive.row, Archive.accounts, hself]
      exact taskStep hreq hperf

/-! ### What a step keeps -/

theorem sameTask_refl (r : Option Row) : Option.Rel SameTask r r := by
  cases r with
  | none => exact .none
  | some row => exact .some (.refl row)

namespace TaskStep

variable {r r' : Option Row} {f f' : ι → Account} (h : TaskStep i r r' f f')
include h

theorem rows : Option.Rel SameTask r r' := by
  cases h with
  | idle hrow _ =>
    rw [hrow]
    exact sameTask_refl r
  | write hrow hrow' hsame _ _ =>
    rw [hrow, hrow']
    exact .some hsame
  | handOver hrow _ _ _ =>
    rw [hrow]
    exact sameTask_refl r

/-- Other accounts stay. -/
theorem accounts_of_ne {j : ι} (hj : j ≠ i) : f' j = f j := by
  cases h with
  | idle _ hf => rw [hf]
  | write _ _ _ _ hf => rw [hf, Function.update_of_ne hj]
  | handOver _ _ _ hf => rw [hf, Function.update_of_ne hj]

/-- Only the party that has stored the task commits to it. -/
theorem commits_iff (j : ι) : (f' j).commits ≠ 0 ↔ (f j).commits ≠ 0 := by
  by_cases hj : j = i
  · subst hj
    cases h with
    | idle _ hf => rw [hf]
    | write _ _ _ hown hf =>
      rw [hf, Function.update_self]
      exact ⟨fun _ => hown, fun _ => Nat.succ_ne_zero _⟩
    | handOver _ _ _ hf => rw [hf, Function.update_self]
  · rw [h.accounts_of_ne hj]

theorem owned {j : ι} (hj : f' j ≠ {}) : f j ≠ {} := by
  intro hnone
  have hcommits : ¬ (f j).commits ≠ 0 := by rw [hnone]; exact fun hne => hne rfl
  cases h with
  | idle _ hf => exact hj (by rw [hf]; exact hnone)
  | write _ _ _ hown hf =>
    have hne : j ≠ i := by
      rintro rfl
      exact hcommits hown
    exact hj (by rw [hf, Function.update_of_ne hne]; exact hnone)
  | handOver _ hown _ hf =>
    have hne : j ≠ i := by
      rintro rfl
      exact hcommits hown
    exact hj (by rw [hf, Function.update_of_ne hne]; exact hnone)

theorem account {j : ι} (hj : (f j).handed.length ≤ 1 ∧ ((f j).handed ≠ [] → (f j).commits ≠ 0)) :
    (f' j).handed.length ≤ 1 ∧ ((f' j).handed ≠ [] → (f' j).commits ≠ 0) := by
  refine ⟨?_, fun hne => (h.commits_iff j).mpr ?_⟩
  · cases h with
    | idle _ hf =>
      rw [hf]
      exact hj.1
    | write _ _ _ _ hf =>
      rw [hf, Function.update_apply]
      split
      · rename_i heq
        exact heq ▸ hj.1
      · exact hj.1
    | handOver _ _ _ hf =>
      rw [hf, Function.update_apply]
      split
      · exact le_refl 1
      · exact hj.1
  · by_cases hi : j = i
    · subst hi
      cases h with
      | idle _ hf => exact hj.2 (hf ▸ hne)
      | write _ _ _ hown _ => exact hown
      | handOver _ hown _ _ => exact hown
    · exact hj.2 (h.accounts_of_ne hi ▸ hne)

end TaskStep

omit [DecidableEq ι] in
/-- What is left of a transaction's row when others have moved. -/
theorem Storable.mono {t : TaskId} {row : Row} (h : Storable store a i t row) (hids : t ∉ a'.ids)
    (hdrawn : ∀ j, (t, j) ∈ a'.drawn → (t, j) ∈ a.drawn)
    (hfind : ∀ c k, store.hits c k row = true → a.find store c k = none →
      a'.find store c k = none)
    (hsessions : ∀ j r c k, (j, r) ∈ a'.sessions → j ≠ i → store.hits c k r = true →
      (j, r) ∈ a.sessions ∨ store.hits c k row = false) : Storable store a' i t row where
  id := h.id
  unmarked := h.unmarked
  unstored := hids
  owner j hj := h.owner j (hdrawn j hj)
  own := h.own
  unfound c k hhits := hfind c k hhits (h.unfound c k hhits)
  apart j r c k hmem hj hhits := by
    rcases hsessions j r c k hmem hj hhits with hold | hfalse
    · exact h.apart j r c k hold hj hhits
    · exact hfalse

omit [DecidableEq ι] in
theorem ArchiveInv.row_none {t : TaskId} (hinv : ArchiveInv store start a) (ht : t ∉ a.ids) :
    a.row t = none := by
  rcases hrow : a.row t with _ | row
  · rfl
  · exact absurd (hinv.listed t row hrow) ht

/-- What a new task adds to what is found. -/
theorem Storable.find {t : TaskId} {row : Row} (h : Storable store a i t row)
    (hinv : ArchiveInv store start a) (c : ContextId) (k : String) :
    (a.add store i t row).find store c k =
      (a.find store c k).or (if store.hits c k row then some t else none) :=
  Archive.find_add h.unstored (hinv.row_none h.unstored)
    fun k' hk' => h.unfound _ k' (h.own k' hk')

namespace ArchiveStep

variable (h : ArchiveStep store i a a') (hinv : ArchiveInv store start a)
include h

include hinv in
/-- What is found stays found. -/
theorem found {c : ContextId} {k : String} {t : TaskId} (hfind : a.find store c k = some t) :
    a'.find store c k = some t := by
  cases h with
  | task t' hb ht =>
    rw [Archive.find_congr hb.ids hb.idempotency fun s => ?_]
    · exact hfind
    · by_cases hs : s = t'
      · subst hs
        exact ht.rows
      · rw [hb.row s hs]
        exact sameTask_refl _
  | draw _ ha' =>
    subst ha'
    exact hfind
  | insert _ _ _ _ ha' =>
    subst ha'
    exact hfind
  | rollback ha' =>
    subst ha'
    exact hfind
  | create hstore ha' =>
    subst ha'
    exact (hstore.find hinv c k).trans (by rw [hfind]; rfl)

include hinv in
/-- A stored task stays stored. -/
theorem rows {t : TaskId} {row : Row} (hrow : a.row t = some row) :
    ∃ row', a'.row t = some row' ∧ SameTask row row' := by
  cases h with
  | task t' hb ht =>
    by_cases hs : t = t'
    · subst hs
      have hrel := ht.rows
      rw [hrow] at hrel
      generalize a'.row t = r at hrel
      cases hrel with
      | some hsame => exact ⟨_, rfl, hsame⟩
    · exact ⟨row, (hb.row t hs).trans hrow, .refl row⟩
  | draw _ ha' =>
    subst ha'
    exact ⟨row, hrow, .refl row⟩
  | insert _ _ _ _ ha' =>
    subst ha'
    exact ⟨row, hrow, .refl row⟩
  | rollback ha' =>
    subst ha'
    exact ⟨row, hrow, .refl row⟩
  | @create t' row' hstore ha' =>
    subst ha'
    have hne : t ≠ t' := by
      rintro rfl
      exact hstore.unstored (hinv.listed t row hrow)
    refine ⟨row, ?_, .refl row⟩
    show (a.add store i t' row').row t = some row
    rw [Archive.row_add (hinv.row_none hstore.unstored), Function.update_of_ne hne, hrow]

end ArchiveStep

omit [DecidableEq ι] in
/-- The stored tasks have moved on, and nothing else has. -/
theorem ArchiveInv.rows (hinv : ArchiveInv store start a)
    (hrows : ∀ t, Option.Rel SameTask (a.row t) (a'.row t)) (hids : a'.ids = a.ids)
    (hsessions : a'.sessions = a.sessions) (hidem : a'.idempotency = a.idempotency)
    (hdrawn : a'.drawn = a.drawn) (howned : ∀ t j, a'.accounts t j ≠ {} → a.accounts t j ≠ {})
    (haccount : ∀ t j, (a'.accounts t j).handed.length ≤ 1 ∧
      ((a'.accounts t j).handed ≠ [] → (a'.accounts t j).commits ≠ 0))
    (hcommits : ∀ t j, (a'.accounts t j).commits ≠ 0 ↔ (a.accounts t j).commits ≠ 0) :
    ArchiveInv store start a' := by
  have hfind : ∀ c k, a'.find store c k = a.find store c k :=
    fun c k => Archive.find_congr hids hidem hrows
  -- no task is stored by such a step, so every row was there before
  have hback : ∀ t row', a'.row t = some row' → ∃ row, a.row t = some row ∧ SameTask row row' := by
    intro t row' hrow'
    have hrel := hrows t
    rw [hrow'] at hrel
    generalize a.row t = r at hrel
    cases hrel with
    | some hsame => exact ⟨_, rfl, hsame⟩
  refine ⟨fun t row' hrow' => ?_, fun t row' hrow' => ?_, fun c k t hf => ?_, fun t j hj => ?_,
    haccount, fun t j j' hj hj' => ?_, ?_, ?_, ?_, fun j row hmem => ?_, fun c k t hf => ?_⟩
  · obtain ⟨row, hrow, -⟩ := hback t row' hrow'
    rw [hids]
    exact hinv.listed t row hrow
  · obtain ⟨row, hrow, hsame⟩ := hback t row' hrow'
    obtain ⟨hid, hmark⟩ := hinv.proper t row hrow
    exact ⟨hsame.id.trans hid, (hsame.entry justCreatedKey (by simp)).trans hmark⟩
  · obtain ⟨row, hrow⟩ := hinv.there c k t (hfind c k ▸ hf)
    have hrel := hrows t
    rw [hrow] at hrel
    generalize a'.row t = r at hrel
    cases hrel with
    | some _ => exact ⟨_, rfl⟩
  · rw [hids]
    exact hinv.owned t j (howned t j hj)
  · exact hinv.unique t j j' ((hcommits t j).mp hj) ((hcommits t j').mp hj')
  · rw [hdrawn]
    exact hinv.drawn
  · rw [hsessions]
    exact hinv.sql
  · rw [hsessions]
    exact hinv.single
  · rw [hsessions] at hmem
    obtain ⟨hmine, hstore⟩ := hinv.session j row hmem
    refine ⟨by rw [hdrawn]; exact hmine, hstore.mono ?_ ?_ ?_ ?_⟩
    · rw [hids]
      exact hstore.unstored
    · rw [hdrawn]
      exact fun _ hj => hj
    · intro c k _ hnone
      rw [hfind]
      exact hnone
    · rw [hsessions]
      exact fun _ _ _ _ hmem' _ _ => Or.inl hmem'
  · rcases hinv.origin c k t (hfind c k ▸ hf) with hstart | ⟨j, hj⟩
    · exact Or.inl hstart
    · exact Or.inr ⟨j, (hcommits t j).mpr hj⟩

/-- A step on one task moves the stored tasks on. -/
theorem TaskStep.beside {t' : TaskId} (hb : Beside a a' t')
    (ht : TaskStep i (a.row t') (a'.row t') (a.accounts t') (a'.accounts t')) (t : TaskId) :
    Option.Rel SameTask (a.row t) (a'.row t) := by
  by_cases hs : t = t'
  · subst hs
    exact ht.rows
  · rw [hb.row t hs]
    exact sameTask_refl _

/-- A step on one task. -/
theorem ArchiveInv.task {t' : TaskId} (hinv : ArchiveInv store start a) (hb : Beside a a' t')
    (ht : TaskStep i (a.row t') (a'.row t') (a.accounts t') (a'.accounts t')) :
    ArchiveInv store start a' := by
  refine hinv.rows (ht.beside hb) hb.ids hb.sessions hb.idempotency hb.drawn (fun t j hj => ?_)
    (fun t j => ?_) fun t j => ?_
  · by_cases hs : t = t'
    · subst hs
      exact ht.owned hj
    · exact hb.accounts t hs ▸ hj
  · by_cases hs : t = t'
    · subst hs
      exact ht.account (hinv.account t j)
    · rw [hb.accounts t hs]
      exact hinv.account t j
  · by_cases hs : t = t'
    · subst hs
      exact ht.commits_iff j
    · rw [hb.accounts t hs]

/-- What a new task leaves of a transaction. -/
theorem Storable.create {t : TaskId} {row row' : Row} {j : ι} (hinv : ArchiveInv store start a)
    (hstore : Storable store a i t row) (hj : j ≠ i) (hmem : (j, row') ∈ a.sessions) :
    Storable store ((a.add store i t row).endSession i) j row'.task.id row' := by
  obtain ⟨hdrawn, h⟩ := hinv.session j row' hmem
  refine h.mono ?_ (fun _ hd => hd) ?_ fun j' r c k hmem' _ _ =>
    Or.inl (List.mem_filter.mp hmem').1
  · show row'.task.id ∉ a.ids ++ [t]
    intro hids
    rcases List.mem_append.mp hids with hold | hnew
    · exact h.unstored hold
    · exact hj (hstore.owner j (List.mem_singleton.mp hnew ▸ hdrawn))
  · intro c k hhits hnone
    have hapart := hstore.apart j row' c k hmem hj hhits
    refine (hstore.find hinv c k).trans ?_
    rw [hnone, hapart]
    rfl

/-- A new task. -/
theorem ArchiveInv.create {t : TaskId} {row : Row} (hinv : ArchiveInv store start a)
    (hstore : Storable store a i t row) :
    ArchiveInv store start ((a.add store i t row).endSession i) := by
  have hnone := hinv.row_none hstore.unstored
  let a' := (a.add store i t row).endSession i
  have hrow' : a'.row = Function.update a.row t (some row) :=
    (Archive.row_add hnone : (a.add store i t row).row = _)
  have haccounts : a'.accounts = Function.update a.accounts t (Function.update (a.accounts t) i
      { a.accounts t i with commits := (a.accounts t i).commits + 1 }) :=
    (Archive.accounts_add hnone : (a.add store i t row).accounts = _)
  -- nobody has done anything to the new task before
  have hempty : ∀ j, a.accounts t j = {} := by
    intro j
    by_contra hj
    exact hstore.unstored (hinv.owned t j hj)
  have hself : ∀ j, (a'.accounts t j).commits ≠ 0 ↔ j = i := by
    intro j
    rw [haccounts, Function.update_self]
    by_cases hj : j = i
    · subst hj
      simp
    · rw [Function.update_of_ne hj, hempty j]
      simp [hj]
  have hother : ∀ s, s ≠ t → a'.accounts s = a.accounts s := by
    intro s hs
    rw [haccounts, Function.update_of_ne hs]
  have hfind : ∀ c k, a'.find store c k =
      (a.find store c k).or (if store.hits c k row then some t else none) := hstore.find hinv
  have hcases : ∀ c k s, a'.find store c k = some s → a.find store c k = some s ∨ s = t := by
    intro c k s hs
    rw [hfind] at hs
    rcases hold : a.find store c k with _ | s'
    · rw [hold, Option.none_or] at hs
      split at hs
      · exact Or.inr (Option.some_inj.mp hs).symm
      · exact nomatch hs
    · rw [hold] at hs
      exact Or.inl hs
  refine ⟨fun s r hr => ?_, fun s r hr => ?_, fun c k s hs => ?_, fun s j hj => ?_, fun s j => ?_,
    fun s j j' hj hj' => ?_, hinv.drawn, fun j r hmem => ?_, fun j r r' hmem hmem' => ?_,
    fun j r hmem => ?_, fun c k s hs => ?_⟩
  · show s ∈ a.ids ++ [t]
    by_cases hst : s = t
    · exact List.mem_append_right _ (List.mem_singleton.mpr hst)
    · refine List.mem_append_left _ (hinv.listed s r ?_)
      have hrs : a'.row s = some r := hr
      rwa [hrow', Function.update_of_ne hst] at hrs
  · have hrs : a'.row s = some r := hr
    by_cases hst : s = t
    · subst hst
      rw [hrow', Function.update_self] at hrs
      obtain rfl := Option.some_inj.mp hrs
      exact ⟨hstore.id, hstore.unmarked⟩
    · rw [hrow', Function.update_of_ne hst] at hrs
      exact hinv.proper s r hrs
  · show ∃ r, a'.row s = some r
    by_cases hst : s = t
    · subst hst
      exact ⟨row, by rw [hrow', Function.update_self]⟩
    · rcases hcases c k s hs with hold | heq
      · obtain ⟨r, hr⟩ := hinv.there c k s hold
        exact ⟨r, by rw [hrow', Function.update_of_ne hst, hr]⟩
      · exact absurd heq hst
  · show s ∈ a.ids ++ [t]
    by_cases hst : s = t
    · exact List.mem_append_right _ (List.mem_singleton.mpr hst)
    · have hjs : a'.accounts s j ≠ {} := hj
      rw [hother s hst] at hjs
      exact List.mem_append_left _ (hinv.owned s j hjs)
  · show (a'.accounts s j).handed.length ≤ 1 ∧
      ((a'.accounts s j).handed ≠ [] → (a'.accounts s j).commits ≠ 0)
    by_cases hst : s = t
    · subst hst
      have hhanded : (a'.accounts s j).handed = [] := by
        rw [haccounts, Function.update_self, Function.update_apply]
        split
        · rw [hempty i]
        · rw [hempty j]
      rw [hhanded]
      exact ⟨Nat.zero_le _, fun hne => absurd rfl hne⟩
    · rw [hother s hst]
      exact hinv.account s j
  · by_cases hst : s = t
    · subst hst
      exact ((hself j).mp hj).trans ((hself j').mp hj').symm
    · have hjs : (a'.accounts s j).commits ≠ 0 := hj
      have hjs' : (a'.accounts s j').commits ≠ 0 := hj'
      rw [hother s hst] at hjs hjs'
      exact hinv.unique s j j' hjs hjs'
  · exact hinv.sql j r (List.mem_filter.mp hmem).1
  · exact hinv.single j r r' (List.mem_filter.mp hmem).1 (List.mem_filter.mp hmem').1
  · obtain ⟨hold, hne⟩ := List.mem_filter.mp hmem
    exact ⟨(hinv.session j r hold).1, hstore.create hinv (of_decide_eq_true hne) hold⟩
  · rcases hcases c k s hs with hold | rfl
    · rcases hinv.origin c k s hold with hstart | ⟨j, hj⟩
      · exact Or.inl hstart
      · refine Or.inr ⟨j, ?_⟩
        have hst : s ≠ t := by
          rintro rfl
          exact hj (by rw [hempty j])
        show (a'.accounts s j).commits ≠ 0
        rw [hother s hst]
        exact hj
    · exact Or.inr ⟨i, (hself i).mpr rfl⟩

omit [DecidableEq ι] in
/-- An archive with the same tasks. -/
theorem ArchiveInv.same (hinv : ArchiveInv store start a) (hrow : a'.row = a.row)
    (haccounts : a'.accounts = a.accounts) (hids : a'.ids = a.ids)
    (hidem : a'.idempotency = a.idempotency)
    (hdrawn : ∀ t i j, (t, i) ∈ a'.drawn → (t, j) ∈ a'.drawn → i = j)
    (hsql : ∀ i row, (i, row) ∈ a'.sessions → store = .sqlite ∨ store = .postgres)
    (hsingle : ∀ i row row', (i, row) ∈ a'.sessions → (i, row') ∈ a'.sessions → row' = row)
    (hsession : ∀ i row, (i, row) ∈ a'.sessions →
      (row.task.id, i) ∈ a'.drawn ∧ Storable store a' i row.task.id row) :
    ArchiveInv store start a' := by
  have hfind : ∀ c k, a'.find store c k = a.find store c k :=
    fun c k => Archive.find_eq_of_row hids hidem hrow
  refine ⟨?_, ?_, ?_, ?_, ?_, ?_, hdrawn, hsql, hsingle, hsession, ?_⟩
  · rw [hrow, hids]
    exact hinv.listed
  · rw [hrow]
    exact hinv.proper
  · intro c k t
    rw [hfind, hrow]
    exact hinv.there c k t
  · rw [haccounts, hids]
    exact hinv.owned
  · rw [haccounts]
    exact hinv.account
  · rw [haccounts]
    exact hinv.unique
  · intro c k t
    rw [hfind, haccounts]
    exact hinv.origin c k t

/-- **Every step keeps the invariant.** -/
theorem ArchiveInv.step (hinv : ArchiveInv store start a) (h : ArchiveStep store i a a') :
    ArchiveInv store start a' := by
  cases h with
  | task t hb ht => exact hinv.task hb ht
  | @draw t hfresh ha' =>
    subst ha'
    obtain ⟨hnew, hundrawn⟩ := Archive.isFresh_iff.mp hfresh
    refine hinv.same rfl rfl rfl rfl ?_ hinv.sql hinv.single fun j row hmem => ?_
    · intro s j j' hj hj'
      rcases List.mem_cons.mp hj with heq | hold
      · obtain ⟨rfl, rfl⟩ := Prod.mk.inj heq
        rcases List.mem_cons.mp hj' with heq' | hold'
        · exact (Prod.mk.inj heq').2.symm
        · exact absurd hold' (hundrawn j')
      · rcases List.mem_cons.mp hj' with heq' | hold'
        · obtain ⟨rfl, rfl⟩ := Prod.mk.inj heq'
          exact absurd hold (hundrawn j)
        · exact hinv.drawn s j j' hold hold'
    · obtain ⟨hdrawn, hstore⟩ := hinv.session j row hmem
      refine ⟨List.mem_cons_of_mem _ hdrawn, hstore.mono hstore.unstored (fun j' hj' => ?_)
        (fun _ _ _ hnone => hnone) fun _ _ _ _ hmem' _ _ => Or.inl hmem'⟩
      rcases List.mem_cons.mp hj' with heq | hj'
      · exact absurd hdrawn ((Prod.mk.inj heq).1 ▸ hundrawn j)
      · exact hj'
  | @insert row hsql hdrawn hstore hidle ha' =>
    subst ha'
    refine hinv.same rfl rfl rfl rfl hinv.drawn ?_ ?_ fun j r hmem => ?_
    · intro j r hmem
      exact hsql
    · intro j r r' hmem hmem'
      rcases List.mem_cons.mp hmem with heq | hold
      · obtain ⟨rfl, rfl⟩ := Prod.mk.inj heq
        rcases List.mem_cons.mp hmem' with heq' | hold'
        · exact (Prod.mk.inj heq').2
        · exact absurd hold' (hidle r')
      · rcases List.mem_cons.mp hmem' with heq' | hold'
        · obtain ⟨rfl, rfl⟩ := Prod.mk.inj heq'
          exact absurd hold (hidle r)
        · exact hinv.single j r r' hold hold'
    · rcases List.mem_cons.mp hmem with heq | hold
      · obtain ⟨rfl, rfl⟩ := Prod.mk.inj heq
        refine ⟨hdrawn, hstore.mono hstore.unstored (fun _ hj => hj) (fun _ _ _ hnone => hnone)
          fun j' r' c k hmem' hj' _ => ?_⟩
        rcases List.mem_cons.mp hmem' with heq' | hmem'
        · exact absurd (Prod.mk.inj heq').1 hj'
        · exact Or.inl hmem'
      · obtain ⟨hd, hs⟩ := hinv.session j r hold
        refine ⟨hd, hs.mono hs.unstored (fun _ hj => hj) (fun _ _ _ hnone => hnone)
          fun j' r' c k hmem' hj' hhits => ?_⟩
        rcases List.mem_cons.mp hmem' with heq' | hmem'
        · -- the new row and this one are apart
          obtain ⟨rfl, rfl⟩ := Prod.mk.inj heq'
          refine Or.inr ?_
          by_contra hboth
          have hfalse := hstore.apart j r c k hold (Ne.symm hj') (by simpa using hboth)
          exact nomatch hhits.symm.trans hfalse
        · exact Or.inl hmem'
  | rollback ha' =>
    subst ha'
    have hsub : ∀ {s : ι × Row}, s ∈ (a.endSession i).sessions → s ∈ a.sessions :=
      fun hs => (List.mem_filter.mp hs).1
    refine hinv.same rfl rfl rfl rfl hinv.drawn (fun j r hmem => hinv.sql j r (hsub hmem))
      (fun j r r' hmem hmem' => hinv.single j r r' (hsub hmem) (hsub hmem')) fun j r hmem => ?_
    obtain ⟨hdrawn, hstore⟩ := hinv.session j r (hsub hmem)
    exact ⟨hdrawn, hstore.mono hstore.unstored (fun _ hj => hj) (fun _ _ _ hnone => hnone)
      fun _ _ _ _ hmem' _ _ => Or.inl (hsub hmem')⟩
  | create hstore ha' =>
    subst ha'
    exact hinv.create hstore

/-- Only its own account changes. -/
theorem ArchiveStep.accounts_of_ne {j : ι} (hj : j ≠ i) (hinv : ArchiveInv store start a)
    (h : ArchiveStep store i a a') (t : TaskId) : a'.accounts t j = a.accounts t j := by
  cases h with
  | task t' hb ht =>
    by_cases hs : t = t'
    · subst hs
      exact ht.accounts_of_ne hj
    · rw [hb.accounts t hs]
  | draw _ ha' => rw [ha']; rfl
  | insert _ _ _ _ ha' => rw [ha']; rfl
  | rollback ha' => rw [ha']; rfl
  | @create t' row hstore ha' =>
    subst ha'
    show (a.add store i t' row).accounts t j = _
    rw [Archive.accounts_add (hinv.row_none hstore.unstored)]
    by_cases hs : t = t'
    · subst hs
      rw [Function.update_self, Function.update_of_ne hj]
    · rw [Function.update_of_ne hs]

/-- Only its own session is opened or closed. -/
theorem ArchiveStep.mem_sessions_of_ne {j : ι} (hj : j ≠ i) (h : ArchiveStep store i a a')
    (row : Row) : (j, row) ∈ a'.sessions ↔ (j, row) ∈ a.sessions := by
  have hkept : (j, row) ∈ a.sessions.filter (fun s => decide (s.1 ≠ i)) ↔ (j, row) ∈ a.sessions := by
    rw [List.mem_filter, decide_eq_true_eq]
    exact and_iff_left hj
  cases h with
  | task _ hb _ => rw [hb.sessions]
  | draw _ ha' => rw [ha']
  | insert _ _ _ _ ha' =>
    subst ha'
    exact ⟨fun hmem => (List.mem_cons.mp hmem).resolve_left fun heq => hj (Prod.mk.inj heq).1,
      List.mem_cons_of_mem _⟩
  | rollback ha' =>
    subst ha'
    exact hkept
  | create _ ha' =>
    subst ha'
    exact hkept

/-- A drawn id stays drawn. -/
theorem ArchiveStep.mem_drawn {t : TaskId} {j : ι} (h : ArchiveStep store i a a')
    (ht : (t, j) ∈ a.drawn) : (t, j) ∈ a'.drawn := by
  cases h with
  | task _ hb _ => rwa [hb.drawn]
  | draw _ ha' =>
    subst ha'
    exact List.mem_cons_of_mem _ ht
  | insert _ _ _ _ ha' | rollback ha' | create _ ha' =>
    subst ha'
    exact ht

/-- No other request stores a task under an id that this one has drawn. -/
theorem ArchiveStep.not_mem_ids {t : TaskId} {j : ι} (hj : j ≠ i) (h : ArchiveStep store i a a')
    (ht : (t, j) ∈ a.drawn) (hnew : t ∉ a.ids) : t ∉ a'.ids := by
  cases h with
  | task _ hb _ => rwa [hb.ids]
  | draw _ ha' | insert _ _ _ _ ha' | rollback ha' =>
    subst ha'
    exact hnew
  | @create t' row hstore ha' =>
    subst ha'
    show t ∉ a.ids ++ [t']
    intro hmem
    rcases List.mem_append.mp hmem with hold | heq
    · exact hnew hold
    · exact hj (hstore.owner j (List.mem_singleton.mp heq ▸ ht))

/-- A step of one request is within what the others rely on. -/
theorem ArchiveStep.aside {j : ι} (hj : j ≠ i) (hinv : ArchiveInv store start a)
    (h : ArchiveStep store i a a') : Aside store start j a a' where
  accounts := h.accounts_of_ne hj hinv
  sessions := h.mem_sessions_of_ne hj
  drawn _ := h.mem_drawn
  unstored _ := h.not_mem_ids hj
  rows _ _ := h.rows hinv
  found _ _ _ := h.found hinv
  inv := hinv.step h

/-! ### The requests together -/

/-- What happens beside the requests: workers and other writers change the stored tasks, and
time goes on. -/
structure Surroundings (a a' : Archive ι) : Prop where
  rows : ∀ t, Option.Rel SameTask (a.row t) (a'.row t)
  accounts : a'.accounts = a.accounts
  ids : a'.ids = a.ids
  sessions : a'.sessions = a.sessions
  idempotency : a'.idempotency = a.idempotency
  drawn : a'.drawn = a.drawn

/-- What a request may be confronted with at an operation. -/
abbrev ArchiveCircumstances (ι : Type) : Type 1 := {β : Type} → ArchiveCall β → Archive ι → Prop

/-- The requests `i`, and everything else. -/
def newMessages (cfg : BusConfig) (store : Store) (cond : ι → ArchiveCircumstances ι) :
    Crew ι ArchiveCall (Archive ι) where
  perform i := Archive.perform cfg store i
  env := Surroundings
  ok i := cond i

omit [DecidableEq ι] in
theorem Surroundings.inv (hinv : ArchiveInv store start a) (h : Surroundings a a') :
    ArchiveInv store start a' := by
  refine hinv.rows h.rows h.ids h.sessions h.idempotency h.drawn ?_ ?_ ?_
  · rw [h.accounts]
    exact fun _ _ hj => hj
  · rw [h.accounts]
    exact hinv.account
  · rw [h.accounts]
    exact fun _ _ => Iff.rfl

omit [DecidableEq ι] in
theorem Surroundings.aside (hinv : ArchiveInv store start a) (h : Surroundings a a') :
    Aside store start i a a' := by
  refine ⟨fun t => by rw [h.accounts], fun row => by rw [h.sessions], fun t ht => ?_,
    fun t _ hnew => ?_, fun t row hrow => ?_, fun c k t hf => ?_, h.inv hinv⟩
  · rw [h.drawn]
    exact ht
  · rw [h.ids]
    exact hnew
  · have hrel := h.rows t
    rw [hrow] at hrel
    generalize a'.row t = r at hrel
    cases hrel with
    | some hsame => exact ⟨_, rfl, hsame⟩
  · rw [Archive.find_congr h.ids h.idempotency h.rows]
    exact hf

theorem newMessages_fit {cond : ι → ArchiveCircumstances ι} :
    (newMessages cfg store cond).Fits (Aside store start) (ArchiveReq store)
      (ArchiveInv store start) fun _ => True where
  env_rely _ _ _ hinv hstep := hstep.aside hinv
  env_keeps _ _ hinv hstep := hstep.inv hinv
  env_guar _ _ _ _ := trivial
  op_rely _ _ _ _ _ _ _ hne hinv _ hreq hperf := (archiveStep hinv hreq hperf).aside hne hinv
  op_keeps _ _ _ _ _ _ hinv _ hreq hperf := hinv.step (archiveStep hinv hreq hperf)
  op_guar _ _ _ _ _ _ _ _ _ _ := trivial

end

end A2AKit
