/-
The keys of `RedisStorage`, and the calls that create and delete tasks.

A task is a hash; beside it stand the set of the tasks of its context and, for a task created
with an idempotency key, an entry that expires.  The calls are programs over single commands,
scripts and `MULTI` blocks, each of which is atomic, and any number of clients make calls at once.

* `MovedOn` — what happens to the stored tasks while a client waits;
* `wp_call` — what a client knows of a task when it deletes or returns it.
-/
import A2AKit.Creation

namespace A2AKit

/-- The hash of a task, and the time at which it was stored. -/
structure TaskHash where
  task : Task
  storedAt : Nat

/-- What an idempotency key holds until it expires. -/
structure IdempotencyEntry where
  taskId : TaskId
  expiresAt : Nat
  deriving DecidableEq, Repr

/-- `redis_idempotency_ttl_s` -/
structure IdempotencyTtl where
  seconds : Nat := 86400
  pos : 0 < seconds := by decide

/-- `_idempotency_key` of the metadata. -/
def Task.idempotencyKey (task : Task) : Option String :=
  task.metadata.entries.lookup idempotencyMetaKey

/-- `if idempotency_key:` -/
def nonEmptyKey (key : Option String) : Option String := key.filter (· ≠ "")

/-- The key under which the task is to be found. -/
def Task.redisKey (task : Task) : Option String :=
  (nonEmptyKey task.idempotencyKey).map (idemKey task.contextId)

/-- `used` are the ids of all tasks that were ever stored; `uuid` and `timestamp` are what a client
draws and reads next. -/
structure Keyspace where
  tasks : AList fun _ : TaskId => TaskHash := ∅
  members : List (ContextId × TaskId) := []
  idempotency : AList fun _ : String => IdempotencyEntry := ∅
  used : List TaskId := []
  clock : Nat := 0
  uuid : TaskId := ""
  timestamp : Timestamp := ""

/-- A command, a script or a `MULTI` block; `uuid4` and `datetimeNow` do not go to the server. -/
inductive StorageCommand : Type → Type
  | uuid4 : StorageCommand TaskId
  | datetimeNow : StorageCommand Timestamp
  | createIdempotent (key : String) (fields : Task) : StorageCommand TaskId
  | createMulti (fields : Task) : StorageCommand Unit
  | hgetall (taskId : TaskId) : StorageCommand (Option Task)
  | hmget (taskId : TaskId) : StorageCommand (Option (ContextId × Option String))
  | deleteMulti (contextId : ContextId) (taskId : TaskId) (extraKey : Option String) :
      StorageCommand Bool
  | smembers (contextId : ContextId) : StorageCommand (List TaskId)
  | deleteSet (contextId : ContextId) : StorageCommand Unit

namespace Keyspace

/-- `GET`: an entry that has expired is not there. -/
def get (w : Keyspace) (key : String) : Option TaskId :=
  match w.idempotency.lookup key with
  | none => none
  | some entry => if w.clock < entry.expiresAt then some entry.taskId else none

/-- `SMEMBERS` -/
def memberIds (w : Keyspace) (contextId : ContextId) : List TaskId :=
  w.members.filterMap fun m => if m.1 = contextId then some m.2 else none

/-- `HSET` and `SADD` -/
def store (w : Keyspace) (fields : Task) : Keyspace :=
  { w with
    tasks := w.tasks.insert fields.id ⟨fields, w.clock⟩
    members := w.members.insert (fields.contextId, fields.id)
    used := fields.id :: w.used }

/-- The rest of `_CREATE_IDEMPOTENT_LUA`, after the check of the key. -/
def storeIdempotent (ttl : IdempotencyTtl) (w : Keyspace) (key : String) (fields : Task) :
    Keyspace :=
  { w.store fields with
    idempotency := w.idempotency.insert key ⟨fields.id, w.clock + ttl.seconds⟩ }

/-- `SREM`, `DEL` of the hash, and `DEL` of the key in `extra_keys`. -/
def remove (w : Keyspace) (contextId : ContextId) (taskId : TaskId) (extraKey : Option String) :
    Keyspace :=
  { w with
    members := w.members.filter (· ≠ (contextId, taskId))
    tasks := w.tasks.erase taskId
    idempotency := match extraKey with
      | none => w.idempotency
      | some key => w.idempotency.erase key }

/-- `DEL` of the set of a context. -/
def dropSet (w : Keyspace) (contextId : ContextId) : Keyspace :=
  { w with members := w.members.filter (·.1 ≠ contextId) }

def perform (ttl : IdempotencyTtl) {β : Type} (e : StorageCommand β) (w : Keyspace) :
    Option (Keyspace × β) :=
  match e with
  | .uuid4 => some (w, w.uuid)
  | .datetimeNow => some (w, w.timestamp)
  | .createIdempotent key fields =>
    -- `_CREATE_IDEMPOTENT_LUA`
    match w.get key with
    | some existing => some (w, existing)
    | none => some (w.storeIdempotent ttl key fields, fields.id)
  | .createMulti fields => some (w.store fields, ())
  | .hgetall taskId => some (w, (w.tasks.lookup taskId).map TaskHash.task)
  | .hmget taskId =>
    some (w, (w.tasks.lookup taskId).map fun h => (h.task.contextId, h.task.idempotencyKey))
  | .deleteMulti contextId taskId extraKey =>
    some (w.remove contextId taskId extraKey, (w.tasks.lookup taskId).isSome)
  | .smembers contextId => some (w, w.memberIds contextId)
  | .deleteSet contextId => some (w.dropSet contextId, ())

/-- Time passes, other ids and times are drawn next, and the order of a set means nothing. -/
def Passes (w w' : Keyspace) : Prop :=
  w'.tasks = w.tasks ∧ w'.members.Perm w.members ∧ w'.idempotency = w.idempotency ∧
    w'.used = w.used ∧ w.clock ≤ w'.clock

/-- `list_tasks` before its filters: the ids come from the set of a context, or from a scan of all
hashes, and an id without a hash is passed over. -/
def listTasks (w : Keyspace) (contextId : ContextId) : List Task :=
  let taskIds := if contextId ≠ "" then w.memberIds contextId else w.tasks.keys
  taskIds.filterMap fun taskId => (w.tasks.lookup taskId).map TaskHash.task

end Keyspace

/-! ### The calls -/

inductive StorageRequest
  | createTask (contextId : ContextId) (message : Message) (idempotencyKey : Option String)
  | deleteTask (taskId : TaskId)
  | deleteContext (contextId : ContextId)
  deriving DecidableEq, Repr

/-- What a call returns. -/
inductive StorageAnswer
  | created (task : Task)
  | existed (b : Bool)
  | deleted (n : Nat)

abbrev KeyspaceM := Act StorageCommand Unit Exc

namespace RedisStorage

/-- The end of `create_task`, for a new task. -/
def loadNew (taskId : TaskId) : KeyspaceM Task := do
  match ← Act.perform (.hgetall taskId) with
  | none => throw (.storage (.taskNotFound s!"Task {taskId} vanished immediately after create"))
  | some loaded => return loaded.markCreated

/-- `create_task` -/
def create (contextId : ContextId) (message : Message) (idempotencyKey : Option String) :
    KeyspaceM Task := do
  let taskId ← Act.perform .uuid4
  let now ← Act.perform .datetimeNow
  let fields := initialTask taskId contextId message (nonEmptyKey idempotencyKey) now
  match nonEmptyKey idempotencyKey with
  | some key => do
    let returnedId ← Act.perform (.createIdempotent (idemKey contextId key) fields)
    if returnedId ≠ taskId then
      match ← Act.perform (.hgetall returnedId) with
      | none => throw (.storage (.taskNotFound
          s!"Idempotent task {returnedId} vanished between create and load"))
      | some existing => return existing
    else loadNew taskId
  | none => do
    Act.perform (.createMulti fields)
    loadNew taskId

def deleteTask (taskId : TaskId) : KeyspaceM Bool := do
  match ← Act.perform (.hmget taskId) with
  | none => return false
  | some (contextId, idempotencyKey) =>
    Act.perform (.deleteMulti contextId taskId
      ((nonEmptyKey idempotencyKey).map (idemKey contextId)))

/-- The loop of `delete_context`. -/
def deleteTasks : List TaskId → KeyspaceM Nat
  | [] => return 0
  | taskId :: rest => do
    let existed ← deleteTask taskId
    let deleted ← deleteTasks rest
    return if existed then deleted + 1 else deleted

def deleteContext (contextId : ContextId) : KeyspaceM Nat := do
  let taskIds ← Act.perform (.smembers contextId)
  let deleted ← deleteTasks taskIds
  Act.perform (.deleteSet contextId)
  return deleted

end RedisStorage

def StorageRequest.run : StorageRequest → KeyspaceM StorageAnswer
  | .createTask contextId message key => do
    let task ← RedisStorage.create contextId message key
    return .created task
  | .deleteTask taskId => do
    let existed ← RedisStorage.deleteTask taskId
    return .existed existed
  | .deleteContext contextId => do
    let deleted ← RedisStorage.deleteContext contextId
    return .deleted deleted

/-! ### What a command does -/

namespace Keyspace

variable {ttl : IdempotencyTtl} {w w' : Keyspace} {t : TaskId} {h : TaskHash}

/-- The changes that commands make. -/
inductive Effect (ttl : IdempotencyTtl) (w : Keyspace) :
    (β : Type) → StorageCommand β → Keyspace → β → Prop
  | idle {β : Type} (e : StorageCommand β) (b : β) : Effect ttl w β e w b
  | scripted (key : String) (fields : Task) : w.get key = none →
      Effect ttl w TaskId (.createIdempotent key fields) (w.storeIdempotent ttl key fields) fields.id
  | stored (fields : Task) : Effect ttl w Unit (.createMulti fields) (w.store fields) ()
  | removed (contextId : ContextId) (taskId : TaskId) (extraKey : Option String) (b : Bool) :
      Effect ttl w Bool (.deleteMulti contextId taskId extraKey)
        (w.remove contextId taskId extraKey) b
  | dropped (contextId : ContextId) :
      Effect ttl w Unit (.deleteSet contextId) (w.dropSet contextId) ()

theorem perform_effect {β : Type} {e : StorageCommand β} {b : β}
    (hperf : perform ttl e w = some (w', b)) : Effect ttl w β e w' b := by
  cases e with
  | createIdempotent key fields =>
    have hscript : (match w.get key with
      | some existing => some (w, existing)
      | none => some (w.storeIdempotent ttl key fields, fields.id)) = some (w', b) := hperf
    cases hget : w.get key with
    | some existing =>
      rw [hget] at hscript
      cases hscript
      exact .idle _ _
    | none =>
      rw [hget] at hscript
      cases hscript
      exact .scripted key fields hget
  | createMulti fields =>
    cases hperf
    exact .stored fields
  | deleteMulti contextId taskId extraKey =>
    cases hperf
    exact .removed contextId taskId extraKey _
  | deleteSet contextId =>
    cases hperf
    exact .dropped contextId
  | _ =>
    cases hperf
    exact .idle _ _

/-- Stored hashes have their ids, which count as used, and so do those of the entries. -/
structure Proper (w : Keyspace) : Prop where
  hash : ∀ t h, w.tasks.lookup t = some h → h.task.id = t ∧ t ∈ w.used
  entry : ∀ key entry, w.idempotency.lookup key = some entry → entry.taskId ∈ w.used

/-- `uuid4` does not repeat itself: no id is stored twice. -/
def Unrepeated {β : Type} : StorageCommand β → Keyspace → Prop
  | .createIdempotent _ fields, w => fields.id ∉ w.used
  | .createMulti fields, w => fields.id ∉ w.used
  | _, _ => True

/-- A create passes the key of its task, and a delete what the task has. -/
def Informed {β : Type} : StorageCommand β → Keyspace → Prop
  | .createIdempotent key fields, _ => fields.redisKey = some key
  | .createMulti fields, _ => fields.redisKey = none
  | .deleteMulti contextId taskId extraKey, w => ∀ h, w.tasks.lookup taskId = some h →
      h.task.contextId = contextId ∧ h.task.redisKey = extraKey
  | _, _ => True

/-- Hashes stay or go, and a new one has an id that was not used before. -/
structure MovedOn (w w' : Keyspace) : Prop where
  used : ∀ t ∈ w.used, t ∈ w'.used
  stored : ∀ t h, w'.tasks.lookup t = some h → w.tasks.lookup t = some h ∨ t ∉ w.used

theorem MovedOn.refl (w : Keyspace) : MovedOn w w := ⟨fun _ h => h, fun _ _ => Or.inl⟩

theorem lookup_store {fields : Task} (hh : (w.store fields).tasks.lookup t = some h) :
    t = fields.id ∧ h = ⟨fields, w.clock⟩ ∨ t ≠ fields.id ∧ w.tasks.lookup t = some h := by
  by_cases ht : t = fields.id
  · subst ht
    rw [store, AList.lookup_insert] at hh
    exact Or.inl ⟨rfl, (Option.some_inj.mp hh).symm⟩
  · rw [store, AList.lookup_insert_ne ht] at hh
    exact Or.inr ⟨ht, hh⟩

theorem lookup_remove {contextId : ContextId} {taskId : TaskId} {extraKey : Option String}
    (hh : (w.remove contextId taskId extraKey).tasks.lookup t = some h) :
    t ≠ taskId ∧ w.tasks.lookup t = some h := by
  have hh : (w.tasks.erase taskId).lookup t = some h := hh
  by_cases ht : t = taskId
  · subst ht
    rw [AList.lookup_erase] at hh
    exact nomatch hh
  · rw [AList.lookup_erase_ne ht] at hh
    exact ⟨ht, hh⟩

theorem movedOn_store {fields : Task} (hfresh : fields.id ∉ w.used) :
    MovedOn w (w.store fields) := by
  refine ⟨fun t ht => List.mem_cons_of_mem _ ht, fun t h hh => ?_⟩
  rcases lookup_store hh with ⟨rfl, -⟩ | ⟨-, hold⟩
  · exact Or.inr hfresh
  · exact Or.inl hold

theorem movedOn_perform {β : Type} {e : StorageCommand β} {b : β} (hfresh : Unrepeated e w)
    (hperf : perform ttl e w = some (w', b)) : MovedOn w w' := by
  cases perform_effect hperf with
  | idle => exact .refl w
  | scripted key fields hget =>
    have hstore := movedOn_store hfresh
    exact ⟨hstore.used, hstore.stored⟩
  | stored fields => exact movedOn_store hfresh
  | removed contextId taskId extraKey b =>
    exact ⟨fun _ ht => ht, fun _ _ hh => Or.inl (lookup_remove hh).2⟩
  | dropped contextId => exact ⟨fun _ ht => ht, fun _ _ hh => Or.inl hh⟩

theorem movedOn_passes (h : Passes w w') : MovedOn w w' := by
  obtain ⟨htasks, -, -, hused, -⟩ := h
  refine ⟨fun t ht => ?_, fun t h hh => Or.inl ?_⟩
  · rwa [hused]
  · rwa [htasks] at hh

theorem proper_store {fields : Task} (hw : Proper w) : Proper (w.store fields) where
  hash t h hh := by
    rcases lookup_store hh with ⟨rfl, rfl⟩ | ⟨-, hold⟩
    · exact ⟨rfl, List.mem_cons_self⟩
    · exact ⟨(hw.hash t h hold).1, List.mem_cons_of_mem _ (hw.hash t h hold).2⟩
  entry key entry hentry := List.mem_cons_of_mem _ (hw.entry key entry hentry)

/-- What an insert or an erase leaves of the entries. -/
theorem lookup_idempotency_insert {key key' : String} {entry entry' : IdempotencyEntry}
    (hentry : (w.idempotency.insert key entry).lookup key' = some entry') :
    key' = key ∧ entry' = entry ∨ key' ≠ key ∧ w.idempotency.lookup key' = some entry' := by
  by_cases hkey : key' = key
  · subst hkey
    rw [AList.lookup_insert] at hentry
    exact Or.inl ⟨rfl, (Option.some_inj.mp hentry).symm⟩
  · rw [AList.lookup_insert_ne hkey] at hentry
    exact Or.inr ⟨hkey, hentry⟩

theorem lookup_idempotency_remove {contextId : ContextId} {extraKey : Option String} {key : String}
    {entry : IdempotencyEntry}
    (hentry : (w.remove contextId t extraKey).idempotency.lookup key = some entry) :
    extraKey ≠ some key ∧ w.idempotency.lookup key = some entry := by
  cases extraKey with
  | none => exact ⟨nofun, hentry⟩
  | some extra =>
    have hentry : (w.idempotency.erase extra).lookup key = some entry := hentry
    by_cases hkey : key = extra
    · subst hkey
      rw [AList.lookup_erase] at hentry
      exact nomatch hentry
    · rw [AList.lookup_erase_ne hkey] at hentry
      exact ⟨fun h => hkey (Option.some_inj.mp h).symm, hentry⟩

theorem proper_perform {β : Type} {e : StorageCommand β} {b : β} (hw : Proper w)
    (hperf : perform ttl e w = some (w', b)) : Proper w' := by
  cases perform_effect hperf with
  | idle => exact hw
  | scripted key fields hget =>
    have hstore : Proper (w.store fields) := proper_store hw
    refine ⟨hstore.hash, fun key' entry hentry => ?_⟩
    rcases lookup_idempotency_insert hentry with ⟨-, rfl⟩ | ⟨-, hold⟩
    · exact List.mem_cons_self
    · exact hstore.entry key' entry hold
  | stored fields => exact proper_store hw
  | removed contextId taskId extraKey b =>
    exact ⟨fun t h hh => hw.hash t h (lookup_remove hh).2,
      fun key entry hentry => hw.entry key entry (lookup_idempotency_remove hentry).2⟩
  | dropped contextId => exact ⟨hw.hash, hw.entry⟩

theorem proper_passes (h : Passes w w') (hw : Proper w) : Proper w' := by
  obtain ⟨htasks, -, hentries, hused, -⟩ := h
  refine ⟨fun t h hh => ?_, fun key entry hentry => ?_⟩
  · rw [htasks] at hh
    rw [hused]
    exact hw.hash t h hh
  · rw [hentries] at hentry
    rw [hused]
    exact hw.entry key entry hentry

end Keyspace

/-! ### Clients -/

open Keyspace

/-- Any number of clients; their commands meet `cond`. -/
def keyspaceCrew (ι : Type) (ttl : IdempotencyTtl)
    (cond : {β : Type} → StorageCommand β → Keyspace → Prop) : Crew ι StorageCommand Keyspace where
  perform _ _ e w := perform ttl e w
  env := Passes
  ok _ _ e w := Unrepeated e w ∧ cond e w

/-- What all clients keep, as long as their commands meet `cond`. -/
structure ClientsKeep (ttl : IdempotencyTtl)
    (cond : {β : Type} → StorageCommand β → Keyspace → Prop) (J : Keyspace → Prop) : Prop where
  passes : ∀ w w', Proper w → J w → Passes w w' → J w'
  keeps : ∀ {β : Type} (e : StorageCommand β) w w' b, Proper w → J w → cond e w → Unrepeated e w →
    Informed e w → perform ttl e w = some (w', b) → J w'

section

variable {ι : Type} {ttl : IdempotencyTtl}
  {cond : {β : Type} → StorageCommand β → Keyspace → Prop} {J : Keyspace → Prop}

/-- What a client relies on. -/
def clientRely (J : Keyspace → Prop) (_ : ι) (w w' : Keyspace) : Prop :=
  MovedOn w w' ∧ Proper w' ∧ J w'

theorem keyspace_fits (hJ : ClientsKeep ttl cond J) {G : PoolMove ι Keyspace → Prop}
    (hpasses : ∀ w w', Proper w → J w → Passes w w' → G ⟨none, w, w'⟩)
    (hperform : ∀ (j : ι) {β : Type} (e : StorageCommand β) w w' b, Proper w → J w → cond e w →
      Unrepeated e w → Informed e w → perform ttl e w = some (w', b) → G ⟨some j, w, w'⟩) :
    (keyspaceCrew ι ttl cond).Fits (clientRely J) (fun _ _ e w => Informed e w)
      (fun w => Proper w ∧ J w) G where
  env_rely _ w w' hw henv :=
    ⟨movedOn_passes henv, proper_passes henv hw.1, hJ.passes w w' hw.1 hw.2 henv⟩
  env_keeps w w' hw henv := ⟨proper_passes henv hw.1, hJ.passes w w' hw.1 hw.2 henv⟩
  env_guar w w' hw henv := hpasses w w' hw.1 hw.2 henv
  op_rely _ _ _ e w w' b _ hw hok hreq hperf :=
    ⟨movedOn_perform hok.1 hperf, proper_perform hw.1 hperf,
      hJ.keeps e w w' b hw.1 hw.2 hok.2 hok.1 hreq hperf⟩
  op_keeps _ _ e w w' b hw hok hreq hperf :=
    ⟨proper_perform hw.1 hperf, hJ.keeps e w w' b hw.1 hw.2 hok.2 hok.1 hreq hperf⟩
  op_guar j _ e w w' b hw hok hreq hperf :=
    hperform j e w w' b hw.1 hw.2 hok.2 hok.1 hreq hperf

/-- The server as one client sees it. -/
abbrev clientSystem (ι : Type) (ttl : IdempotencyTtl)
    (cond : {β : Type} → StorageCommand β → Keyspace → Prop) (J : Keyspace → Prop) (i : ι) :
    System StorageCommand Keyspace :=
  (keyspaceCrew ι ttl cond).system (clientRely J) (fun _ _ e w => Informed e w) i

/-- What a client knows of a task: `φ`, as long as it is stored. -/
def Knows (t : TaskId) (φ : Task → Prop) (w : Keyspace) : Prop :=
  t ∈ w.used ∧ ∀ h, w.tasks.lookup t = some h → φ h.task

theorem Knows.movedOn {t : TaskId} {φ : Task → Prop} {w w' : Keyspace} (h : Knows t φ w)
    (hmoved : MovedOn w w') : Knows t φ w' :=
  ⟨hmoved.used t h.1, fun hash hh => (hmoved.stored t hash hh).elim (h.2 hash)
    fun hunused => absurd h.1 hunused⟩

variable {i : ι} {α β : Type} {φ : Keyspace → Prop} {ψ : β → Keyspace → Prop}

theorem stable_known (hφ : ∀ w w', MovedOn w w' → φ w → φ w') :
    (clientSystem ι ttl cond J i).Stable fun w => (Proper w ∧ J w) ∧ φ w :=
  fun w w' hrely hw => ⟨hrely.2, hφ w w' hrely.1 hw.2⟩

/-- One command of a client. -/
theorem triple_command (hJ : ClientsKeep ttl cond J) {e : StorageCommand β}
    (hφ : ∀ w w', MovedOn w w' → φ w → φ w') (hψ : ∀ b w w', MovedOn w w' → ψ b w → ψ b w')
    (hinformed : ∀ w, Proper w → φ w → Informed e w)
    (h : ∀ w w' b, Proper w → J w → φ w → cond e w → perform ttl e w = some (w', b) → ψ b w') :
    Act.Triple (clientSystem ι ttl cond J i) (fun _ w => (Proper w ∧ J w) ∧ φ w)
      (Act.perform e : KeyspaceM β) (fun b _ w => (Proper w ∧ J w) ∧ ψ b w)
      (fun _ _ _ => True) := by
  refine .perform (fun _ => stable_known hφ) (fun b _ => stable_known (hψ b))
    fun _ w hw hok => ?_
  obtain ⟨⟨hproper, hj⟩, hknown⟩ := hw
  have hreq := hinformed w hproper hknown
  refine ⟨hreq, fun w' b hperf => ⟨⟨proper_perform hproper hperf, ?_⟩, ?_⟩⟩
  · exact hJ.keeps e w w' b hproper hj hok.2 hok.1 hreq hperf
  · exact h w w' b hproper hj hknown hok.2 hperf

/-- A command of which nothing has to be known. -/
theorem triple_any (hJ : ClientsKeep ttl cond J) {e : StorageCommand β}
    (hinformed : ∀ w, Informed e w) :
    Act.Triple (clientSystem ι ttl cond J i) (fun _ w => (Proper w ∧ J w) ∧ True)
      (Act.perform e : KeyspaceM β) (fun _ _ w => (Proper w ∧ J w) ∧ True) (fun _ _ _ => True) :=
  triple_command hJ (fun _ _ _ h => h) (fun _ _ _ _ h => h) (fun w _ _ => hinformed w)
    fun _ _ _ _ _ _ _ _ => trivial

theorem triple_return {a : α} {Q : α → Prop} (hφ : ∀ w w', MovedOn w w' → φ w → φ w')
    (hQ : ∀ w, φ w → Q a) :
    Act.Triple (clientSystem ι ttl cond J i) (fun _ w => (Proper w ∧ J w) ∧ φ w)
      (Pure.pure a : KeyspaceM α) (fun a _ w => (Proper w ∧ J w) ∧ Q a) (fun _ _ _ => True) :=
  .pure (fun _ => stable_known hφ) fun _ w hw => ⟨hw.1, hQ w hw.2⟩

theorem triple_raise {x : Exc} {Q : α → Keyspace → Prop}
    (hφ : ∀ w w', MovedOn w w' → φ w → φ w') :
    Act.Triple (clientSystem ι ttl cond J i) (fun _ w => (Proper w ∧ J w) ∧ φ w)
      (MonadExcept.throw x : KeyspaceM α) (fun a _ w => (Proper w ∧ J w) ∧ Q a w)
      (fun _ _ _ => True) :=
  .throw (fun _ => stable_known hφ) fun _ _ _ => trivial

/-! ### The calls of a client -/

theorem initialTask_idempotencyKey (taskId : TaskId) (contextId : ContextId) (message : Message)
    (key : Option String) (now : Timestamp) :
    (initialTask taskId contextId message key now).idempotencyKey = key := by
  show (initialMetadata key now).entries.lookup idempotencyMetaKey = key
  unfold initialMetadata
  rw [AList.lookup_insert_ne (by decide), AList.lookup_insert_ne (by decide)]
  cases key with
  | none => rfl
  | some key => exact AList.lookup_insert _

theorem nonEmptyKey_idem (key : Option String) : nonEmptyKey (nonEmptyKey key) = nonEmptyKey key := by
  unfold nonEmptyKey
  rw [Option.filter_filter]
  congr 1
  funext k
  rw [Bool.and_self]

/-- The task that is found under the key of another one is as `Match` says. -/
structure Matches (ttl : IdempotencyTtl) (cond : {β : Type} → StorageCommand β → Keyspace → Prop)
    (J : Keyspace → Prop) (Match : Task → Task → Prop) : Prop where
  found : ∀ w key fields t h, Proper w → J w → cond (.createIdempotent key fields) w →
    fields.redisKey = some key → w.get key = some t → w.tasks.lookup t = some h →
    Match fields h.task

/-- What a call returns: a task of an earlier call matches the one that is not created. -/
def AnswersWith (Match : Task → Task → Prop) : StorageRequest → StorageAnswer → Prop
  | .createTask contextId message key, .created task => task.justCreated = false →
    ∃ taskId now k, nonEmptyKey key = some k ∧
      Match (initialTask taskId contextId message (some k) now) task
  | _, _ => True

variable {Match : Task → Task → Prop}

theorem triple_loadNew (hJ : ClientsKeep ttl cond J) (taskId : TaskId) :
    Act.Triple (clientSystem ι ttl cond J i) (fun _ w => (Proper w ∧ J w) ∧ True)
      (RedisStorage.loadNew taskId)
      (fun task _ w => (Proper w ∧ J w) ∧ task.justCreated = true) (fun _ _ _ => True) := by
  refine .bind (triple_any hJ fun _ => trivial) fun loaded => ?_
  cases loaded with
  | none => exact triple_raise (Q := fun (task : Task) _ => task.justCreated = true) fun _ _ _ h => h
  | some loaded => exact triple_return (fun _ _ _ h => h) fun _ _ => justCreated_markCreated loaded

theorem triple_create (hJ : ClientsKeep ttl cond J) (hmatch : Matches ttl cond J Match)
    (contextId : ContextId) (message : Message) (key : Option String) :
    Act.Triple (clientSystem ι ttl cond J i) (fun _ w => (Proper w ∧ J w) ∧ True)
      (RedisStorage.create contextId message key)
      (fun task _ w => (Proper w ∧ J w) ∧
        AnswersWith Match (.createTask contextId message key) (.created task)) (fun _ _ _ => True) := by
  have hnew : ∀ taskId, Act.Triple (clientSystem ι ttl cond J i)
      (fun _ w => (Proper w ∧ J w) ∧ True) (RedisStorage.loadNew taskId)
      (fun task _ w => (Proper w ∧ J w) ∧
        AnswersWith Match (.createTask contextId message key) (.created task)) (fun _ _ _ => True) :=
    fun taskId => (triple_loadNew hJ taskId).conseq (fun _ _ h => h)
      (fun _ _ _ h => ⟨h.1, fun hfalse => absurd (hfalse.symm.trans h.2) Bool.false_ne_true⟩)
      fun _ _ _ h => h
  unfold RedisStorage.create
  refine .bind (triple_any hJ fun _ => trivial) fun taskId => ?_
  refine .bind (triple_any hJ fun _ => trivial) fun now => ?_
  have hkey := initialTask_idempotencyKey taskId contextId message (nonEmptyKey key) now
  have hredis : (initialTask taskId contextId message (nonEmptyKey key) now).redisKey =
      (nonEmptyKey key).map (idemKey contextId) := by
    unfold Task.redisKey
    rw [hkey, nonEmptyKey_idem]
    rfl
  cases hk : nonEmptyKey key with
  | none =>
    rw [hk] at hredis
    exact .bind (triple_any hJ fun _ => hredis) fun _ => hnew taskId
  | some k =>
    rw [hk] at hredis
    -- what the script finds is known to match, whatever happens before it is loaded
    refine .bind (triple_command (φ := fun _ => True) (ψ := fun returnedId w =>
      returnedId ≠ taskId → Knows returnedId
        (Match (initialTask taskId contextId message (some k) now)) w) hJ (fun _ _ _ h => h)
      (fun _ _ _ hmoved h hne => (h hne).movedOn hmoved) (fun _ _ _ => hredis) ?_)
      fun returnedId => ?_
    · intro w w' b hproper hj _ hcond hperf hne
      cases hget : w.get (idemKey contextId k) with
      | none =>
        have hcreated : perform ttl (.createIdempotent (idemKey contextId k)
            (initialTask taskId contextId message (some k) now)) w = some
            (w.storeIdempotent ttl (idemKey contextId k)
              (initialTask taskId contextId message (some k) now), taskId) := by
          show (match w.get (idemKey contextId k) with
            | some existing => some (w, existing)
            | none => some (w.storeIdempotent ttl (idemKey contextId k)
              (initialTask taskId contextId message (some k) now), taskId)) = _
          rw [hget]
        cases hcreated.symm.trans hperf
        exact absurd rfl hne
      | some t =>
        have hfound : perform ttl (.createIdempotent (idemKey contextId k)
            (initialTask taskId contextId message (some k) now)) w = some (w, t) := by
          show (match w.get (idemKey contextId k) with
            | some existing => some (w, existing)
            | none => some (w.storeIdempotent ttl (idemKey contextId k)
              (initialTask taskId contextId message (some k) now), taskId)) = _
          rw [hget]
        cases hfound.symm.trans hperf
        refine ⟨?_, fun h hh => hmatch.found w _ _ _ h hproper hj hcond hredis hget hh⟩
        unfold Keyspace.get at hget
        split at hget
        · exact nomatch hget
        rename_i entry hentry
        split at hget
        · cases hget
          exact hproper.entry _ entry hentry
        · exact nomatch hget
    · split
      · rename_i hne
        refine .bind (triple_command (ψ := fun loaded _ => ∀ existing, loaded = some existing →
          Match (initialTask taskId contextId message (some k) now) existing) hJ
          (fun _ _ hmoved h hne => (h hne).movedOn hmoved) (fun _ _ _ _ h => h)
          (fun _ _ _ => trivial) ?_) fun loaded => ?_
        · intro w w' b _ _ hknows _ hperf existing hsome
          cases hperf
          obtain ⟨h, hh, rfl⟩ := Option.map_eq_some_iff.mp hsome
          exact (hknows hne).2 h hh
        · cases loaded with
          | none =>
            exact triple_raise (Q := fun task _ =>
              AnswersWith Match (.createTask contextId message key) (.created task)) fun _ _ _ h => h
          | some existing =>
            exact triple_return (fun _ _ _ h => h) fun _ h _ =>
              ⟨taskId, now, k, hk, h existing rfl⟩
      · exact (hnew taskId).pre fun _ _ h => ⟨h.1, trivial⟩

theorem triple_deleteTask (hJ : ClientsKeep ttl cond J) (taskId : TaskId) :
    Act.Triple (clientSystem ι ttl cond J i) (fun _ w => (Proper w ∧ J w) ∧ True)
      (RedisStorage.deleteTask taskId) (fun _ _ w => (Proper w ∧ J w) ∧ True)
      (fun _ _ _ => True) := by
  unfold RedisStorage.deleteTask
  -- what was read of the hash holds as long as the hash is there
  refine .bind (triple_command (φ := fun _ => True) (ψ := fun read w =>
    ∀ contextId key, read = some (contextId, key) → Knows taskId (fun task =>
      task.contextId = contextId ∧ task.idempotencyKey = key) w) hJ (fun _ _ _ h => h)
    (fun _ _ _ hmoved h contextId key hread => (h contextId key hread).movedOn hmoved)
    (fun _ _ _ => trivial) ?_) fun read => ?_
  · intro w w' b hproper _ _ _ hperf contextId key hread
    cases hperf
    obtain ⟨h, hh, heq⟩ := Option.map_eq_some_iff.mp hread
    cases heq
    refine ⟨(hproper.hash taskId h hh).2, fun h' hh' => ?_⟩
    cases hh.symm.trans hh'
    exact ⟨rfl, rfl⟩
  · cases read with
    | none =>
      refine triple_return (Q := fun _ => True) (fun _ _ _ _ _ _ => nofun) fun _ _ => trivial
    | some read =>
      obtain ⟨contextId, key⟩ := read
      refine triple_command (ψ := fun _ _ => True) hJ
        (fun _ _ hmoved h contextId key hread => (h contextId key hread).movedOn hmoved)
        (fun _ _ _ _ h => h) (fun w _ h hash hh => ?_) fun _ _ _ _ _ _ _ _ => trivial
      obtain ⟨hcontext, hkey⟩ := (h contextId key rfl).2 hash hh
      refine ⟨hcontext, ?_⟩
      unfold Task.redisKey
      rw [hkey, hcontext]

theorem triple_deleteTasks (hJ : ClientsKeep ttl cond J) (taskIds : List TaskId) :
    Act.Triple (clientSystem ι ttl cond J i) (fun _ w => (Proper w ∧ J w) ∧ True)
      (RedisStorage.deleteTasks taskIds) (fun _ _ w => (Proper w ∧ J w) ∧ True)
      (fun _ _ _ => True) := by
  induction taskIds with
  | nil => exact triple_return (Q := fun _ => True) (fun _ _ _ h => h) fun _ _ => trivial
  | cons taskId rest ih =>
    refine .bind (triple_deleteTask hJ taskId) fun existed => .bind ih fun deleted => ?_
    exact triple_return (Q := fun _ => True) (fun _ _ _ h => h) fun _ _ => trivial

/-- **A call, among any other calls**: its commands know what they have to, and it returns a
task of an earlier call only as `Match` says. -/
theorem triple_run (hJ : ClientsKeep ttl cond J) (hmatch : Matches ttl cond J Match)
    (r : StorageRequest) :
    Act.Triple (clientSystem ι ttl cond J i) (fun _ w => (Proper w ∧ J w) ∧ True) r.run
      (fun a _ w => (Proper w ∧ J w) ∧ AnswersWith Match r a) (fun _ _ _ => True) := by
  cases r with
  | createTask contextId message key =>
    exact .bind (triple_create hJ hmatch contextId message key) fun task =>
      triple_return (fun _ _ _ h => h) fun _ h => h
  | deleteTask taskId =>
    exact .bind (triple_deleteTask hJ taskId) fun existed =>
      triple_return (fun _ _ _ h => h) fun _ _ => trivial
  | deleteContext contextId =>
    refine .bind (Q := fun _ _ w => (Proper w ∧ J w) ∧ True) ?_
      fun deleted => triple_return (fun _ _ _ h => h) fun _ _ => trivial
    refine .bind (triple_any hJ fun _ => trivial) fun taskIds => ?_
    refine .bind (triple_deleteTasks hJ taskIds) fun deleted => ?_
    refine .bind (triple_any hJ fun _ => trivial) fun _ => ?_
    exact triple_return (Q := fun _ => True) (fun _ _ _ h => h) fun _ _ => trivial

end

end A2AKit
