/-
Push configurations of deleted tasks.

`delete_task` and `delete_context` remove tasks first and then cascade to the push store, one task
after the other, and swallow what the store raises.  The handlers of the endpoints load the task
first and then write to the store.  All of them run at the same time, with awaits in between.

* `cascade_kept` — a cascade only hits what is deleted: the configurations of a task that exists
  are always what its own calls have made of them.  A configuration without a task is one whose
  cascade is still to come or has raised, or one that was set by a call that had found the task
  before it was deleted, or, on SQL, that of a task that came into the context after its tasks were
  selected.
-/
import A2AKit.Pool
import A2AKit.PushEndpoints

namespace A2AKit

open Act (Triple)

/-! ### The calls -/

/-- What the calls do to the storage and to the push store. -/
inductive CascadeOp : Type → Type
  -- `dict.pop`, a DELETE, or MULTI with DEL and SREM: it answers whether the task existed
  | deleteTask (taskId : TaskId) (srem : Option ContextId) : CascadeOp Bool
  -- the first half of `delete_context` in memory, with the tasks that it has deleted
  | deleteTasks (contextId : ContextId) : CascadeOp (List TaskId)
  | selectIds (contextId : ContextId) : CascadeOp (List TaskId)
  -- the DELETE after it, with the row count: it deletes what there is by now
  | deleteWhere (contextId : ContextId) (selected : List TaskId) : CascadeOp Nat
  | hmget (taskId : TaskId) : CascadeOp (Option ContextId)
  | smembers (contextId : ContextId) : CascadeOp (List TaskId)
  | deleteSet (contextId : ContextId) : CascadeOp Unit
  | loadTask (taskId : TaskId) : CascadeOp Bool
  -- `delete_configs_for_task`: it answers whether it has raised
  | deleteConfigsForTask (taskId : TaskId) : CascadeOp Bool
  | setConfig (taskId : TaskId) (tpnc : TaskPushNotificationConfig) : CascadeOp Unit
  | deleteConfig (taskId : TaskId) (configId : String) : CascadeOp Bool

abbrev CascadeM := Act CascadeOp Unit ServerExc

/-- `_cascade_push_delete_for_task`, which swallows what the store raises. -/
def cascadePushDeleteForTask (taskId : TaskId) : CascadeM Unit := do
  let _ ← Act.perform (.deleteConfigsForTask taskId)

/-- `_cascade_push_delete_for_tasks` -/
def cascadePushDeleteForTasks : List TaskId → CascadeM Unit
  | [] => pure ()
  | taskId :: rest => do
    cascadePushDeleteForTask taskId
    cascadePushDeleteForTasks rest

/-- `delete_task`, from the deletion on. -/
def dropTask (taskId : TaskId) (srem : Option ContextId) : CascadeM Bool := do
  if ← Act.perform (.deleteTask taskId srem) then
    cascadePushDeleteForTask taskId
    return true
  else return false

/-- The storage behind the calls: `InMemoryStorage` deletes a context at once, Redis task by task,
and SQL with two statements of one transaction, between which others may come. -/
inductive DeletingStorage
  | inMemory
  | sql
  | redis
  deriving DecidableEq, Repr

namespace DeletingStorage

/-- `delete_task` -/
def deleteTask (taskId : TaskId) : DeletingStorage → CascadeM Bool
  | .inMemory | .sql => dropTask taskId none
  | .redis => do
    match ← Act.perform (.hmget taskId) with
    | none => return false
    | some contextId => dropTask taskId (some contextId)

/-- The loop of `delete_context` on Redis. -/
def deleteEach : List TaskId → CascadeM Nat
  | [] => return 0
  | taskId :: rest => do
    let existed ← deleteTask taskId .redis
    let deleted ← deleteEach rest
    return if existed then deleted + 1 else deleted

/-- `delete_context` -/
def deleteContext (contextId : ContextId) : DeletingStorage → CascadeM Nat
  | .inMemory => do
    let taskIds ← Act.perform (.deleteTasks contextId)
    cascadePushDeleteForTasks taskIds
    return taskIds.length
  | .sql => do
    let affectedTaskIds ← Act.perform (.selectIds contextId)
    let rowcount ← Act.perform (.deleteWhere contextId affectedTaskIds)
    cascadePushDeleteForTasks affectedTaskIds
    return rowcount
  | .redis => do
    let taskIds ← Act.perform (.smembers contextId)
    let deleted ← deleteEach taskIds
    Act.perform (.deleteSet contextId)
    return deleted

end DeletingStorage

/-- A call that deletes tasks, or one of the endpoints for push configurations; `uuid` is the id of
a configuration without one. -/
inductive CascadeCall
  | deleteTask (taskId : TaskId)
  | deleteContext (contextId : ContextId)
  | setConfig (taskId : TaskId) (configData : Json) (uuid : String)
  | deleteConfig (taskId : TaskId) (configId : String)

def CascadeCall.run (storage : DeletingStorage) (r : Registrar) : CascadeCall → CascadeM Unit
  | .deleteTask taskId => do let _ ← storage.deleteTask taskId
  | .deleteContext contextId => do let _ ← storage.deleteContext contextId
  | .setConfig taskId configData uuid => do
    let found ← Act.perform (.loadTask taskId)
    match handleSetConfig r { taskId, found } configData uuid with
    | .error x => throw x
    | .ok tpnc => Act.perform (.setConfig taskId tpnc)
  | .deleteConfig taskId configId => do
    if ← Act.perform (.loadTask taskId) then
      if ← Act.perform (.deleteConfig taskId configId) then return
      else throw (.pushConfigNotFound s!"Push config {configId} not found for task {taskId}")
    else throw (.taskNotFound s!"Task {taskId} not found")

/-! ### The tasks and the push store -/

/-- A write to the push store by a call of the task's own. -/
inductive PushRequest
  | set (taskId : TaskId) (tpnc : TaskPushNotificationConfig)
  | delete (taskId : TaskId) (configId : String)

/-- What the writes to a task make of its configurations. -/
def PushRequest.replay (taskId : TaskId) (configs : TaskConfigs) : PushRequest → TaskConfigs
  | .set t tpnc =>
    if t = taskId then InMemoryPushConfigStore.put configs (tpnc.id.getD "") tpnc else configs
  | .delete t configId =>
    if t = taskId then (InMemoryPushConfigStore.deleteConfig configs configId).1 else configs

/-- `sets` are the context sets of Redis, and `used` the ids of all tasks so far; `raises` says
whether a cascade raises.  `owed i` are the tasks that call `i` has deleted and not cascaded yet,
`found i` those that it has found, and `selected i` the rows it has selected; `missed` are the tasks
that were deleted and not selected, `late` those that were deleted when a configuration was set, and
`failed` those whose cascade has raised. -/
structure PushWorld (ι : Type) where
  tasks : List (TaskId × ContextId) := []
  sets : ContextId → List TaskId := fun _ => []
  used : List TaskId := []
  configs : TaskId → TaskConfigs := fun _ => []
  raises : Bool := false
  requests : List PushRequest := []
  owed : ι → List TaskId := fun _ => []
  found : ι → List TaskId := fun _ => []
  selected : ι → List (TaskId × ContextId) := fun _ => []
  missed : List TaskId := []
  late : List TaskId := []
  failed : List TaskId := []

namespace PushWorld

variable {ι : Type} [DecidableEq ι]

def ids (w : PushWorld ι) : List TaskId := w.tasks.map Prod.fst

/-- SREM, where there are context sets. -/
def withdraw (sets : ContextId → List TaskId) (taskId : TaskId) :
    Option ContextId → ContextId → List TaskId
  | none => sets
  | some contextId => Function.update sets contextId ((sets contextId).erase taskId)

def perform (i : ι) {β : Type} (e : CascadeOp β) (w : PushWorld ι) : Option (PushWorld ι × β) :=
  match e with
  | .deleteTask taskId srem =>
    let sets := withdraw w.sets taskId srem
    if taskId ∈ w.ids then
      some ({ w with
        tasks := w.tasks.filter (·.1 ≠ taskId)
        sets
        owed := Function.update w.owed i (w.owed i ++ [taskId]) }, true)
    else some ({ w with sets }, false)
  | .deleteTasks contextId =>
    let taskIds := (w.tasks.filter (·.2 = contextId)).map Prod.fst
    some ({ w with
      tasks := w.tasks.filter (·.1 ∉ taskIds)
      owed := Function.update w.owed i (w.owed i ++ taskIds) }, taskIds)
  | .selectIds contextId =>
    let rows := w.tasks.filter (·.2 = contextId)
    some ({ w with selected := Function.update w.selected i (w.selected i ++ rows) },
      rows.map Prod.fst)
  | .deleteWhere contextId selected =>
    let deleted := (w.tasks.filter (·.2 = contextId)).map Prod.fst
    some ({ w with
      tasks := w.tasks.filter (·.2 ≠ contextId)
      owed := Function.update w.owed i (w.owed i ++ selected)
      missed := w.missed ++ deleted.filter (· ∉ selected) }, deleted.length)
  | .hmget taskId => some (w, w.tasks.lookup taskId)
  | .smembers contextId => some (w, w.sets contextId)
  | .deleteSet contextId => some ({ w with sets := Function.update w.sets contextId [] }, ())
  | .loadTask taskId =>
    if taskId ∈ w.ids then
      some ({ w with found := Function.update w.found i (w.found i ++ [taskId]) }, true)
    else some (w, false)
  | .deleteConfigsForTask taskId =>
    let owed := Function.update w.owed i ((w.owed i).erase taskId)
    if w.raises then some ({ w with owed, failed := w.failed ++ [taskId] }, true)
    else some ({ w with owed, configs := Function.update w.configs taskId [] }, false)
  | .setConfig taskId tpnc =>
    some ({ w with
      configs := Function.update w.configs taskId
        (InMemoryPushConfigStore.put (w.configs taskId) (tpnc.id.getD "") tpnc)
      requests := w.requests ++ [.set taskId tpnc]
      late := if taskId ∈ w.ids then w.late else w.late ++ [taskId] }, ())
  | .deleteConfig taskId configId =>
    let (rest, deleted) := InMemoryPushConfigStore.deleteConfig (w.configs taskId) configId
    some ({ w with
      configs := Function.update w.configs taskId rest
      requests := w.requests ++ [.delete taskId configId] }, deleted)

/-- What happens besides the calls: tasks are created under new ids, and cascades start or stop to
raise. -/
inductive Passes : PushWorld ι → PushWorld ι → Prop
  | create {w : PushWorld ι} {taskId : TaskId} {contextId : ContextId} : taskId ∉ w.used →
      Passes w { w with
        tasks := w.tasks ++ [(taskId, contextId)]
        sets := Function.update w.sets contextId (w.sets contextId ++ [taskId])
        used := w.used ++ [taskId] }
  | raises {w : PushWorld ι} {raises : Bool} : Passes w { w with raises }

end PushWorld

open PushWorld (Passes)

/-- Any number of calls at the same time. -/
def cascadeCrew (ι : Type) [DecidableEq ι] : Crew ι CascadeOp (PushWorld ι) where
  perform := PushWorld.perform
  env := Passes
  ok _ _ _ _ := True

/-! ### The invariant -/

section

variable {ι : Type} [DecidableEq ι] {storage : DeletingStorage} {w w' : PushWorld ι} {i j : ι}
  {t : TaskId}

/-- A call cascades what it has deleted, and sets a configuration of a task that it has found; on
SQL it deletes what it has selected. -/
def Entitled (storage : DeletingStorage) (i : ι) {β : Type} (e : CascadeOp β) (w : PushWorld ι) :
    Prop :=
  match e with
  | .deleteConfigsForTask taskId => taskId ∈ w.owed i
  | .setConfig taskId _ => taskId ∈ w.found i
  | .deleteWhere contextId taskIds =>
    storage = .sql ∧ ∀ t ∈ taskIds, (t, contextId) ∈ w.selected i
  | _ => True

structure CascadesKept (storage : DeletingStorage) (w : PushWorld ι) : Prop where
  keyed : ∀ t c c', (t, c) ∈ w.tasks → (t, c') ∈ w.tasks → c = c'
  used : ∀ t ∈ w.ids, t ∈ w.used
  owed : ∀ i, ∀ t ∈ w.owed i, t ∈ w.used ∧ t ∉ w.ids
  found : ∀ i, ∀ t ∈ w.found i, t ∈ w.used
  live : ∀ t, t ∈ w.ids ∨ t ∉ w.used →
    w.configs t = w.requests.foldl (PushRequest.replay t) []
  orphaned : ∀ t, w.configs t ≠ [] →
    t ∈ w.ids ∨ (∃ i, t ∈ w.owed i) ∨ t ∈ w.failed ∨ t ∈ w.missed ∨ t ∈ w.late
  selected : ∀ i, ∀ row ∈ w.selected i, row.1 ∈ w.used ∧ ∀ c, (row.1, c) ∈ w.tasks → c = row.2
  missed : ∀ t ∈ w.missed, storage = .sql ∧ t ∈ w.used ∧ t ∉ w.ids
  late : ∀ t ∈ w.late, t ∉ w.ids ∧ ∃ i, t ∈ w.found i

theorem mem_update_books {books : ι → List TaskId} {l : List TaskId} :
    t ∈ Function.update books i l j ↔ (j = i ∧ t ∈ l) ∨ (j ≠ i ∧ t ∈ books j) := by
  by_cases hj : j = i
  · subst hj
    simp
  · simp [hj]

/-- Books only grow where something is added. -/
theorem mem_append_books {books : ι → List TaskId} {l : List TaskId} (h : t ∈ books j) :
    t ∈ Function.update books i (books i ++ l) j := by
  by_cases hji : j = i
  · subst hji
    exact mem_update_books.mpr (Or.inl ⟨rfl, List.mem_append_left _ h⟩)
  · exact mem_update_books.mpr (Or.inr ⟨hji, h⟩)

theorem of_mem_append_books {books : ι → List TaskId} {l : List TaskId}
    (h : t ∈ Function.update books i (books i ++ l) j) : t ∈ books j ∨ t ∈ l := by
  rcases mem_update_books.mp h with ⟨rfl, h⟩ | ⟨-, h⟩
  · exact List.mem_append.mp h
  · exact Or.inl h

omit [DecidableEq ι] in
theorem CascadesKept.passes (h : CascadesKept storage w) (hstep : Passes w w') :
    CascadesKept storage w' := by
  cases hstep with
  | raises => exact { h with }
  | @create taskId contextId hnew =>
    have hids : ∀ t, t ∈ (w.tasks ++ [(taskId, contextId)]).map Prod.fst ↔
        t ∈ w.ids ∨ t = taskId := by
      simp [PushWorld.ids]
    -- what was used before is no new task
    have hgone : ∀ t, t ∈ w.used → t ∉ w.ids →
        t ∉ (w.tasks ++ [(taskId, contextId)]).map Prod.fst := fun t hused hgone hin => by
      rcases (hids t).mp hin with hin | rfl
      · exact hgone hin
      · exact hnew hused
    have hrow : ∀ t c, t ∈ w.used → (t, c) ∈ w.tasks ++ [(taskId, contextId)] →
        (t, c) ∈ w.tasks := fun t c hused hmem => by
      rcases List.mem_append.mp hmem with hmem | hmem
      · exact hmem
      · obtain ⟨rfl, -⟩ := Prod.mk.inj (List.mem_singleton.mp hmem)
        exact absurd hused hnew
    have hfresh : ∀ c, (taskId, c) ∈ w.tasks ++ [(taskId, contextId)] → c = contextId := by
      intro c hmem
      rcases List.mem_append.mp hmem with hmem | hmem
      · exact absurd (h.used taskId (List.mem_map.mpr ⟨_, hmem, rfl⟩)) hnew
      · exact (Prod.mk.inj (List.mem_singleton.mp hmem)).2
    refine
      { keyed := fun t c c' hc hc' => ?_
        used := fun t ht => ?_
        owed := fun i t ht => ?_
        found := fun i t ht => List.mem_append_left _ (h.found i t ht)
        live := fun t ht => h.live t ?_
        orphaned := fun t ht => (h.orphaned t ht).imp_left fun ht => (hids t).mpr (Or.inl ht)
        selected := fun i row hrows => ?_
        missed := fun t ht => ?_
        late := fun t ht => ?_ }
    · by_cases ht : t = taskId
      · subst ht
        exact (hfresh c hc).trans (hfresh c' hc').symm
      · have hold : ∀ c, (t, c) ∈ w.tasks ++ [(taskId, contextId)] → (t, c) ∈ w.tasks := by
          simp [ht]
        exact h.keyed t c c' (hold c hc) (hold c' hc')
    · rcases (hids t).mp ht with ht | rfl
      · exact List.mem_append_left _ (h.used t ht)
      · exact List.mem_concat_self
    · obtain ⟨hused, hnot⟩ := h.owed i t ht
      exact ⟨List.mem_append_left _ hused, hgone t hused hnot⟩
    · rcases ht with ht | ht
      · rcases (hids t).mp ht with ht | rfl
        · exact Or.inl ht
        · exact Or.inr hnew
      · exact Or.inr fun hused => ht (List.mem_append_left _ hused)
    · obtain ⟨hused, hcontext⟩ := h.selected i row hrows
      exact ⟨List.mem_append_left _ hused, fun c hmem => hcontext c (hrow row.1 c hused hmem)⟩
    · obtain ⟨hsql, hused, hnot⟩ := h.missed t ht
      exact ⟨hsql, List.mem_append_left _ hused, hgone t hused hnot⟩
    · obtain ⟨hnot, i, hi⟩ := h.late t ht
      exact ⟨hgone t (h.found i t hi) hnot, i, hi⟩

/-- Tasks are deleted, and owed by the call as far as it knows of them. -/
theorem CascadesKept.delete {taskIds missed : List TaskId} {tasks : List (TaskId × ContextId)}
    {sets : ContextId → List TaskId} (h : CascadesKept storage w)
    (htasks : ∀ row ∈ tasks, row ∈ w.tasks)
    (howed : ∀ t ∈ taskIds, t ∈ w.used ∧ t ∉ tasks.map Prod.fst)
    (hdeleted : ∀ t ∈ w.ids, t ∉ tasks.map Prod.fst → t ∈ taskIds ∨ t ∈ missed)
    (hgrown : ∀ t ∈ w.missed, t ∈ missed)
    (hmissed : ∀ t ∈ missed, t ∈ w.missed ∨ storage = .sql ∧ t ∈ w.ids ∧ t ∉ tasks.map Prod.fst) :
    CascadesKept storage { w with
      tasks
      sets
      owed := Function.update w.owed i (w.owed i ++ taskIds)
      missed } := by
  have hids : ∀ t ∈ tasks.map Prod.fst, t ∈ w.ids := fun t ht => by
    obtain ⟨row, hmem, rfl⟩ := List.mem_map.mp ht
    exact List.mem_map.mpr ⟨row, htasks row hmem, rfl⟩
  refine
    { keyed := fun t c c' hc hc' => h.keyed t c c' (htasks _ hc) (htasks _ hc')
      used := fun t ht => h.used t (hids t ht)
      owed := fun j t ht => ?_
      found := h.found
      live := fun t ht => h.live t (ht.imp_left (hids t))
      orphaned := fun t ht => ?_
      selected := fun j row hrow =>
        ⟨(h.selected j row hrow).1, fun c hc => (h.selected j row hrow).2 c (htasks _ hc)⟩
      missed := fun t ht => ?_
      late := fun t ht => ⟨fun hin => (h.late t ht).1 (hids t hin), (h.late t ht).2⟩ }
  · rcases of_mem_append_books ht with ht | ht
    · exact ⟨(h.owed j t ht).1, fun hin => (h.owed j t ht).2 (hids t hin)⟩
    · exact howed t ht
  · rcases h.orphaned t ht with hin | ⟨j, hj⟩ | hfailed | hmiss | hlate
    · by_cases hstays : t ∈ tasks.map Prod.fst
      · exact Or.inl hstays
      · rcases hdeleted t hin hstays with ht | ht
        · exact Or.inr (Or.inl ⟨i, mem_update_books.mpr
            (Or.inl ⟨rfl, List.mem_append_right _ ht⟩)⟩)
        · exact Or.inr (Or.inr (Or.inr (Or.inl ht)))
    · exact Or.inr (Or.inl ⟨j, mem_append_books hj⟩)
    · exact Or.inr (Or.inr (Or.inl hfailed))
    · exact Or.inr (Or.inr (Or.inr (Or.inl (hgrown t hmiss))))
    · exact Or.inr (Or.inr (Or.inr (Or.inr hlate)))
  · rcases hmissed t ht with hold | ⟨hsql, hin, hgone⟩
    · obtain ⟨hsql, hused, hnot⟩ := h.missed t hold
      exact ⟨hsql, hused, fun hin => hnot (hids t hin)⟩
    · exact ⟨hsql, h.used t hin, hgone⟩

/-- What is owed after a cascade. -/
theorem mem_erase_books {books : ι → List TaskId} {taskId : TaskId} (hne : t ≠ taskId)
    (h : ∃ j, t ∈ books j) :
    ∃ j, t ∈ Function.update books i ((books i).erase taskId) j := by
  obtain ⟨j, hj⟩ := h
  refine ⟨j, mem_update_books.mpr ?_⟩
  by_cases hji : j = i
  · subst hji
    exact Or.inl ⟨rfl, (List.mem_erase_of_ne hne).mpr hj⟩
  · exact Or.inr ⟨hji, hj⟩

theorem owed_of_erase {books : ι → List TaskId} {taskId : TaskId}
    (h : t ∈ Function.update books i ((books i).erase taskId) j) : t ∈ books j := by
  rcases mem_update_books.mp h with ⟨rfl, h⟩ | ⟨-, h⟩
  · exact List.mem_of_mem_erase h
  · exact h

omit [DecidableEq ι] in
/-- A write by a call of the task's own. -/
theorem CascadesKept.write {request : PushRequest} {taskId : TaskId} {configs : TaskConfigs}
    {late : List TaskId} (h : CascadesKept storage w)
    (hreplay : ∀ t, request.replay t (w.configs t) =
      Function.update w.configs taskId configs t)
    (horphan : configs ≠ [] → w.configs taskId ≠ [] ∨ taskId ∈ w.ids ∨ taskId ∈ late)
    (hgrown : ∀ t ∈ w.late, t ∈ late)
    (hlate : ∀ t ∈ late, t ∉ w.ids ∧ ∃ i, t ∈ w.found i) :
    CascadesKept storage { w with
      configs := Function.update w.configs taskId configs
      requests := w.requests ++ [request]
      late } := by
  have hold : ∀ t, w.configs t ≠ [] →
      t ∈ w.ids ∨ (∃ i, t ∈ w.owed i) ∨ t ∈ w.failed ∨ t ∈ w.missed ∨ t ∈ late := fun t ht =>
    (h.orphaned t ht).imp_right (Or.imp_right (Or.imp_right (Or.imp_right (hgrown t))))
  refine { h with live := fun t ht => ?_, orphaned := fun t ht => ?_, late := hlate }
  · show Function.update w.configs taskId configs t = _
    rw [List.foldl_append, List.foldl_cons, List.foldl_nil, ← h.live t ht, hreplay]
  · by_cases heq : t = taskId
    · subst heq
      have hconfigs : configs ≠ [] := by simpa using ht
      rcases horphan hconfigs with hne | hin | hin
      · exact hold t hne
      · exact Or.inl hin
      · exact Or.inr (Or.inr (Or.inr (Or.inr hin)))
    · exact hold t (by simpa [Function.update_of_ne heq] using ht)

omit [DecidableEq ι] in
theorem mem_ids_filter {taskIds : List TaskId} :
    t ∈ (w.tasks.filter (·.1 ∉ taskIds)).map Prod.fst ↔ t ∈ w.ids ∧ t ∉ taskIds := by
  simp only [PushWorld.ids, List.mem_map, List.mem_filter, decide_eq_true_eq]
  constructor
  · rintro ⟨task, ⟨hmem, hnot⟩, rfl⟩
    exact ⟨⟨task, hmem, rfl⟩, hnot⟩
  · rintro ⟨⟨task, hmem, rfl⟩, hnot⟩
    exact ⟨task, ⟨hmem, hnot⟩, rfl⟩

/-- Tasks that exist are deleted, and all of them are owed. -/
theorem CascadesKept.deleteKnown {taskIds : List TaskId} {sets : ContextId → List TaskId}
    (h : CascadesKept storage w) (hthere : ∀ t ∈ taskIds, t ∈ w.ids) :
    CascadesKept storage { w with
      tasks := w.tasks.filter (·.1 ∉ taskIds)
      sets
      owed := Function.update w.owed i (w.owed i ++ taskIds) } := by
  refine h.delete (fun _ hrow => List.mem_of_mem_filter hrow) (fun t ht => ?_)
    (fun t hin hgone => ?_) (fun _ ht => ht) fun _ ht => Or.inl ht
  · exact ⟨h.used t (hthere t ht), fun hin => (mem_ids_filter.mp hin).2 ht⟩
  · by_contra hnot
    exact hgone (mem_ids_filter.mpr ⟨hin, fun ht => hnot (Or.inl ht)⟩)

theorem CascadesKept.perform {β : Type} {e : CascadeOp β} {b : β} (h : CascadesKept storage w)
    (hreq : Entitled storage i e w) (hperf : w.perform i e = some (w', b)) :
    CascadesKept storage w' := by
  cases e with
  | deleteTask taskId srem =>
    simp only [PushWorld.perform] at hperf
    split at hperf
    · rename_i hin
      obtain ⟨rfl, -⟩ := Prod.mk.inj (Option.some_inj.mp hperf)
      have hfilter : w.tasks.filter (·.1 ≠ taskId) = w.tasks.filter (·.1 ∉ [taskId]) := by simp
      rw [hfilter]
      exact h.deleteKnown fun t ht => by rwa [List.mem_singleton.mp ht]
    · obtain ⟨rfl, -⟩ := Prod.mk.inj (Option.some_inj.mp hperf)
      exact { h with }
  | deleteTasks contextId =>
    obtain ⟨rfl, -⟩ := Prod.mk.inj (Option.some_inj.mp hperf)
    refine h.deleteKnown fun t ht => ?_
    obtain ⟨task, hmem, rfl⟩ := List.mem_map.mp ht
    exact List.mem_map.mpr ⟨task, List.mem_of_mem_filter hmem, rfl⟩
  | selectIds contextId =>
    obtain ⟨rfl, -⟩ := Prod.mk.inj (Option.some_inj.mp hperf)
    refine { h with selected := fun j row hrow => ?_ }
    by_cases hji : j = i
    · subst hji
      have hmem : row ∈ w.selected j ∨ row ∈ w.tasks ∧ row.2 = contextId := by simpa using hrow
      rcases hmem with hold | ⟨hmem, -⟩
      · exact h.selected j row hold
      · exact ⟨h.used row.1 (List.mem_map.mpr ⟨row, hmem, rfl⟩),
          fun c hc => h.keyed row.1 c row.2 hc hmem⟩
    · exact h.selected j row (by simpa [hji] using hrow)
  | deleteWhere contextId taskIds =>
    obtain ⟨hsql, hselected⟩ := hreq
    obtain ⟨rfl, -⟩ := Prod.mk.inj (Option.some_inj.mp hperf)
    -- no row of the context is left
    have hgone : ∀ t, (∀ c, (t, c) ∈ w.tasks → c = contextId) →
        t ∉ (w.tasks.filter (·.2 ≠ contextId)).map Prod.fst := fun t hcontext hin => by
      obtain ⟨⟨_, c⟩, hmem, rfl⟩ := List.mem_map.mp hin
      obtain ⟨hmem, hne⟩ := List.mem_filter.mp hmem
      exact of_decide_eq_true hne (hcontext c hmem)
    have hdeleted : ∀ t, t ∈ (w.tasks.filter (·.2 = contextId)).map Prod.fst ↔
        (t, contextId) ∈ w.tasks := by
      simp
    refine h.delete (fun _ hrow => List.mem_of_mem_filter hrow) (fun t ht => ?_)
      (fun t hin hnot => ?_) (fun _ ht => List.mem_append_left _ ht) fun t ht => ?_
    · obtain ⟨hused, hcontext⟩ := h.selected i _ (hselected t ht)
      exact ⟨hused, hgone t hcontext⟩
    · obtain ⟨⟨t, c⟩, hmem, rfl⟩ := List.mem_map.mp hin
      by_cases hc : c = contextId
      · subst hc
        by_cases ht : t ∈ taskIds
        · exact Or.inl ht
        · exact Or.inr (List.mem_append_right _
            (List.mem_filter.mpr ⟨(hdeleted _).mpr hmem, decide_eq_true ht⟩))
      · exact absurd (List.mem_map.mpr
          ⟨_, List.mem_filter.mpr ⟨hmem, decide_eq_true hc⟩, rfl⟩) hnot
    · rcases List.mem_append.mp ht with ht | ht
      · exact Or.inl ht
      · have hmem := (hdeleted t).mp (List.mem_of_mem_filter ht)
        exact Or.inr ⟨hsql, List.mem_map.mpr ⟨_, hmem, rfl⟩,
          hgone t fun c hc => h.keyed t c contextId hc hmem⟩
  | hmget taskId =>
    obtain ⟨rfl, -⟩ := Prod.mk.inj (Option.some_inj.mp hperf)
    exact h
  | smembers contextId =>
    obtain ⟨rfl, -⟩ := Prod.mk.inj (Option.some_inj.mp hperf)
    exact h
  | deleteSet contextId =>
    obtain ⟨rfl, -⟩ := Prod.mk.inj (Option.some_inj.mp hperf)
    exact { h with }
  | loadTask taskId =>
    simp only [PushWorld.perform] at hperf
    split at hperf
    · rename_i hin
      obtain ⟨rfl, -⟩ := Prod.mk.inj (Option.some_inj.mp hperf)
      refine { h with found := fun j t ht => ?_, late := fun t ht => ?_ }
      · rcases of_mem_append_books ht with ht | ht
        · exact h.found j t ht
        · rw [List.mem_singleton.mp ht]
          exact h.used taskId hin
      · obtain ⟨hgone, j, hj⟩ := h.late t ht
        exact ⟨hgone, j, mem_append_books hj⟩
    · obtain ⟨rfl, -⟩ := Prod.mk.inj (Option.some_inj.mp hperf)
      exact h
  | deleteConfigsForTask taskId =>
    have howed : taskId ∈ w.owed i := hreq
    simp only [PushWorld.perform] at hperf
    split at hperf
    · obtain ⟨rfl, -⟩ := Prod.mk.inj (Option.some_inj.mp hperf)
      refine { h with
        owed := fun j t ht => h.owed j t (owed_of_erase ht)
        orphaned := fun t ht => ?_ }
      rcases h.orphaned t ht with hin | hpending | hfailed | hrest
      · exact Or.inl hin
      · by_cases heq : t = taskId
        · exact Or.inr (Or.inr (Or.inl (heq ▸ List.mem_concat_self)))
        · exact Or.inr (Or.inl (mem_erase_books heq hpending))
      · exact Or.inr (Or.inr (Or.inl (List.mem_append_left _ hfailed)))
      · exact Or.inr (Or.inr (Or.inr hrest))
    · obtain ⟨rfl, -⟩ := Prod.mk.inj (Option.some_inj.mp hperf)
      -- a task that is owed exists no longer, so its configurations may go
      have hne : ∀ t, t ∈ w.ids ∨ t ∉ w.used → t ≠ taskId := by
        rintro t ht rfl
        exact ht.elim (h.owed i t howed).2 fun hnot => hnot (h.owed i t howed).1
      refine { h with
        owed := fun j t ht => h.owed j t (owed_of_erase ht)
        live := fun t ht => ?_
        orphaned := fun t ht => ?_ }
      · exact (Function.update_of_ne (hne t ht) ..).trans (h.live t ht)
      · by_cases heq : t = taskId
        · subst heq
          exact absurd (Function.update_self ..) ht
        · have hold : w.configs t ≠ [] := by simpa [Function.update_of_ne heq] using ht
          exact (h.orphaned t hold).imp_right (Or.imp_left (mem_erase_books heq))
  | setConfig taskId tpnc =>
    have hfound : taskId ∈ w.found i := hreq
    obtain ⟨rfl, -⟩ := Prod.mk.inj (Option.some_inj.mp hperf)
    refine h.write (fun t => ?_) (fun _ => Or.inr ?_) (fun t ht => ?_) fun t ht => ?_
    · by_cases heq : t = taskId
      · subst heq
        simp [PushRequest.replay]
      · simp [PushRequest.replay, Function.update_of_ne heq, Ne.symm heq]
    · by_cases hin : taskId ∈ w.ids
      · exact Or.inl hin
      · exact Or.inr (by simp [hin])
    · split
      · exact ht
      · exact List.mem_append_left _ ht
    · split at ht
      · exact h.late t ht
      · rename_i hgone
        rcases List.mem_append.mp ht with ht | ht
        · exact h.late t ht
        · rw [List.mem_singleton.mp ht]
          exact ⟨hgone, i, hfound⟩
  | deleteConfig taskId configId =>
    obtain ⟨rfl, -⟩ := Prod.mk.inj (Option.some_inj.mp hperf)
    refine h.write (fun t => ?_) (fun hne => Or.inl fun hnone => hne ?_) (fun _ ht => ht) h.late
    · by_cases heq : t = taskId
      · subst heq
        simp [PushRequest.replay, InMemoryPushConfigStore.deleteConfig]
      · simp [PushRequest.replay, Function.update_of_ne heq, Ne.symm heq]
    · simp [hnone]

/-! ### The calls among each other -/

/-- What a call relies on: nobody else writes in its books. -/
def cascadeRely (i : ι) (w w' : PushWorld ι) : Prop :=
  w'.owed i = w.owed i ∧ w'.found i = w.found i ∧ w'.selected i = w.selected i

theorem cascadeRely_of_ne {β : Type} {e : CascadeOp β} {b : β} (hij : i ≠ j)
    (hperf : w.perform j e = some (w', b)) : cascadeRely i w w' := by
  cases e with
  | deleteTask taskId srem =>
    simp only [PushWorld.perform] at hperf
    split at hperf
    · obtain ⟨rfl, -⟩ := Prod.mk.inj (Option.some_inj.mp hperf)
      exact ⟨Function.update_of_ne hij .., rfl, rfl⟩
    · obtain ⟨rfl, -⟩ := Prod.mk.inj (Option.some_inj.mp hperf)
      exact ⟨rfl, rfl, rfl⟩
  | deleteTasks contextId =>
    obtain ⟨rfl, -⟩ := Prod.mk.inj (Option.some_inj.mp hperf)
    exact ⟨Function.update_of_ne hij .., rfl, rfl⟩
  | selectIds contextId =>
    obtain ⟨rfl, -⟩ := Prod.mk.inj (Option.some_inj.mp hperf)
    exact ⟨rfl, rfl, Function.update_of_ne hij ..⟩
  | deleteWhere contextId taskIds =>
    obtain ⟨rfl, -⟩ := Prod.mk.inj (Option.some_inj.mp hperf)
    exact ⟨Function.update_of_ne hij .., rfl, rfl⟩
  | loadTask taskId =>
    simp only [PushWorld.perform] at hperf
    split at hperf
    · obtain ⟨rfl, -⟩ := Prod.mk.inj (Option.some_inj.mp hperf)
      exact ⟨rfl, Function.update_of_ne hij .., rfl⟩
    · obtain ⟨rfl, -⟩ := Prod.mk.inj (Option.some_inj.mp hperf)
      exact ⟨rfl, rfl, rfl⟩
  | deleteConfigsForTask taskId =>
    simp only [PushWorld.perform] at hperf
    split at hperf
    all_goals
      obtain ⟨rfl, -⟩ := Prod.mk.inj (Option.some_inj.mp hperf)
      exact ⟨Function.update_of_ne hij .., rfl, rfl⟩
  | _ =>
    obtain ⟨rfl, -⟩ := Prod.mk.inj (Option.some_inj.mp hperf)
    exact ⟨rfl, rfl, rfl⟩

theorem cascade_fits : (cascadeCrew ι).Fits cascadeRely
    (fun i _ e w => Entitled storage i e w) (CascadesKept storage) fun _ => True where
  env_rely _ _ _ _ hstep := by
    cases hstep with
    | create _ => exact ⟨rfl, rfl, rfl⟩
    | raises => exact ⟨rfl, rfl, rfl⟩
  env_keeps _ _ h hstep := h.passes hstep
  env_guar _ _ _ _ := trivial
  op_rely _ _ _ _ _ _ _ hij _ _ _ hperf := cascadeRely_of_ne hij hperf
  op_keeps _ _ _ _ _ _ h _ hreq hperf := h.perform hreq hperf
  op_guar _ _ _ _ _ _ _ _ _ _ := trivial

/-- The system as one call sees it. -/
abbrev cascadeSystem (storage : DeletingStorage) (i : ι) : System CascadeOp (PushWorld ι) :=
  (cascadeCrew ι).system cascadeRely (fun i _ e w => Entitled storage i e w) i

theorem stable_books (φ : List TaskId → List TaskId → List (TaskId × ContextId) → Prop) :
    (cascadeSystem storage i).Stable fun w => φ (w.owed i) (w.found i) (w.selected i) := by
  rintro w w' ⟨howed, hfound, hselected⟩ hw
  rw [howed, hfound, hselected]
  exact hw

/-- A call that owes no cascade. -/
abbrev OwesNothing (i : ι) (_ : Unit) (w : PushWorld ι) : Prop := w.owed i = []

theorem stable_owesNothing (s : Unit) : (cascadeSystem storage i).Stable (OwesNothing i s) :=
  stable_books fun owed _ _ => owed = []

/-! ### The calls, one by one -/

/-- An operation that leaves the books as they are. -/
theorem triple_quiet {β : Type} {e : CascadeOp β} {X : ServerExc → Unit → PushWorld ι → Prop}
    (hreq : ∀ w, Entitled storage i e w)
    (hquiet : ∀ w w' b, PushWorld.perform i e w = some (w', b) → w'.owed i = w.owed i) :
    Triple (cascadeSystem storage i) (OwesNothing i) (Act.perform e) (fun _ => OwesNothing i)
      X := by
  refine Triple.perform stable_owesNothing (fun _ => stable_owesNothing) fun _ w hw _ => ?_
  exact ⟨hreq w, fun w' b hperf => (hquiet w w' b hperf).trans hw⟩

theorem triple_cascadePushDeleteForTask {l : List TaskId}
    {X : ServerExc → Unit → PushWorld ι → Prop} :
    Triple (cascadeSystem storage i) (fun _ w => w.owed i = t :: l) (cascadePushDeleteForTask t)
      (fun _ _ w => w.owed i = l) X := by
  have hleft : ∀ _ : Unit, (cascadeSystem storage i).Stable fun w => w.owed i = l := fun _ =>
    stable_books fun owed _ _ => owed = l
  refine Triple.bind (Q := fun _ _ w => w.owed i = l) ?_ fun _ =>
    Triple.pure hleft fun _ _ hw => hw
  refine Triple.perform (fun _ => stable_books fun owed _ _ => owed = t :: l) (fun _ => hleft)
    fun _ w howed _ => ⟨?_, fun w' b hperf => ?_⟩
  · show t ∈ w.owed i
    rw [howed]
    exact List.mem_cons_self
  · have herase : w'.owed i = (w.owed i).erase t := by
      simp only [cascadeSystem, Crew.system, cascadeCrew, PushWorld.perform] at hperf
      split at hperf
      all_goals
        obtain ⟨rfl, -⟩ := Prod.mk.inj (Option.some_inj.mp hperf)
        exact Function.update_self ..
    rw [herase, howed, List.erase_cons_head]

/-- The cascades of all tasks that are owed. -/
theorem triple_cascadePushDeleteForTasks {X : ServerExc → Unit → PushWorld ι → Prop}
    (taskIds : List TaskId) :
    Triple (cascadeSystem storage i) (fun _ w => w.owed i = taskIds)
      (cascadePushDeleteForTasks taskIds) (fun _ => OwesNothing i) X := by
  induction taskIds with
  | nil => exact Triple.pure stable_owesNothing fun _ _ hw => hw
  | cons t rest ih => exact Triple.bind triple_cascadePushDeleteForTask fun _ => ih

theorem triple_dropTask {srem : Option ContextId} {X : ServerExc → Unit → PushWorld ι → Prop} :
    Triple (cascadeSystem storage i) (OwesNothing i) (dropTask t srem) (fun _ => OwesNothing i)
      X := by
  refine Triple.bind (Q := fun existed _ w => w.owed i = if existed then [t] else []) ?_ ?_
  · refine Triple.perform stable_owesNothing
      (fun existed _ => stable_books fun owed _ _ => owed = if existed then [t] else [])
      fun _ w howed _ => ⟨trivial, fun w' existed hperf => ?_⟩
    have hnone : w.owed i = [] := howed
    simp only [cascadeSystem, Crew.system, cascadeCrew, PushWorld.perform] at hperf
    split at hperf
    · obtain ⟨rfl, rfl⟩ := Prod.mk.inj (Option.some_inj.mp hperf)
      simp [hnone]
    · obtain ⟨rfl, rfl⟩ := Prod.mk.inj (Option.some_inj.mp hperf)
      exact hnone
  · intro existed
    cases existed with
    | true =>
      refine Triple.bind triple_cascadePushDeleteForTask fun _ => ?_
      exact Triple.pure stable_owesNothing fun _ _ hw => hw
    | false => exact Triple.pure stable_owesNothing fun _ _ hw => hw

theorem triple_cascadingDelete (kind : DeletingStorage)
    {X : ServerExc → Unit → PushWorld ι → Prop} :
    Triple (cascadeSystem storage i) (OwesNothing i) (kind.deleteTask t) (fun _ => OwesNothing i)
      X := by
  cases kind with
  | inMemory => exact triple_dropTask
  | sql => exact triple_dropTask
  | redis =>
    refine Triple.bind (triple_quiet (fun _ => trivial) fun w w' b hperf => ?_) fun contextId => ?_
    · obtain ⟨rfl, -⟩ := Prod.mk.inj (Option.some_inj.mp hperf)
      rfl
    · cases contextId with
      | none => exact Triple.pure stable_owesNothing fun _ _ hw => hw
      | some contextId => exact triple_dropTask

theorem triple_deleteEach {X : ServerExc → Unit → PushWorld ι → Prop} (taskIds : List TaskId) :
    Triple (cascadeSystem storage i) (OwesNothing i) (DeletingStorage.deleteEach taskIds)
      (fun _ => OwesNothing i) X := by
  induction taskIds with
  | nil => exact Triple.pure stable_owesNothing fun _ _ hw => hw
  | cons t rest ih =>
    refine Triple.bind (triple_cascadingDelete .redis) fun _ => Triple.bind ih fun _ => ?_
    exact Triple.pure stable_owesNothing fun _ _ hw => hw

theorem triple_deleteContext (storage : DeletingStorage) {contextId : ContextId}
    {X : ServerExc → Unit → PushWorld ι → Prop} :
    Triple (cascadeSystem storage i) (OwesNothing i) (storage.deleteContext contextId)
      (fun _ => OwesNothing i) X := by
  cases storage with
  | inMemory =>
    refine Triple.bind (Q := fun taskIds _ w => w.owed i = taskIds) ?_ fun taskIds =>
      Triple.bind (triple_cascadePushDeleteForTasks taskIds) fun _ =>
        Triple.pure stable_owesNothing fun _ _ hw => hw
    refine Triple.perform stable_owesNothing
      (fun taskIds _ => stable_books fun owed _ _ => owed = taskIds)
      fun _ w howed _ => ⟨trivial, fun w' taskIds hperf => ?_⟩
    have hnone : w.owed i = [] := howed
    obtain ⟨rfl, rfl⟩ := Prod.mk.inj (Option.some_inj.mp hperf)
    simp [hnone]
  | sql =>
    -- what was selected is owed once it is deleted
    have hselects : ∀ (taskIds : List TaskId) (_ : Unit), (cascadeSystem .sql i).Stable fun w =>
        w.owed i = [] ∧ ∀ t ∈ taskIds, (t, contextId) ∈ w.selected i := fun taskIds _ =>
      stable_books fun owed _ rows => owed = [] ∧ ∀ t ∈ taskIds, (t, contextId) ∈ rows
    refine Triple.bind (Q := fun taskIds _ w =>
      w.owed i = [] ∧ ∀ t ∈ taskIds, (t, contextId) ∈ w.selected i) ?_ fun taskIds =>
        Triple.bind (Q := fun _ _ w => w.owed i = taskIds) ?_ fun _ =>
          Triple.bind (triple_cascadePushDeleteForTasks taskIds) fun _ =>
            Triple.pure stable_owesNothing fun _ _ hw => hw
    · refine Triple.perform stable_owesNothing hselects fun _ w howed _ =>
        ⟨trivial, fun w' taskIds hperf => ?_⟩
      have hnone : w.owed i = [] := howed
      obtain ⟨rfl, rfl⟩ := Prod.mk.inj (Option.some_inj.mp hperf)
      simp +contextual [hnone]
    · refine Triple.perform (hselects taskIds)
        (fun _ _ => stable_books fun owed _ _ => owed = taskIds) fun _ w hw _ =>
          ⟨⟨rfl, hw.2⟩, fun w' _ hperf => ?_⟩
      obtain ⟨rfl, -⟩ := Prod.mk.inj (Option.some_inj.mp hperf)
      simp [hw.1]
  | redis =>
    refine Triple.bind (triple_quiet (fun _ => trivial) fun w w' b hperf => ?_) fun taskIds =>
      Triple.bind (triple_deleteEach taskIds) fun _ => Triple.bind
        (triple_quiet (fun _ => trivial) fun w w' b hperf => ?_) fun _ =>
          Triple.pure stable_owesNothing fun _ _ hw => hw
    all_goals
      obtain ⟨rfl, -⟩ := Prod.mk.inj (Option.some_inj.mp hperf)
      rfl

/-- What a handler has loaded is in its books. -/
theorem triple_loadTask {X : ServerExc → Unit → PushWorld ι → Prop} :
    Triple (cascadeSystem storage i) (OwesNothing i) (Act.perform (.loadTask t))
      (fun found _ w => w.owed i = [] ∧ (found = true → t ∈ w.found i)) X := by
  refine Triple.perform stable_owesNothing
    (fun found _ => stable_books fun owed books _ => owed = [] ∧ (found = true → t ∈ books))
    fun _ w howed _ => ⟨trivial, fun w' found hperf => ?_⟩
  have hnone : w.owed i = [] := howed
  simp only [cascadeSystem, Crew.system, cascadeCrew, PushWorld.perform] at hperf
  split at hperf
  · obtain ⟨rfl, rfl⟩ := Prod.mk.inj (Option.some_inj.mp hperf)
    exact ⟨hnone, fun _ => by simp⟩
  · obtain ⟨rfl, rfl⟩ := Prod.mk.inj (Option.some_inj.mp hperf)
    exact ⟨hnone, fun h => Bool.noConfusion h⟩

theorem triple_cascadeCall (storage : DeletingStorage) (r : Registrar) (call : CascadeCall) :
    Triple (cascadeSystem storage i) (OwesNothing i) (call.run storage r) (fun _ => OwesNothing i)
      fun _ => OwesNothing i := by
  cases call with
  | deleteTask taskId =>
    exact Triple.bind (triple_cascadingDelete storage) fun _ =>
      Triple.pure stable_owesNothing fun _ _ hw => hw
  | deleteContext contextId =>
    exact Triple.bind (triple_deleteContext storage) fun _ =>
      Triple.pure stable_owesNothing fun _ _ hw => hw
  | setConfig taskId configData uuid =>
    refine Triple.bind triple_loadTask fun found => ?_
    have hloaded : ∀ _ : Unit, (cascadeSystem storage i).Stable fun w =>
        w.owed i = [] ∧ (found = true → taskId ∈ w.found i) := fun _ =>
      stable_books fun owed books _ => owed = [] ∧ (found = true → taskId ∈ books)
    cases hset : handleSetConfig r { taskId, found } configData uuid with
    | error x => exact Triple.throw hloaded fun _ _ hw => hw.1
    | ok tpnc =>
      -- only what was found is set
      obtain ⟨hfound, -⟩ := handleSetConfig_ok.mp hset
      refine Triple.perform hloaded (fun _ => stable_owesNothing) fun _ w hw _ =>
        ⟨hw.2 hfound, fun w' _ hperf => ?_⟩
      obtain ⟨rfl, -⟩ := Prod.mk.inj (Option.some_inj.mp hperf)
      exact hw.1
  | deleteConfig taskId configId =>
    refine Triple.bind (triple_loadTask.conseq (fun _ _ hw => hw) (fun _ _ _ hw => hw.1)
      fun _ _ _ hw => hw) fun found => ?_
    cases found with
    | false => exact Triple.throw stable_owesNothing fun _ _ hw => hw
    | true =>
      refine Triple.bind (triple_quiet (fun _ => trivial) fun w w' b hperf => ?_) fun deleted => ?_
      · obtain ⟨rfl, -⟩ := Prod.mk.inj (Option.some_inj.mp hperf)
        rfl
      · cases deleted with
        | true => exact Triple.pure stable_owesNothing fun _ _ hw => hw
        | false => exact Triple.throw stable_owesNothing fun _ _ hw => hw

/-- **Cascades hit what is deleted.** -/
theorem cascade_kept (storage : DeletingStorage) (r : Registrar) (calls : ι → CascadeCall)
    {tasks : List (TaskId × ContextId)} {sets : ContextId → List TaskId} {used : List TaskId}
    (hkeyed : (tasks.map Prod.fst).Nodup) (hused : ∀ t ∈ tasks.map Prod.fst, t ∈ used)
    {ms : List (PoolMove ι (PushWorld ι))}
    {c : (ι → Prog CascadeOp (Except ServerExc Unit × Unit)) × PushWorld ι}
    (hrun : (cascadeCrew ι).Run (fun i => (calls i).run storage r (), { tasks, sets, used }) ms c)
    (t : TaskId) :
    (t ∈ c.2.ids → c.2.configs t = c.2.requests.foldl (PushRequest.replay t) []) ∧
      (c.2.configs t ≠ [] →
        t ∈ c.2.ids ∨ (∃ i, t ∈ c.2.owed i) ∨ t ∈ c.2.failed ∨ t ∈ c.2.missed ∨ t ∈ c.2.late) ∧
      (t ∈ c.2.missed → storage = .sql ∧ t ∉ c.2.ids) ∧
      (t ∈ c.2.late → t ∉ c.2.ids ∧ ∃ i, t ∈ c.2.found i) ∧
      ∀ i x, c.1 i = .ret x → t ∉ c.2.owed i := by
  have hstart : CascadesKept storage ({ tasks, sets, used } : PushWorld ι) := by
    refine
      { keyed := fun t c c' hc hc' =>
          (Prod.mk.inj (List.inj_on_of_nodup_map hkeyed hc hc' rfl)).2
        used := hused
        owed := fun _ _ ht => ?_
        found := fun _ _ ht => ?_
        live := fun _ _ => rfl
        orphaned := fun _ ht => absurd rfl ht
        selected := fun _ _ hrow => ?_
        missed := fun _ ht => ?_
        late := fun _ ht => ?_ }
    · exact absurd ht List.not_mem_nil
    · exact absurd ht List.not_mem_nil
    · exact absurd hrow List.not_mem_nil
    · exact absurd ht List.not_mem_nil
    · exact absurd ht List.not_mem_nil
  have hcall : ∀ i, ((calls i).run storage r).wp (cascadeSystem storage i)
      (fun _ _ w => w.owed i = []) () { tasks, sets, used } := fun i => by
    refine Act.wp_mono (triple_cascadeCall storage r (calls i) () _ rfl) fun x _ _ h => ?_
    cases x with
    | ok _ => exact h
    | error _ => exact h
  obtain ⟨hkept, hcalls, -⟩ := hrun.sound cascade_fits hstart hcall
  refine ⟨fun ht => hkept.live t (Or.inl ht), hkept.orphaned t,
    fun ht => ⟨(hkept.missed t ht).1, (hkept.missed t ht).2.2⟩, hkept.late t, fun i x hend => ?_⟩
  have hpost := hcalls i
  rw [hend] at hpost
  have hnone : c.2.owed i = [] := hpost c.2 .refl
  rw [hnone]
  exact List.not_mem_nil

end

/-! ### A configuration that outlives its task -/

/-- Reads one url. -/
def publicHook : Registrar where
  lib := twoAddresses
  urlparse url := if url = "https://example.com/hook" then some (hookUrl "example.com") else none
  ask := resolvesName.ask 0
  policy := some {}

def hookCall (taskId : TaskId) : CascadeCall :=
  .setConfig taskId (.object (.cons "url" (.string "https://example.com/hook") .nil)) "p"

/-- Nobody is at work anymore, and no cascade has raised. -/
def outlived (t : TaskId)
    (c : (Bool → Prog CascadeOp (Except ServerExc Unit × Unit)) × PushWorld Bool) : Bool :=
  (match c.1 true, c.1 false with
    | .ret _, .ret _ => true
    | _, _ => false) &&
    decide (c.2.configs t ≠ [] ∧ t ∉ c.2.ids ∧ t ∉ c.2.failed)

theorem outlived_spec {t : TaskId}
    {c : (Bool → Prog CascadeOp (Except ServerExc Unit × Unit)) × PushWorld Bool}
    (h : outlived t c = true) :
    (∀ i, ∃ x, c.1 i = .ret x) ∧ c.2.configs t ≠ [] ∧ t ∉ c.2.ids ∧ t ∉ c.2.failed := by
  rw [outlived, Bool.and_eq_true] at h
  obtain ⟨hret, hleft⟩ := h
  refine ⟨fun i => ?_, of_decide_eq_true hleft⟩
  split at hret
  · rename_i htrue hfalse
    cases i with
    | true => exact ⟨_, htrue⟩
    | false => exact ⟨_, hfalse⟩
  · exact Bool.noConfusion hret

/-- A configuration for a task, and the deletion of the task. -/
def hookRace : Bool → CascadeCall
  | true => hookCall "t"
  | false => .deleteTask "t"

/-- The task is deleted, with its configurations, after the handler has found it and before it
writes. -/
theorem late_config_stays : ∃ ms c,
    (cascadeCrew Bool).Run (fun i => (hookRace i).run .redis publicHook (),
      { tasks := [("t", "c")], used := ["t"] }) ms c ∧
      c.2.configs "t" ≠ [] ∧ (∀ i, "t" ∉ c.2.owed i) ∧ "t" ∉ c.2.failed ∧
      "t" ∉ c.2.ids ∧ ∃ i, "t" ∈ c.2.found i := by
  have hplay : (((cascadeCrew Bool).play (fun _ _ _ _ => true)
      [.program true, .program false, .program false, .program false, .program true]
      (fun i => (hookRace i).run .redis publicHook (),
        { tasks := [("t", "c")], used := ["t"] })).any (outlived "t")) = true := by
    decide +kernel
  obtain ⟨ms, c, hrun, hend⟩ := Crew.exists_run_of_check (fun _ _ _ _ _ => trivial)
    (fun f hf => by simp at hf) (outlived "t") hplay
  obtain ⟨hret, hconfigs, hgone, hraised⟩ := outlived_spec hend
  obtain ⟨-, horphaned, hmissed, hlate, hended⟩ :=
    cascade_kept .redis publicHook hookRace (by simp) (by simp) hrun "t"
  have hsettled : ∀ i, "t" ∉ c.2.owed i := fun i => by
    obtain ⟨x, hx⟩ := hret i
    exact hended i x hx
  have hset : "t" ∈ c.2.late := by
    rcases horphaned hconfigs with h | ⟨i, h⟩ | h | h | h
    · exact absurd h hgone
    · exact absurd h (hsettled i)
    · exact absurd h hraised
    · exact absurd (hmissed h).1 (by decide)
    · exact h
  exact ⟨ms, c, hrun, hconfigs, hsettled, hraised, hlate hset⟩

/-- A task is created, as far as its id is new. -/
def creating (taskId : TaskId) (contextId : ContextId) (w : PushWorld Bool) : PushWorld Bool :=
  if taskId ∈ w.used then w
  else { w with
    tasks := w.tasks ++ [(taskId, contextId)]
    sets := Function.update w.sets contextId (w.sets contextId ++ [taskId])
    used := w.used ++ [taskId] }

theorem passes_creating (taskId : TaskId) (contextId : ContextId) (w : PushWorld Bool) :
    Passes w (creating taskId contextId w) := by
  rw [creating]
  split
  · show Passes w { w with raises := w.raises }
    exact .raises
  · rename_i hnew
    exact .create hnew

/-- On SQL a task may get a configuration after the tasks of its context were selected and before
they are deleted: nobody cascades to it. -/
theorem missed_config_stays : ∃ ms c,
    (cascadeCrew Bool).Run
      (fun i => (if i then hookCall "t" else .deleteContext "c").run .sql publicHook (), {}) ms c ∧
      (∀ i, ∃ x, c.1 i = .ret x) ∧ c.2.configs "t" ≠ [] ∧ "t" ∉ c.2.ids ∧ "t" ∉ c.2.failed ∧
      c.2.late = [] := by
  have hplay : (((cascadeCrew Bool).play (fun _ _ _ _ => true)
      [.program false, .env (creating "t" "c"), .program true, .program true, .program false]
      (fun i => (if i then hookCall "t" else .deleteContext "c").run .sql publicHook (),
        {})).any fun c => outlived "t" c && decide (c.2.late = [])) = true := by
    decide +kernel
  have henv : ∀ f, Crew.Cue.env f ∈ ([.program false, .env (creating "t" "c"), .program true,
      .program true, .program false] : List (Crew.Cue Bool (PushWorld Bool))) →
      ∀ w, Passes w (f w) := by
    intro f hf w
    obtain rfl : f = creating "t" "c" := by simpa using hf
    exact passes_creating "t" "c" w
  obtain ⟨ms, c, hrun, hend⟩ := Crew.exists_run_of_check (fun _ _ _ _ _ => trivial) henv
    (fun c => outlived "t" c && decide (c.2.late = [])) hplay
  obtain ⟨hend, hlate⟩ := (Bool.and_eq_true _ _).mp hend
  obtain ⟨hret, hconfigs, hgone, hraised⟩ := outlived_spec hend
  exact ⟨ms, c, hrun, hret, hconfigs, hgone, hraised, of_decide_eq_true hlate⟩

end A2AKit
