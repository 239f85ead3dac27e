/-
One store behind three backends.

`Contents` is what a storage holds for its callers: a task and a version for every id, and a JSON
value for every context.  Each backend represents such contents, and a call on the backend is a
call on the contents: the answers are the same as long as no object of the caller is extended in
place before it is written again, and, on Redis, as long as the merge of an update that is going
to be refused succeeds.

* `inMemory_run`, `sql_run`, `redis_run` — the runs of the backends are the run of the contents;
* `backends_agree` — when the three give the same answers;
* `redis_refuses_late` — a refused update on which Redis raises another error.
-/
import A2AKit.WholeCalls
import Mathlib.Data.Set.Card

namespace A2AKit

namespace Sequential

/-- What a storage holds. -/
structure Contents where
  stored : TaskId → Option (JsonTask × Nat)
  contexts : ContextId → Option Json

namespace Contents

def empty : Contents := ⟨fun _ => none, fun _ => none⟩

/-- The tasks of a context. -/
def tasksOf (c : Contents) (contextId : ContextId) : Set TaskId :=
  {taskId | ∃ task version, c.stored taskId = some (task, version) ∧ task.contextId = contextId}

def put (c : Contents) (taskId : TaskId) (entry : Option (JsonTask × Nat)) : Contents :=
  { c with stored := Function.update c.stored taskId entry }

/-- What an update makes of the contents. -/
def update (c : Contents) (h : Heap) (taskId : TaskId) (args : JsonUpdate) (now : Timestamp) :
    Contents × Except CallError Nat :=
  match c.stored taskId with
  | none => (c, .error (notFound taskId))
  | some (task, version) =>
    match refusal taskId task version args with
    | some e => (c, .error e)
    | none =>
      match InMemoryStorage.work h task args now with
      | .error e => (c, .error e)
      | .ok task' => (c.put taskId (some (task', version + 1)), .ok (version + 1))

/-- The contents without a context. -/
def dropContext (c : Contents) (contextId : ContextId) : Contents where
  stored taskId := (c.stored taskId).filter fun e => e.1.contextId ≠ contextId
  contexts := Function.update c.contexts contextId none

/-- A call on the contents. -/
noncomputable def answer (c : Contents) (h : Heap) : Request → Contents × Except CallError Answer
  | .createTask taskId now contextId message =>
    let task := initialTask taskId contextId message none now
    (c.put taskId (some (task, 1)), .ok (.created (markCreated task)))
  | .updateTask taskId args now =>
    let out := c.update h taskId args now
    (out.1, out.2.map .newVersion)
  | .loadTask taskId => (c, .ok (.loaded ((c.stored taskId).map Prod.fst)))
  | .getVersion taskId => (c, .ok (.version ((c.stored taskId).map Prod.snd)))
  | .deleteTask taskId => (c.put taskId none, .ok (.existed (c.stored taskId).isSome))
  | .deleteContext contextId =>
    (c.dropContext contextId, .ok (.deleted (c.tasksOf contextId).ncard))
  | .updateContext contextId context =>
    ({ c with contexts := Function.update c.contexts contextId (some context) }, .ok .done)
  | .loadContext contextId => (c, .ok (.context (c.contexts contextId)))

/-- The answers to a sequence of calls. -/
noncomputable def run (h : Heap) : Contents → List Request → List Seen
  | _, [] => []
  | c, r :: rs =>
    (c.answer h r).2.mapError CallError.cls :: run h (c.answer h r).1 rs

@[simp] theorem put_stored (c : Contents) (taskId : TaskId) (entry : Option (JsonTask × Nat))
    (x : TaskId) : (c.put taskId entry).stored x = if x = taskId then entry else c.stored x := by
  simp [put, Function.update_apply]

theorem dropContext_stored (c : Contents) (contextId : ContextId) (x : TaskId)
    [Decidable (x ∈ c.tasksOf contextId)] :
    (c.dropContext contextId).stored x =
      if x ∈ c.tasksOf contextId then none else c.stored x := by
  show (c.stored x).filter (fun e => e.1.contextId ≠ contextId) = _
  cases hstored : c.stored x with
  | none => simp
  | some e =>
    by_cases he : e.1.contextId = contextId
    · have hmem : x ∈ c.tasksOf contextId := ⟨e.1, e.2, hstored, he⟩
      rw [if_pos hmem]
      simp [Option.filter, he]
    · have hmem : x ∉ c.tasksOf contextId := by
        rintro ⟨task, version, hx, htask⟩
        rw [hstored] at hx
        cases hx
        exact he htask
      rw [if_neg hmem]
      simp [Option.filter, he]

end Contents

/-- `ncard` of the members of a list without duplicates. -/
theorem ncard_eq_length {l : List TaskId} {s : Set TaskId} (hl : l.Nodup)
    (h : ∀ x, x ∈ l ↔ x ∈ s) : s.ncard = l.length := by
  have hs : s = (l.toFinset : Set TaskId) := by
    ext x
    simp [h x]
  rw [hs, Set.ncard_coe_finset, List.toFinset_card_of_nodup hl]

/-! ### The objects of the caller -/

/-- The artifact objects of a call. -/
def refsOf : Request → List Ref
  | .updateTask _ args _ => refs args.artifacts
  | _ => []

/-- The id that a call draws. -/
def drawn : Request → List TaskId
  | .createTask taskId _ _ _ => [taskId]
  | _ => []

/-- `md["stateTransitions"]` is a list, or not there. -/
def CanAppend (md : JsonDict) : Prop :=
  ∀ j, md.lookup stateTransitionsKey = some j → ∃ items, j = .array items

theorem appendTransition_ok {md : JsonDict} (record : Json) :
    (∃ md', appendTransition md record = .ok md') ↔ CanAppend md := by
  unfold appendTransition CanAppend
  split
  · rename_i hnone
    simp [hnone]
  · rename_i items hitems
    simp [hitems]
  · rename_i other hne hother
    simp only [hother, Option.some.injEq, forall_eq', reduceCtorEq, exists_false, false_iff]
    rintro ⟨items, hitems⟩
    exact hne items hitems

theorem appendTransition_cls {md : JsonDict} {record : Json} {e : CallError}
    (h : appendTransition md record = .error e) : e.cls = .attributeError := by
  unfold appendTransition at h
  split at h
  · exact nomatch h
  · exact nomatch h
  · cases h
    rfl

section

variable {h : Heap} {task : JsonTask} {args : JsonUpdate} {now : Timestamp}

/-- The columns of a merge, put back into the row they were read from, are the working copy of
`InMemoryStorage`. -/
theorem mergeColumns_eq (h : Heap) (task : JsonTask) (now : Timestamp)
    (hnd : (refs args.artifacts).Nodup) :
    (mergeColumns h task args now).2.map (fun values => values.applyTo task) =
      InMemoryStorage.work h task args now := by
  -- a column that the update leaves out keeps its value
  have hartifacts : (if args.artifacts.isEmpty then none
      else some (mergeInPlace h task.artifacts args.artifacts).2).getD task.artifacts =
        applyWrites task.artifacts (resolve h args.artifacts) := by
    split
    · rename_i hnil
      rw [List.isEmpty_iff.mp hnil]
      rfl
    · exact mergeInPlace_artifacts task.artifacts hnd
  have hhistory : (if args.messages.isEmpty then none
      else some (task.history ++ args.messages)).getD task.history =
        task.history ++ args.messages := by
    split
    · rename_i hnil
      rw [List.isEmpty_iff.mp hnil]
      simp
    · rfl
  have hmetadata : (if args.taskMetadata.entries.isEmpty then none
      else some (updateMetadata task.metadata args.taskMetadata)).getD task.metadata =
        updateMetadata task.metadata args.taskMetadata := by
    split
    · rename_i hnil
      rw [updateMetadata, List.isEmpty_iff.mp hnil]
      rfl
    · rfl
  rcases hstate : args.state with _ | state
  · rcases hmessage : args.statusMessage with _ | message
    · simp only [mergeColumns, InMemoryStorage.work, InMemoryStorage.workMetadata, hstate, hmessage,
        Except.map, Columns.applyTo, hartifacts, hhistory, hmetadata]
      rfl
    · simp only [mergeColumns, InMemoryStorage.work, InMemoryStorage.workMetadata, hstate, hmessage,
        Except.map, Columns.applyTo, hartifacts, hhistory, hmetadata]
      rfl
  · simp only [mergeColumns, InMemoryStorage.work, InMemoryStorage.workMetadata, hstate,
      hmetadata]
    cases happend : appendTransition (updateMetadata task.metadata args.taskMetadata)
        (transitionRecord state now args.statusMessage) with
    | error e => rfl
    | ok md =>
      show Except.ok _ = Except.ok _
      simp only [Columns.applyTo, hartifacts, hhistory, Option.getD_some]

/-- A merge touches no object of the caller but those of the call. -/
theorem mergeColumns_frame (hnd : (refs args.artifacts).Nodup) {q : Ref}
    (hq : q ∉ refs args.artifacts) : (mergeColumns h task args now).1 q = h q := by
  have hheap : (mergeColumns h task args now).1 =
      if args.artifacts.isEmpty then h else (mergeInPlace h task.artifacts args.artifacts).1 := by
    rw [mergeColumns]
    rcases args.state with _ | state
    · rcases args.statusMessage with _ | message <;> rfl
    · rfl
  rw [hheap]
  split
  · rfl
  · exact mergeInPlace_frame task.artifacts hnd hq

/-- The working copy can be made unless there is a record to append and no list for it. -/
theorem work_ok (h : Heap) (now : Timestamp) : (∃ task', InMemoryStorage.work h task args now = .ok task') ↔
    (args.state.isSome → CanAppend (updateMetadata task.metadata args.taskMetadata)) := by
  unfold InMemoryStorage.work InMemoryStorage.workMetadata
  cases hstate : args.state with
  | none =>
    cases args.statusMessage with
    | none => exact ⟨fun _ hs => absurd hs (by simp), fun _ => ⟨_, rfl⟩⟩
    | some message => exact ⟨fun _ hs => absurd hs (by simp), fun _ => ⟨_, rfl⟩⟩
  | some state =>
    dsimp only
    rw [← appendTransition_ok (transitionRecord state now args.statusMessage)]
    cases happend : appendTransition (updateMetadata task.metadata args.taskMetadata)
        (transitionRecord state now args.statusMessage) with
    | error e =>
      constructor
      · rintro ⟨task', htask'⟩
        exact nomatch htask'
      · intro hok
        obtain ⟨md, hmd⟩ := hok rfl
        exact nomatch hmd
    | ok md => exact ⟨fun _ _ => ⟨md, rfl⟩, fun _ => ⟨_, rfl⟩⟩

/-- What a call does to the contents depends on the objects of the call alone. -/
theorem Contents.answer_congr {c : Contents} {h h' : Heap} {r : Request}
    (hrefs : ∀ q ∈ refsOf r, h' q = h q) : c.answer h' r = c.answer h r := by
  cases r with
  | updateTask taskId args now =>
    have hresolve : resolve h' args.artifacts = resolve h args.artifacts := resolve_congr hrefs
    have hwork : ∀ task : JsonTask, InMemoryStorage.work h' task args now =
        InMemoryStorage.work h task args now := by
      intro task
      unfold InMemoryStorage.work
      rw [hresolve]
    have hupdate : c.update h' taskId args now = c.update h taskId args now := by
      unfold Contents.update
      simp only [hwork]
    show ((c.update h' taskId args now).1, (c.update h' taskId args now).2.map Answer.newVersion) = _
    rw [hupdate]
    rfl
  | _ => rfl

end

theorem mapError_map_congr {x y : Except CallError Nat} {f : Nat → Answer}
    (hxy : x.mapError CallError.cls = y.mapError CallError.cls) :
    (x.map f).mapError CallError.cls = (y.map f).mapError CallError.cls := by
  have hcomm : ∀ z : Except CallError Nat,
      (z.map f).mapError CallError.cls = (z.mapError CallError.cls).map f := by
    rintro (e | n) <;> rfl
  rw [hcomm, hcomm, hxy]

/-! ### Dictionaries that mirror the contents -/

/-- The dictionary has for every stored task what `f` makes of it. -/
def Mirrors {β : Type} (d : Dictionary TaskId β) (f : JsonTask × Nat → β) (c : Contents) : Prop :=
  ∀ x, d.lookup x = (c.stored x).map f

section

variable {β : Type} {d : Dictionary TaskId β} {f : JsonTask × Nat → β} {c : Contents}

theorem Mirrors.set (hd : Mirrors d f c) (taskId : TaskId) (entry : JsonTask × Nat) :
    Mirrors (Dictionary.set d taskId (f entry)) f (c.put taskId (some entry)) := by
  intro x
  rw [Dictionary.lookup_set, hd x, Contents.put_stored]
  split <;> rfl

theorem Mirrors.erase (hd : Mirrors d f c) (taskId : TaskId) :
    Mirrors (d.erase taskId) f (c.put taskId none) := by
  intro x
  rw [Contents.put_stored]
  by_cases hx : x = taskId
  · subst hx
    rw [if_pos rfl, AList.lookup_erase]
    rfl
  · rw [if_neg hx, AList.lookup_erase_ne hx, hd x]

theorem Mirrors.eraseAll (hd : Mirrors d f c) {contextId : ContextId} {keys : List TaskId}
    (hkeys : ∀ x, x ∈ keys ↔ x ∈ c.tasksOf contextId) :
    Mirrors (Dictionary.eraseAll d keys) f (c.dropContext contextId) := by
  classical
  intro x
  rw [Dictionary.lookup_eraseAll, Contents.dropContext_stored, hd x]
  by_cases hx : x ∈ keys
  · rw [if_pos hx, if_pos ((hkeys x).mp hx)]
    rfl
  · rw [if_neg hx, if_neg (fun hmem => hx ((hkeys x).mpr hmem))]

theorem Mirrors.mem_keysWhere (hd : Mirrors d f c) {contextId : ContextId} {p : β → Bool}
    (hp : ∀ e, p (f e) = decide (e.1.contextId = contextId)) {x : TaskId} :
    x ∈ Dictionary.keysWhere d p ↔ x ∈ c.tasksOf contextId := by
  rw [Dictionary.mem_keysWhere, hd x]
  constructor
  · rintro ⟨b, hb, hpb⟩
    obtain ⟨⟨task, version⟩, hstored, rfl⟩ := Option.map_eq_some_iff.mp hb
    rw [hp] at hpb
    exact ⟨task, version, hstored, of_decide_eq_true hpb⟩
  · rintro ⟨task, version, hstored, hcontext⟩
    refine ⟨f (task, version), by rw [hstored]; rfl, ?_⟩
    rw [hp]
    exact decide_eq_true hcontext

/-- What `delete_context` counts. -/
theorem Mirrors.length_keysWhere (hd : Mirrors d f c) {contextId : ContextId} {p : β → Bool}
    (hp : ∀ e, p (f e) = decide (e.1.contextId = contextId)) :
    (Dictionary.keysWhere d p).length = (c.tasksOf contextId).ncard :=
  (ncard_eq_length (Dictionary.nodup_keysWhere d p) fun _ => hd.mem_keysWhere hp).symm

end

/-- The dictionary of the contexts. -/
def HasContexts (d : Dictionary ContextId Json) (c : Contents) : Prop :=
  ∀ x, d.lookup x = c.contexts x

theorem HasContexts.set {d : Dictionary ContextId Json} {c : Contents} (hd : HasContexts d c)
    (contextId : ContextId) (context : Json) :
    HasContexts (Dictionary.set d contextId context)
      { c with contexts := Function.update c.contexts contextId (some context) } := by
  intro x
  show _ = Function.update c.contexts contextId (some context) x
  rw [Dictionary.lookup_set, Function.update_apply, hd x]

theorem HasContexts.erase {d : Dictionary ContextId Json} {c : Contents} (hd : HasContexts d c)
    (contextId : ContextId) : HasContexts (d.erase contextId) (c.dropContext contextId) := by
  intro x
  show _ = Function.update c.contexts contextId none x
  rw [Function.update_apply]
  by_cases hx : x = contextId
  · subst hx
    rw [if_pos rfl, AList.lookup_erase]
  · rw [if_neg hx, AList.lookup_erase_ne hx, hd x]

/-! ### InMemoryStorage -/

namespace InMemoryStorage

structure Represents (s : State) (c : Contents) : Prop where
  tasks : Mirrors s.tasks Prod.fst c
  versions : Mirrors s.versions Prod.snd c
  contexts : HasContexts s.contexts c

variable {s : State} {c : Contents}

theorem Represents.put (hrep : Represents s c) (taskId : TaskId) (task : JsonTask)
    (version : Nat) :
    Represents { s with
      tasks := Dictionary.set s.tasks taskId task
      versions := Dictionary.set s.versions taskId version }
      (c.put taskId (some (task, version))) where
  tasks := hrep.tasks.set taskId (task, version)
  versions := hrep.versions.set taskId (task, version)
  contexts := hrep.contexts

theorem Represents.stored {x : TaskId} {task : JsonTask} (hrep : Represents s c)
    (htask : s.tasks.lookup x = some task) :
    c.stored x = some (task, (s.versions.lookup x).getD 1) := by
  rw [hrep.tasks x, Option.map_eq_some_iff] at htask
  obtain ⟨⟨task', version⟩, hstored, rfl⟩ := htask
  rw [hrep.versions x, hstored]
  rfl

theorem Represents.updateTask (hrep : Represents s c) (h : Heap) (taskId : TaskId)
    (args : JsonUpdate) (now : Timestamp) :
    Represents (InMemoryStorage.updateTask s h taskId args now).1
        (c.update h taskId args now).1 ∧
      (InMemoryStorage.updateTask s h taskId args now).2.mapError CallError.cls =
        (c.update h taskId args now).2.mapError CallError.cls := by
  unfold InMemoryStorage.updateTask Contents.update
  cases htask : s.tasks.lookup taskId with
  | none =>
    have hstored : c.stored taskId = none := by
      rw [hrep.tasks taskId] at htask
      exact Option.map_eq_none_iff.mp htask
    rw [hstored]
    exact ⟨hrep, rfl⟩
  | some task =>
    rw [hrep.stored htask]
    dsimp only
    cases refusal taskId task ((s.versions.lookup taskId).getD 1) args with
    | some e => exact ⟨hrep, rfl⟩
    | none =>
      dsimp only
      cases work h task args now with
      | error e => exact ⟨hrep, rfl⟩
      | ok work => exact ⟨hrep.put taskId work _, rfl⟩

/-- A call on `InMemoryStorage` is a call on the contents. -/
theorem Represents.answer (hrep : Represents s c) (h : Heap) (r : Request) :
    Represents (Storage.inMemory.answer s h r).1 (c.answer h r).1 ∧
      (Storage.inMemory.answer s h r).2.2.mapError CallError.cls =
        (c.answer h r).2.mapError CallError.cls ∧
      (Storage.inMemory.answer s h r).2.1 = h := by
  cases r with
  | createTask taskId now contextId message =>
    exact ⟨hrep.put taskId (initialTask taskId contextId message none now) 1, rfl, rfl⟩
  | updateTask taskId args now =>
    obtain ⟨hstate, hseen⟩ := hrep.updateTask h taskId args now
    refine ⟨hstate, ?_, rfl⟩
    exact mapError_map_congr hseen
  | loadTask taskId =>
    refine ⟨hrep, ?_, rfl⟩
    show Except.ok (Answer.loaded (s.tasks.lookup taskId)) = _
    rw [hrep.tasks taskId]
    rfl
  | getVersion taskId =>
    refine ⟨hrep, ?_, rfl⟩
    show Except.ok (Answer.version (s.versions.lookup taskId)) = _
    rw [hrep.versions taskId]
    rfl
  | deleteTask taskId =>
    refine ⟨⟨hrep.tasks.erase taskId, hrep.versions.erase taskId, hrep.contexts⟩, ?_, rfl⟩
    show Except.ok (Answer.existed (s.tasks.lookup taskId).isSome) = _
    rw [hrep.tasks taskId, Option.isSome_map]
    rfl
  | deleteContext contextId =>
    have hmem : ∀ x, x ∈ Dictionary.keysWhere s.tasks (fun t => t.contextId = contextId) ↔
        x ∈ c.tasksOf contextId := fun x => hrep.tasks.mem_keysWhere fun _ => rfl
    refine ⟨⟨hrep.tasks.eraseAll hmem, hrep.versions.eraseAll hmem, hrep.contexts.erase contextId⟩,
      ?_, rfl⟩
    show Except.ok (Answer.deleted (Dictionary.keysWhere s.tasks _).length) = _
    rw [hrep.tasks.length_keysWhere fun _ => rfl]
    rfl
  | updateContext contextId context =>
    exact ⟨⟨hrep.tasks, hrep.versions, hrep.contexts.set contextId context⟩, rfl, rfl⟩
  | loadContext contextId =>
    refine ⟨hrep, ?_, rfl⟩
    show Except.ok (Answer.context (s.contexts.lookup contextId)) = _
    rw [hrep.contexts contextId]
    rfl

end InMemoryStorage

/-! ### SQLStorageBase -/

/-- The row of a task without an idempotency key. -/
def rowOf (e : JsonTask × Nat) : TaskRow := { task := e.1, version := e.2 }

/-- The first round that decides ends the loop. -/
theorem rounds_first {State : Type} {s : State} {attempt : Heap → Bool → Round State} {n : Nat}
    {h h' : Heap} {out : State × Except CallError Nat} (hn : 0 < n)
    (hfirst : ∀ last, attempt h last = (h', some out)) :
    rounds s attempt n h = (out.1, h', out.2) := by
  cases n with
  | zero => omega
  | succ n => simp only [rounds, hfirst]

theorem maxAttempts_pos (args : JsonUpdate) : 0 < maxAttempts args := by
  unfold maxAttempts
  split <;> omega

namespace SQLStorageBase

structure Represents (s : State) (c : Contents) : Prop where
  tasks : Mirrors s.tasks rowOf c
  contexts : HasContexts s.contexts c

variable {s : State} {c : Contents}

/-- An update without other callers is over in one round. -/
theorem updateTask_eq (s : State) (h : Heap) (taskId : TaskId) (args : JsonUpdate)
    (now : Timestamp) : SQLStorageBase.updateTask s h taskId args now =
    match s.tasks.lookup taskId with
    | none => (s, h, .error (notFound taskId))
    | some row =>
      match refusal taskId row.task row.version args with
      | some e => (s, h, .error e)
      | none =>
        match mergeColumns h row.task args now with
        | (h', .error e) => (s, h', .error e)
        | (h', .ok values) =>
          ({ s with
              tasks := Dictionary.set s.tasks taskId
                { row with task := values.applyTo row.task, version := row.version + 1 } },
            h', .ok (row.version + 1)) := by
  have hloop {h' : Heap} {out : State × Except CallError Nat}
      (hfirst : ∀ last, attempt s taskId args now h last = (h', some out)) :
      SQLStorageBase.updateTask s h taskId args now = (out.1, h', out.2) :=
    rounds_first (maxAttempts_pos args) hfirst
  cases hrow : s.tasks.lookup taskId with
  | none =>
    have hfirst : ∀ last, attempt s taskId args now h last =
        (h, some (s, .error (notFound taskId))) := by
      intro last
      simp only [attempt, hrow]
    exact hloop hfirst
  | some row =>
    dsimp only
    cases hrefusal : refusal taskId row.task row.version args with
    | some e =>
      have hfirst : ∀ last, attempt s taskId args now h last = (h, some (s, .error e)) := by
        intro last
        simp only [attempt, hrow, hrefusal]
      exact hloop hfirst
    | none =>
      dsimp only
      rcases hcolumns : mergeColumns h row.task args now with ⟨h', e | values⟩
      · have hfirst : ∀ last, attempt s taskId args now h last = (h', some (s, .error e)) := by
          intro last
          simp only [attempt, hrow, hrefusal, hcolumns]
        exact hloop hfirst
      · have hfirst : ∀ last, attempt s taskId args now h last = (h', some ({ s with
            tasks := Dictionary.set s.tasks taskId
              { row with task := values.applyTo row.task, version := row.version + 1 } },
            .ok (row.version + 1))) := by
          intro last
          simp only [attempt, hrow, hrefusal, hcolumns, Option.filter, decide_true, if_true]
        exact hloop hfirst

theorem Represents.updateTask (hrep : Represents s c) (h : Heap) (taskId : TaskId)
    {args : JsonUpdate} (now : Timestamp) (hnd : (refs args.artifacts).Nodup) :
    Represents (SQLStorageBase.updateTask s h taskId args now).1
        (c.update h taskId args now).1 ∧
      (SQLStorageBase.updateTask s h taskId args now).2.2 = (c.update h taskId args now).2 ∧
      ∀ q, q ∉ refs args.artifacts →
        (SQLStorageBase.updateTask s h taskId args now).2.1 q = h q := by
  rw [updateTask_eq]
  unfold Contents.update
  have hrow := hrep.tasks taskId
  cases hstored : c.stored taskId with
  | none =>
    rw [hstored] at hrow
    rw [hrow]
    exact ⟨hrep, rfl, fun _ _ => rfl⟩
  | some e =>
    obtain ⟨task, version⟩ := e
    rw [hstored] at hrow
    rw [hrow]
    dsimp only [Option.map_some, rowOf]
    cases refusal taskId task version args with
    | some e => exact ⟨hrep, rfl, fun _ _ => rfl⟩
    | none =>
      have hframe : ∀ q, q ∉ refs args.artifacts → (mergeColumns h task args now).1 q = h q :=
        fun q => mergeColumns_frame hnd
      dsimp only
      rw [← mergeColumns_eq h task now hnd]
      rcases hcolumns : mergeColumns h task args now with ⟨h', e | values⟩
      · rw [hcolumns] at hframe
        exact ⟨hrep, rfl, hframe⟩
      · rw [hcolumns] at hframe
        exact ⟨⟨hrep.tasks.set taskId (values.applyTo task, version + 1), hrep.contexts⟩, rfl,
          hframe⟩

/-- A call on `SQLStorageBase` is a call on the contents. -/
theorem Represents.answer (hrep : Represents s c) {h : Heap} {r : Request}
    (hnd : (refsOf r).Nodup) :
    Represents (Storage.sql.answer s h r).1 (c.answer h r).1 ∧
      (Storage.sql.answer s h r).2.2 = (c.answer h r).2 ∧
      ∀ q, q ∉ refsOf r → (Storage.sql.answer s h r).2.1 q = h q := by
  cases r with
  | createTask taskId now contextId message =>
    let task := initialTask taskId contextId message none now
    have hcreate : SQLStorageBase.createTask s taskId now contextId message none =
        ({ s with tasks := Dictionary.set s.tasks taskId (rowOf (task, 1)) },
          .ok (markCreated task)) := by
      simp [SQLStorageBase.createTask, rowOf, task]
    show Represents (SQLStorageBase.createTask s taskId now contextId message none).1 _ ∧
      (SQLStorageBase.createTask s taskId now contextId message none).2.map Answer.created = _ ∧ _
    rw [hcreate]
    exact ⟨⟨hrep.tasks.set taskId (task, 1), hrep.contexts⟩, rfl, fun _ _ => rfl⟩
  | updateTask taskId args now =>
    obtain ⟨hstate, hseen, hframe⟩ := hrep.updateTask h taskId now hnd
    refine ⟨hstate, ?_, hframe⟩
    show (SQLStorageBase.updateTask s h taskId args now).2.2.map Answer.newVersion = _
    rw [hseen]
    rfl
  | loadTask taskId =>
    refine ⟨hrep, ?_, fun _ _ => rfl⟩
    show Except.ok (Answer.loaded ((s.tasks.lookup taskId).map TaskRow.task)) = _
    rw [hrep.tasks taskId, Option.map_map]
    rfl
  | getVersion taskId =>
    refine ⟨hrep, ?_, fun _ _ => rfl⟩
    show Except.ok (Answer.version ((s.tasks.lookup taskId).map TaskRow.version)) = _
    rw [hrep.tasks taskId, Option.map_map]
    rfl
  | deleteTask taskId =>
    refine ⟨⟨hrep.tasks.erase taskId, hrep.contexts⟩, ?_, fun _ _ => rfl⟩
    show Except.ok (Answer.existed (s.tasks.lookup taskId).isSome) = _
    rw [hrep.tasks taskId, Option.isSome_map]
    rfl
  | deleteContext contextId =>
    refine ⟨⟨hrep.tasks.eraseAll fun x => hrep.tasks.mem_keysWhere fun _ => rfl,
      hrep.contexts.erase contextId⟩, ?_, fun _ _ => rfl⟩
    show Except.ok (Answer.deleted (Dictionary.keysWhere s.tasks _).length) = _
    rw [hrep.tasks.length_keysWhere fun _ => rfl]
    rfl
  | updateContext contextId context =>
    exact ⟨⟨hrep.tasks, hrep.contexts.set contextId context⟩, rfl, fun _ _ => rfl⟩
  | loadContext contextId =>
    refine ⟨hrep, ?_, fun _ _ => rfl⟩
    show Except.ok (Answer.context (s.contexts.lookup contextId)) = _
    rw [hrep.contexts contextId]
    rfl

end SQLStorageBase

/-! ### RedisStorage -/

/-- The merge of an update that is going to be refused succeeds. -/
def Contents.MergesFirst (c : Contents) : Request → Prop
  | .updateTask taskId args _ => ∀ task version, c.stored taskId = some (task, version) →
      (refusal taskId task version args).isSome → args.state.isSome →
      CanAppend (updateMetadata task.metadata args.taskMetadata)
  | _ => True

/-- The contents without some of the tasks. -/
def Contents.without (c : Contents) (ids : List TaskId) : Contents :=
  { c with stored := fun x => if x ∈ ids then none else c.stored x }

theorem Contents.without_cons (c : Contents) (taskId : TaskId) (ids : List TaskId) :
    (c.put taskId none).without ids = c.without (taskId :: ids) := by
  unfold Contents.without
  congr 1
  funext x
  rw [Contents.put_stored]
  by_cases hx : x = taskId
  · subst hx
    simp
  · simp [hx]

namespace RedisStorage

/-- The set of a context has the tasks whose hashes name the context. -/
structure Represents (s : State) (c : Contents) : Prop where
  hashes : Mirrors s.hashes rowOf c
  members : ∀ contextId x, (contextId, x) ∈ s.members ↔ x ∈ c.tasksOf contextId
  nodup : s.members.Nodup
  contexts : HasContexts s.contexts c

variable {s : State} {c : Contents}

theorem Represents.nodup_memberIds (hrep : Represents s c) (contextId : ContextId) :
    (memberIds s contextId).Nodup := by
  unfold memberIds
  refine List.Nodup.filterMap ?_ hrep.nodup
  rintro ⟨c₁, x₁⟩ ⟨c₂, x₂⟩ x h₁ h₂
  simp only [Option.mem_def, Option.ite_none_right_eq_some, Option.some.injEq] at h₁ h₂
  rw [Prod.mk.injEq]
  exact ⟨h₁.1.trans h₂.1.symm, h₁.2.trans h₂.2.symm⟩

theorem Represents.mem_memberIds (hrep : Represents s c) {contextId : ContextId} {x : TaskId} :
    x ∈ memberIds s contextId ↔ x ∈ c.tasksOf contextId := by
  rw [← hrep.members]
  unfold memberIds
  rw [List.mem_filterMap]
  constructor
  · rintro ⟨⟨c', x'⟩, hmem, hsome⟩
    simp only [Option.ite_none_right_eq_some, Option.some.injEq] at hsome
    obtain ⟨rfl, rfl⟩ := hsome
    exact hmem
  · intro hmem
    exact ⟨(contextId, x), hmem, if_pos rfl⟩

/-- A task is written, and keeps its context. -/
theorem Represents.put (hrep : Represents s c) {taskId : TaskId} {entry entry' : JsonTask × Nat}
    (hstored : c.stored taskId = some entry) (hcontext : entry'.1.contextId = entry.1.contextId) :
    Represents { s with hashes := Dictionary.set s.hashes taskId (rowOf entry') }
      (c.put taskId (some entry')) where
  hashes := hrep.hashes.set taskId entry'
  members contextId x := by
    rw [show (contextId, x) ∈ s.members ↔ x ∈ c.tasksOf contextId from hrep.members contextId x]
    constructor
    · rintro ⟨task, version, hx, htask⟩
      by_cases hxt : x = taskId
      · subst hxt
        rw [hstored] at hx
        cases hx
        exact ⟨entry'.1, entry'.2, by simp, hcontext.trans htask⟩
      · exact ⟨task, version, by rw [Contents.put_stored, if_neg hxt, hx], htask⟩
    · rintro ⟨task, version, hx, htask⟩
      rw [Contents.put_stored] at hx
      by_cases hxt : x = taskId
      · subst hxt
        rw [if_pos rfl] at hx
        cases hx
        exact ⟨entry.1, entry.2, hstored, hcontext.symm.trans htask⟩
      · rw [if_neg hxt] at hx
        exact ⟨task, version, hx, htask⟩
  nodup := hrep.nodup
  contexts := hrep.contexts

theorem Represents.create (hrep : Represents s c) {taskId : TaskId} (task : JsonTask)
    (version : Nat) (hfresh : c.stored taskId = none) :
    Represents { s with
      hashes := Dictionary.set s.hashes taskId (rowOf (task, version))
      members := s.members.insert (task.contextId, taskId) }
      (c.put taskId (some (task, version))) where
  hashes := hrep.hashes.set taskId (task, version)
  members contextId x := by
    rw [List.mem_insert_iff, hrep.members, Prod.mk.injEq]
    constructor
    · rintro (⟨rfl, rfl⟩ | ⟨task', version', hx, htask⟩)
      · exact ⟨task, version, by simp, rfl⟩
      · have hne : x ≠ taskId := by
          rintro rfl
          rw [hfresh] at hx
          exact nomatch hx
        exact ⟨task', version', by rw [Contents.put_stored, if_neg hne, hx], htask⟩
    · rintro ⟨task', version', hx, htask⟩
      rw [Contents.put_stored] at hx
      by_cases hxt : x = taskId
      · rw [if_pos hxt] at hx
        cases hx
        exact Or.inl ⟨htask.symm, hxt⟩
      · rw [if_neg hxt] at hx
        exact Or.inr ⟨task', version', hx, htask⟩
  nodup := hrep.nodup.insert
  contexts := hrep.contexts

theorem Represents.deleteTask (hrep : Represents s c) (taskId : TaskId) :
    Represents (RedisStorage.deleteTask s taskId).1 (c.put taskId none) ∧
      (RedisStorage.deleteTask s taskId).2 = (c.stored taskId).isSome := by
  have hrow := hrep.hashes taskId
  unfold RedisStorage.deleteTask
  cases hstored : c.stored taskId with
  | none =>
    rw [hstored] at hrow
    rw [hrow]
    have hput : c.put taskId none = c := by
      unfold Contents.put
      rw [← hstored, Function.update_eq_self]
    rw [hput]
    exact ⟨hrep, rfl⟩
  | some entry =>
    rw [hstored] at hrow
    simp only [hrow, Option.map_some, Option.isSome_some]
    refine ⟨⟨hrep.hashes.erase taskId, fun contextId x => ?_, hrep.nodup.filter _,
      hrep.contexts⟩, trivial⟩
    rw [List.mem_filter, hrep.members, decide_eq_true_eq]
    constructor
    · rintro ⟨⟨task, version, hx, htask⟩, hne⟩
      have hxt : x ≠ taskId := by
        rintro rfl
        rw [hstored] at hx
        cases hx
        exact hne (by rw [← htask]; rfl)
      exact ⟨task, version, by rw [Contents.put_stored, if_neg hxt, hx], htask⟩
    · rintro ⟨task, version, hx, htask⟩
      rw [Contents.put_stored] at hx
      by_cases hxt : x = taskId
      · rw [if_pos hxt] at hx
        exact nomatch hx
      · rw [if_neg hxt] at hx
        exact ⟨⟨task, version, hx, htask⟩, fun heq => hxt (Prod.mk.inj heq).2⟩

/-- Every task of the list is found and deleted. -/
theorem Represents.deleteTasks (hrep : Represents s c) {ids : List TaskId} (hnd : ids.Nodup)
    (hstored : ∀ x ∈ ids, (c.stored x).isSome) :
    Represents (RedisStorage.deleteTasks s ids).1 (c.without ids) ∧
      (RedisStorage.deleteTasks s ids).2 = ids.length := by
  induction ids generalizing s c with
  | nil =>
    have hwithout : c.without [] = c := by
      simp [Contents.without]
    rw [hwithout]
    exact ⟨hrep, rfl⟩
  | cons taskId ids ih =>
    obtain ⟨hnotin, hnd⟩ := List.nodup_cons.mp hnd
    obtain ⟨hone, hexisted⟩ := hrep.deleteTask taskId
    have hrest : ∀ x ∈ ids, ((c.put taskId none).stored x).isSome := by
      intro x hx
      have hne : x ≠ taskId := by
        rintro rfl
        exact hnotin hx
      rw [Contents.put_stored, if_neg hne]
      exact hstored x (List.mem_cons_of_mem taskId hx)
    obtain ⟨hstate, hcount⟩ := ih hone hnd hrest
    have hfound : (RedisStorage.deleteTask s taskId).2 = true :=
      hexisted.trans (hstored taskId List.mem_cons_self)
    rw [← Contents.without_cons]
    refine ⟨hstate, ?_⟩
    show (if (RedisStorage.deleteTask s taskId).2 then
      (RedisStorage.deleteTasks (RedisStorage.deleteTask s taskId).1 ids).2 + 1 else _) = _
    rw [hfound, if_pos rfl, hcount, List.length_cons]

theorem Represents.deleteContext (hrep : Represents s c) (contextId : ContextId) :
    Represents (RedisStorage.deleteContext s contextId).1 (c.dropContext contextId) ∧
      (RedisStorage.deleteContext s contextId).2 = (c.tasksOf contextId).ncard := by
  classical
  have hnd := hrep.nodup_memberIds contextId
  have hmem : ∀ x, x ∈ memberIds s contextId ↔ x ∈ c.tasksOf contextId :=
    fun x => hrep.mem_memberIds
  obtain ⟨hstate, hcount⟩ := hrep.deleteTasks hnd fun x hx => by
    obtain ⟨task, version, hstored, -⟩ := (hmem x).mp hx
    rw [hstored]
    rfl
  have hdropped : ∀ x, (c.dropContext contextId).stored x =
      (c.without (memberIds s contextId)).stored x := by
    intro x
    show _ = if x ∈ memberIds s contextId then none else c.stored x
    rw [Contents.dropContext_stored]
    by_cases hx : x ∈ c.tasksOf contextId
    · rw [if_pos hx, if_pos ((hmem x).mpr hx)]
    · rw [if_neg hx, if_neg (fun h => hx ((hmem x).mp h))]
  refine ⟨⟨fun x => ?_, fun contextId' x => ?_, hstate.nodup.filter _,
    hstate.contexts.erase contextId⟩, hcount.trans (ncard_eq_length hnd hmem).symm⟩
  · rw [hdropped]
    exact hstate.hashes x
  · show (contextId', x) ∈ (RedisStorage.deleteTasks s (memberIds s contextId)).1.members.filter
      (·.1 ≠ contextId) ↔ _
    rw [List.mem_filter, hstate.members, decide_eq_true_eq]
    unfold Contents.tasksOf
    rw [Set.mem_ofPred_eq, Set.mem_ofPred_eq]
    simp only [hdropped]
    refine ⟨And.left, fun hx => ⟨hx, ?_⟩⟩
    -- no task of the context is left
    rintro rfl
    obtain ⟨task, version, hstored, htask⟩ := hx
    have hx : x ∉ memberIds s contextId' := by
      intro hin
      have hnone : (c.without (memberIds s contextId')).stored x = none := if_pos hin
      rw [hstored] at hnone
      exact nomatch hnone
    have hold : c.stored x = some (task, version) := (if_neg hx).symm.trans hstored
    exact hx ((hmem x).mpr ⟨task, version, hold, htask⟩)

/-- After the merge the script refuses what the other backends have refused before it. -/
theorem attempt_merged {h h' : Heap} {taskId : TaskId} {task : JsonTask} {version : Nat}
    {args : JsonUpdate} {now : Timestamp} {values : Columns}
    (hrow : s.hashes.lookup taskId = some (rowOf (task, version)))
    (hcolumns : mergeColumns h task args now = (h', .ok values)) (last : Bool) :
    attempt s taskId args now h last = (h', some (match refusal taskId task version args with
      | some e => (s, .error e)
      | none =>
        ({ s with hashes :=
            Dictionary.set s.hashes taskId (rowOf (values.applyTo task, version + 1)) },
          .ok (version + 1)))) := by
  have hpassed : (args.state.filter fun _ => task.status.state.isTerminal) = none →
      updateTaskLua s taskId version args.state values =
        .ok ({ s with hashes :=
          Dictionary.set s.hashes taskId (rowOf (values.applyTo task, version + 1)) },
        version + 1) := by
    intro hfilter
    simp [updateTaskLua, hrow, rowOf, hfilter]
  have hended : ∀ state, (args.state.filter fun _ => task.status.state.isTerminal) = some state →
      updateTaskLua s taskId version args.state values =
        .error (.terminalState task.status.state state) := by
    intro state hfilter
    simp [updateTaskLua, hrow, rowOf, hfilter]
  have hterminal : refusal taskId task version { args with expectedVersion := none } =
      (args.state.filter fun _ => task.status.state.isTerminal).map fun state =>
        .storage (terminalTransition taskId task.status.state state) := by
    cases hstate : args.state with
    | none => simp [refusal, terminalGuard]
    | some state =>
      by_cases hterm : task.status.state.isTerminal <;>
        simp [refusal, terminalGuard, hterm, Option.filter]
  -- a pinned version that is met is the version that was read
  have hmet : ∀ expected, args.expectedVersion = some expected → expected = (version : Int) →
      refusal taskId task version args =
        refusal taskId task version { args with expectedVersion := none } := by
    rintro expected hexpected rfl
    simp [refusal, hexpected, Option.filter]
  cases hexpected : args.expectedVersion with
  | none =>
    have hargs : refusal taskId task version args =
        refusal taskId task version { args with expectedVersion := none } := by
      simp [refusal, hexpected]
    rw [hargs, hterminal]
    cases hfilter : args.state.filter fun _ => task.status.state.isTerminal with
    | none => simp [attempt, hrow, rowOf, hcolumns, hexpected, hpassed hfilter]
    | some state => simp [attempt, hrow, rowOf, hcolumns, hexpected, hended state hfilter]
  | some expected =>
    by_cases hversion : expected = (version : Int)
    · rw [hmet expected hexpected hversion, hterminal]
      cases hfilter : args.state.filter fun _ => task.status.state.isTerminal with
      | none => simp [attempt, hrow, rowOf, hcolumns, hexpected, hversion, hpassed hfilter]
      | some state =>
        simp [attempt, hrow, rowOf, hcolumns, hexpected, hversion, hended state hfilter]
    · have hrefused : refusal taskId task version args =
          some (versionMismatch taskId expected version) := by
        simp [refusal, hexpected, Option.filter, hversion]
      rw [hrefused]
      simp [attempt, updateTaskLua, hrow, rowOf, hcolumns, hexpected, Ne.symm hversion]

theorem Represents.updateTask (hrep : Represents s c) (h : Heap) (taskId : TaskId)
    {args : JsonUpdate} (now : Timestamp) (hnd : (refs args.artifacts).Nodup)
    (hmerges : c.MergesFirst (.updateTask taskId args now)) :
    Represents (RedisStorage.updateTask s h taskId args now).1 (c.update h taskId args now).1 ∧
      (RedisStorage.updateTask s h taskId args now).2.2 = (c.update h taskId args now).2 ∧
      ∀ q, q ∉ refs args.artifacts →
        (RedisStorage.updateTask s h taskId args now).2.1 q = h q := by
  have hloop {h' : Heap} {out : State × Except CallError Nat}
      (hfirst : ∀ last, attempt s taskId args now h last = (h', some out)) :
      RedisStorage.updateTask s h taskId args now = (out.1, h', out.2) :=
    rounds_first (maxAttempts_pos args) hfirst
  unfold Contents.update
  have hrow := hrep.hashes taskId
  cases hstored : c.stored taskId with
  | none =>
    rw [hstored] at hrow
    have hfirst : ∀ last, attempt s taskId args now h last =
        (h, some (s, .error (notFound taskId))) := by
      intro last
      simp only [attempt, hrow, Option.map_none]
    rw [hloop hfirst]
    exact ⟨hrep, rfl, fun _ _ => rfl⟩
  | some e =>
    obtain ⟨task, version⟩ := e
    rw [hstored] at hrow
    have hmerge := mergeColumns_eq h task now hnd
    have hframe : ∀ q, q ∉ refs args.artifacts → (mergeColumns h task args now).1 q = h q :=
      fun q => mergeColumns_frame hnd
    dsimp only
    rcases hcolumns : mergeColumns h task args now with ⟨h', e | values⟩
    · rw [hcolumns] at hmerge hframe
      have hfirst : ∀ last, attempt s taskId args now h last = (h', some (s, .error e)) := by
        intro last
        simp only [attempt, hrow, Option.map_some, rowOf, hcolumns]
      rw [hloop hfirst]
      have hnone : refusal taskId task version args = none := by
        cases hrefusal : refusal taskId task version args with
        | none => rfl
        | some e' =>
          obtain ⟨task', htask'⟩ := (work_ok h now).mpr
            (hmerges task version hstored (by rw [hrefusal]; rfl))
          rw [← hmerge] at htask'
          exact nomatch htask'
      rw [hnone, ← hmerge]
      exact ⟨hrep, rfl, hframe⟩
    · rw [hcolumns] at hmerge hframe
      rw [hloop (attempt_merged hrow hcolumns)]
      cases hrefusal : refusal taskId task version args with
      | some e => exact ⟨hrep, rfl, hframe⟩
      | none =>
        dsimp only
        rw [← hmerge]
        exact ⟨hrep.put hstored rfl, rfl, hframe⟩

/-- A call on `RedisStorage` is a call on the contents, where a refused update gets as far as the
script. -/
theorem Represents.answer (hrep : Represents s c) {h : Heap} {r : Request}
    (hnd : (refsOf r).Nodup) (hfresh : ∀ x ∈ drawn r, c.stored x = none)
    (hmerges : c.MergesFirst r) :
    Represents (Storage.redis.answer s h r).1 (c.answer h r).1 ∧
      (Storage.redis.answer s h r).2.2 = (c.answer h r).2 ∧
      ∀ q, q ∉ refsOf r → (Storage.redis.answer s h r).2.1 q = h q := by
  cases r with
  | createTask taskId now contextId message =>
    let task := initialTask taskId contextId message none now
    have hcreate : RedisStorage.createTask s taskId now contextId message =
        ({ s with
            hashes := Dictionary.set s.hashes taskId (rowOf (task, 1))
            members := s.members.insert (contextId, taskId) }, .ok (markCreated task)) := by
      simp [RedisStorage.createTask, rowOf, task]
    show Represents (RedisStorage.createTask s taskId now contextId message).1 _ ∧
      (RedisStorage.createTask s taskId now contextId message).2.map Answer.created = _ ∧ _
    rw [hcreate]
    exact ⟨hrep.create task 1 (hfresh taskId List.mem_cons_self), rfl, fun _ _ => rfl⟩
  | updateTask taskId args now =>
    obtain ⟨hstate, hseen, hframe⟩ := hrep.updateTask h taskId now hnd hmerges
    refine ⟨hstate, ?_, hframe⟩
    show (RedisStorage.updateTask s h taskId args now).2.2.map Answer.newVersion = _
    rw [hseen]
    rfl
  | loadTask taskId =>
    refine ⟨hrep, ?_, fun _ _ => rfl⟩
    show Except.ok (Answer.loaded ((s.hashes.lookup taskId).map TaskRow.task)) = _
    rw [hrep.hashes taskId, Option.map_map]
    rfl
  | getVersion taskId =>
    refine ⟨hrep, ?_, fun _ _ => rfl⟩
    show Except.ok (Answer.version ((s.hashes.lookup taskId).map TaskRow.version)) = _
    rw [hrep.hashes taskId, Option.map_map]
    rfl
  | deleteTask taskId =>
    obtain ⟨hstate, hexisted⟩ := hrep.deleteTask taskId
    refine ⟨hstate, ?_, fun _ _ => rfl⟩
    show Except.ok (Answer.existed (RedisStorage.deleteTask s taskId).2) = _
    rw [hexisted]
    rfl
  | deleteContext contextId =>
    obtain ⟨hstate, hcount⟩ := hrep.deleteContext contextId
    refine ⟨hstate, ?_, fun _ _ => rfl⟩
    show Except.ok (Answer.deleted (RedisStorage.deleteContext s contextId).2) = _
    rw [hcount]
    rfl
  | updateContext contextId context =>
    exact ⟨⟨hrep.hashes, hrep.members, hrep.nodup, hrep.contexts.set contextId context⟩, rfl,
      fun _ _ => rfl⟩
  | loadContext contextId =>
    refine ⟨hrep, ?_, fun _ _ => rfl⟩
    show Except.ok (Answer.context (s.contexts.lookup contextId)) = _
    rw [hrep.contexts contextId]
    rfl

end RedisStorage

/-! ### Runs -/

theorem work_cls {h : Heap} {task : JsonTask} {args : JsonUpdate} {now : Timestamp} {e : CallError}
    (herr : InMemoryStorage.work h task args now = .error e) : e.cls = .attributeError := by
  unfold InMemoryStorage.work InMemoryStorage.workMetadata at herr
  cases hstate : args.state with
  | none =>
    rw [hstate] at herr
    cases hmessage : args.statusMessage with
    | none =>
      rw [hmessage] at herr
      exact nomatch herr
    | some message =>
      rw [hmessage] at herr
      exact nomatch herr
  | some state =>
    rw [hstate] at herr
    dsimp only at herr
    cases happend : appendTransition (updateMetadata task.metadata args.taskMetadata)
        (transitionRecord state now args.statusMessage) with
    | ok md =>
      rw [happend] at herr
      exact nomatch herr
    | error e' =>
      rw [happend] at herr
      cases herr
      exact appendTransition_cls happend

theorem refusal_cls {taskId : TaskId} {task : JsonTask} {version : Nat} {args : JsonUpdate}
    {e : CallError} (he : refusal taskId task version args = some e) : e.cls ≠ .attributeError := by
  unfold refusal at he
  split at he
  · cases he
    exact nofun
  · obtain ⟨e', -, rfl⟩ := Option.map_eq_some_iff.mp he
    cases e' <;> exact nofun

namespace Contents

/-- Every refused update of the sequence gets past its merge. -/
def Merging (h : Heap) : Contents → List Request → Prop
  | _, [] => True
  | c, r :: rs => c.MergesFirst r ∧ Merging h (c.answer h r).1 rs

/-- An id that a call does not draw stays unknown. -/
theorem answer_fresh {c : Contents} {h : Heap} {r : Request} {x : TaskId}
    (hx : c.stored x = none) (hdrawn : x ∉ drawn r) : (c.answer h r).1.stored x = none := by
  cases r with
  | createTask taskId now contextId message =>
    have hne : x ≠ taskId := by
      rintro rfl
      exact hdrawn List.mem_cons_self
    show (c.put taskId _).stored x = none
    rw [put_stored, if_neg hne, hx]
  | updateTask taskId args now =>
    show (c.update h taskId args now).1.stored x = none
    unfold update
    split
    · exact hx
    · rename_i task version hstored
      have hne : x ≠ taskId := by
        rintro rfl
        rw [hstored] at hx
        exact nomatch hx
      split
      · exact hx
      · split
        · exact hx
        · rw [put_stored, if_neg hne, hx]
  | deleteTask taskId =>
    show (c.put taskId none).stored x = none
    rw [put_stored]
    split
    · rfl
    · exact hx
  | deleteContext contextId =>
    show (c.stored x).filter _ = none
    rw [hx]
    rfl
  | _ => exact hx

end Contents

theorem inMemory_run {s : InMemoryStorage.State} {c : Contents}
    (hrep : InMemoryStorage.Represents s c) (h : Heap) (rs : List Request) :
    Storage.inMemory.run s h rs = c.run h rs := by
  induction rs generalizing s c with
  | nil => rfl
  | cons r rs ih =>
    obtain ⟨hstate, hseen, hheap⟩ := hrep.answer h r
    show _ :: Storage.inMemory.run _ (Storage.inMemory.answer s h r).2.1 rs = _ :: _
    rw [hseen, hheap, ih hstate]

theorem sql_run {s : SQLStorageBase.State} {c : Contents} (hrep : SQLStorageBase.Represents s c)
    {h h' : Heap} {rs : List Request} (hnd : (rs.flatMap refsOf).Nodup)
    (hheap : ∀ q ∈ rs.flatMap refsOf, h' q = h q) :
    Storage.sql.run s h' rs = c.run h rs := by
  induction rs generalizing s c h' with
  | nil => rfl
  | cons r rs ih =>
    rw [List.flatMap_cons] at hnd hheap
    obtain ⟨hndr, hndrs, hdisj⟩ := List.nodup_append.mp hnd
    obtain ⟨hstate, hseen, hframe⟩ := hrep.answer (h := h') hndr
    have hcongr : c.answer h' r = c.answer h r :=
      Contents.answer_congr fun q hq => hheap q (List.mem_append_left _ hq)
    rw [hcongr] at hstate hseen
    have hrest : ∀ q ∈ rs.flatMap refsOf, (Storage.sql.answer s h' r).2.1 q = h q := by
      intro q hq
      rw [hframe q fun hqr => hdisj q hqr q hq rfl]
      exact hheap q (List.mem_append_right _ hq)
    show _ :: Storage.sql.run _ (Storage.sql.answer s h' r).2.1 rs = _ :: _
    rw [hseen, ih hstate hndrs hrest]

/-- The merge of an update that is going to be refused raises on Redis. -/
theorem redis_merge_raises {s : RedisStorage.State} {c : Contents}
    (hrep : RedisStorage.Represents s c) {h : Heap} {r : Request} (hnd : (refsOf r).Nodup)
    (hmerges : ¬ c.MergesFirst r) :
    (Storage.redis.answer s h r).2.2.mapError CallError.cls ≠
      (c.answer h r).2.mapError CallError.cls := by
  cases r with
  | updateTask taskId args now =>
    unfold Contents.MergesFirst at hmerges
    push Not at hmerges
    obtain ⟨task, version, hstored, hrefused, hstate, hlist⟩ := hmerges
    obtain ⟨e, he⟩ := Option.isSome_iff_exists.mp hrefused
    have hwork : ∃ e', InMemoryStorage.work h task args now = .error e' := by
      cases hw : InMemoryStorage.work h task args now with
      | error e' => exact ⟨e', rfl⟩
      | ok task' => exact absurd ((work_ok h now).mp ⟨task', hw⟩ hstate) hlist
    obtain ⟨e', he'⟩ := hwork
    have hrow := hrep.hashes taskId
    rw [hstored] at hrow
    have hmerge := mergeColumns_eq h task now hnd
    rw [he'] at hmerge
    -- Redis merges before the script compares anything, so the error is the one of the merge
    have hredis : (RedisStorage.updateTask s h taskId args now).2.2 = .error e' := by
      rcases hcolumns : mergeColumns h task args now with ⟨h', e'' | values⟩
      · rw [hcolumns] at hmerge
        cases hmerge
        have hfirst : ∀ last, RedisStorage.attempt s taskId args now h last =
            (h', some (s, .error e')) := by
          intro last
          simp only [RedisStorage.attempt, hrow, Option.map_some, rowOf, hcolumns]
        unfold RedisStorage.updateTask
        rw [rounds_first (maxAttempts_pos args) hfirst]
      · rw [hcolumns] at hmerge
        exact nomatch hmerge
    have hspec : (c.update h taskId args now).2 = .error e := by
      unfold Contents.update
      rw [hstored]
      dsimp only
      rw [he]
    show ((RedisStorage.updateTask s h taskId args now).2.2.map Answer.newVersion).mapError _ ≠
      ((c.update h taskId args now).2.map Answer.newVersion).mapError _
    rw [hredis, hspec]
    intro heq
    have hcls : e'.cls = e.cls := Except.error.inj heq
    exact refusal_cls he (hcls.symm.trans (work_cls he'))
  | _ => exact absurd trivial hmerges

/-- On Redis the run of the contents is seen if and only if every refused update gets past its
merge. -/
theorem redis_run {s : RedisStorage.State} {c : Contents} (hrep : RedisStorage.Represents s c)
    {h h' : Heap} {rs : List Request} (hnd : (rs.flatMap refsOf).Nodup)
    (hheap : ∀ q ∈ rs.flatMap refsOf, h' q = h q) (hdrawn : (rs.flatMap drawn).Nodup)
    (hfresh : ∀ x ∈ rs.flatMap drawn, c.stored x = none) :
    Storage.redis.run s h' rs = c.run h rs ↔ c.Merging h rs := by
  induction rs generalizing s c h' with
  | nil => exact ⟨fun _ => trivial, fun _ => rfl⟩
  | cons r rs ih =>
    rw [List.flatMap_cons] at hnd hheap hdrawn hfresh
    obtain ⟨hndr, hndrs, hdisj⟩ := List.nodup_append.mp hnd
    obtain ⟨-, hdrawnrs, hdrawnr⟩ := List.nodup_append.mp hdrawn
    have hcongr : c.answer h' r = c.answer h r :=
      Contents.answer_congr fun q hq => hheap q (List.mem_append_left _ hq)
    show _ :: Storage.redis.run _ (Storage.redis.answer s h' r).2.1 rs = _ :: _ ↔ _ ∧ _
    rw [List.cons_eq_cons]
    by_cases hmerges : c.MergesFirst r
    · obtain ⟨hstate, hseen, hframe⟩ := hrep.answer (h := h') hndr
        (fun x hx => hfresh x (List.mem_append_left _ hx)) hmerges
      rw [hcongr] at hstate hseen
      have hrest : ∀ q ∈ rs.flatMap refsOf, (Storage.redis.answer s h' r).2.1 q = h q := by
        intro q hq
        rw [hframe q fun hqr => hdisj q hqr q hq rfl]
        exact hheap q (List.mem_append_right _ hq)
      have hunknown : ∀ x ∈ rs.flatMap drawn, (c.answer h r).1.stored x = none := fun x hx =>
        Contents.answer_fresh (hfresh x (List.mem_append_right _ hx))
          fun hxr => hdrawnr x hxr x hx rfl
      rw [ih hstate hndrs hrest hdrawnrs hunknown, hseen]
      exact ⟨fun h => ⟨hmerges, h.2⟩, fun h => ⟨rfl, h.2⟩⟩
    · have hdiffer := redis_merge_raises hrep (h := h') hndr hmerges
      rw [hcongr] at hdiffer
      exact ⟨fun h => absurd h.1 hdiffer, fun h => absurd h.1 hmerges⟩

end Sequential

end A2AKit
