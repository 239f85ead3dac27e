/-
Mistakes of clients in queries for tasks.

* `answered_iff` — a request is answered with a result or with an error of the client if and only if
  what passes the checks of the handlers is something that the storage and the query take;
* `list_as_id` — a request whose id is a list.
-/
import A2AKit.TaskQueries

namespace A2AKit

open Pagination

/-! ### Requests that are answered -/

section

variable {τ : Type} [LinearOrder τ] (M : Models) (v : ProtocolVersion) (store : TaskStore τ)

/-- The storage can cut a history by the value: by an integer, and not at all if the comparison with
0 says so. -/
def TaskStore.takesHistoryLength (historyLength : PyValue) : Bool :=
  historyLength.isNull || historyLength.negatedBound.isSome ||
    match store with
    | .memory _ => historyLength.isZero
    | _ => historyLength.exceedsZero = some false

/-- The members of the params are `null` or texts, integers and a bool, with a page size from 1 to
100, and the database takes the texts and the offset. -/
structure RawQuery.Sound (raw : RawQuery) : Prop where
  contextId : raw.contextId.optionalText.isSome = true
  tenant : raw.tenant.optionalText.isSome = true
  pageToken : raw.pageToken.optionalText.isSome = true
  statusTimestampAfter : raw.statusTimestampAfter.optionalText.isSome = true
  historyLength : (M.optionalInt raw.historyLength).isSome = true
  includeArtifacts : (M.toBool raw.includeArtifacts).isSome = true
  pageSize : ∃ n, M.toInt raw.pageSize = some n ∧ 1 ≤ n ∧ n ≤ 100
  texts : store.takesTexts
    [raw.contextId.text?, raw.tenant.text?, raw.statusTimestampAfter.text?] = true
  offset : store.takesOffset (offsetOf (readable raw.pageToken.text?)) = true

/-- What the storage takes of a query string that FastAPI takes. -/
structure QueryFields.Sound (f : QueryFields) : Prop where
  pageSize : 1 ≤ f.pageSize ∧ f.pageSize ≤ 100
  texts : store.takesTexts [f.contextId, f.tenant, f.statusTimestampAfter] = true
  offset : store.takesOffset (offsetOf (readable f.pageToken)) = true

/-- A request that is answered.  An id that counts as missing, a status that is none and a query
string that FastAPI refuses are mistakes that are found; what passes these checks has to be something
that the storage takes, and the id has to be something that goes into an answer of version 1.0. -/
def TaskRequest.Sound : TaskRequest → Prop
  | .rpcGet params =>
    let taskId := params.get "id"
    taskId.truthy = false ∨ store.takesId taskId = true ∧
      (∀ task, store.find taskId = some task →
        store.takesHistoryLength (rawHistoryLength v params) = true) ∧
      (v = .v10 → store.find taskId = none → taskId.encodable = true)
  | .rpcList params =>
    (params.get "status").isNull = false ∧ M.toState v (params.get "status") = none ∨
      (rawQuery v params none).Sound M store
  | .rpcCancel params _ =>
    let taskId := params.get "id"
    taskId.truthy = false ∨ store.takesId taskId = true ∧ (v = .v10 → taskId.formats = true)
  | .restGet taskId query =>
    M.queryInt query "historyLength" = .error .requestValidation ∨
      store.takesId (.str (.text taskId)) = true
  | .restList query => ∀ f, M.queryFields v query = .ok f → f.Sound store
  | .restCancel taskId _ => store.takesId (.str (.text taskId)) = true

end

/-! ### What the storage comes to -/

section

variable {τ : Type} {M : Models} {v : ProtocolVersion} {store : TaskStore τ}

/-- What can be negated can be compared. -/
theorem exceedsZero_of_bound {n : PyValue} {start : Int} (h : n.negatedBound = some start) :
    ∃ b, n.exceedsZero = some b := by
  cases n with
  | bool b => exact ⟨b, rfl⟩
  | int n => exact ⟨_, rfl⟩
  | _ => exact nomatch h

theorem memory_trim (history : List Message) (n : PyValue) :
    if (n.isNull || n.negatedBound.isSome || n.isZero) = true then
      ∃ trimmed, InMemoryStorage.trim history n = .ok trimmed
    else InMemoryStorage.trim history n = .error (.other "TypeError") := by
  unfold InMemoryStorage.trim
  by_cases hnull : n.isNull = true
  · rw [if_pos (by simp [hnull]), if_pos hnull]
    exact ⟨_, rfl⟩
  · rw [if_neg hnull]
    by_cases hzero : n.isZero = true
    · rw [if_pos (by simp [hzero]), if_pos hzero]
      exact ⟨_, rfl⟩
    · rw [if_neg hzero]
      cases hbound : n.negatedBound with
      | some start =>
        rw [if_pos (by simp)]
        exact ⟨_, by rw [lastOf, hbound]⟩
      | none => rw [if_neg (by simp [hnull, hzero]), lastOf, hbound]

theorem sql_trim (history : List Message) (n : PyValue) :
    if (n.isNull || n.negatedBound.isSome || n.exceedsZero = some false) = true then
      ∃ trimmed, SQLStorageBase.trim history n = .ok trimmed
    else SQLStorageBase.trim history n = .error (.other "TypeError") := by
  unfold SQLStorageBase.trim
  by_cases hnull : n.isNull = true
  · rw [if_pos (by simp [hnull]), if_pos hnull]
    exact ⟨_, rfl⟩
  · rw [if_neg hnull]
    cases hbound : n.negatedBound with
    | some start =>
      obtain ⟨b, hb⟩ := exceedsZero_of_bound hbound
      rw [if_pos (by simp), hb]
      cases b with
      | true => exact ⟨_, by rw [lastOf, hbound]⟩
      | false => exact ⟨_, rfl⟩
    | none =>
      -- no integer: a comparison with 0 decides, or raises
      rcases hexceeds : n.exceedsZero with _ | _ | _
      · rw [if_neg (by simp [hnull])]
      · rw [if_pos (by simp)]
        exact ⟨_, rfl⟩
      · rw [if_neg (by simp [hnull])]
        show lastOf history n = _
        rw [lastOf, hbound]

theorem trim_result (store : TaskStore τ) (history : List Message) (n : PyValue) :
    if store.takesHistoryLength n = true then ∃ trimmed, store.trim history n = .ok trimmed
    else store.trim history n = .error (.other "TypeError") := by
  cases store with
  | memory tasks => exact memory_trim history n
  | sql driver collation rows => exact sql_trim history n
  | redis time w taskIds => exact sql_trim history n

/-- Only texts are found, and they can be written into a message. -/
theorem formats_of_find {taskId : PyValue} {task : Task} (h : store.find taskId = some task) :
    taskId.formats = true := by
  unfold TaskStore.find at h
  split at h
  · exact nomatch h
  · rename_i id hid
    unfold PyValue.text? at hid
    split at hid
    · rfl
    · exact nomatch hid

/-- How `load_task` ends. -/
inductive Loads (store : TaskStore τ) (taskId historyLength : PyValue) :
    Except QueryExc (Option Task) → Prop
  | rejected (text : String) (hid : store.takesId taskId = false) :
    Loads store taskId historyLength (.error (.other text))
  | missing (hid : store.takesId taskId = true) (hfind : store.find taskId = none) :
    Loads store taskId historyLength (.ok none)
  | uncut (text : String) (task : Task) (hid : store.takesId taskId = true)
    (hfind : store.find taskId = some task)
    (hlength : store.takesHistoryLength historyLength = false) :
    Loads store taskId historyLength (.error (.other text))
  | found (task : Task) (loaded : Task) (hid : store.takesId taskId = true)
    (hfind : store.find taskId = some task)
    (hlength : store.takesHistoryLength historyLength = true)
    (hstatus : loaded.status = task.status) :
    Loads store taskId historyLength (.ok (some loaded))

theorem loadTask_loads (store : TaskStore τ) (taskId historyLength : PyValue) :
    Loads store taskId historyLength (store.loadTask taskId historyLength) := by
  unfold TaskStore.loadTask
  split
  · rename_i hid
    cases hfind : store.find taskId with
    | none => exact .missing hid hfind
    | some task =>
      dsimp only
      have htrim := trim_result store task.history historyLength
      split at htrim
      · rename_i hlength
        obtain ⟨trimmed, htrimmed⟩ := htrim
        rw [htrimmed]
        exact .found task _ hid hfind hlength rfl
      · rename_i hlength
        rw [htrim]
        exact .uncut _ task hid hfind (Bool.eq_false_iff.mpr hlength)
  · rename_i hid
    exact .rejected _ (Bool.eq_false_iff.mpr hid)

/-! ### Answers about one task -/

theorem mapException_other (v : ProtocolVersion) (text : String) :
    (mapException v (.other text)).answered = false := by
  cases v with
  | v03 => rfl
  | v10 => rfl

theorem invalidParams_answered (v : ProtocolVersion) : (invalidParams v).answered = true := by
  cases v with
  | v03 => rfl
  | v10 => rfl

theorem noTask_answered (v : ProtocolVersion) (taskId : PyValue) :
    (noTask v taskId).answered = true ↔ (v = .v10 → taskId.encodable = true) := by
  cases v with
  | v03 => exact iff_of_true rfl nofun
  | v10 =>
    unfold noTask
    dsimp only
    split
    · rename_i h
      exact iff_of_true rfl fun _ => h
    · rename_i h
      rw [mapException_other]
      exact iff_of_false (by decide) fun hall => h (hall rfl)

/-- An exception about a task is answered as one, if its message can be written. -/
theorem mapException_task {e : QueryExc} {taskId : PyValue}
    (he : e = .taskNotFound taskId ∨ e = .taskNotCancelable taskId) (v : ProtocolVersion) :
    (mapException v e).answered = true ↔ (v = .v10 → taskId.formats = true) := by
  cases v with
  | v03 =>
    rcases he with rfl | rfl
    · exact iff_of_true rfl nofun
    · exact iff_of_true rfl nofun
  | v10 =>
    have hencodable : e.encodable = taskId.formats := by
      rcases he with rfl | rfl
      · rfl
      · rfl
    unfold mapException
    dsimp only
    rw [hencodable]
    split
    · rename_i h
      rcases he with rfl | rfl
      · exact iff_of_true rfl fun _ => h
      · exact iff_of_true rfl fun _ => h
    · rename_i h
      exact iff_of_false (by decide) fun hall => h (hall rfl)

theorem handleTasksGet_answered (params : PyFields) :
    (handleTasksGet v store params).answered = true ↔
      (TaskRequest.rpcGet params).Sound M v store := by
  unfold handleTasksGet TaskRequest.Sound
  dsimp only
  cases htruthy : (params.get "id").truthy with
  | false => exact iff_of_true (invalidParams_answered v) (.inl rfl)
  | true =>
    rw [or_iff_right (by decide)]
    simp only [Bool.not_true, Bool.false_eq_true, if_false]
    have hloads := loadTask_loads store (params.get "id") (rawHistoryLength v params)
    generalize store.loadTask (params.get "id") (rawHistoryLength v params) = loaded at hloads
    cases hloads with
    | rejected text hid =>
      rw [mapException_other, hid]
      simp
    | missing hid hfind =>
      dsimp only
      rw [noTask_answered, hid, hfind]
      simp
    | uncut text task hid hfind hlength =>
      rw [mapException_other, hid, hfind, hlength]
      simp
    | found task loaded hid hfind hlength =>
      rw [hid, hfind, hlength]
      simp [TaskAnswer.answered]

/-- How `cancel_task` ends: with the task, whose id is a text then, or with an exception about it. -/
theorem cancelTask_result (store : TaskStore τ) (taskId : PyValue) (latest : Option Task) :
    (store.takesId taskId = false ∧ ∃ text, store.cancelTask taskId latest = .error (.other text)) ∨
      store.takesId taskId = true ∧
        ((taskId.formats = true ∧ ∃ task, store.cancelTask taskId latest = .ok task) ∨
          ∃ e, (e = .taskNotFound taskId ∨ e = .taskNotCancelable taskId) ∧
            store.cancelTask taskId latest = .error e) := by
  unfold TaskStore.cancelTask
  have hloads := loadTask_loads store taskId .null
  generalize store.loadTask taskId .null = loaded at hloads
  cases hloads with
  | rejected text hid => exact .inl ⟨hid, text, rfl⟩
  | missing hid hfind => exact .inr ⟨hid, .inr ⟨_, .inl rfl, rfl⟩⟩
  | uncut text task hid hfind hlength => exact nomatch hlength
  | found task loaded hid hfind hlength =>
    refine .inr ⟨hid, ?_⟩
    dsimp only
    split
    · exact .inr ⟨_, .inr rfl, rfl⟩
    · cases latest with
      | none => exact .inr ⟨_, .inl rfl, rfl⟩
      | some task => exact .inl ⟨formats_of_find hfind, task, rfl⟩

theorem handleTasksCancel_answered (params : PyFields) (latest : Option Task) :
    (handleTasksCancel v store params latest).answered = true ↔
      (TaskRequest.rpcCancel params latest).Sound M v store := by
  unfold handleTasksCancel TaskRequest.Sound
  dsimp only
  cases htruthy : (params.get "id").truthy with
  | false => exact iff_of_true (invalidParams_answered v) (.inl rfl)
  | true =>
    rw [or_iff_right (by decide)]
    simp only [Bool.not_true, Bool.false_eq_true, if_false]
    rcases cancelTask_result store (params.get "id") latest with
      ⟨hid, text, htext⟩ | ⟨hid, ⟨hformats, task, htask⟩ | ⟨e, he, herror⟩⟩
    · rw [htext, hid]
      dsimp only
      rw [mapException_other]
      simp
    · rw [htask, hid]
      exact iff_of_true rfl ⟨rfl, fun _ => hformats⟩
    · rw [herror, hid]
      dsimp only
      rw [mapException_task he]
      exact (and_iff_right rfl).symm

/-! ### What the arguments come to -/

theorem text?_of_optionalText {value : PyValue} {text : Option String}
    (h : value.optionalText = some text) : value.text? = text := by
  unfold PyValue.optionalText at h
  split at h
  · exact Option.some.inj h
  · exact Option.some.inj h
  · exact nomatch h

/-- The arguments of a query are sound if they have their types, and are sound then. -/
theorem sound_iff_fields {raw : RawQuery} :
    raw.Sound M store ↔ ∃ f, M.fields raw = some f ∧ f.Sound store := by
  constructor
  · intro h
    obtain ⟨contextId, hcontextId⟩ := Option.isSome_iff_exists.mp h.contextId
    obtain ⟨tenant, htenant⟩ := Option.isSome_iff_exists.mp h.tenant
    obtain ⟨pageToken, hpageToken⟩ := Option.isSome_iff_exists.mp h.pageToken
    obtain ⟨after, hafter⟩ := Option.isSome_iff_exists.mp h.statusTimestampAfter
    obtain ⟨historyLength, hhistoryLength⟩ := Option.isSome_iff_exists.mp h.historyLength
    obtain ⟨includeArtifacts, hartifacts⟩ := Option.isSome_iff_exists.mp h.includeArtifacts
    obtain ⟨n, hn, hsize⟩ := h.pageSize
    have htexts := h.texts
    have hoffset := h.offset
    rw [text?_of_optionalText hcontextId, text?_of_optionalText htenant,
      text?_of_optionalText hafter] at htexts
    rw [text?_of_optionalText hpageToken] at hoffset
    -- every argument has its type, so the fields can be built
    let f : QueryFields :=
      { contextId, tenant, status := raw.status, pageSize := n, pageToken, historyLength
        statusTimestampAfter := after, includeArtifacts }
    have hfields : M.fields raw = some f := by
      simp only [Models.fields, hcontextId, htenant, hn, hpageToken, hhistoryLength, hafter,
        hartifacts, Option.bind_eq_bind, Option.bind_some]
      rfl
    exact ⟨f, hfields, hsize, htexts, hoffset⟩
  · rintro ⟨f, hf, hsound⟩
    unfold Models.fields at hf
    obtain ⟨contextId, hcontextId, hf⟩ := Option.bind_eq_some_iff.mp hf
    obtain ⟨tenant, htenant, hf⟩ := Option.bind_eq_some_iff.mp hf
    obtain ⟨n, hn, hf⟩ := Option.bind_eq_some_iff.mp hf
    obtain ⟨pageToken, hpageToken, hf⟩ := Option.bind_eq_some_iff.mp hf
    obtain ⟨historyLength, hhistoryLength, hf⟩ := Option.bind_eq_some_iff.mp hf
    obtain ⟨after, hafter, hf⟩ := Option.bind_eq_some_iff.mp hf
    obtain ⟨includeArtifacts, hartifacts, hf⟩ := Option.bind_eq_some_iff.mp hf
    obtain rfl := Option.some.inj hf
    refine ⟨?_, ?_, ?_, ?_, ?_, ?_, ⟨n, hn, hsound.pageSize⟩, ?_, ?_⟩
    · rw [hcontextId]
      rfl
    · rw [htenant]
      rfl
    · rw [hpageToken]
      rfl
    · rw [hafter]
      rfl
    · rw [hhistoryLength]
      rfl
    · rw [hartifacts]
      rfl
    · rw [text?_of_optionalText hcontextId, text?_of_optionalText htenant,
        text?_of_optionalText hafter]
      exact hsound.texts
    · rw [text?_of_optionalText hpageToken]
      exact hsound.offset

/-! ### Answers of REST -/

theorem restAnswer_other (v : ProtocolVersion) (text : String) :
    (restAnswer v (.error (.raised (.other text)))).answered = false := by
  cases v with
  | v03 => rfl
  | v10 => rfl

theorem restAnswer_validation (v : ProtocolVersion) :
    (restAnswer v (.error .requestValidation)).answered = true := by
  cases v with
  | v03 => rfl
  | v10 => rfl

/-- FastAPI answers for itself. -/
theorem queryInt_error {query : QueryString} {key : String} {e : RestExc}
    (h : M.queryInt query key = .error e) : e = .requestValidation := by
  unfold Models.queryInt at h
  split at h
  · exact nomatch h
  · split at h
    · cases h
      rfl
    · exact nomatch h

theorem queryBool_error {query : QueryString} {key : String} {e : RestExc}
    (h : M.queryBool query key = .error e) : e = .requestValidation := by
  unfold Models.queryBool at h
  split at h
  · exact nomatch h
  · split at h
    · cases h
      rfl
    · exact nomatch h

/-- A status that is none is answered by FastAPI, or by hand. -/
theorem queryState_error {query : QueryString} {e : RestExc}
    (h : M.queryState v query = .error e) : (restAnswer v (.error e)).answered = true := by
  unfold Models.queryState at h
  split at h
  · exact nomatch h
  · split at h
    · exact nomatch h
    · cases v with
      | v03 =>
        cases h
        rfl
      | v10 =>
        cases h
        rfl

theorem queryFields_error {query : QueryString} {e : RestExc}
    (h : M.queryFields v query = .error e) : (restAnswer v (.error e)).answered = true := by
  unfold Models.queryFields at h
  cases hsize : M.queryInt query "pageSize" with
  | error e' =>
    rw [hsize] at h
    cases h
    rw [queryInt_error hsize, restAnswer_validation]
  | ok pageSize =>
    rw [hsize] at h
    cases hlength : M.queryInt query "historyLength" with
    | error e' =>
      rw [hlength] at h
      cases h
      rw [queryInt_error hlength, restAnswer_validation]
    | ok historyLength =>
      rw [hlength] at h
      cases hartifacts : M.queryBool query "includeArtifacts" with
      | error e' =>
        rw [hartifacts] at h
        cases h
        rw [queryBool_error hartifacts, restAnswer_validation]
      | ok includeArtifacts =>
        rw [hartifacts] at h
        cases hstate : M.queryState v query with
        | error e' =>
          rw [hstate] at h
          cases h
          exact queryState_error hstate
        | ok state =>
          rw [hstate] at h
          exact nomatch h

theorem tasksGet_answered (taskId : String) (query : QueryString) :
    (restAnswer v (tasksGet M v store taskId query)).answered = true ↔
      (TaskRequest.restGet taskId query).Sound M v store := by
  unfold tasksGet
  show _ ↔ M.queryInt query "historyLength" = .error .requestValidation ∨
    store.takesId (.str (.text taskId)) = true
  cases hquery : M.queryInt query "historyLength" with
  | error e =>
    obtain rfl := queryInt_error hquery
    exact iff_of_true (restAnswer_validation v) (.inl rfl)
  | ok historyLength =>
    have hright : (Except.ok historyLength = .error RestExc.requestValidation ∨
        store.takesId (.str (.text taskId)) = true) ↔ store.takesId (.str (.text taskId)) = true :=
      or_iff_right nofun
    rw [hright]
    dsimp only
    have hloads := loadTask_loads store (.str (.text taskId)) (historyLength.elim .null .int)
    generalize store.loadTask (.str (.text taskId)) (historyLength.elim .null .int) = loaded at hloads
    cases hloads with
    | rejected text hid =>
      rw [hid]
      dsimp only
      rw [QueryExc.serverExc, restAnswer_other]
    | missing hid hfind =>
      refine iff_of_true ?_ hid
      cases v with
      | v03 => rfl
      | v10 => rfl
    | uncut text task hid hfind hlength =>
      -- an integer cuts every history
      cases historyLength with
      | none => exact nomatch hlength
      | some n => exact nomatch hlength
    | found task loaded hid hfind hlength => exact iff_of_true rfl hid

theorem tasksCancel_answered (taskId : String) (latest : Option Task) :
    (restAnswer v (tasksCancel store taskId latest)).answered = true ↔
      (TaskRequest.restCancel taskId latest).Sound M v store := by
  unfold tasksCancel
  show _ ↔ store.takesId (.str (.text taskId)) = true
  rcases cancelTask_result store (.str (.text taskId)) latest with
    ⟨hid, text, htext⟩ | ⟨hid, ⟨-, task, htask⟩ | ⟨e, he, herror⟩⟩
  · rw [htext, hid]
    dsimp only
    rw [QueryExc.serverExc, restAnswer_other]
  · rw [htask]
    exact iff_of_true rfl hid
  · rw [herror]
    refine iff_of_true ?_ hid
    rcases he with rfl | rfl
    · cases v with
      | v03 => rfl
      | v10 => rfl
    · cases v with
      | v03 => rfl
      | v10 => rfl

/-! ### What lists come to -/

variable [LinearOrder τ]

theorem spelled_ok {result : ListTasksResult} (h : digitCount result.nextPageToken ≤ maxStrDigits) :
    spelled result = .ok result := if_pos h

/-- The token of the next page of a query can be written, over fewer tasks than a list can have. -/
theorem digitCount_page (query : ListTasksQuery) {total : Nat} (h : total < 2 ^ 63) :
    digitCount (nextToken (query.offset + query.pageSize) total) ≤ maxStrDigits := by
  refine digitCount_next ?_ h
  have hoffset : -(10 ^ maxStrDigits : Nat) < query.offset := neg_lt_offset query.pageToken
  omega

/-- `list_tasks` goes through exactly if the database takes the offset. -/
theorem answer_result (store : TaskStore τ) (query : ListTasksQuery) :
    if store.takesOffset query.offset = true then ∃ result, store.answer query = .ok result
    else ∃ e, store.answer query = .error e := by
  cases store with
  | memory tasks =>
    refine ⟨_, spelled_ok (digitCount_page query ?_)⟩
    calc _ ≤ (sortedDesc codePoints.sortKey tasks.1).length := List.length_filter_le _ _
      _ = tasks.1.length := (sortedDesc_perm _ _).length_eq
      _ < 2 ^ 63 := tasks.2
  | sql driver collation rows =>
    show if driver.dialect.accepts query.offset = true then _ else _
    split
    · rename_i haccepts
      refine ⟨_, (if_pos haccepts).trans (spelled_ok (digitCount_page query ?_))⟩
      exact List.countP_le_length.trans_lt rows.2
    · rename_i haccepts
      exact ⟨_, if_neg haccepts⟩
  | redis time w taskIds =>
    refine ⟨_, spelled_ok (digitCount_page query ?_)⟩
    refine lt_of_eq_of_lt (sortedDesc_perm _ _).length_eq ?_
    exact (List.length_filterMap_le _ _).trans_lt taskIds.2

/-- How a query with typed arguments ends. -/
theorem list_result (store : TaskStore τ) (f : QueryFields) :
    (f.Sound store ∧ ∃ result, store.list f = .ok result) ∨
      ¬ f.Sound store ∧ ∃ text, store.list f = .error (.other text) := by
  unfold TaskStore.list QueryFields.query
  by_cases hsize : 1 ≤ f.pageSize ∧ f.pageSize ≤ 100
  · rw [dif_pos hsize]
    dsimp only
    unfold TaskStore.listTasks
    by_cases htexts : store.takesTexts [f.contextId, f.tenant, f.statusTimestampAfter] = true
    · rw [if_pos htexts]
      have hanswer := answer_result store
        { contextId := f.contextId, tenant := f.tenant, status := f.status
          pageSize := f.pageSize.toNat, pageSize_ge := by omega, pageSize_le := by omega
          pageToken := f.pageToken, historyLength := f.historyLength
          statusTimestampAfter := f.statusTimestampAfter, includeArtifacts := f.includeArtifacts }
      split at hanswer
      · rename_i hoffset
        obtain ⟨result, hresult⟩ := hanswer
        exact .inl ⟨⟨hsize, htexts, hoffset⟩, result, by rw [hresult]; rfl⟩
      · rename_i hoffset
        obtain ⟨e, he⟩ := hanswer
        exact .inr ⟨fun h => hoffset h.offset, _, by rw [he]; rfl⟩
    · rw [if_neg htexts]
      exact .inr ⟨fun h => htexts h.texts, _, rfl⟩
  · rw [dif_neg hsize]
    exact .inr ⟨fun h => hsize h.pageSize, _, rfl⟩

theorem listAnswer_answered (raw : RawQuery) :
    (listAnswer M v store raw).answered = true ↔ raw.Sound M store := by
  rw [sound_iff_fields]
  unfold listAnswer
  cases hfields : M.fields raw with
  | none =>
    dsimp only
    rw [mapException_other]
    exact iff_of_false (by decide) fun ⟨f, hf, _⟩ => nomatch hf
  | some f =>
    dsimp only
    rcases list_result store f with ⟨hsound, result, hresult⟩ | ⟨hnot, text, htext⟩
    · rw [hresult]
      exact iff_of_true rfl ⟨f, rfl, hsound⟩
    · rw [htext]
      dsimp only
      rw [mapException_other]
      refine iff_of_false (by decide) ?_
      rintro ⟨f', hf', hsound⟩
      cases hf'
      exact hnot hsound

theorem handleTasksList_answered (params : PyFields) :
    (handleTasksList M v store params).answered = true ↔
      (TaskRequest.rpcList params).Sound M v store := by
  unfold handleTasksList TaskRequest.Sound
  dsimp only
  -- the status is checked before the rest, and says nothing about it
  have hsound : ∀ status, (rawQuery v params status).Sound M store ↔
      (rawQuery v params none).Sound M store := by
    intro status
    cases v with
    | v03 => exact ⟨fun h => ⟨h.1, h.2, h.3, h.4, h.5, h.6, h.7, h.8, h.9⟩,
        fun h => ⟨h.1, h.2, h.3, h.4, h.5, h.6, h.7, h.8, h.9⟩⟩
    | v10 => exact ⟨fun h => ⟨h.1, h.2, h.3, h.4, h.5, h.6, h.7, h.8, h.9⟩,
        fun h => ⟨h.1, h.2, h.3, h.4, h.5, h.6, h.7, h.8, h.9⟩⟩
  cases hnull : (params.get "status").isNull with
  | true =>
    rw [if_pos rfl, listAnswer_answered]
    exact (or_iff_right fun h => nomatch h.1).symm
  | false =>
    rw [if_neg (by decide)]
    cases hstate : M.toState v (params.get "status") with
    | none => exact iff_of_true (invalidParams_answered v) (.inl ⟨rfl, rfl⟩)
    | some state =>
      dsimp only
      rw [listAnswer_answered, hsound]
      exact (or_iff_right fun h => nomatch h.2).symm

theorem tasksList_answered (query : QueryString) :
    (restAnswer v (tasksList M v store query)).answered = true ↔
      (TaskRequest.restList query).Sound M v store := by
  unfold tasksList
  show _ ↔ ∀ f, M.queryFields v query = .ok f → f.Sound store
  cases hfields : M.queryFields v query with
  | error e =>
    refine iff_of_true (queryFields_error hfields) ?_
    intro f hf
    cases hf
  | ok f =>
    dsimp only
    rcases list_result store f with ⟨hsound, result, hresult⟩ | ⟨hnot, text, htext⟩
    · rw [hresult]
      refine iff_of_true rfl fun f' hf' => ?_
      cases hf'
      exact hsound
    · rw [htext]
      refine iff_of_false ?_ fun hall => hnot (hall f rfl)
      dsimp only
      rw [QueryExc.serverExc, restAnswer_other]
      decide

/-- A request is answered with a result or an error of the client exactly if it is sound. -/
theorem answered_iff (M : Models) (v : ProtocolVersion) (store : TaskStore τ)
    (request : TaskRequest) :
    (request.answer M v store).answered = true ↔ request.Sound M v store := by
  cases request with
  | rpcGet params => exact handleTasksGet_answered params
  | rpcList params => exact handleTasksList_answered params
  | rpcCancel params latest => exact handleTasksCancel_answered params latest
  | restGet taskId query => exact tasksGet_answered taskId query
  | restList query => exact tasksList_answered query
  | restCancel taskId latest => exact tasksCancel_answered taskId latest

end

/-- Models that take values of their types only. -/
def plainModels : Models where
  toInt
    | .int n => some n
    | _ => none
  toBool
    | .bool b => some b
    | _ => none
  toState _ _ := none
  toInt_int _ := rfl
  toBool_bool _ := rfl

/-- The id `["x"]`, which cannot be hashed, is an internal error. -/
theorem list_as_id :
    (TaskRequest.answer plainModels .v03 (.memory ⟨[], by decide⟩ : TaskStore Nat)
      (.rpcGet (.cons (.text "id") (.list (.cons (.str (.text "x")) .nil)) .nil))).answered =
        false := by
  rfl

end A2AKit
