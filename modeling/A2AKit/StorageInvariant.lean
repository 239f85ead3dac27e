/-
What interleaved storage calls keep.

`StorageInv` relates every `update_task` call between its halves to the database:
the columns it is about to write were merged from the row it read, and the stored
row, if it still carries the version that was read, is that row.  It holds in all
runs of a sound backend (`StorageInv.step`), and with it a write commits only on
top of the row that was merged (`StorageInv.commit`).

`ReadsExpected` is the condition on `RedisStorage` runs: a call pinned to a
version does not read an older one.
-/
import A2AKit.StorageRuns

namespace A2AKit

/-! ### What a step does -/

section Steps

variable {b : Backend} {s s' : StorageState} {o : StorageOutcome}

theorem step_create {taskId : TaskId} {contextId : ContextId} {message : Message}
    {key : Option String} {now : Timestamp}
    (h : b.step s (.create taskId contextId message key now) = some (s', o)) :
    taskId ∉ s.used ∧ s'.used = taskId :: s.used ∧ s'.calls = s.calls ∧ s'.heap = s.heap ∧
      s'.issued = s.issued ∧
      ((s'.rows = s.rows ∧ ∃ id, o = .existing id) ∨
        (o = .created taskId ∧ s'.rows = s.rows.insert taskId
          { task := initialTask taskId contextId message (key.filter (· ≠ "")) now
            version := 1
            idempotencyKey := key.filter (· ≠ "") })) := by
  simp only [Backend.step] at h
  split at h
  · exact absurd h (by simp)
  · rename_i hfresh
    split at h
    · simp only [Option.some_inj, Prod.mk.injEq] at h
      obtain ⟨rfl, rfl⟩ := h
      exact ⟨hfresh, rfl, rfl, rfl, rfl, Or.inl ⟨rfl, _, rfl⟩⟩
    · simp only [Option.some_inj, Prod.mk.injEq] at h
      obtain ⟨rfl, rfl⟩ := h
      exact ⟨hfresh, rfl, rfl, rfl, rfl, Or.inr ⟨rfl, rfl⟩⟩

theorem step_start {c : CallId} {taskId : TaskId} {args : UpdateArgs Ref}
    (h : b.step s (.start c taskId args) = some (s', o)) :
    s.calls c = .idle ∧ s' = s.setCall c (.reading taskId args 0) ∧ o = .inFlight := by
  simp only [Backend.step] at h
  split at h
  · rename_i hidle
    simp only [Option.some_inj, Prod.mk.injEq] at h
    exact ⟨hidle, h.1.symm, h.2.symm⟩
  · exact absurd h (by simp)

theorem step_read {c : CallId} {now : Timestamp}
    (h : b.step s (.read c now) = some (s', o)) :
    ∃ taskId args attempt, s.calls c = .reading taskId args attempt ∧ ∃ h',
      (∃ e, b.updateRead taskId s.heap (s.rows.lookup taskId) args now = (h', .error e) ∧
        s' = { s with heap := h' }.setCall c (.returned (.error e)) ∧ o = .raised taskId e) ∨
      (∃ row values,
        b.updateRead taskId s.heap (s.rows.lookup taskId) args now = (h', .ok (row, values)) ∧
        s' = { s with heap := h' }.setCall c (.writing taskId args attempt now row values) ∧
        o = .inFlight) := by
  simp only [Backend.step] at h
  split at h
  · rename_i taskId args attempt hcall
    refine ⟨taskId, args, attempt, hcall,
      (b.updateRead taskId s.heap (s.rows.lookup taskId) args now).1, ?_⟩
    split at h
    · rename_i e he
      simp only [Option.some_inj, Prod.mk.injEq] at h
      exact Or.inl ⟨e, Prod.ext rfl he, h.1.symm, h.2.symm⟩
    · rename_i row values hv
      simp only [Option.some_inj, Prod.mk.injEq] at h
      exact Or.inr ⟨row, values, Prod.ext rfl hv, h.1.symm, h.2.symm⟩
  · exact absurd h (by simp)

theorem step_write {c : CallId} (h : b.step s (.write c) = some (s', o)) :
    ∃ taskId args attempt now row values, s.calls c = .writing taskId args attempt now row values ∧
      ((∃ row', b.updateWrite taskId (s.rows.lookup taskId) args attempt row values =
            .committed row' ∧
          s' = { s.setCall c (.returned (.ok row'.version)) with
            rows := s.rows.insert taskId row', issued := (taskId, row'.version) :: s.issued } ∧
          o = .committed taskId args now row'.version) ∨
        (b.updateWrite taskId (s.rows.lookup taskId) args attempt row values = .retry ∧
          s' = s.setCall c (.reading taskId args (attempt + 1)) ∧ o = .inFlight) ∨
        (∃ e, b.updateWrite taskId (s.rows.lookup taskId) args attempt row values = .raised e ∧
          s' = s.setCall c (.returned (.error e)) ∧ o = .raised taskId e)) := by
  simp only [Backend.step] at h
  split at h
  · rename_i taskId args attempt now row values hcall
    refine ⟨taskId, args, attempt, now, row, values, hcall, ?_⟩
    split at h <;> rename_i hw <;> simp only [Option.some_inj, Prod.mk.injEq] at h
    · exact Or.inl ⟨_, hw, h.1.symm, h.2.symm⟩
    · exact Or.inr (Or.inl ⟨hw, h.1.symm, h.2.symm⟩)
    · exact Or.inr (Or.inr ⟨_, hw, h.1.symm, h.2.symm⟩)
  · exact absurd h (by simp)

/-- Deletions leave everything but rows alone, and take rows away. -/
structure Deletes (s s' : StorageState) : Prop where
  rows : ∀ id, s'.rows.lookup id = s.rows.lookup id ∨ s'.rows.lookup id = none
  used : s'.used = s.used
  calls : s'.calls = s.calls
  heap : s'.heap = s.heap
  issued : s'.issued = s.issued

theorem Deletes.erase (s : StorageState) (taskId : TaskId) : Deletes s (s.erase taskId) := by
  refine ⟨fun id => ?_, rfl, rfl, rfl, rfl⟩
  by_cases hid : id = taskId
  · subst hid
    exact Or.inr (AList.lookup_erase _ _)
  · exact Or.inl (AList.lookup_erase_ne hid)

theorem Deletes.foldl_erase (ids : List TaskId) (s : StorageState) :
    Deletes s (ids.foldl StorageState.erase s) := by
  induction ids generalizing s with
  | nil => exact ⟨fun _ => Or.inl rfl, rfl, rfl, rfl, rfl⟩
  | cons taskId ids ih =>
    have h₁ := Deletes.erase s taskId
    have h₂ := ih (s.erase taskId)
    refine ⟨fun id => ?_, h₂.used.trans h₁.used, h₂.calls.trans h₁.calls, h₂.heap.trans h₁.heap,
      h₂.issued.trans h₁.issued⟩
    rcases h₂.rows id with h | h
    · rw [List.foldl_cons, h]
      exact h₁.rows id
    · exact Or.inr h

theorem step_delete {taskId : TaskId} (h : b.step s (.delete taskId) = some (s', o)) :
    Deletes s s' ∧ o = .deleted := by
  simp only [Backend.step, Option.some_inj, Prod.mk.injEq] at h
  obtain ⟨rfl, rfl⟩ := h
  exact ⟨Deletes.erase s taskId, rfl⟩

theorem step_deleteContext {contextId : ContextId}
    (h : b.step s (.deleteContext contextId) = some (s', o)) : Deletes s s' ∧ o = .deleted := by
  simp only [Backend.step, Option.some_inj, Prod.mk.injEq] at h
  obtain ⟨rfl, rfl⟩ := h
  exact ⟨Deletes.foldl_erase _ s, rfl⟩

theorem step_getVersion {taskId : TaskId} (h : b.step s (.getVersion taskId) = some (s', o)) :
    s' = { s with issued :=
        ((s.rows.lookup taskId).map (·.version)).toList.map (fun v => (taskId, v)) ++ s.issued } ∧
      o = .version ((s.rows.lookup taskId).map (·.version)) := by
  simp only [Backend.step, Option.some_inj, Prod.mk.injEq] at h
  exact ⟨h.1.symm, h.2.symm⟩

theorem step_expire {contextId : ContextId} {key : String}
    (h : b.step s (.expireIdempotency contextId key) = some (s', o)) :
    Deletes s s' ∧ s'.rows = s.rows ∧ o = .deleted := by
  simp only [Backend.step, Option.some_inj, Prod.mk.injEq] at h
  obtain ⟨rfl, rfl⟩ := h
  exact ⟨⟨fun _ => Or.inl rfl, rfl, rfl, rfl, rfl⟩, rfl, rfl⟩

end Steps

/-! ### Sound backends -/

/-- `cur` is the row that was read, or a later version of it. -/
def Follows (row cur : Row) : Prop :=
  row.version ≤ cur.version ∧ (cur.version = row.version → cur.task = row.task)

/-- What the runs need of the two halves.  `cond` is a condition on what a call may
read, `Checked` what a read has established when it returns a merge. -/
structure Backend.Sound (b : Backend) (cond : UpdateArgs Ref → Row → Prop)
    (Checked : TaskId → UpdateArgs Ref → Row → Prop) : Prop where
  read_ok : ∀ {taskId h stored args now h' row values},
    b.updateRead taskId h stored args now = (h', .ok (row, values)) →
    (∀ r, stored = some r → cond args r) →
    stored = some row ∧ mergeValues h row.task args now = (h', values) ∧ Checked taskId args row
  read_error : ∀ {taskId h stored args now h' e},
    b.updateRead taskId h stored args now = (h', .error e) → h' = h
  write_ok : ∀ {taskId stored args attempt row values row'}, Checked taskId args row →
    (∀ cur, stored = some cur → Follows row cur) →
    b.updateWrite taskId stored args attempt row values = .committed row' →
    ∃ cur, stored = some cur ∧ cur.version = row.version ∧
      terminalGuard taskId cur.task.status.state args.state = none ∧
      row' = { cur with task := values.applyTo cur.task, version := cur.version + 1 }

/-- A SQL read has checked the pinned version and the terminal guard. -/
def SQLStorageBase.Checked (taskId : TaskId) (args : UpdateArgs Ref) (row : Row) : Prop :=
  (∀ e, args.expectedVersion = some e → e = row.version) ∧
    terminalGuard taskId row.task.status.state args.state = none

/-- A pinned call reads a version no older than the one it expects. -/
def ReadsExpected (args : UpdateArgs Ref) (row : Row) : Prop :=
  ∀ e, args.expectedVersion = some e → e ≤ row.version

theorem SQLStorageBase.sound :
    SQLStorageBase.backend.Sound (fun _ _ => True) SQLStorageBase.Checked := by
  constructor
  · -- a read that succeeds has checked the version and the guard
    intro taskId h stored args now h' row values hread _
    change SQLStorageBase.updateRead taskId h stored args now = _ at hread
    simp only [SQLStorageBase.updateRead] at hread
    split at hread
    · simp at hread
    · rename_i cur
      split at hread
      · simp at hread
      · rename_i hpin
        split at hread
        · simp at hread
        · rename_i hguard
          simp only [Prod.mk.injEq, Except.ok.injEq] at hread
          obtain ⟨rfl, rfl, rfl⟩ := hread
          exact ⟨rfl, rfl, filter_ne_eq_none.mp hpin, hguard⟩
  · -- a read that fails merges nothing
    intro taskId h stored args now h' e hread
    change SQLStorageBase.updateRead taskId h stored args now = _ at hread
    simp only [SQLStorageBase.updateRead] at hread
    split at hread
    · exact (congrArg Prod.fst hread).symm
    · split at hread
      · exact (congrArg Prod.fst hread).symm
      · split at hread
        · exact (congrArg Prod.fst hread).symm
        · simp at hread
  · -- a write commits only over the version that was read
    intro taskId stored args attempt row values row' hchecked hfollows hwrite
    change SQLStorageBase.updateWrite taskId stored args attempt row values = _ at hwrite
    simp only [SQLStorageBase.updateWrite] at hwrite
    split at hwrite
    · rename_i cur hcur
      obtain ⟨hstored, hver⟩ := Option.filter_eq_some_iff.mp hcur
      have hver' : cur.version = row.version := by simpa using hver
      simp only [WriteOutcome.committed.injEq] at hwrite
      refine ⟨cur, hstored, hver', ?_, ?_⟩
      · rw [(hfollows cur hstored).2 hver']
        exact hchecked.2
      · rw [hver', ← hwrite]
    · split at hwrite <;> simp at hwrite

theorem RedisStorage.sound :
    RedisStorage.backend.Sound ReadsExpected (fun _ => ReadsExpected) := by
  constructor
  · intro taskId h stored args now h' row values hread hcond
    change RedisStorage.updateRead taskId h stored args now = _ at hread
    simp only [RedisStorage.updateRead] at hread
    split at hread
    · simp at hread
    · simp only [Prod.mk.injEq, Except.ok.injEq] at hread
      obtain ⟨rfl, rfl, rfl⟩ := hread
      exact ⟨rfl, rfl, hcond _ rfl⟩
  · intro taskId h stored args now h' e hread
    change RedisStorage.updateRead taskId h stored args now = _ at hread
    simp only [RedisStorage.updateRead] at hread
    split at hread
    · exact (congrArg Prod.fst hread).symm
    · simp at hread
  · intro taskId stored args attempt row values row' hchecked hfollows hwrite
    change RedisStorage.updateWrite taskId stored args attempt row values = _ at hwrite
    simp only [RedisStorage.updateWrite] at hwrite
    split at hwrite
    · rename_i row₁ hlua
      obtain rfl : row₁ = row' := by simpa using hwrite
      simp only [RedisStorage.updateTaskLua] at hlua
      split at hlua
      · simp at hlua
      · rename_i cur
        split at hlua
        · simp at hlua
        · rename_i hocc
          split at hlua
          · simp at hlua
          · rename_i hguard
            have hver : cur.version = row.version := by
              have hle := (hfollows cur rfl).1
              rcases hexp : args.expectedVersion with _ | e
              · simpa [hexp] using hocc
              · have := hchecked e hexp
                simp only [hexp, Option.getD_some, ne_eq, not_not] at hocc
                omega
            refine ⟨cur, rfl, hver, ?_, ?_⟩
            · rcases hstate : args.state with _ | state
              · rfl
              · simpa [hstate, terminalGuard, Option.filter] using hguard
            · exact ((Except.ok.injEq _ _).mp hlua).symm
    · simp at hwrite
    · split at hwrite
      · simp at hwrite
      · split at hwrite <;> simp at hwrite
    · simp at hwrite

/-! ### The invariant -/

/-- A call between its halves. -/
structure InFlight (Checked : TaskId → UpdateArgs Ref → Row → Prop) (s : StorageState)
    (taskId : TaskId) (args : UpdateArgs Ref) (now : Timestamp) (row : Row) (values : Values) :
    Prop where
  used : taskId ∈ s.used
  checked : Checked taskId args row
  merged : ∃ h, (mergeValues h row.task args now).2 = values
  follows : ∀ cur, s.rows.lookup taskId = some cur → Follows row cur

structure StorageInv (Checked : TaskId → UpdateArgs Ref → Row → Prop) (s : StorageState) :
    Prop where
  allocated : ∀ id row, s.rows.lookup id = some row → id ∈ s.used
  inFlight : ∀ c taskId args attempt now row values,
    s.calls c = .writing taskId args attempt now row values →
    InFlight Checked s taskId args now row values

/-- The condition `cond` on what a step reads. -/
def ReadMeets (cond : UpdateArgs Ref → Row → Prop) (s : StorageState) (a : StorageAction) : Prop :=
  ∀ c now taskId args attempt row, a = .read c now → s.calls c = .reading taskId args attempt →
    s.rows.lookup taskId = some row → cond args row

section

variable {b : Backend} {cond : UpdateArgs Ref → Row → Prop}
  {Checked : TaskId → UpdateArgs Ref → Row → Prop} {s s' : StorageState}

/-- A committing write lands on the row that was merged. -/
theorem StorageInv.commit (hb : b.Sound cond Checked) (hs : StorageInv Checked s) {c : CallId}
    {taskId : TaskId} {args : UpdateArgs Ref} {attempt : Nat} {now : Timestamp} {row row' : Row}
    {values : Values} (hcall : s.calls c = .writing taskId args attempt now row values)
    (hwrite : b.updateWrite taskId (s.rows.lookup taskId) args attempt row values =
      .committed row') :
    ∃ cur h, s.rows.lookup taskId = some cur ∧ cur.version = row.version ∧ cur.task = row.task ∧
      terminalGuard taskId cur.task.status.state args.state = none ∧
      values = (mergeValues h cur.task args now).2 ∧
      row' = { cur with task := values.applyTo cur.task, version := cur.version + 1 } := by
  have hflight := hs.inFlight c taskId args attempt now row values hcall
  obtain ⟨cur, hcur, hver, hguard, hrow'⟩ := hb.write_ok hflight.checked hflight.follows hwrite
  obtain ⟨h, hmerged⟩ := hflight.merged
  have htask := (hflight.follows cur hcur).2 hver
  exact ⟨cur, h, hcur, hver, htask, hguard, by rw [htask, hmerged], hrow'⟩

/-- Moving one call keeps the invariant if it is not between its halves. -/
theorem StorageInv.setCall (hs : StorageInv Checked s) (c : CallId) (st : CallState)
    (hst : ∀ taskId args attempt now row values,
      st = .writing taskId args attempt now row values →
      InFlight Checked s taskId args now row values) :
    StorageInv Checked (s.setCall c st) := by
  refine ⟨hs.allocated, fun c' taskId args attempt now row values hcall => ?_⟩
  by_cases hc : c' = c
  · subst hc
    rw [s.setCall_self] at hcall
    obtain ⟨h1, h2, h3, h4⟩ := hst taskId args attempt now row values hcall
    exact ⟨h1, h2, h3, h4⟩
  · rw [s.setCall_of_ne st hc] at hcall
    obtain ⟨h1, h2, h3, h4⟩ := hs.inFlight c' taskId args attempt now row values hcall
    exact ⟨h1, h2, h3, h4⟩

/-- Rows may disappear, and new ids may be drawn. -/
theorem StorageInv.shrink (hs : StorageInv Checked s) (hcalls : s'.calls = s.calls)
    (hused : s.used ⊆ s'.used)
    (hrows : ∀ id row, s'.rows.lookup id = some row →
      s.rows.lookup id = some row ∨ (id ∉ s.used ∧ id ∈ s'.used)) :
    StorageInv Checked s' := by
  refine ⟨fun id row hrow => ?_, fun c taskId args attempt now row values hcall => ?_⟩
  · rcases hrows id row hrow with h | h
    · exact hused (hs.allocated id row h)
    · exact h.2
  · rw [hcalls] at hcall
    have hflight := hs.inFlight c taskId args attempt now row values hcall
    refine ⟨hused hflight.used, hflight.checked, hflight.merged, fun cur hcur => ?_⟩
    rcases hrows taskId cur hcur with h | h
    · exact hflight.follows cur h
    · exact absurd hflight.used h.1

theorem StorageInv.deletes (hs : StorageInv Checked s) (h : Deletes s s') :
    StorageInv Checked s' := by
  refine hs.shrink h.calls (by rw [h.used]; exact List.Subset.refl _) fun id row hrow => ?_
  rcases h.rows id with heq | heq
  · exact Or.inl (by rw [← heq, hrow])
  · exact absurd (heq.symm.trans hrow) (by simp)

theorem StorageInv.step (hb : b.Sound cond Checked) {a : StorageAction} {o : StorageOutcome}
    (hs : StorageInv Checked s) (hok : ReadMeets cond s a) (h : b.step s a = some (s', o)) :
    StorageInv Checked s' := by
  cases a with
  | create taskId contextId message key now =>
    obtain ⟨hfresh, hused, hcalls, -, -, hrows⟩ := step_create h
    refine hs.shrink hcalls (by rw [hused]; exact List.subset_cons_self _ _) fun id row hrow => ?_
    rcases hrows with ⟨hrows, -⟩ | ⟨-, hrows⟩
    · exact Or.inl (by rw [← hrows, hrow])
    · by_cases hid : id = taskId
      · exact Or.inr ⟨hid ▸ hfresh, by rw [hused, hid]; exact List.mem_cons_self⟩
      · rw [hrows, AList.lookup_insert_ne hid] at hrow
        exact Or.inl hrow
  | start c taskId args =>
    obtain ⟨-, rfl, -⟩ := step_start h
    exact hs.setCall c _ (by simp)
  | read c now =>
    obtain ⟨taskId, args, attempt, hcall, h', hcase⟩ := step_read h
    have hheap : StorageInv Checked { s with heap := h' } :=
      hs.shrink rfl (List.Subset.refl _) fun _ _ hrow => Or.inl hrow
    rcases hcase with ⟨e, -, rfl, -⟩ | ⟨row, values, hread, rfl, -⟩
    · exact hheap.setCall c _ (by simp)
    · refine hheap.setCall c _ fun taskId' args' attempt' now' row' values' hst => ?_
      simp only [CallState.writing.injEq] at hst
      obtain ⟨rfl, rfl, rfl, rfl, rfl, rfl⟩ := hst
      obtain ⟨hrow, hmerge, hchecked⟩ := hb.read_ok hread fun r hr =>
        hok c now taskId args attempt r rfl hcall hr
      refine ⟨hs.allocated _ _ hrow, hchecked, ⟨s.heap, by rw [hmerge]⟩, fun cur hcur => ?_⟩
      have : cur = row := Option.some_inj.mp (hcur.symm.trans hrow)
      subst this
      exact ⟨le_rfl, fun _ => rfl⟩
  | write c =>
    obtain ⟨taskId, args, attempt, now, row, values, hcall, hcase⟩ := step_write h
    rcases hcase with ⟨row', hwrite, rfl, -⟩ | ⟨-, rfl, -⟩ | ⟨e, -, rfl, -⟩
    · obtain ⟨cur, hheap, hcur, hver, htask, -, -, hrow'⟩ := hs.commit hb hcall hwrite
      have hver' : row'.version = cur.version + 1 := by rw [hrow']
      have hset := hs.setCall c (.returned (.ok row'.version)) (by simp)
      refine ⟨fun id r hr => ?_, fun c' id args' att' now' r values' hcall' => ?_⟩
      · by_cases hid : id = taskId
        · rw [hid]
          exact hs.allocated taskId cur hcur
        · exact hs.allocated id r (by rw [← hr]; exact (AList.lookup_insert_ne hid).symm)
      · have hflight := hset.inFlight c' id args' att' now' r values' hcall'
        refine ⟨hflight.used, hflight.checked, hflight.merged, fun cur' hcur' => ?_⟩
        by_cases hid : id = taskId
        · -- the committed row is newer than anything read before
          subst hid
          have hnew : cur' = row' := by
            have := (AList.lookup_insert (a := id) (b := row') s.rows).symm.trans hcur'
            exact (Option.some_inj.mp this).symm
          have hle := (hflight.follows cur hcur).1
          rw [hnew]
          exact ⟨by omega, fun heq => by omega⟩
        · exact hflight.follows cur' (by rw [← hcur']; exact (AList.lookup_insert_ne hid).symm)
    · exact hs.setCall c _ (by simp)
    · exact hs.setCall c _ (by simp)
  | delete taskId => exact hs.deletes (step_delete h).1
  | deleteContext contextId => exact hs.deletes (step_deleteContext h).1
  | getVersion taskId =>
    obtain ⟨rfl, -⟩ := step_getVersion h
    exact hs.shrink rfl (List.Subset.refl _) fun _ _ hrow => Or.inl hrow
  | expireIdempotency contextId key => exact hs.deletes (step_expire h).1

end

end A2AKit
