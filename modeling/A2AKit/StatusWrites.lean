/-
What a write does to the status.

The arguments about the order of events do not ask which artifacts a write stores, only
what it does to the version and to the status of the stored task.  `StatusCommit` is that
part of a commit, the same on all three storages, and `StatusRule` the rule for a call of
`update_task` in these terms: an assertion that survives the merges is given up at the
commit, on the row that is stored at that moment.

`Known` versions are those the storage has handed out before; with them a merge is never
committed over a row that it was not made from.
-/
import A2AKit.Discipline

namespace A2AKit

/-- The status that a write leaves. -/
def nextStatus (status : TaskStatus) (args : UpdateArgs Ref) (now : Timestamp) : TaskStatus :=
  match args.state, args.statusMessage with
  | some state, message => { state, timestamp := now, message }
  | none, some message => { status with timestamp := now, message := some message }
  | none, none => status

section

variable {args : UpdateArgs Ref} {status : TaskStatus} {now : Timestamp}

theorem nextStatus_state : (nextStatus status args now).state = args.state.getD status.state := by
  rw [nextStatus]
  rcases args.state with _ | state
  · rcases args.statusMessage with _ | message <;> rfl
  · rfl

theorem updatedTask_status (h : Heap) (task : Task) :
    (InMemoryStorage.updatedTask h task args now).status = nextStatus task.status args now := by
  rw [InMemoryStorage.updatedTask, nextStatus]
  rcases args.state with _ | state
  · rcases args.statusMessage with _ | message <;> rfl
  · rfl

theorem mergeValues_status (h : Heap) (task : Task) :
    ((mergeValues h task args now).2.applyTo task).status = nextStatus task.status args now := by
  rw [mergeValues, nextStatus]
  rcases args.state with _ | state
  · rcases args.statusMessage with _ | message <;> rfl
  · rfl

end

/-- A commit of `args` over `row`, as far as version and status are concerned. -/
structure StatusCommit (taskId : TaskId) (args : UpdateArgs Ref) (row row' : Row) : Prop where
  version : row'.version = row.version + 1
  guard : terminalGuard taskId row.task.status.state args.state = none
  pinned : ∀ e, args.expectedVersion = some e → e = row.version
  status : ∃ now, row'.task.status = nextStatus row.task.status args now

/-- The merge of a split storage, up to its commit. -/
structure Honest (taskId : TaskId) (b : SplitStorage) (args : UpdateArgs Ref) (row : Row)
    (values : Values) (w : World) : Prop where
  checked : b.Checked taskId args row
  merged : ∃ h now, values = (mergeValues h row.task args now).2
  follows : ∀ cur, w.row = some cur → Follows row cur

section

variable {T : Setting} {b : SplitStorage} {site : Site} {args : UpdateArgs Ref} {row row' : Row}
  {values : Values} {attempt : Nat} {w w' : World}

theorem EnvStep.follows (h : EnvStep T w w') (hw : ∀ cur, w.row = some cur → Follows row cur) :
    ∀ cur, w'.row = some cur → Follows row cur := by
  cases h with
  | @write cur heap args' now _ hrow _ =>
    intro cur' hcur'
    obtain rfl := Option.some_inj.mp hcur'
    have hle : row.version ≤ cur.version := (hw cur hrow).1
    constructor
    · show row.version ≤ cur.version + 1
      omega
    · intro heq
      have heq' : cur.version + 1 = row.version := heq
      omega
  | delete _ => exact fun cur hcur => nomatch hcur
  | bus _ hbus =>
    obtain ⟨out, -, rfl⟩ := World.busStep_some hbus
    exact hw
  | _ => exact hw

theorem stable_honest (taskId : TaskId) : T.Stable (Honest taskId b args row values) :=
  fun _ _ hstep hw => ⟨hw.checked, hw.merged, hstep.follows hw.follows⟩

/-- A read that returns a merge. -/
theorem Honest.of_read {taskId : TaskId} {h' : Heap} (hread : b.backend.updateRead taskId w.heap w.row args
      w.ambient.now = (h', .ok (row, values)))
    (hseen : ∀ r, w.row = some r → ReadsExpected args r) :
    Honest taskId b args row values { w with heap := h' } := by
  obtain ⟨hrow, hmerge, hchecked⟩ := b.sound.read_ok hread hseen
  refine ⟨hchecked, ⟨w.heap, w.ambient.now, by rw [hmerge]⟩, fun cur hcur => ?_⟩
  obtain rfl : row = cur := Option.some_inj.mp (hrow.symm.trans hcur)
  exact ⟨le_refl _, fun _ => rfl⟩

/-- A pinned write commits only over the version it expects. -/
theorem SplitStorage.pinned_of_committed {taskId : TaskId} {cur : Row}
    (hchecked : b.Checked taskId args row) (hver : cur.version = row.version)
    (hwrite : b.backend.updateWrite taskId (some cur) args attempt row values = .committed row') :
    ∀ e, args.expectedVersion = some e → e = cur.version := by
  intro e he
  cases b with
  | sql =>
    have hpin : e = row.version := hchecked.1 e he
    exact hpin.trans hver.symm
  | redis =>
    change RedisStorage.updateWrite taskId (some cur) args attempt row values = _ at hwrite
    simp only [RedisStorage.updateWrite, RedisStorage.updateTaskLua, he, Option.getD_some] at hwrite
    by_cases hne : cur.version = e
    · exact hne.symm
    · simp [hne] at hwrite

/-- A guarded write commits over the row it has merged. -/
theorem Honest.commit {taskId : TaskId} (hw : Honest taskId b args row values w)
    (hwrite : b.backend.updateWrite taskId w.row args attempt row values = .committed row') :
    ∃ cur, w.row = some cur ∧ StatusCommit taskId args cur row' := by
  obtain ⟨cur, hcur, hver, hguard, rfl⟩ := b.sound.write_ok hw.checked hw.follows hwrite
  obtain ⟨h, now, rfl⟩ := hw.merged
  have htask : cur.task = row.task := (hw.follows cur hcur).2 hver
  refine ⟨cur, hcur, rfl, hguard, ?_, now, ?_⟩
  · rw [hcur] at hwrite
    exact SplitStorage.pinned_of_committed hw.checked hver hwrite
  · rw [← htask]
    exact mergeValues_status h cur.task

/-- A write of `InMemoryStorage` commits, or leaves the world alone. -/
theorem World.perform_update {taskId : TaskId} {cfg : BusConfig} {r : Except StorageError Nat}
    (h : World.perform cfg taskId (.update site args) w = some (w', r)) :
    (∃ e, r = .error e ∧ w' = w ∧ Refused args w.row e) ∨
      ∃ row row', w.row = some row ∧ r = .ok row'.version ∧ StatusCommit taskId args row row' ∧
        w' = { w with row := some row', written := w.written ++ args.state.toList } := by
  simp only [World.perform] at h
  split at h
  · rename_i hrow
    obtain ⟨rfl, rfl⟩ := Prod.mk.inj (Option.some_inj.mp h)
    exact Or.inl ⟨_, rfl, rfl, .notFound hrow⟩
  · rename_i row hrow
    split at h
    · rename_i herr
      obtain ⟨rfl, rfl⟩ := Prod.mk.inj (Option.some_inj.mp h)
      refine Or.inl ⟨_, rfl, rfl, ?_⟩
      rw [hrow]
      exact InMemoryStorage.refused herr
    · rename_i task version hok
      obtain ⟨rfl, rfl⟩ := Prod.mk.inj (Option.some_inj.mp h)
      obtain ⟨t, v, hstored, rfl, rfl, hpin, hguard⟩ := InMemoryStorage.updateTask_ok hok
      obtain ⟨rfl, rfl⟩ := Prod.mk.inj (Option.some_inj.mp hstored)
      exact Or.inr ⟨row, _, hrow, rfl, ⟨rfl, hguard, hpin, _, updatedTask_status _ _⟩, rfl⟩

end

/-! ### The rule -/

/-- What a call of `update_task` needs of assertions that do not look at artifacts.  `A` is
what the run is assumed to meet where an operation of the call is performed. -/
structure StatusRule (T : Setting) (req : {β : Type} → Op β → World → Prop) (k : StorageKind)
    (site : Site) (args : UpdateArgs Ref) (A J : World → Prop) (C : Nat → World → Prop)
    (X : Exc → World → Prop) : Prop where
  stable : T.Stable J
  stable_commit : ∀ v, T.Stable (C v)
  stable_raise : ∀ x, T.Stable (X x)
  admits_update : ∀ w, T.ok (.update site args) w → A w
  admits_read : ∀ b w, T.ok (.updateRead b site args) w → A w
  admits_write : ∀ b attempt row values w, T.ok (.updateWrite b site args attempt row values) w → A w
  merge : ∀ w h, J w → J { w with heap := h }
  seen : ∀ w row, J w → w.row = some row → ReadsExpected args row
  req_await : ∀ pt w, req (.await pt) w
  req_read : ∀ b w, req (.updateRead b site args) w
  req_update : ∀ w, J w → A w → req (.update site args) w
  req_write : ∀ b attempt row values w, J w → A w → Honest T.taskId b args row values w →
    req (.updateWrite b site args attempt row values) w
  commit : ∀ w row row', J w → A w → w.row = some row → StatusCommit T.taskId args row row' →
    C row'.version { w with row := some row', written := w.written ++ args.state.toList }
  refused : ∀ w e, J w → A w → Refused args w.row e → X (.storage e) w
  cancelled : ∀ w, J w → X .cancelled w
  interrupted : ∀ v w, C v w → T.ok (.await (.committed site args)) w → w.interrupted = true →
    X .cancelled w

theorem StatusRule.steps {T : Setting} {req : {β : Type} → Op β → World → Prop} {k : StorageKind}
    {site : Site} {args : UpdateArgs Ref} {A J : World → Prop} {C : Nat → World → Prop}
    {X : Exc → World → Prop} (hr : StatusRule T req k site args A J C X) :
    UpdateSteps T req k site args J
      (fun row values w => J w ∧ ∃ b, k = .split b ∧ Honest T.taskId b args row values w) C X where
  stable := hr.stable
  stable_merged row values := by
    refine hr.stable.and fun w w' hstep => ?_
    rintro ⟨b, hk, hw⟩
    exact ⟨b, hk, stable_honest T.taskId w w' hstep hw⟩
  stable_commit := hr.stable_commit
  stable_raise := hr.stable_raise
  req_await := hr.req_await
  req_update w hw hok := hr.req_update w hw (hr.admits_update w hok)
  req_read b w _ _ := hr.req_read b w
  req_write := by
    rintro b attempt row values w hk ⟨hw, b', hk', hhonest⟩ hok
    obtain rfl : b = b' := StorageKind.split.inj (hk.symm.trans hk')
    exact hr.req_write b attempt row values w hw (hr.admits_write b attempt row values w hok) hhonest
  -- in memory the update is one operation, which commits or is refused
  update w w' r _ hw hok hperf := by
    have hA := hr.admits_update w hok
    rcases World.perform_update hperf with ⟨e, rfl, rfl, href⟩ | ⟨row, row', hrow, rfl, hcommit, rfl⟩
    · exact hr.refused _ e hw hA href
    · exact hr.commit w row row' hw hA hrow hcommit
  read b w w' out hk hw hok hperf := by
    obtain ⟨rfl, hout⟩ := Prod.mk.inj (Option.some_inj.mp hperf)
    rcases out with e | ⟨row, values⟩
    · have hread : b.backend.updateRead T.taskId w.heap w.row args w.ambient.now =
          (w.heap, .error e) :=
        Prod.ext (b.sound.read_error (Prod.ext rfl hout)) hout
      rw [hread]
      exact hr.refused w e hw (hr.admits_read b w hok) (SplitStorage.refused_read hread)
    · refine ⟨hr.merge w _ hw, b, hk, ?_⟩
      exact Honest.of_read (Prod.ext rfl hout) fun r hr' => hr.seen w r hw hr'
  -- an honest merge that is written is a commit to the row that is there now
  write b attempt row values w w' out hk := by
    rintro ⟨hw, b', hk', hhonest⟩ hok hperf
    obtain rfl : b = b' := StorageKind.split.inj (hk.symm.trans hk')
    have hA := hr.admits_write b attempt row values w hok
    simp only [World.perform] at hperf
    split at hperf
    · rename_i row' hwrite
      obtain ⟨rfl, rfl⟩ := Prod.mk.inj (Option.some_inj.mp hperf)
      obtain ⟨cur, hcur, hcommit⟩ := hhonest.commit hwrite
      exact hr.commit w cur row' hw hA hcur hcommit
    · rename_i hlost
      obtain ⟨rfl, rfl⟩ := Prod.mk.inj (Option.some_inj.mp hperf)
      rcases hout : b.backend.updateWrite T.taskId w.row args attempt row values with row' | _ | e
      · exact absurd hout (hlost row')
      · exact hw
      · exact hr.refused w e hw hA (SplitStorage.refused_write hhonest.checked hout)
  cancelled w hw _ := hr.cancelled w hw
  lost := fun _ _ w hw _ _ => hr.cancelled w hw.1
  interrupted := hr.interrupted

/-! ### Known versions -/

/-- A version that the storage has handed out. -/
def Known (v : Option Nat) (w : World) : Prop :=
  ∀ n, v = some n → ∀ row, w.row = some row → n ≤ row.version

theorem known_none (w : World) : Known none w := fun _ h => nomatch h

theorem quiet_known {T : Setting} (v : Option Nat) : Quiet T (Known v) where
  stable w w' hstep hw n hn := by
    cases hstep with
    | @write row heap args now _ hrow _ =>
      intro row' hrow'
      obtain rfl := Option.some_inj.mp hrow'
      have hle : n ≤ row.version := hw n hn row hrow
      show n ≤ row.version + 1
      omega
    | delete _ => exact fun row hrow => nomatch hrow
    | bus _ hbus =>
      obtain ⟨out, -, rfl⟩ := World.busStep_some hbus
      exact hw n hn
    | _ => exact hw n hn
  keep e w w' b he _ hperf hw n hn row hrow := by
    rw [((World.performed hperf).of_quiet he).1] at hrow
    exact hw n hn row hrow

/-- What an argument about the stream of events has to show: `J` between the writes, and
`O st` from the commit of an end `st` to its marker. -/
structure StreamRule (T : Setting) (req : {β : Type} → Op β → World → Prop) (J : World → Prop)
    (O : TaskState → World → Prop) : Prop where
  req_quiet : ∀ {β : Type} (e : Op β) w, e.quiet = true → req e w
  req_update : ∀ site args w, req (.update site args) w
  req_read : ∀ b site args w, req (.updateRead b site args) w
  req_write : ∀ b site args attempt row values w, Honest T.taskId b args row values w →
    req (.updateWrite b site args attempt row values) w
  quiet : Quiet T J
  open_ : ∀ st, Quiet T (O st)
  merge : ∀ w h, J w → J { w with heap := h }
  commit : ∀ (args : UpdateArgs Ref) w row row', J w → w.row = some row →
    StatusCommit T.taskId args row row' →
    match args.ending with
    | none => J { w with row := some row', written := w.written ++ args.state.toList }
    | some st => O st { w with row := some row', written := w.written ++ args.state.toList }
  interrupted : ∀ site args st w, args.ending = some st → O st w →
    T.ok (.await (.committed site args)) w → w.interrupted = true → J w
  req_marker : ∀ taskId contextId status w, O status.state w →
    req (.publish (.terminalMarker taskId contextId status)) w
  marker : ∀ taskId contextId status w w' id, O status.state w →
    T.ok (.publish (.terminalMarker taskId contextId status)) w →
    World.perform T.cfg T.taskId (.publish (.terminalMarker taskId contextId status)) w =
      some (w', id) → J w'

namespace StreamRule

variable {T : Setting} {req : {β : Type} → Op β → World → Prop} {J : World → Prop}
  {O : TaskState → World → Prop}

theorem known_commit {taskId : TaskId} {args : UpdateArgs Ref} {row row' : Row} {w : World}
    {v : Option Nat} {written : List TaskState} (hw : Known v w) (hrow : w.row = some row)
    (hcommit : StatusCommit taskId args row row') :
    Known v { w with row := some row', written } := by
  intro n hn r hr
  obtain rfl := Option.some_inj.mp hr
  have hle : n ≤ row.version := hw n hn row hrow
  have hver : row'.version = row.version + 1 := hcommit.version
  omega

/-- A commit, with the version it returns. -/
theorem afterWrite (hr : StreamRule T req J O) {args : UpdateArgs Ref} {w : World} {row row' : Row}
    (hw : J w) (hrow : w.row = some row) (hcommit : StatusCommit T.taskId args row row') :
    AfterWrite J Known O args row'.version
      { w with row := some row', written := w.written ++ args.state.toList } := by
  have h := hr.commit args w row row' hw hrow hcommit
  rw [AfterWrite]
  rcases hending : args.ending with _ | st
  · rw [hending] at h
    refine ⟨h, fun n hn r hr => ?_⟩
    obtain rfl := Option.some_inj.mp hr
    obtain rfl := Option.some_inj.mp hn
    exact le_refl _
  · rw [hending] at h
    exact h

/-- What an error reports is a version of the stored row. -/
theorem reported {site : Site} {args : UpdateArgs Ref} {e : StorageError} {w : World}
    (h : Refused args w.row e) :
    Reported Known (fun v => Known (some v)) site args (.storage e) w := by
  cases h with
  | notFound _ => trivial
  | terminal _ _ => trivial
  | @conflict message current _ hcurrent =>
    rcases current with _ | v
    · trivial
    have hknown : Known (some v) w := by
      obtain ⟨row, hrow, hver⟩ := hcurrent v rfl
      intro n hn row' hrow'
      obtain rfl := Option.some_inj.mp hn
      obtain rfl := Option.some_inj.mp (hrow.symm.trans hrow')
      exact hver.ge
    cases site with
    | turn buffered second =>
      cases second with
      | true | false =>
        simp only [Reported]
        split
        · exact hknown
        · exact hknown
    | _ => trivial

/-- A call of `update_task`. -/
theorem statusRule (hr : StreamRule T req J O) (k : StorageKind) (site : Site) (args : UpdateArgs Ref)
    (v₀ : Option Nat) :
    StatusRule T req k site args (fun _ => True)
      (fun w => J w ∧ Known v₀ w ∧ Known args.expectedVersion w)
      (fun v w => AfterWrite J Known O args v w ∧ Known v₀ w)
      (fun x w => J w ∧ Known v₀ w ∧ Reported Known (fun v => Known (some v)) site args x w) where
  stable := (hr.quiet.and ((quiet_known v₀).and (quiet_known _))).stable
  stable_commit v := (stable_afterWrite hr.quiet quiet_known hr.open_ args v).and
    (quiet_known v₀).stable
  stable_raise x := (hr.quiet.and ((quiet_known v₀).and
    (quiet_reported quiet_known (fun v => quiet_known (some v)) site args x))).stable
  admits_update _ _ := trivial
  admits_read _ _ _ := trivial
  admits_write _ _ _ _ _ _ := trivial
  merge w h hw := ⟨hr.merge w h hw.1, hw.2⟩
  seen w row hw hrow e he := hw.2.2 e he row hrow
  req_await pt w := hr.req_quiet (.await pt) w rfl
  req_read b w := hr.req_read b site args w
  req_update w _ _ := hr.req_update site args w
  req_write b attempt row values w _ _ hw := hr.req_write b site args attempt row values w hw
  commit w row row' hw _ hrow hcommit :=
    ⟨hr.afterWrite hw.1 hrow hcommit, known_commit hw.2.1 hrow hcommit⟩
  refused w e hw _ href := ⟨hw.1, hw.2.1, reported href⟩
  cancelled w hw := ⟨hw.1, hw.2.1, trivial⟩
  interrupted v w hw hok hi := by
    refine ⟨?_, hw.2, trivial⟩
    have h := hw.1
    rw [AfterWrite] at h
    split at h
    · exact h.1
    · rename_i st hst
      exact hr.interrupted site args st w hst h hok hi

theorem discipline (hr : StreamRule T req J O) (k : StorageKind) :
    Discipline T req k (fun _ => True) J Known (fun v => Known (some v)) O where
  quiet := hr.quiet
  known := quiet_known
  seen v := quiet_known (some v)
  open_ := hr.open_
  req_quiet e w he _ := hr.req_quiet e w he
  version w _ _ n hn row hrow := by
    rw [hrow] at hn
    obtain rfl := Option.some_inj.mp hn
    exact le_refl _
  fresh _ _ _ _ hw _ _ := hw
  write site args v₀ _ := ⟨_, (hr.statusRule k site args v₀).steps⟩
  marker taskId contextId status w hw hok :=
    ⟨hr.req_marker taskId contextId status w hw,
      fun w' id hperf => hr.marker taskId contextId status w w' id hw hok hperf⟩

end StreamRule

end A2AKit
