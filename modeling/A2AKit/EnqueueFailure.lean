/-
`_enqueue_or_fail`: a broker error after the submission.

The call into the broker may have raised although the operation has reached the queue, so a
worker may be running it while the handler decides what to do.  The handler therefore reads
the version, loads the task, and writes `failed` under that version only if the task was still
submitted.  Whatever the worker, a canceller or another writer do in between, `failed` is
written over a submitted task or not at all, and it is announced by exactly one marker
(`enqueue_failure_guarded`).
-/
import A2AKit.Announcements
import A2AKit.SubmitRule

namespace A2AKit

open Act (Triple)

/-- What the worker, cancellers and other writers do while a background task of the task
manager runs.  They delete nothing, and they have their own records. -/
structure Meanwhile (o o' : Office Unit) : Prop where
  row : MovesOn o.world.row o'.world.row
  stays : o.world.row.isSome = true → o'.world.row.isSome = true
  inScope : o'.world.inScope = o.world.inScope
  written : o'.world.written = o.world.written
  published : o'.world.published = o.world.published

/-- The write is one of `failed`, it names a version, and if that version is stored, the task
is submitted. -/
def OverSubmitted (args : UpdateArgs Ref) (r : Option Row) : Prop :=
  args.state = some .failed ∧ ∃ n, args.expectedVersion = some n ∧
    ∀ row, r = some row → row.version = n → row.task.status.state = .submitted

/-- Every write of the program is one of `failed` over a submitted task. -/
def FailsSubmitted (taskId : TaskId) {β : Type} (e : Call β) (o : Office Unit) : Prop :=
  match e with
  | .inl (.update _ args) => OverSubmitted args o.world.row
  | .inl (.updateWrite b _ args _ row values) =>
    Honest taskId b args row values o.world ∧ OverSubmitted args o.world.row
  | _ => True

def backgroundSystem (cfg : BusConfig) (taskId : TaskId) : System Call (Office Unit) where
  perform := Office.perform cfg taskId ()
  env := Meanwhile
  ok := fun _ _ => True
  req := FailsSubmitted taskId

/-- The version that a write names. -/
def expectedBy {β : Type} : Call β → Option Nat
  | .inl (.update _ args) => args.expectedVersion
  | .inl (.updateWrite _ _ args _ _ _) => args.expectedVersion
  | _ => none

section

variable {cfg : BusConfig} {taskId : TaskId} {ws es : List TaskState} {o o' : Office Unit}

/-- A commit that meets its requirement. -/
theorem OverSubmitted.commit {args : UpdateArgs Ref} {row row' : Row} {w w' : World}
    (h : OverSubmitted args w.row) (hrow : w.row = some row)
    (hcommit : TaskCommit taskId args row row')
    (hw' : w' = { w with row := some row', written := w.written ++ args.state.toList }) :
    w'.written = w.written ++ [.failed] ∧
      ∃ row row', w.row = some row ∧ w'.row = some row' ∧
        args.expectedVersion = some row.version ∧ row'.version = row.version + 1 ∧
        row.task.status.state = .submitted ∧ row'.task.status.state = .failed := by
  obtain ⟨hstate, n, hn, hsub⟩ := h
  obtain rfl : n = row.version := hcommit.pinned n hn
  obtain ⟨now, hstatus⟩ := hcommit.status
  subst hw'
  refine ⟨by rw [hstate]; rfl, row, row', hrow, rfl, hn, hcommit.version, hsub row hrow rfl, ?_⟩
  rw [hstatus, nextStatus_state, hstate, Option.getD_some]

/-- An operation that meets its requirement, and writes a state. -/
theorem FailsSubmitted.commit {β : Type} {e : Call β} {b : β} {o₁ o₂ : Office Unit}
    (hreq : FailsSubmitted taskId e o₁) (hperf : Office.perform cfg taskId () e o₁ = some (o₂, b))
    (hwritten : o₂.world.written ≠ o₁.world.written) :
    o₂.world.written = o₁.world.written ++ [.failed] ∧
      ∃ row row', o₁.world.row = some row ∧ o₂.world.row = some row' ∧
        expectedBy e = some row.version ∧ row'.version = row.version + 1 ∧
        row.task.status.state = .submitted ∧ row'.task.status.state = .failed := by
  rcases e with e | e
  · obtain ⟨hworld, -⟩ := Office.perform_op hperf
    have hwrites : WritesOf taskId (fun args => OverSubmitted args o₁.world.row ∧
        expectedBy (.inl e : Call β) = args.expectedVersion) e o₁.world := by
      cases e with
      | update site args => exact ⟨hreq, rfl⟩
      | updateWrite b site args attempt row values => exact ⟨hreq.1, hreq.2, rfl⟩
      | _ => trivial
    rcases hwrites.perform hworld with
      ⟨-, hsame⟩ | ⟨args, row, row', ⟨hargs, hversion⟩, hrow, hcommit, hw'⟩
    · exact absurd hsame hwritten
    · rw [hversion]
      exact OverSubmitted.commit hargs hrow hcommit hw'
  · -- beside the task nothing is written
    cases e with
    | createTask contextId message =>
      simp only [Office.perform] at hperf
      split at hperf
      · rw [← (Prod.mk.inj (Option.some_inj.mp hperf)).1] at hwritten
        exact absurd rfl hwritten
      · rw [← (Prod.mk.inj (Option.some_inj.mp hperf)).1] at hwritten
        exact absurd rfl hwritten
    | enqueue message =>
      rw [← (Prod.mk.inj (Option.some_inj.mp hperf)).1] at hwritten
      exact absurd rfl hwritten
    | runTask =>
      rw [← (Prod.mk.inj (Option.some_inj.mp hperf)).1] at hwritten
      exact absurd rfl hwritten

/-! ### The handler, step by step -/

/-- The background task is in no cancel scope; `ws` was written and `es` announced. -/
structure Books (ws es : List TaskState) (o : Office Unit) : Prop where
  outside : o.world.inScope = false
  written : o.world.written = ws
  announced : o.world.announcedEnds = es

theorem Meanwhile.books (h : Meanwhile o o') (ho : Books ws es o) : Books ws es o' := by
  refine ⟨h.inScope.trans ho.outside, h.written.trans ho.written, ?_⟩
  rw [World.announcedEnds, h.published]
  exact ho.announced

theorem Books.calm (ho : Books ws es o) : o.world.interrupted = false :=
  not_interrupted_of_outside ho.outside

/-- The task has ended as failed, and its marker is missing. -/
def Owing (ws es : List TaskState) (o : Office Unit) : Prop :=
  Books (ws ++ [.failed]) es o ∧
    ∃ row, o.world.row = some row ∧ row.task.status.state = .failed

theorem Meanwhile.owing (h : Meanwhile o o') (ho : Owing ws es o) : Owing ws es o' := by
  obtain ⟨hbooks, row, hrow, hfailed⟩ := ho
  refine ⟨h.books hbooks, ?_⟩
  obtain ⟨row', hrow'⟩ := Option.isSome_iff_exists.mp (h.stays (by rw [hrow]; rfl))
  refine ⟨row', hrow', ?_⟩
  obtain ⟨cur, hcur, rfl | hlater⟩ := h.row row' hrow'
  · obtain rfl := Option.some_inj.mp (hrow.symm.trans hcur)
    exact hfailed
  · obtain rfl := Option.some_inj.mp (hrow.symm.trans hcur)
    -- a terminal state stays
    rw [hlater.terminal (by rw [hfailed]; rfl), hfailed]

variable (cfg taskId) in
theorem background_hosts : Hosts cfg taskId ((backgroundSystem cfg taskId).comap fun _ => Sum.inl)
    (Office.world (ι := Unit)) :=
  Office.hosts (i := ()) fun _ _ hstep => hstep.row

/-- The task was submitted when it was loaded. -/
theorem Pins.overSubmitted {version : Option Nat} {task : Task} {r : Option Row}
    (message : Message) (hsub : task.status.state = .submitted) (h : Pins version task r) :
    OverSubmitted (endingArgs .failed message [] version) r := by
  obtain ⟨n, hn, hpins⟩ := h
  refine ⟨rfl, n, hn, fun row hrow hver => ?_⟩
  rw [(hpins row hrow).2 hver, hsub]

/-- The guarded write of the handler. -/
theorem failRule {version : Option Nat} {task : Task} (message : Message)
    (hsub : task.status.state = .submitted) :
    WriteRule taskId ((backgroundSystem cfg taskId).comap fun _ => Sum.inl)
      (Office.world (ι := Unit)) .other (endingArgs .failed message [] version)
      (fun o => Books ws es o ∧ Pins version task o.world.row) (fun _ => Owing ws es)
      fun _ => Books ws es where
  stable _ _ hstep ho := ⟨hstep.books ho.1, ho.2.movesOn hstep.row⟩
  stable_commit _ _ _ hstep ho := hstep.owing ho
  stable_raise _ _ _ hstep ho := hstep.books ho
  req_await _ _ _ := trivial
  req_update o ho _ := ho.2.overSubmitted message hsub
  req_read _ _ _ _ := trivial
  req_write b attempt row values o ho hhonest _ := ⟨hhonest, ho.2.overSubmitted message hsub⟩
  seen o row ho hrow :=
    Pins.readsExpected (endingArgs .failed message [] version) ho.2 hrow
  merge b o o' out ho hperf := by
    have hworld := (background_hosts cfg taskId).perform _ o o' out hperf
    have ho' := (Prod.mk.inj (Option.some_inj.mp hworld)).1
    exact ⟨⟨by rw [← ho']; exact ho.1.outside, by rw [← ho']; exact ho.1.written,
      by rw [← ho']; exact ho.1.announced⟩, by rw [← ho']; exact ho.2⟩
  commit e o o' b row row' _ ho _ _ hrow ho' hcommit := by
    refine ⟨⟨by rw [ho']; exact ho.1.outside, ?_, by rw [ho']; exact ho.1.announced⟩, row', ?_, ?_⟩
    · rw [ho']
      show o.world.written ++ [.failed] = ws ++ [.failed]
      rw [ho.1.written]
    · rw [ho']
    · obtain ⟨now, hstatus⟩ := hcommit.status
      rw [hstatus]
      rfl
  refused _ _ o e _ ho _ _ _ := ho.1
  cancelled _ o ho _ hi := absurd hi (by simp [ho.1.calm])
  interrupted _ o ho _ hi := absurd hi (by simp [ho.1.calm])

/-- What the load before the write has settled. -/
def FoundAt (ws es : List TaskState) (version : Option Nat) : Option Task → Office Unit → Prop
  | none, o => Books ws es o
  | some task, o => Books ws es o ∧ Pins version task o.world.row

/-- What the load after the write has found. -/
def FoundFailed (ws es : List TaskState) : Option Task → Office Unit → Prop
  | none, _ => False
  | some task, o => task.status.state = .failed ∧ Books (ws ++ [.failed]) es o

/-- `failed` was neither written nor announced, or both, once. -/
def Balanced (ws es : List TaskState) (o : Office Unit) : Prop :=
  Books ws es o ∨ Books (ws ++ [.failed]) (es ++ [.failed]) o

theorem Meanwhile.balanced (h : Meanwhile o o') (ho : Balanced ws es o) : Balanced ws es o' :=
  ho.imp h.books h.books

/-- The marker is published. -/
theorem Books.marker {contextId : ContextId} {status : TaskStatus} {id : Nat}
    (ho : Books ws es o) (hstatus : status.state = .failed)
    (hperf : World.perform cfg taskId (.publish (.terminalMarker taskId contextId status)) o.world =
      some (o'.world, id)) : Books ws (es ++ [.failed]) o' := by
  simp only [World.perform, Option.map_eq_some_iff] at hperf
  obtain ⟨w₁, hbus, hw₁⟩ := hperf
  obtain ⟨out, -, rfl⟩ := World.busStep_some hbus
  have hworld := (Prod.mk.inj hw₁).1
  refine ⟨by rw [← hworld]; exact ho.outside, by rw [← hworld]; exact ho.written, ?_⟩
  rw [← hworld]
  show (o.world.published ++ [_]).filterMap StreamEvent.markerState = es ++ [.failed]
  rw [List.filterMap_append, ← hstatus]
  exact congrArg (· ++ _) ho.announced

theorem announceStored (task : Option Task) :
    Triple (backgroundSystem cfg taskId) (fun _ => FoundFailed ws es task)
      (TaskManager.announceStored taskId task) (fun _ _ => Balanced ws es)
      fun _ _ => Balanced ws es := by
  rcases task with _ | task
  · exact Triple.pure (fun _ _ _ _ ho => ho) fun _ _ ho => ho.elim
  refine Triple.lift (((background_hosts cfg taskId).sendEvent false _
    (J := FoundFailed ws es (some task)) (K := Books (ws ++ [.failed]) (es ++ [.failed]))
    (X := fun _ => False) ?_ ?_ ?_ ?_ ?_ ?_ ?_).conseq (fun _ _ ho => ho)
      (fun _ _ _ ho => Or.inr ho) fun _ _ _ ho => ho.2.elim)
  · exact fun _ _ hstep ho => ⟨ho.1, Meanwhile.books hstep ho.2⟩
  · exact fun _ _ hstep ho => Meanwhile.books hstep ho
  · exact fun _ _ _ ho => ho
  · intro β e o he _
    cases e with
    | update site args => exact nomatch he
    | updateWrite b site args attempt row values => exact nomatch he
    | _ => trivial
  · intro o ho _
    exact ⟨trivial, fun o' id hperf =>
      ho.2.marker ho.1 ((background_hosts cfg taskId).perform _ o o' id hperf)⟩
  · exact fun o ho _ hi => absurd hi (by simp [ho.calm])
  · exact fun _ _ _ ho _ => ho

/-- A load of the handler. -/
theorem loads (k : StorageKind) {J : Office Unit → Prop} {K : Option Task → Office Unit → Prop}
    (hJ : ∀ o o', Meanwhile o o' → J o → J o') (hcalm : ∀ o, J o → o.world.inScope = false)
    (hK : ∀ t o o', Meanwhile o o' → K t o → K t o')
    (hl : ∀ o, J o → K (o.world.row.map Row.task) o) :
    Triple (backgroundSystem cfg taskId) (fun _ => J) (onTask (loadTask k .other))
      (fun t _ => K t) fun _ _ => Balanced ws es :=
  Triple.lift (((background_hosts cfg taskId).loadTask (X := fun _ => False) hJ
    (fun _ _ _ ho => ho) (fun _ _ _ => trivial)
    (fun o ho _ hi => absurd hi (by simp [not_interrupted_of_outside (hcalm o ho)])) k .other hK
    (fun _ _ _ => trivial) fun o ho _ => hl o ho).conseq (fun _ _ ho => ho) (fun _ _ _ ho => ho)
    fun _ _ _ ho => ho.2.elim)

/-- The handler of `_enqueue_or_fail`. -/
theorem failSubmitted_balanced (k : StorageKind) :
    Triple (backgroundSystem cfg taskId) (fun _ => Books ws es)
      (TaskManager.failSubmitted k taskId) (fun _ _ => Balanced ws es)
      fun _ _ => Balanced ws es := by
  -- what others do meanwhile leaves the books, and makes a pinned version stale at most
  have hpinned : ∀ (version : Option Nat) (task : Task) (o o' : Office Unit), Meanwhile o o' →
      Books ws es o ∧ Pins version task o.world.row →
      Books ws es o' ∧ Pins version task o'.world.row :=
    fun _ _ _ _ hstep ho => ⟨hstep.books ho.1, ho.2.movesOn hstep.row⟩
  -- the version is read before the task is loaded
  refine Triple.bind (Q := fun version _ o => Books ws es o ∧ HandedOut version o.world.row)
    (Triple.lift (((background_hosts cfg taskId).getVersion (J := Books ws es)
      (X := fun _ => False) (fun _ _ hstep => hstep.books) (fun _ _ _ ho => ho)
      (fun _ _ _ => trivial) (fun o ho _ hi => absurd hi (by simp [ho.calm])) k
      (fun _ _ _ hstep ho => ⟨Meanwhile.books hstep ho.1, ho.2.movesOn hstep.row⟩)
      (fun _ _ _ => trivial) fun o ho _ => ⟨ho, handedOut_version _⟩).conseq (fun _ _ ho => ho)
      (fun _ _ _ ho => ho) fun _ _ _ ho => ho.2.elim)) fun version => ?_
  refine Triple.bind (Q := fun t _ => FoundAt ws es version t) (loads k
    (fun _ _ hstep ho => ⟨hstep.books ho.1, ho.2.movesOn hstep.row⟩) (fun _ ho => ho.1.outside)
    ?_ ?_) fun task => ?_
  · rintro (_ | task) o o' hstep ho
    · exact hstep.books ho
    · exact hpinned version task o o' hstep ho
  · rintro o ⟨hbooks, hout⟩
    rcases hrow : o.world.row with _ | row
    · exact hbooks
    · rw [hrow] at hout
      exact ⟨hbooks, hrow ▸ hout.pins⟩
  rcases task with _ | task
  · exact Triple.pure (fun _ _ _ hstep ho => Meanwhile.books hstep ho) fun _ _ ho => Or.inl ho
  dsimp only
  split
  · exact Triple.pure (fun _ => hpinned version task) fun _ _ ho => Or.inl ho.1
  rename_i hsub
  refine Triple.bind (Q := fun _ _ o => Books ws es o ∧ Pins version task o.world.row)
    (Triple.lift ((background_hosts cfg taskId).ask (fun w => w.ambient.uuid) (fun _ => rfl)
      (hpinned version task) (fun _ => hpinned version task) (fun _ _ _ => trivial)
      fun o ho _ => ho)) fun messageId => ?_
  -- the write of `failed`: from here on the event is owed, unless it is refused
  refine Triple.bind (Q := fun written _ => if written then Owing ws es else Books ws es)
    (Triple.tryCatch (X := fun _ _ => Books ws es) (Triple.bind (Triple.lift
      ((background_hosts cfg taskId).updateTask (failRule _ (by simpa using hsub)) k)) fun _ =>
      Triple.pure (fun _ _ _ hstep ho => Meanwhile.owing hstep ho) fun _ _ ho => ho) fun x => ?_)
    fun written => ?_
  · have hstable : ∀ _ : Unit, (backgroundSystem cfg taskId).Stable (Books ws es) :=
      fun _ _ _ hstep ho => Meanwhile.books hstep ho
    split
    · exact Triple.pure hstable fun _ _ ho => ho
    · exact Triple.pure hstable fun _ _ ho => ho
    · exact Triple.throw hstable fun _ _ ho => Or.inl ho
  · cases written with
    | false =>
      exact Triple.pure (fun _ _ _ hstep ho => Meanwhile.books hstep ho) fun _ _ ho => Or.inl ho
    | true =>
      -- the task is loaded again for the event
      refine Triple.bind (loads k (J := Owing ws es) (K := FoundFailed ws es)
        (fun _ _ hstep => hstep.owing) (fun _ ho => ho.1.outside) ?_ ?_) announceStored
      · rintro (_ | task) o o' hstep ho
        · exact ho
        · exact ⟨ho.1, hstep.books ho.2⟩
      · rintro o ⟨hbooks, row, hrow, hfailed⟩
        rw [hrow]
        exact ⟨hfailed, hbooks⟩

variable (cfg taskId) in
/-- `_enqueue_or_fail` -/
theorem enqueueOrFail (k : StorageKind) :
    Triple (backgroundSystem cfg taskId) (fun _ => Books ws es)
      (TaskManager.enqueueOrFail k taskId) (fun _ _ => Balanced ws es)
      fun _ _ => Balanced ws es := by
  refine Triple.bind (Q := fun _ _ => Books ws es) (Triple.perform
    (fun _ _ _ hstep ho => Meanwhile.books hstep ho)
    (fun _ _ _ _ hstep ho => Meanwhile.books hstep ho) fun _ o ho _ => ?_) fun raised => ?_
  · refine ⟨trivial, fun o' raised hperf => ?_⟩
    rw [← (Prod.mk.inj (Option.some_inj.mp hperf)).1]
    exact ho
  split
  · refine Triple.tryCatch (failSubmitted_balanced k) fun x => ?_
    split
    · exact Triple.pure (fun _ _ _ hstep ho => Meanwhile.balanced hstep ho) fun _ _ ho => ho
    · exact Triple.throw (fun _ _ _ hstep ho => Meanwhile.balanced hstep ho) fun _ _ ho => ho
  · exact Triple.pure (fun _ _ _ hstep ho => Meanwhile.books hstep ho) fun _ _ ho => Or.inl ho

end

/-- **A broker error never stomps on a live task.**  Whatever the worker, cancellers and other
writers do, a state that `_enqueue_or_fail` writes is `failed`, written over a submitted task at
the version that was read before it was validated; and when it is over, it has published exactly
one marker of `failed` if it has written it, and none otherwise. -/
theorem enqueue_failure_guarded (cfg : BusConfig) (taskId : TaskId) (k : StorageKind)
    (o : Office Unit) (hscope : o.world.inScope = false) :
    (∀ (β : Type) (e : Call β) (b : β) cont o₁ o₂,
      (backgroundSystem cfg taskId).Reaches (TaskManager.enqueueOrFail k taskId (), o)
        (.op e cont, o₁) →
      Office.perform cfg taskId () e o₁ = some (o₂, b) →
      o₂.world.written ≠ o₁.world.written →
      o₂.world.written = o₁.world.written ++ [.failed] ∧
      ∃ row row', o₁.world.row = some row ∧ o₂.world.row = some row' ∧
        expectedBy e = some row.version ∧ row'.version = row.version + 1 ∧
        row.task.status.state = .submitted ∧ row'.task.status.state = .failed) ∧
    ∀ r o', (backgroundSystem cfg taskId).Reaches (TaskManager.enqueueOrFail k taskId (), o)
        (.ret r, o') →
      ∃ sts, (sts = [] ∨ sts = [.failed]) ∧ o'.world.written = o.world.written ++ sts ∧
        o'.world.announcedEnds = o.world.announcedEnds ++ sts := by
  have hwp := enqueueOrFail cfg taskId k () o ⟨hscope, rfl, rfl⟩
  constructor
  · intro β e b cont o₁ o₂ hrun hperf hwritten
    exact (Prog.wp_req hwp hrun trivial : FailsSubmitted taskId e o₁).commit hperf hwritten
  · rintro ⟨r, s⟩ o' hrun
    have hbalanced : Balanced o.world.written o.world.announcedEnds o' := by
      have hpost := Prog.wp_sound hwp hrun
      cases r with
      | ok u => exact hpost
      | error x => exact hpost
    rcases hbalanced with hbooks | hbooks
    · exact ⟨[], Or.inl rfl, by rw [hbooks.written, List.append_nil],
        by rw [hbooks.announced, List.append_nil]⟩
    · exact ⟨[.failed], Or.inr rfl, hbooks.written, hbooks.announced⟩

/-- Subscribers use the bus. -/
theorem meanwhile_bus (o : Office Unit) (bus : InMemoryEventBus (StreamEvent Ref)) :
    Meanwhile o { o with world := { o.world with bus } } :=
  ⟨.refl _, id, rfl, rfl, rfl⟩

/-- A task that waits for a worker, and a broker that raises. -/
def unreachableBroker : Office Unit where
  world :=
    { World.holding { workingTask with status := { state := .submitted, timestamp := "" } } 1 with
      ambient := { now := "", monotonic := 0, uuid := "", raises := true } }

/-- Nobody else acts: the task is marked failed, and its marker is published once. -/
theorem unreachable_broker_fails :
    ∃ o', (backgroundSystem ⟨1, 1, 60⟩ "t").Reaches
        (TaskManager.enqueueOrFail .memory "t" (), unreachableBroker) (.ret (.ok (), ()), o') ∧
      o'.world.written = [.failed] ∧ o'.world.announcedEnds = [.failed] := by
  have hrun : ∃ o', (backgroundSystem ⟨1, 1, 60⟩ "t").Reaches
      (TaskManager.enqueueOrFail .memory "t" (), unreachableBroker) (.ret (.ok (), ()), o') ∧
        o'.world.written ≠ [] := by
    apply Exists.intro
    apply And.intro
    -- the broker call, the version, the task and the message id, then the write and its hooks
    · refine .op trivial rfl (.op trivial rfl (.op trivial rfl (.op trivial rfl (.op trivial rfl ?_))))
      refine .op trivial rfl (.op trivial rfl (.op trivial rfl (.op trivial rfl (.op trivial rfl ?_))))
      -- the task is loaded again, and its marker passes the subscriber lock
      refine .op trivial rfl (.op trivial rfl (.op trivial rfl ?_))
      exact .env (meanwhile_bus _ {}) (.op trivial rfl .refl)
    · exact List.cons_ne_nil _ _
  obtain ⟨o', hrun, hwritten⟩ := hrun
  obtain ⟨sts, hsts, hw, ha⟩ :=
    (enqueue_failure_guarded ⟨1, 1, 60⟩ "t" .memory unreachableBroker rfl).2 _ o' hrun
  rcases hsts with rfl | rfl
  · exact absurd hw hwritten
  · exact ⟨o', hrun, hw, ha⟩

end A2AKit
