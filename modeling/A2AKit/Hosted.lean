/-
The programs of the emitter in any system that hosts the world.

The rules of `Rules` are about one program and other parties that act on the bare world.
The requests of the task manager are verified in larger systems, which record more than the
world holds and in which other requests are programs of their own.  `Hosts S π` says that
`S` works on a world `π w` as `World.perform` does, and that whatever else happens there, the
stored row only moves on (`MovesOn`): it stays, it is deleted, or it becomes a `Later` one.

* `TaskCommit` — what a commit of `update_task` stores, on every storage;
* `TaskCommit.later` — a commit moves the row on;
* `Hosts.updateTask` — the rule for `update_task` of the emitter.
-/
import A2AKit.StatusWrites

namespace A2AKit

open Act (Triple)

/-! ### What a commit stores -/

/-- A commit of `args` over `row`, as far as the artifacts are not concerned. -/
structure TaskCommit (taskId : TaskId) (args : UpdateArgs Ref) (row row' : Row) : Prop
    extends StatusCommit taskId args row row' where
  id : row'.task.id = row.task.id
  contextId : row'.task.contextId = row.task.contextId
  history : row'.task.history = row.task.history ++ args.messages
  idempotencyKey : row'.idempotencyKey = row.idempotencyKey
  metadata : ∀ key, key ∉ args.taskMetadata.entries → key ≠ metaLastModifiedKey →
    row'.task.metadata.entries.lookup key = row.task.metadata.entries.lookup key

/-- `row'` is a later version of the task in `row`. -/
structure Later (row row' : Row) : Prop where
  version : row.version < row'.version
  id : row'.task.id = row.task.id
  contextId : row'.task.contextId = row.task.contextId
  history : row.task.history <+: row'.task.history
  terminal : row.task.status.state.isTerminal = true →
    row'.task.status.state = row.task.status.state

/-- The row stays, is deleted, or becomes a later one. -/
def MovesOn (r r' : Option Row) : Prop :=
  ∀ row', r' = some row' → ∃ row, r = some row ∧ (row' = row ∨ Later row row')

theorem MovesOn.refl (r : Option Row) : MovesOn r r := fun row' h => ⟨row', h, Or.inl rfl⟩

theorem Later.trans {a b c : Row} (h : Later a b) (h' : Later b c) : Later a c where
  version := Nat.lt_trans h.version h'.version
  id := h'.id.trans h.id
  contextId := h'.contextId.trans h.contextId
  history := h.history.trans h'.history
  terminal hterm := by
    have hb := h.terminal hterm
    rw [h'.terminal (by rw [hb]; exact hterm), hb]

theorem MovesOn.trans {a b c : Option Row} (h : MovesOn a b) (h' : MovesOn b c) : MovesOn a c := by
  intro row'' hc
  obtain ⟨row', hb, hlast⟩ := h' row'' hc
  obtain ⟨row, ha, hfirst⟩ := h row' hb
  refine ⟨row, ha, ?_⟩
  rcases hlast with rfl | hlast
  · exact hfirst
  · rcases hfirst with rfl | hfirst
    · exact Or.inr hlast
    · exact Or.inr (hfirst.trans hlast)

section

variable {taskId : TaskId} {cfg : BusConfig} {args : UpdateArgs Ref} {row row' cur : Row}
  {b : SplitStorage} {site : Site} {attempt : Nat} {values : Values} {w w' : World}

theorem TaskCommit.later (h : TaskCommit taskId args row row') : Later row row' where
  version := by
    rw [h.version]
    exact Nat.lt_succ_self _
  id := h.id
  contextId := h.contextId
  history := by
    rw [h.history]
    exact List.prefix_append _ _
  terminal hterm := by
    obtain ⟨now, hstatus⟩ := h.status
    have hguard := h.guard
    rw [hstatus, nextStatus_state]
    rcases hs : args.state with _ | st
    · rfl
    · simp [terminalGuard, hs, hterm] at hguard

theorem TaskCommit.movesOn (h : TaskCommit taskId args row row') :
    MovesOn (some row) (some row') := by
  intro r hr
  obtain rfl := Option.some_inj.mp hr
  exact ⟨row, rfl, Or.inr h.later⟩

/-- The history after a write. -/
theorem updatedTask_history (h : Heap) (task : Task) (now : Timestamp) :
    (InMemoryStorage.updatedTask h task args now).history = task.history ++ args.messages := by
  have hhistory : (if args.messages.isEmpty then task.history else task.history ++ args.messages) =
      task.history ++ args.messages := by
    split
    · rename_i hnil
      rw [List.isEmpty_iff.mp hnil, List.append_nil]
    · rfl
  rw [InMemoryStorage.updatedTask]
  rcases args.state with _ | state
  · rcases args.statusMessage with _ | message <;> exact hhistory
  · exact hhistory

theorem mergeValues_history (h : Heap) (task : Task) (now : Timestamp) :
    ((mergeValues h task args now).2.applyTo task).history = task.history ++ args.messages := by
  have hhistory : (if args.messages.isEmpty then none
      else some (task.history ++ args.messages)).getD task.history =
        task.history ++ args.messages := by
    split
    · rename_i hnil
      rw [List.isEmpty_iff.mp hnil, List.append_nil]
      rfl
    · rfl
  rw [mergeValues]
  rcases args.state with _ | state
  · rcases args.statusMessage with _ | message <;> exact hhistory
  · exact hhistory

variable (args) in
theorem updatedTask_ids (h : Heap) (task : Task) (now : Timestamp) :
    (InMemoryStorage.updatedTask h task args now).id = task.id ∧
      (InMemoryStorage.updatedTask h task args now).contextId = task.contextId := by
  rw [InMemoryStorage.updatedTask]
  rcases args.state with _ | state
  · rcases args.statusMessage with _ | message <;> exact ⟨rfl, rfl⟩
  · exact ⟨rfl, rfl⟩

/-- A metadata entry that the caller does not pass stays. -/
theorem lookup_updatedMetadata {tm : TaskMetadata} {key : String} (md : Metadata)
    (hkey : key ∉ tm.entries) :
    (if tm.isEmpty then md else md.update tm).entries.lookup key = md.entries.lookup key := by
  split
  · rfl
  · exact AList.lookup_union_right hkey

theorem lookup_touch {key : String} (md : Metadata) (now : Timestamp)
    (hkey : key ≠ metaLastModifiedKey) : (md.touch now).entries.lookup key = md.entries.lookup key :=
  AList.lookup_insert_ne hkey

theorem updatedTask_metadata (h : Heap) (task : Task) (now : Timestamp) {key : String}
    (hkey : key ∉ args.taskMetadata.entries) (htouch : key ≠ metaLastModifiedKey) :
    (InMemoryStorage.updatedTask h task args now).metadata.entries.lookup key =
      task.metadata.entries.lookup key := by
  have hupdate := lookup_updatedMetadata task.metadata hkey
  rw [InMemoryStorage.updatedTask]
  rcases args.state with _ | state
  · rcases args.statusMessage with _ | message
    · exact hupdate
    · exact (lookup_touch _ now htouch).trans hupdate
  · exact (lookup_touch _ now htouch).trans hupdate

theorem mergeValues_metadata (h : Heap) (task : Task) (now : Timestamp) {key : String}
    (hkey : key ∉ args.taskMetadata.entries) (htouch : key ≠ metaLastModifiedKey) :
    ((mergeValues h task args now).2.applyTo task).metadata.entries.lookup key =
      task.metadata.entries.lookup key := by
  have hmerged : (if args.taskMetadata.isEmpty then none
      else some (task.metadata.update args.taskMetadata)).getD task.metadata =
        if args.taskMetadata.isEmpty then task.metadata
        else task.metadata.update args.taskMetadata := by
    split <;> rfl
  have hupdate := lookup_updatedMetadata task.metadata hkey
  rw [← hmerged] at hupdate
  rw [mergeValues]
  rcases args.state with _ | state
  · rcases args.statusMessage with _ | message
    · exact hupdate
    · exact (lookup_touch _ now htouch).trans hupdate
  · exact (lookup_touch _ now htouch).trans hupdate

/-- A write of `InMemoryStorage` commits, or leaves the world alone. -/
theorem World.perform_update_task {r : Except StorageError Nat}
    (h : World.perform cfg taskId (.update site args) w = some (w', r)) :
    (∃ e, r = .error e ∧ w' = w ∧ Refused args w.row e) ∨
      ∃ row row', w.row = some row ∧ r = .ok row'.version ∧ TaskCommit taskId args row row' ∧
        w' = { w with row := some row', written := w.written ++ args.state.toList } := by
  rcases World.perform_update h with hfail | ⟨row, row', hrow, rfl, hcommit, rfl⟩
  · exact Or.inl hfail
  refine Or.inr ⟨row, row', hrow, rfl, ?_, rfl⟩
  simp only [World.perform, hrow] at h
  split at h
  · exact absurd (Prod.mk.inj (Option.some_inj.mp h)).2 (by simp)
  · rename_i task version hok
    obtain ⟨t, v, hstored, rfl, rfl, -, -⟩ := InMemoryStorage.updateTask_ok hok
    obtain ⟨rfl, rfl⟩ := Prod.mk.inj (Option.some_inj.mp hstored)
    have hrow' : row' = { row with
        task := InMemoryStorage.updatedTask w.heap row.task args w.ambient.now
        version := row.version + 1 } :=
      (Option.some_inj.mp (World.mk.inj (Prod.mk.inj (Option.some_inj.mp h)).1).1).symm
    obtain ⟨hid, hctx⟩ := updatedTask_ids args w.heap row.task w.ambient.now
    subst hrow'
    exact ⟨hcommit, hid, hctx, updatedTask_history _ _ _, rfl,
      fun _ => updatedTask_metadata _ _ _⟩

/-- A guarded write commits over the row it has merged. -/
theorem Honest.taskCommit (hw : Honest taskId b args row values w)
    (hwrite : b.backend.updateWrite taskId w.row args attempt row values = .committed row') :
    ∃ cur, w.row = some cur ∧ TaskCommit taskId args cur row' := by
  obtain ⟨cur, hcur, hcommit⟩ := hw.commit hwrite
  obtain ⟨cur', hcur', hver, -, rfl⟩ := b.sound.write_ok hw.checked hw.follows hwrite
  obtain rfl := Option.some_inj.mp (hcur.symm.trans hcur')
  obtain ⟨h, now, rfl⟩ := hw.merged
  have htask : cur.task = row.task := (hw.follows cur hcur).2 hver
  refine ⟨cur, hcur, hcommit, rfl, rfl, ?_, rfl, fun key hkey htouch => ?_⟩
  · rw [← htask]
    exact mergeValues_history h cur.task now
  · rw [← htask]
    exact mergeValues_metadata h cur.task now hkey htouch

/-- The outcome of a guarded write. -/
theorem World.perform_write {out : WriteOutcome} (hw : Honest taskId b args row values w)
    (h : World.perform cfg taskId (.updateWrite b site args attempt row values) w =
      some (w', out)) :
    (∃ cur row', w.row = some cur ∧ out = .committed row' ∧ TaskCommit taskId args cur row' ∧
        w' = { w with row := some row', written := w.written ++ args.state.toList }) ∨
      w' = w ∧ (out = .retry ∧ attempt ≠ maxAttempts args - 1 ∨
        ∃ e, out = .raised e ∧ Refused args w.row e) := by
  simp only [World.perform] at h
  split at h
  · rename_i row' hwrite
    obtain ⟨rfl, rfl⟩ := Prod.mk.inj (Option.some_inj.mp h)
    obtain ⟨cur, hcur, hcommit⟩ := hw.taskCommit hwrite
    exact Or.inl ⟨cur, row', hcur, rfl, hcommit, rfl⟩
  · rename_i hlost
    obtain ⟨rfl, rfl⟩ := Prod.mk.inj (Option.some_inj.mp h)
    refine Or.inr ⟨rfl, ?_⟩
    rcases hout : b.backend.updateWrite taskId w.row args attempt row values with row' | _ | e
    · exact absurd hout (hlost row')
    · exact Or.inl ⟨rfl, SplitStorage.retry_attempt hout⟩
    · exact Or.inr ⟨e, rfl, SplitStorage.refused_write hw.checked hout⟩

/-- Rows that move on keep following a row that was read. -/
theorem MovesOn.follows {r r' : Option Row} (h : MovesOn r r')
    (hr : ∀ cur, r = some cur → Follows row cur) : ∀ cur, r' = some cur → Follows row cur := by
  intro cur' hcur'
  obtain ⟨cur, hcur, rfl | hlater⟩ := h cur' hcur'
  · exact hr cur' hcur
  · have hle : row.version ≤ cur.version := (hr cur hcur).1
    have hlt : cur.version < cur'.version := hlater.version
    exact ⟨by omega, fun heq => by omega⟩

end

/-! ### Hosting systems -/

/-- The operation can commit a write. -/
def Op.commits {β : Type} : Op β → Bool
  | .update .. => true
  | .updateWrite .. => true
  | _ => false

/-- The error that a part of `update_task` has answered. -/
def Op.failure : {β : Type} → Op β → β → Option StorageError
  | _, .update .., .error e => some e
  | _, .updateRead .., .error e => some e
  | _, .updateWrite .., .raised e => some e
  | _, _, _ => none

/-- Only a commit changes the row and what was written. -/
theorem World.row_of_perform {cfg : BusConfig} {taskId : TaskId} {β : Type} {e : Op β}
    {w w' : World} {b : β} (h : World.perform cfg taskId e w = some (w', b))
    (he : e.commits = false) : w'.row = w.row ∧ w'.written = w.written := by
  cases e with
  | update site args => exact nomatch he
  | updateWrite b site args attempt row values => exact nomatch he
  | updateRead b site args =>
    rw [← (Prod.mk.inj (Option.some_inj.mp h)).1]
    exact ⟨rfl, rfl⟩
  | publish event =>
    simp only [World.perform, Option.map_eq_some_iff] at h
    obtain ⟨w₁, hbus, hw₁⟩ := h
    obtain ⟨out, -, rfl⟩ := World.busStep_some hbus
    rw [← (Prod.mk.inj hw₁).1]
    exact ⟨rfl, rfl⟩
  | setInScope inScope =>
    rw [← (Prod.mk.inj (Option.some_inj.mp h)).1]
    exact ⟨rfl, rfl⟩
  | _ =>
    obtain ⟨hrow, hwritten, -⟩ := (World.performed h).of_quiet rfl
    exact ⟨hrow, hwritten⟩

/-- The changes that an operation writes are of one kind, and it writes them over the row they were
made from. -/
def WritesOf (taskId : TaskId) (P : UpdateArgs Ref → Prop) {β : Type} (e : Op β) (w : World) :
    Prop :=
  match e with
  | .update _ args => P args
  | .updateWrite b _ args _ row values => Honest taskId b args row values w ∧ P args
  | _ => True

/-- An operation commits such a change, or leaves the row alone. -/
theorem WritesOf.perform {cfg : BusConfig} {taskId : TaskId} {P : UpdateArgs Ref → Prop}
    {β : Type} {e : Op β} {w w' : World} {out : β} (hwrites : WritesOf taskId P e w)
    (h : World.perform cfg taskId e w = some (w', out)) :
    (w'.row = w.row ∧ w'.written = w.written) ∨
      ∃ args row row', P args ∧ w.row = some row ∧ TaskCommit taskId args row row' ∧
        w' = { w with row := some row', written := w.written ++ args.state.toList } := by
  cases e with
  | update site args =>
    rcases World.perform_update_task h with ⟨_, -, rfl, -⟩ | ⟨row, row', hrow, -, hcommit, hw'⟩
    · exact Or.inl ⟨rfl, rfl⟩
    · exact Or.inr ⟨args, row, row', hwrites, hrow, hcommit, hw'⟩
  | updateWrite b site args attempt row values =>
    obtain ⟨hhonest, hargs⟩ := hwrites
    rcases World.perform_write hhonest h with ⟨cur, row', hcur, -, hcommit, hw'⟩ | ⟨rfl, -⟩
    · exact Or.inr ⟨args, cur, row', hargs, hcur, hcommit, hw'⟩
    · exact Or.inl ⟨rfl, rfl⟩
  | _ => exact Or.inl (World.row_of_perform h rfl)

/-- No operation deletes the task. -/
theorem World.isSome_of_perform {cfg : BusConfig} {taskId : TaskId} {β : Type} {e : Op β}
    {w w' : World} {b : β} (h : World.perform cfg taskId e w = some (w', b))
    (hrow : w.row.isSome = true) : w'.row.isSome = true := by
  by_cases he : e.commits = false
  · rw [(World.row_of_perform h he).1]
    exact hrow
  · have hperformed := World.performed h
    cases hperformed with
    | commit _ _ => rfl
    | same => exact hrow
    | _ => exact absurd rfl he

/-- `S` works on the world `π w`, records nothing about an operation that leaves it alone, and
its environment only moves the row on. -/
structure Hosts (cfg : BusConfig) (taskId : TaskId) {W : Type} (S : System Op W) (π : W → World) :
    Prop where
  perform : ∀ {β : Type} (e : Op β) w w' b, S.perform e w = some (w', b) →
    World.perform cfg taskId e (π w) = some (π w', b)
  same : ∀ {β : Type} (e : Op β) w w' b, S.perform e w = some (w', b) → π w' = π w → w' = w
  moves : ∀ w w', S.env w w' → MovesOn (π w).row (π w').row

/-- What a call of `update_task` needs in a hosting system: `J` up to the commit, `C v` once
version `v` is committed, and `X x` when the call has raised `x`. -/
structure WriteRule {W : Type} (taskId : TaskId) (S : System Op W) (π : W → World) (site : Site)
    (args : UpdateArgs Ref) (J : W → Prop) (C : Nat → W → Prop) (X : Exc → W → Prop) : Prop where
  stable : S.Stable J
  stable_commit : ∀ v, S.Stable (C v)
  stable_raise : ∀ x, S.Stable (X x)
  req_await : ∀ pt w, S.ok (.await pt) w → S.req (.await pt) w
  req_update : ∀ w, J w → S.ok (.update site args) w → S.req (.update site args) w
  req_read : ∀ b w, J w → S.ok (.updateRead b site args) w → S.req (.updateRead b site args) w
  req_write : ∀ b attempt row values w, J w → Honest taskId b args row values (π w) →
    S.ok (.updateWrite b site args attempt row values) w →
    S.req (.updateWrite b site args attempt row values) w
  seen : ∀ w row, J w → (π w).row = some row → ReadsExpected args row
  merge : ∀ b w w' out, J w → S.perform (.updateRead b site args) w = some (w', out) → J w'
  commit : ∀ {β : Type} (e : Op β) w w' b row row', e.commits = true → J w → S.ok e w →
    S.perform e w = some (w', b) → (π w).row = some row →
    π w' = { π w with row := some row', written := (π w).written ++ args.state.toList } →
    TaskCommit taskId args row row' → C row'.version w'
  refused : ∀ {β : Type} (op : Op β) b w e, op.failure b = some e → J w → S.ok op w →
    S.perform op w = some (w, b) → Refused args (π w).row e → X (.storage e) w
  cancelled : ∀ pt w, J w → S.ok (.await pt) w → (π w).interrupted = true → X .cancelled w
  interrupted : ∀ v w, C v w → S.ok (.await (.committed site args)) w →
    (π w).interrupted = true → X .cancelled w

/-- `C` when the storage has answered, and `Y` when it has raised. -/
def AnsweredBy {W α : Type} (C : α → W → Prop) (Y : Exc → W → Prop) :
    Except StorageError α → W → Prop
  | .ok a, w => C a w
  | .error e, w => Y (.storage e) w

/-- `C` when the row is committed, `R` when the attempt lost, and `Y` when the storage has
raised. -/
def WrittenBy {W : Type} (C : Nat → W → Prop) (R : W → Prop) (Y : Exc → W → Prop) :
    WriteOutcome → W → Prop
  | .committed row', w => C row'.version w
  | .retry, w => R w
  | .raised e, w => Y (.storage e) w

namespace Hosts

variable {cfg : BusConfig} {taskId : TaskId} {W : Type} {S : System Op W} {π : W → World}
  {σ α : Type} {J K X : W → Prop} (h : Hosts cfg taskId S π)
include h

/-- An operation that only asks. -/
theorem asks {e : Op α} {w w' : W} {a : α} (answer : World → α)
    (he : ∀ w, World.perform cfg taskId e w = some (w, answer w))
    (hperf : S.perform e w = some (w', a)) : w' = w ∧ a = answer (π w) := by
  have hworld := h.perform e w w' a hperf
  rw [he] at hworld
  obtain ⟨hsame, ha⟩ := Prod.mk.inj (Option.some_inj.mp hworld)
  exact ⟨h.same e w w' a hperf hsame.symm, ha.symm⟩

/-- The rule for an operation that only asks. -/
theorem ask {e : Op α} {K : α → W → Prop} {Z : Exc → σ → W → Prop} (answer : World → α)
    (he : ∀ w, World.perform cfg taskId e w = some (w, answer w)) (hJ : S.Stable J)
    (hK : ∀ a, S.Stable (K a)) (hreq : ∀ w, J w → S.ok e w → S.req e w)
    (ha : ∀ w, J w → S.ok e w → K (answer (π w)) w) :
    Triple S (fun _ => J) (Act.perform e : TaskM σ α) (fun a _ => K a) Z := by
  refine Triple.perform (fun _ => hJ) (fun a _ => hK a) fun _ w hw hok => ?_
  refine ⟨hreq w hw hok, fun w' a hperf => ?_⟩
  obtain ⟨rfl, rfl⟩ := h.asks answer he hperf
  exact ha w' hw hok

/-- An await, with what holds when the cancellation is delivered as `X`. -/
theorem checkpoint (pt : AwaitPoint) (hJ : S.Stable J) (hX : S.Stable X)
    (hreq : ∀ w, J w → S.ok (.await pt) w → S.req (.await pt) w)
    (hx : ∀ w, J w → S.ok (.await pt) w → (π w).interrupted = true → X w) :
    Triple S (fun _ => J) (checkpoint pt : TaskM σ Unit) (fun _ _ => J)
      fun x _ w => x = .cancelled ∧ X w := by
  refine Triple.bind (Q := fun raised _ w => if raised then X w else J w)
    (h.ask (K := fun raised w => if raised then X w else J w) World.interrupted (fun _ => rfl) hJ
      ?_ hreq ?_) fun raised => ?_
  · intro raised
    cases raised with
    | true => exact hX
    | false => exact hJ
  · intro w hw hok
    split
    · rename_i hi
      exact hx w hw hok hi
    · exact hw
  · cases raised with
    | true =>
      exact Triple.throw (fun _ => hX) fun _ w hw => ⟨rfl, hw⟩
    | false => exact Triple.pure (fun _ => hJ) fun _ w hw => hw

section

variable (hJ : S.Stable J) (hX : S.Stable X)
  (hreq : ∀ w, J w → S.ok (.await .plain) w → S.req (.await .plain) w)
  (hx : ∀ w, J w → S.ok (.await .plain) w → (π w).interrupted = true → X w)
include hJ hX hreq hx

theorem storageCheckpoint (k : StorageKind) :
    Triple S (fun _ => J) (k.checkpoint : TaskM σ Unit) (fun _ _ => J)
      fun x _ w => x = .cancelled ∧ X w := by
  cases k with
  | memory => exact Triple.pure (fun _ => hJ) fun _ w hw => hw
  | split b => exact h.checkpoint .plain hJ hX hreq hx

theorem getVersion (k : StorageKind) {K : Option Nat → W → Prop} (hK : ∀ v, S.Stable (K v))
    (hreqv : ∀ w, J w → S.ok .getVersion w → S.req .getVersion w)
    (hv : ∀ w, J w → S.ok .getVersion w → K ((π w).row.map Row.version) w) :
    Triple S (fun _ => J) (getVersion k : TaskM σ _) (fun v _ => K v)
      fun x _ w => x = .cancelled ∧ X w :=
  Triple.bind (h.storageCheckpoint hJ hX hreq hx k) fun _ =>
    h.ask (fun w => w.row.map Row.version) (fun _ => rfl) hJ hK hreqv hv

theorem loadTask (k : StorageKind) (site : Site) {K : Option Task → W → Prop}
    (hK : ∀ t, S.Stable (K t))
    (hreql : ∀ w, J w → S.ok (.loadTask site) w → S.req (.loadTask site) w)
    (hl : ∀ w, J w → S.ok (.loadTask site) w → K ((π w).row.map Row.task) w) :
    Triple S (fun _ => J) (loadTask k site : TaskM σ _) (fun t _ => K t)
      fun x _ w => x = .cancelled ∧ X w :=
  Triple.bind (h.storageCheckpoint hJ hX hreq hx k) fun _ =>
    h.ask (fun w => w.row.map Row.task) (fun _ => rfl) hJ hK hreql hl

end

/-- A merge stays honest while the row moves on. -/
theorem stable_honest (b : SplitStorage) (args : UpdateArgs Ref) (row : Row) (values : Values) :
    S.Stable fun w => Honest taskId b args row values (π w) :=
  fun w w' hstep hw => ⟨hw.checked, hw.merged, (h.moves w w' hstep).follows hw.follows⟩

section Update

variable {site : Site} {args : UpdateArgs Ref} {C : Nat → W → Prop} {Y : Exc → W → Prop}
  (hr : WriteRule taskId S π site args J C Y)
include hr

/-- The await after the commit. -/
theorem committed (v : Nat) :
    Triple S (fun _ => C v) (A2AKit.checkpoint (.committed site args) : TaskM σ Unit)
      (fun _ _ => C v) fun x _ => Y x :=
  (h.checkpoint (.committed site args) (hr.stable_commit v) (hr.stable_raise .cancelled)
    (fun w _ => hr.req_await _ w) (hr.interrupted v)).conseq (fun _ _ hw => hw)
    (fun _ _ _ hw => hw) fun _ _ _ hw => hw.1 ▸ hw.2

theorem notify (v : Nat) :
    Triple S (fun _ => C v) (Emitter.notify site args : TaskM σ Unit) (fun _ _ => C v)
      fun x _ => Y x := by
  rw [Emitter.notify]
  split
  · exact Triple.pure (fun _ => hr.stable_commit v) fun _ w hw => hw
  · refine Triple.bind (h.committed hr v) fun _ => Triple.bind (h.committed hr v) fun _ => ?_
    refine Triple.bind (h.committed hr v) fun _ => Triple.bind (h.committed hr v) fun _ => ?_
    exact h.committed hr v

/-- The retry loop, by induction on the attempts that are left. -/
theorem updateLoop (b : SplitStorage) {n attempt : Nat} (hn : attempt + (n + 1) = maxAttempts args) :
    Triple S (fun _ => J) (updateLoop b site args (n + 1) attempt : TaskM σ Nat) (fun v _ => C v)
      fun x _ => Y x := by
  -- a cancellation can arrive at each `await`, with the assertion that holds there
  have hawait : ∀ {I : W → Prop} (pt : AwaitPoint), S.Stable I → (∀ w, I w → J w) →
      Triple S (fun _ => I) (A2AKit.checkpoint pt : TaskM σ Unit) (fun _ _ => I) fun x _ => Y x :=
    fun pt hI hIJ => (h.checkpoint pt hI (hr.stable_raise .cancelled)
      (fun w _ => hr.req_await pt w) fun w hw => hr.cancelled pt w (hIJ w hw)).conseq
      (fun _ _ hw => hw) (fun _ _ _ hw => hw) fun _ _ _ hw => hw.1 ▸ hw.2
  induction n generalizing attempt with
  | zero | succ n ih =>
    refine Triple.bind (hawait .plain hr.stable fun _ hw => hw) fun _ => ?_
    -- the read: what it returns is what the row held then
    refine Triple.bind (Q := fun out _ => AnsweredBy
      (fun read w => J w ∧ Honest taskId b args read.1 read.2 (π w)) Y out)
      (Triple.perform (fun _ => hr.stable) ?_ ?_) fun out => ?_
    · rintro (e | ⟨row, values⟩) _
      · exact hr.stable_raise _
      · exact fun w w' hstep hw => ⟨hr.stable w w' hstep hw.1,
          h.stable_honest b args row values w w' hstep hw.2⟩
    · intro _ w hw hok
      refine ⟨hr.req_read b w hw hok, fun w' out hperf => ?_⟩
      have hworld := h.perform _ w w' out hperf
      obtain ⟨hw', hout⟩ := Prod.mk.inj (Option.some_inj.mp hworld)
      rcases out with e | ⟨row, values⟩
      · have hread : b.backend.updateRead taskId (π w).heap (π w).row args (π w).ambient.now =
            ((π w).heap, .error e) :=
          Prod.ext (b.sound.read_error (Prod.ext rfl hout)) hout
        rw [hread] at hw'
        obtain rfl := h.same _ w w' _ hperf hw'.symm
        exact hr.refused _ _ w' e rfl hw hok hperf (SplitStorage.refused_read hread)
      · refine ⟨hr.merge b w w' _ hw hperf, ?_⟩
        rw [← hw']
        exact Honest.of_read (Prod.ext rfl hout) fun r hr' => hr.seen w r hw hr'
    rcases out with e | ⟨row, values⟩
    · exact Triple.throw (fun _ => hr.stable_raise _) fun _ w hw => hw
    refine Triple.bind (hawait (I := fun w => J w ∧ Honest taskId b args row values (π w))
      (.merged site args row) (fun w w' hstep hw => ⟨hr.stable w w' hstep hw.1,
        h.stable_honest b args row values w w' hstep hw.2⟩) fun _ hw => hw.1) fun _ => ?_
    -- the write: it commits to the row it finds, loses the race, or is refused
    refine Triple.bind (Q := fun out _ => WrittenBy C
      (fun w => J w ∧ attempt ≠ maxAttempts args - 1) Y out) (Triple.perform (fun _ w w' hstep hw =>
        ⟨hr.stable w w' hstep hw.1, h.stable_honest b args row values w w' hstep hw.2⟩) ?_ ?_)
      fun out => ?_
    · rintro (row' | _ | e) _
      · exact hr.stable_commit _
      · exact fun w w' hstep hw => ⟨hr.stable w w' hstep hw.1, hw.2⟩
      · exact hr.stable_raise _
    · rintro _ w ⟨hw, hhonest⟩ hok
      refine ⟨hr.req_write b attempt row values w hw hhonest hok, fun w' out hperf => ?_⟩
      rcases World.perform_write hhonest (h.perform _ w w' out hperf) with
        ⟨cur, row', hcur, rfl, hcommit, hw'⟩ | ⟨hw', hout⟩
      · exact hr.commit _ w w' _ cur row' rfl hw hok hperf hcur hw' hcommit
      · obtain rfl := h.same _ w w' _ hperf hw'
        rcases hout with ⟨rfl, hlast⟩ | ⟨e, rfl, href⟩
        · exact ⟨hw, hlast⟩
        · exact hr.refused _ _ w' e rfl hw hok hperf href
    rcases out with row' | _ | e
    · exact Triple.bind (h.committed hr _) fun _ =>
        Triple.pure (fun _ => hr.stable_commit _) fun _ w hw => hw
    · refine Triple.fix fun s₀ s w hw => ?_
      -- on a conflict the loop goes on while attempts are left, and the last attempt does not
      -- conflict
      first
        | exact absurd hw.2.2 (by omega)
        | exact (ih (by omega)) s w hw.2.1
    · exact Triple.throw (fun _ => hr.stable_raise _) fun _ w hw => hw

/-- `update_task` of the storage. -/
theorem storageUpdate (k : StorageKind) :
    Triple S (fun _ => J) (A2AKit.updateTask k site args : TaskM σ Nat) (fun v _ => C v)
      fun x _ => Y x := by
  cases k with
  | split b =>
    obtain ⟨n, hn⟩ := maxAttempts_pos args
    show Triple S (fun _ => J) (A2AKit.updateLoop b site args (maxAttempts args) 0) _ _
    rw [hn]
    exact h.updateLoop hr b (by omega)
  | memory =>
    refine Triple.bind (Q := fun out _ => AnsweredBy C Y out)
      (Triple.perform (fun _ => hr.stable) ?_ ?_) fun out => ?_
    · rintro (e | v) _
      · exact hr.stable_raise _
      · exact hr.stable_commit v
    · intro _ w hw hok
      refine ⟨hr.req_update w hw hok, fun w' out hperf => ?_⟩
      rcases World.perform_update_task (h.perform _ w w' out hperf) with
        ⟨e, rfl, hw', href⟩ | ⟨row, row', hrow, rfl, hcommit, hw'⟩
      · obtain rfl := h.same _ w w' _ hperf hw'
        exact hr.refused _ _ w' e rfl hw hok hperf href
      · exact hr.commit _ w w' _ row row' rfl hw hok hperf hrow hw' hcommit
    rcases out with e | v
    · exact Triple.throw (fun _ => hr.stable_raise _) fun _ w hw => hw
    · exact Triple.pure (fun _ => hr.stable_commit v) fun _ w hw => hw

/-- `update_task` of the emitter. -/
theorem updateTask (k : StorageKind) :
    Triple S (fun _ => J) (Emitter.updateTask k site args : TaskM σ Nat) (fun v _ => C v)
      fun x _ => Y x :=
  Triple.bind (h.storageUpdate hr k) fun v => Triple.bind (h.notify hr v) fun _ =>
    Triple.pure (fun _ => hr.stable_commit v) fun _ _ hw => hw

end Update

/-- `send_event`: the event is published from `J` to `K`, and `X` holds when the publisher is
cancelled while it waits for the subscriber lock. -/
theorem sendEvent (shielded : Bool) (event : StreamEvent Ref) (hJ : S.Stable J) (hK : S.Stable K)
    (hX : S.Stable X)
    (hreq : ∀ {β : Type} (e : Op β) w, e.quiet = true → S.ok e w → S.req e w)
    (hpub : ∀ w, J w → S.ok (.publish event) w → S.req (.publish event) w ∧
      ∀ w' id, S.perform (.publish event) w = some (w', id) → K w')
    (hx : ∀ w, K w → S.ok (.await .plain) w → (π w).interrupted = true → X w)
    (hwithdraw : ∀ id w w', X w → S.perform (.withdraw id) w = some (w', ()) → X w') :
    Triple S (fun _ => J) (Emitter.sendEvent shielded event : TaskM σ Unit) (fun _ _ => K)
      fun x _ w => x = .cancelled ∧ X w := by
  have hwait : ∀ {Z : Exc → σ → W → Prop} (id : Nat),
      Triple S (fun _ => K) (Act.perform (.published id) : TaskM σ Unit) (fun _ _ => K) Z := by
    intro Z id
    refine Triple.perform (fun _ => hK) (fun _ _ => hK) fun _ w hw hok => ?_
    refine ⟨hreq _ w rfl hok, fun w' u hperf => ?_⟩
    have hworld := h.perform _ w w' u hperf
    simp only [World.perform] at hworld
    split at hworld
    · cases hworld
    · have hsame := (Prod.mk.inj (Option.some_inj.mp hworld)).1
      rw [h.same _ w w' u hperf hsame.symm]
      exact hw
  refine Triple.bind (Triple.perform (fun _ => hJ) (fun _ _ => hK) fun _ w hw hok => ?_) fun id => ?_
  · exact hpub w hw hok
  split
  · exact hwait id
  · refine Triple.tryCatch (Triple.bind (h.checkpoint .plain hK hX
      (fun w _ hok => hreq _ w rfl hok) hx) fun _ => hwait id) fun x => ?_
    refine Triple.bind (Q := fun _ _ w => x = .cancelled ∧ X w) (Triple.perform
      (fun _ w w' hstep hw => ⟨hw.1, hX w w' hstep hw.2⟩)
      (fun _ _ w w' hstep hw => ⟨hw.1, hX w w' hstep hw.2⟩) fun _ w hw hok => ?_) fun _ => ?_
    · exact ⟨hreq _ w rfl hok, fun w' u hperf => ⟨hw.1, hwithdraw id w w' hw.2 hperf⟩⟩
    · exact Triple.throw (fun _ w w' hstep hw => ⟨hw.1, hX w w' hstep hw.2⟩) fun _ w hw => hw

end Hosts

end A2AKit
