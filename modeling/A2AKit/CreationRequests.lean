/-
One request that creates a task.

A request keeps `books`: what it has done to each task.  `create_task` answers with the task
that every later call with the same context and key will find, and with the marker exactly if
the request has stored it (`createTask_answers`).  What follows hands the operation over once if
there was a marker, and only reads if there was none (`sendNew_answers`).
-/
import A2AKit.CreationInvariant

namespace A2AKit

open Act (Triple)
open TaskManager

section

variable {ι : Type} [DecidableEq ι]

/-- What request `i` has done to each task. -/
def Archive.books (a : Archive ι) (i : ι) : TaskId → Account := fun t => a.accounts t i

/-- The request is in no transaction. -/
structure Holding (store : Store) (start : Archive ι) (i : ι) (books : TaskId → Account)
    (a : Archive ι) : Prop where
  inv : ArchiveInv store start a
  books : a.books i = books
  idle : ∀ row, (i, row) ∉ a.sessions

/-- The request has drawn an id. -/
structure Drawn (store : Store) (start : Archive ι) (i : ι) (books : TaskId → Account)
    (taskId : TaskId) (a : Archive ι) : Prop extends Holding store start i books a where
  mine : (taskId, i) ∈ a.drawn
  unstored : taskId ∉ a.ids

/-- The request has inserted a row. -/
structure Inserting (store : Store) (start : Archive ι) (i : ι) (books : TaskId → Account)
    (taskId : TaskId) (contextId : ContextId) (key : Option String) (a : Archive ι) : Prop where
  inv : ArchiveInv store start a
  books : a.books i = books
  session : ∃ row, (i, row) ∈ a.sessions ∧ row.task.id = taskId ∧
    row.task.contextId = contextId ∧ row.idempotencyKey = key

/-- Calls with this context and key find the task. -/
structure Indexed (store : Store) (contextId : ContextId) (key : Option String) (taskId : TaskId)
    (a : Archive ι) : Prop where
  stored : ∃ row, a.row taskId = some row
  found : ∀ k, key = some k → a.find store contextId k = some taskId

/-- Where the circumstances of a request let it raise, `E` holds of its books. -/
structure Forgiven (cfg : BusConfig) (store : Store) (i : ι) (cond : ArchiveCircumstances ι)
    (E : (TaskId → Account) → Prop) : Prop where
  interrupted : ∀ a, cond (.inl .await) a → a.ambient.interrupt = true → E (a.books i)
  cancelled : ∀ t pt a, cond (.inr (t, .inl (.await pt))) a →
    (a.offices t).world.interrupted = true → E (a.books i)
  refused : ∀ t {β : Type} (op : Op β) b a a' e, cond (.inr (t, .inl op)) a →
    a.perform cfg store i (.inr (t, .inl op)) = some (a', b) → op.failure b = some e →
    E (a.books i)

/-- The operation raises, or lets the await before it raise. -/
def Archive.raises (cfg : BusConfig) (store : Store) (i : ι) {β : Type} (e : ArchiveCall β)
    (a : Archive ι) : Bool :=
  match e with
  | .inl .await => a.ambient.interrupt
  | .inr (t, .inl (.await _)) => (a.offices t).world.interrupted
  | .inr (t, .inl op) =>
    (a.perform cfg store i (.inr (t, .inl op))).any fun r => (op.failure r.2).isSome
  | _ => false

theorem forgiven_of_raises {cfg : BusConfig} {store : Store} {i : ι} {cond : ArchiveCircumstances ι}
    {E : (TaskId → Account) → Prop}
    (h : ∀ {β : Type} (e : ArchiveCall β) a, cond e a → a.raises cfg store i e = true →
      E (a.books i)) : Forgiven cfg store i cond E where
  interrupted a hok hi := h _ a hok hi
  cancelled t pt a hok hi := h _ a hok hi
  refused t β op b a a' e hok hperf hop := by
    refine h _ a hok ?_
    cases op with
    | await pt => exact nomatch hop
    | _ => simp [Archive.raises, hperf, hop]

/-- The request has raised. -/
def Raising (store : Store) (start : Archive ι) (i : ι) (E : (TaskId → Account) → Prop)
    (a : Archive ι) : Prop :=
  ∃ books, Holding store start i books a ∧ E books

/-- What `create_task` has answered. -/
def Answered (store : Store) (start : Archive ι) (i : ι) (books : TaskId → Account)
    (contextId : ContextId) (key : Option String) (task : Task) (a : Archive ι) : Prop :=
  Indexed store contextId key task.id a ∧
    if task.justCreated then books task.id = {} ∧
      Holding store start i (Function.update books task.id { commits := 1 }) a
    else Holding store start i books a

variable {cfg : BusConfig} {store : Store} {start a a' : Archive ι} {i : ι}
  {books : TaskId → Account} {taskId : TaskId} {contextId : ContextId} {key : Option String}
  {message : Message} {E : (TaskId → Account) → Prop} {cond : ι → ArchiveCircumstances ι}

/-! ### What others do to the assertions -/

omit [DecidableEq ι] in
theorem Aside.books_eq (h : Aside store start i a a') : a'.books i = a.books i :=
  funext h.accounts

omit [DecidableEq ι] in
theorem Holding.aside (h : Aside store start i a a') (ha : Holding store start i books a) :
    Holding store start i books a' :=
  ⟨h.inv, h.books_eq.trans ha.books, fun row hmem => ha.idle row ((h.sessions row).mp hmem)⟩

omit [DecidableEq ι] in
theorem Drawn.aside (h : Aside store start i a a') (ha : Drawn store start i books taskId a) :
    Drawn store start i books taskId a' :=
  ⟨ha.toHolding.aside h, h.drawn _ ha.mine, h.unstored _ ha.mine ha.unstored⟩

omit [DecidableEq ι] in
theorem Inserting.aside (h : Aside store start i a a')
    (ha : Inserting store start i books taskId contextId key a) :
    Inserting store start i books taskId contextId key a' := by
  obtain ⟨row, hmem, hrow⟩ := ha.session
  exact ⟨h.inv, h.books_eq.trans ha.books, row, (h.sessions row).mpr hmem, hrow⟩

omit [DecidableEq ι] in
theorem Indexed.aside (h : Aside store start i a a') (ha : Indexed store contextId key taskId a) :
    Indexed store contextId key taskId a' := by
  obtain ⟨row, hrow⟩ := ha.stored
  obtain ⟨row', hrow', -⟩ := h.rows taskId row hrow
  exact ⟨⟨row', hrow'⟩, fun k hk => h.found _ k _ (ha.found k hk)⟩

omit [DecidableEq ι] in
theorem Raising.aside (h : Aside store start i a a') (ha : Raising store start i E a) :
    Raising store start i E a' := by
  obtain ⟨books, hhold, hE⟩ := ha
  exact ⟨books, hhold.aside h, hE⟩

omit [DecidableEq ι] in
theorem Answered.aside {task : Task} (h : Aside store start i a a')
    (ha : Answered store start i books contextId key task a) :
    Answered store start i books contextId key task a' := by
  obtain ⟨hindex, hrest⟩ := ha
  refine ⟨hindex.aside h, ?_⟩
  split
  · rename_i hmark
    rw [if_pos hmark] at hrest
    exact ⟨hrest.1, hrest.2.aside h⟩
  · rename_i hmark
    rw [if_neg hmark] at hrest
    exact hrest.aside h

omit [DecidableEq ι] in
theorem Holding.raising (ha : Holding store start i books a) (hE : E (a.books i)) :
    Raising store start i E a :=
  ⟨books, ha, ha.books ▸ hE⟩

/-! ### What the request does to them -/

theorem Indexed.step (hinv : ArchiveInv store start a) (h : ArchiveStep store i a a')
    (ha : Indexed store contextId key taskId a) : Indexed store contextId key taskId a' := by
  obtain ⟨row, hrow⟩ := ha.stored
  obtain ⟨row', hrow', -⟩ := h.rows hinv hrow
  exact ⟨⟨row', hrow'⟩, fun k hk => h.found hinv (ha.found k hk)⟩

/-- The request has stored a task. -/
theorem Storable.holding {row : Row} (hinv : ArchiveInv store start a) (hbooks : a.books i = books)
    (hstore : Storable store a i taskId row) :
    books taskId = {} ∧
      Holding store start i (Function.update books taskId { commits := 1 })
        ((a.add store i taskId row).endSession i) ∧
      Indexed store row.task.contextId row.idempotencyKey taskId
        ((a.add store i taskId row).endSession i) := by
  have hnone := hinv.row_none hstore.unstored
  have hempty : a.accounts taskId i = {} := by
    by_contra hne
    exact hstore.unstored (hinv.owned taskId i hne)
  refine ⟨by rw [← hbooks]; exact hempty, ⟨hinv.create hstore, ?_, fun r hmem => ?_⟩, ?_, ?_⟩
  · funext t
    show (a.add store i taskId row).accounts t i = _
    rw [Archive.accounts_add hnone]
    by_cases ht : t = taskId
    · subst ht
      rw [Function.update_self, Function.update_self, Function.update_self, hempty]
    · rw [Function.update_of_ne ht, Function.update_of_ne ht, ← hbooks]
      rfl
  · exact of_decide_eq_true (List.mem_filter.mp hmem).2 rfl
  · refine ⟨row, ?_⟩
    show (a.add store i taskId row).row taskId = some row
    rw [Archive.row_add hnone, Function.update_self]
  · intro k hk
    have hown := hstore.own k hk
    refine (hstore.find hinv row.task.contextId k).trans ?_
    rw [hstore.unfound _ k hown, hown]
    rfl

/-! ### `create_task` -/

variable (cfg store cond start) in
/-- The system in which request `i` is verified. -/
abbrev newSystem (i : ι) : System ArchiveCall (Archive ι) :=
  (newMessages cfg store cond).system (Aside store start) (ArchiveReq store) i

theorem archive_performs {β : Type} {e : ArchiveCall β} {b : β}
    (h : (newSystem cfg store start cond i).perform e a = some (a', b)) :
    a.perform cfg store i e = some (a', b) := h

/-- An operation that only asks. -/
theorem archive_asks {β : Type} {e : StoreOp β} {J : Archive ι → Prop}
    {K : β → Archive ι → Prop} {X : Exc → Unit → Archive ι → Prop} (answer : Archive ι → β)
    (he : ∀ a, a.perform cfg store i (.inl e) = some (a, answer a))
    (hreq : ∀ a, ArchiveReq store i (.inl e : ArchiveCall β) a)
    (hJ : (newSystem cfg store start cond i).Stable J)
    (hK : ∀ b, (newSystem cfg store start cond i).Stable (K b)) (h : ∀ a, J a → K (answer a) a) :
    Triple (newSystem cfg store start cond i) (fun _ => J) (Act.perform (.inl e)) (fun b _ => K b)
      X := by
  refine Triple.perform (fun _ => hJ) (fun b _ => hK b) fun _ a ha _ => ?_
  refine ⟨hreq a, fun a' b hperf => ?_⟩
  obtain ⟨rfl, rfl⟩ := Prod.mk.inj (Option.some_inj.mp ((he a).symm.trans hperf))
  exact h _ ha

/-- An await, with what holds when the client is gone as `X`. -/
theorem pause_rule {J X : Archive ι → Prop} (hJ : (newSystem cfg store start cond i).Stable J)
    (hX : (newSystem cfg store start cond i).Stable X)
    (hx : ∀ a, J a → cond i (.inl .await) a → a.ambient.interrupt = true → X a) :
    Triple (newSystem cfg store start cond i) (fun _ => J) pause (fun _ _ => J)
      fun _ _ => X := by
  refine Triple.bind (Q := fun raised _ a => if raised then X a else J a)
    (Triple.perform (fun _ => hJ) ?_ fun _ a ha hok => ?_) fun raised => ?_
  · rintro (_ | _) _
    · exact hJ
    · exact hX
  · refine ⟨trivial, fun a' raised hperf => ?_⟩
    obtain ⟨rfl, rfl⟩ := Prod.mk.inj (Option.some_inj.mp hperf)
    split
    · rename_i hi
      exact hx _ ha hok hi
    · exact ha
  · cases raised with
    | true => exact Triple.throw (fun _ => hX) fun _ _ ha => ha
    | false => exact Triple.pure (fun _ => hJ) fun _ _ ha => ha

variable (hE : Forgiven cfg store i (cond i) E)

omit [DecidableEq ι] in
/-- A stored task has its id, and no marker. -/
theorem ArchiveInv.unmarked {row : Row} (hinv : ArchiveInv store start a)
    (hrow : a.row taskId = some row) : row.task.id = taskId ∧ row.task.justCreated = false := by
  obtain ⟨hid, hmark⟩ := hinv.proper taskId row hrow
  exact ⟨hid, by rw [Task.justCreated, hmark]; rfl⟩

omit [DecidableEq ι] in
/-- The task of an earlier call is answered as it is stored. -/
theorem Holding.answered {row : Row} (ha : Holding store start i books a)
    (hindex : Indexed store contextId key taskId a) (hrow : a.row taskId = some row) :
    Answered store start i books contextId key row.task a := by
  obtain ⟨hid, hmark⟩ := ha.inv.unmarked hrow
  refine ⟨hid.symm ▸ hindex, ?_⟩
  rw [if_neg (by rw [hmark]; exact Bool.false_ne_true)]
  exact ha

omit [DecidableEq ι] in
/-- A new task is answered with the marker. -/
theorem answered_markCreated {task : Task} (hid : task.id = taskId) (hempty : books taskId = {})
    (ha : Holding store start i (Function.update books taskId { commits := 1 }) a)
    (hindex : Indexed store contextId key taskId a) :
    Answered store start i books contextId key task.markCreated a := by
  subst hid
  refine ⟨hindex, ?_⟩
  rw [if_pos (justCreated_markCreated task)]
  exact ⟨hempty, ha⟩

/-- The request has stored its task, and not loaded it yet. -/
def Stored (store : Store) (start : Archive ι) (i : ι) (books : TaskId → Account)
    (contextId : ContextId) (key : Option String) (taskId : TaskId) (a : Archive ι) : Prop :=
  books taskId = {} ∧ Holding store start i (Function.update books taskId { commits := 1 }) a ∧
    Indexed store contextId key taskId a

omit [DecidableEq ι] in
theorem Stored.aside (h : Aside store start i a a')
    (ha : Stored store start i books contextId key taskId a) :
    Stored store start i books contextId key taskId a' :=
  ⟨ha.1, ha.2.1.aside h, ha.2.2.aside h⟩

include hE

theorem loadCreated_answers : Triple (newSystem cfg store start cond i)
    (fun _ => Stored store start i books contextId key taskId) (loadCreated taskId)
    (fun task _ => Answered store start i books contextId key task)
    fun _ _ => Raising store start i E := by
  have hstable : (newSystem cfg store start cond i).Stable
      (Stored store start i books contextId key taskId) := fun _ _ h ha => ha.aside h
  have hloaded : ∀ t : Option Task, (newSystem cfg store start cond i).Stable fun a =>
      ∃ task, t = some task ∧ task.id = taskId ∧
        Stored store start i books contextId key taskId a := by
    rintro t _ _ h ⟨task, ht, hid, ha⟩
    exact ⟨task, ht, hid, ha.aside h⟩
  refine Triple.bind (pause_rule hstable (fun _ _ h ha => ha.aside h)
    fun a ha hok hi => ha.2.1.raising (hE.interrupted a hok hi)) fun _ => ?_
  refine Triple.bind (archive_asks (fun a => (a.row taskId).map Row.task) (fun _ => rfl)
    (fun _ => trivial) hstable hloaded ?_) fun loaded => ?_
  · intro a ha
    obtain ⟨row, hrow⟩ := ha.2.2.stored
    exact ⟨row.task, by rw [hrow]; rfl, (ha.2.1.inv.proper taskId row hrow).1, ha⟩
  · rcases loaded with _ | task
    · exact Triple.throw (fun _ => hloaded none) fun _ _ ha => nomatch ha.choose_spec.1
    · refine Triple.pure (fun _ => hloaded (some task)) ?_
      rintro _ a ⟨task', heq, hid, hempty, ha, hindex⟩
      obtain rfl := Option.some_inj.mp heq
      exact answered_markCreated hid hempty ha hindex

omit hE in
theorem createInMemory_answers : Triple (newSystem cfg .memory start cond i)
    (fun _ => Holding .memory start i books)
    (Act.perform (.inl (.createInMemory contextId message key)) : ArchiveM Task)
    (fun task _ => Answered .memory start i books contextId key task)
    fun _ _ => Raising .memory start i E := by
  refine Triple.perform (fun _ _ _ h ha => ha.aside h) (fun _ _ _ _ h ha => ha.aside h)
    fun _ a ha _ => ⟨rfl, fun a' task hperf => ?_⟩
  rcases createInMemory_spec ha.inv (archive_performs hperf) with
    ⟨k, t, row, rfl, hfind, hrow, rfl, rfl⟩ | ⟨t, hstore, rfl, rfl⟩
  · refine ha.answered ⟨⟨row, hrow⟩, fun k' hk' => ?_⟩ hrow
    obtain rfl := Option.some_inj.mp hk'
    exact hfind
  · obtain ⟨hempty, hhold, hindex⟩ := hstore.holding ha.inv ha.books
    exact answered_markCreated rfl hempty hhold hindex

omit hE in
/-- `uuid4` -/
theorem uuid_draws : Triple (newSystem cfg store start cond i) (fun _ => Holding store start i books)
    (Act.perform (.inl .uuid) : ArchiveM String) (fun t _ => Drawn store start i books t)
    fun _ _ => Raising store start i E := by
  refine Triple.perform (fun _ _ _ h ha => ha.aside h) (fun _ _ _ _ h ha => ha.aside h)
    fun _ a ha _ => ⟨trivial, fun a' t hperf => ?_⟩
  have hperf := archive_performs hperf
  have hreq : ArchiveReq store i (.inl .uuid : ArchiveCall String) a := trivial
  have hinv := ha.inv.step (archiveStep ha.inv hreq hperf)
  simp only [Archive.perform] at hperf
  split at hperf
  · rename_i hfresh
    obtain ⟨rfl, rfl⟩ := Prod.mk.inj (Option.some_inj.mp hperf)
    exact ⟨⟨hinv, ha.books, ha.idle⟩, List.mem_cons_self, (Archive.isFresh_iff.mp hfresh).1⟩
  · cases hperf

/-- The task of an earlier call. -/
def Earlier (store : Store) (start : Archive ι) (i : ι) (books : TaskId → Account)
    (contextId : ContextId) (key : Option String) (t : TaskId) (a : Archive ι) : Prop :=
  Holding store start i books a ∧ Indexed store contextId key t a

omit [DecidableEq ι] hE in
theorem Earlier.aside {t : TaskId} (h : Aside store start i a a')
    (ha : Earlier store start i books contextId key t a) :
    Earlier store start i books contextId key t a' :=
  ⟨ha.1.aside h, ha.2.aside h⟩

omit [DecidableEq ι] hE in
theorem ArchiveInv.indexed {k : String} {t : TaskId} (hinv : ArchiveInv store start a)
    (hfind : a.find store contextId k = some t) : Indexed store contextId (some k) t a := by
  refine ⟨hinv.there _ k t hfind, fun k' hk' => ?_⟩
  obtain rfl := Option.some_inj.mp hk'
  exact hfind

omit [DecidableEq ι] hE in
/-- The id that the request has drawn is not that of a stored task. -/
theorem Drawn.ne {t : TaskId} (ha : Drawn store start i books taskId a)
    (hindex : Indexed store contextId key t a) : t ≠ taskId := by
  rintro rfl
  obtain ⟨row, hrow⟩ := hindex.stored
  exact ha.unstored (ha.inv.listed t row hrow)

omit hE in
theorem redis_createTask (hE : Forgiven cfg .redis i (cond i) E) :
    Triple (newSystem cfg .redis start cond i) (fun _ => Holding .redis start i books)
      (RedisStorage.createTask contextId message key)
      (fun task _ => Answered .redis start i books contextId key task)
      fun _ _ => Raising .redis start i E := by
  refine Triple.bind uuid_draws fun taskId => ?_
  refine Triple.bind (pause_rule (fun _ _ h ha => ha.aside h) (fun _ _ h ha => ha.aside h)
    fun a ha hok hi => ha.toHolding.raising (hE.interrupted a hok hi)) fun _ => ?_
  refine Triple.bind (Q := fun t _ a =>
      t ≠ taskId ∧ Earlier .redis start i books contextId key t a ∨
        t = taskId ∧ Stored .redis start i books contextId key taskId a)
    (Triple.perform (fun _ _ _ h ha => ha.aside h) ?_ fun _ a ha _ => ?_) fun returnedId => ?_
  · rintro t _ _ _ h (⟨hne, ha⟩ | ⟨heq, ha⟩)
    · exact Or.inl ⟨hne, ha.aside h⟩
    · exact Or.inr ⟨heq, ha.aside h⟩
  · refine ⟨⟨rfl, ha.mine, ha.unstored⟩, fun a' t hperf => ?_⟩
    rcases createScript_spec ha.inv ha.mine ha.unstored (archive_performs hperf) with
      ⟨k, rfl, hfind, rfl⟩ | ⟨hstore, rfl, rfl⟩
    · have hindex := ha.inv.indexed hfind
      exact Or.inl ⟨ha.ne hindex, ha.toHolding, hindex⟩
    · exact Or.inr ⟨rfl, hstore.holding ha.inv ha.books⟩
  · split
    · rename_i hne
      have hloaded : ∀ t : Option Task, (newSystem cfg .redis start cond i).Stable fun a =>
          ∃ task, t = some task ∧ Answered .redis start i books contextId key task a := by
        rintro t _ _ h ⟨task, ht, ha⟩
        exact ⟨task, ht, ha.aside h⟩
      have hstable : (newSystem cfg .redis start cond i).Stable
          (Earlier .redis start i books contextId key returnedId) := fun _ _ h ha => ha.aside h
      refine Triple.pre (P := fun _ => Earlier .redis start i books contextId key returnedId) ?_
        fun _ a ha => ha.elim And.right fun h => absurd h.1 hne
      refine Triple.bind (pause_rule hstable (fun _ _ h ha => ha.aside h)
        fun a ha hok hi => ha.1.raising (hE.interrupted a hok hi)) fun _ => ?_
      refine Triple.bind (archive_asks (fun a => (a.row returnedId).map Row.task) (fun _ => rfl)
        (fun _ => trivial) hstable hloaded ?_) fun loaded => ?_
      · intro a ha
        obtain ⟨row, hrow⟩ := ha.2.stored
        exact ⟨row.task, by rw [hrow]; rfl, ha.1.answered ha.2 hrow⟩
      · rcases loaded with _ | task
        · exact Triple.throw (fun _ => hloaded none) fun _ _ ha => nomatch ha.choose_spec.1
        · refine Triple.pure (fun _ => hloaded (some task)) ?_
          rintro _ a ⟨task', heq, ha⟩
          obtain rfl := Option.some_inj.mp heq
          exact ha
    · rename_i heq
      exact (loadCreated_answers hE).pre fun _ a ha =>
        ha.elim (fun h => absurd h.1 heq) And.right

/-- What a transaction has come to: the row was ignored, or it is inserted. -/
def InTransaction (store : Store) (start : Archive ι) (i : ι) (books : TaskId → Account)
    (contextId : ContextId) (key : Option String) (taskId : TaskId) (a : Archive ι) : Prop :=
  (∃ k t, key = some k ∧ Drawn store start i books taskId a ∧
    a.find store contextId k = some t) ∨
    Inserting store start i books taskId contextId key a

/-- What a transaction is about to answer. -/
def Settling (store : Store) (start : Archive ι) (i : ι) (books : TaskId → Account)
    (contextId : ContextId) (key : Option String) (taskId : TaskId) :
    Option Task → Archive ι → Prop
  | some task, a => task.justCreated = false ∧
      Earlier store start i books contextId key task.id a
  | none, a => Inserting store start i books taskId contextId key a

omit [DecidableEq ι] hE in
theorem InTransaction.aside (h : Aside store start i a a')
    (ha : InTransaction store start i books contextId key taskId a) :
    InTransaction store start i books contextId key taskId a' := by
  rcases ha with ⟨k, t, hkey, hdrawn, hfind⟩ | hins
  · exact Or.inl ⟨k, t, hkey, hdrawn.aside h, h.found _ _ _ hfind⟩
  · exact Or.inr (hins.aside h)

omit [DecidableEq ι] hE in
theorem Settling.aside {existing : Option Task} (h : Aside store start i a a')
    (ha : Settling store start i books contextId key taskId existing a) :
    Settling store start i books contextId key taskId existing a' := by
  rcases existing with _ | task
  · exact Inserting.aside h ha
  · exact ⟨ha.1, ha.2.aside h⟩

/-- The transaction may be left, and is rolled back then. -/
def Leaving (store : Store) (start : Archive ι) (i : ι) (E : (TaskId → Account) → Prop)
    (a : Archive ι) : Prop :=
  ArchiveInv store start a ∧ E (a.books i)

omit [DecidableEq ι] hE in
theorem Leaving.aside (h : Aside store start i a a') (ha : Leaving store start i E a) :
    Leaving store start i E a' :=
  ⟨h.inv, h.books_eq ▸ ha.2⟩

omit [DecidableEq ι] hE in
theorem InTransaction.inv (ha : InTransaction store start i books contextId key taskId a) :
    ArchiveInv store start a := by
  rcases ha with ⟨_, _, -, hdrawn, -⟩ | hins
  · exact hdrawn.inv
  · exact hins.inv

omit [DecidableEq ι] hE in
theorem Settling.inv {existing : Option Task}
    (ha : Settling store start i books contextId key taskId existing a) :
    ArchiveInv store start a := by
  rcases existing with _ | task
  · exact Inserting.inv ha
  · exact ha.2.1.inv

omit hE in
/-- A row that was ignored has an earlier one, and an inserted row is read back. -/
theorem InTransaction.settling {k : String}
    (ha : InTransaction store start i books contextId (some k) taskId a) :
    Settling store start i books contextId (some k) taskId
      ((a.readBack store i contextId k).filter fun task => task.id ≠ taskId) a := by
  rcases ha with ⟨k', t, hkey, hdrawn, hfind⟩ | hins
  · obtain rfl := Option.some_inj.mp hkey
    have hindex := hdrawn.inv.indexed hfind
    obtain ⟨row, hrow⟩ := hindex.stored
    obtain ⟨hid, hmark⟩ := hdrawn.inv.unmarked hrow
    have hnone : a.sessions.find? (fun s => s.1 = i && store.hits contextId k s.2) = none := by
      rw [List.find?_eq_none]
      rintro ⟨j, r⟩ hmem hboth
      obtain rfl : j = i := of_decide_eq_true (Bool.and_eq_true_iff.mp hboth).1
      exact hdrawn.idle r hmem
    have hback : a.readBack store i contextId k = some row.task := by
      rw [Archive.readBack, hnone, hfind, Option.bind_some, hrow]
      rfl
    have hne : row.task.id ≠ taskId := hid ▸ hdrawn.ne hindex
    rw [hback, Option.filter_some, if_pos (decide_eq_true hne)]
    exact ⟨hmark, hdrawn.toHolding, hid.symm ▸ hindex⟩
  · obtain ⟨row, hmem, hid, hctx, hkey⟩ := hins.session
    have hhits : store.hits contextId k row = true :=
      hctx ▸ (hins.inv.session i row hmem).2.own k hkey
    rcases hfind : a.sessions.find? (fun s => s.1 = i && store.hits contextId k s.2) with _ | s
    · have hno := List.find?_eq_none.mp hfind (i, row) hmem
      exact absurd (by simp [hhits]) hno
    · have hparty := List.find?_some hfind
      obtain rfl : s.1 = i := of_decide_eq_true (Bool.and_eq_true_iff.mp hparty).1
      have hrow : s.2 = row :=
        hins.inv.single s.1 row s.2 hmem (List.mem_of_find?_eq_some hfind)
      have hback : a.readBack store s.1 contextId k = some row.task := by
        rw [Archive.readBack, hfind]
        exact congrArg (fun r : Row => some r.task) hrow
      rw [hback, Option.filter_some, if_neg (by simp [hid])]
      exact hins

theorem insertRow_settles (hsql : store = .sqlite ∨ store = .postgres) :
    Triple (newSystem cfg store start cond i) (fun _ => Drawn store start i books taskId)
      (SQLStorageBase.insertRow taskId contextId message key)
      (fun existing _ => Settling store start i books contextId key taskId existing)
      fun _ _ => Leaving store start i E := by
  refine Triple.bind (pause_rule (fun _ _ h ha => ha.aside h) (fun _ _ h ha => ha.aside h)
    fun a ha hok hi => ⟨ha.inv, hE.interrupted a hok hi⟩) fun _ => ?_
  have hstable : (newSystem cfg store start cond i).Stable
      (InTransaction store start i books contextId key taskId) := fun _ _ h ha => ha.aside h
  refine Triple.bind (Q := fun _ _ => InTransaction store start i books contextId key taskId)
    (Triple.perform (fun _ _ _ h ha => ha.aside h) (fun _ _ => hstable) fun _ a ha _ => ?_)
    fun _ => ?_
  · have hreq : ArchiveReq store i (.inl (.insert taskId contextId message key)) a :=
      ⟨hsql, ha.mine, ha.unstored, ha.idle⟩
    refine ⟨hreq, fun a' _ hperf => ?_⟩
    have hinv := ha.inv.step (archiveStep ha.inv hreq (archive_performs hperf))
    rcases insert_spec ha.inv hsql ha.mine ha.unstored (archive_performs hperf) with
      ⟨k, t, rfl, hfind, rfl⟩ | ⟨-, rfl⟩
    · exact Or.inl ⟨k, t, rfl, ha, hfind⟩
    · exact Or.inr ⟨hinv, ha.books, _, List.mem_cons_self, rfl, rfl, rfl⟩
  · rcases key with _ | k
    · refine Triple.pure (fun _ => hstable) ?_
      rintro _ a (⟨_, _, hkey, -⟩ | hins)
      · exact nomatch hkey
      · exact hins
    · refine Triple.bind (pause_rule hstable (fun _ _ h ha => ha.aside h)
        fun a ha hok hi => ⟨ha.inv, hE.interrupted a hok hi⟩) fun _ => ?_
      have hread : ∀ t : Option Task, (newSystem cfg store start cond i).Stable fun a =>
          Settling store start i books contextId (some k) taskId
            (t.filter fun task => task.id ≠ taskId) a := fun _ _ _ h ha => ha.aside h
      refine Triple.bind (archive_asks (fun a => a.readBack store i contextId k) (fun _ => rfl)
        (fun _ => trivial) hstable hread fun a ha => ha.settling) fun row => ?_
      exact Triple.pure (fun _ => hread row) fun _ _ ha => ha

/-- What a transaction has answered. -/
def Concluded (store : Store) (start : Archive ι) (i : ι) (books : TaskId → Account)
    (contextId : ContextId) (key : Option String) (taskId : TaskId) :
    Option Task → Archive ι → Prop
  | some task, a => task.justCreated = false ∧
      Earlier store start i books contextId key task.id a
  | none, a => Stored store start i books contextId key taskId a

omit [DecidableEq ι] hE in
theorem Concluded.aside {existing : Option Task} (h : Aside store start i a a')
    (ha : Concluded store start i books contextId key taskId existing a) :
    Concluded store start i books contextId key taskId existing a' := by
  rcases existing with _ | task
  · exact Stored.aside h ha
  · exact ⟨ha.1, ha.2.aside h⟩

omit hE in
theorem Settling.commit {existing : Option Task}
    (ha : Settling store start i books contextId key taskId existing a)
    (h : a.perform cfg store i (.inl .commit) = some (a', ())) :
    Concluded store start i books contextId key taskId existing a' := by
  rcases existing with _ | task
  · obtain ⟨row, hmem, rfl, rfl, rfl⟩ := Inserting.session ha
    have hinv := Inserting.inv ha
    rcases commit_spec hinv h with ⟨-, hidle⟩ | ⟨row', hmem', hstore, rfl⟩
    · exact absurd hmem (hidle row)
    · obtain rfl := hinv.single i row row' hmem hmem'
      exact hstore.holding hinv (Inserting.books ha)
  · rcases commit_spec ha.2.1.inv h with ⟨rfl, -⟩ | ⟨row, hmem, -⟩
    · exact ha
    · exact absurd hmem (ha.2.1.idle row)

theorem transaction_concludes (hsql : store = .sqlite ∨ store = .postgres) :
    Triple (newSystem cfg store start cond i) (fun _ => Drawn store start i books taskId)
      (SQLStorageBase.transaction taskId contextId message key)
      (fun existing _ => Concluded store start i books contextId key taskId existing)
      fun _ _ => Raising store start i E := by
  refine Triple.tryCatch (X := fun _ _ => Leaving store start i E) (Triple.bind
    (insertRow_settles hE hsql) fun existing => ?_) fun x => ?_
  · have hstable : (newSystem cfg store start cond i).Stable
        (Settling store start i books contextId key taskId existing) := fun _ _ h ha => ha.aside h
    have hdone : (newSystem cfg store start cond i).Stable
        (Concluded store start i books contextId key taskId existing) := fun _ _ h ha => ha.aside h
    refine Triple.bind (pause_rule hstable (fun _ _ h ha => ha.aside h)
      fun a ha hok hi => ⟨ha.inv, hE.interrupted a hok hi⟩) fun _ => ?_
    refine Triple.bind (Q := fun _ _ =>
      Concluded store start i books contextId key taskId existing) (Triple.perform
        (fun _ => hstable) (fun _ _ => hdone) fun _ a ha _ => ?_) fun _ => ?_
    · exact ⟨trivial, fun a' _ hperf => ha.commit (archive_performs hperf)⟩
    · exact Triple.pure (fun _ => hdone) fun _ _ ha => ha
  · refine Triple.bind (Q := fun _ _ => Raising store start i E) (Triple.perform
      (fun _ _ _ h ha => ha.aside h) (fun _ _ _ _ h ha => ha.aside h) fun _ a ha _ => ?_)
      fun _ => Triple.throw (fun _ _ _ h ha => ha.aside h) fun _ _ ha => ha
    have hreq : ArchiveReq store i (.inl .rollback : ArchiveCall Unit) a := trivial
    refine ⟨hreq, fun a' _ hperf => ?_⟩
    have hinv := ha.1.step (archiveStep ha.1 hreq (archive_performs hperf))
    obtain rfl : a.endSession i = a' :=
      (Prod.mk.inj (Option.some_inj.mp (archive_performs hperf))).1
    exact ⟨a.books i, ⟨hinv, rfl, fun row hmem => of_decide_eq_true (List.mem_filter.mp hmem).2 rfl⟩,
      ha.2⟩

theorem sql_createTask (hsql : store = .sqlite ∨ store = .postgres) :
    Triple (newSystem cfg store start cond i) (fun _ => Holding store start i books)
      (SQLStorageBase.createTask contextId message key)
      (fun task _ => Answered store start i books contextId key task)
      fun _ _ => Raising store start i E := by
  refine Triple.bind uuid_draws fun taskId => ?_
  refine Triple.bind (transaction_concludes hE hsql) fun existing => ?_
  rcases existing with _ | task
  · exact loadCreated_answers hE
  · have hstable : (newSystem cfg store start cond i).Stable
        (Concluded store start i books contextId key taskId (some task)) :=
      fun _ _ h ha => ha.aside h
    refine Triple.bind (pause_rule hstable (fun _ _ h ha => ha.aside h)
      fun a ha hok hi => ha.2.1.raising (hE.interrupted a hok hi)) fun _ => ?_
    refine Triple.pure (fun _ => hstable) fun _ a ha => ⟨ha.2.2, ?_⟩
    rw [if_neg (by rw [ha.1]; exact Bool.false_ne_true)]
    exact ha.2.1

/-- **`create_task`**, on every storage. -/
theorem createTask_answers :
    Triple (newSystem cfg store start cond i) (fun _ => Holding store start i books)
      (store.createTask contextId message key)
      (fun task _ => Answered store start i books contextId key task)
      fun _ _ => Raising store start i E := by
  cases store with
  | memory => exact createInMemory_answers
  | sqlite => exact sql_createTask hE (Or.inl rfl)
  | postgres => exact sql_createTask hE (Or.inr rfl)
  | redis => exact redis_createTask hE

/-! ### After `create_task` -/

omit hE

variable (cfg store cond start) in
/-- The system of request `i` once it works on a stored task. -/
abbrev taskSystem (i : ι) (taskId : TaskId) : System Call (Archive ι) :=
  ((newSystem cfg store start cond i).comap fun _ e => Sum.inr (taskId, e)).within
    fun a => (a.row taskId).isSome = true

theorem task_performs {β : Type} {e : Call β} {b : β}
    (h : (taskSystem cfg store start cond i taskId).perform e a = some (a', b)) :
    a.perform cfg store i (.inr (taskId, e)) = some (a', b) := h

theorem task_performs_op {β : Type} {e : Op β} {b : β}
    (h : ((taskSystem cfg store start cond i taskId).comap fun _ => Sum.inl).perform e a =
      some (a', b)) : a.perform cfg store i (.inr (taskId, .inl e)) = some (a', b) := h

variable (cfg store cond start) in
theorem task_hosts (i : ι) (taskId : TaskId) : Hosts cfg taskId
    ((taskSystem cfg store start cond i taskId).comap fun _ => Sum.inl)
    fun a => (a.offices taskId).world where
  perform e a a' b hperf := by
    obtain ⟨⟨o, b'⟩, hoffice, heq⟩ := Option.map_eq_some_iff.mp hperf
    obtain ⟨rfl, rfl⟩ := Prod.mk.inj heq
    have hself : Function.update a.offices taskId o taskId = o := Function.update_self ..
    dsimp only
    rw [hself]
    exact (Office.perform_op hoffice).1
  same e a a' b hperf hworld := by
    obtain ⟨⟨o, b'⟩, hoffice, heq⟩ := Option.map_eq_some_iff.mp hperf
    obtain ⟨rfl, rfl⟩ := Prod.mk.inj heq
    have hself : Function.update a.offices taskId o taskId = o := Function.update_self ..
    dsimp only at hworld
    rw [hself] at hworld
    have ho : o = a.offices taskId := by
      rw [(Office.perform_op hoffice).2, hworld, Office.put_self]
    rw [ho, Function.update_eq_self]
  moves a a' hstep := by
    obtain ⟨haside, hsome⟩ := hstep
    intro row' hrow'
    obtain ⟨row, hrow⟩ := Option.isSome_iff_exists.mp hsome
    obtain ⟨r, hr, hsame⟩ := haside.rows taskId row hrow
    obtain rfl := Option.some_inj.mp (hr.symm.trans hrow')
    exact ⟨row, hrow, hsame.moves⟩

/-- The request works on a task, with `account` in its books for it. -/
structure Tending (store : Store) (start : Archive ι) (i : ι) (books : TaskId → Account)
    (contextId : ContextId) (key : Option String) (taskId : TaskId) (account : Account)
    (a : Archive ι) : Prop where
  holding : Holding store start i (Function.update books taskId account) a
  indexed : Indexed store contextId key taskId a

variable {account : Account}

omit [DecidableEq ι] in
theorem Tending.aside (h : Aside store start i a a')
    (ha : Tending store start i books contextId key taskId account a) :
    Tending store start i books contextId key taskId account a' :=
  ⟨ha.holding.aside h, ha.indexed.aside h⟩

omit [DecidableEq ι] in
theorem Tending.account_eq (ha : Tending store start i books contextId key taskId account a) :
    (a.offices taskId).accounts i = account := by
  have hbooks := congrFun ha.holding.books taskId
  rw [Function.update_self] at hbooks
  exact hbooks

/-- A step on the task, which changes the account. -/
theorem Tending.step {account' : Account}
    (ha : Tending store start i books contextId key taskId account a) (hb : Beside a a' taskId)
    (ht : TaskStep i (a.row taskId) (a'.row taskId) (a.accounts taskId) (a'.accounts taskId))
    (haccount : a'.accounts taskId i = account') :
    Tending store start i books contextId key taskId account' a' := by
  have hstep : ArchiveStep store i a a' := .task taskId hb ht
  refine ⟨⟨ha.holding.inv.step hstep, ?_, ?_⟩, ha.indexed.step ha.holding.inv hstep⟩
  · funext t
    by_cases hs : t = taskId
    · subst hs
      rw [Function.update_self]
      exact haccount
    · have hbooks := congrFun ha.holding.books t
      rw [Function.update_of_ne hs] at hbooks ⊢
      rw [← hbooks]
      exact congrFun (hb.accounts t hs) i
  · rw [hb.sessions]
    exact ha.holding.idle

/-- An operation on the task is beside the rest. -/
theorem beside_of_perform {β : Type} {e : Call β} {b : β}
    (h : a.perform cfg store i (.inr (taskId, e)) = some (a', b)) :
    Beside a a' taskId ∧
      Office.perform cfg taskId i e (a.offices taskId) = some (a'.offices taskId, b) := by
  obtain ⟨⟨o, b'⟩, hoffice, heq⟩ := Option.map_eq_some_iff.mp h
  obtain ⟨rfl, rfl⟩ := Prod.mk.inj heq
  refine ⟨⟨rfl, rfl, rfl, rfl, fun s hs => ?_, fun s hs => ?_⟩, ?_⟩
  · simp [Archive.row, Function.update_of_ne hs]
  · simp [Archive.accounts, Function.update_of_ne hs]
  · have hself : Function.update a.offices taskId o taskId = o := Function.update_self ..
    dsimp only
    rw [hself]
    exact hoffice

omit [DecidableEq ι] in
theorem taskReq_quiet {β : Type} {e : Op β} {o : Office ι} (he : e.quiet = true) :
    TaskReq taskId i (.inl e) o := by
  cases e with
  | update site args => exact nomatch he
  | updateWrite b site args attempt row values => exact nomatch he
  | _ => trivial

/-- The task as it is stored: with its id, and without the marker. -/
def Plain (taskId : TaskId) (task : Task) : Prop := task.id = taskId ∧ task.justCreated = false

theorem plain_unmarked (task : Task) : Plain task.id task.unmarked := by
  refine ⟨rfl, ?_⟩
  show (AList.lookup justCreatedKey (task.metadata.entries.erase justCreatedKey)).isSome = false
  rw [AList.lookup_erase]
  rfl

include hE in
/-- The request only reads. -/
theorem tending_reading {I : Archive ι → Prop}
    (hI : ∀ a a', Aside store start i a a' → I a → I a')
    (hhold : ∀ a, I a → ∃ books, Holding store start i books a) :
    Reading (taskSystem cfg store start cond i taskId) (fun a => (a.offices taskId).world) I
      (fun task _ => Plain taskId task) fun _ => Raising store start i E where
  stable _ _ h ha := hI _ _ h.1 ha
  stable_loaded _ _ _ _ ht := ht
  stable_raise _ _ h ha := ha.aside h.1
  req_quiet _ _ he _ := taskReq_quiet he
  loaded a row ha hrow := by
    obtain ⟨books, hholding⟩ := hhold a ha
    exact hholding.inv.unmarked hrow
  cancelled a ha hok hi := by
    obtain ⟨books, hholding⟩ := hhold a ha
    exact hholding.raising (hE.cancelled taskId _ a hok hi)

/-- The request has stored the task, and not handed its operation over. -/
def Unhanded (store : Store) (start : Archive ι) (i : ι) (books : TaskId → Account)
    (contextId : ContextId) (key : Option String) (taskId : TaskId) (a : Archive ι) : Prop :=
  ∃ n, Tending store start i books contextId key taskId { commits := n + 1 } a

/-- The request has handed the operation over. -/
def HandedOn (store : Store) (start : Archive ι) (i : ι) (books : TaskId → Account)
    (contextId : ContextId) (key : Option String) (taskId : TaskId) (a : Archive ι) : Prop :=
  ∃ n m, Tending store start i books contextId key taskId { commits := n + 1, handed := [m] } a

omit [DecidableEq ι] in
theorem Unhanded.aside (h : Aside store start i a a')
    (ha : Unhanded store start i books contextId key taskId a) :
    Unhanded store start i books contextId key taskId a' := by
  obtain ⟨n, ha⟩ := ha
  exact ⟨n, ha.aside h⟩

omit [DecidableEq ι] in
theorem HandedOn.aside (h : Aside store start i a a')
    (ha : HandedOn store start i books contextId key taskId a) :
    HandedOn store start i books contextId key taskId a' := by
  obtain ⟨n, m, ha⟩ := ha
  exact ⟨n, m, ha.aside h⟩

include hE in
theorem unhanded_handOver :
    HandOver (taskSystem cfg store start cond i taskId) (fun a => (a.offices taskId).world)
      (Unhanded store start i books contextId key taskId)
      (HandedOn store start i books contextId key taskId) (fun task _ => Plain taskId task)
      fun _ => Raising store start i E where
  before := by
    refine tending_reading hE (fun _ _ h ha => ha.aside h) ?_
    rintro a ⟨n, ha⟩
    exact ⟨_, ha.holding⟩
  after := by
    refine tending_reading hE (fun _ _ h ha => ha.aside h) ?_
    rintro a ⟨n, m, ha⟩
    exact ⟨_, ha.holding⟩
  enqueue m a ha _ := by
    obtain ⟨n, ha⟩ := ha
    have haccount := ha.account_eq
    have hreq : TaskReq taskId i (.inr (.enqueue m)) (a.offices taskId) := by
      refine ⟨?_, ?_⟩
      · rw [haccount]
        exact Nat.succ_ne_zero n
      · rw [haccount]
    refine ⟨hreq, fun a' hperf => ⟨?_, fun _ ht => ht⟩⟩
    obtain ⟨hb, hoffice⟩ := beside_of_perform (task_performs hperf)
    refine ⟨n, m, ha.step hb (taskStep hreq hoffice) ?_⟩
    show (a'.offices taskId).accounts i = _
    rw [← (Prod.mk.inj (Option.some_inj.mp hoffice)).1]
    show Function.update (a.offices taskId).accounts i _ i = _
    rw [Function.update_self, haccount]
    rfl

include hE in
/-- The tenant of a new task is written by the request that has stored it. -/
theorem tenant_writeRule (tenant : String) :
    WriteRule taskId ((taskSystem cfg store start cond i taskId).comap fun _ => Sum.inl)
      (fun a => (a.offices taskId).world) .other { taskMetadata := tenantMetadata tenant }
      (Unhanded store start i books contextId key taskId)
      (fun _ => Unhanded store start i books contextId key taskId)
      fun _ => Raising store start i E where
  stable _ _ h ha := ha.aside h.1
  stable_commit _ _ _ h ha := ha.aside h.1
  stable_raise _ _ _ h ha := ha.aside h.1
  req_await _ _ _ := trivial
  req_update a ha _ := by
    obtain ⟨n, ha⟩ := ha
    refine ⟨?_, harmless_tenant tenant⟩
    rw [ha.account_eq]
    exact Nat.succ_ne_zero n
  req_read _ _ _ _ := trivial
  req_write b attempt row values a ha hhonest _ := by
    obtain ⟨n, ha⟩ := ha
    refine ⟨hhonest, ?_, harmless_tenant tenant⟩
    rw [ha.account_eq]
    exact Nat.succ_ne_zero n
  seen _ _ _ _ e he := nomatch he
  merge b a a' out ha hperf := by
    obtain ⟨n, ha⟩ := ha
    obtain ⟨hb, hoffice⟩ := beside_of_perform (task_performs_op hperf)
    obtain ⟨hrow, haccounts⟩ := Office.unchanged_of_perform hoffice rfl
    refine ⟨n, ha.step hb (.idle hrow haccounts) ?_⟩
    show (a'.offices taskId).accounts i = _
    rw [haccounts]
    exact ha.account_eq
  -- the write adds one commit to the account of this request and touches no other account
  commit e a a' b row row' _ ha _ hperf hrow hw' hcommit := by
    obtain ⟨n, ha⟩ := ha
    have haccount := ha.account_eq
    obtain ⟨hb, hoffice⟩ := beside_of_perform (task_performs_op hperf)
    have hrow' : (a'.offices taskId).world.row = some row' := by rw [hw']
    have haccounts : (a'.offices taskId).accounts = Function.update (a.offices taskId).accounts i
        { commits := n + 2 } := by
      rw [(Office.perform_op hoffice).2, Office.put_commit hrow hrow' hcommit.later.version, haccount]
    refine ⟨n + 1, ha.step hb (.write hrow hrow'
      (hcommit.sameTask (harmless_tenant tenant)) ?_ ?_) ?_⟩
    · show ((a.offices taskId).accounts i).commits ≠ 0
      rw [haccount]
      exact Nat.succ_ne_zero n
    · show (a'.offices taskId).accounts = Function.update (a.offices taskId).accounts i _
      rw [haccounts]
      show _ = Function.update (a.offices taskId).accounts i
        { (a.offices taskId).accounts i with commits := ((a.offices taskId).accounts i).commits + 1 }
      rw [haccount]
    · show (a'.offices taskId).accounts i = _
      rw [haccounts, Function.update_self]
  refused op b a e hop ha hok hperf _ := by
    obtain ⟨n, ha⟩ := ha
    exact ha.holding.raising
      (hE.refused taskId op b a a e hok (task_performs_op hperf) hop)
  cancelled pt a ha hok hi := by
    obtain ⟨n, ha⟩ := ha
    exact ha.holding.raising (hE.cancelled taskId pt a hok hi)
  interrupted _ a ha hok hi := by
    obtain ⟨n, ha⟩ := ha
    exact ha.holding.raising (hE.cancelled taskId _ a hok hi)

include hE in
/-- What follows a call of `create_task` that has stored a task. -/
theorem afterSubmit_new (params : SendParams) {task : Task} (hplain : Plain taskId task) :
    Triple (taskSystem cfg store start cond i taskId)
      (fun _ => Unhanded store start i books contextId key taskId)
      (afterSubmit store.kind params task true)
      (fun answer _ a => HandedOn store start i books contextId key taskId a ∧
        Plain taskId answer) fun _ _ => Raising store start i E := by
  have hhosts := task_hosts cfg store start cond i taskId
  have hstable : (taskSystem cfg store start cond i taskId).Stable
      (Unhanded store start i books contextId key taskId) := fun _ _ h ha => ha.aside h.1
  refine Triple.bind (Q := fun _ _ => Unhanded store start i books contextId key taskId) ?_
    fun _ => ((unhanded_handOver hE).rest hhosts store.kind params task).conseq
      (fun _ _ ha => ⟨ha, hplain⟩) (fun _ _ _ ha => ha) fun _ _ _ hx => hx
  rw [persistTenant]
  split
  · exact Triple.pure (fun _ => hstable) fun _ _ ha => ha
  · rename_i tenant _
    split
    · exact Triple.bind (Triple.lift (hhosts.storageUpdate (tenant_writeRule hE tenant) store.kind))
        fun _ => Triple.pure (fun _ => hstable) fun _ _ ha => ha
    · exact Triple.pure (fun _ => hstable) fun _ _ ha => ha

include hE in
/-- What follows a call of `create_task` that has found a task. -/
theorem afterSubmit_repeated (params : SendParams) {task : Task} (hplain : Plain taskId task) :
    Triple (taskSystem cfg store start cond i taskId)
      (fun _ => Earlier store start i books contextId key taskId)
      (afterSubmit store.kind params task false)
      (fun answer _ a => Earlier store start i books contextId key taskId a ∧
        Plain taskId answer) fun _ _ => Raising store start i E := by
  have htenant : persistTenant store.kind params false = pure () := by
    rw [persistTenant]
    split
    · rfl
    · rw [if_neg fun h => Bool.false_ne_true h.2.1]
  have hreading : Reading (taskSystem cfg store start cond i taskId)
      (fun a => (a.offices taskId).world) (Earlier store start i books contextId key taskId)
      (fun task _ => Plain taskId task) fun _ => Raising store start i E :=
    tending_reading hE (fun _ _ h ha => ha.aside h) fun _ ha => ⟨books, ha.1⟩
  rw [afterSubmit, htenant]
  exact (hreading.repetition (task_hosts cfg store start cond i taskId) store.kind params task).conseq
    (fun _ _ ha => ⟨ha, hplain⟩) (fun _ _ _ ha => ha) fun _ _ _ hx => hx

/-- No operation deletes the task. -/
theorem isSome_of_perform {β : Type} {e : Call β} {b : β}
    (h : a.perform cfg store i (.inr (taskId, e)) = some (a', b))
    (hrow : (a.row taskId).isSome = true) : (a'.row taskId).isSome = true := by
  obtain ⟨-, hoffice⟩ := beside_of_perform h
  change (a.offices taskId).world.row.isSome = true at hrow
  show (a'.offices taskId).world.row.isSome = true
  generalize a.offices taskId = o, a'.offices taskId = o' at hrow hoffice ⊢
  rcases e with e | e
  · exact World.isSome_of_perform (Office.perform_op hoffice).1 hrow
  · obtain ⟨row, hsome⟩ := Option.isSome_iff_exists.mp hrow
    cases e with
    | createTask contextId m =>
      simp only [Office.perform, hsome] at hoffice
      rw [← (Prod.mk.inj (Option.some_inj.mp hoffice)).1]
      exact hrow
    | enqueue m =>
      rw [← (Prod.mk.inj (Option.some_inj.mp hoffice)).1]
      exact hrow
    | runTask =>
      rw [← (Prod.mk.inj (Option.some_inj.mp hoffice)).1]
      exact hrow

/-- A program that works on a stored task. -/
theorem onStored {α : Type} {m : RequestM α} {P : Unit → Archive ι → Prop}
    {Q : α → Unit → Archive ι → Prop} {X : Exc → Unit → Archive ι → Prop}
    (hm : Triple (taskSystem cfg store start cond i taskId) P m Q X)
    (hP : ∀ u a, P u a → (a.row taskId).isSome = true) :
    Triple (newSystem cfg store start cond i) P (Act.lift (fun _ e => Sum.inr (taskId, e)) m) Q
      X := by
  refine Triple.lift (Triple.within (K := fun a => (a.row taskId).isSome = true) ?_ ?_ hm hP)
  · intro a a' h hrow
    obtain ⟨row, hrow⟩ := Option.isSome_iff_exists.mp hrow
    obtain ⟨row', hrow', -⟩ := h.rows taskId row hrow
    rw [hrow']
    rfl
  · intro β e a a' b hperf hrow
    exact isSome_of_perform
      (show a.perform cfg store i (.inr (taskId, e)) = some (a', b) from hperf) hrow

/-! ### The whole request -/

/-- What a request has answered: the marker of `create_task`, and the task. -/
def SentNew (store : Store) (start : Archive ι) (i : ι) (books : TaskId → Account)
    (message : Message) (created : Bool) (answer : TaskId) (a : Archive ι) : Prop :=
  ∃ c, (message.contextId ≠ "" → c = message.contextId) ∧
    Indexed store c (idempotencyKey message) answer a ∧
    if created then books answer = {} ∧ ∃ n m, Holding store start i
      (Function.update books answer { commits := n + 1, handed := [m] }) a
    else Holding store start i books a

omit [DecidableEq ι] in
theorem SentNew.aside {created : Bool} {t : TaskId} (h : Aside store start i a a')
    (ha : SentNew store start i books message created t a) :
    SentNew store start i books message created t a' := by
  obtain ⟨c, hc, hindex, hrest⟩ := ha
  refine ⟨c, hc, hindex.aside h, ?_⟩
  cases created with
  | true =>
    obtain ⟨hempty, n, m, hhold⟩ := hrest
    exact ⟨hempty, n, m, hhold.aside h⟩
  | false => exact Holding.aside h hrest

/-- The context of a new message. -/
theorem newContext_draws : Triple (newSystem cfg store start cond i)
    (fun _ => Holding store start i books) (newContext message)
    (fun c _ a => Holding store start i books a ∧ (message.contextId ≠ "" → c = message.contextId))
    fun _ _ => Raising store start i E := by
  rw [newContext]
  split
  · rename_i hblank
    exact uuid_draws.conseq (fun _ _ ha => ha)
      (fun _ _ _ ha => ⟨ha.toHolding, fun hne => absurd hblank hne⟩) fun _ _ _ hx => hx
  · exact Triple.pure (fun _ _ _ h ha => ha.aside h) fun _ _ ha => ⟨ha, fun _ => rfl⟩

/-- `_submit_task` has answered. -/
def Submitting (store : Store) (start : Archive ι) (i : ι) (books : TaskId → Account)
    (message : Message) (r : Task × Bool) (a : Archive ι) : Prop :=
  ∃ c task, (message.contextId ≠ "" → c = message.contextId) ∧
    r = (task.unmarked, task.justCreated) ∧
    Answered store start i books c (idempotencyKey message) task a

include hE in
theorem submitNew_answers (message : Message) : Triple (newSystem cfg store start cond i)
    (fun _ => Holding store start i books) (submitNew store message)
    (fun r _ => Submitting store start i books message r)
    fun _ _ => Raising store start i E := by
  refine Triple.bind newContext_draws fun c => ?_
  refine Triple.bind (Q := fun task _ a =>
    (message.contextId ≠ "" → c = message.contextId) ∧
      Answered store start i books c (idempotencyKey message) task a) ?_ fun task => ?_
  · rintro u a ⟨ha, hc⟩
    exact (createTask_answers hE).conseq (fun _ _ h => h) (fun _ _ _ h => ⟨hc, h⟩)
      (fun _ _ _ hx => hx) u a ha
  · refine Triple.pure (fun _ _ _ h ha => ⟨ha.1, ha.2.aside h⟩) ?_
    rintro _ a ⟨hc, ha⟩
    exact ⟨c, task, hc, rfl, ha⟩

include hE in
/-- **A request of a new message**: with the marker it has stored the task and handed its
operation over, and without it has done nothing to any task. -/
theorem sendNew_answers (params : SendParams) :
    Triple (newSystem cfg store start cond i) (fun _ => Holding store start i books)
      (sendNew store params)
      (fun r _ a => SentNew store start i books params.message r.1 r.2.id a ∧
        r.2.justCreated = false)
      fun _ _ => Raising store start i E := by
  refine Triple.bind (submitNew_answers hE params.message) ?_
  rintro ⟨submitted, created⟩ u a ⟨c, task, hc, heq, hanswered⟩
  obtain ⟨rfl, rfl⟩ := Prod.mk.inj heq
  obtain ⟨hindex, hrest⟩ := hanswered
  have hstored : (a.row task.id).isSome = true := by
    obtain ⟨row, hrow⟩ := hindex.stored
    rw [hrow]
    rfl
  refine Triple.bind (P := fun _ a' => a' = a) (Q := fun answer _ a =>
    SentNew store start i books params.message task.justCreated answer.id a ∧
      answer.justCreated = false) ?_ (fun answer => ?_) u a rfl
  · rintro u a' rfl
    -- the mark says whether this request has stored the task
    cases hmark : task.justCreated with
    | true =>
      rw [if_pos hmark] at hrest
      refine (onStored (afterSubmit_new hE params (plain_unmarked task)) ?_).conseq
        (fun _ _ h => h) ?_ (fun _ _ _ hx => hx) u a' ⟨0, hrest.2, hindex⟩
      · rintro _ a' ⟨n, ha⟩
        obtain ⟨row, hrow⟩ := ha.indexed.stored
        exact hrow ▸ rfl
      · rintro answer _ a' ⟨⟨n, m, ha⟩, hid, hmark'⟩
        exact ⟨⟨c, hc, hid ▸ ha.indexed, hid ▸ hrest.1, n, m, hid ▸ ha.holding⟩, hmark'⟩
    | false =>
      rw [if_neg (by rw [hmark]; exact Bool.false_ne_true)] at hrest
      refine (onStored (afterSubmit_repeated hE params (plain_unmarked task)) ?_).conseq
        (fun _ _ h => h) ?_ (fun _ _ _ hx => hx) u a' ⟨hrest, hindex⟩
      · rintro _ a' ⟨-, ha⟩
        obtain ⟨row, hrow⟩ := ha.stored
        exact hrow ▸ rfl
      · rintro answer _ a' ⟨ha, hid, hmark'⟩
        exact ⟨⟨c, hc, hid ▸ ha.2, ha.1⟩, hmark'⟩
  · exact Triple.pure (fun _ _ _ h ha => ⟨ha.1.aside h, ha.2⟩) fun _ _ ha => ha

/-! ### All requests together -/

/-- An archive of earlier tasks, before the requests have done anything. -/
structure Archive.Opening (store : Store) (a : Archive ι) : Prop where
  listed : ∀ t row, a.row t = some row → t ∈ a.ids
  proper : ∀ t row, a.row t = some row →
    row.task.id = t ∧ row.task.metadata.entries.lookup justCreatedKey = none
  there : ∀ c k t, a.find store c k = some t → ∃ row, a.row t = some row
  unused : ∀ t i, a.accounts t i = {}
  sessions : a.sessions = []
  drawn : a.drawn = []

omit [DecidableEq ι] in
theorem Archive.Opening.nobody (h : a.Opening store) (j : ι) (row : Row) : (j, row) ∉ a.sessions := by
  rw [h.sessions]
  exact List.not_mem_nil

omit [DecidableEq ι] in
theorem Archive.Opening.inv (h : a.Opening store) : ArchiveInv store a a := by
  refine ⟨h.listed, h.proper, h.there, fun t j hj => absurd (h.unused t j) hj, fun t j => ?_,
    fun t j _ hj _ => ?_, fun t j _ hj _ => ?_, fun j row hmem => absurd hmem (h.nobody j row),
    fun j row _ hmem _ => absurd hmem (h.nobody j row),
    fun j row hmem => absurd hmem (h.nobody j row), fun _ _ _ hf => Or.inl hf⟩
  · rw [h.unused t j]
    exact ⟨Nat.zero_le 1, fun hne => absurd rfl hne⟩
  · rw [h.unused t j] at hj
    exact absurd rfl hj
  · rw [h.drawn] at hj
    exact nomatch hj

omit [DecidableEq ι] in
theorem Archive.Opening.holding (h : a.Opening store) (i : ι) :
    Holding store a i (fun _ => {}) a :=
  ⟨h.inv, funext fun t => h.unused t i, h.nobody i⟩

/-- **Any number of requests of new messages**: what is kept, and what each has answered. -/
theorem newMessages_sound (params : ι → SendParams) (hstart : start.Opening store)
    (hE : ∀ i, Forgiven cfg store i (cond i) E) {ms : List (PoolMove ι (Archive ι))}
    {c : (ι → Prog ArchiveCall (Except Exc (Bool × Task) × Unit)) × Archive ι}
    (hrun : (newMessages cfg store cond).Run (fun i => sendNew store (params i) (), start) ms c) :
    ArchiveInv store start c.2 ∧ ∀ i r, c.1 i = .ret r → match r.1 with
      | .ok (created, task) =>
        SentNew store start i (fun _ => {}) (params i).message created task.id c.2 ∧
          task.justCreated = false
      | .error _ => Raising store start i E c.2 := by
  have hwp : ∀ i, (sendNew store (params i) ()).wp (newSystem cfg store start cond i)
      (fun r a => match r.1 with
        | .ok (created, task) =>
          SentNew store start i (fun _ => {}) (params i).message created task.id a ∧
            task.justCreated = false
        | .error _ => Raising store start i E a) start := by
    intro i
    refine Prog.wp_mono (sendNew_answers (hE i) (params i) () start (hstart.holding i)) ?_
    rintro ⟨r | r, u⟩ a hr
    · exact hr
    · exact hr
  obtain ⟨hinv, hend, -⟩ := hrun.sound newMessages_fit hstart.inv hwp
  refine ⟨hinv, fun i r hr => ?_⟩
  have hi := hend i
  rw [hr] at hi
  exact hi c.2 .refl

end

end A2AKit
