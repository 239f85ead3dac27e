/-
What a program adds to the calls of the middlewares.

`Adds` is a calculus of the log: which middlewares are called before, which of these calls
complete, and which are called after.  A pipeline that comes to its release loop calls the
middlewares that have started in reverse order, up to the first one that does not return.

* `paired_pipeline` — when a pipeline is paired, whether or not its release loop is run;
* `outer_paired` — the pipeline of the router or the dispatcher, around a program that calls no
  middleware.
-/
import A2AKit.JsonRpc

namespace A2AKit

variable {α β : Type}

/-- What the fate of a call makes of it. -/
def Fate.result : Fate → Except Failure Unit
  | .returns => .ok ()
  | .raises => .error .exception
  | .cancelled => .error .cancelled

theorem Fate.result_error {f : Fate} (h : f ≠ .returns) : ∃ e, f.result = .error e := by
  cases f with
  | returns => exact absurd rfl h
  | raises => exact ⟨.exception, rfl⟩
  | cancelled => exact ⟨.cancelled, rfl⟩

/-- The fate of calls in turn: the first one that does not return. -/
def firstFate (F : HttpEvent → Fate) : List HttpEvent → Fate
  | [] => .returns
  | e :: rest => if F e = .returns then firstFate F rest else F e

/-- From `s`, whatever the log, `m` ends with `r` in `s'` and adds calls before of `B`, among them
`C` that complete, and calls after of `A`. -/
def Adds (F : HttpEvent → Fate) (m : HttpM α) (s : StartedLists) (B C A : List Nat)
    (r : Except Failure α) (s' : StartedLists) : Prop :=
  ∀ log, ∃ l, m.eval (answerCall F) s log = (r, s', log ++ l) ∧ beforeCalls l = B ∧
    completedCalls l = C ∧ afterCalls l = A

/-- `m` calls no middleware. -/
def Silent (F : HttpEvent → Fate) (m : HttpM α) (r : Except Failure α) : Prop :=
  ∀ s, Adds F m s [] [] [] r s

variable {F : HttpEvent → Fate} {m : HttpM α} {s s' s'' : StartedLists}
  {B C A B' C' A' : List Nat} {r : Except Failure α} {p : Pass}

namespace Adds

theorem pure {a : α} : Adds F (Pure.pure a : HttpM α) s [] [] [] (.ok a) s :=
  fun log => ⟨[], by rw [Act.eval_pure, List.append_nil], rfl, rfl, rfl⟩

theorem throw {e : Failure} :
    Adds F (MonadExcept.throw e : HttpM α) s [] [] [] (.error e) s :=
  fun log => ⟨[], by rw [Act.eval_throw, List.append_nil], rfl, rfl, rfl⟩

/-- What is added by one program and then by another. -/
theorem concat {l l' : HttpLog}
    (h : beforeCalls l = B ∧ completedCalls l = C ∧ afterCalls l = A)
    (h' : beforeCalls l' = B' ∧ completedCalls l' = C' ∧ afterCalls l' = A') :
    beforeCalls (l ++ l') = B ++ B' ∧ completedCalls (l ++ l') = C ++ C' ∧
      afterCalls (l ++ l') = A ++ A' := by
  obtain ⟨rfl, rfl, rfl⟩ := h
  obtain ⟨rfl, rfl, rfl⟩ := h'
  exact ⟨List.filterMap_append, List.filterMap_append, List.filterMap_append⟩

theorem bind {a : α} {f : α → HttpM β} {r : Except Failure β}
    (hm : Adds F m s B C A (.ok a) s') (hf : Adds F (f a) s' B' C' A' r s'') :
    Adds F (m >>= f) s (B ++ B') (C ++ C') (A ++ A') r s'' := by
  intro log
  obtain ⟨l, heval, hl⟩ := hm log
  obtain ⟨l', heval', hl'⟩ := hf (log ++ l)
  refine ⟨l ++ l', ?_, concat hl hl'⟩
  rw [Act.eval_bind, heval]
  dsimp only
  rw [heval', List.append_assoc]

theorem bind_error {e : Failure} {f : α → HttpM β} (hm : Adds F m s B C A (.error e) s') :
    Adds F (m >>= f) s B C A (.error e) s' := by
  intro log
  obtain ⟨l, heval, hl⟩ := hm log
  refine ⟨l, ?_, hl⟩
  rw [Act.eval_bind, heval]

theorem tryCatch {a : α} {f : Failure → HttpM α} (hm : Adds F m s B C A (.ok a) s') :
    Adds F (tryCatchThe Failure m f) s B C A (.ok a) s' := by
  intro log
  obtain ⟨l, heval, hl⟩ := hm log
  refine ⟨l, ?_, hl⟩
  rw [Act.eval_tryCatch, heval]

theorem tryCatch_error {e : Failure} {f : Failure → HttpM α}
    (hm : Adds F m s B C A (.error e) s') (hf : Adds F (f e) s' B' C' A' r s'') :
    Adds F (tryCatchThe Failure m f) s (B ++ B') (C ++ C') (A ++ A') r s'' := by
  intro log
  obtain ⟨l, heval, hl⟩ := hm log
  obtain ⟨l', heval', hl'⟩ := hf (log ++ l)
  refine ⟨l ++ l', ?_, concat hl hl'⟩
  rw [Act.eval_tryCatch, heval]
  dsimp only
  rw [heval', List.append_assoc]

/-- What an `ensure` adds, however it ends. -/
theorem ensure {release : HttpM Unit} {x : Except Failure Unit} (hm : Adds F m s B C A r s')
    (hr : Adds F release s' B' C' A' x s'') :
    ∃ r', Adds F (m.ensure release) s (B ++ B') (C ++ C') (A ++ A') r' s'' := by
  refine ⟨match x with
    | .ok _ => r
    | .error e => .error e, fun log => ?_⟩
  obtain ⟨l, heval, hl⟩ := hm log
  obtain ⟨l', heval', hl'⟩ := hr (log ++ l)
  refine ⟨l ++ l', ?_, concat hl hl'⟩
  rw [Act.eval_ensure, heval]
  dsimp only
  rw [heval', List.append_assoc]
  cases x with
  | ok _ => rfl
  | error e => rfl

end Adds

/-! ### One call -/

theorem eval_awaitCall (e : HttpEvent) (log : HttpLog) :
    (awaitCall e).eval (answerCall F) s log =
      ((F e).result, s, log ++ [(e, F e)]) := by
  unfold awaitCall
  rw [Act.eval_bind, Act.eval_perform]
  dsimp only [answerCall]
  cases F e with
  | returns => rfl
  | raises => rfl
  | cancelled => rfl

theorem adds_before (i : Nat) : Adds F (awaitCall (.before p i)) s [i]
    (if F (.before p i) = .returns then [i] else []) []
    (F (.before p i)).result s := by
  refine fun log => ⟨[(.before p i, F (.before p i))], eval_awaitCall _ log, rfl, ?_, rfl⟩
  cases F (.before p i) with
  | returns => rfl
  | raises => rfl
  | cancelled => rfl

theorem adds_after (i : Nat) : Adds F (awaitCall (.after p i)) s [] [] [i]
    (F (.after p i)).result s :=
  fun log => ⟨[(.after p i, F (.after p i))], eval_awaitCall _ log, rfl, rfl, rfl⟩

theorem silent_operation (op : ServerOperation) :
    Silent F (awaitCall (.operation op)) (F (.operation op)).result :=
  fun _ log => ⟨[(.operation op, F (.operation op))], eval_awaitCall _ log, rfl, rfl, rfl⟩

theorem silent_point (pt : HttpPoint) :
    Silent F (awaitCall (.point pt)) (F (.point pt)).result :=
  fun _ log => ⟨[(.point pt, F (.point pt))], eval_awaitCall _ log, rfl, rfl, rfl⟩

theorem silent_sync (pt : HttpPoint) : Silent F (syncCall pt)
    (if F (.point pt) = .returns then .ok () else .error .exception) := by
  refine fun s log => ⟨[(.point pt, F (.point pt))], ?_, rfl, rfl, rfl⟩
  unfold syncCall
  rw [Act.eval_bind, Act.eval_perform]
  dsimp only [answerCall]
  cases F (.point pt) with
  | returns => rfl
  | raises => rfl
  | cancelled => rfl

/-! ### The loops of a pipeline -/

/-- The middlewares that start. -/
def entered (F : HttpEvent → Fate) (p : Pass) (l : List Nat) : List Nat :=
  l.takeWhile fun i => F (.before p i) = .returns

/-- The middlewares whose `before_dispatch` is called. -/
def dispatched (F : HttpEvent → Fate) (p : Pass) (l : List Nat) : List Nat :=
  untilFirst (fun i => F (.before p i) ≠ .returns) l

/-- The middlewares that the release loop comes to. -/
def released (F : HttpEvent → Fate) (p : Pass) (l : List Nat) : List Nat :=
  untilFirst (fun i => F (.after p i) ≠ .returns) l

/-- `started` after these middlewares have started. -/
def StartedLists.add (s : StartedLists) (p : Pass) (l : List Nat) : StartedLists :=
  l.foldl (fun s i => s.append p i) s

theorem adds_beforeDispatch (l : List Nat) : Adds F (beforeDispatch p l) s
    (dispatched F p l) (entered F p l) []
    (firstFate F (l.map (.before p))).result (s.add p (entered F p l)) := by
  induction l generalizing s with
  | nil => exact Adds.pure
  | cons i l ih =>
    unfold beforeDispatch
    by_cases hi : F (.before p i) = .returns
    · have hcall : Adds F (awaitCall (.before p i)) s [i] [i] [] (.ok ()) s := by
        have h := adds_before (F := F) (p := p) (s := s) i
        rwa [if_pos hi, hi] at h
      have hmodify : Adds F (Act.modify fun started => started.append p i) s [] [] []
          (.ok ()) (s.append p i) :=
        fun log => ⟨[], by rw [Act.eval_modify, List.append_nil], rfl, rfl, rfl⟩
      have h := hcall.bind (f := fun _ => do
        Act.modify fun started => started.append p i
        beforeDispatch p l) (hmodify.bind (f := fun _ => beforeDispatch p l) ih)
      simpa [dispatched, entered, untilFirst, firstFate, StartedLists.add, hi] using h
    · have hcall : Adds F (awaitCall (.before p i)) s [i] [] []
          (F (.before p i)).result s := by
        have h := adds_before (F := F) (p := p) (s := s) i
        rwa [if_neg hi] at h
      obtain ⟨e, he⟩ := Fate.result_error hi
      rw [he] at hcall
      simpa [dispatched, entered, untilFirst, firstFate, StartedLists.add, hi, he] using
        hcall.bind_error (f := fun _ => do
          Act.modify fun started => started.append p i
          beforeDispatch p l)

theorem adds_afterDispatch (l : List Nat) : Adds F (afterDispatch p l) s [] []
    (released F p l) (firstFate F (l.map (.after p))).result s := by
  induction l with
  | nil => exact Adds.pure
  | cons i l ih =>
    unfold afterDispatch
    have hcall := adds_after (F := F) (p := p) (s := s) i
    by_cases hi : F (.after p i) = .returns
    · rw [hi] at hcall
      simpa [released, untilFirst, firstFate, hi] using
        hcall.bind (f := fun _ => afterDispatch p l) ih
    · obtain ⟨e, he⟩ := Fate.result_error hi
      rw [he] at hcall
      simpa [released, untilFirst, firstFate, hi, he] using
        hcall.bind_error (f := fun _ => afterDispatch p l)

theorem adds_releaseStarted : Adds F (releaseStarted p) s [] []
    (released F p (s.get p).reverse)
    (firstFate F ((s.get p).reverse.map (.after p))).result s := by
  have hget : Adds F (Act.get : HttpM StartedLists) s [] [] [] (.ok s) s :=
    fun log => ⟨[], by rw [Act.eval_get, List.append_nil], rfl, rfl, rfl⟩
  exact hget.bind (f := fun started => afterDispatch p (started.get p).reverse)
    (adds_afterDispatch _)

@[simp] theorem StartedLists.get_add (s : StartedLists) (p : Pass) (l : List Nat) :
    (s.add p l).get p = s.get p ++ l := by
  unfold StartedLists.add
  induction l generalizing s with
  | nil => rw [List.foldl_nil, List.append_nil]
  | cons i l ih =>
    rw [List.foldl_cons, ih]
    cases p with
    | outer => simp [StartedLists.append, StartedLists.get]
    | inner => simp [StartedLists.append, StartedLists.get]

theorem StartedLists.get_add_of_ne {other : Pass} (s : StartedLists) (l : List Nat)
    (hne : other ≠ p) : (s.add p l).get other = s.get other := by
  unfold StartedLists.add
  induction l generalizing s with
  | nil => rfl
  | cons i l ih =>
    rw [List.foldl_cons, ih]
    cases p with
    | outer =>
      cases other with
      | outer => exact absurd rfl hne
      | inner => rfl
    | inner =>
      cases other with
      | outer => rfl
      | inner => exact absurd rfl hne

theorem StartedLists.inner_add_outer (s : StartedLists) (l : List Nat) :
    (s.add .outer l).inner = s.inner := by
  have h : (s.add .outer l).get .inner = s.get .inner := s.get_add_of_ne l nofun
  exact h

/-! ### Middlewares in their order -/

variable {n : Nat}

theorem prefix_dispatched (l : List Nat) : dispatched F p l <+: l := by
  unfold dispatched
  induction l with
  | nil => exact List.prefix_refl _
  | cons i l ih =>
    unfold untilFirst
    split
    · exact ⟨l, rfl⟩
    · exact List.cons_prefix_cons.mpr ⟨rfl, ih⟩

theorem nodup_dispatched : (dispatched F p (List.range n)).Nodup :=
  List.nodup_range.sublist (prefix_dispatched _).sublist

/-- The middlewares that start are the first ones. -/
theorem entered_range : ∃ k ≤ n, entered F p (List.range n) = List.range k := by
  have hpre : entered F p (List.range n) <+: List.range n := List.takeWhile_prefix _
  refine ⟨(entered F p (List.range n)).length, ?_, ?_⟩
  · simpa using hpre.length_le
  · have htake := List.prefix_iff_eq_take.mp hpre
    rw [List.take_range, Nat.min_eq_left (by simpa using hpre.length_le)] at htake
    exact htake

/-- The list up to its first element with `q` is all of it where only the last one may have it. -/
theorem untilFirst_concat_eq {q : Nat → Bool} {l : List Nat} {a : Nat} :
    untilFirst q (l ++ [a]) = l ++ [a] ↔ ∀ b ∈ l, q b = false := by
  constructor
  · induction l with
    | nil => exact fun _ => nofun
    | cons b l ih =>
      intro h
      rw [List.cons_append, untilFirst] at h
      split at h
      · exact absurd (List.cons.inj h).2 (by simp)
      · rename_i hb
        rw [List.forall_mem_cons]
        exact ⟨eq_false_of_ne_true hb, ih (List.cons.inj h).2⟩
  · intro h
    rw [untilFirst_append _ _ h, untilFirst]
    split
    · rfl
    · rfl

/-- The `after_dispatch` of every middleware that starts, but the first one, returns. -/
def Releases (F : HttpEvent → Fate) (p : Pass) (n : Nat) : Prop :=
  ∀ i < n, 0 < i → (∀ j ≤ i, F (.before p j) = .returns) → F (.after p i) = .returns

theorem mem_takeWhile_range' {q : Nat → Bool} {a i : Nat} :
    i ∈ (List.range' a n).takeWhile q ↔
      a ≤ i ∧ i < a + n ∧ ∀ j, a ≤ j → j ≤ i → q j = true := by
  induction n generalizing a with
  | zero =>
    constructor
    · exact nofun
    · rintro ⟨hle, hlt, -⟩
      omega
  | succ n ih =>
    rw [List.range'_succ, List.takeWhile_cons]
    split
    · rename_i ha
      rw [List.mem_cons, ih]
      constructor
      · rintro (rfl | ⟨hle, hlt, hall⟩)
        · refine ⟨Nat.le_refl _, by omega, fun j hj hji => ?_⟩
          rwa [Nat.le_antisymm hji hj]
        · refine ⟨by omega, by omega, fun j hj hji => ?_⟩
          rcases Nat.eq_or_lt_of_le hj with rfl | hlt'
          · exact ha
          · exact hall j hlt' hji
      · rintro ⟨hle, hlt, hall⟩
        rcases Nat.eq_or_lt_of_le hle with rfl | hlt'
        · exact Or.inl rfl
        · exact Or.inr ⟨hlt', by omega, fun j hj => hall j (by omega)⟩
    · rename_i ha
      constructor
      · exact nofun
      · rintro ⟨hle, -, hall⟩
        exact absurd (hall a (Nat.le_refl _) hle) ha

theorem mem_entered {i : Nat} : i ∈ entered F p (List.range n) ↔
    i < n ∧ ∀ j ≤ i, F (.before p j) = .returns := by
  unfold entered
  rw [List.range_eq_range', mem_takeWhile_range']
  constructor
  · rintro ⟨-, hlt, hall⟩
    exact ⟨by omega, fun j hj => of_decide_eq_true (hall j (Nat.zero_le _) hj)⟩
  · rintro ⟨hlt, hall⟩
    exact ⟨Nat.zero_le _, by omega, fun j _ hj => decide_eq_true (hall j hj)⟩

/-- No middleware starts. -/
def NoneStarts (F : HttpEvent → Fate) (p : Pass) (n : Nat) : Prop :=
  0 < n → F (.before p 0) ≠ .returns

theorem entered_eq_nil :
    entered F p (List.range n) = [] ↔ NoneStarts F p n := by
  constructor
  · intro hnil hn h0
    have hmem : 0 ∈ entered F p (List.range n) := by
      refine mem_entered.mpr ⟨hn, fun j hj => ?_⟩
      rwa [Nat.le_zero.mp hj]
    rw [hnil] at hmem
    exact nomatch hmem
  · intro hnone
    refine List.eq_nil_iff_forall_not_mem.mpr fun i hi => ?_
    obtain ⟨hlt, hall⟩ := mem_entered.mp hi
    exact hnone (by omega) (hall 0 (Nat.zero_le _))

/-- The release loop comes to all middlewares that have started. -/
theorem released_eq : released F p (entered F p (List.range n)).reverse =
    (entered F p (List.range n)).reverse ↔ Releases F p n := by
  have hmem : Releases F p n ↔ ∀ i ∈ entered F p (List.range n), 0 < i →
      F (.after p i) = .returns := by
    constructor
    · intro h i hi hpos
      obtain ⟨hlt, hall⟩ := mem_entered.mp hi
      exact h i hlt hpos hall
    · exact fun h i hlt hpos hall => h i (mem_entered.mpr ⟨hlt, hall⟩) hpos
  rw [hmem]
  obtain ⟨k, -, heq⟩ := entered_range (F := F) (p := p) (n := n)
  rw [heq]
  cases k with
  | zero => exact iff_of_true rfl nofun
  | succ k =>
    rw [List.range_succ_eq_map, List.reverse_cons]
    unfold released
    rw [untilFirst_concat_eq]
    constructor
    · intro h i hi hpos
      have hi' : i ∈ ((List.range k).map Nat.succ).reverse := by
        rw [List.mem_reverse]
        rcases List.mem_cons.mp hi with rfl | hi
        · omega
        · exact hi
      exact not_not.mp (of_decide_eq_false (h i hi'))
    · intro h i hi
      rw [List.mem_reverse] at hi
      refine decide_eq_false (not_not.mpr (h i (List.mem_cons_of_mem _ hi) ?_))
      obtain ⟨j, -, rfl⟩ := List.mem_map.mp hi
      exact Nat.succ_pos j

theorem NoneStarts.releases (h : NoneStarts F p n) : Releases F p n :=
  fun _ hlt _ hall => absurd (hall 0 (Nat.zero_le _)) (h (by omega))

/-- A pipeline whose release loop is run, or is not. -/
theorem paired_pipeline {log : HttpLog} (release : Bool)
    (hbefore : beforeCalls log = dispatched F p (List.range n))
    (hcompleted : completedCalls log = entered F p (List.range n))
    (hafter : afterCalls log = if release then
      released F p (entered F p (List.range n)).reverse else []) :
    Paired log ↔ NoneStarts F p n ∨ release = true ∧ Releases F p n := by
  unfold Paired
  rw [hbefore, hcompleted, hafter]
  cases release with
  | true =>
    rw [if_pos rfl, released_eq]
    constructor
    · exact fun h => Or.inr ⟨rfl, h.2⟩
    · exact fun h => ⟨nodup_dispatched, h.elim NoneStarts.releases And.right⟩
  | false =>
    rw [if_neg Bool.false_ne_true, ← entered_eq_nil]
    constructor
    · exact fun h => Or.inl (List.reverse_eq_nil_iff.mp h.2.symm)
    · rintro (h | ⟨h, -⟩)
      · rw [h]
        exact ⟨nodup_dispatched, rfl⟩
      · exact nomatch h

/-! ### Programs that call no middleware -/

/-- `m` calls no middleware, however it ends. -/
def Mute (F : HttpEvent → Fate) (m : HttpM α) : Prop := ∃ r, Silent F m r

namespace Mute

theorem pure (a : α) : Mute F (Pure.pure a : HttpM α) := ⟨.ok a, fun _ => .pure⟩

theorem throw (e : Failure) : Mute F (MonadExcept.throw e : HttpM α) :=
  ⟨.error e, fun _ => .throw⟩

theorem operation (op : ServerOperation) : Mute F (awaitCall (.operation op)) :=
  ⟨_, silent_operation op⟩

theorem point (pt : HttpPoint) : Mute F (awaitCall (.point pt)) := ⟨_, silent_point pt⟩

theorem sync (pt : HttpPoint) : Mute F (syncCall pt) := ⟨_, silent_sync pt⟩

theorem bind {f : α → HttpM β} (hm : Mute F m) (hf : ∀ a, Mute F (f a)) :
    Mute F (m >>= f) := by
  obtain ⟨r, hr⟩ := hm
  cases r with
  | ok a =>
    obtain ⟨r', hr'⟩ := hf a
    exact ⟨r', fun s => (hr s).bind (hr' s)⟩
  | error e => exact ⟨.error e, fun s => (hr s).bind_error⟩

theorem orError {m : HttpM Reply} (hm : Mute F m) : Mute F (A2AKit.orError m) := by
  obtain ⟨r, hr⟩ := hm
  rcases r with e | a
  · cases e with
    | exception => exact ⟨.ok .error, fun s => (hr s).tryCatch_error .pure⟩
    | cancelled => exact ⟨.error .cancelled, fun s => (hr s).tryCatch_error .throw⟩
  · exact ⟨.ok a, fun s => (hr s).tryCatch⟩

theorem exceptBaseException {c : HttpM Unit} (hm : Mute F m) (hc : Mute F c) :
    Mute F (A2AKit.exceptBaseException m c) := by
  obtain ⟨r, hr⟩ := hm
  cases r with
  | ok a => exact ⟨.ok a, fun s => (hr s).tryCatch⟩
  | error e =>
    obtain ⟨r', hr'⟩ := hc.bind fun _ => Mute.throw (α := α) e
    exact ⟨r', fun s => (hr s).tryCatch_error (hr' s)⟩

theorem ensure {c : HttpM Unit} (hm : Mute F m) (hc : Mute F c) :
    Mute F (m.ensure c) := by
  obtain ⟨r, hr⟩ := hm
  obtain ⟨x, hx⟩ := hc
  refine ⟨match x with
    | .ok _ => r
    | .error e => .error e, fun s log => ?_⟩
  obtain ⟨l, heval, hl⟩ := hr s log
  obtain ⟨l', heval', hl'⟩ := hx s (log ++ l)
  refine ⟨l ++ l', ?_, Adds.concat hl hl'⟩
  rw [Act.eval_ensure, heval]
  dsimp only
  rw [heval', List.append_assoc]
  cases x with
  | ok _ => rfl
  | error e => rfl

theorem ite {c : Prop} [Decidable c] {m m' : HttpM α} (h : Mute F m) (h' : Mute F m') :
    Mute F (if c then m else m') := by
  split
  · exact h
  · exact h'

end Mute

/-- `m` ends, from `s` on, and adds these calls. -/
def Leaves (F : HttpEvent → Fate) (m : HttpM α) (s : StartedLists) (B C A : List Nat) : Prop :=
  ∃ r s', Adds F m s B C A r s'

theorem Adds.leaves (h : Adds F m s B C A r s') : Leaves F m s B C A := ⟨r, s', h⟩

/-- What follows adds nothing. -/
theorem Adds.bind_mute {f : α → HttpM β} (h : Adds F m s B C A r s')
    (hf : ∀ a, Mute F (f a)) : Leaves F (m >>= f) s B C A := by
  cases r with
  | ok a =>
    obtain ⟨r', hr'⟩ := hf a
    have hbind := h.bind (hr' s')
    rw [List.append_nil, List.append_nil, List.append_nil] at hbind
    exact hbind.leaves
  | error e => exact h.bind_error.leaves

theorem Leaves.bind_mute {f : α → HttpM β} (h : Leaves F m s B C A)
    (hf : ∀ a, Mute F (f a)) : Leaves F (m >>= f) s B C A := by
  obtain ⟨r, s', h⟩ := h
  exact h.bind_mute hf

theorem Mute.leaves (h : Mute F m) : Leaves F m s [] [] [] := by
  obtain ⟨r, hr⟩ := h
  exact (hr s).leaves

/-- An exception is answered. -/
theorem Adds.orError_exception {m : HttpM Reply} (h : Adds F m s B C A (.error .exception) s') :
    Adds F (A2AKit.orError m) s B C A (.ok .error) s' := by
  have hcatch : Adds F (A2AKit.orError m) s (B ++ []) (C ++ []) (A ++ []) (.ok .error) s' :=
    h.tryCatch_error Adds.pure
  rwa [List.append_nil, List.append_nil, List.append_nil] at hcatch

/-- A cancelled handler does not answer. -/
theorem Adds.orError_cancelled {m : HttpM Reply} (h : Adds F m s B C A (.error .cancelled) s') :
    Adds F (A2AKit.orError m) s B C A (.error .cancelled) s' := by
  have hcatch : Adds F (A2AKit.orError m) s (B ++ []) (C ++ []) (A ++ []) (.error .cancelled) s' :=
    h.tryCatch_error Adds.throw
  rwa [List.append_nil, List.append_nil, List.append_nil] at hcatch

theorem Adds.orError {m : HttpM Reply} {r : Except Failure Reply} (h : Adds F m s B C A r s') :
    ∃ r', Adds F (A2AKit.orError m) s B C A r' s' := by
  rcases r with e | a
  · cases e with
    | exception => exact ⟨_, h.orError_exception⟩
    | cancelled => exact ⟨_, h.orError_cancelled⟩
  · exact ⟨_, h.tryCatch⟩

theorem Leaves.orError {m : HttpM Reply} (h : Leaves F m s B C A) :
    Leaves F (orError m) s B C A := by
  obtain ⟨r, s', h⟩ := h
  obtain ⟨r', h'⟩ := h.orError
  exact h'.leaves

/-! ### A handler's own pipeline -/

/-- The calls before of a handler's pipeline, and what comes after them. -/
def Inner (F : HttpEvent → Fate) (m : HttpM α) (s : StartedLists) (n : Nat) (A : List Nat)
    (r : Except Failure α) : Prop :=
  Adds F m s (dispatched F .inner (List.range n)) (entered F .inner (List.range n)) A r
    (s.add .inner (entered F .inner (List.range n)))

/-- What the release loop of a handler comes to. -/
abbrev releasedInner (F : HttpEvent → Fate) (n : Nat) : List Nat :=
  released F .inner (entered F .inner (List.range n)).reverse

/-- All middlewares start. -/
def AllStart (F : HttpEvent → Fate) (p : Pass) (n : Nat) : Prop :=
  ∀ i < n, F (.before p i) = .returns

theorem firstFate_returns (l : List HttpEvent) :
    firstFate F l = .returns ↔ ∀ e ∈ l, F e = .returns := by
  induction l with
  | nil => exact iff_of_true rfl nofun
  | cons e l ih =>
    rw [firstFate, List.forall_mem_cons]
    split
    · rename_i he
      exact ⟨fun h => ⟨he, ih.mp h⟩, fun h => ih.mpr h.2⟩
    · rename_i he
      exact ⟨fun h => absurd h he, fun h => absurd h.1 he⟩

theorem allStart_iff : AllStart F p n ↔
    firstFate F ((List.range n).map (.before p)) = .returns := by
  rw [firstFate_returns]
  constructor
  · intro h e he
    obtain ⟨i, hi, rfl⟩ := List.mem_map.mp he
    exact h i (List.mem_range.mp hi)
  · exact fun h i hi => h _ (List.mem_map.mpr ⟨i, List.mem_range.mpr hi, rfl⟩)

instance : Decidable (AllStart F p n) := decidable_of_iff _ allStart_iff.symm

/-- The middlewares, and then an operation that calls none. -/
theorem inner_submission {op : HttpM Unit} {x : Except Failure Unit} (hop : Silent F op x) :
    Inner F (do
      beforeDispatch .inner (List.range n)
      op) s n [] (if AllStart F .inner n then x
        else (firstFate F ((List.range n).map (.before .inner))).result) := by
  have hbefore := adds_beforeDispatch (F := F) (p := .inner) (s := s) (List.range n)
  unfold Inner
  split
  · rename_i hall
    rw [allStart_iff.mp hall] at hbefore
    have h := hbefore.bind (f := fun _ => op) (hop _)
    rw [List.append_nil, List.append_nil] at h
    exact h
  · rename_i hsome
    obtain ⟨e, he⟩ := Fate.result_error (mt allStart_iff.mpr hsome)
    rw [he] at hbefore ⊢
    exact hbefore.bind_error

variable (hs : s.inner = [])
include hs

theorem adds_releaseInner :
    ∃ x, Adds F (releaseStarted .inner) (s.add .inner (entered F .inner (List.range n)))
      [] [] (releasedInner F n) x (s.add .inner (entered F .inner (List.range n))) := by
  have h := adds_releaseStarted (F := F) (p := .inner)
    (s := s.add .inner (entered F .inner (List.range n)))
  rw [StartedLists.get_add, show s.get .inner = [] from hs, List.nil_append] at h
  exact ⟨_, h⟩

/-- A handler that releases and raises again. -/
theorem Inner.release_throw {e : Failure} (h : Inner F m s n [] (.error e))
    {f : Failure → HttpM α} (hf : f e = do
      releaseStarted .inner
      throw e) :
    ∃ e', Inner F (tryCatchThe Failure m f) s n (releasedInner F n) (.error e') := by
  obtain ⟨x, hx⟩ := adds_releaseInner (F := F) (n := n) hs
  cases x with
  | ok _ =>
    have hthrow := hx.bind (f := fun _ => (MonadExcept.throw e : HttpM α)) Adds.throw
    have h' := Adds.tryCatch_error (f := f) h (by rw [hf]; exact hthrow)
    simp only [List.append_nil, List.nil_append] at h'
    exact ⟨e, h'⟩
  | error e' =>
    have hthrow := hx.bind_error (f := fun _ => (MonadExcept.throw e : HttpM α))
    have h' := Adds.tryCatch_error (f := f) h (by rw [hf]; exact hthrow)
    simp only [List.append_nil, List.nil_append] at h'
    exact ⟨e', h'⟩

theorem Inner.exceptBaseException {e : Failure} (h : Inner F m s n [] (.error e)) :
    ∃ e', Inner F (A2AKit.exceptBaseException m (releaseStarted .inner)) s n
      (releasedInner F n) (.error e') :=
  h.release_throw hs rfl

theorem Inner.exceptException (h : Inner F m s n [] (.error .exception)) :
    ∃ e', Inner F (A2AKit.exceptException m (releaseStarted .inner)) s n
      (releasedInner F n) (.error e') :=
  h.release_throw hs rfl

omit hs in
/-- A cancelled handler does not release. -/
theorem Inner.exceptException_cancelled (h : Inner F m s n [] (.error .cancelled)) :
    Inner F (A2AKit.exceptException m (releaseStarted .inner)) s n [] (.error .cancelled) := by
  have h' : Adds F (A2AKit.exceptException m (releaseStarted .inner)) s
      (dispatched F .inner (List.range n) ++ []) (entered F .inner (List.range n) ++ []) ([] ++ [])
      (.error .cancelled) (s.add .inner (entered F .inner (List.range n))) :=
    Adds.tryCatch_error h Adds.throw
  rwa [List.append_nil, List.append_nil] at h'

omit hs in
/-- A silent program comes first. -/
theorem Leaves.after {a : α} {f : α → HttpM β} (hm : Silent F m (.ok a))
    (hf : Leaves F (f a) s B C A) : Leaves F (m >>= f) s B C A := by
  obtain ⟨r, s', h⟩ := hf
  exact ((hm s).bind h).leaves

/-- The release loop, and what calls no middleware after it. -/
theorem leaves_released {f : Unit → HttpM β} (hf : ∀ x, Mute F (f x)) :
    Leaves F (releaseStarted .inner >>= f)
      (s.add .inner (entered F .inner (List.range n))) [] [] (releasedInner F n) := by
  obtain ⟨x, hx⟩ := adds_releaseInner (F := F) (n := n) hs
  exact hx.bind_mute hf

omit hs in
/-- What comes after a pipeline that has not released yet. -/
theorem Inner.bind {a : α} {f : α → HttpM β} (h : Inner F m s n [] (.ok a))
    (hf : Leaves F (f a) (s.add .inner (entered F .inner (List.range n))) [] [] A) :
    Leaves F (m >>= f) s (dispatched F .inner (List.range n))
      (entered F .inner (List.range n)) A := by
  obtain ⟨r, s', hf⟩ := hf
  have hbind := Adds.bind h hf
  rw [List.append_nil, List.append_nil, List.nil_append] at hbind
  exact hbind.leaves

/-- How the middlewares and the operation of a handler end. -/
def submitted (F : HttpEvent → Fate) (op : ServerOperation) (n : Nat) : Fate :=
  firstFate F ((List.range n).map (.before .inner) ++ [.operation op])

omit hs in
theorem firstFate_append (l l' : List HttpEvent) : firstFate F (l ++ l') =
    if firstFate F l = .returns then firstFate F l' else firstFate F l := by
  induction l with
  | nil => rfl
  | cons e l ih =>
    rw [List.cons_append, firstFate, firstFate]
    split
    · exact ih
    · rfl

omit hs in
theorem firstFate_singleton (e : HttpEvent) : firstFate F [e] = F e := by
  unfold firstFate
  split
  · rename_i he
    exact he.symm
  · rfl

omit hs in
theorem inner_operation (op : ServerOperation) : Inner F (do
    beforeDispatch .inner (List.range n)
    awaitCall (.operation op)) s n [] (submitted F op n).result := by
  have h := inner_submission (n := n) (s := s) (silent_operation (F := F) op)
  unfold submitted
  rw [firstFate_append, firstFate_singleton]
  split at h
  · rename_i hall
    rw [if_pos (allStart_iff.mp hall)]
    exact h
  · rename_i hsome
    rw [if_neg (mt allStart_iff.mpr hsome)]
    exact h

omit hs in
/-- Nothing is caught where the operation returns. -/
theorem inner_returns {op : ServerOperation} (hsub : submitted F op n = .returns) :
    Inner F (exceptException (do
      beforeDispatch .inner (List.range n)
      awaitCall (.operation op)) (releaseStarted .inner)) s n [] (.ok ()) := by
  have h := inner_operation (F := F) (n := n) (s := s) op
  rw [hsub] at h
  exact h.tryCatch

/-- What a handler that catches exceptions releases: `A` when the operation has returned. -/
def releasedAfter (F : HttpEvent → Fate) (n : Nat) (A : List Nat) : Fate → List Nat
  | .returns => A
  | .raises => releasedInner F n
  | .cancelled => []

/-- A handler that catches exceptions, and goes on after the operation. -/
theorem unary_leaves {f : Unit → HttpM β} (hok : submitted F .sendMessage n = .returns →
      Leaves F (do
        let _ ← exceptException (do
          beforeDispatch .inner (List.range n)
          awaitCall (.operation .sendMessage)) (releaseStarted .inner)
        f ()) s (dispatched F .inner (List.range n)) (entered F .inner (List.range n)) A) :
    Leaves F (do
      let x ← exceptException (do
        beforeDispatch .inner (List.range n)
        awaitCall (.operation .sendMessage)) (releaseStarted .inner)
      f x) s (dispatched F .inner (List.range n)) (entered F .inner (List.range n))
      (releasedAfter F n A (submitted F .sendMessage n)) := by
  have h := inner_operation (F := F) (n := n) (s := s) .sendMessage
  cases hsub : submitted F .sendMessage n with
  | returns => exact hok hsub
  | raises =>
    rw [hsub] at h
    obtain ⟨e, he⟩ := h.exceptException hs
    exact (Adds.bind_error he).leaves
  | cancelled =>
    rw [hsub] at h
    exact (Adds.bind_error h.exceptException_cancelled).leaves

omit hs

theorem silent_raiseUnless {c : Bool} (hc : c = true) :
    Silent F (Endpoints.raiseUnless c) (.ok ()) := by
  subst hc
  exact fun _ => .pure

theorem mute_raiseUnless (c : Bool) : Mute F (Endpoints.raiseUnless c) :=
  Mute.ite (Mute.pure ()) (Mute.throw _)

theorem raiseUnless_bind_of_false {c : Bool} {f : Unit → HttpM α} (hc : c = false) :
    Mute F (Endpoints.raiseUnless c >>= f) := by
  subst hc
  exact ⟨.error .exception, fun _ => Adds.bind_error Adds.throw⟩

/-- The body converts. -/
def Converts (F : HttpEvent → Fate) (v : ProtocolVersion) : Prop :=
  v = .v03 → F (.point .convertParams) = .returns

theorem silent_convertParams {v : ProtocolVersion} (hv : Converts F v) :
    Silent F (Endpoints.convertParams v) (.ok ()) := by
  cases v with
  | v03 =>
    have h := silent_sync (F := F) .convertParams
    rwa [if_pos (hv rfl)] at h
  | v10 => exact fun _ => .pure

theorem convertParams_bind_of_not {v : ProtocolVersion} {f : Unit → HttpM α}
    (hv : ¬ Converts F v) : Mute F (Endpoints.convertParams v >>= f) := by
  cases v with
  | v03 =>
    have hraises : F (.point .convertParams) ≠ .returns := fun h => hv fun _ => h
    have h := silent_sync (F := F) .convertParams
    rw [if_neg hraises] at h
    exact ⟨.error .exception, fun s => (h s).bind_error⟩
  | v10 => exact absurd nofun hv

/-! ### The pipeline around a request -/

/-- A pipeline that releases, however it ends. -/
theorem Adds.release_outer (h : Adds F m s (dispatched F .outer (List.range n))
      (entered F .outer (List.range n)) [] r (s.add .outer (entered F .outer (List.range n))))
    (hs : s.outer = []) :
    Leaves F (m.ensure (releaseStarted .outer)) s (dispatched F .outer (List.range n))
      (entered F .outer (List.range n))
      (released F .outer (entered F .outer (List.range n)).reverse) := by
  have hrelease := adds_releaseStarted (F := F) (p := .outer)
    (s := s.add .outer (entered F .outer (List.range n)))
  rw [StartedLists.get_add, show s.get .outer = [] from hs, List.nil_append] at hrelease
  obtain ⟨r', hr'⟩ := h.ensure hrelease
  rw [List.append_nil, List.append_nil, List.nil_append] at hr'
  exact hr'.leaves

/-- The same around a program that calls no middleware where it is run. -/
theorem outer_leaves {rest : HttpM α} (hrest : AllStart F .outer n → Mute F rest)
    (hs : s.outer = []) :
    Leaves F (Act.ensure (do
      beforeDispatch .outer (List.range n)
      rest) (releaseStarted .outer)) s (dispatched F .outer (List.range n))
      (entered F .outer (List.range n))
      (released F .outer (entered F .outer (List.range n)).reverse) := by
  have hbefore := adds_beforeDispatch (F := F) (p := .outer) (s := s) (List.range n)
  by_cases hall : AllStart F .outer n
  · rw [allStart_iff.mp hall] at hbefore
    obtain ⟨y, hy⟩ := hrest hall
    have hbind := hbefore.bind (f := fun _ => rest) (hy _)
    rw [List.append_nil, List.append_nil, List.append_nil] at hbind
    exact hbind.release_outer hs
  · obtain ⟨e, he⟩ := Fate.result_error (mt allStart_iff.mpr hall)
    rw [he] at hbefore
    exact (hbefore.bind_error (f := fun _ => rest)).release_outer hs

/-- Around a handler with a pipeline of its own, the middlewares are called twice. -/
theorem outer_inner {rest : HttpM α} (hall : AllStart F .outer n) {A : List Nat}
    (hrest : Leaves F rest (s.add .outer (entered F .outer (List.range n)))
      (dispatched F .inner (List.range n)) (entered F .inner (List.range n)) A) :
    ∃ C A', Leaves F (Act.ensure (do
      beforeDispatch .outer (List.range n)
      rest) (releaseStarted .outer)) s
      (dispatched F .outer (List.range n) ++ dispatched F .inner (List.range n)) C A' := by
  have hbefore := adds_beforeDispatch (F := F) (p := .outer) (s := s) (List.range n)
  rw [allStart_iff.mp hall] at hbefore
  obtain ⟨r, s', hr⟩ := hrest
  obtain ⟨r', hr'⟩ := (hbefore.bind (f := fun _ => rest) hr).ensure
    (adds_releaseStarted (F := F) (p := .outer))
  rw [List.append_nil] at hr'
  exact ⟨_, _, hr'.leaves⟩

theorem zero_mem_dispatched (hn : n ≠ 0) : 0 ∈ dispatched F p (List.range n) := by
  obtain ⟨n, rfl⟩ := Nat.exists_eq_succ_of_ne_zero hn
  unfold dispatched
  rw [List.range_succ_eq_map, untilFirst]
  split
  · exact List.mem_cons_self
  · exact List.mem_cons_self

theorem Leaves.log (h : Leaves F m {} B C A) : beforeCalls (logOf F m) = B ∧
    completedCalls (logOf F m) = C ∧ afterCalls (logOf F m) = A := by
  obtain ⟨r, s', h⟩ := h
  obtain ⟨l, heval, hl⟩ := h []
  unfold logOf
  rw [heval]
  exact hl

/-- What a program does depends on the log in nothing. -/
theorem eval_answerCall (p : Prog HttpCall α) (log : HttpLog) :
    p.eval (answerCall F) log =
      ((p.eval (answerCall F) []).1, log ++ (p.eval (answerCall F) []).2) := by
  induction p generalizing log with
  | ret a => rw [Prog.eval, Prog.eval, List.append_nil]
  | op e k ih =>
    cases e with
    | call e =>
      show (k (F e)).eval (answerCall F) (log ++ [(e, F e)]) =
        (((k (F e)).eval (answerCall F) ([] ++ [(e, F e)])).1,
          log ++ ((k (F e)).eval (answerCall F) ([] ++ [(e, F e)])).2)
      rw [ih (F e) (log ++ [(e, F e)]), ih (F e) ([] ++ [(e, F e)]), List.nil_append,
        List.append_assoc]

theorem leaves_logOf (m : HttpM α) : Leaves F m {} (beforeCalls (logOf F m))
    (completedCalls (logOf F m)) (afterCalls (logOf F m)) := by
  refine ⟨(m.eval (answerCall F) {} []).1, (m.eval (answerCall F) {} []).2.1, fun log => ?_⟩
  refine ⟨logOf F m, ?_, rfl, rfl, rfl⟩
  unfold logOf Act.eval
  rw [eval_answerCall]

/-- A silent program comes first. -/
theorem paired_after {a : α} {f : α → HttpM β} (hm : Silent F m (.ok a)) :
    Paired (logOf F (m >>= f)) ↔ Paired (logOf F (f a)) := by
  have h := (Leaves.after hm (leaves_logOf (f a))).log
  unfold Paired
  rw [h.1, h.2.1, h.2.2]

theorem Leaves.paired (release : Bool) (h : Leaves F m {} (dispatched F p (List.range n))
      (entered F p (List.range n)) (if release then
        released F p (entered F p (List.range n)).reverse else [])) :
    Paired (logOf F m) ↔ NoneStarts F p n ∨ release = true ∧ Releases F p n :=
  paired_pipeline release h.log.1 h.log.2.1 h.log.2.2

theorem Mute.paired (h : Mute F m) : Paired (logOf F m) := by
  obtain ⟨hb, hc, ha⟩ := (h.leaves (s := {})).log
  unfold Paired
  rw [hb, hc, ha]
  exact ⟨List.nodup_nil, rfl⟩

/-- The pipeline of the router or the dispatcher, around a program that calls no middleware. -/
theorem outer_paired {rest : HttpM α} (hrest : AllStart F .outer n → Mute F rest) :
    Paired (logOf F (Act.ensure (do
      beforeDispatch .outer (List.range n)
      rest) (releaseStarted .outer))) ↔ Releases F .outer n := by
  have h := Leaves.paired true (outer_leaves (n := n) (s := {}) hrest rfl)
  rw [h]
  exact ⟨fun h => h.elim NoneStarts.releases And.right, fun h => Or.inr ⟨rfl, h⟩⟩

end A2AKit
