/-
Authentication before any effect.

A middleware that authenticates raises in `before_dispatch`.  `Permitted` is the rule for one call
of a request, given the log before it: an operation comes after all middlewares have started, and
no middleware is refused after an operation.  What a pipeline establishes is carried to the
operations by the assertions `Pristine`, of a request without an operation so far, and `Opened`, of
one whose pipeline has let it through.

* `authenticated_iff` — a request keeps to the rule, and has no result without a pipeline unless it
  is for a health method or route, if and only if it is not one that gets past the router's pipeline
  by the path of its url alone;
* `not_bypassing_of_routePath` — no request does where that path ends with the path of the route.
-/
import A2AKit.MiddlewareCalls

namespace A2AKit

variable {α β : Type} {n : Nat} {log : HttpLog}

/-! ### The rule -/

/-- No operation has been called. -/
def Untouched (log : HttpLog) : Prop := ∀ op f, (HttpEvent.operation op, f) ∉ log

/-- No middleware has refused. -/
def Unrefused (log : HttpLog) : Prop := ∀ p i f, (HttpEvent.before p i, f) ∈ log → f = .returns

/-- All middlewares have completed `before_dispatch`, in one of the pipelines. -/
def Passed (n : Nat) (log : HttpLog) : Prop :=
  ∃ p, ∀ i < n, (HttpEvent.before p i, Fate.returns) ∈ log

/-- The rule for a call after `log`. -/
def Permitted (n : Nat) (log : HttpLog) : HttpEvent × Fate → Prop
  | (.operation _, _) => Passed n log ∧ Unrefused log
  | (.before _ _, f) => f ≠ .returns → Untouched log
  | _ => True

/-- Every call keeps to the rule. -/
def Lawful (n : Nat) (log : HttpLog) : Prop :=
  ∀ l c l', log = l ++ c :: l' → Permitted n l c

theorem lawful_concat {c : HttpEvent × Fate} (h : Lawful n log) (hc : Permitted n log c) :
    Lawful n (log ++ [c]) := by
  intro l d l' heq
  rcases append_concat_eq heq with ⟨-, rfl, rfl⟩ | ⟨l'', -, rfl⟩
  · exact hc
  · exact h l d l'' rfl

/-- Without an operation nothing is against the rule. -/
theorem Untouched.lawful (h : Untouched log) : Lawful n log := by
  rintro l ⟨e, f⟩ l' rfl
  cases e with
  | operation op =>
    exact absurd (List.mem_append_right _ List.mem_cons_self) (h op f)
  | before p i => exact fun _ op f' hmem => h op f' (List.mem_append_left _ hmem)
  | after p i => trivial
  | point pt => trivial

/-! ### Assertions -/

/-- A request without an operation or a refusal so far. -/
structure Pristine (log : HttpLog) : Prop where
  untouched : Untouched log
  unrefused : Unrefused log

/-- A request that its pipeline has let through. -/
structure Opened (n : Nat) (log : HttpLog) : Prop where
  unrefused : Unrefused log
  passed : Passed n log
  lawful : Lawful n log

theorem Pristine.opened (h : Pristine log) (hpassed : Passed n log) : Opened n log :=
  ⟨h.unrefused, hpassed, h.untouched.lawful⟩

/-- A reply with a result comes from a request that has been let through. -/
def Accounted (n : Nat) (reply : Reply) (log : HttpLog) : Prop :=
  Lawful n log ∧ (reply = .result ∨ reply = .stream → Passed n log)

theorem Opened.accounted (h : Opened n log) (reply : Reply) : Accounted n reply log :=
  ⟨h.lawful, fun _ => h.passed⟩

theorem Lawful.accounted (h : Lawful n log) {reply : Reply} (hr : reply ≠ .result)
    (hs : reply ≠ .stream) : Accounted n reply log :=
  ⟨h, fun hreply => absurd hreply (not_or.mpr ⟨hr, hs⟩)⟩

theorem Lawful.error (h : Lawful n log) : Accounted n .error log := h.accounted nofun nofun

/-- A call that is neither `before_dispatch` nor an operation. -/
def HttpEvent.Quiet : HttpEvent → Prop
  | .before _ _ => False
  | .operation _ => False
  | _ => True

/-- Quiet calls keep `P`. -/
def QuietKeeps (P : HttpLog → Prop) : Prop :=
  ∀ log e f, HttpEvent.Quiet e → P log → P (log ++ [(e, f)])

theorem mem_quiet {e e' : HttpEvent} {f f' : Fate} (he : HttpEvent.Quiet e)
    (he' : ¬ HttpEvent.Quiet e') (h : (e', f') ∈ log ++ [(e, f)]) : (e', f') ∈ log := by
  rcases List.mem_append.mp h with h | h
  · exact h
  · obtain ⟨rfl, -⟩ := Prod.mk.inj (List.mem_singleton.mp h)
    exact absurd he he'

theorem keeps_untouched : QuietKeeps Untouched :=
  fun _ _ _ he h op f' hmem => h op f' (mem_quiet he id hmem)

theorem keeps_unrefused : QuietKeeps Unrefused :=
  fun _ _ _ he h p i f' hmem => h p i f' (mem_quiet he id hmem)

theorem Passed.append (h : Passed n log) (l : HttpLog) : Passed n (log ++ l) := by
  obtain ⟨p, hp⟩ := h
  exact ⟨p, fun i hi => List.mem_append_left _ (hp i hi)⟩

theorem keeps_lawful : QuietKeeps (Lawful n) := by
  intro log e f he h
  refine lawful_concat h ?_
  cases e with
  | before p i => exact he.elim
  | operation op => exact he.elim
  | after p i => trivial
  | point pt => trivial

theorem keeps_pristine : QuietKeeps Pristine := fun log e f he h =>
  ⟨keeps_untouched log e f he h.untouched, keeps_unrefused log e f he h.unrefused⟩

theorem keeps_accounted (reply : Reply) : QuietKeeps (Accounted n reply) := fun log e f he h =>
  ⟨keeps_lawful log e f he h.1, fun hreply => (h.2 hreply).append _⟩

/-- A request that has been let through may go on with any call but a `before_dispatch`. -/
theorem Opened.call {e : HttpEvent} (h : Opened n log) (he : ∀ p i, e ≠ .before p i) (f : Fate) :
    Opened n (log ++ [(e, f)]) := by
  refine ⟨fun p i f' hmem => ?_, h.passed.append _, lawful_concat h.lawful ?_⟩
  · rcases List.mem_append.mp hmem with hmem | hmem
    · exact h.unrefused p i f' hmem
    · obtain ⟨heq, -⟩ := Prod.mk.inj (List.mem_singleton.mp hmem)
      exact absurd heq.symm (he p i)
  · cases e with
    | before p i => exact absurd rfl (he p i)
    | operation op => exact ⟨h.passed, h.unrefused⟩
    | after p i => trivial
    | point pt => trivial

/-! ### Programs -/

abbrev HttpTriple (F : HttpEvent → Fate) (P : HttpLog → Prop) (m : HttpM α)
    (Q : α → HttpLog → Prop) (X : HttpLog → Prop) : Prop :=
  Act.Triple (System.answered (answerCall F)) (fun _ => P) m (fun a _ => Q a) (fun _ _ => X)

def QuietCall : {β : Type} → HttpCall β → Prop
  | _, .call e => e.Quiet

/-- Any call but a `before_dispatch`. -/
def LateCall : {β : Type} → HttpCall β → Prop
  | _, .call e => ∀ p i, e ≠ .before p i

theorem lateCall_of_quiet (β : Type) (c : HttpCall β) (h : QuietCall c) : LateCall c := by
  cases c with
  | call e =>
    rintro p i rfl
    exact h

section

variable {C : {β : Type} → HttpCall β → Prop} {m : HttpM α} {r : HttpM Unit}

theorem only_awaitCall {e : HttpEvent} (he : C (.call e)) : Act.Only C (awaitCall e) := by
  refine Act.only_bind (Act.only_perform he) fun f => ?_
  cases f with
  | returns => exact Act.only_pure ()
  | raises => exact Act.only_throw _
  | cancelled => exact Act.only_throw _

theorem only_syncCall {pt : HttpPoint} (he : C (.call (.point pt))) :
    Act.Only C (syncCall pt) := by
  refine Act.only_bind (Act.only_perform he) fun f => ?_
  cases f with
  | returns => exact Act.only_pure ()
  | raises => exact Act.only_throw _
  | cancelled => exact Act.only_throw _

theorem only_ite {c : Prop} [Decidable c] {m' : HttpM α} (hm : Act.Only C m)
    (hm' : Act.Only C m') : Act.Only C (if c then m else m') := by
  split
  · exact hm
  · exact hm'

theorem only_raiseUnless (c : Bool) : Act.Only C (Endpoints.raiseUnless c) :=
  only_ite (Act.only_pure ()) (Act.only_throw _)

theorem only_orError {m : HttpM Reply} (hm : Act.Only C m) : Act.Only C (orError m) := by
  refine Act.only_tryCatch hm fun e => ?_
  cases e with
  | exception => exact Act.only_pure _
  | cancelled => exact Act.only_throw _

theorem only_exceptBaseException (hm : Act.Only C m) (hr : Act.Only C r) :
    Act.Only C (exceptBaseException m r) :=
  Act.only_tryCatch hm fun e => Act.only_bind hr fun _ => Act.only_throw e

theorem only_afterDispatch {p : Pass} (hC : ∀ i, C (.call (.after p i))) (l : List Nat) :
    Act.Only C (afterDispatch p l) := by
  induction l with
  | nil => exact Act.only_pure ()
  | cons i l ih => exact Act.only_bind (only_awaitCall (hC i)) fun _ => ih

theorem quiet_releaseStarted (p : Pass) : Act.Only QuietCall (releaseStarted p) :=
  Act.only_bind Act.only_get fun _ => only_afterDispatch (fun _ => trivial) _

theorem late_of_quiet (hm : Act.Only QuietCall m) : Act.Only LateCall m :=
  fun s => Prog.only_mono lateCall_of_quiet (hm s)

theorem late_operation (op : ServerOperation) : Act.Only LateCall (awaitCall (.operation op)) :=
  only_awaitCall fun _ _ => nofun

theorem quiet_point (pt : HttpPoint) : Act.Only QuietCall (awaitCall (.point pt)) :=
  only_awaitCall trivial

theorem quiet_sync (pt : HttpPoint) : Act.Only QuietCall (syncCall pt) := only_syncCall trivial

end

variable {F : HttpEvent → Fate} {m : HttpM α}

theorem quiet_keeps {P : HttpLog → Prop} (hP : QuietKeeps P) (hm : Act.Only QuietCall m) :
    HttpTriple F P m (fun _ => P) P := by
  refine Act.Triple.of_only hm fun β c log hc h => ?_
  cases c with
  | call e => exact hP log e (F e) hc h

/-- Before the pipeline nothing is against the rule. -/
theorem quiet_pristine (hm : Act.Only QuietCall m) :
    HttpTriple F Pristine m (fun _ => Pristine) (Lawful n) :=
  (quiet_keeps keeps_pristine hm).conseq (fun _ _ h => h) (fun _ _ _ h => h)
    fun _ _ _ h => h.untouched.lawful

/-- After the pipeline everything but another pipeline is allowed. -/
theorem late_opened (hm : Act.Only LateCall m) :
    HttpTriple F (Opened n) m (fun _ => Opened n) (Lawful n) := by
  have h : HttpTriple F (Opened n) m (fun _ => Opened n) (Opened n) := by
    refine Act.Triple.of_only hm fun β c log hc h => ?_
    cases c with
    | call e => exact h.call hc (F e)
  exact h.conseq (fun _ _ h => h) (fun _ _ _ h => h) fun _ _ _ h => h.lawful

theorem late_accounted {m : HttpM Reply} (hm : Act.Only LateCall m) :
    HttpTriple F (Opened n) m (Accounted n) (Lawful n) :=
  (late_opened hm).conseq (fun _ _ h => h) (fun _ _ _ h => h.accounted _) fun _ _ _ h => h

theorem holds_pure {P : HttpLog → Prop} {Q : α → HttpLog → Prop} {X : HttpLog → Prop} {a : α}
    (h : ∀ log, P log → Q a log) : HttpTriple F P (Pure.pure a) Q X :=
  .pure (fun _ => System.stable_answered) fun _ => h

theorem holds_throw {P : HttpLog → Prop} {Q : α → HttpLog → Prop} {X : HttpLog → Prop}
    {e : Failure} (h : ∀ log, P log → X log) :
    HttpTriple F P (MonadExcept.throw e : HttpM α) Q X :=
  .throw (fun _ => System.stable_answered) fun _ => h

theorem holds_awaitCall {e : HttpEvent} {P Q X : HttpLog → Prop}
    (hok : ∀ log, P log → F e = .returns → Q (log ++ [(e, .returns)]))
    (hx : ∀ log, P log → F e ≠ .returns → X (log ++ [(e, F e)])) :
    HttpTriple F P (awaitCall e) (fun _ => Q) X := by
  have hcall : Act.Triple (System.answered (answerCall F)) (fun _ => P)
      (Act.perform (.call e) : HttpM Fate)
      (fun f _ log => f = F e ∧ ∃ log₀, P log₀ ∧ log = log₀ ++ [(e, f)]) (fun _ _ => X) := by
    refine .perform (fun _ => System.stable_answered) (fun _ _ => System.stable_answered)
      fun _ log hP _ => ⟨trivial, fun log' f hperf => ?_⟩
    obtain ⟨rfl, rfl⟩ := Prod.mk.inj (Option.some.inj hperf)
    exact ⟨rfl, log, hP, rfl⟩
  refine Act.Triple.bind hcall fun f => ?_
  cases f with
  | returns =>
    refine .pure (fun _ => System.stable_answered) ?_
    rintro _ _ ⟨hf, log₀, hP, rfl⟩
    exact hok log₀ hP hf.symm
  | raises =>
    refine .throw (fun _ => System.stable_answered) ?_
    rintro _ _ ⟨hf, log₀, hP, rfl⟩
    rw [hf]
    exact hx log₀ hP (by rw [← hf]; exact nofun)
  | cancelled =>
    refine .throw (fun _ => System.stable_answered) ?_
    rintro _ _ ⟨hf, log₀, hP, rfl⟩
    rw [hf]
    exact hx log₀ hP (by rw [← hf]; exact nofun)

/-- What the loop over the middlewares has completed, after `done` of them. -/
theorem beforeDispatch_pristine (p : Pass) (l done : List Nat) :
    HttpTriple F (fun log => Pristine log ∧ ∀ i ∈ done, (HttpEvent.before p i, .returns) ∈ log)
      (beforeDispatch p l)
      (fun _ log => Pristine log ∧ ∀ i ∈ done ++ l, (HttpEvent.before p i, .returns) ∈ log)
      Untouched := by
  induction l generalizing done with
  | nil =>
    rw [List.append_nil]
    exact holds_pure fun _ h => h
  | cons i l ih =>
    have huntouched : ∀ (log : HttpLog) f, Untouched log →
        Untouched (log ++ [(.before p i, f)]) := by
      intro log f h op f' hmem
      rcases List.mem_append.mp hmem with hmem | hmem
      · exact h op f' hmem
      · exact nomatch (Prod.mk.inj (List.mem_singleton.mp hmem)).1
    unfold beforeDispatch
    refine .bind (Q := fun _ _ log => Pristine log ∧
      ∀ j ∈ done ++ [i], (HttpEvent.before p j, .returns) ∈ log) ?_ fun _ => ?_
    · refine holds_awaitCall ?_ fun log h _ => huntouched log _ h.1.untouched
      rintro log ⟨hfresh, hdone⟩ -
      refine ⟨⟨huntouched log _ hfresh.untouched, fun q j f hmem => ?_⟩, fun j hj => ?_⟩
      · rcases List.mem_append.mp hmem with hmem | hmem
        · exact hfresh.unrefused q j f hmem
        · exact (Prod.mk.inj (List.mem_singleton.mp hmem)).2
      · rcases List.mem_append.mp hj with hj | hj
        · exact List.mem_append_left _ (hdone j hj)
        · cases List.mem_singleton.mp hj
          exact List.mem_append_right _ (List.mem_singleton_self _)
    · have h := ih (done ++ [i])
      rw [List.append_assoc, List.singleton_append] at h
      refine .bind (Q := fun _ _ log => Pristine log ∧
        ∀ j ∈ done ++ [i], (HttpEvent.before p j, .returns) ∈ log) ?_ fun _ => h
      exact .modify (fun _ => System.stable_answered) fun _ _ h => h

/-- A pipeline that all middlewares complete lets the request through. -/
theorem beforeDispatch_opens (p : Pass) : HttpTriple F Pristine (beforeDispatch p (List.range n))
    (fun _ log => Pristine log ∧ Passed n log) (Lawful n) := by
  refine (beforeDispatch_pristine p (List.range n) []).conseq (fun _ _ h => ⟨h, nofun⟩) ?_
    fun _ _ _ h => h.lawful
  rintro _ _ log ⟨hfresh, hdone⟩
  exact ⟨hfresh, p, fun i hi => hdone i (List.mem_range.mpr hi)⟩

theorem holds_orError {m : HttpM Reply} {P : HttpLog → Prop} {Q : Reply → HttpLog → Prop}
    (hm : HttpTriple F P m Q (Lawful n)) (hQ : ∀ log, Lawful n log → Q .error log) :
    HttpTriple F P (orError m) Q (Lawful n) := by
  refine .tryCatch hm fun e => ?_
  cases e with
  | exception => exact holds_pure hQ
  | cancelled => exact holds_throw fun _ h => h

theorem holds_exceptBaseException {P : HttpLog → Prop} {Q : α → HttpLog → Prop} {r : HttpM Unit}
    (hm : HttpTriple F P m Q (Lawful n)) (hr : Act.Only QuietCall r) :
    HttpTriple F P (exceptBaseException m r) Q (Lawful n) :=
  .tryCatch hm fun _ => .bind (quiet_keeps keeps_lawful hr) fun _ => holds_throw fun _ h => h

theorem holds_exceptException {P : HttpLog → Prop} {Q : α → HttpLog → Prop} {r : HttpM Unit}
    (hm : HttpTriple F P m Q (Lawful n)) (hr : Act.Only QuietCall r) :
    HttpTriple F P (exceptException m r) Q (Lawful n) := by
  refine .tryCatch hm fun e => ?_
  cases e with
  | exception =>
    exact .bind (quiet_keeps keeps_lawful hr) fun _ => holds_throw fun _ h => h
  | cancelled => exact holds_throw fun _ h => h

/-- A handler with a pipeline of its own: the middlewares, and then what `op` does. -/
theorem pipeline_opens {op : HttpM Unit} (hop : Act.Only LateCall op) :
    HttpTriple F Pristine (do
      beforeDispatch .inner (List.range n)
      op) (fun _ => Opened n) (Lawful n) :=
  .bind (beforeDispatch_opens .inner) fun _ =>
    (late_opened hop).pre fun _ _ h => h.1.opened h.2

/-! ### The REST routers -/

namespace Endpoints

variable {v : ProtocolVersion} {app : AppState} {r : RestRequest}

theorem quiet_convertParams : Act.Only QuietCall (convertParams v) := by
  cases v with
  | v03 => exact quiet_sync _
  | v10 => exact Act.only_pure ()

theorem quiet_convertResult : Act.Only QuietCall (convertResult v) := by
  cases v with
  | v03 => exact quiet_sync _
  | v10 => exact Act.only_pure ()

theorem late_firstEvent (op : ServerOperation) : Act.Only LateCall (firstEvent op) :=
  only_exceptBaseException (late_operation op) (late_of_quiet (quiet_point _))

theorem quiet_eventStream : Act.Only QuietCall eventStream :=
  Act.only_bind (only_orError (Act.only_bind (quiet_point _) fun _ => Act.only_pure _))
    fun _ => Act.only_pure _

theorem late_operate (op : ServerOperation) : Act.Only LateCall (operate op) :=
  Act.only_bind (late_operation op) fun _ =>
    Act.only_bind (late_of_quiet (quiet_sync _)) fun _ => Act.only_pure _

theorem late_pushConfig {op : HttpM Reply} (hop : Act.Only LateCall op) :
    Act.Only LateCall (pushConfig app op) :=
  Act.only_bind (only_raiseUnless _) fun _ => Act.only_bind (only_raiseUnless _) fun _ =>
    Act.only_bind (only_raiseUnless _) fun _ => hop

theorem messageSend_accounted : HttpTriple F Pristine (messageSend v app r)
    (Accounted app.middlewares) (Lawful app.middlewares) := by
  unfold messageSend
  split
  · cases v with
    | v03 => exact holds_throw fun _ h => h.untouched.lawful
    | v10 => exact holds_pure fun _ h => h.untouched.lawful.error
  refine .bind (quiet_pristine (only_raiseUnless _)) fun _ => ?_
  refine .bind (quiet_pristine quiet_convertParams) fun _ => ?_
  refine .bind (holds_exceptException (pipeline_opens (late_operation _))
    (quiet_releaseStarted _)) fun _ => late_accounted ?_
  refine Act.only_bind (late_of_quiet quiet_convertResult) fun _ => ?_
  exact Act.only_bind (late_of_quiet (quiet_releaseStarted _)) fun _ =>
    Act.only_bind (late_of_quiet (quiet_sync _)) fun _ => Act.only_pure _

theorem streamSetup_accounted : HttpTriple F Pristine (streamSetup v app r eventStream)
    (Accounted app.middlewares) (Lawful app.middlewares) := by
  unfold streamSetup
  refine .bind (quiet_pristine (only_raiseUnless _)) fun _ => ?_
  refine .bind (quiet_pristine (only_raiseUnless _)) fun _ => ?_
  refine .bind (quiet_pristine (only_raiseUnless _)) fun _ => ?_
  refine .bind (quiet_pristine quiet_convertParams) fun _ => ?_
  refine .bind (holds_exceptBaseException (pipeline_opens (late_firstEvent _))
    (quiet_releaseStarted _)) fun _ => late_accounted ?_
  exact late_of_quiet (Act.only_ensure quiet_eventStream
    (Act.only_ensure (quiet_point _) (quiet_releaseStarted _)))

/-- The routes whose endpoints run a pipeline of their own. -/
def RestRoute.SelfHandled (route : RestRoute) : Prop :=
  route = .messageSend ∨ route = .messageStream

/-- The health routes. -/
def RestRoute.Health (route : RestRoute) : Prop :=
  route = .healthCheck ∨ route = .readinessCheck

theorem late_endpoint (hroute : ¬ RestRoute.SelfHandled r.route) :
    Act.Only LateCall (endpoint v app r) := by
  unfold endpoint
  cases h : r.route with
  | messageSend => exact absurd (Or.inl h) hroute
  | messageStream => exact absurd (Or.inr h) hroute
  | tasksGet => exact Act.only_bind (only_raiseUnless _) fun _ => late_operate _
  | tasksList =>
    exact Act.only_bind (only_raiseUnless _) fun _ => only_ite (Act.only_pure _) (late_operate _)
  | tasksCancel => exact Act.only_bind (only_raiseUnless _) fun _ => late_operate _
  | tasksSubscribe =>
    refine Act.only_bind (only_raiseUnless _) fun _ => Act.only_bind (only_raiseUnless _)
      fun _ => Act.only_bind (late_firstEvent _) fun _ => ?_
    exact late_of_quiet (Act.only_ensure quiet_eventStream (quiet_point _))
  | pushConfigSet =>
    exact late_pushConfig (Act.only_bind (late_of_quiet (quiet_point _)) fun _ => late_operate _)
  | pushConfigGetById => exact late_pushConfig (late_operate _)
  | pushConfigList => exact late_pushConfig (late_operate _)
  | pushConfigDelete => exact late_pushConfig (late_operate _)
  | card =>
    refine only_ite (late_operate _) ?_
    cases v with
    | v03 => exact Act.only_throw _
    | v10 => exact Act.only_pure _
  | healthCheck => exact Act.only_pure _
  | readinessCheck =>
    exact late_of_quiet (Act.only_bind (only_orError (Act.only_bind (quiet_point _) fun _ =>
      Act.only_pure _)) fun _ => Act.only_pure _)

theorem quiet_health (hroute : RestRoute.Health r.route) :
    Act.Only QuietCall (endpoint v app r) := by
  unfold endpoint
  rcases hroute with h | h
  · rw [h]
    exact Act.only_pure _
  · rw [h]
    exact Act.only_bind (only_orError (Act.only_bind (quiet_point _) fun _ => Act.only_pure _))
      fun _ => Act.only_pure _

/-- An endpoint does what it does, and its response is sent. -/
theorem core_holds {P : HttpLog → Prop} {Q : Reply → HttpLog → Prop}
    (hvalid : HttpTriple F P (raiseUnless r.validParams) (fun _ => P) (Lawful n))
    (hendpoint : HttpTriple F P (endpoint v app r) Q (Lawful n))
    (hQ : ∀ reply, QuietKeeps (Q reply)) (hlawful : ∀ reply log, Q reply log → Lawful n log) :
    HttpTriple F P (core v app r) Q (Lawful n) := by
  unfold core
  refine .bind hvalid fun _ => .bind hendpoint fun reply => ?_
  unfold sendResponse
  split
  · exact holds_pure fun _ h => h
  · refine .bind (Q := fun _ _ => Q reply) ?_ fun _ => holds_pure fun _ h => h
    exact (quiet_keeps (hQ reply) (quiet_point _)).conseq (fun _ _ h => h) (fun _ _ _ h => h)
      fun _ _ log h => hlawful reply log h

theorem core_selfHandled (hroute : RestRoute.SelfHandled r.route) :
    HttpTriple F Pristine (core v app r) (Accounted app.middlewares) (Lawful app.middlewares) := by
  refine core_holds (quiet_pristine (only_raiseUnless _)) ?_ keeps_accounted fun _ _ h => h.1
  unfold endpoint
  rcases hroute with h | h
  · rw [h]
    exact messageSend_accounted
  · rw [h]
    exact streamSetup_accounted

/-- Inside a pipeline every endpoint keeps to the rule. -/
theorem core_guarded : HttpTriple F (fun log => Pristine log ∧ Passed app.middlewares log)
    (core v app r) (Accounted app.middlewares) (Lawful app.middlewares) := by
  by_cases hroute : RestRoute.SelfHandled r.route
  · exact (core_selfHandled hroute).pre fun _ _ h => h.1
  · refine Act.Triple.pre ?_ fun _ log h => h.1.opened h.2
    refine core_holds (late_opened (only_raiseUnless _)) (late_accounted (late_endpoint hroute))
      keeps_accounted fun _ _ h => h.1

/-- Without a pipeline the health routes do nothing that needs one. -/
theorem core_health (hroute : RestRoute.Health r.route) :
    HttpTriple F Pristine (core v app r) (fun _ => Lawful n) (Lawful n) := by
  have hkeeps : ∀ m : HttpM Reply, Act.Only QuietCall m →
      HttpTriple F Pristine m (fun _ => Pristine) (Lawful n) := fun _ => quiet_pristine
  refine (core_holds (Q := fun _ => Pristine) (quiet_pristine (only_raiseUnless _))
    (hkeeps _ (quiet_health hroute)) (fun _ => keeps_pristine)
    fun _ _ h => h.untouched.lawful).conseq (fun _ _ h => h) (fun _ _ _ h => h.untouched.lawful)
    fun _ _ _ h => h

/-! ### The paths -/

/-- The path has a letter of `tasks` or `card` that no exempt path has. -/
def Marked (path : String) : Prop := 'k' ∈ path.toList ∨ 'c' ∈ path.toList

theorem Marked.append {path : String} (h : Marked path) (s : String) : Marked (path ++ s) := by
  unfold Marked
  rw [String.toList_append]
  exact h.imp (List.mem_append_left _) (List.mem_append_left _)

theorem Marked.prepend {path : String} (h : Marked path) (s : String) : Marked (s ++ path) := by
  unfold Marked
  rw [String.toList_append]
  exact h.imp (List.mem_append_right _) (List.mem_append_right _)

theorem routePath_marked (hself : ¬ RestRoute.SelfHandled r.route)
    (hhealth : ¬ RestRoute.Health r.route) : Marked (routePath v r) := by
  have htask : ∀ base : String, Marked (base ++ "/tasks/" ++ r.taskId) := fun base =>
    (Marked.prepend (Or.inl (by decide)) base).append r.taskId
  unfold routePath
  cases h : r.route with
  | messageSend => exact absurd (Or.inl h) hself
  | messageStream => exact absurd (Or.inr h) hself
  | healthCheck => exact absurd (Or.inl h) hhealth
  | readinessCheck => exact absurd (Or.inr h) hhealth
  | card => exact Marked.prepend (Or.inr (by decide)) _
  | tasksList => exact Marked.prepend (Or.inl (by decide)) _
  | tasksGet => exact htask _
  | tasksCancel => exact (htask _).append _
  | tasksSubscribe => exact (htask _).append _
  | pushConfigSet => exact (htask _).append _
  | pushConfigList => exact (htask _).append _
  | pushConfigGetById => exact ((htask _).append _).append _
  | pushConfigDelete => exact ((htask _).append _).append _

theorem exempt_not_marked {path : String}
    (h : path ∈ middlewareSelfHandledPaths v ∨ path ∈ middlewarePublicPaths v) :
    ¬ Marked path := by
  have hall : ∀ p ∈ middlewareSelfHandledPaths v ++ middlewarePublicPaths v,
      ¬ ('k' ∈ p.toList ∨ 'c' ∈ p.toList) := by
    cases v with
    | v03 => decide
    | v10 => decide
  exact hall path (List.mem_append.mpr h)

/-! ### Past the pipeline -/

/-- The router's pipeline lets requests for the path pass. -/
def ExemptPath (v : ProtocolVersion) (path : String) : Prop :=
  path ∈ middlewareSelfHandledPaths v ∨ path ∈ middlewarePublicPaths v

/-- The endpoint comes to its operation if nothing raises. -/
def operates (v : ProtocolVersion) (app : AppState) (r : RestRequest) : Bool :=
  r.validParams && match r.route with
    | .messageSend | .messageStream | .healthCheck | .readinessCheck => true
    | .tasksGet | .tasksCancel => app.taskManager
    | .tasksList => app.taskManager && (v == .v03 || r.validStatus)
    | .tasksSubscribe => app.streaming && app.taskManager
    | .pushConfigSet | .pushConfigGetById | .pushConfigList | .pushConfigDelete =>
      app.pushNotifications && app.pushStore && app.storage
    | .card => app.extendedCardProvider

/-- A request that relies on the router's pipeline and has the url of one that does not need it. -/
structure Bypassing (v : ProtocolVersion) (app : AppState) (r : RestRequest) : Prop where
  exempt : ExemptPath v r.path
  middlewares : app.middlewares ≠ 0
  selfHandled : ¬ RestRoute.SelfHandled r.route
  health : ¬ RestRoute.Health r.route
  version : r.versionSupported = true
  operates : operates v app r = true

/-- Where the path of the url ends with the path of the route, as with a plain Host header, nothing
gets past the pipeline, whatever the mount prefix is. -/
theorem not_bypassing_of_routePath {mountPrefix : String}
    (hpath : r.path = mountPrefix ++ routePath v r) : ¬ Bypassing v app r := fun h =>
  exempt_not_marked h.exempt
    (hpath ▸ (routePath_marked h.selfHandled h.health).prepend mountPrefix)

/-- A check that fails ends the endpoint. -/
theorem raiseUnless_bind {c : Bool} {m : HttpM Reply}
    (hm : c = true → m = throw .exception ∨ m = return .error) :
    (raiseUnless c >>= fun _ => m) = throw .exception ∨
      (raiseUnless c >>= fun _ => m) = return .error := by
  cases c with
  | false => exact Or.inl rfl
  | true => exact hm rfl

/-- What does not come to its operation is refused. -/
theorem endpoint_refuses (hself : ¬ RestRoute.SelfHandled r.route)
    (hhealth : ¬ RestRoute.Health r.route) (hvalid : r.validParams = true)
    (hop : operates v app r = false) :
    endpoint v app r = throw .exception ∨ endpoint v app r = return .error := by
  have hpush : (app.pushNotifications && app.pushStore && app.storage) = false →
      ∀ m, pushConfig app m = throw .exception ∨ pushConfig app m = return .error := by
    intro hflags m
    refine raiseUnless_bind fun hnotify => raiseUnless_bind fun hstore =>
      raiseUnless_bind fun hstorage => ?_
    simp [hnotify, hstore, hstorage] at hflags
  unfold operates at hop
  rw [hvalid, Bool.true_and] at hop
  unfold endpoint
  cases hroute : r.route with
  | messageSend => exact absurd (Or.inl hroute) hself
  | messageStream => exact absurd (Or.inr hroute) hself
  | healthCheck => exact absurd (Or.inl hroute) hhealth
  | readinessCheck => exact absurd (Or.inr hroute) hhealth
  | tasksGet =>
    rw [hroute] at hop
    exact raiseUnless_bind fun h => absurd (h.symm.trans hop) (by decide)
  | tasksCancel =>
    rw [hroute] at hop
    exact raiseUnless_bind fun h => absurd (h.symm.trans hop) (by decide)
  | tasksList =>
    rw [hroute] at hop
    refine raiseUnless_bind fun h => ?_
    have hstatus : v = .v10 ∧ r.validStatus = false := by
      cases v <;> simp_all
    exact Or.inr (if_pos hstatus)
  | tasksSubscribe =>
    rw [hroute] at hop
    refine raiseUnless_bind fun hstreaming => raiseUnless_bind fun hmanager => ?_
    simp [hstreaming, hmanager] at hop
  | card =>
    rw [hroute] at hop
    dsimp only at hop
    unfold card
    rw [hop, if_neg (by decide)]
    cases v with
    | v03 => exact Or.inl rfl
    | v10 => exact Or.inr rfl
  | _ =>
    rw [hroute] at hop
    exact hpush hop _

theorem core_refuses (hself : ¬ RestRoute.SelfHandled r.route)
    (hhealth : ¬ RestRoute.Health r.route) (hop : operates v app r = false) :
    HttpTriple F Pristine (core v app r) (Accounted app.middlewares) (Lawful app.middlewares) := by
  by_cases hvalid : r.validParams = true
  · refine core_holds (quiet_pristine (only_raiseUnless _)) ?_ keeps_accounted fun _ _ h => h.1
    rcases endpoint_refuses hself hhealth hvalid hop with h | h
    · rw [h]
      exact .throw (fun _ => System.stable_answered) fun _ _ h => h.untouched.lawful
    · rw [h]
      exact holds_pure fun _ h => h.untouched.lawful.error
  · unfold core
    rw [raiseUnless, if_neg hvalid]
    exact .bind (Q := fun _ _ _ => False)
      (.throw (fun _ => System.stable_answered) fun _ _ h => h.untouched.lawful)
      fun _ _ _ h => h.elim

/-- What a request of a router keeps to; the health routes may do without a pipeline. -/
theorem serve_holds (hguarded : ¬ Bypassing v app r) : HttpTriple F Pristine (serve v app r)
    (fun reply log => Lawful app.middlewares log ∧ (¬ RestRoute.Health r.route →
      Accounted app.middlewares reply log)) (Lawful app.middlewares) := by
  have hstrengthen : ∀ {P : HttpLog → Prop} {m : HttpM Reply},
      HttpTriple F P m (Accounted app.middlewares) (Lawful app.middlewares) →
      HttpTriple F P m (fun reply log => Lawful app.middlewares log ∧
        (¬ RestRoute.Health r.route → Accounted app.middlewares reply log))
        (Lawful app.middlewares) := fun h =>
    h.conseq (fun _ _ h => h) (fun _ _ _ h => ⟨h.1, fun _ => h⟩) fun _ _ _ h => h
  rw [serve_eq]
  by_cases hversion : r.versionSupported = true
  swap
  · rw [raiseUnless, if_neg hversion]
    exact .bind (Q := fun _ _ _ => False)
      (.throw (fun _ => System.stable_answered) fun _ _ h => h.untouched.lawful)
      fun _ _ _ h => h.elim
  refine .bind (quiet_pristine (only_raiseUnless _)) fun _ => ?_
  unfold enforceMiddlewarePipeline
  split
  · rename_i hexempt
    by_cases hself : RestRoute.SelfHandled r.route
    · exact hstrengthen (core_selfHandled hself)
    by_cases hhealth : RestRoute.Health r.route
    · exact (core_health hhealth).conseq (fun _ _ h => h)
        (fun _ _ _ h => ⟨h, fun hn => absurd hhealth hn⟩) fun _ _ _ h => h
    by_cases hnone : app.middlewares = 0
    · -- without a middleware everybody is let through
      exact hstrengthen (core_guarded.pre fun _ log h => ⟨h, .outer, by rw [hnone]; exact nofun⟩)
    · refine hstrengthen (core_refuses hself hhealth (Bool.eq_false_iff.mpr fun hop => ?_))
      exact hguarded ⟨hexempt, hnone, hself, hhealth, hversion, hop⟩
  split
  · rename_i hnone
    exact hstrengthen (core_guarded.pre fun _ log h => ⟨h, .outer, by rw [hnone]; exact nofun⟩)
  · refine .ensure (.bind (beforeDispatch_opens .outer) fun _ => hstrengthen core_guarded)
      (fun reply => ?_) (fun _ => quiet_keeps keeps_lawful (quiet_releaseStarted _))
      (fun _ _ => System.stable_answered) fun _ _ => System.stable_answered
    refine (quiet_keeps (P := fun log => Lawful app.middlewares log ∧
      (¬ RestRoute.Health r.route → Accounted app.middlewares reply log)) ?_
      (quiet_releaseStarted _)).conseq (fun _ _ h => h) (fun _ _ _ h => h) fun _ _ _ h => h.1
    exact fun log e f he h => ⟨keeps_lawful log e f he h.1,
      fun hn => keeps_accounted reply log e f he (h.2 hn)⟩

/-- A request that gets past the pipeline comes to an operation without a `before_dispatch`. -/
theorem bypassing_operates (h : Bypassing v app r) :
    ∃ l op l', logOf (fun _ => .returns) (serve v app r) =
        l ++ (HttpEvent.operation op, Fate.returns) :: l' ∧
      ∀ p i f, (HttpEvent.before p i, f) ∉ l := by
  have hop := h.operates
  rw [operates, Bool.and_eq_true] at hop
  obtain ⟨hvalid, hop⟩ := hop
  have hexempt : enforceMiddlewarePipeline v app r.path (core v app r) = core v app r :=
    if_pos h.exempt
  rw [serve_eq, h.version, hexempt, core, hvalid]
  unfold endpoint
  cases hroute : r.route with
  | messageSend => exact absurd (Or.inl hroute) h.selfHandled
  | messageStream => exact absurd (Or.inr hroute) h.selfHandled
  | healthCheck => exact absurd (Or.inl hroute) h.health
  | readinessCheck => exact absurd (Or.inr hroute) h.health
  | tasksGet =>
    rw [hroute] at hop
    dsimp only at hop ⊢
    rw [tasksGet, hop]
    exact ⟨[], .getTask, _, rfl, nofun⟩
  | tasksCancel =>
    rw [hroute] at hop
    dsimp only at hop ⊢
    rw [tasksCancel, hop]
    exact ⟨[], .cancelTask, _, rfl, nofun⟩
  | tasksList =>
    rw [hroute] at hop
    dsimp only at hop ⊢
    obtain ⟨hmanager, hstatus⟩ := (Bool.and_eq_true _ _).mp hop
    have hnot : ¬ (v = .v10 ∧ r.validStatus = false) := by
      rintro ⟨rfl, hinvalid⟩
      simp [hinvalid] at hstatus
    rw [tasksList, hmanager, if_neg hnot]
    exact ⟨[], .listTasks, _, rfl, nofun⟩
  | tasksSubscribe =>
    rw [hroute] at hop
    dsimp only at hop ⊢
    obtain ⟨hstreaming, hmanager⟩ := (Bool.and_eq_true _ _).mp hop
    rw [subscribeSetup, hstreaming, hmanager]
    exact ⟨[], .subscribeTask, _, rfl, nofun⟩
  | card =>
    rw [hroute] at hop
    dsimp only at hop ⊢
    have hcard : card v app = operate .extendedCard := if_pos hop
    rw [hcard]
    exact ⟨[], .extendedCard, _, rfl, nofun⟩
  | pushConfigSet =>
    rw [hroute] at hop
    dsimp only at hop ⊢
    simp only [Bool.and_eq_true] at hop
    obtain ⟨⟨hnotify, hstore⟩, hstorage⟩ := hop
    rw [pushConfigSet, pushConfig, hnotify, hstore, hstorage]
    refine ⟨[(.point .readBody, .returns)], .setConfig, _, rfl, fun p i f hmem => ?_⟩
    exact nomatch List.mem_singleton.mp hmem
  | pushConfigGetById =>
    rw [hroute] at hop
    dsimp only at hop ⊢
    simp only [Bool.and_eq_true] at hop
    obtain ⟨⟨hnotify, hstore⟩, hstorage⟩ := hop
    rw [pushConfigGetById, pushConfig, hnotify, hstore, hstorage]
    exact ⟨[], .getConfig, _, rfl, nofun⟩
  | pushConfigList =>
    rw [hroute] at hop
    dsimp only at hop ⊢
    simp only [Bool.and_eq_true] at hop
    obtain ⟨⟨hnotify, hstore⟩, hstorage⟩ := hop
    rw [pushConfigList, pushConfig, hnotify, hstore, hstorage]
    exact ⟨[], .listConfigs, _, rfl, nofun⟩
  | pushConfigDelete =>
    rw [hroute] at hop
    dsimp only at hop ⊢
    simp only [Bool.and_eq_true] at hop
    obtain ⟨⟨hnotify, hstore⟩, hstorage⟩ := hop
    rw [pushConfigDelete, pushConfig, hnotify, hstore, hstorage]
    exact ⟨[], .deleteConfig, _, rfl, nofun⟩

end Endpoints

/-! ### The JSON-RPC endpoints -/

namespace JsonRpc

variable {v : ProtocolVersion} {app : AppState} {r : RpcRequest}

theorem quiet_sseGenerator : Act.Only QuietCall sseGenerator :=
  Act.only_bind (quiet_point _) fun _ => Act.only_ensure Endpoints.quiet_eventStream
    (Act.only_ensure (quiet_point _) (quiet_releaseStarted _))

theorem handleMessageSend_accounted : HttpTriple F Pristine (handleMessageSend v app r)
    (Accounted app.middlewares) (Lawful app.middlewares) := by
  unfold handleMessageSend
  split
  · exact holds_pure fun _ h => h.untouched.lawful.error
  refine .bind (quiet_pristine Endpoints.quiet_convertParams) fun _ => ?_
  refine holds_orError ?_ fun _ h => h.error
  refine .bind (quiet_pristine (only_raiseUnless _)) fun _ => ?_
  refine .bind (holds_exceptException (pipeline_opens (late_operation _))
    (quiet_releaseStarted _)) fun _ => late_accounted ?_
  exact Act.only_bind (late_of_quiet (quiet_releaseStarted _)) fun _ =>
    Act.only_bind (late_of_quiet (quiet_sync _)) fun _ => Act.only_pure _

/-- A stream is answered by a handler that has let the request through. -/
theorem stream_accounted {setup : HttpM Reply} (hsetup : HttpTriple F Pristine setup
      (fun reply log => reply = .stream ∧ Opened n log) (Lawful n)) :
    HttpTriple F Pristine (do
      let reply ← orError setup
      if reply = .stream then sseGenerator else return reply) (Accounted n) (Lawful n) := by
  refine .bind (holds_orError (Q := fun reply log => Lawful n log ∧
    (reply = .stream ∧ Opened n log ∨ reply = .error)) ?_ fun _ h => ⟨h, Or.inr rfl⟩)
    fun reply => ?_
  · exact hsetup.conseq (fun _ _ h => h) (fun _ _ _ h => ⟨h.2.lawful, Or.inl h⟩) fun _ _ _ h => h
  · split
    · rename_i hstream
      refine (late_accounted (late_of_quiet quiet_sseGenerator)).pre fun _ log h => ?_
      rcases h.2 with ⟨-, hopened⟩ | herror
      · exact hopened
      · exact absurd (hstream.symm.trans herror) nofun
    · rename_i hstream
      refine holds_pure fun log h => ?_
      rcases h.2 with ⟨hreply, -⟩ | herror
      · exact absurd hreply hstream
      · rw [herror]
        exact h.1.error

theorem handleMessageSendStream_accounted : HttpTriple F Pristine
    (handleMessageSendStream v app r) (Accounted app.middlewares) (Lawful app.middlewares) := by
  unfold handleMessageSendStream
  split
  · exact holds_pure fun _ h => h.untouched.lawful.error
  refine .bind (quiet_pristine Endpoints.quiet_convertParams) fun _ => stream_accounted ?_
  refine .bind (quiet_pristine (only_raiseUnless _)) fun _ => ?_
  exact .bind (holds_exceptBaseException (pipeline_opens (Endpoints.late_firstEvent _))
    (quiet_releaseStarted _)) fun _ => holds_pure fun _ h => ⟨rfl, h⟩

theorem handleTasksResubscribe_accounted : HttpTriple F Pristine
    (handleTasksResubscribe app r) (Accounted app.middlewares) (Lawful app.middlewares) := by
  unfold handleTasksResubscribe
  split
  · exact holds_pure fun _ h => h.untouched.lawful.error
  refine stream_accounted (.bind (holds_exceptBaseException (pipeline_opens
    (Act.only_bind (only_raiseUnless _) fun _ => Endpoints.late_firstEvent _))
    (quiet_releaseStarted _)) fun _ => holds_pure fun _ h => ⟨rfl, h⟩)

theorem late_operate (checked ready : Bool) (op : ServerOperation) :
    Act.Only LateCall (operate checked ready op) :=
  only_ite (Act.only_pure _) (only_orError (Act.only_bind (only_raiseUnless _) fun _ =>
    Endpoints.late_operate op))

/-- The handlers that run a pipeline of their own. -/
def RpcHandler.SelfHandled (h : RpcHandler) : Prop :=
  h = .messageSend ∨ h = .messageStream ∨ h = .tasksResubscribe

theorem handle_selfHandled {h : RpcHandler} (hself : RpcHandler.SelfHandled h) :
    HttpTriple F Pristine (handle v app r h) (Accounted app.middlewares)
      (Lawful app.middlewares) := by
  rcases hself with rfl | rfl | rfl
  · exact handleMessageSend_accounted
  · exact handleMessageSendStream_accounted
  · exact handleTasksResubscribe_accounted

theorem late_handle {h : RpcHandler} (hself : ¬ RpcHandler.SelfHandled h) :
    Act.Only LateCall (handle v app r h) := by
  cases h with
  | messageSend => exact absurd (Or.inl rfl) hself
  | messageStream => exact absurd (Or.inr (Or.inl rfl)) hself
  | tasksResubscribe => exact absurd (Or.inr (Or.inr rfl)) hself
  | health => exact Act.only_pure _
  | tasksGet => exact late_operate _ _ _
  | tasksList => exact late_operate _ _ _
  | tasksCancel => exact late_operate _ _ _
  | pushSet => exact late_operate _ _ _
  | pushGet => exact late_operate _ _ _
  | pushList => exact late_operate _ _ _
  | pushDelete => exact late_operate _ _ _
  | extendedCard => exact late_operate _ _ _

/-- Inside a pipeline every handler keeps to the rule. -/
theorem handle_guarded {h : RpcHandler} :
    HttpTriple F (fun log => Pristine log ∧ Passed app.middlewares log) (handle v app r h)
      (Accounted app.middlewares) (Lawful app.middlewares) := by
  by_cases hself : RpcHandler.SelfHandled h
  · exact (handle_selfHandled hself).pre fun _ _ h => h.1
  · exact (late_accounted (late_handle hself)).pre fun _ _ h => h.1.opened h.2

theorem accounted_answer {reply : Reply} (h : Accounted n reply log) (hasId : Bool) :
    Accounted n (answer hasId reply) log := by
  cases hasId with
  | true => exact h
  | false => exact h.1.accounted nofun nofun

theorem guarded_accounted {handler : HttpM Reply} (hasId : Bool)
    (hhandler : HttpTriple F (fun log => Pristine log ∧ Passed app.middlewares log) handler
      (Accounted app.middlewares) (Lawful app.middlewares)) :
    HttpTriple F Pristine (guarded app hasId handler) (Accounted app.middlewares)
      (Lawful app.middlewares) := by
  unfold guarded
  refine .ensure ?_ (fun reply => ?_)
    (fun _ => quiet_keeps keeps_lawful (quiet_releaseStarted _))
    (fun _ _ => System.stable_answered) fun _ _ => System.stable_answered
  · -- a refusal is answered with an error, and otherwise the handler is run
    refine .bind (holds_orError (Q := fun ready log => Lawful app.middlewares log ∧
      (ready = .result ∧ Pristine log ∧ Passed app.middlewares log ∨ ready = .error)) ?_
      fun _ h => ⟨h, Or.inr rfl⟩) fun ready => ?_
    · exact .bind (beforeDispatch_opens .outer) fun _ =>
        holds_pure fun _ h => ⟨h.1.untouched.lawful, Or.inl ⟨rfl, h⟩⟩
    · split
      · exact holds_pure fun _ h => accounted_answer (h.1.error) hasId
      · rename_i hready
        refine .bind (hhandler.pre fun _ log h => ?_) fun _ =>
          holds_pure fun _ h => accounted_answer h hasId
        rcases h.2 with ⟨-, h⟩ | herror
        · exact h
        · exact absurd herror hready
  · exact (quiet_keeps (keeps_accounted reply) (quiet_releaseStarted _)).conseq
      (fun _ _ h => h) (fun _ _ _ h => h) fun _ _ _ h => h.1

/-- Only these methods go past the dispatcher's pipeline. -/
theorem exempt_methods {method : String} {h : RpcHandler}
    (hlookup : (dispatch v).lookup method = some h)
    (hexempt : method ∈ middlewareSelfHandledMethods v ∨ method ∈ middlewarePublicMethods v) :
    RpcHandler.SelfHandled h ∨ method = "health" ∧ h = .health := by
  have hall : ∀ e ∈ dispatch v, (e.1 ∈ middlewareSelfHandledMethods v ∨
      e.1 ∈ middlewarePublicMethods v) → (e.2 = .messageSend ∨ e.2 = .messageStream ∨
        e.2 = .tasksResubscribe) ∨ e.1 = "health" ∧ e.2 = .health := by
    cases v with
    | v03 => decide
    | v10 => decide
  obtain ⟨l₁, l₂, heq, -⟩ := List.lookup_eq_some_iff.mp hlookup
  have hmem : (method, h) ∈ dispatch v := by
    rw [heq]
    exact List.mem_append_right _ List.mem_cons_self
  exact hall _ hmem hexempt

/-- What a call of a handler keeps to; the method `health` may do without a pipeline. -/
theorem invoke_holds {h : RpcHandler} {method : String} (hasId : Bool)
    (hlookup : (dispatch v).lookup method = some h) :
    HttpTriple F Pristine (invoke v app hasId method (handle v app r h))
      (fun reply log => Lawful app.middlewares log ∧ (method ≠ "health" →
        Accounted app.middlewares reply log)) (Lawful app.middlewares) := by
  have hstrengthen : ∀ {P : HttpLog → Prop} {m : HttpM Reply},
      HttpTriple F P m (Accounted app.middlewares) (Lawful app.middlewares) →
      HttpTriple F P m (fun reply log => Lawful app.middlewares log ∧ (method ≠ "health" →
        Accounted app.middlewares reply log)) (Lawful app.middlewares) := fun h =>
    h.conseq (fun _ _ h => h) (fun _ _ _ h => ⟨h.1, fun _ => h⟩) fun _ _ _ h => h
  unfold invoke
  split
  · exact hstrengthen (holds_pure fun _ h => h.untouched.lawful.accounted nofun nofun)
  split
  · exact hstrengthen (guarded_accounted hasId handle_guarded)
  rename_i hexempt
  by_cases hnone : app.middlewares = 0
  · -- without a middleware everybody is let through
    refine hstrengthen (.bind (handle_guarded.pre fun _ log h =>
      ⟨h, .outer, by rw [hnone]; exact nofun⟩) fun _ => holds_pure fun _ h =>
        accounted_answer h hasId)
  · have hexempt' : method ∈ middlewareSelfHandledMethods v ∨
        method ∈ middlewarePublicMethods v := by
      by_contra hboth
      obtain ⟨hself, hpublic⟩ := not_or.mp hboth
      exact hexempt ⟨hself, hpublic, hnone⟩
    rcases exempt_methods hlookup hexempt' with hself | ⟨hhealth, rfl⟩
    · exact hstrengthen (.bind (handle_selfHandled hself) fun _ =>
        holds_pure fun _ h => accounted_answer h hasId)
    · exact holds_pure fun _ h => ⟨h.untouched.lawful, fun hn => absurd hhealth hn⟩

/-- The method of a body. -/
def RpcRequest.method (r : RpcRequest) : Option String := r.body.bind RpcEnvelope.method

theorem found_method {hasId : Bool} {method : String} {h : RpcHandler}
    (hfound : found v r = some (hasId, method, h)) : RpcRequest.method r = some method := by
  unfold found at hfound
  unfold RpcRequest.method
  cases hbody : r.body with
  | none =>
    rw [hbody] at hfound
    exact nomatch hfound
  | some body =>
    rw [hbody] at hfound
    dsimp only at hfound
    split at hfound
    · exact nomatch hfound
    split at hfound
    · exact nomatch hfound
    rename_i method' hmethod
    split at hfound
    · exact nomatch hfound
    obtain ⟨h', -, heq⟩ := Option.map_eq_some_iff.mp hfound
    cases heq
    exact hmethod

theorem serve_holds : HttpTriple F Pristine (serve v app r)
    (fun reply log => Lawful app.middlewares log ∧ (RpcRequest.method r ≠ some "health" →
      Accounted app.middlewares reply log)) (Lawful app.middlewares) := by
  rw [serve_eq]
  refine .bind (quiet_pristine (only_raiseUnless _)) fun _ => ?_
  have hread : HttpTriple F Pristine (orError (do
      awaitCall (.point .readBody)
      return .result)) (fun _ => Pristine) (Lawful app.middlewares) :=
    quiet_pristine (only_orError (Act.only_bind (quiet_point _) fun _ => Act.only_pure _))
  refine .bind hread fun read => ?_
  split
  · exact holds_pure fun _ h => ⟨h.untouched.lawful, fun _ =>
      h.untouched.lawful.error⟩
  unfold dispatchBody
  cases hfound : found v r with
  | none =>
    refine holds_pure fun _ h => ⟨h.untouched.lawful, fun _ => ?_⟩
    unfold rejection
    split
    · exact h.untouched.lawful.error
    · exact accounted_answer (h.untouched.lawful.error) _
  | some e =>
    obtain ⟨hasId, method, handler⟩ := e
    refine (invoke_holds hasId (found_lookup hfound)).conseq (fun _ _ h => h) (fun _ _ _ h => ?_)
      fun _ _ _ h => h
    refine ⟨h.1, fun hn => h.2 fun hhealth => hn ?_⟩
    rw [found_method hfound, hhealth]

end JsonRpc

/-! ### Both bindings -/

/-- A request for one of the health routes or methods. -/
def HttpRequest.Health : HttpRequest → Prop
  | .rest r => Endpoints.RestRoute.Health r.route
  | .jsonRpc r => JsonRpc.RpcRequest.method r = some "health"

/-- A REST request that gets past the router's pipeline by the path of its url. -/
def HttpRequest.Bypassing (v : ProtocolVersion) (app : AppState) : HttpRequest → Prop
  | .rest r => Endpoints.Bypassing v app r
  | .jsonRpc _ => False

theorem HttpRequest.serve_holds (F : HttpEvent → Fate) {v : ProtocolVersion} {app : AppState}
    {r : HttpRequest} (hguarded : ¬ r.Bypassing v app) : HttpTriple F Pristine (r.serve v app)
      (fun reply log => Lawful app.middlewares log ∧ (¬ r.Health →
        Accounted app.middlewares reply log)) (Lawful app.middlewares) := by
  cases r with
  | rest r => exact Endpoints.serve_holds hguarded
  | jsonRpc r => exact JsonRpc.serve_holds

/-- How a request ends. -/
def outcomeOf (F : HttpEvent → Fate) (m : HttpM α) : Except Failure α :=
  (m.eval (answerCall F) {} []).1

/-- The rule excludes that a refusal and an operation come together, in whatever order. -/
theorem Lawful.untouched {p : Pass} {i : Nat} {f : Fate} (h : Lawful n log)
    (hmem : (HttpEvent.before p i, f) ∈ log) (hf : f ≠ .returns) : Untouched log := by
  intro op f' hop
  obtain ⟨l, l', rfl⟩ := List.append_of_mem hop
  rcases List.mem_append.mp hmem with hbefore | hafter
  · exact hf ((h l _ l' rfl).2 p i f hbefore)
  · rcases List.mem_cons.mp hafter with heq | hafter
    · exact nomatch (Prod.mk.inj heq).1
    · obtain ⟨k, k', rfl⟩ := List.append_of_mem hafter
      have hrefused := h (l ++ (.operation op, f') :: k) _ k'
        (by rw [List.append_assoc, List.cons_append])
      exact hrefused hf op f' (List.mem_append_right _ List.mem_cons_self)

/-- Authentication before any effect: if a `before_dispatch` does not return, no operation is called;
an operation is called after all middlewares have completed `before_dispatch`; and only the health
methods and routes have a result without that. -/
structure HttpRequest.Authenticated (F : HttpEvent → Fate) (v : ProtocolVersion) (app : AppState)
    (r : HttpRequest) : Prop where
  refused : ∀ p i f, (HttpEvent.before p i, f) ∈ logOf F (r.serve v app) → f ≠ .returns →
    ∀ op f', (HttpEvent.operation op, f') ∉ logOf F (r.serve v app)
  passed : ∀ l op f l', logOf F (r.serve v app) = l ++ (HttpEvent.operation op, f) :: l' →
    ∃ p, ∀ i < app.middlewares, (HttpEvent.before p i, Fate.returns) ∈ l
  skipped : ∀ reply, outcomeOf F (r.serve v app) = .ok reply → reply = .result ∨ reply = .stream →
    r.Health ∨ ∃ p, ∀ i < app.middlewares,
      (HttpEvent.before p i, Fate.returns) ∈ logOf F (r.serve v app)

theorem HttpRequest.Bypassing.unauthenticated {v : ProtocolVersion} {app : AppState}
    {r : HttpRequest} (h : r.Bypassing v app) :
    ¬ r.Authenticated (fun _ => .returns) v app := by
  intro hauth
  cases r with
  | jsonRpc r => exact h
  | rest r =>
    obtain ⟨l, op, l', hlog, hnone⟩ := Endpoints.bypassing_operates h
    obtain ⟨p, hp⟩ := hauth.passed l op .returns l' hlog
    exact hnone p 0 .returns (hp 0 (Nat.pos_of_ne_zero h.middlewares))

/-- **When a request is authenticated before any effect**, whatever its calls do: if it does not get
past the router's pipeline by the path of its url. -/
theorem HttpRequest.authenticated_iff (v : ProtocolVersion) (app : AppState) (r : HttpRequest) :
    (∀ F, r.Authenticated F v app) ↔ ¬ r.Bypassing v app := by
  constructor
  · exact fun hall hbypass => hbypass.unauthenticated (hall _)
  · intro hguarded F
    have h := Act.Triple.eval (HttpRequest.serve_holds F hguarded) (s := {})
      (show Pristine [] from ⟨nofun, nofun⟩)
    have hlawful : Lawful app.middlewares (logOf F (r.serve v app)) := by
      unfold logOf
      revert h
      rcases (r.serve v app).eval (answerCall F) {} [] with ⟨_ | _, _, _⟩
      · exact id
      · exact And.left
    refine ⟨fun p i f hmem hf => hlawful.untouched hmem hf,
      fun l op f l' heq => (hlawful l _ l' heq).1, fun reply hreply hanswer => ?_⟩
    by_cases hhealth : r.Health
    · exact Or.inl hhealth
    · refine Or.inr ?_
      unfold outcomeOf at hreply
      unfold logOf
      revert h hreply
      rcases (r.serve v app).eval (answerCall F) {} [] with ⟨_ | a, _, _⟩
      · exact fun _ hreply => nomatch hreply
      · rintro hok ⟨⟩
        exact (hok.2 hhealth).2 hanswer

/-- GET /v1/tasks/abc with the Host header `x/v1/health?`. -/
def forgedHost : HttpRequest :=
  .rest { route := .tasksGet, taskId := "abc", path := "/v1/health" }

/-- The task is read, and the middleware was never asked. -/
theorem HttpRequest.forged_host_unauthenticated : ¬ ∀ (F : HttpEvent → Fate) (v : ProtocolVersion)
    (app : AppState) (r : HttpRequest), r.Authenticated F v app := by
  intro hall
  have hbypass : forgedHost.Bypassing .v03 { middlewares := 1 } := by
    refine ⟨Or.inr (by decide), by decide, ?_, ?_, rfl, rfl⟩
    · rintro (h | h) <;> cases h
    · rintro (h | h) <;> cases h
  exact hbypass.unauthenticated (hall _ .v03 { middlewares := 1 } forgedHost)

end A2AKit
