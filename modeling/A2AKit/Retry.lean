/-
Requests that are repeated.

A client repeats its request until a call returns normally.  Between the write of `_submit_task`
and the start of the background task there are awaits that may raise: the tenant, the inline push
configuration, the event of the transition, the loads and the subscription.  A call that raises
at none of them leaves nothing behind that the next call cannot take up, and then every
submission is handed over once (`retried_submission_handed_over`).

A call that raises there leaves a submitted task without an operation: the marker was given out,
and the repetition only reads (`retried_creation_stays_submitted`).
-/
import A2AKit.IdempotentCreation
import A2AKit.Resubmission

namespace A2AKit

open Act (Triple)
open TaskManager

/-- What was committed was handed over. -/
def Account.Delivered (x : Account) : Prop := x.commits ≠ 0 → x.handed ≠ []

/-! ### New messages -/

section

variable {ι : Type} [DecidableEq ι] {cfg : BusConfig} {store : Store} {start a a' : Archive ι}
  {i : ι} {books : TaskId → Account} {t : TaskId}

variable (cfg store) in
/-- No call raises while a task that it has stored is not handed over. -/
def calmly (i : ι) : ArchiveCircumstances ι :=
  fun e a => a.raises cfg store i e = true → ∀ t, (a.books i t).Delivered

theorem forgiven_calmly (i : ι) :
    Forgiven cfg store i (calmly cfg store i) fun books => ∀ t, (books t).Delivered :=
  forgiven_of_raises fun _ _ hcalm => hcalm

/-- What a call has returned: a task that calls with its context and key find, and nothing is
left to be handed over. -/
def Served (store : Store) (start : Archive ι) (i : ι) (message : Message) (t : TaskId)
    (a : Archive ι) : Prop :=
  Raising store start i (fun books => ∀ s, (books s).Delivered) a ∧
    ∃ c, (message.contextId ≠ "" → c = message.contextId) ∧
      Indexed store c (idempotencyKey message) t a

omit [DecidableEq ι] in
theorem SentNew.served {created : Bool} {message : Message} (hbooks : ∀ s, (books s).Delivered)
    (h : SentNew store start i books message created t a) : Served store start i message t a := by
  obtain ⟨c, hc, hindex, hrest⟩ := h
  refine ⟨?_, c, hc, hindex⟩
  cases created with
  | true =>
    obtain ⟨-, n, m, hhold⟩ := hrest
    refine ⟨_, hhold, fun s => ?_⟩
    by_cases hs : s = t
    · subst hs
      rw [Function.update_self]
      exact fun _ => List.cons_ne_nil m []
    · rw [Function.update_of_ne hs]
      exact hbooks s
  | false => exact ⟨books, hrest, hbooks⟩

/-- The calls of one client. -/
theorem retry_sendNew (params : SendParams) (n : Nat) :
    Triple (newSystem cfg store start (calmly cfg store) i)
      (fun _ => Raising store start i fun books => ∀ t, (books t).Delivered)
      ((sendNew store params).retry n)
      (fun r _ => Served store start i params.message r.2.id)
      fun _ _ => Raising store start i fun books => ∀ t, (books t).Delivered := by
  refine Triple.retry ?_ n
  rintro u a ⟨books, hhold, hbooks⟩
  exact (sendNew_answers (forgiven_calmly i) params).conseq (fun _ _ h => h)
    (fun _ _ _ h => h.1.served hbooks) (fun _ _ _ hx => hx) u a hhold

end

/-! ### Follow-ups -/

section

variable {ι : Type} [DecidableEq ι] {cfg : BusConfig} {taskId : TaskId} {message : ι → Message}
  {start : Option Row} {i : ι} {o : Office ι}

/-- No call raises while its message was accepted and is not handed over. -/
def calmFollowUp (message : ι → Message) (i : ι) : Circumstances ι :=
  fun e o => isUndisturbed (message i) e o = false → (o.accounts i).Delivered

omit [DecidableEq ι] in
theorem excused_calmFollowUp (i : ι) :
    Excused (message i) i (calmFollowUp message i) Account.Delivered :=
  excused_of_disturbed fun _ _ hcalm => hcalm

variable {cond : ι → Circumstances ι} {E : Account → Prop} {xs : List Message}

/-- A call that finds its message in the history: it is refused, or it is a repetition. -/
theorem repeated_submitRule (i : ι) (hE : E { commits := 1, handed := xs }) :
    SubmitRule taskId ((followUpSystem cfg taskId message cond start i).comap fun _ => Sum.inl)
      (Office.world (ι := ι)) (message i)
      (Submitted start message i { commits := 1, handed := xs })
      (fun _ task o => Submitted start message i { commits := 1, handed := xs } o ∧
        Returns start (message i) task o)
      (fun _ _ => False)
      (fun t o => Submitted start message i { commits := 1, handed := xs } o ∧
        Returns start (message i) t o)
      (fun _ _ => False) fun _ => Halted start message i E := by
  have hhalted : ∀ {o}, Submitted start message i { commits := 1, handed := xs } o →
      Halted start message i E o := fun ho => Or.inr ⟨xs, ho, hE⟩
  have hdup : ∀ {task : Task} {o : Office ι}, Returns start (message i) task o →
      isDuplicate (message i) task = true := fun hret => isDuplicate_iff.mpr hret.holds
  exact {
    stable_before := fun _ _ hstep ho => ho.others hstep
    stable_validated := fun _ _ _ _ hstep ho => ⟨ho.1.others hstep, ho.2.others hstep⟩
    stable_after := fun _ _ _ _ ho => ho
    stable_duplicate := fun _ _ _ hstep ho => ⟨ho.1.others hstep, ho.2.others hstep⟩
    stable_final := fun _ _ _ _ ho => ho
    stable_raise := fun _ _ _ hstep ho => ho.others hstep
    req_quiet := fun _ _ he _ => followUpReq_quiet he
    req_update := fun _ _ _ ho hnew _ _ => nomatch hnew.symm.trans (hdup ho.2)
    req_read := fun _ _ _ _ _ _ _ _ => trivial
    req_write := fun _ _ _ _ _ _ _ ho hnew _ _ _ => nomatch hnew.symm.trans (hdup ho.2)
    missing := fun _ _ ho _ _ => hhalted ho
    rejected := fun _ _ _ ho _ _ _ => hhalted ho
    validated := fun _ _ _ ho _ hrow _ _ => ⟨ho, ho.returns hrow⟩
    duplicate := fun _ _ _ ho _ => ho
    merge := by
      intro _ _ _ o o' _ ho hperf
      obtain ⟨hsub, ⟨row, hrow, hstart, hmoves⟩, hholds⟩ := ho
      refine ⟨hsub.perform rfl hperf, ⟨row, hrow, hstart, ?_⟩, hholds⟩
      rw [(followUp_unchanged rfl hperf).1]
      exact hmoves
    commit := fun _ _ _ _ _ _ _ _ ho hnew _ _ _ _ _ => nomatch hnew.symm.trans (hdup ho.2)
    refused := fun _ _ _ _ _ _ _ ho _ _ _ _ => hhalted ho.1
    twin := fun _ _ _ _ ho _ hrow _ => ⟨ho.1, ho.1.returns hrow⟩
    lost := fun _ _ _ _ ho _ _ => hhalted ho.1
    publish := fun _ _ _ _ _ _ ho _ => ho
    withdraw := fun _ _ _ ho hperf => ho.perform rfl hperf
    vanished := fun _ _ _ ho _ _ => ho.elim
    final := fun _ _ _ ho _ _ => ho.elim
    cancelled_before := fun _ _ ho _ _ => hhalted ho
    cancelled_validated := fun _ _ _ _ ho _ _ => hhalted ho.1
    cancelled_after := fun _ _ _ ho _ _ => ho.elim }

variable (cfg taskId message) in
/-- A call of a client whose message was accepted. -/
theorem repeated_request (k : StorageKind) (params : SendParams) (i : ι)
    (hexcused : Excused (message i) i (cond i) E) (hE : E { commits := 1, handed := xs })
    (hparams : params.message = message i) (hname : (message i).taskId ≠ "") :
    Triple (followUpSystem cfg taskId message cond start i)
      (fun _ => Submitted start message i { commits := 1, handed := xs }) (sendMessage k params)
      (fun t _ o => Submitted start message i { commits := 1, handed := xs } o ∧
        Returns start (message i) t o)
      fun _ _ => Halted start message i E := by
  have hhosts := followUp_hosts cfg taskId message cond start i
  rw [sendMessage, submit, hparams, if_neg hname]
  refine Triple.bind (Triple.lift (hhosts.submitTask (repeated_submitRule i hE) k))
    fun r => ?_
  obtain ⟨task, enqueue⟩ := r
  cases enqueue with
  | true =>
    rintro u o hfalse
    exact (hfalse : False).elim
  | false =>
    have htenant : persistTenant k params false = pure () := by
      rw [persistTenant]
      split
      · rfl
      · rw [if_neg fun h => Bool.false_ne_true h.2.1]
    dsimp only
    rw [htenant]
    exact ((followUp_accepted i hexcused xs).repetition hhosts k params task).conseq
      (fun _ _ ho => ho) (fun _ _ _ ho => ho) fun _ _ _ hx => hx

/-- What a call of a follow-up has returned. -/
def Answering (start : Option Row) (message : ι → Message) (i : ι) (t : Task) (o : Office ι) :
    Prop :=
  (∃ account, Submitted start message i account o ∧ account.Delivered) ∧
    Returns start (message i) t o

variable (cfg taskId) in
/-- The calls of one client. -/
theorem retry_sendMessage (k : StorageKind) (params : SendParams) (i : ι) (n : Nat)
    (hparams : params.message = message i) (hname : (message i).taskId ≠ "") :
    Triple (followUpSystem cfg taskId message (calmFollowUp message) start i)
      (fun _ => Halted start message i Account.Delivered) ((sendMessage k params).retry n)
      (fun t _ => Answering start message i t)
      fun _ _ => Halted start message i Account.Delivered := by
  refine Triple.retry ?_ n
  rintro u o (⟨ho, -⟩ | ⟨xs, ho, hxs⟩)
  · refine (followUp_request cfg taskId message k params i (excused_calmFollowUp i) hparams
      hname).conseq (fun _ _ h => h) ?_ (fun _ _ _ hx => hx) u o ho
    rintro t _ o' ⟨⟨x, hhanded⟩ | hrepeated, hret⟩
    · exact ⟨⟨_, hhanded, fun _ => List.cons_ne_nil x []⟩, hret⟩
    · exact ⟨⟨_, hrepeated, fun hne => absurd rfl hne⟩, hret⟩
  · exact (repeated_request cfg taskId message k params i (excused_calmFollowUp i) hxs hparams
      hname).conseq (fun _ _ h => h) (fun _ _ _ h => ⟨⟨_, h.1, hxs⟩, h.2⟩)
      (fun _ _ _ hx => hx) u o ho

end

/-! ### Whole histories -/

section

variable {ι : Type} [DecidableEq ι]

/-- What holds when the calls of a client with a new message are over. -/
def CreationEnds (store : Store) (start : Archive ι) (i : ι) (message : Message)
    (r : Except Exc (Bool × Task) × Unit) (a : Archive ι) : Prop :=
  match r.1 with
  | .ok (_, task) => Served store start i message task.id a
  | .error _ => Raising store start i (fun books => ∀ t, (books t).Delivered) a

/-- What holds when the calls of a client with a follow-up are over. -/
def FollowUpEnds (start : Option Row) (message : ι → Message) (i : ι)
    (r : Except Exc Task × Unit) (o : Office ι) : Prop :=
  match r.1 with
  | .ok t => Answering start message i t o
  | .error _ => Halted start message i Account.Delivered o

/-- The histories of clients that repeat requests of new messages. -/
theorem retried_creation (cfg : BusConfig) (store : Store) (params : ι → SendParams)
    (retries : ι → Nat) {start : Archive ι} (hstart : start.Opening store)
    (hid : ∀ i, (params i).message.messageId ≠ "")
    (hnew : ∀ i c, (params i).message.contextId = "" ∨ c = (params i).message.contextId →
      start.find store c (params i).message.messageId = none)
    {ms : List (PoolMove ι (Archive ι))}
    {c : (ι → Prog ArchiveCall (Except Exc (Bool × Task) × Unit)) × Archive ι}
    (hrun : (newMessages cfg store (calmly cfg store)).Run
      (fun i => (sendNew store (params i)).retry (retries i) (), start) ms c) :
    (∀ i r, c.1 i = .ret r → ∀ t, (c.2.accounts t i).commits ≠ 0 →
      (c.2.accounts t i).handed.length = 1 ∧ ∀ j, j ≠ i → (c.2.accounts t j).handed = []) ∧
    ∀ i created task u, c.1 i = .ret (.ok (created, task), u) →
      ∃ j, (c.2.accounts task.id j).commits ≠ 0 := by
  have hwp : ∀ i, ((sendNew store (params i)).retry (retries i) ()).wp
      (newSystem cfg store start (calmly cfg store) i)
      (CreationEnds store start i (params i).message) start := by
    intro i
    refine Prog.wp_mono (retry_sendNew (params i) (retries i) () start
      ⟨_, hstart.holding i, fun _ hne => absurd rfl hne⟩) ?_
    rintro ⟨r | r, u⟩ a hr
    · exact hr
    · exact hr
  obtain ⟨hinv, hend, -⟩ := hrun.sound newMessages_fit hstart.inv hwp
  have hraising : ∀ i r, c.1 i = .ret r →
      Raising store start i (fun books => ∀ t, (books t).Delivered) c.2 := by
    rintro i ⟨r, u⟩ hr
    have hi := hend i
    rw [hr] at hi
    have hnow := hi c.2 .refl
    cases r with
    | ok r => exact hnow.1
    | error x => exact hnow
  refine ⟨fun i r hr t ht => ?_, fun i created task u hr => ?_⟩
  · obtain ⟨books, hhold, hdelivered⟩ := hraising i r hr
    have hne : (c.2.accounts t i).handed ≠ [] := by
      have hbooks : c.2.accounts t i = books t := congrFun hhold.books t
      rw [hbooks] at ht ⊢
      exact hdelivered t ht
    have hle := (hinv.account t i).1
    have hpos := List.length_pos_iff.mpr hne
    refine ⟨by omega, fun j hj => ?_⟩
    -- only the client that has stored the task hands over its operation
    by_contra hhanded
    exact hj (hinv.unique t j i ((hinv.account t j).2 hhanded) ht)
  · have hi := hend i
    rw [hr] at hi
    obtain ⟨-, c', hc', hindex⟩ := hi c.2 .refl
    have hfound := hindex.found _ (if_neg (hid i))
    refine (hinv.origin _ _ _ hfound).resolve_left fun hold => ?_
    have hcontext : (params i).message.contextId = "" ∨ c' = (params i).message.contextId := by
      by_cases hblank : (params i).message.contextId = ""
      · exact Or.inl hblank
      · exact Or.inr (hc' hblank)
    cases (hnew i c' hcontext).symm.trans hold

/-- The histories of clients that repeat follow-ups. -/
theorem retried_follow_up (cfg : BusConfig) (taskId : TaskId) (k : StorageKind)
    (params : ι → SendParams) (retries : ι → Nat) (hname : ∀ i, (params i).message.taskId ≠ "")
    {w : World} (hnew : ∀ i, ¬ KnownAt w.row (params i).message.messageId)
    {ms : List (PoolMove ι (Office ι))} {c : (ι → Prog Call (Except Exc Task × Unit)) × Office ι}
    (hrun : (followUps cfg taskId (fun i => (params i).message)
      (calmFollowUp fun i => (params i).message)).Run
      (fun i => (sendMessage k (params i)).retry (retries i) (), { world := w }) ms c) :
    (∀ i r, c.1 i = .ret r → (c.2.accounts i).commits ≠ 0 →
      (c.2.accounts i).handed.length = 1 ∧
      ∀ j, j ≠ i → (params j).message.messageId = (params i).message.messageId →
        (c.2.accounts j).handed = []) ∧
    ∀ i task u, c.1 i = .ret (.ok task, u) →
      ∃ j, (c.2.accounts j).commits ≠ 0 ∧
        (params j).message.messageId = (params i).message.messageId := by
  let message := fun i => (params i).message
  have hwp : ∀ i, ((sendMessage k (params i)).retry (retries i) ()).wp
      (followUpSystem cfg taskId message (calmFollowUp message) w.row i)
      (FollowUpEnds w.row message i) { world := w } := by
    intro i
    refine Prog.wp_mono (retry_sendMessage cfg taskId k (params i) i (retries i) rfl (hname i) ()
      { world := w } (Or.inl ⟨standing_start w i, fun hne => absurd rfl hne⟩)) ?_
    rintro ⟨r | r, u⟩ o hr
    · exact hr
    · exact hr
  obtain ⟨hinv, hend, -⟩ := hrun.sound followUps_fit (followUpInv_start w) hwp
  have hdelivered : ∀ i r, c.1 i = .ret r → (c.2.accounts i).Delivered := by
    rintro i ⟨r, u⟩ hr
    have hi := hend i
    rw [hr] at hi
    have hnow := hi c.2 .refl
    cases r with
    | ok t =>
      obtain ⟨⟨account, hsub, hdone⟩, -⟩ := hnow
      exact hsub.account.symm ▸ hdone
    | error x =>
      rcases hnow with ⟨hstanding, hdone⟩ | ⟨xs, hsub, hdone⟩
      · exact hstanding.account.symm ▸ hdone
      · exact hsub.account.symm ▸ hdone
  refine ⟨fun i r hr hi => ⟨?_, fun j hj hsame => ?_⟩, fun i task u hr => ?_⟩
  · have hpos := List.length_pos_iff.mpr (hdelivered i r hr hi)
    obtain ⟨hhanded, hcommits⟩ := hinv.account i
    omega
  · by_contra hhanded
    have hpos := List.length_pos_iff.mpr hhanded
    have hle := (hinv.account j).1
    exact hj (hinv.unique j i (by omega) hi hsame)
  · have hi := hend i
    rw [hr] at hi
    obtain ⟨⟨account, hsub, -⟩, -⟩ := hi c.2 .refl
    exact hsub.source.resolve_left (hnew i)

/-- **Submissions that are repeated are handed over once.**  Any number of clients repeat their
requests, each up to its number of times, among each other and with workers, cancellers and other
writers.  If no call raises between the write of its submission and the start of the background
task:

* when a client has ended, every new task that it has stored was handed over once in total;
* a task that a call has returned was stored by a client;
* when a client whose follow-up was accepted has ended, the follow-up was handed over once in
  total;
* a call of a follow-up that has returned repeats an accepted one, or was accepted. -/
theorem retried_submission_handed_over (cfg : BusConfig) (params : ι → SendParams)
    (retries : ι → Nat) :
    (∀ (store : Store) (start : Archive ι), start.Opening store →
      (∀ i, (params i).message.messageId ≠ "") →
      (∀ i c, (params i).message.contextId = "" ∨ c = (params i).message.contextId →
        start.find store c (params i).message.messageId = none) →
      ∀ ms (c : (ι → Prog ArchiveCall (Except Exc (Bool × Task) × Unit)) × Archive ι),
        (newMessages cfg store (calmly cfg store)).Run
          (fun i => (sendNew store (params i)).retry (retries i) (), start) ms c →
        (∀ i r, c.1 i = .ret r → ∀ t, (c.2.accounts t i).commits ≠ 0 →
          (c.2.accounts t i).handed.length = 1 ∧ ∀ j, j ≠ i → (c.2.accounts t j).handed = []) ∧
        ∀ i created task u, c.1 i = .ret (.ok (created, task), u) →
          ∃ j, (c.2.accounts task.id j).commits ≠ 0) ∧
    ∀ (k : StorageKind) (taskId : TaskId) (w : World),
      (∀ i, (params i).message.taskId ≠ "") →
      (∀ i, ¬ KnownAt w.row (params i).message.messageId) →
      ∀ ms (c : (ι → Prog Call (Except Exc Task × Unit)) × Office ι),
        (followUps cfg taskId (fun i => (params i).message)
          (calmFollowUp fun i => (params i).message)).Run
          (fun i => (sendMessage k (params i)).retry (retries i) (), { world := w }) ms c →
        (∀ i r, c.1 i = .ret r → (c.2.accounts i).commits ≠ 0 →
          (c.2.accounts i).handed.length = 1 ∧
          ∀ j, j ≠ i → (params j).message.messageId = (params i).message.messageId →
            (c.2.accounts j).handed = []) ∧
        ∀ i task u, c.1 i = .ret (.ok task, u) →
          ∃ j, (c.2.accounts j).commits ≠ 0 ∧
            (params j).message.messageId = (params i).message.messageId :=
  ⟨fun store _ hstart hid hnew _ _ hrun =>
      retried_creation cfg store params retries hstart hid hnew hrun,
    fun k taskId _ hname hnew _ _ hrun =>
      retried_follow_up cfg taskId k params retries hname hnew hrun⟩

end

/-! ### A client that is gone before the hand-over -/

/-- The client is gone, or is there again. -/
def clientGone {ι : Type} (gone : Bool) (a : Archive ι) : Archive ι :=
  { a with
    ambient := { a.ambient with interrupt := gone }
    offices := fun t => { a.offices t with world := { (a.offices t).world with
      cancelled := gone
      inScope := gone
      ambient := { (a.offices t).world.ambient with interrupt := gone } } } }

theorem surroundings_clientGone {ι : Type} (gone : Bool) (a : Archive ι) :
    Surroundings a (clientGone gone a) :=
  ⟨fun _ => sameTask_refl _, rfl, rfl, rfl, rfl, rfl⟩

/-- The client is gone before the first operation of its call that can raise, and is there again
when it repeats the call. -/
def repeatingCues (awaited repeated : Nat) : List (Crew.Cue Unit (Archive Unit)) :=
  List.replicate awaited (Crew.Cue.program ()) ++ [Crew.Cue.env (clientGone true), .program (),
    .env (clientGone false)] ++ List.replicate repeated (Crew.Cue.program ())

/-- A blocking request of a new message, which is repeated once. -/
def blockingTwice (store : Store) : Unit → Prog ArchiveCall (Except Exc (Bool × Task) × Unit) :=
  fun _ => (sendNew store { message := openingMessage, mode := .blocking }).retry 1 ()

/-- The client has got a task. -/
def gotTask {E : Type → Type} {W α : Type} (c : (Unit → Prog E (Except Exc α × Unit)) × W) : Bool :=
  match c.1 () with
  | .ret (.ok _, _) => true
  | _ => false

theorem ret_of_gotTask {E : Type → Type} {W α : Type}
    {c : (Unit → Prog E (Except Exc α × Unit)) × W} (h : gotTask c = true) :
    ∃ a, c.1 () = .ret (.ok a, ()) := by
  rw [gotTask] at h
  split at h
  · rename_i a _ hret
    exact ⟨a, hret⟩
  · exact nomatch h

/-- The first call is cancelled before it has stored anything, and the second one is served. -/
theorem interrupted_creation_run :
    ∃ ms c, (newMessages ⟨1, 1, 60⟩ .sqlite (calmly ⟨1, 1, 60⟩ .sqlite)).Run
      (blockingTwice .sqlite, Archive.vacant Unit) ms c ∧ gotTask c = true := by
  have hdrawn := Crew.Run.op (C := newMessages ⟨1, 1, 60⟩ .sqlite (calmly ⟨1, 1, 60⟩ .sqlite)) ()
    (Crew.Run.nil (c := (blockingTwice .sqlite, Archive.vacant Unit))) rfl
    (fun hraises => nomatch (hraises : false = true)) rfl
  -- nothing is stored when the await raises
  have hraised := Crew.Run.op () (hdrawn.env (surroundings_clientGone true _)) rfl
    (fun _ _ hne => absurd rfl hne) rfl
  have hback := (hraised.env (surroundings_clientGone false _)).env (surroundings_drawing "t2" _)
  have hguard : ∀ (i : Unit) {β : Type} (e : ArchiveCall β) (a : Archive Unit),
      (!a.raises ⟨1, 1, 60⟩ .sqlite i e) = true → calmly ⟨1, 1, 60⟩ .sqlite i e a := by
    intro i β e a hok hraises
    rw [hraises] at hok
    exact nomatch hok
  have henv : ∀ f : Archive Unit → Archive Unit,
      Crew.Cue.env f ∈ List.replicate 15 (Crew.Cue.program ()) → ∀ a, Surroundings a (f a) := by
    intro f hf
    exact nomatch List.eq_of_mem_replicate hf
  refine hback.continues hguard henv gotTask ?_
  decide +kernel

/-- A follow-up that nothing disturbs. -/
theorem undisturbed_follow_up_run :
    ∃ ms c, (followUps ⟨1, 1, 60⟩ "t" (fun _ : Unit => followUp "m1")
        (calmFollowUp fun _ => followUp "m1")).Run
      (fun _ => (sendMessage .memory { message := followUp "m1", mode := .returnImmediately }).retry 1 (),
        { world := World.holding waitingTask 3 }) ms c ∧ gotTask c = true := by
  have hguard : ∀ (i : Unit) {β : Type} (e : Call β) (o : Office Unit),
      isUndisturbed (followUp "m1") e o = true → calmFollowUp (fun _ => followUp "m1") i e o := by
    intro i β e o hok hdisturbed
    exact nomatch hdisturbed.symm.trans hok
  have henv : ∀ f : Office Unit → Office Unit, Crew.Cue.env f ∈
      List.replicate 11 (Crew.Cue.program ()) ++ [Crew.Cue.env busServed] ++
        List.replicate 4 (Crew.Cue.program ()) →
      ∀ o, Outsiders (fun _ : Unit => followUp "m1") o (f o) := by
    intro f hf o
    obtain rfl : f = busServed := by simpa using hf
    exact outsiders_busServed _ o
  refine Crew.exists_run_of_check hguard henv gotTask ?_
  decide +kernel

/-- A request that is cancelled before it has stored anything and repeated, and a follow-up. -/
theorem repeated_requests_handed_over :
    (∃ c : (Unit → Prog ArchiveCall (Except Exc (Bool × Task) × Unit)) × Archive Unit,
      ∃ created task, c.1 () = .ret (.ok (created, task), ()) ∧
        (c.2.accounts task.id ()).handed.length = 1) ∧
    ∃ c : (Unit → Prog Call (Except Exc Task × Unit)) × Office Unit,
      ∃ task, c.1 () = .ret (.ok task, ()) ∧ (c.2.accounts ()).handed.length = 1 := by
  obtain ⟨ms, c, hrun, hgot⟩ := interrupted_creation_run
  obtain ⟨⟨created, task⟩, hret⟩ := ret_of_gotTask hgot
  obtain ⟨hhanded, hstored⟩ := (retried_submission_handed_over ⟨1, 1, 60⟩
    (fun _ : Unit => { message := openingMessage, mode := .blocking }) fun _ => 1).1 .sqlite
    (Archive.vacant Unit) (opening_vacant Unit .sqlite) (fun _ => by decide) (fun _ _ _ => rfl) ms c hrun
  obtain ⟨⟨⟩, hcommits⟩ := hstored () created task () hret
  obtain ⟨ms', c', hrun', hgot'⟩ := undisturbed_follow_up_run
  obtain ⟨task', hret'⟩ := ret_of_gotTask hgot'
  have hunknown : ¬ KnownAt (World.holding waitingTask 3).row "m1" := by
    rintro ⟨row, hrow, hmem⟩
    obtain rfl := Option.some_inj.mp hrow
    revert hmem
    decide
  obtain ⟨hhanded', hstored'⟩ := (retried_submission_handed_over ⟨1, 1, 60⟩
    (fun _ : Unit => { message := followUp "m1", mode := .returnImmediately }) fun _ => 1).2 .memory
    "t" (World.holding waitingTask 3) (fun _ => by decide) (fun _ => hunknown) ms' c' hrun'
  obtain ⟨⟨⟩, hcommits', -⟩ := hstored' () task' () hret'
  exact ⟨⟨c, created, task, hret, (hhanded () _ hret _ hcommits).1⟩,
    c', task', hret', (hhanded' () _ hret' hcommits').1⟩

/-- The client has got the task `t1`, which is submitted, and nothing was handed over. -/
def stuckSubmitted (c : (Unit → Prog ArchiveCall (Except Exc (Bool × Task) × Unit)) × Archive Unit) :
    Bool :=
  match c.1 () with
  | .ret (.ok (false, task), _) =>
    (c.2.row task.id).any (fun row => row.task.status.state == .submitted) &&
      (c.2.accounts task.id ()).handed.isEmpty
  | _ => false

/-- A blocking request is cancelled while it subscribes.  The client repeats it, and gets the task,
which is submitted, while nobody has handed an operation to the broker. -/
theorem retried_creation_stays_submitted :
    ∃ ms c task row, (newMessages ⟨1, 1, 60⟩ .memory fun _ _ _ _ => True).Run
        (blockingTwice .memory, Archive.vacant Unit) ms c ∧
      c.1 () = .ret (.ok (false, task), ()) ∧ c.2.row task.id = some row ∧
      row.task.status.state = .submitted ∧ (c.2.accounts task.id ()).handed = [] := by
  have hplay : ((newMessages ⟨1, 1, 60⟩ .memory fun _ _ _ _ => True).play (fun _ _ _ _ => true)
      (repeatingCues 1 2) (blockingTwice .memory, Archive.vacant Unit)).any stuckSubmitted = true := by
    decide +kernel
  have henv : ∀ f, Crew.Cue.env f ∈ repeatingCues 1 2 → ∀ a, Surroundings a (f a) := by
    intro f hf a
    obtain rfl | rfl : f = clientGone true ∨ f = clientGone false := by
      simpa [repeatingCues] using hf
    · exact surroundings_clientGone true a
    · exact surroundings_clientGone false a
  obtain ⟨ms, c, hrun, hstuck⟩ :=
    Crew.exists_run_of_check (fun _ _ _ _ _ => trivial) henv stuckSubmitted hplay
  rw [stuckSubmitted] at hstuck
  split at hstuck
  · rename_i task _ hret
    obtain ⟨hsubmitted, hnone⟩ := Bool.and_eq_true_iff.mp hstuck
    obtain ⟨row, hrow, hstate⟩ := (Option.any_eq_true _ _).mp hsubmitted
    exact ⟨ms, c, task, row, hrun, hret, hrow, eq_of_beq hstate, List.isEmpty_iff.mp hnone⟩
  · cases hstuck

end A2AKit
