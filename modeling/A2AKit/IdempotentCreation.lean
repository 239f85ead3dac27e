/-
Requests that create the same task.

Any number of requests carry no task id, and the same context and message id.  Whatever their
interleaving, on every storage, if none of them fails: they all return one task, one of them got
the marker from `create_task`, no stored or returned task has the marker, and the one background
task that is started calls the broker once (`creation_enqueues_once`).

The requests are those of `CreationRequests`, which end with the task that their context and key
find.  What is found is one task, and its `origin` is a request, since nothing was found at the
start.
-/
import A2AKit.CreationRequests

namespace A2AKit

open TaskManager

/-! ### The background task -/

/-- The operation is the call into the broker. -/
def Call.isRunTask {β : Type} : Call β → Bool
  | .inr .runTask => true
  | _ => false

/-- The program calls the broker first, and never again. -/
def CallsBrokerOnce (m : RequestM Unit) : Prop :=
  ∃ rest : Bool → RequestM Unit, m = (Act.perform (.inr .runTask) >>= rest) ∧
    ∀ raised, (rest raised).Only fun e => Call.isRunTask e = false

/-- What a request does to the task is no call into the broker. -/
theorem only_onTask {α : Type} (m : TaskM Unit α) :
    (onTask m).Only fun e => Call.isRunTask e = false :=
  Act.only_lift fun _ _ => rfl

theorem only_failSubmitted (k : StorageKind) (taskId : TaskId) :
    (failSubmitted k taskId).Only fun e => Call.isRunTask e = false := by
  refine Act.only_bind (only_onTask _) fun version => ?_
  refine Act.only_bind (only_onTask _) fun task => ?_
  rcases task with _ | task
  · exact Act.only_pure ()
  dsimp only
  split
  · exact Act.only_pure ()
  refine Act.only_bind (only_onTask _) fun uuid => ?_
  refine Act.only_bind (Act.only_tryCatch
    (Act.only_bind (only_onTask _) fun _ => Act.only_pure true) fun x => ?_) fun written => ?_
  · split
    · exact Act.only_pure false
    · exact Act.only_pure false
    · exact Act.only_throw _
  · split
    · refine Act.only_bind (only_onTask _) fun task => ?_
      rcases task with _ | task
      · exact Act.only_pure ()
      · exact only_onTask _
    · exact Act.only_pure ()

/-- `_enqueue_or_fail` calls `broker.run_task` once. -/
theorem enqueueOrFail_callsBrokerOnce (k : StorageKind) (taskId : TaskId) :
    CallsBrokerOnce (TaskManager.enqueueOrFail k taskId) := by
  refine ⟨_, rfl, fun raised => ?_⟩
  cases raised with
  | false => exact Act.only_pure ()
  | true =>
    refine Act.only_tryCatch (only_failSubmitted k taskId) fun x => ?_
    split
    · exact Act.only_pure ()
    · exact Act.only_throw x

/-! ### The requests -/

/-- Nothing fails: the client is there, and no storage call raises. -/
def unfailing {ι : Type} [DecidableEq ι] (cfg : BusConfig) (store : Store) (i : ι) :
    ArchiveCircumstances ι :=
  fun e a => a.raises cfg store i e = false

theorem forgiven_unfailing {ι : Type} [DecidableEq ι] (cfg : BusConfig) (store : Store) (i : ι) :
    Forgiven cfg store i (unfailing cfg store i) fun _ => False :=
  forgiven_of_raises fun _ _ hok hraises => nomatch hok.symm.trans hraises

section

variable {ι : Type} [DecidableEq ι] {cfg : BusConfig} {store : Store} {start a : Archive ι}
  {i j : ι} {t t' : TaskId} {message message' : Message} {created created' : Bool}

omit [DecidableEq ι] in
/-- What is found for the context and the key of a message. -/
theorem SentNew.found {books : TaskId → Account} (h : SentNew store start i books message created t a)
    (hctx : message.contextId ≠ "") (hkey : message.messageId ≠ "") :
    a.find store message.contextId message.messageId = some t := by
  obtain ⟨c, hc, hindex, -⟩ := h
  rw [← hc hctx]
  exact hindex.found _ (if_neg hkey)

omit [DecidableEq ι] in
/-- The account of a request that has answered. -/
theorem SentNew.account (h : SentNew store start i (fun _ => {}) message created t a) :
    (created = true → (a.accounts t i).commits ≠ 0 ∧ (a.accounts t i).handed.length = 1) ∧
      (created = false → ∀ s, a.accounts s i = {}) := by
  obtain ⟨c, -, -, hrest⟩ := h
  refine ⟨fun hcreated => ?_, fun hcreated s => ?_⟩
  · subst hcreated
    obtain ⟨-, n, m, hhold⟩ := hrest
    have hbooks : a.accounts t i = { commits := n + 1, handed := [m] } :=
      (congrFun hhold.books t).trans (Function.update_self ..)
    rw [hbooks]
    exact ⟨Nat.succ_ne_zero n, rfl⟩
  · subst hcreated
    exact congrFun (Holding.books hrest) s

end

/-- Request `i` has returned the task `t`, with or without the marker. -/
def Returned {ι : Type} (p : ι → Prog ArchiveCall (Except Exc (Bool × Task) × Unit)) (i : ι)
    (created : Bool) (t : TaskId) : Prop :=
  ∃ task, p i = .ret (.ok (created, task), ()) ∧ task.id = t

/-- **Requests with one context and message id create one task, and enqueue it once.**  In every
interleaving of any number of them, on every storage, if none of them fails:

* a request that has ended returned a task, without the marker;
* no stored task has the marker;
* all requests return the same task;
* at most one of them got the marker from `create_task`;
* on every task at most one request has started a background task, and it has started one;
* when all have ended, exactly one got the marker; it has started one background task for the
  task that all have returned, and the others have started none;
* a background task calls the broker once. -/
theorem creation_enqueues_once {ι : Type} [DecidableEq ι] (cfg : BusConfig) (store : Store)
    (params : ι → SendParams) (contextId : ContextId) (messageId : String)
    (hcontext : contextId ≠ "") (hmessage : messageId ≠ "")
    (hctx : ∀ i, (params i).message.contextId = contextId)
    (hkey : ∀ i, (params i).message.messageId = messageId)
    (start : Archive ι) (hstart : start.Opening store)
    (hnew : start.find store contextId messageId = none)
    {ms : List (PoolMove ι (Archive ι))}
    {c : (ι → Prog ArchiveCall (Except Exc (Bool × Task) × Unit)) × Archive ι}
    (hrun : (newMessages cfg store (unfailing cfg store)).Run
      (fun i => sendNew store (params i) (), start) ms c) :
    (∀ i r, c.1 i = .ret r → ∃ created task, r.1 = .ok (created, task) ∧
      task.justCreated = false) ∧
    (∀ t row, c.2.row t = some row → row.task.justCreated = false) ∧
    (∀ i j b b' t t', Returned c.1 i b t → Returned c.1 j b' t' → t = t') ∧
    (∀ i j t t', Returned c.1 i true t → Returned c.1 j true t' → i = j) ∧
    (∀ t i, (c.2.accounts t i).handed.length ≤ 1 ∧
      ∀ j, (c.2.accounts t i).handed ≠ [] → (c.2.accounts t j).handed ≠ [] → i = j) ∧
    (Nonempty ι → (∀ i, ∃ r, c.1 i = .ret r) →
      ∃ t i, Returned c.1 i true t ∧ (∀ j, j ≠ i → Returned c.1 j false t) ∧
        (c.2.accounts t i).handed.length = 1 ∧
        ∀ j, j ≠ i → ∀ s, (c.2.accounts s j).handed = []) ∧
    ∀ t, CallsBrokerOnce (TaskManager.enqueueOrFail store.kind t) := by
  obtain ⟨hinv, hend⟩ := newMessages_sound params hstart
    (fun i => forgiven_unfailing cfg store i) hrun
  -- every request that has ended has sent its message
  have hok : ∀ i r, c.1 i = .ret r → ∃ created task, r = (.ok (created, task), ()) ∧
      SentNew store start i (fun _ => {}) (params i).message created task.id c.2 ∧
      task.justCreated = false := by
    rintro i ⟨r, u⟩ hr
    have hi := hend i _ hr
    cases r with
    | ok r => exact ⟨r.1, r.2, rfl, hi⟩
    | error x => exact hi.choose_spec.2.elim
  have hsent : ∀ i b t, Returned c.1 i b t →
      SentNew store start i (fun _ => {}) (params i).message b t c.2 := by
    rintro i b t ⟨task, hr, rfl⟩
    obtain ⟨b', task', heq, hs, -⟩ := hok i _ hr
    obtain ⟨rfl, rfl⟩ := Prod.mk.inj (Except.ok.inj (Prod.mk.inj heq).1)
    exact hs
  have hfound : ∀ i b t, Returned c.1 i b t → c.2.find store contextId messageId = some t := by
    intro i b t hr
    have hf := (hsent i b t hr).found (by rw [hctx]; exact hcontext) (by rw [hkey]; exact hmessage)
    rwa [hctx, hkey] at hf
  have hsame : ∀ i j b b' t t', Returned c.1 i b t → Returned c.1 j b' t' → t = t' := by
    intro i j b b' t t' hi hj
    exact Option.some_inj.mp ((hfound i b t hi).symm.trans (hfound j b' t' hj))
  have hone : ∀ i j t t', Returned c.1 i true t → Returned c.1 j true t' → i = j := by
    intro i j t t' hi hj
    obtain rfl := hsame i j _ _ t t' hi hj
    exact hinv.unique t i j ((hsent i _ t hi).account.1 rfl).1 ((hsent j _ t hj).account.1 rfl).1
  refine ⟨fun i r hr => ?_, fun t row hrow => (hinv.unmarked hrow).2, hsame, hone,
    fun t i => ⟨(hinv.account t i).1, fun j hi hj => ?_⟩, ?_,
    enqueueOrFail_callsBrokerOnce store.kind⟩
  · obtain ⟨created, task, rfl, -, hmark⟩ := hok i r hr
    exact ⟨created, task, rfl, hmark⟩
  · exact hinv.unique t i j ((hinv.account t i).2 hi) ((hinv.account t j).2 hj)
  · rintro ⟨i₀⟩ hall
    have hreturned : ∀ i, ∃ b t, Returned c.1 i b t := by
      intro i
      obtain ⟨r, hr⟩ := hall i
      obtain ⟨b, task, rfl, -, -⟩ := hok i r hr
      exact ⟨b, task.id, task, hr, rfl⟩
    obtain ⟨b₀, t, h₀⟩ := hreturned i₀
    -- nothing was found at the start, so a request has stored the task
    obtain ⟨i, hi⟩ : ∃ i, (c.2.accounts t i).commits ≠ 0 := by
      rcases hinv.origin _ _ _ (hfound i₀ b₀ t h₀) with hold | hstored
      · exact nomatch hnew.symm.trans hold
      · exact hstored
    obtain ⟨b, t', hr⟩ := hreturned i
    obtain rfl := hsame i₀ i _ _ t t' h₀ hr
    have hcreated : b = true := by
      by_contra hb
      have hnothing := (hsent i b t hr).account.2 (Bool.eq_false_of_not_eq_true hb) t
      rw [hnothing] at hi
      exact hi rfl
    subst hcreated
    -- the others have got the same task, and did nothing to any
    have hother : ∀ j, j ≠ i → Returned c.1 j false t := by
      intro j hj
      obtain ⟨b', t', hr'⟩ := hreturned j
      obtain rfl := hsame i j _ _ t t' hr hr'
      cases b' with
      | false => exact hr'
      | true => exact absurd (hone j i _ _ hr' hr) hj
    refine ⟨t, i, hr, hother, ((hsent i true t hr).account.1 rfl).2, fun j hj s => ?_⟩
    rw [(hsent j false t (hother j hj)).account.2 rfl s]

/-! ### Two requests -/

/-- Nothing is stored. -/
def World.vacant : World where
  row := none
  heap := fun _ => { artifactId := "", parts := [] }
  next := 0
  ambient := { now := "", monotonic := 0, uuid := "" }

def Archive.vacant (ι : Type) : Archive ι where
  offices := fun _ => { world := World.vacant }
  ambient := { now := "", monotonic := 0, uuid := "t1" }

theorem opening_vacant (ι : Type) (store : Store) : (Archive.vacant ι).Opening store where
  listed _ _ hrow := nomatch hrow
  proper _ _ hrow := nomatch hrow
  there _ _ _ hfind := by
    cases store <;> exact nomatch hfind
  unused _ _ := rfl
  sessions := rfl
  drawn := rfl

/-- A message without a task id. -/
def openingMessage : Message :=
  { role := .user, messageId := "m1", contextId := "c", taskId := "", parts := [] }

/-- `uuid4` will answer with another id. -/
def drawing {ι : Type} (uuid : String) (a : Archive ι) : Archive ι :=
  { a with ambient := { a.ambient with uuid } }

theorem surroundings_drawing {ι : Type} (uuid : String) (a : Archive ι) :
    Surroundings a (drawing uuid a) :=
  ⟨fun _ => sameTask_refl _, rfl, rfl, rfl, rfl, rfl⟩

/-- Both requests have drawn their ids before the first one commits; the second one inserts, and
reads back what was committed, before the first one goes on. -/
def overtakingCues : List (Crew.Cue Bool (Archive Bool)) :=
  [Crew.Cue.program true, .env (drawing "t2"), .program false, .program false] ++
    List.replicate 6 (Crew.Cue.program true) ++ List.replicate 8 (Crew.Cue.program false) ++
    List.replicate 5 (Crew.Cue.program true)

/-- Both requests have ended. -/
def bothEnded (c : (Bool → Prog ArchiveCall (Except Exc (Bool × Task) × Unit)) × Archive Bool) :
    Bool :=
  match c.1 true, c.1 false with
  | .ret _, .ret _ => true
  | _, _ => false

theorem twins_create_one_task :
    ∃ ms c t i, (newMessages ⟨1, 1, 60⟩ .sqlite (unfailing ⟨1, 1, 60⟩ .sqlite)).Run
        (fun _ : Bool => sendNew .sqlite { message := openingMessage, mode := .returnImmediately } (),
          Archive.vacant Bool) ms c ∧
      Returned c.1 i true t ∧ (∀ j, j ≠ i → Returned c.1 j false t) ∧
      (c.2.accounts t i).handed.length = 1 ∧
      ∀ j, j ≠ i → ∀ s, (c.2.accounts s j).handed = [] := by
  have hplay : ((newMessages ⟨1, 1, 60⟩ .sqlite (unfailing ⟨1, 1, 60⟩ .sqlite)).play
      (fun i _ e a => !a.raises ⟨1, 1, 60⟩ .sqlite i e) overtakingCues
      (fun _ : Bool => sendNew .sqlite { message := openingMessage, mode := .returnImmediately } (),
        Archive.vacant Bool)).any bothEnded = true := by
    decide +kernel
  have henv : ∀ f, Crew.Cue.env f ∈ overtakingCues → ∀ a, Surroundings a (f a) := by
    intro f hf a
    obtain rfl : f = drawing "t2" := by simpa [overtakingCues] using hf
    exact surroundings_drawing "t2" a
  obtain ⟨ms, c, hrun, hended⟩ :=
    Crew.exists_run_of_check (fun _ _ _ _ hok => by simpa [newMessages, unfailing] using hok)
      henv bothEnded hplay
  obtain ⟨-, -, -, -, -, hall, -⟩ := creation_enqueues_once ⟨1, 1, 60⟩ .sqlite
    (fun _ => { message := openingMessage, mode := .returnImmediately }) "c" "m1" (by decide)
    (by decide) (fun _ => rfl) (fun _ => rfl) (Archive.vacant Bool) (opening_vacant Bool .sqlite)
    rfl hrun
  have hret : ∀ i, ∃ r, c.1 i = .ret r := by
    rw [bothEnded] at hended
    split at hended
    · rename_i htrue hfalse
      intro i
      cases i with
      | true => exact ⟨_, htrue⟩
      | false => exact ⟨_, hfalse⟩
    · cases hended
  obtain ⟨t, i, hcreated, hothers, hhanded, hnone⟩ := hall ⟨true⟩ hret
  exact ⟨ms, c, t, i, hrun, hcreated, hothers, hhanded, hnone⟩

end A2AKit
