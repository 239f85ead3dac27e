/-
The requests of the webhook service.

Every pair of a task and a configuration has its queue and its worker, and a worker hands one
snapshot after the other to `_deliver_single`, which resolves the URL and posts until an answer is
final: at most `max_retries` times, with growing delays between the attempts, and each time holding
one of the permits that all workers share.

* `Kept.step` — what each step does to the events of a queue and to the permits;
* `service_kept` — over every run: the events of each queue are its snapshots one after the other,
  each with its attempts, no more requests are under way than there are permits, and nothing hangs.
-/
import A2AKit.Semaphore
import A2AKit.WebhookQueue
import Mathlib.Algebra.Group.Nat.Defs

namespace A2AKit

structure PostingConfig where
  maxRetries : Nat := 3
  retryBaseDelay : Nat := 1
  maxConcurrentDeliveries : Nat := 50
  maxQueueSize : Nat := 100

/-- What `resolve_webhook_url` comes to. -/
inductive Resolution
  | pinned
  | rejected
  | raised
  deriving DecidableEq, Repr

/-- How a request ends: with a status, with an `httpx.RequestError` or with another exception. -/
inductive PostAnswer
  | status (code : Nat)
  | requestError
  | raised
  deriving DecidableEq, Repr

inductive PostOutcome
  | rejectedUrl
  | delivered
  | refused
  | exhausted
  | raised
  deriving DecidableEq, Repr

/-- Where `_deliver_single` is. -/
inductive PostPhase
  | resolving
  | waiting (attempt : Nat)
  | posting (attempt : Nat)
  | sleeping (attempt : Nat) (wake : Nat)
  | returned
  deriving DecidableEq, Repr

/-- A worker of a queue. -/
structure WorkerSlot (K : Type) where
  key : K
  worker : Nat
  deriving DecidableEq, Repr

structure PushService (K C S : Type) where
  now : Nat := 0
  lanes : K → Lane C S := fun _ => {}
  posts : WorkerSlot K → Option PostPhase := fun _ => none
  semaphore : Semaphore (WorkerSlot K)

inductive PostEvent (C S : Type)
  | begun (config : C) (task : S)
  | sent (attempt : Nat) (now : Nat)
  | answered (attempt : Nat) (answer : PostAnswer) (now : Nat)
  | ended (outcome : PostOutcome)
  deriving DecidableEq, Repr

inductive ServiceAction (K C S : Type)
  | deliver (key : K) (config : C) (task : S)
  | work (key : K) (worker : Nat) (move : WorkerMove)
  | resolve (key : K) (worker : Nat) (resolved : Resolution)
  | resume (key : K) (worker : Nat)
  | answer (key : K) (worker : Nat) (answer : PostAnswer)
  | wake (key : K) (worker : Nat)
  | tick (d : Nat)
  deriving DecidableEq, Repr

def ServiceAction.key? {K C S : Type} : ServiceAction K C S → Option K
  | .deliver k _ _ | .work k _ _ | .resolve k _ _ | .resume k _ | .answer k _ _ | .wake k _ => some k
  | .tick _ => none

/-- The answers after which `_deliver_single` returns at once. -/
def PostAnswer.final? : PostAnswer → Option PostOutcome
  | .status code =>
    if 200 ≤ code ∧ code < 300 then some .delivered else if code < 500 then some .refused else none
  | .requestError => none
  | .raised => some .raised

namespace PushService

variable {K C S : Type} [DecidableEq K]

def setPost (s : PushService K C S) (slot : WorkerSlot K) (phase : Option PostPhase) : PushService K C S :=
  { s with posts := Function.update s.posts slot phase }

def setLane (s : PushService K C S) (k : K) (l : Lane C S) : PushService K C S :=
  { s with lanes := Function.update s.lanes k l }

/-- The next round of the loop over the attempts, up to the request. -/
def attempt (cfg : PostingConfig) (s : PushService K C S) (slot : WorkerSlot K) (n : Nat) :
    PushService K C S × List (PostEvent C S) :=
  if n ≤ cfg.maxRetries then
    let s' := { s with semaphore := s.semaphore.acquire slot }
    if s.semaphore.locked then (s'.setPost slot (some (.waiting n)), [])
    else (s'.setPost slot (some (.posting n)), [.sent n s.now])
  else (s.setPost slot (some .returned), [.ended .exhausted])

/-- From the answer to the end of the round. -/
def answered (cfg : PostingConfig) (s : PushService K C S) (slot : WorkerSlot K) (n : Nat)
    (answer : PostAnswer) : PushService K C S × List (PostEvent C S) :=
  let s' := { s with semaphore := s.semaphore.release slot }
  match answer.final? with
  | some outcome =>
    (s'.setPost slot (some .returned), [.answered n answer s.now, .ended outcome])
  | none =>
    if n < cfg.maxRetries then
      (s'.setPost slot (some (.sleeping n (s.now + cfg.retryBaseDelay * 2 ^ (n - 1)))),
        [.answered n answer s.now])
    else (s'.setPost slot (some .returned), [.answered n answer s.now, .ended .exhausted])

/-- The start of `_deliver_single` for what was handed over last. -/
def begins (l : Lane C S) : List (PostEvent C S) :=
  (l.handed.getLast?.map fun p => .begun p.1 p.2).toList

def step (cfg : PostingConfig) (ended : S → Bool) (s : PushService K C S) :
    ServiceAction K C S → Option (PushService K C S × List (PostEvent C S))
  | .deliver k config task =>
    ((s.lanes k).step cfg.maxQueueSize ended (.deliver config task)).map fun r => (s.setLane k r.1, [])
  | .work k i move =>
    ((s.lanes k).step cfg.maxQueueSize ended (.work i move)).bind fun r =>
      match move with
      | .handOver => some ((s.setLane k r.1).setPost ⟨k, i⟩ (some .resolving), begins r.1)
      | .posted =>
        if s.posts ⟨k, i⟩ = some .returned then some ((s.setLane k r.1).setPost ⟨k, i⟩ none, [])
        else none
      | _ => some (s.setLane k r.1, [])
  | .resolve k i resolved =>
    match s.posts ⟨k, i⟩ with
    | some .resolving =>
      match resolved with
      | .pinned => some (s.attempt cfg ⟨k, i⟩ 1)
      | .rejected => some (s.setPost ⟨k, i⟩ (some .returned), [.ended .rejectedUrl])
      | .raised => some (s.setPost ⟨k, i⟩ (some .returned), [.ended .raised])
    | _ => none
  | .resume k i =>
    match s.posts ⟨k, i⟩ with
    | some (.waiting n) =>
      if ⟨k, i⟩ ∈ s.semaphore.woken then
        some ({ s with semaphore := s.semaphore.resume ⟨k, i⟩ }.setPost ⟨k, i⟩ (some (.posting n)),
          [.sent n s.now])
      else none
    | _ => none
  | .answer k i answer =>
    match s.posts ⟨k, i⟩ with
    | some (.posting n) => some (s.answered cfg ⟨k, i⟩ n answer)
    | _ => none
  | .wake k i =>
    match s.posts ⟨k, i⟩ with
    | some (.sleeping n wake) => if wake ≤ s.now then some (s.attempt cfg ⟨k, i⟩ (n + 1)) else none
    | _ => none
  | .tick d => some ({ s with now := s.now + d }, [])

def init (cfg : PostingConfig) : PushService K C S :=
  { semaphore := { value := cfg.maxConcurrentDeliveries } }

/-- The events of one queue. -/
def eventsOf (k : K) (tr : List (ServiceAction K C S × List (PostEvent C S))) : List (PostEvent C S) :=
  tr.flatMap fun q => if q.1.key? = some k then q.2 else []

end PushService

/-! ### What `_deliver_single` does -/

variable {K C S : Type} {cfg : PostingConfig} {n now now' wake : Nat} {l : List (PostEvent C S)}
  {outcome : PostOutcome} {phase : PostPhase}

/-- The events of `n` attempts that failed, and when the delay behind them is over. -/
inductive Failing (cfg : PostingConfig) : Nat → Nat → List (PostEvent C S) → Prop
  | none : Failing cfg 0 0 []
  | more {n wake t t' : Nat} {l : List (PostEvent C S)} {answer : PostAnswer} :
    Failing cfg n wake l → n < cfg.maxRetries → wake ≤ t → t ≤ t' → answer.final? = none →
    Failing cfg (n + 1) (t' + cfg.retryBaseDelay * 2 ^ n)
      (l ++ [.sent (n + 1) t, .answered (n + 1) answer t'])

/-- The events of a call that has returned. -/
inductive Posted (cfg : PostingConfig) : PostOutcome → List (PostEvent C S) → Prop
  | rejectedUrl : Posted cfg .rejectedUrl []
  | unresolved : Posted cfg .raised []
  | final {n wake t t' : Nat} {l : List (PostEvent C S)} {answer : PostAnswer} {outcome : PostOutcome} :
    Failing cfg n wake l → n < cfg.maxRetries → wake ≤ t → t ≤ t' →
    answer.final? = some outcome →
    Posted cfg outcome (l ++ [.sent (n + 1) t, .answered (n + 1) answer t'])
  | exhausted {wake : Nat} {l : List (PostEvent C S)} : Failing cfg cfg.maxRetries wake l →
    Posted cfg .exhausted l

/-- The events of a call so far. -/
inductive Underway (cfg : PostingConfig) (now : Nat) : PostPhase → List (PostEvent C S) → Prop
  | resolving : Underway cfg now .resolving []
  | waiting {n wake : Nat} {l : List (PostEvent C S)} : Failing cfg n wake l → n < cfg.maxRetries →
    wake ≤ now → Underway cfg now (.waiting (n + 1)) l
  | posting {n wake t : Nat} {l : List (PostEvent C S)} : Failing cfg n wake l → n < cfg.maxRetries →
    wake ≤ t → t ≤ now → Underway cfg now (.posting (n + 1)) (l ++ [.sent (n + 1) t])
  | sleeping {n wake : Nat} {l : List (PostEvent C S)} : Failing cfg (n + 1) wake l →
    n + 1 < cfg.maxRetries → Underway cfg now (.sleeping (n + 1) wake) l
  | returned {outcome : PostOutcome} {l : List (PostEvent C S)} : Posted cfg outcome l →
    Underway cfg now .returned (l ++ [.ended outcome])

/-- The events of calls one after the other. -/
inductive Calls (cfg : PostingConfig) : List (C × S) → List (PostEvent C S) → Prop
  | none : Calls cfg [] []
  | snoc {calls : List (C × S)} {l body : List (PostEvent C S)} {config : C} {task : S}
    {outcome : PostOutcome} : Calls cfg calls l → Posted cfg outcome body →
    Calls cfg (calls ++ [(config, task)]) (l ++ (.begun config task :: (body ++ [.ended outcome])))

theorem Underway.mono (h : Underway cfg now phase l) (hnow : now ≤ now') :
    Underway cfg now' phase l := by
  cases h with
  | resolving => exact .resolving
  | waiting hfailing hn hwake => exact .waiting hfailing hn (Nat.le_trans hwake hnow)
  | posting hfailing hn hwake ht => exact .posting hfailing hn hwake (Nat.le_trans ht hnow)
  | sleeping hfailing hn => exact .sleeping hfailing hn
  | returned hdelivery => exact .returned hdelivery

namespace PushService

variable [DecidableEq K] {s s' : PushService K C S} {slot : WorkerSlot K} {events : List (PostEvent C S)}

/-! ### One queue -/

variable {k k' : K} {i j : Nat} {lane : Lane C S} {l' : List (PostEvent C S)}

/-- A worker of the queue waits for `_deliver_single`. -/
def PostingAt (lane : Lane C S) (i : Nat) : Prop :=
  ∃ w item, lane.workers[i]? = some w ∧ w.phase = .posting item

/-- The events of a queue: its calls, of which the last one may be under way. -/
inductive Trailed (cfg : PostingConfig) (s : PushService K C S) (k : K) : List (PostEvent C S) → Prop
  | idle {l : List (PostEvent C S)} : (∀ i, s.posts ⟨k, i⟩ = none) →
    Calls cfg (s.lanes k).handed l → Trailed cfg s k l
  | busy {i : Nat} {phase : PostPhase} {calls : List (C × S)} {l body : List (PostEvent C S)}
    {config : C} {task : S} : s.posts ⟨k, i⟩ = some phase → (∀ j, j ≠ i → s.posts ⟨k, j⟩ = none) →
    (s.lanes k).handed = calls ++ [(config, task)] → Calls cfg calls l →
    Underway cfg s.now phase body → Trailed cfg s k (l ++ .begun config task :: body)

omit [DecidableEq K] in
/-- Nothing has happened to the queue. -/
theorem Trailed.same (h : Trailed cfg s k l) (hposts : ∀ i, s'.posts ⟨k, i⟩ = s.posts ⟨k, i⟩)
    (hhanded : (s'.lanes k).handed = (s.lanes k).handed) (hnow : s.now ≤ s'.now) :
    Trailed cfg s' k l := by
  cases h with
  | idle hnone hcalls =>
    exact .idle (fun i => (hposts i).trans (hnone i)) (by rw [hhanded]; exact hcalls)
  | @busy i _ _ _ _ _ _ hpost hothers hlast hcalls hunder =>
    exact .busy ((hposts i).trans hpost) (fun j hj => (hposts j).trans (hothers j hj))
      (hhanded.trans hlast) hcalls (hunder.mono hnow)

/-- A call goes on. -/
theorem Trailed.goOn (h : Trailed cfg s k l) {phase' : PostPhase} (hpost : s.posts ⟨k, i⟩ = some phase)
    (hposts : s'.posts = Function.update s.posts ⟨k, i⟩ (some phase'))
    (hunder : ∀ body, Underway cfg s.now phase body → Underway cfg s.now phase' (body ++ events))
    (hnow : s'.now = s.now) (hlanes : s'.lanes = s.lanes) : Trailed cfg s' k (l ++ events) := by
  cases h with
  | idle hnone hcalls => exact nomatch (hnone i).symm.trans hpost
  | @busy i₀ phase₀ calls l body config task hpost₀ hothers hlast hcalls hunder₀ =>
    obtain rfl : i = i₀ := by
      by_contra hne
      exact nomatch (hothers i hne).symm.trans hpost
    obtain rfl := Option.some_inj.mp (hpost.symm.trans hpost₀)
    rw [List.append_assoc, List.cons_append]
    have hpost' : s'.posts ⟨k, i⟩ = some phase' := by rw [hposts, Function.update_self]
    refine .busy hpost' (fun j hj => ?_) ?_ hcalls ?_
    · rw [hposts, Function.update_of_ne (fun heq => hj (WorkerSlot.mk.inj heq).2)]
      exact hothers j hj
    · rw [hlanes]
      exact hlast
    · rw [hnow]
      exact hunder body hunder₀

/-- The worker hands a snapshot over. -/
theorem Trailed.begin (h : Trailed cfg s k l) (hnone : ∀ i, s.posts ⟨k, i⟩ = none) {config : C}
    {task : S} (hposts : s'.posts = Function.update s.posts ⟨k, i⟩ (some .resolving))
    (hhanded : (s'.lanes k).handed = (s.lanes k).handed ++ [(config, task)]) :
    Trailed cfg s' k (l ++ [.begun config task]) := by
  cases h with
  | idle _ hcalls =>
    have hpost' : s'.posts ⟨k, i⟩ = some .resolving := by rw [hposts, Function.update_self]
    refine .busy hpost' (fun j hj => ?_) hhanded hcalls .resolving
    rw [hposts, Function.update_of_ne (fun heq => hj (WorkerSlot.mk.inj heq).2)]
    exact hnone j
  | @busy i₀ _ _ _ _ _ _ hpost => exact nomatch (hnone i₀).symm.trans hpost

/-- The worker comes back from `_deliver_single`. -/
theorem Trailed.finish (h : Trailed cfg s k l) (hpost : s.posts ⟨k, i⟩ = some .returned)
    (hposts : s'.posts = Function.update s.posts ⟨k, i⟩ none)
    (hhanded : (s'.lanes k).handed = (s.lanes k).handed) : Trailed cfg s' k l := by
  cases h with
  | idle hnone hcalls => exact nomatch (hnone i).symm.trans hpost
  | @busy i₀ phase₀ calls l body config task hpost₀ hothers hlast hcalls hunder =>
    obtain rfl : i = i₀ := by
      by_contra hne
      exact nomatch (hothers i hne).symm.trans hpost
    obtain rfl := Option.some_inj.mp (hpost.symm.trans hpost₀)
    obtain _ | _ | _ | _ | hdelivery := hunder
    refine .idle (fun j => ?_) ?_
    · by_cases hj : j = i
      · rw [hposts, hj, Function.update_self]
      · rw [hposts, Function.update_of_ne (fun heq => hj (WorkerSlot.mk.inj heq).2)]
        exact hothers j hj
    · rw [hhanded, hlast]
      exact .snoc hcalls hdelivery

/-! ### One lane -/

section

variable {lane' : Lane C S} {w w' : QueueWorker C S} {maxsize : Nat} {ended : S → Bool}
  {move : WorkerMove} {o : LaneOutcome}

theorem postingAt_set (hw : lane.workers[i]? = some w) (hworkers : lane'.workers = lane.workers.set i w') :
    PostingAt lane' j ↔ (j = i ∧ ∃ item, w'.phase = .posting item) ∨ (j ≠ i ∧ PostingAt lane j) := by
  unfold PostingAt
  rw [hworkers]
  constructor
  · rintro ⟨u, item, hu, hphase⟩
    rcases (Lane.workers_setWorker hw j u).mp hu with ⟨rfl, rfl⟩ | ⟨hne, hu⟩
    · exact Or.inl ⟨rfl, item, hphase⟩
    · exact Or.inr ⟨hne, u, item, hu, hphase⟩
  · rintro (⟨rfl, item, hphase⟩ | ⟨hne, u, item, hu, hphase⟩)
    · exact ⟨w', item, (Lane.workers_setWorker hw j w').mpr (Or.inl ⟨rfl, rfl⟩), hphase⟩
    · exact ⟨u, item, (Lane.workers_setWorker hw j u).mpr (Or.inr ⟨hne, hu⟩), hphase⟩

/-- A worker goes on, but neither to `_deliver_single` nor back from it. -/
theorem postingAt_quiet (hw : lane.workers[i]? = some w) (hworkers : lane'.workers = lane.workers.set i w')
    (hphase : (∃ item, w'.phase = .posting item) ↔ ∃ item, w.phase = .posting item) :
    PostingAt lane' j ↔ PostingAt lane j := by
  rw [postingAt_set hw hworkers]
  by_cases hj : j = i
  · subst hj
    rw [hphase]
    constructor
    · rintro (⟨-, item, hitem⟩ | ⟨hne, -⟩)
      · exact ⟨w, item, hw, hitem⟩
      · exact absurd rfl hne
    · rintro ⟨u, item, hu, hitem⟩
      obtain rfl := Option.some_inj.mp (hw.symm.trans hu)
      exact Or.inl ⟨rfl, item, hitem⟩
  · simp [hj]

theorem lane_deliver (hsound : lane.Sound maxsize) (config : C) (task : S)
    (hstep : lane.step maxsize ended (.deliver config task) = some (lane', o)) :
    lane'.handed = lane.handed ∧ ∀ j, PostingAt lane' j ↔ PostingAt lane j := by
  obtain ⟨-, hdelivered⟩ := hsound.deliver config task
  obtain ⟨i, w, hready⟩ := hsound.ready config
  obtain ⟨hlane, -⟩ := Prod.mk.inj (Option.some_inj.mp hstep)
  have hlane : lane' = (lane.deliver maxsize config task).1 := hlane.symm
  rw [hlane]
  refine ⟨hdelivered.handed, fun j => ?_⟩
  have hstart : PostingAt (if lane.workerGone then lane.startWorker config else lane) j ↔
      PostingAt lane j := by
    split
    · constructor
      · rintro ⟨u, item, hu, hphase⟩
        rcases Lane.startWorker_cases hu with rfl | hu
        · cases hphase
        · exact ⟨u, item, hu, hphase⟩
      · rintro ⟨u, item, hu, hphase⟩
        refine ⟨u, item, ?_, hphase⟩
        exact (List.getElem?_append_left (List.getElem?_eq_some_iff.mp hu).1).trans hu
    · exact Iff.rfl
  have hdeliver : lane.deliver maxsize config task = _ := Lane.Sound.enqueue hready task
  rw [← hstart, hdeliver]
  exact postingAt_quiet hready.worker rfl Iff.rfl

theorem lane_handOver (hstep : lane.step maxsize ended (.work i .handOver) = some (lane', o)) :
    (∃ config task, lane'.handed = lane.handed ++ [(config, task)]) ∧
      (∀ j, PostingAt lane' j ↔ j = i ∨ PostingAt lane j) ∧ ¬ PostingAt lane i ∧
      ∃ w, lane.workers[i]? = some w ∧ w.phase ≠ .done := by
  obtain ⟨w, hw, -, hworked⟩ := Lane.worked_of_step hstep
  cases hworked with
  | handOver item hphase =>
    refine ⟨⟨w.config, item, rfl⟩, fun j => ?_, ?_, w, hw, by rw [hphase]; exact nofun⟩
    · rw [postingAt_set hw rfl]
      by_cases hj : j = i <;> simp [hj]
    · rintro ⟨u, item', hu, hposting⟩
      obtain rfl := Option.some_inj.mp (hw.symm.trans hu)
      rw [hphase] at hposting
      cases hposting

theorem lane_posted (hstep : lane.step maxsize ended (.work i .posted) = some (lane', o)) :
    lane'.handed = lane.handed ∧ ∀ j, PostingAt lane' j ↔ j ≠ i ∧ PostingAt lane j := by
  obtain ⟨w, hw, -, hworked⟩ := Lane.worked_of_step hstep
  cases hworked with
  | posted item hphase =>
    refine ⟨rfl, fun j => ?_⟩
    rw [postingAt_set hw rfl]
    have hnot : ¬ ∃ item', (if w.queue.isEmpty && ended item then .done else .waiting :
        WorkerPhase S) = .posting item' := by
      rintro ⟨item', heq⟩
      split at heq <;> cases heq
    exact or_iff_right fun h => hnot h.2

theorem lane_quiet (hmove : move ≠ .handOver) (hmove' : move ≠ .posted)
    (hstep : lane.step maxsize ended (.work i move) = some (lane', o)) :
    lane'.handed = lane.handed ∧ ∀ j, PostingAt lane' j ↔ PostingAt lane j := by
  obtain ⟨w, hw, -, hworked⟩ := Lane.worked_of_step hstep
  have hnot : ∀ {phase : WorkerPhase S}, w.phase = phase → (∀ item, phase ≠ .posting item) →
      ¬ ∃ item, w.phase = .posting item := by
    rintro phase hphase hne ⟨item, heq⟩
    exact hne item (hphase.symm.trans heq)
  cases hworked with
  | take item rest hphase hqueue =>
    refine ⟨rfl, fun j => postingAt_quiet hw rfl (iff_of_false ?_ (hnot hphase nofun))⟩
    exact nofun
  | handOver => exact absurd rfl hmove
  | posted => exact absurd rfl hmove'
  | idleTimeout hphase =>
    refine ⟨rfl, fun j => postingAt_quiet hw rfl (iff_of_false ?_ (hnot hphase nofun))⟩
    rintro ⟨item, heq⟩
    split at heq <;> cases heq
  | callback hphase hcalled =>
    have hworkers : ((lane.setWorker i { w with calledBack := true }).cleanupQueue i).workers =
        lane.workers.set i { w with calledBack := true } := by
      unfold Lane.cleanupQueue
      split <;> rfl
    have hhanded : ((lane.setWorker i { w with calledBack := true }).cleanupQueue i).handed =
        lane.handed := by
      unfold Lane.cleanupQueue
      split <;> rfl
    exact ⟨hhanded, fun j => postingAt_quiet hw hworkers Iff.rfl⟩

end

/-! ### The permits -/

/-- The semaphore knows the phases of the calls. -/
structure Permits (cfg : PostingConfig) (sem : Semaphore (WorkerSlot K))
    (posts : WorkerSlot K → Option PostPhase) : Prop where
  fair : sem.Fair cfg.maxConcurrentDeliveries
  held : ∀ slot, slot ∈ sem.held ↔ ∃ n, posts slot = some (.posting n)
  queue : ∀ slot, slot ∈ sem.queue ↔ ∃ n, posts slot = some (.waiting n)

namespace Permits

variable {sem : Semaphore (WorkerSlot K)} {posts : WorkerSlot K → Option PostPhase} {phase' : Option PostPhase}

/-- The phase of a call takes part in what the semaphore knows. -/
def Takes (phase : Option PostPhase) : Prop :=
  (∃ n, phase = some (.posting n)) ∨ ∃ n, phase = some (.waiting n)

omit [DecidableEq K] in
theorem absent (h : Permits cfg sem posts) (hold : ¬ Takes (posts slot)) :
    slot ∉ sem.queue ++ sem.held := by
  intro hmem
  rcases List.mem_append.mp hmem with hmem | hmem
  · exact hold (Or.inr ((h.queue slot).mp hmem))
  · exact hold (Or.inl ((h.held slot).mp hmem))

theorem mem_update {P : Option PostPhase → Prop} {l l' : List (WorkerSlot K)}
    (h : ∀ slot, slot ∈ l ↔ P (posts slot)) (hself : slot ∈ l' ↔ P phase')
    (hother : ∀ slot', slot' ≠ slot → (slot' ∈ l' ↔ slot' ∈ l)) (slot' : WorkerSlot K) :
    slot' ∈ l' ↔ P (Function.update posts slot phase' slot') := by
  by_cases heq : slot' = slot
  · rw [heq, hself, Function.update_self]
  · rw [hother slot' heq, h, Function.update_of_ne heq]

theorem aside (h : Permits cfg sem posts) (hold : ¬ Takes (posts slot)) (hnew : ¬ Takes phase') :
    Permits cfg sem (Function.update posts slot phase') := by
  refine ⟨h.fair, mem_update (P := fun phase => ∃ n, phase = some (.posting n)) h.held ?_ fun _ _ => Iff.rfl,
    mem_update (P := fun phase => ∃ n, phase = some (.waiting n)) h.queue ?_ fun _ _ => Iff.rfl⟩
  · rw [h.held]
    exact iff_of_false (fun hmem => hold (Or.inl hmem)) fun hmem => hnew (Or.inl hmem)
  · rw [h.queue]
    exact iff_of_false (fun hmem => hold (Or.inr hmem)) fun hmem => hnew (Or.inr hmem)

theorem acquire (h : Permits cfg sem posts) (hold : ¬ Takes (posts slot)) :
    Permits cfg (sem.acquire slot) (Function.update posts slot
      (some (if sem.locked then .waiting n else .posting n))) := by
  have habsent := h.absent hold
  have hqueue : slot ∉ sem.queue := fun hmem => habsent (List.mem_append_left _ hmem)
  have hheld : slot ∉ sem.held := fun hmem => habsent (List.mem_append_right _ hmem)
  have hadded : ∀ l : List (WorkerSlot K), ∀ slot', slot' ≠ slot → (slot' ∈ l ++ [slot] ↔ slot' ∈ l) := by
    intro l slot' hne
    rw [List.mem_append, List.mem_singleton]
    exact or_iff_left hne
  refine ⟨h.fair.acquire habsent, mem_update (P := fun phase => ∃ n, phase = some (.posting n)) h.held ?_ ?_,
    mem_update (P := fun phase => ∃ n, phase = some (.waiting n)) h.queue ?_ ?_⟩
  all_goals cases hlocked : sem.locked
  · rw [(Semaphore.queue_acquire_free hlocked).2]
    exact iff_of_true (List.mem_append_right _ List.mem_cons_self) ⟨n, rfl⟩
  · rw [(Semaphore.queue_acquire_locked hlocked).2]
    exact iff_of_false hheld nofun
  · rw [(Semaphore.queue_acquire_free hlocked).2]
    exact hadded _
  · rw [(Semaphore.queue_acquire_locked hlocked).2]
    exact fun _ _ => Iff.rfl
  · rw [(Semaphore.queue_acquire_free hlocked).1]
    exact iff_of_false hqueue nofun
  · rw [(Semaphore.queue_acquire_locked hlocked).1]
    exact iff_of_true (List.mem_append_right _ List.mem_cons_self) ⟨n, rfl⟩
  · rw [(Semaphore.queue_acquire_free hlocked).1]
    exact fun _ _ => Iff.rfl
  · rw [(Semaphore.queue_acquire_locked hlocked).1]
    exact hadded _

theorem resume (h : Permits cfg sem posts) (hwoken : slot ∈ sem.woken) :
    Permits cfg (sem.resume slot) (Function.update posts slot (some (.posting n))) := by
  obtain ⟨hqueue, hheld⟩ := Semaphore.queue_resume hwoken
  have hnodup : sem.queue.Nodup := (List.nodup_append.mp h.fair.distinct).1
  refine ⟨h.fair.resume hwoken,
    mem_update (P := fun phase => ∃ n, phase = some (.posting n)) h.held ?_ fun slot' hne => ?_,
    mem_update (P := fun phase => ∃ n, phase = some (.waiting n)) h.queue ?_ fun slot' hne => ?_⟩
  · rw [hheld]
    exact iff_of_true (List.mem_append_right _ List.mem_cons_self) ⟨n, rfl⟩
  · rw [hheld, List.mem_append, List.mem_singleton]
    exact or_iff_left hne
  · rw [hqueue]
    exact iff_of_false hnodup.not_mem_erase nofun
  · rw [hqueue]
    exact List.mem_erase_of_ne hne

theorem release (h : Permits cfg sem posts) (hold : posts slot = some (.posting n))
    (hnew : ¬ Takes phase') :
    Permits cfg (sem.release slot) (Function.update posts slot phase') := by
  obtain ⟨hqueue, hheld⟩ := Semaphore.queue_release sem slot
  have hmem : slot ∈ sem.held := (h.held slot).mpr ⟨n, hold⟩
  obtain ⟨-, hnodup, hdisjoint⟩ := List.nodup_append.mp h.fair.distinct
  refine ⟨h.fair.release hmem,
    mem_update (P := fun phase => ∃ n, phase = some (.posting n)) h.held ?_ fun slot' hne => ?_,
    mem_update (P := fun phase => ∃ n, phase = some (.waiting n)) h.queue ?_ fun slot' hne => ?_⟩
  · rw [hheld]
    exact iff_of_false hnodup.not_mem_erase fun hposting => hnew (Or.inl hposting)
  · rw [hheld]
    exact List.mem_erase_of_ne hne
  · rw [hqueue]
    exact iff_of_false (fun hmem' => hdisjoint slot hmem' slot hmem rfl)
      fun hwaiting => hnew (Or.inr hwaiting)
  · rw [hqueue]

end Permits

/-! ### One call -/

/-- A call goes on from `phase`. -/
structure GoesOn (cfg : PostingConfig) (s : PushService K C S) (slot : WorkerSlot K) (phase : PostPhase)
    (events : List (PostEvent C S)) (s' : PushService K C S) : Prop where
  posts : ∃ phase', s'.posts = Function.update s.posts slot (some phase') ∧
    ∀ body, Underway cfg s.now phase body → Underway cfg s.now phase' (body ++ events)
  now : s'.now = s.now
  lanes : s'.lanes = s.lanes
  permits : Permits cfg s'.semaphore s'.posts

/-- The next round goes on with the events so far. -/
theorem attempt_goesOn (hpermits : Permits cfg s.semaphore s.posts)
    (hidle : ¬ Permits.Takes (s.posts slot))
    (hfailing : ∀ body : List (PostEvent C S), Underway cfg s.now phase body →
      ∃ wake, Failing cfg n wake body ∧ wake ≤ s.now ∧ n ≤ cfg.maxRetries)
    (h : s.attempt cfg slot (n + 1) = (s', events)) : GoesOn cfg s slot phase events s' := by
  unfold attempt at h
  split at h
  · rename_i hleft
    have hacquire := hpermits.acquire (n := n + 1) hidle
    dsimp only at h
    split at h
    · rename_i hlocked
      obtain ⟨rfl, rfl⟩ := Prod.mk.inj h
      rw [if_pos hlocked] at hacquire
      refine ⟨⟨_, rfl, fun body hbody => ?_⟩, rfl, rfl, hacquire⟩
      obtain ⟨wake, hfailing, hwake, -⟩ := hfailing body hbody
      rw [List.append_nil]
      exact .waiting hfailing hleft hwake
    · rename_i hfree
      obtain ⟨rfl, rfl⟩ := Prod.mk.inj h
      rw [if_neg hfree] at hacquire
      refine ⟨⟨_, rfl, fun body hbody => ?_⟩, rfl, rfl, hacquire⟩
      obtain ⟨wake, hfailing, hwake, -⟩ := hfailing body hbody
      exact .posting hfailing hleft hwake (Nat.le_refl _)
  · rename_i hnone
    obtain ⟨rfl, rfl⟩ := Prod.mk.inj h
    refine ⟨⟨_, rfl, fun body hbody => ?_⟩, rfl, rfl, hpermits.aside hidle (by simp [Permits.Takes])⟩
    obtain ⟨wake, hfailing, -, hn⟩ := hfailing body hbody
    obtain rfl : n = cfg.maxRetries := by omega
    exact .returned (.exhausted hfailing)

theorem answered_goesOn {answer : PostAnswer} (hpermits : Permits cfg s.semaphore s.posts)
    (hpost : s.posts slot = some (.posting n)) (h : s.answered cfg slot n answer = (s', events)) :
    GoesOn cfg s slot (.posting n) events s' := by
  have hrelease : ∀ phase', ¬ Permits.Takes (some phase') →
      Permits cfg (s.semaphore.release slot) (Function.update s.posts slot (some phase')) :=
    fun phase' hphase => hpermits.release hpost hphase
  unfold answered at h
  dsimp only at h
  split at h
  · rename_i outcome hfinal
    obtain ⟨rfl, rfl⟩ := Prod.mk.inj h
    refine ⟨⟨_, rfl, fun body hbody => ?_⟩, rfl, rfl, hrelease _ (by simp [Permits.Takes])⟩
    obtain _ | _ | ⟨hfailing, hn, hwake, ht⟩ := hbody
    have hreturned : Underway cfg s.now _ _ := .returned (.final hfailing hn hwake ht hfinal)
    simpa using hreturned
  · rename_i hfinal
    split at h
    · rename_i hleft
      obtain ⟨rfl, rfl⟩ := Prod.mk.inj h
      refine ⟨⟨_, rfl, fun body hbody => ?_⟩, rfl, rfl, hrelease _ (by simp [Permits.Takes])⟩
      obtain _ | _ | ⟨hfailing, hn, hwake, ht⟩ := hbody
      have hsleeping : Underway cfg s.now _ _ :=
        .sleeping (.more hfailing hn hwake ht hfinal) hleft
      simpa using hsleeping
    · rename_i hlast
      obtain ⟨rfl, rfl⟩ := Prod.mk.inj h
      refine ⟨⟨_, rfl, fun body hbody => ?_⟩, rfl, rfl, hrelease _ (by simp [Permits.Takes])⟩
      obtain _ | _ | ⟨hfailing, hn, hwake, ht⟩ := hbody
      rename_i n' wake t l
      have hmore := Failing.more hfailing hn hwake ht hfinal
      have hmax : n' + 1 = cfg.maxRetries := by omega
      rw [hmax] at hmore
      have hreturned : Underway cfg s.now _ _ := .returned (.exhausted hmore)
      simpa [hmax] using hreturned

/-! ### The service -/

/-- What every run keeps. -/
structure Kept (cfg : PostingConfig) (s : PushService K C S)
    (tr : List (ServiceAction K C S × List (PostEvent C S))) : Prop where
  lanes : ∀ k, (s.lanes k).Sound cfg.maxQueueSize
  posting : ∀ k i, (∃ phase, s.posts ⟨k, i⟩ = some phase) ↔ PostingAt (s.lanes k) i
  trails : ∀ k, Trailed cfg s k (eventsOf k tr)
  permits : Permits cfg s.semaphore s.posts

variable {tr : List (ServiceAction K C S × List (PostEvent C S))} {a : ServiceAction K C S}
  {ended : S → Bool}

theorem eventsOf_snoc (k : K) (tr : List (ServiceAction K C S × List (PostEvent C S)))
    (a : ServiceAction K C S) (events : List (PostEvent C S)) :
    eventsOf k (tr ++ [(a, events)]) = eventsOf k tr ++ if a.key? = some k then events else [] := by
  simp [eventsOf]

theorem kept_init : Kept cfg (init cfg : PushService K C S) [] where
  lanes _ := Lane.sound_empty
  posting _ _ := iff_of_false nofun nofun
  trails _ := .idle (fun _ => rfl) .none
  permits := ⟨Semaphore.fair_new, fun _ => iff_of_false List.not_mem_nil nofun,
    fun _ => iff_of_false List.not_mem_nil nofun⟩

theorem eventsOf_self (hkey : a.key? = some k) :
    eventsOf k (tr ++ [(a, events)]) = eventsOf k tr ++ events := by
  rw [eventsOf_snoc, if_pos hkey]

theorem eventsOf_other (hkey : a.key? ≠ some k) :
    eventsOf k (tr ++ [(a, events)]) = eventsOf k tr := by
  rw [eventsOf_snoc, if_neg hkey, List.append_nil]

namespace Kept

/-- A call goes on. -/
theorem call (h : Kept cfg s tr) (hkey : a.key? = some k) (hpost : s.posts ⟨k, i⟩ = some phase)
    (hgoes : GoesOn cfg s ⟨k, i⟩ phase events s') : Kept cfg s' (tr ++ [(a, events)]) := by
  obtain ⟨phase', hposts, hunder⟩ := hgoes.posts
  refine ⟨by rw [hgoes.lanes]; exact h.lanes, fun k' j => ?_, fun k' => ?_, hgoes.permits⟩
  · rw [hgoes.lanes, ← h.posting, hposts]
    by_cases heq : (⟨k', j⟩ : WorkerSlot K) = ⟨k, i⟩
    · rw [heq, Function.update_self, hpost]
      exact iff_of_true ⟨_, rfl⟩ ⟨_, rfl⟩
    · rw [Function.update_of_ne heq]
  · by_cases hk : k' = k
    · subst hk
      rw [eventsOf_self hkey]
      exact (h.trails k').goOn hpost hposts hunder hgoes.now hgoes.lanes
    · rw [eventsOf_other (fun heq => hk (Option.some_inj.mp (heq.symm.trans hkey)))]
      refine (h.trails k').same (fun j => ?_) (by rw [hgoes.lanes]) (Nat.le_of_eq hgoes.now.symm)
      rw [hposts, Function.update_of_ne (fun heq => hk (WorkerSlot.mk.inj heq).1)]

/-- Something happens to a lane. -/
theorem ofLane (h : Kept cfg s tr) (hkey : a.key? = some k) {lane' : Lane C S}
    (slots : WorkerSlot K → Option PostPhase) (hsound : lane'.Sound cfg.maxQueueSize)
    (hother : ∀ k' j, k' ≠ k → slots ⟨k', j⟩ = s.posts ⟨k', j⟩)
    (hposting : ∀ j, (∃ phase, slots ⟨k, j⟩ = some phase) ↔ PostingAt lane' j)
    (htrail : Trailed cfg { s.setLane k lane' with posts := slots } k (eventsOf k tr ++ events))
    (hpermits : Permits cfg s.semaphore slots) :
    Kept cfg { s.setLane k lane' with posts := slots } (tr ++ [(a, events)]) := by
  refine ⟨fun k' => ?_, fun k' j => ?_, fun k' => ?_, hpermits⟩
  · show (Function.update s.lanes k lane' k').Sound _
    by_cases hk : k' = k
    · rw [hk, Function.update_self]
      exact hsound
    · rw [Function.update_of_ne hk]
      exact h.lanes k'
  · show (∃ phase, slots ⟨k', j⟩ = some phase) ↔ PostingAt (Function.update s.lanes k lane' k') j
    by_cases hk : k' = k
    · rw [hk, Function.update_self]
      exact hposting j
    · rw [Function.update_of_ne hk, hother k' j hk]
      exact h.posting k' j
  · by_cases hk : k' = k
    · rw [hk, eventsOf_self hkey]
      exact htrail
    · rw [eventsOf_other (fun heq => hk (Option.some_inj.mp (heq.symm.trans hkey)))]
      refine (h.trails k').same (fun j => hother k' j hk) ?_ (Nat.le_refl _)
      show (Function.update s.lanes k lane' k').handed = _
      rw [Function.update_of_ne hk]

/-- A lane is left alone by the calls. -/
theorem laneQuiet (h : Kept cfg s tr) (hkey : a.key? = some k) {lane' : Lane C S}
    (hsound : lane'.Sound cfg.maxQueueSize) (hhanded : lane'.handed = (s.lanes k).handed)
    (hposting : ∀ j, PostingAt lane' j ↔ PostingAt (s.lanes k) j) :
    Kept cfg (s.setLane k lane') (tr ++ [(a, [])]) := by
  refine h.ofLane hkey s.posts hsound (fun _ _ _ => rfl) (fun j => ?_) ?_ h.permits
  · rw [hposting, h.posting]
  · rw [List.append_nil]
    refine (h.trails k).same (fun _ => rfl) ?_ (Nat.le_refl _)
    show (Function.update s.lanes k lane' k).handed = _
    rw [Function.update_self, hhanded]

/-- Only the worker in the table waits for `_deliver_single`. -/
theorem alone (h : Kept cfg s tr) (hi : ∃ w, (s.lanes k).workers[i]? = some w ∧ w.phase ≠ .done)
    (hj : PostingAt (s.lanes k) j) : j = i := by
  obtain ⟨w, hw, hphase⟩ := hi
  obtain ⟨u, item, hu, hposting⟩ := hj
  have hcur := (h.lanes k).alone i w hw hphase
  have hcur' := (h.lanes k).alone j u hu (by rw [hposting]; exact nofun)
  exact Option.some_inj.mp (hcur'.symm.trans hcur)

theorem handOver (h : Kept cfg s tr) {lane' : Lane C S} {o : LaneOutcome}
    (hstep : (s.lanes k).step cfg.maxQueueSize ended (.work i .handOver) = some (lane', o)) :
    Kept cfg ((s.setLane k lane').setPost ⟨k, i⟩ (some .resolving))
      (tr ++ [(.work k i .handOver, begins lane')]) := by
  obtain ⟨⟨config, task, hhanded⟩, hposting, hnot, hactive⟩ := lane_handOver hstep
  have hnone : ∀ j, s.posts ⟨k, j⟩ = none := by
    intro j
    by_contra hsome
    have hj : PostingAt (s.lanes k) j := (h.posting k j).mp (Option.ne_none_iff_exists'.mp hsome)
    exact hnot (h.alone hactive hj ▸ hj)
  have hbegins : begins lane' = [.begun config task] := by
    rw [begins, hhanded, List.getLast?_concat]
    rfl
  refine h.ofLane rfl (Function.update s.posts ⟨k, i⟩ (some .resolving))
    ((h.lanes k).step hstep).2 (fun k' j hk => ?_) (fun j => ?_) ?_
    (h.permits.aside (by simp [hnone, Permits.Takes]) (by simp [Permits.Takes]))
  · rw [Function.update_of_ne (fun heq => hk (WorkerSlot.mk.inj heq).1)]
  · rw [hposting]
    by_cases hj : j = i
    · rw [hj, Function.update_self]
      exact iff_of_true ⟨_, rfl⟩ (Or.inl rfl)
    · rw [Function.update_of_ne (fun heq => hj (WorkerSlot.mk.inj heq).2), h.posting]
      exact (or_iff_right hj).symm
  · rw [hbegins]
    refine (h.trails k).begin hnone rfl ?_
    show (Function.update s.lanes k lane' k).handed = _
    rw [Function.update_self, hhanded]

theorem posted (h : Kept cfg s tr) {lane' : Lane C S} {o : LaneOutcome}
    (hstep : (s.lanes k).step cfg.maxQueueSize ended (.work i .posted) = some (lane', o))
    (hpost : s.posts ⟨k, i⟩ = some .returned) :
    Kept cfg ((s.setLane k lane').setPost ⟨k, i⟩ none) (tr ++ [(.work k i .posted, [])]) := by
  obtain ⟨hhanded, hposting⟩ := lane_posted hstep
  refine h.ofLane rfl (Function.update s.posts ⟨k, i⟩ none)
    ((h.lanes k).step hstep).2 (fun k' j hk => ?_) (fun j => ?_) ?_
    (h.permits.aside (by simp [hpost, Permits.Takes]) (by simp [Permits.Takes]))
  · rw [Function.update_of_ne (fun heq => hk (WorkerSlot.mk.inj heq).1)]
  · rw [hposting]
    by_cases hj : j = i
    · rw [hj, Function.update_self]
      exact iff_of_false nofun fun hne => hne.1 rfl
    · rw [Function.update_of_ne (fun heq => hj (WorkerSlot.mk.inj heq).2), h.posting]
      exact (and_iff_right hj).symm
  · rw [List.append_nil]
    refine (h.trails k).finish hpost rfl ?_
    show (Function.update s.lanes k lane' k).handed = _
    rw [Function.update_self, hhanded]

theorem step (h : Kept cfg s tr) (hstep : s.step cfg ended a = some (s', events)) :
    Kept cfg s' (tr ++ [(a, events)]) := by
  cases a with
  | deliver k config task =>
    simp only [PushService.step] at hstep
    obtain ⟨r, hlane, heq⟩ := Option.map_eq_some_iff.mp hstep
    obtain ⟨rfl, rfl⟩ := Prod.mk.inj heq
    obtain ⟨hhanded, hposting⟩ := lane_deliver (h.lanes k) config task hlane
    exact h.laneQuiet rfl ((h.lanes k).step hlane).2 hhanded hposting
  | work k i move =>
    simp only [PushService.step] at hstep
    obtain ⟨r, hlane, hmove⟩ := Option.bind_eq_some_iff.mp hstep
    have hsound := ((h.lanes k).step hlane).2
    cases move with
    | handOver =>
      obtain ⟨rfl, rfl⟩ := Prod.mk.inj (Option.some_inj.mp hmove)
      exact h.handOver hlane
    | posted =>
      dsimp only at hmove
      split at hmove
      · rename_i hpost
        obtain ⟨rfl, rfl⟩ := Prod.mk.inj (Option.some_inj.mp hmove)
        exact h.posted hlane hpost
      · cases hmove
    | take | idleTimeout | callback =>
      obtain ⟨rfl, rfl⟩ := Prod.mk.inj (Option.some_inj.mp hmove)
      obtain ⟨hhanded, hposting⟩ := lane_quiet (by decide) (by decide) hlane
      exact h.laneQuiet rfl hsound hhanded hposting
  | resolve k i resolved =>
    simp only [PushService.step] at hstep
    split at hstep
    · rename_i hpost
      refine h.call rfl hpost ?_
      have hidle : ¬ Permits.Takes (s.posts ⟨k, i⟩) := by simp [hpost, Permits.Takes]
      cases resolved with
      | pinned =>
        refine attempt_goesOn (n := 0) h.permits hidle (fun body hbody => ?_)
          (Option.some_inj.mp hstep)
        cases hbody
        exact ⟨0, .none, Nat.zero_le _, Nat.zero_le _⟩
      | rejected =>
        obtain ⟨rfl, rfl⟩ := Prod.mk.inj (Option.some_inj.mp hstep)
        refine ⟨⟨_, rfl, fun body hbody => ?_⟩, rfl, rfl, h.permits.aside hidle (by simp [Permits.Takes])⟩
        cases hbody
        exact .returned .rejectedUrl
      | raised =>
        obtain ⟨rfl, rfl⟩ := Prod.mk.inj (Option.some_inj.mp hstep)
        refine ⟨⟨_, rfl, fun body hbody => ?_⟩, rfl, rfl, h.permits.aside hidle (by simp [Permits.Takes])⟩
        cases hbody
        exact .returned .unresolved
    · cases hstep
  | resume k i =>
    simp only [PushService.step] at hstep
    split at hstep
    · rename_i n hpost
      split at hstep
      · rename_i hwoken
        obtain ⟨rfl, rfl⟩ := Prod.mk.inj (Option.some_inj.mp hstep)
        refine h.call rfl hpost ⟨⟨_, rfl, fun body hbody => ?_⟩, rfl, rfl, h.permits.resume hwoken⟩
        obtain _ | ⟨hfailing, hn, hwake⟩ := hbody
        exact .posting hfailing hn hwake (Nat.le_refl _)
      · cases hstep
    · cases hstep
  | answer k i answer =>
    simp only [PushService.step] at hstep
    split at hstep
    · rename_i n hpost
      exact h.call rfl hpost (answered_goesOn h.permits hpost (Option.some_inj.mp hstep))
    · cases hstep
  | wake k i =>
    simp only [PushService.step] at hstep
    split at hstep
    · rename_i n wake hpost
      split at hstep
      · rename_i hdue
        have hidle : ¬ Permits.Takes (s.posts ⟨k, i⟩) := by simp [hpost, Permits.Takes]
        refine h.call rfl hpost (attempt_goesOn h.permits hidle (fun body hbody => ?_)
          (Option.some_inj.mp hstep))
        obtain _ | _ | _ | ⟨hfailing, hn⟩ := hbody
        exact ⟨wake, hfailing, hdue, Nat.le_of_lt hn⟩
      · cases hstep
    · cases hstep
  | tick d =>
    obtain ⟨rfl, rfl⟩ := Prod.mk.inj (Option.some_inj.mp hstep)
    refine ⟨h.lanes, h.posting, fun k => ?_, h.permits⟩
    rw [eventsOf_other (by simp [ServiceAction.key?])]
    exact (h.trails k).same (fun _ => rfl) rfl (Nat.le_add_right _ _)

end Kept

/-- The steps that a worker or its call takes. -/
def Internal : ServiceAction K C S → Prop
  | .work _ _ move => move = .take ∨ move = .handOver ∨ move = .posted
  | .resolve _ _ _ | .resume _ _ | .answer _ _ _ | .wake _ _ => True
  | _ => False

/-- No worker and no call can do anything, however long one waits. -/
def AtRest (cfg : PostingConfig) (ended : S → Bool) (s : PushService K C S) : Prop :=
  ∀ a d, Internal a → step cfg ended { s with now := s.now + d } a = none

omit [DecidableEq K] in
theorem Permits.length_le (h : Permits cfg s.semaphore s.posts) {slots : List (WorkerSlot K)}
    (hnodup : slots.Nodup) (hposting : ∀ slot ∈ slots, ∃ n, s.posts slot = some (.posting n)) :
    slots.length ≤ cfg.maxConcurrentDeliveries := by
  have hsub : slots ⊆ s.semaphore.held := fun slot hslot => (h.held slot).mpr (hposting slot hslot)
  have hlength : slots.length ≤ s.semaphore.held.length := (List.subperm_of_subset hnodup hsub).length_le
  have hpermits := h.fair.permits
  omega

/-- Nobody waits for a permit for ever. -/
theorem Kept.no_posts (h : Kept cfg s tr) (hpos : 0 < cfg.maxConcurrentDeliveries)
    (hrest : AtRest cfg ended s) (slot : WorkerSlot K) : s.posts slot = none := by
  obtain ⟨k, i⟩ := slot
  have hposting : ∀ slot n, s.posts slot ≠ some (.posting n) := by
    rintro ⟨k, i⟩ n hpost
    have hnone := hrest (.answer k i .raised) 0 trivial
    simp [PushService.step, hpost] at hnone
  have hwaiting : ∀ slot n, s.posts slot ≠ some (.waiting n) := by
    intro slot n hpost
    have hwoken : s.semaphore.woken = [] := by
      refine List.eq_nil_iff_forall_not_mem.mpr fun slot' hmem => ?_
      obtain ⟨n', hpost'⟩ := (h.permits.queue slot').mp (List.mem_append_left _ hmem)
      have hnone := hrest (.resume slot'.key slot'.worker) 0 trivial
      simp [PushService.step, hpost', hmem] at hnone
    have hheld : s.semaphore.held = [] := by
      refine List.eq_nil_iff_forall_not_mem.mpr fun slot' hmem => ?_
      obtain ⟨n', hpost'⟩ := (h.permits.held slot').mp hmem
      exact hposting slot' n' hpost'
    have hmem : slot ∈ s.semaphore.waiters := by
      have hqueue := (h.permits.queue slot).mpr ⟨n, hpost⟩
      rw [Semaphore.queue, hwoken] at hqueue
      exact hqueue
    -- all permits are free, and still somebody waits
    have hzero := h.permits.fair.busy (List.ne_nil_of_mem hmem) hwoken
    have hpermits := h.permits.fair.permits
    rw [hwoken, hheld, hzero] at hpermits
    exact absurd hpermits (Nat.ne_of_lt hpos)
  cases hpost : s.posts ⟨k, i⟩ with
  | none => rfl
  | some phase =>
    cases phase with
    | resolving =>
      have hnone := hrest (.resolve k i .rejected) 0 trivial
      simp [PushService.step, hpost] at hnone
    | waiting n => exact absurd hpost (hwaiting _ n)
    | posting n => exact absurd hpost (hposting _ n)
    | sleeping n wake =>
      have hnone := hrest (.wake k i) wake trivial
      simp [PushService.step, hpost] at hnone
    | returned =>
      obtain ⟨w, item, hw, hphase⟩ := (h.posting k i).mp ⟨_, hpost⟩
      have hnone := hrest (.work k i .posted) 0 (Or.inr (Or.inr rfl))
      simp [PushService.step, hpost, Lane.step, hw, Lane.work, hphase] at hnone

theorem Kept.quiescent (h : Kept cfg s tr) (hpos : 0 < cfg.maxConcurrentDeliveries)
    (hrest : AtRest cfg ended s) (k : K) :
    (s.lanes k).queued = [] ∧ (s.lanes k).inHand = [] ∧ Calls cfg (s.lanes k).handed (eventsOf k tr) := by
  have hnone := h.no_posts hpos hrest
  have hlane : Lane.AtRest cfg.maxQueueSize ended (s.lanes k) := by
    intro i
    have htake := hrest (.work k i .take) 0 (Or.inl rfl)
    have hhand := hrest (.work k i .handOver) 0 (Or.inr (Or.inl rfl))
    simp only [PushService.step, Option.bind_eq_none_iff] at htake hhand
    refine ⟨?_, ?_, ?_⟩
    · refine Option.eq_none_iff_forall_ne_some.mpr fun r hr => ?_
      exact nomatch htake r hr
    · refine Option.eq_none_iff_forall_ne_some.mpr fun r hr => ?_
      exact nomatch hhand r hr
    · refine Option.eq_none_iff_forall_ne_some.mpr fun ⟨lane', o⟩ hr => ?_
      -- a worker that comes back has a call
      obtain ⟨w, hw, -, hworked⟩ := Lane.worked_of_step hr
      cases hworked with
      | posted item hphase =>
        obtain ⟨phase, hpost⟩ := (h.posting k i).mpr ⟨w, item, hw, hphase⟩
        exact nomatch (hnone ⟨k, i⟩).symm.trans hpost
  obtain ⟨hqueued, hhand⟩ := (h.lanes k).quiescent hlane
  refine ⟨hqueued, hhand, ?_⟩
  have htrail := h.trails k
  generalize eventsOf k tr = l at htrail ⊢
  cases htrail with
  | idle _ hcalls => exact hcalls
  | @busy i _ _ _ _ _ _ hpost => exact nomatch (hnone ⟨k, i⟩).symm.trans hpost

end PushService

open PushService

/-- **The requests of the webhook service**: in every run the events of each queue are those of its
snapshots, one call after the other, each with at most `max_retries` attempts and the growing delays
between them; no more requests are under way than there are permits; and when nothing can go on any
more, every call has come to its end and the last snapshot of each queue has had its call. -/
theorem service_kept {K C S : Type} [DecidableEq K] (cfg : PostingConfig) (ended : S → Bool)
    {tr : List (ServiceAction K C S × List (PostEvent C S))} {s : PushService K C S}
    (hrun : Run (step cfg ended) (fun _ _ => True) (init cfg) tr s) :
    (∀ k, Trailed cfg s k (eventsOf k tr)) ∧
      (∀ slots : List (WorkerSlot K), slots.Nodup → (∀ slot ∈ slots, ∃ n, s.posts slot = some (.posting n)) →
        slots.length ≤ cfg.maxConcurrentDeliveries) ∧
      (0 < cfg.maxConcurrentDeliveries → AtRest cfg ended s →
        ∀ k, Calls cfg (s.lanes k).handed (eventsOf k tr) ∧
          ((s.lanes k).handed.map Prod.snd).getLast? = (s.lanes k).delivered.getLast?) := by
  have hkept : Kept cfg s tr :=
    hrun.forward (P := fun tr s => Kept cfg s tr) (fun _ _ _ _ _ h _ hstep => h.step hstep) kept_init
  refine ⟨hkept.trails, fun slots hnodup hposting => hkept.permits.length_le hnodup hposting,
    fun hpos hrest k => ?_⟩
  obtain ⟨hqueued, hhand, hcalls⟩ := hkept.quiescent hpos hrest k
  have hlast := (hkept.lanes k).books.last hqueued
  rw [hhand, List.append_nil] at hlast
  exact ⟨hcalls, hlast⟩

/-- Two webhooks and one permit: the first one fails twice, and the second one has the permit while
the first one sleeps. -/
def busyWebhooks : List (ServiceAction Bool Unit Nat) :=
  [.deliver false () 1, .deliver true () 2, .work false 0 .take, .work true 0 .take,
    .work false 0 .handOver, .work true 0 .handOver, .resolve false 0 .pinned, .resolve true 0 .pinned,
    .answer false 0 (.status 503), .resume true 0, .tick 7, .answer true 0 (.status 200), .tick 3,
    .wake false 0, .answer false 0 .requestError, .work false 0 .posted, .work true 0 .posted]

def onePermit : PostingConfig := { maxRetries := 2, retryBaseDelay := 10, maxConcurrentDeliveries := 1 }

theorem busyWebhooks_kept : ∃ tr s, Run (step onePermit fun _ => false) (fun _ _ => True)
      (init onePermit : PushService Bool Unit Nat) tr s ∧
    eventsOf false tr = [.begun () 1, .sent 1 0, .answered 1 (.status 503) 0, .sent 2 10,
      .answered 2 .requestError 10, .ended .exhausted] ∧
    eventsOf true tr = [.begun () 2, .sent 1 0, .answered 1 (.status 200) 7, .ended .delivered] ∧
    ∀ k, Trailed onePermit s k (eventsOf k tr) := by
  have hrun := run_finalState (step onePermit fun _ => false) (fun _ _ => True)
    (init onePermit : PushService Bool Unit Nat) busyWebhooks rfl
  obtain ⟨htrails, -, -⟩ := service_kept onePermit (fun _ => false) hrun
  exact ⟨_, _, hrun, by decide, by decide, htrails⟩

end A2AKit
