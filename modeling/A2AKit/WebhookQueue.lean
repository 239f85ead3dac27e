/-
The delivery queue of a webhook configuration.

`deliver` looks for the worker of the configuration, starts one with a queue of its own if there is
none at work, and puts the snapshot into the queue.  A worker takes one snapshot after the other
and hands it to `_deliver_single`; it ends when nothing has come for a while, or after a terminal
snapshot that leaves the queue empty, and its done callback runs some time later.

* `lane_delivers` — snapshots are handed over in the order of the calls, by one worker at a time,
  and only the oldest queued one is ever dropped.
-/
import A2AKit.DropOldest
import A2AKit.Runs

namespace A2AKit

/-- A worker waits for an item, has one, waits for `_deliver_single`, or has ended. -/
inductive WorkerPhase (S : Type)
  | waiting
  | taken (item : S)
  | posting (item : S)
  | done
  deriving DecidableEq, Repr

/-- A worker with the queue and the configuration it was started with; `calledBack` once its done
callback has run. -/
structure QueueWorker (C S : Type) where
  queue : List S := []
  config : C
  phase : WorkerPhase S := .waiting
  calledBack : Bool := false
  deriving DecidableEq, Repr

/-- What a worker has taken and not handed over yet. -/
def WorkerPhase.inHand {S : Type} : WorkerPhase S → List S
  | .taken item => [item]
  | _ => []

/-- What the tables of the service have under one key.  Workers and their queues are numbered in the
order in which they were created; `delivered`, `handed` and `dropped` is what became of the
snapshots. -/
structure Lane (C S : Type) where
  workers : List (QueueWorker C S) := []
  queueWorker : Option Nat := none
  deliveryQueue : Option Nat := none
  delivered : List S := []
  handed : List (C × S) := []
  dropped : List S := []
  deriving DecidableEq, Repr

/-- What a worker does next; the callback is that of its task. -/
inductive WorkerMove
  | take
  | handOver
  | posted
  | idleTimeout
  | callback
  deriving DecidableEq, Repr

inductive LaneAction (C S : Type)
  | deliver (config : C) (task : S)
  | work (worker : Nat) (move : WorkerMove)
  deriving DecidableEq, Repr

inductive LaneOutcome
  | ok
  | keyError
  deriving DecidableEq, Repr

namespace Lane

variable {C S : Type}

/-- The worker goes on as `w`. -/
def setWorker (l : Lane C S) (i : Nat) (w : QueueWorker C S) : Lane C S :=
  { l with workers := l.workers.set i w }

/-- `existing_worker is None or existing_worker.done()` -/
def workerGone (l : Lane C S) : Bool :=
  match l.queueWorker.bind (l.workers[·]?) with
  | none => true
  | some w =>
    match w.phase with
    | .done => true
    | _ => false

/-- A new queue, and its worker. -/
def startWorker (l : Lane C S) (config : C) : Lane C S :=
  { l with
    workers := l.workers ++ [{ config }]
    queueWorker := some l.workers.length
    deliveryQueue := some l.workers.length }

/-- `_enqueue`: the queue of the key must be there. -/
def enqueue (maxsize : Nat) (l : Lane C S) (item : S) : Lane C S × LaneOutcome :=
  match l.deliveryQueue.bind fun i => (l.workers[i]?).map (i, ·) with
  | none => (l, .keyError)
  | some (i, w) =>
    let r := DropOldest.put maxsize item w.queue
    ({ l.setWorker i { w with queue := r.1 } with
      delivered := l.delivered ++ [item]
      dropped := l.dropped ++ r.2 }, .ok)

/-- `deliver`, for one of the configurations. -/
def deliver (maxsize : Nat) (l : Lane C S) (config : C) (task : S) : Lane C S × LaneOutcome :=
  (if l.workerGone then l.startWorker config else l).enqueue maxsize task

/-- `_cleanup_queue` -/
def cleanupQueue (l : Lane C S) (finished : Nat) : Lane C S :=
  if l.queueWorker = some finished then { l with queueWorker := none, deliveryQueue := none } else l

/-- One step of `_queue_worker`, or the done callback; `ended` says that a snapshot is terminal. -/
def work (ended : S → Bool) (l : Lane C S) (i : Nat) (w : QueueWorker C S) :
    WorkerMove → Option (Lane C S)
  | .take =>
    match w.phase, w.queue with
    | .waiting, item :: rest => some (l.setWorker i { w with queue := rest, phase := .taken item })
    | _, _ => none
  | .handOver =>
    match w.phase with
    | .taken item =>
      some { l.setWorker i { w with phase := .posting item } with
        handed := l.handed ++ [(w.config, item)] }
    | _ => none
  | .posted =>
    match w.phase with
    | .posting item =>
      some (l.setWorker i
        { w with phase := if w.queue.isEmpty && ended item then .done else .waiting })
    | _ => none
  | .idleTimeout =>
    -- an item may have come together with the timeout
    match w.phase with
    | .waiting =>
      some (l.setWorker i { w with phase := if w.queue.isEmpty then .done else .waiting })
    | _ => none
  | .callback =>
    match w.phase, w.calledBack with
    | .done, false => some ((l.setWorker i { w with calledBack := true }).cleanupQueue i)
    | _, _ => none

def step (maxsize : Nat) (ended : S → Bool) (l : Lane C S) :
    LaneAction C S → Option (Lane C S × LaneOutcome)
  | .deliver config task => some (l.deliver maxsize config task)
  | .work i move => (l.workers[i]?).bind fun w => (l.work ended i w move).map (·, .ok)

/-! ### What one step does -/

/-- The worker in the table. -/
def current (l : Lane C S) : Option (QueueWorker C S) := l.queueWorker.bind (l.workers[·]?)

/-- What is queued for the worker in the table. -/
def queued (l : Lane C S) : List S := (l.current.map QueueWorker.queue).getD []

/-- What it has taken and not handed over yet. -/
def inHand (l : Lane C S) : List S := (l.current.map fun w => w.phase.inHand).getD []

variable {maxsize : Nat} {ended : S → Bool} {l l' : Lane C S} {i : Nat} {w w' : QueueWorker C S}
  {move : WorkerMove} {config : C} {task : S} {o : LaneOutcome}

/-- The steps of a worker. -/
inductive Worked (ended : S → Bool) (l : Lane C S) (i : Nat) (w : QueueWorker C S) :
    WorkerMove → Lane C S → Prop
  | take (item : S) (rest : List S) : w.phase = .waiting → w.queue = item :: rest →
      Worked ended l i w .take (l.setWorker i { w with queue := rest, phase := .taken item })
  | handOver (item : S) : w.phase = .taken item →
      Worked ended l i w .handOver { l.setWorker i { w with phase := .posting item } with
        handed := l.handed ++ [(w.config, item)] }
  | posted (item : S) : w.phase = .posting item →
      Worked ended l i w .posted (l.setWorker i
        { w with phase := if w.queue.isEmpty && ended item then .done else .waiting })
  | idleTimeout : w.phase = .waiting →
      Worked ended l i w .idleTimeout
        (l.setWorker i { w with phase := if w.queue.isEmpty then .done else .waiting })
  | callback : w.phase = .done → w.calledBack = false →
      Worked ended l i w .callback ((l.setWorker i { w with calledBack := true }).cleanupQueue i)

theorem worked_of_work (h : l.work ended i w move = some l') : Worked ended l i w move l' := by
  cases move with
  | take =>
    rw [work] at h
    split at h
    · rename_i item rest hphase hqueue
      cases h
      exact .take item rest hphase hqueue
    · exact nomatch h
  | handOver =>
    rw [work] at h
    split at h
    · rename_i item hphase
      cases h
      exact .handOver item hphase
    · exact nomatch h
  | posted =>
    rw [work] at h
    split at h
    · rename_i item hphase
      cases h
      exact .posted item hphase
    · exact nomatch h
  | idleTimeout =>
    rw [work] at h
    split at h
    · rename_i hphase
      cases h
      exact .idleTimeout hphase
    · exact nomatch h
  | callback =>
    rw [work] at h
    split at h
    · rename_i hphase hcalled
      cases h
      exact .callback hphase hcalled
    · exact nomatch h

/-- The two tables name the same worker, every other worker has ended and left its queue empty, and
the snapshots are accounted for. -/
structure Sound (maxsize : Nat) (l : Lane C S) : Prop where
  tables : l.deliveryQueue = l.queueWorker
  known : ∀ i, l.queueWorker = some i → ∃ w, l.workers[i]? = some w
  alone : ∀ (i : Nat) (w : QueueWorker C S), l.workers[i]? = some w → w.phase ≠ .done → l.queueWorker = some i
  drained : ∀ (i : Nat) (w : QueueWorker C S), l.workers[i]? = some w → w.phase = .done → w.queue = []
  books : DropOldest.Accounts l.delivered (l.handed.map Prod.snd ++ l.inHand) l.dropped l.queued
  bounded : 0 < maxsize → l.queued.length ≤ maxsize

theorem sound_empty : Sound maxsize ({} : Lane C S) where
  tables := rfl
  known _ h := nomatch h
  alone _ _ h := nomatch h
  drained _ _ h := nomatch h
  books := .empty
  bounded _ := Nat.zero_le _

theorem workers_setWorker (hw : l.workers[i]? = some w) (j : Nat) (u : QueueWorker C S) :
    (l.workers.set i w')[j]? = some u ↔ j = i ∧ u = w' ∨ j ≠ i ∧ l.workers[j]? = some u := by
  have hlt : i < l.workers.length := (List.getElem?_eq_some_iff.mp hw).1
  rw [List.getElem?_set]
  by_cases hj : i = j
  · subst hj
    rw [if_pos rfl, if_pos hlt]
    simp [eq_comm]
  · rw [if_neg hj]
    simp [Ne.symm hj]

theorem current_eq (hcur : l.queueWorker = some i) : l.current = l.workers[i]? := by
  unfold current
  rw [hcur]
  rfl

theorem queued_eq (hcur : l.queueWorker = some i) (hw : l.workers[i]? = some w) :
    l.queued = w.queue := by
  unfold queued
  rw [current_eq hcur, hw]
  rfl

/-- The worker in the table takes a step. -/
theorem Sound.of_set (h : Sound maxsize l) (hcur : l.queueWorker = some i)
    (hw : l.workers[i]? = some w) (hworkers : l'.workers = l.workers.set i w')
    (htable : l'.queueWorker = l.queueWorker) (hqueue : l'.deliveryQueue = l.deliveryQueue)
    (hdone : w'.phase = .done → w'.queue = [])
    (hbooks : DropOldest.Accounts l'.delivered (l'.handed.map Prod.snd ++ w'.phase.inHand) l'.dropped
      w'.queue)
    (hbound : 0 < maxsize → w'.queue.length ≤ maxsize) : Sound maxsize l' := by
  have hcurrent : l'.current = some w' := by
    rw [current_eq (htable.trans hcur), hworkers, workers_setWorker hw]
    exact Or.inl ⟨rfl, rfl⟩
  refine ⟨by rw [hqueue, htable, h.tables], ?_, ?_, ?_, ?_, ?_⟩
  · intro j hj
    rw [htable, hcur] at hj
    cases hj
    exact ⟨w', by rw [hworkers, workers_setWorker hw]; exact Or.inl ⟨rfl, rfl⟩⟩
  · intro j u hu hphase
    rw [hworkers, workers_setWorker hw] at hu
    rw [htable]
    rcases hu with ⟨rfl, -⟩ | ⟨-, hu⟩
    · exact hcur
    · exact h.alone j u hu hphase
  · intro j u hu hphase
    rw [hworkers, workers_setWorker hw] at hu
    rcases hu with ⟨-, rfl⟩ | ⟨-, hu⟩
    · exact hdone hphase
    · exact h.drained j u hu hphase
  · show DropOldest.Accounts _ (_ ++ (l'.current.map fun w => w.phase.inHand).getD []) _
      ((l'.current.map QueueWorker.queue).getD [])
    rw [hcurrent]
    exact hbooks
  · intro hpos
    show ((l'.current.map QueueWorker.queue).getD []).length ≤ maxsize
    rw [hcurrent]
    exact hbound hpos

/-- The books, with the worker in the table at hand. -/
theorem Sound.booksOf (h : Sound maxsize l) (hcur : l.queueWorker = some i)
    (hw : l.workers[i]? = some w) :
    DropOldest.Accounts l.delivered (l.handed.map Prod.snd ++ w.phase.inHand) l.dropped w.queue ∧
      (0 < maxsize → w.queue.length ≤ maxsize) := by
  have hcurrent : l.current = some w := (current_eq hcur).trans hw
  have hbooks := h.books
  have hbounded := h.bounded
  unfold inHand queued at hbooks
  unfold queued at hbounded
  rw [hcurrent] at hbooks hbounded
  exact ⟨hbooks, hbounded⟩

theorem phase_done {b : Bool} (h : (if b then .done else .waiting : WorkerPhase S) = .done) :
    b = true := by
  by_contra hb
  rw [if_neg hb] at h
  exact nomatch h

theorem inHand_next (b : Bool) :
    (if b then .done else .waiting : WorkerPhase S).inHand = [] := by
  split <;> rfl

theorem Sound.worked (h : Sound maxsize l) (hw : l.workers[i]? = some w)
    (hstep : Worked ended l i w move l') : Sound maxsize l' := by
  cases hstep with
  | take item rest hphase hqueue =>
    have hcur : l.queueWorker = some i := h.alone i w hw (by rw [hphase]; exact nofun)
    obtain ⟨hbooks, hbound⟩ := h.booksOf hcur hw
    rw [hphase, hqueue] at hbooks
    have hrest : 0 < maxsize → rest.length ≤ maxsize := fun hpos => by
      have hlength := hbound hpos
      rw [hqueue, List.length_cons] at hlength
      omega
    -- the snapshot goes from the queue into the hand of the worker, and the books still close
    refine h.of_set hcur hw rfl rfl rfl nofun ?_ hrest
    have htaken := hbooks.take
    show DropOldest.Accounts l.delivered (l.handed.map Prod.snd ++ [item]) l.dropped rest
    rwa [show WorkerPhase.waiting.inHand = ([] : List S) from rfl, List.append_nil] at htaken
  | handOver item hphase =>
    have hcur : l.queueWorker = some i := h.alone i w hw (by rw [hphase]; exact nofun)
    obtain ⟨hbooks, hbound⟩ := h.booksOf hcur hw
    rw [hphase] at hbooks
    refine h.of_set hcur hw rfl rfl rfl nofun ?_ hbound
    show DropOldest.Accounts l.delivered ((l.handed ++ [(w.config, item)]).map Prod.snd ++ [])
      l.dropped w.queue
    rw [List.map_append, List.append_nil]
    exact hbooks
  | posted item hphase =>
    have hcur : l.queueWorker = some i := h.alone i w hw (by rw [hphase]; exact nofun)
    obtain ⟨hbooks, hbound⟩ := h.booksOf hcur hw
    rw [hphase] at hbooks
    refine h.of_set hcur hw rfl rfl rfl ?_ ?_ hbound
    · -- a terminal snapshot ends the worker only when nothing is queued behind it
      intro hdone
      have hempty := phase_done hdone
      rw [Bool.and_eq_true] at hempty
      exact List.isEmpty_iff.mp hempty.1
    · show DropOldest.Accounts _ (_ ++ WorkerPhase.inHand (if _ then _ else _)) _ _
      rw [inHand_next]
      exact hbooks
  | idleTimeout hphase =>
    have hcur : l.queueWorker = some i := h.alone i w hw (by rw [hphase]; exact nofun)
    obtain ⟨hbooks, hbound⟩ := h.booksOf hcur hw
    rw [hphase] at hbooks
    refine h.of_set hcur hw rfl rfl rfl ?_ ?_ hbound
    · intro hdone
      exact List.isEmpty_iff.mp (phase_done hdone)
    · show DropOldest.Accounts _ (_ ++ WorkerPhase.inHand (if _ then _ else _)) _ _
      rw [inHand_next]
      exact hbooks
  | callback hphase hcalled =>
    -- the done-callback of a worker that has been replaced must not take the tables of the new one
    have hdrained : w.queue = [] := h.drained i w hw hphase
    unfold cleanupQueue
    split
    · rename_i hcur
      have hcur : l.queueWorker = some i := hcur
      obtain ⟨hbooks, -⟩ := h.booksOf hcur hw
      rw [hphase, hdrained] at hbooks
      refine ⟨rfl, nofun, ?_, ?_, hbooks, fun _ => Nat.zero_le _⟩
      · intro j u hu hactive
        rcases (workers_setWorker hw j u).mp hu with ⟨-, rfl⟩ | ⟨hne, hu⟩
        · exact absurd hphase hactive
        · exact absurd (Option.some_inj.mp ((h.alone j u hu hactive).symm.trans hcur)) hne
      · intro j u hu hdone
        rcases (workers_setWorker hw j u).mp hu with ⟨-, rfl⟩ | ⟨-, hu⟩
        · exact hdrained
        · exact h.drained j u hu hdone
    · rename_i hother
      -- the tables belong to another worker, whose books are not touched
      have hcurrent : (l.setWorker i { w with calledBack := true }).current = l.current := by
        unfold current
        cases hq : l.queueWorker with
        | none =>
          show ((l.queueWorker).bind _) = _
          rw [hq]
          rfl
        | some k =>
          have hne : k ≠ i := fun hk => hother (hq.trans (congrArg some hk))
          show (l.queueWorker).bind _ = _
          rw [hq]
          show (l.workers.set i _)[k]? = l.workers[k]?
          exact List.getElem?_set_ne hne.symm
      refine ⟨h.tables, ?_, ?_, ?_, ?_, ?_⟩
      · intro k hk
        have hne : k ≠ i := fun heq => hother (hk.trans (congrArg some heq))
        obtain ⟨u, hu⟩ := h.known k hk
        exact ⟨u, (workers_setWorker hw k u).mpr (Or.inr ⟨hne, hu⟩)⟩
      · intro j u hu hactive
        rcases (workers_setWorker hw j u).mp hu with ⟨-, rfl⟩ | ⟨-, hu⟩
        · exact absurd hphase hactive
        · exact h.alone j u hu hactive
      · intro j u hu hdone
        rcases (workers_setWorker hw j u).mp hu with ⟨-, rfl⟩ | ⟨-, hu⟩
        · exact hdrained
        · exact h.drained j u hu hdone
      · unfold inHand queued
        rw [hcurrent]
        exact h.books
      · unfold queued
        rw [hcurrent]
        exact h.bounded

/-- A worker is at work, with what the last one has left: nothing. -/
structure Ready (maxsize : Nat) (l : Lane C S) (config : C) (l' : Lane C S) (i : Nat)
    (w : QueueWorker C S) : Prop where
  sound : Sound maxsize l'
  table : l'.queueWorker = some i
  worker : l'.workers[i]? = some w
  active : w.phase ≠ .done
  queue : w.queue = l.queued
  delivered : l'.delivered = l.delivered
  handed : l'.handed = l.handed
  dropped : l'.dropped = l.dropped
  config : l.current = some w ∨ w.config = config ∧ w.phase = .waiting ∧ w.queue = []

theorem current_of_not_gone (h : l.workerGone = false) :
    ∃ i w, l.queueWorker = some i ∧ l.workers[i]? = some w ∧ w.phase ≠ .done := by
  unfold workerGone at h
  split at h
  · exact nomatch h
  · rename_i w hw
    obtain ⟨i, hi, hw⟩ := Option.bind_eq_some_iff.mp hw
    refine ⟨i, w, hi, hw, fun hdone => ?_⟩
    rw [hdone] at h
    exact nomatch h

theorem Sound.empty_of_gone (h : Sound maxsize l) (hgone : l.workerGone = true) :
    l.queued = [] ∧ l.inHand = [] ∧
      ∀ (i : Nat) (w : QueueWorker C S), l.workers[i]? = some w → w.phase = .done := by
  have hdone : ∀ (i : Nat) (w : QueueWorker C S), l.queueWorker = some i →
      l.workers[i]? = some w → w.phase = .done := by
    intro i w hi hw
    unfold workerGone at hgone
    rw [hi] at hgone
    show w.phase = .done
    rw [show ((some i).bind fun j => l.workers[j]?) = some w from hw] at hgone
    split at hgone
    · exact nomatch ‹some w = none›
    · rename_i u hu
      cases hu
      split at hgone
      · assumption
      · exact nomatch hgone
  -- a worker that is not done would be the one in the tables
  have hall : ∀ (i : Nat) (w : QueueWorker C S), l.workers[i]? = some w → w.phase = .done := by
    intro i w hw
    by_contra hactive
    exact hactive (hdone i w (h.alone i w hw hactive) hw)
  refine ⟨?_, ?_, hall⟩
  · unfold queued
    cases hc : l.current with
    | none => rfl
    | some w =>
      obtain ⟨i, -, hw⟩ := Option.bind_eq_some_iff.mp hc
      exact h.drained i w hw (hall i w hw)
  · unfold inHand
    cases hc : l.current with
    | none => rfl
    | some w =>
      obtain ⟨i, -, hw⟩ := Option.bind_eq_some_iff.mp hc
      show w.phase.inHand = []
      rw [hall i w hw]
      rfl

theorem startWorker_cases {j : Nat} {u : QueueWorker C S}
    (hu : (l.startWorker config).workers[j]? = some u) :
    u = { config := config } ∨ l.workers[j]? = some u := by
  have hu : (l.workers ++ [{ config := config }])[j]? = some u := hu
  rcases Nat.lt_trichotomy j l.workers.length with hj | rfl | hj
  · exact Or.inr (by rwa [List.getElem?_append_left hj] at hu)
  · rw [List.getElem?_concat_length] at hu
    exact Or.inl (Option.some_inj.mp hu).symm
  · rw [List.getElem?_eq_none (by rw [List.length_append, List.length_singleton]; omega)] at hu
    exact nomatch hu

theorem Sound.ready (h : Sound maxsize l) (config : C) : ∃ i w,
    Ready maxsize l config (if l.workerGone then l.startWorker config else l) i w := by
  cases hgone : l.workerGone with
  | false =>
    obtain ⟨i, w, hi, hw, hactive⟩ := current_of_not_gone hgone
    exact ⟨i, w, h, hi, hw, hactive, (queued_eq hi hw).symm, rfl, rfl, rfl,
      Or.inl ((current_eq hi).trans hw)⟩
  -- the last worker is gone and has left nothing, so the new one starts with empty books
  | true =>
    obtain ⟨hqueued, hhand, hall⟩ := h.empty_of_gone hgone
    have hnew : (l.startWorker config).workers[l.workers.length]? = some { config := config } :=
      List.getElem?_concat_length
    refine ⟨l.workers.length, { config := config }, ?_⟩
    rw [if_pos rfl]
    refine ⟨⟨rfl, ?_, ?_, ?_, ?_, ?_⟩, rfl, hnew, nofun, hqueued.symm, rfl, rfl, rfl,
      Or.inr ⟨rfl, rfl, rfl⟩⟩
    · intro j hj
      cases hj
      exact ⟨_, hnew⟩
    · intro j u hu hactive
      rcases Nat.lt_or_ge j l.workers.length with hj | hj
      · have hu : (l.workers ++ [{ config := config }])[j]? = some u := hu
        rw [List.getElem?_append_left hj] at hu
        exact absurd (hall j u hu) hactive
      · have hlt := (List.getElem?_eq_some_iff.mp hu).1
        -- all old workers are done, so only the new one is active
        have hj : j = l.workers.length := by
          have hlength : (l.startWorker config).workers.length = l.workers.length + 1 :=
            List.length_append
          omega
        rw [hj]
        rfl
    · intro j u hu hdone
      rcases startWorker_cases hu with rfl | hu
      · rfl
      · exact h.drained j u hu hdone
    · have hbooks := h.books
      rw [hqueued, hhand] at hbooks
      have hcurrent : (l.startWorker config).current = some { config := config } := hnew
      unfold inHand queued
      rw [hcurrent]
      exact hbooks
    · intro _
      have hcurrent : (l.startWorker config).current = some { config := config } := hnew
      unfold queued
      rw [hcurrent]
      exact Nat.zero_le _

/-- What `deliver` comes to: the snapshot goes into the queue of a worker that is at work. -/
structure Delivered (maxsize : Nat) (l : Lane C S) (config : C) (task : S) (l' : Lane C S) :
    Prop where
  sound : Sound maxsize l'
  delivered : l'.delivered = l.delivered ++ [task]
  handed : l'.handed = l.handed
  dropped : l'.dropped = l.dropped ++ (DropOldest.put maxsize task l.queued).2
  queued : l'.queued = (DropOldest.put maxsize task l.queued).1

theorem Sound.enqueue {l₀ : Lane C S} (h : Ready maxsize l config l₀ i w) (task : S) :
    l₀.enqueue maxsize task =
      ({ l₀.setWorker i { w with queue := (DropOldest.put maxsize task w.queue).1 } with
          delivered := l₀.delivered ++ [task]
          dropped := l₀.dropped ++ (DropOldest.put maxsize task w.queue).2 }, .ok) := by
  have hqueue : l₀.deliveryQueue = some i := h.sound.tables.trans h.table
  have hworker : (l₀.workers[i]?).map (i, ·) = some (i, w) := by
    rw [h.worker]
    rfl
  unfold Lane.enqueue
  rw [hqueue, Option.bind_some, hworker]

theorem put_length (hbound : 0 < maxsize → w.queue.length ≤ maxsize) (hpos : 0 < maxsize) :
    (DropOldest.put maxsize task w.queue).1.length ≤ maxsize := by
  rcases Nat.lt_or_ge w.queue.length maxsize with hroom | hfull
  · rw [DropOldest.put_of_room (Or.inr hroom), List.length_append]
    exact hroom
  · have hlength : w.queue.length = maxsize := Nat.le_antisymm (hbound hpos) hfull
    cases hq : w.queue with
    | nil =>
      rw [hq, List.length_nil] at hlength
      omega
    | cons x rest =>
      rw [hq] at hlength
      rw [DropOldest.put_of_full hlength, List.length_append]
      exact Nat.le_of_eq hlength

theorem Sound.deliver (h : Sound maxsize l) (config : C) (task : S) :
    (l.deliver maxsize config task).2 = .ok ∧
      Delivered maxsize l config task (l.deliver maxsize config task).1 := by
  obtain ⟨i, w, hready⟩ := h.ready config
  unfold Lane.deliver
  generalize (if l.workerGone then l.startWorker config else l) = l₀ at hready ⊢
  rw [Sound.enqueue hready]
  obtain ⟨hbooks, hbound⟩ := hready.sound.booksOf hready.table hready.worker
  refine ⟨rfl, ?_, ?_, hready.handed, ?_, ?_⟩
  · refine hready.sound.of_set hready.table hready.worker rfl rfl rfl
      (fun hdone => absurd hdone hready.active) (hbooks.put maxsize task) ?_
    exact put_length hbound
  · exact congrArg (· ++ [task]) hready.delivered
  · show l₀.dropped ++ _ = _
    rw [hready.dropped, hready.queue]
  · rw [← hready.queue]
    have hset : ∀ (l₁ : Lane C S) (u : QueueWorker C S), l₁.queueWorker = some i →
        l₁.workers = l₀.workers.set i u → l₁.queued = u.queue := by
      intro l₁ u htable hworkers
      refine queued_eq htable ?_
      rw [hworkers, workers_setWorker hready.worker]
      exact Or.inl ⟨rfl, rfl⟩
    refine hset _ { w with queue := _ } ?_ ?_
    · exact hready.table
    · rfl

theorem worked_of_step (hstep : l.step maxsize ended (.work i move) = some (l', o)) :
    ∃ w, l.workers[i]? = some w ∧ o = .ok ∧ Worked ended l i w move l' := by
  obtain ⟨w, hw, hwork⟩ := Option.bind_eq_some_iff.mp hstep
  obtain ⟨l₁, hl₁, heq⟩ := Option.map_eq_some_iff.mp hwork
  obtain ⟨rfl, rfl⟩ := Prod.mk.inj heq
  exact ⟨w, hw, rfl, worked_of_work hl₁⟩

/-- A worker leaves what was delivered and what was dropped alone. -/
theorem delivered_work (hstep : l.step maxsize ended (.work i move) = some (l', o)) :
    l'.delivered = l.delivered ∧ l'.dropped = l.dropped := by
  obtain ⟨w, -, -, hworked⟩ := worked_of_step hstep
  cases hworked with
  | callback =>
    unfold cleanupQueue
    split <;> exact ⟨rfl, rfl⟩
  | _ => exact ⟨rfl, rfl⟩

theorem Sound.step (h : Sound maxsize l) {a : LaneAction C S}
    (hstep : l.step maxsize ended a = some (l', o)) : o = .ok ∧ Sound maxsize l' := by
  cases a with
  | deliver config task =>
    obtain ⟨hok, hdelivered⟩ := h.deliver config task
    obtain ⟨rfl, rfl⟩ := Prod.mk.inj (Option.some_inj.mp hstep)
    exact ⟨hok, hdelivered.sound⟩
  | work i move =>
    obtain ⟨w, hw, hok, hworked⟩ := worked_of_step hstep
    exact ⟨hok, h.worked hw hworked⟩

/-! ### Runs -/

abbrev LaneRun (maxsize : Nat) (ended : S → Bool) (l : Lane C S)
    (tr : List (LaneAction C S × LaneOutcome)) (l' : Lane C S) : Prop :=
  Run (step maxsize ended) (fun _ _ => True) l tr l'

/-- A worker that has not ended. -/
def Active (l : Lane C S) (i : Nat) : Prop := ∃ w, l.workers[i]? = some w ∧ w.phase ≠ .done

/-- No worker can take an item, hand it over or come back from `_deliver_single`. -/
def AtRest (maxsize : Nat) (ended : S → Bool) (l : Lane C S) : Prop :=
  ∀ i, l.step maxsize ended (.work i .take) = none ∧
    l.step maxsize ended (.work i .handOver) = none ∧ l.step maxsize ended (.work i .posted) = none

/-- A step drops nothing, or it puts a snapshot into a full queue and drops the oldest one. -/
def DropsOldest (maxsize : Nat) (l : Lane C S) (a : LaneAction C S) (l' : Lane C S) : Prop :=
  l'.dropped = l.dropped ∨
    ∃ config task oldest rest, a = .deliver config task ∧ 0 < maxsize ∧
      l.queued.length = maxsize ∧ l.queued = oldest :: rest ∧ l'.queued = rest ++ [task] ∧
      l'.dropped = l.dropped ++ [oldest]

theorem sound_run {tr : List (LaneAction C S × LaneOutcome)}
    (hrun : LaneRun maxsize ended {} tr l) : Sound maxsize l :=
  hrun.inv (fun _ _ _ _ h _ hstep => (h.step hstep).2) sound_empty

theorem Sound.dropsOldest (h : Sound maxsize l) {a : LaneAction C S}
    (hstep : l.step maxsize ended a = some (l', o)) : DropsOldest maxsize l a l' := by
  cases a with
  | deliver config task =>
    obtain ⟨-, hdelivered⟩ := h.deliver config task
    obtain ⟨rfl, rfl⟩ := Prod.mk.inj (Option.some_inj.mp hstep)
    have hdropped := hdelivered.dropped
    have hqueued := hdelivered.queued
    rcases Nat.eq_zero_or_pos maxsize with hzero | hpos
    · rw [DropOldest.put_of_room (Or.inl hzero), List.append_nil] at hdropped
      exact Or.inl hdropped
    · rcases Nat.lt_or_ge l.queued.length maxsize with hroom | hfull
      · rw [DropOldest.put_of_room (Or.inr hroom), List.append_nil] at hdropped
        exact Or.inl hdropped
      · have hlength : l.queued.length = maxsize := Nat.le_antisymm (h.bounded hpos) hfull
        have hnonempty : 0 < l.queued.length := by omega
        obtain ⟨oldest, rest, hq⟩ := List.exists_cons_of_length_pos hnonempty
        rw [hq, DropOldest.put_of_full (hq ▸ hlength)] at hdropped hqueued
        exact Or.inr ⟨config, task, oldest, rest, rfl, hpos, hlength, hq, hqueued, hdropped⟩
  | work i move =>
    exact Or.inl (delivered_work hstep).2

/-- With nothing left to do, the last snapshot has been handed over. -/
theorem Sound.quiescent (h : Sound maxsize l) (hquiet : AtRest maxsize ended l) :
    l.queued = [] ∧ l.inHand = [] := by
  cases hc : l.current with
  | none =>
    unfold queued inHand
    rw [hc]
    exact ⟨rfl, rfl⟩
  | some w =>
    obtain ⟨i, hi, hw⟩ := Option.bind_eq_some_iff.mp hc
    obtain ⟨htake, hhand, hposted⟩ := hquiet i
    have hstep : ∀ move, l.step maxsize ended (.work i move) = (l.work ended i w move).map (·, .ok) := by
      intro move
      show (l.workers[i]?).bind _ = _
      rw [hw]
      rfl
    rw [hstep, Option.map_eq_none_iff] at htake hhand hposted
    unfold inHand
    rw [queued_eq hi hw, hc]
    show w.queue = [] ∧ w.phase.inHand = []
    cases hphase : w.phase with
    | waiting =>
      refine ⟨?_, rfl⟩
      cases hq : w.queue with
      | nil => rfl
      | cons x rest => simp [work, hphase, hq] at htake
    | taken item => simp [work, hphase] at hhand
    | posting item => simp [work, hphase] at hposted
    | done => exact ⟨h.drained i w hw hphase, rfl⟩

end Lane

open Lane

/-- **The delivery queue of a configuration**: in every run the snapshots that were handed over are
those of some of the calls, in their order and each once, no two workers are at work, a snapshot is
dropped only when the queue is full, and then the oldest one, and once nothing is left to do the
last snapshot has been handed over. -/
theorem lane_delivers {C S : Type} (maxsize : Nat) (ended : S → Bool)
    (tr : List (LaneAction C S × LaneOutcome)) (l : Lane C S)
    (hrun : LaneRun maxsize ended {} tr l) :
    (l.handed.map Prod.snd).Sublist l.delivered ∧
      (l.handed.map Prod.snd ++ l.inHand ++ l.dropped ++ l.queued).Perm l.delivered ∧
      (∀ i j, l.Active i → l.Active j → i = j) ∧
      (∀ p ∈ tr, p.2 = .ok) ∧
      (∀ before a o after u v, tr = before ++ (a, o) :: after →
        LaneRun maxsize ended {} before u → u.step maxsize ended a = some (v, o) →
        DropsOldest maxsize u a v) ∧
      (AtRest maxsize ended l →
        (l.handed.map Prod.snd).getLast? = l.delivered.getLast?) := by
  have hsound : Sound maxsize l := sound_run hrun
  refine ⟨?_, hsound.books.perm, ?_, ?_, ?_, ?_⟩
  · exact (List.sublist_append_left _ _).trans hsound.books.sublist
  · rintro i j ⟨w, hw, hi⟩ ⟨u, hu, hj⟩
    exact Option.some_inj.mp ((hsound.alone i w hw hi).symm.trans (hsound.alone j u hu hj))
  · have hall : Sound maxsize l ∧ ∀ p ∈ tr, p.2 = .ok := by
      refine hrun.forward (P := fun tr l => Sound maxsize l ∧ ∀ p ∈ tr, p.2 = LaneOutcome.ok) ?_ ?_
      · rintro tr u a v o ⟨hu, htr⟩ - hstep
        refine ⟨(hu.step hstep).2, fun p hp => ?_⟩
        rcases List.mem_append.mp hp with hp | hp
        · exact htr p hp
        · rw [List.mem_singleton.mp hp]
          exact (hu.step hstep).1
      · exact ⟨sound_empty, nofun⟩
    exact hall.2
  · intro before a o after u v _ hbefore hstep
    exact (sound_run hbefore).dropsOldest hstep
  · intro hquiet
    obtain ⟨hqueued, hhand⟩ := hsound.quiescent hquiet
    have hlast := hsound.books.last hqueued
    rwa [hhand, List.append_nil] at hlast

/-- The webhook is slow: four more snapshots come while it has the first one. -/
def slowWebhook : List (LaneAction Unit Nat) :=
  [.deliver () 1, .work 0 .take, .work 0 .handOver, .deliver () 2, .deliver () 3, .deliver () 4,
    .deliver () 5, .work 0 .posted, .work 0 .take, .work 0 .handOver, .work 0 .posted,
    .work 0 .take, .work 0 .handOver, .work 0 .posted, .work 0 .idleTimeout, .work 0 .callback]

/-- With two places in the queue the second and the third snapshot are dropped. -/
theorem lane_overflows : ∃ tr l, LaneRun 2 (fun _ => false) ({} : Lane Unit Nat) tr l ∧
    l.handed.map Prod.snd = [1, 4, 5] ∧ l.dropped = [2, 3] ∧
    (l.handed.map Prod.snd).Sublist l.delivered ∧
    (AtRest 2 (fun _ => false) l → (l.handed.map Prod.snd).getLast? = l.delivered.getLast?) := by
  have hrun := run_finalState (step 2 fun _ => false) (fun _ _ => True) ({} : Lane Unit Nat)
    slowWebhook rfl
  obtain ⟨hsub, -, -, -, -, hlast⟩ := lane_delivers 2 (fun _ => false) _ _ hrun
  exact ⟨_, _, hrun, by decide, by decide, hsub, hlast⟩

end A2AKit
