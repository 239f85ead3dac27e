/-
Where the operations of the in-memory broker are.

Every operation that was enqueued is in line for a slot, at work, or finished: in the buffer, with
a sender that waits for room, in the hands of the loop, with a handler.  A handler that fails puts
its operation at the end of the line, with the next attempt number, until the attempts are used up.

* `queue_step`, `atWork_step` — what a step does to the line and to the handlers at work;
* `operations_accounted` — the order in which operations are started, where they all are, and
  which attempts an operation has had.
-/
import Mathlib.Algebra.Order.Group.Multiset
import Mathlib.Data.List.Count
import Mathlib.Data.List.Perm.Basic
import Mathlib.Tactic.Abel
import A2AKit.MemoryBroker

namespace A2AKit

namespace MemoryWorker

variable {ω : Type}

/-- The item in the hands of the loop. -/
def held : PullPhase ω → List (EnqueuedOp ω)
  | .acquiring item => [item]
  | .pulling => []
  | .waiting => []

/-- The operations that wait for a slot, in the order in which they get one. -/
def queue (s : MemoryWorker ω) : List (EnqueuedOp ω) :=
  held s.loop ++ s.buffer ++ s.senders.map WaitingSender.item

/-- The operations of the handlers at work. -/
def working (handlers : List (SlotHandler ω)) : List (EnqueuedOp ω) :=
  (handlers.filter fun h => h.phase = .working).map SlotHandler.item

def atWork (s : MemoryWorker ω) : List (EnqueuedOp ω) :=
  working s.handlers

/-- The item of the next attempt. -/
def nextAttempt (item : EnqueuedOp ω) : EnqueuedOp ω :=
  { op := item.op, attempt := item.attempt + 1 }

/-! ### What the steps contribute -/

/-- The operation that a producer hands to `run_task`. -/
def produces (_ : MemoryWorker ω) : WorkerAction ω → List ω
  | .produce op => [op]
  | _ => []

/-- The item that a handler sends back with `nack`. -/
def retries (limits : WorkerLimits) (s : MemoryWorker ω) : WorkerAction ω → List (EnqueuedOp ω)
  | .fail serial => ((s.handler serial).toList.map SlotHandler.item).filter fun item =>
      item.attempt < limits.maxRetries
  | _ => []

/-- The item that is sent into the stream. -/
def sends (limits : WorkerLimits) (s : MemoryWorker ω) (a : WorkerAction ω) :
    List (EnqueuedOp ω) :=
  (s.produces a).map (fun op => ({ op } : EnqueuedOp ω)) ++ (s.retries limits a).map nextAttempt

/-- The item that gets a slot. -/
def starts (s : MemoryWorker ω) : WorkerAction ω → List (EnqueuedOp ω)
  | .start => held s.loop
  | _ => []

/-- The item that is acknowledged, after a dispatch that returned or after the last attempt. -/
def finishes (limits : WorkerLimits) (s : MemoryWorker ω) : WorkerAction ω → List (EnqueuedOp ω)
  | .ack serial => (s.handler serial).toList.map SlotHandler.item
  | .fail serial => ((s.handler serial).toList.map SlotHandler.item).filter fun item =>
      limits.maxRetries ≤ item.attempt
  | _ => []

/-- What the steps of a run contribute. -/
def collected {β : Type} (limits : WorkerLimits) (f : MemoryWorker ω → WorkerAction ω → List β)
    (tr : List (WorkerAction ω × Unit)) : List β :=
  Run.collect (step limits) f {} tr

variable {limits : WorkerLimits} {s s' : MemoryWorker ω} {a : WorkerAction ω} {o : Unit}
  {handlers : List (SlotHandler ω)} {serial : Nat} {phase : HandlerPhase} {h : SlotHandler ω}
  {item : EnqueuedOp ω} {tr : List (WorkerAction ω × Unit)}

/-! ### Handlers at work -/

theorem working_append (handlers handlers' : List (SlotHandler ω)) :
    working (handlers ++ handlers') = working handlers ++ working handlers' := by
  rw [working, List.filter_append, List.map_append]
  rfl

/-- A handler that leaves its work is as good as gone. -/
theorem working_setPhase (hphase : phase ≠ .working) :
    working (setPhase handlers serial phase) =
      working (handlers.filter fun h => h.serial ≠ serial) := by
  induction handlers with
  | nil => rfl
  | cons h handlers ih =>
    have hcons : setPhase (h :: handlers) serial phase =
        [if h.serial = serial then { h with phase } else h] ++ setPhase handlers serial phase := rfl
    rw [hcons, working_append, ih]
    by_cases heq : h.serial = serial
    · rw [if_pos heq, List.filter_cons_of_neg (by simpa using heq)]
      simp [working, hphase]
    · rw [if_neg heq, List.filter_cons_of_pos (by simpa using heq), ← working_append]
      rfl

/-- A handler and the others. -/
theorem perm_handler (hserials : (handlers.map SlotHandler.serial).Nodup) (hh : h ∈ handlers) :
    handlers.Perm (h :: handlers.filter fun g => g.serial ≠ h.serial) := by
  induction handlers with
  | nil => exact absurd hh List.not_mem_nil
  | cons g handlers ih =>
    obtain ⟨hg, hserials⟩ := List.nodup_cons.mp hserials
    rcases List.mem_cons.mp hh with rfl | hh
    · have hothers : ∀ g ∈ handlers, g.serial ≠ h.serial := by
        intro g hmem heq
        exact hg (heq ▸ List.mem_map_of_mem hmem)
      rw [List.filter_cons_of_neg (by simp), List.filter_eq_self.mpr (by simpa using hothers)]
    · have hne : g.serial ≠ h.serial := by
        rintro heq
        exact hg (heq ▸ List.mem_map_of_mem hh)
      rw [List.filter_cons_of_pos (by simpa using hne)]
      exact ((ih hserials hh).cons g).trans (List.Perm.swap h g _)

theorem working_perm (hserials : (handlers.map SlotHandler.serial).Nodup) (hh : h ∈ handlers) :
    (working handlers).Perm (working [h] ++ working (handlers.filter fun g => g.serial ≠ h.serial)) := by
  rw [← working_append]
  exact ((perm_handler hserials hh).filter _).map _

theorem working_singleton (hworking : h.phase = .working) : working [h] = [h.item] := by
  simp [working, hworking]

theorem working_singleton_of_ne (hphase : h.phase ≠ .working) : working [h] = [] := by
  simp [working, hphase]

/-! ### What the steps do -/

/-- A sender waits only where the buffer is full. -/
def Full (limits : WorkerLimits) (s : MemoryWorker ω) : Prop :=
  s.senders ≠ [] → limits.opsBuffer ≤ s.buffer.length

/-- What is sent goes to the end of the line. -/
theorem queue_send (hinv : WorkerInv s) (hfull : s.Full limits) (handler : Option Nat) :
    (s.send limits item handler).1.queue = s.queue ++ [item] := by
  rcases send_cases limits s item handler with ⟨hloop, hsend⟩ | ⟨-, hroom, hsend⟩ | ⟨-, -, hsend⟩
  · obtain ⟨hbuffer, hsenders⟩ := hinv.idle hloop
    rw [hsend]
    simp [queue, held, hloop, hbuffer, hsenders]
  · have hsenders : s.senders = [] := by
      by_contra hne
      have := hfull hne
      omega
    rw [hsend]
    simp [queue, hsenders]
  · rw [hsend]
    simp [queue]

theorem full_send (hfull : s.Full limits) (handler : Option Nat) :
    (s.send limits item handler).1.Full limits := by
  rcases send_cases limits s item handler with ⟨-, hsend⟩ | ⟨-, -, hsend⟩ | ⟨-, hbuffer, hsend⟩
  · rw [hsend]
    exact hfull
  · rw [hsend]
    intro hne
    have := hfull hne
    rw [List.length_append, List.length_singleton]
    omega
  · rw [hsend]
    exact fun _ => hbuffer

theorem queue_promote : s.promote.queue = s.queue := by
  unfold promote
  split
  · rfl
  · rename_i x rest hsenders
    simp [queue, hsenders]

theorem queue_take (hloop : s.loop = .pulling) : s.take.queue = s.queue := by
  unfold take
  split
  · rename_i hbuffer
    simp [queue, held, hloop, hbuffer]
  · rename_i item rest hbuffer
    simp [queue, held, hloop, hbuffer]

theorem promote_loop : s.promote.loop = s.loop := by
  unfold promote
  split
  · rfl
  · rfl

theorem full_receive (hfull : s.Full limits) : s.promote.take.Full limits := by
  rcases hsenders : s.senders with _ | ⟨x, rest⟩
  · have hpromote : s.promote = s := by
      unfold promote
      rw [hsenders]
    rw [hpromote]
    unfold take Full
    split
    · exact fun hne => absurd hsenders hne
    · exact fun hne => absurd hsenders hne
  · -- one item comes into the buffer, and one leaves it
    have hlong : limits.opsBuffer ≤ s.buffer.length := hfull (by rw [hsenders]; exact List.cons_ne_nil _ _)
    have hbuffer : s.promote.buffer = s.buffer ++ [x.item] := by
      unfold promote
      rw [hsenders]
    intro _
    unfold take
    split
    · rename_i hnil
      exact absurd (hbuffer.symm.trans hnil) (List.append_ne_nil_of_right_ne_nil _ (List.cons_ne_nil _ _))
    · rename_i item tail hcons
      have hlength := congrArg List.length (hbuffer.symm.trans hcons)
      rw [List.length_append, List.length_singleton, List.length_cons] at hlength
      show limits.opsBuffer ≤ tail.length
      omega

/-- Who acknowledges is at work, and is gone. -/
theorem ack_inv (hstep : s.step limits (.ack serial) = some (s', o)) :
    ∃ h, s.handler serial = some h ∧ h.phase = .working ∧ s' = s.finish serial := by
  simp only [step] at hstep
  split at hstep
  · rename_i h hs
    split at hstep
    · rename_i hphase
      exact ⟨h, hs, hphase, (Prod.mk.inj (Option.some_inj.mp hstep)).1.symm⟩
    · cases hstep
  · cases hstep

theorem release_inv (hstep : s.step limits (.release serial) = some (s', o)) :
    ∃ h, s.handler serial = some h ∧ h.phase = .releasing ∧ s' = s.finish serial := by
  simp only [step] at hstep
  split at hstep
  · rename_i h hs
    split at hstep
    · rename_i hphase
      exact ⟨h, hs, hphase, (Prod.mk.inj (Option.some_inj.mp hstep)).1.symm⟩
    · cases hstep
  · cases hstep

/-- Who fails is at work, and sends its operation back or is gone. -/
theorem fail_inv (hstep : s.step limits (.fail serial) = some (s', o)) :
    ∃ h, s.handler serial = some h ∧ h.phase = .working ∧
      (h.item.attempt < limits.maxRetries ∧ s' = s.nack limits h ∨
        limits.maxRetries ≤ h.item.attempt ∧ s' = s.finish serial) := by
  simp only [step] at hstep
  split at hstep
  · rename_i h hs
    split at hstep
    · rename_i hphase
      refine ⟨h, hs, hphase, ?_⟩
      split at hstep
      · rename_i hretry
        exact Or.inl ⟨hretry, (Prod.mk.inj (Option.some_inj.mp hstep)).1.symm⟩
      · rename_i hlast
        exact Or.inr ⟨Nat.le_of_not_lt hlast, (Prod.mk.inj (Option.some_inj.mp hstep)).1.symm⟩
    · cases hstep
  · cases hstep

/-- The phases of the handlers are not in the line. -/
theorem queue_nack (hinv : WorkerInv s) (hfull : s.Full limits) :
    (s.nack limits h).queue = s.queue ++ [nextAttempt h.item] :=
  queue_send hinv hfull (some h.serial)

/-- **The line.**  What is sent goes to its end, and what gets a slot comes from its head. -/
theorem queue_step (hinv : WorkerInv s) (hfull : s.Full limits)
    (hstep : s.step limits a = some (s', o)) :
    s.queue ++ s.sends limits a = s.starts a ++ s'.queue := by
  cases a with
  | produce op =>
    cases workerStep hstep with
    | produce op => simp [sends, produces, retries, starts, queue_send hinv hfull]
    | finish hs hphase ha => simp at ha
  | receive =>
    cases workerStep hstep with
    | receive hloop =>
      rw [queue_take (promote_loop.trans hloop), queue_promote]
      simp [sends, produces, retries, starts]
    | finish hs hphase ha => simp at ha
  | start =>
    cases workerStep hstep with
    | start hloop hroom => simp [sends, produces, retries, starts, queue, held, hloop]
    | finish hs hphase ha => simp at ha
  | ack serial =>
    obtain ⟨h, -, -, rfl⟩ := ack_inv hstep
    simp [sends, produces, retries, starts, queue, finish]
  | fail serial =>
    obtain ⟨h, hs, -, ⟨hretry, rfl⟩ | ⟨hlast, rfl⟩⟩ := fail_inv hstep
    · simp [sends, produces, retries, starts, hs, hretry, queue_nack hinv hfull]
    · have hnone : ¬ h.item.attempt < limits.maxRetries := Nat.not_lt.mpr hlast
      simp [sends, produces, retries, starts, hs, hnone, queue, finish]
  | release serial =>
    obtain ⟨h, -, -, rfl⟩ := release_inv hstep
    simp [sends, produces, retries, starts, queue, finish]

theorem full_step (hfull : s.Full limits) (hstep : s.step limits a = some (s', o)) :
    s'.Full limits := by
  cases workerStep hstep with
  | produce op => exact full_send hfull none
  | receive hloop => exact full_receive hfull
  | start hloop hroom => exact hfull
  | finish hs hphase ha => exact hfull
  | @nack serial h hs hworking hretry => exact full_send hfull (some h.serial)

/-- The handler whose `nack` is through has left its work before. -/
theorem atWork_promote (hinv : WorkerInv s) : (s.promote.atWork).Perm s.atWork := by
  unfold promote
  split
  · exact .refl _
  rename_i x rest hsenders
  rcases hx : x.handler with _ | k
  · exact .refl _
  · obtain ⟨h, hh, rfl, hphase⟩ := hinv.owner x (hsenders ▸ List.mem_cons_self) k hx
    show (working (setPhase s.handlers h.serial .releasing)).Perm (working s.handlers)
    rw [working_setPhase (by decide)]
    have hperm := working_perm hinv.serials hh
    rw [working_singleton_of_ne (by rw [hphase]; decide)] at hperm
    exact hperm.symm

theorem leaves_work (sent : Bool) :
    (if sent = true then HandlerPhase.releasing else .nacking) ≠ .working := by
  cases sent with
  | true => decide
  | false => decide

/-- A handler at work, and the others. -/
theorem atWork_perm (hinv : WorkerInv s) (hs : s.handler serial = some h)
    (hworking : h.phase = .working) :
    s.atWork.Perm (working (s.handlers.filter fun g => g.serial ≠ serial) ++ [h.item]) := by
  obtain ⟨hh, rfl⟩ := handler_some hs
  have hperm := working_perm hinv.serials hh
  rw [working_singleton hworking] at hperm
  exact hperm.trans List.perm_append_comm

/-- **The handlers at work.**  What gets a slot is at work until it is finished or sent back. -/
theorem atWork_step (hinv : WorkerInv s) (hstep : s.step limits a = some (s', o)) :
    (s.atWork ++ s.starts a).Perm (s'.atWork ++ (s.finishes limits a ++ s.retries limits a)) := by
  cases a with
  | produce op =>
    cases workerStep hstep with
    | produce op => simp [starts, finishes, retries, atWork]
    | finish hs hphase ha => simp at ha
  | receive =>
    cases workerStep hstep with
    | receive hloop =>
      have hperm := (atWork_promote hinv).symm
      simpa [starts, finishes, retries, atWork] using hperm
    | finish hs hphase ha => simp at ha
  | start =>
    cases workerStep hstep with
    | @start item hloop hroom =>
      show (working s.handlers ++ s.starts .start).Perm (working (s.handlers ++ [_]) ++ [])
      rw [working_append, working_singleton rfl, List.append_nil]
      simp [starts, held, hloop]
    | finish hs hphase ha => simp at ha
  | ack serial =>
    obtain ⟨h, hs, hworking, rfl⟩ := ack_inv hstep
    have hperm := atWork_perm hinv hs hworking
    simpa [starts, finishes, retries, hs, atWork, finish] using hperm
  | fail serial =>
    obtain ⟨h, hs, hworking, ⟨hretry, rfl⟩ | ⟨hlast, rfl⟩⟩ := fail_inv hstep
    · have hperm := atWork_perm hinv hs hworking
      obtain ⟨hh, rfl⟩ := handler_some hs
      have hnone : ¬ limits.maxRetries ≤ h.item.attempt := Nat.not_le.mpr hretry
      have hwork : (s.nack limits h).atWork =
          working (s.handlers.filter fun g => g.serial ≠ h.serial) := by
        show working (setPhase (s.send limits _ _).1.handlers h.serial _) = _
        rw [send_handlers, working_setPhase (leaves_work _)]
      rw [hwork]
      simpa [starts, finishes, retries, hs, hretry, hnone] using hperm
    · have hperm := atWork_perm hinv hs hworking
      have hnone : ¬ h.item.attempt < limits.maxRetries := Nat.not_lt.mpr hlast
      simpa [starts, finishes, retries, hs, hlast, hnone, atWork, finish] using hperm
  | release serial =>
    obtain ⟨h, hs, hreleasing, rfl⟩ := release_inv hstep
    obtain ⟨hh, rfl⟩ := handler_some hs
    have hperm := working_perm hinv.serials hh
    rw [working_singleton_of_ne (by rw [hreleasing]; decide)] at hperm
    simpa [starts, finishes, retries, atWork, finish] using hperm

/-! ### Runs -/

/-- Where the operations are that were enqueued: finished, at work, or in line. -/
def places (limits : WorkerLimits) (tr : List (WorkerAction ω × Unit)) (s : MemoryWorker ω) :
    List (EnqueuedOp ω) :=
  collected limits (finishes limits) tr ++ s.atWork ++ s.queue

/-- The invariants of the states of a run. -/
structure Accounted (limits : WorkerLimits) (tr : List (WorkerAction ω × Unit))
    (s : MemoryWorker ω) : Prop where
  run : WorkerRun limits {} tr s
  inv : WorkerInv s
  full : s.Full limits

theorem accounted (hrun : WorkerRun limits {} tr s) : Accounted limits tr s :=
  { run := hrun
    inv := hrun.inv (fun _ _ _ _ hinv _ hstep => WorkerInv.step hinv hstep) workerInv_start
    full := hrun.inv (fun _ _ _ _ hfull _ hstep => full_step hfull hstep) fun hne => absurd rfl hne }

theorem collected_snoc {β : Type} {f : MemoryWorker ω → WorkerAction ω → List β}
    (hrun : WorkerRun limits {} tr s) (hstep : s.step limits a = some (s', o)) :
    collected limits f (tr ++ [(a, o)]) = collected limits f tr ++ f s a :=
  Run.collect_snoc hrun hstep

/-- First in, first out. -/
theorem sent_eq (hrun : WorkerRun limits {} tr s) :
    collected limits (sends limits) tr = collected limits starts tr ++ s.queue := by
  refine And.right (a := WorkerRun limits {} tr s) ?_
  refine hrun.forward (P := fun tr s => WorkerRun limits {} tr s ∧
    collected limits (sends limits) tr = collected limits starts tr ++ s.queue)
    (fun tr s a s' o hP _ hstep => ?_) ⟨.nil _, rfl⟩
  obtain ⟨hrun, heq⟩ := hP
  have hacc := accounted hrun
  refine ⟨hrun.append (.cons hstep trivial (.nil _)), ?_⟩
  rw [collected_snoc hrun hstep, collected_snoc hrun hstep, heq, List.append_assoc,
    List.append_assoc, queue_step hacc.inv hacc.full hstep]

/-- What is sent has its place, and what is sent back has lost it. -/
theorem places_step (hrun : WorkerRun limits {} tr s) (hstep : s.step limits a = some (s', o)) :
    (places limits tr s ++ s.sends limits a).Perm
      (places limits (tr ++ [(a, o)]) s' ++ s.retries limits a) := by
  have hacc := accounted hrun
  have hwork := Multiset.coe_eq_coe.mpr (atWork_step hacc.inv hstep)
  have hqueue := congrArg Multiset.ofList (queue_step hacc.inv hacc.full hstep)
  simp only [← Multiset.coe_add] at hwork hqueue
  rw [places, places, collected_snoc hrun hstep, ← Multiset.coe_eq_coe]
  simp only [← Multiset.coe_add]
  generalize (collected limits (finishes limits) tr : Multiset (EnqueuedOp ω)) = done
  calc done + s.atWork + s.queue + s.sends limits a
      = done + (s.atWork + s.starts a) + s'.queue := by
        rw [add_assoc, hqueue]
        abel
    _ = done + s.finishes limits a + s'.atWork + s'.queue + s.retries limits a := by
        rw [hwork]
        abel

/-- What is sent is new, or comes back from a handler at work. -/
theorem sends_cases (hinv : WorkerInv s) (hstep : s.step limits a = some (s', o)) :
    (s.produces a = [] ∧ s.retries limits a = [] ∧ s.sends limits a = []) ∨
    (∃ op, s.produces a = [op] ∧ s.retries limits a = [] ∧ s.sends limits a = [{ op }]) ∨
    ∃ item ∈ s.atWork, item.attempt < limits.maxRetries ∧ s.produces a = [] ∧
      s.retries limits a = [item] ∧ s.sends limits a = [nextAttempt item] := by
  cases a with
  | produce op => exact Or.inr (Or.inl ⟨op, rfl, rfl, rfl⟩)
  | receive => exact Or.inl ⟨rfl, rfl, rfl⟩
  | start => exact Or.inl ⟨rfl, rfl, rfl⟩
  | ack serial => exact Or.inl ⟨rfl, rfl, rfl⟩
  | release serial => exact Or.inl ⟨rfl, rfl, rfl⟩
  | fail serial =>
    obtain ⟨h, hs, hworking, ⟨hretry, -⟩ | ⟨hlast, -⟩⟩ := fail_inv hstep
    · refine Or.inr (Or.inr ⟨h.item, ?_, hretry, rfl, ?_, ?_⟩)
      · exact (atWork_perm hinv hs hworking).mem_iff.mpr List.mem_concat_self
      · simp [retries, hs, hretry]
      · simp [sends, produces, retries, hs, hretry]
    · have hnone : ¬ h.item.attempt < limits.maxRetries := Nat.not_lt.mpr hlast
      refine Or.inl ⟨rfl, ?_, ?_⟩
      · simp [retries, hs, hnone]
      · simp [sends, produces, retries, hs, hnone]

/-- Every operation that was enqueued has one place. -/
theorem produced_perm (hrun : WorkerRun limits {} tr s) :
    (collected limits produces tr).Perm ((places limits tr s).map EnqueuedOp.op) := by
  refine And.right (a := WorkerRun limits {} tr s) ?_
  refine hrun.forward (P := fun tr s => WorkerRun limits {} tr s ∧
    (collected limits produces tr).Perm ((places limits tr s).map EnqueuedOp.op))
    (fun tr s a s' o hP _ hstep => ?_) ⟨.nil _, .refl _⟩
  obtain ⟨hrun, hperm⟩ := hP
  refine ⟨hrun.append (.cons hstep trivial (.nil _)), ?_⟩
  have hplaces := (places_step hrun hstep).map EnqueuedOp.op
  rw [List.map_append, List.map_append] at hplaces
  rw [collected_snoc hrun hstep]
  rcases sends_cases (accounted hrun).inv hstep with ⟨hprod, hretry, hsend⟩ |
    ⟨op, hprod, hretry, hsend⟩ | ⟨item, -, -, hprod, hretry, hsend⟩
  · rw [hretry, hsend, List.map_nil, List.append_nil, List.append_nil] at hplaces
    rw [hprod, List.append_nil]
    exact hperm.trans hplaces
  · rw [hretry, hsend, List.map_nil, List.append_nil] at hplaces
    rw [hprod]
    exact (hperm.append_right _).trans hplaces
  · -- the retry has the operation of the item that was sent back
    rw [hretry, hsend] at hplaces
    rw [hprod, List.append_nil]
    exact hperm.trans ((List.perm_append_right_iff _).mp hplaces)

/-- What has become of one operation: the attempts it was sent for, and its place with the last of
them. -/
structure Trail [DecidableEq ω] (limits : WorkerLimits) (tr : List (WorkerAction ω × Unit))
    (s : MemoryWorker ω) (op : ω) (n : Nat) : Prop where
  bounded : n ≤ max 1 limits.maxRetries
  sent : ((collected limits (sends limits) tr).filter fun item => item.op = op).map
    EnqueuedOp.attempt = List.range' 1 n
  place : ((places limits tr s).filter fun item => item.op = op) =
    if n = 0 then [] else [{ op, attempt := n }]

/-- A step that neither sends an item of the operation nor sends one back. -/
theorem Trail.other [DecidableEq ω] {op : ω} {n : Nat} (h : Trail limits tr s op n)
    (hrun : WorkerRun limits {} tr s) (hstep : s.step limits a = some (s', o))
    (hsends : (s.sends limits a).filter (fun item => item.op = op) = [])
    (hretries : (s.retries limits a).filter (fun item => item.op = op) = []) :
    Trail limits (tr ++ [(a, o)]) s' op n := by
  refine ⟨h.bounded, ?_, ?_⟩
  · rw [collected_snoc hrun hstep, List.filter_append, hsends, List.append_nil]
    exact h.sent
  · have hperm := (places_step hrun hstep).filter fun item => item.op = op
    rw [List.filter_append, List.filter_append, hsends, hretries, List.append_nil,
      List.append_nil, h.place] at hperm
    split at hperm
    · rename_i hzero
      rw [if_pos hzero]
      exact List.nil_perm.mp hperm
    · rename_i hpos
      rw [if_neg hpos]
      exact List.singleton_perm.mp hperm |>.symm

/-- A step that sends the next attempt of the operation, in place of the last one. -/
theorem Trail.next [DecidableEq ω] {op : ω} {n : Nat} (h : Trail limits tr s op n)
    (hrun : WorkerRun limits {} tr s) (hstep : s.step limits a = some (s', o))
    (hbound : n + 1 ≤ max 1 limits.maxRetries)
    (hsends : s.sends limits a = [{ op, attempt := n + 1 }])
    (hretries : s.retries limits a = if n = 0 then [] else [{ op, attempt := n }]) :
    Trail limits (tr ++ [(a, o)]) s' op (n + 1) := by
  refine ⟨hbound, ?_, ?_⟩
  · rw [collected_snoc hrun hstep, List.filter_append, List.map_append, h.sent, hsends,
      List.range'_concat]
    simp [Nat.add_comm]
  · have hperm := (places_step hrun hstep).filter fun item => item.op = op
    have hback : (s.retries limits a).filter (fun item => item.op = op) = s.retries limits a := by
      rw [hretries]
      split
      · rfl
      · simp
    rw [List.filter_append, List.filter_append, hback, h.place, ← hretries, hsends] at hperm
    rw [if_neg (Nat.succ_ne_zero n)]
    have hplace := (List.perm_append_right_iff _).mp (List.perm_append_comm.trans hperm)
    simpa using hplace.symm

/-- **What becomes of an operation** that is enqueued once at most. -/
theorem exists_trail [DecidableEq ω] (hrun : WorkerRun limits {} tr s) (op : ω) :
    (collected limits produces tr).count op ≤ 1 →
      ∃ n, Trail limits tr s op n ∧ (collected limits produces tr).count op = min n 1 := by
  refine And.right (a := WorkerRun limits {} tr s) ?_
  refine hrun.forward (P := fun tr s => WorkerRun limits {} tr s ∧
    ((collected limits produces tr).count op ≤ 1 →
      ∃ n, Trail limits tr s op n ∧ (collected limits produces tr).count op = min n 1))
    (fun tr s a s' o hP _ hstep => ?_) ⟨.nil _, fun _ => ⟨0, ⟨Nat.zero_le _, rfl, rfl⟩, rfl⟩⟩
  obtain ⟨hrun, ih⟩ := hP
  refine ⟨hrun.append (.cons hstep trivial (.nil _)), fun honce => ?_⟩
  rw [collected_snoc hrun hstep, List.count_append] at honce ⊢
  obtain ⟨n, htrail, hcount⟩ := ih (Nat.le_trans (Nat.le_add_right _ _) honce)
  rcases sends_cases (accounted hrun).inv hstep with ⟨hprod, hretry, hsend⟩ |
    ⟨op', hprod, hretry, hsend⟩ | ⟨item, hitem, hlt, hprod, hretry, hsend⟩
  · refine ⟨n, htrail.other hrun hstep (by rw [hsend]; rfl) (by rw [hretry]; rfl), ?_⟩
    rw [hprod, hcount]
    rfl
  · by_cases heq : op' = op
    · -- the operation had not been enqueued before
      subst heq
      rw [hprod, hcount, List.count_singleton_self] at honce
      obtain rfl : n = 0 := by omega
      refine ⟨1, htrail.next hrun hstep (Nat.le_max_left _ _) hsend hretry, ?_⟩
      rw [hprod, hcount, List.count_singleton_self]
      rfl
    · refine ⟨n, htrail.other hrun hstep ?_ (by rw [hretry]; rfl), ?_⟩
      · simp [hsend, heq]
      · simp [hprod, hcount, heq]
  · by_cases heq : item.op = op
    · -- the item that is sent back is the one at the place of the operation
      have hmem : item ∈ (places limits tr s).filter fun item => item.op = op := by
        refine List.mem_filter.mpr ⟨?_, decide_eq_true heq⟩
        exact List.mem_append_left _ (List.mem_append_right _ hitem)
      rw [htrail.place] at hmem
      split at hmem
      · exact absurd hmem List.not_mem_nil
      rename_i hpos
      obtain rfl := List.mem_singleton.mp hmem
      refine ⟨n + 1, htrail.next hrun hstep (Nat.le_trans hlt (Nat.le_max_right _ _)) hsend
        (by rw [hretry, if_neg hpos]), ?_⟩
      rw [hprod, hcount]
      simp
      omega
    · refine ⟨n, htrail.other hrun hstep ?_ ?_, ?_⟩
      · simp [hsend, nextAttempt, heq]
      · simp [hretry, heq]
      · simp [hprod, hcount]

/-- **The operations of the in-memory broker.**  At every moment of every run, whatever the size of
the buffer, the limit and the number of attempts:

* the operations get their slots in the order in which they were sent into the stream, also across
  senders that had to wait;
* every operation that was enqueued is at one place: finished, at work, or in line;
* an operation that was enqueued once was sent for the attempts `1, …, n`, no more than are
  allowed, and is at its place with the last of them. -/
theorem operations_accounted [DecidableEq ω] (limits : WorkerLimits)
    (tr : List (WorkerAction ω × Unit)) (s : MemoryWorker ω) (hrun : WorkerRun limits {} tr s) :
    collected limits (sends limits) tr = collected limits starts tr ++ s.queue ∧
    (collected limits produces tr).Perm ((places limits tr s).map EnqueuedOp.op) ∧
    ∀ op, (collected limits produces tr).count op = 1 →
      ∃ n, 1 ≤ n ∧ n ≤ max 1 limits.maxRetries ∧
        ((collected limits (sends limits) tr).filter fun item => item.op = op).map
          EnqueuedOp.attempt = List.range' 1 n ∧
        ((places limits tr s).filter fun item => item.op = op) = [{ op, attempt := n }] := by
  refine ⟨sent_eq hrun, produced_perm hrun, fun op honce => ?_⟩
  obtain ⟨n, htrail, hcount⟩ := exists_trail hrun op (Nat.le_of_eq honce)
  have hpos : 1 ≤ n := by omega
  have hplace := htrail.place
  rw [if_neg (Nat.pos_iff_ne_zero.mp hpos)] at hplace
  exact ⟨n, hpos, htrail.bounded, htrail.sent, hplace⟩

/-- The first operation has failed and is in line for its second attempt. -/
theorem retry_accounted :
    ∃ tr s, WorkerRun narrow ({} : MemoryWorker Nat) tr s ∧
      s.queue = [{ op := 1, attempt := 2 }] ∧
      (collected narrow produces tr).Perm ((places narrow tr s).map EnqueuedOp.op) := by
  have hrun := run_finalState (step narrow) (fun _ _ => True) ({} : MemoryWorker Nat)
    [.produce 1, .receive, .start, .fail 0] rfl
  exact ⟨_, _, hrun, by decide, (operations_accounted narrow _ _ hrun).2.1⟩

end MemoryWorker

end A2AKit
