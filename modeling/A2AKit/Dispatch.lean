/-
The broker loop of a worker.

`_broker_loop` waits for the next handle, then for a slot of the semaphore, and starts a handler.
The handler gives its slot back when it ends, however that happens.  The broker is any broker: it
may deliver at any time, raise, or end the iterator.

A handle is pulled before its slot is acquired.  So no operation is ever pulled with a slot in hand,
and the limit is no backpressure for any operation at all (`backpressure_iff`); the number of
operations that were received and are not finished exceeds the limit as soon as something is
delivered while every slot is taken, and only then (`unfinished_le_iff`).
-/
import A2AKit.Runs
import Mathlib.Tactic.Common

namespace A2AKit

/-- Where `_broker_loop` stands: it waits for the next handle, it has one and waits for a slot, it
sleeps after an exception, or it is done. -/
inductive LoopPhase (η : Type)
  | receiving
  | acquiring (handle : η)
  | backoff
  | stopped
  deriving DecidableEq, Repr

/-- The loop, the handlers that are at work, by serial numbers, and how often the semaphore was
acquired and not released. -/
structure Dispatcher (η : Type) where
  loop : LoopPhase η := .receiving
  running : List (Nat × η) := []
  taken : Nat := 0
  next : Nat := 0
  deriving DecidableEq, Repr

inductive DispatchAction (η : Type)
  | receive (handle : η)
  | start
  | finish (serial : Nat)
  | fail
  | resume
  | close
  | cancel
  deriving DecidableEq, Repr

namespace Dispatcher

variable {η : Type}

/-- `anyio.Semaphore(max_concurrent_tasks) if max_concurrent_tasks else None` has a slot. -/
def hasSlot (maxConcurrent : Nat) (taken : Nat) : Bool := maxConcurrent = 0 || taken < maxConcurrent

/-- What happens next: a handle is delivered, the loop starts its handler, a handler ends with an
ack, a nack or neither, the iterator raises and is entered again after a while, it ends, or the
server shuts down and the loop leaves its handle behind. -/
def step (maxConcurrent : Nat) (d : Dispatcher η) :
    DispatchAction η → Option (Dispatcher η × Unit)
  | .receive handle =>
    match d.loop with
    | .receiving => some ({ d with loop := .acquiring handle }, ())
    | _ => none
  | .start =>
    match d.loop with
    | .acquiring handle =>
      if hasSlot maxConcurrent d.taken then
        some ({ loop := .receiving, running := d.running ++ [(d.next, handle)]
                taken := d.taken + 1, next := d.next + 1 }, ())
      else none
    | _ => none
  | .finish serial =>
    if d.running.any fun h => h.1 = serial then
      some ({ d with
        running := d.running.filter fun h => h.1 ≠ serial
        taken := d.taken - 1 }, ())
    else none
  | .fail =>
    match d.loop with
    | .receiving => some ({ d with loop := .backoff }, ())
    | _ => none
  | .resume =>
    match d.loop with
    | .backoff => some ({ d with loop := .receiving }, ())
    | _ => none
  | .close =>
    match d.loop with
    | .receiving => some ({ d with loop := .stopped }, ())
    | _ => none
  | .cancel => some ({ d with loop := .stopped }, ())

/-- The handle that the loop has pulled. -/
def LoopPhase.pulled : LoopPhase η → Nat
  | .acquiring _ => 1
  | _ => 0

/-- How many operations were received and are not finished. -/
def unfinished (d : Dispatcher η) : Nat := d.running.length + LoopPhase.pulled d.loop

/-- A run of the loop, with any broker. -/
abbrev DispatchRun (maxConcurrent : Nat) (d : Dispatcher η) (tr : List (DispatchAction η × Unit))
    (d' : Dispatcher η) : Prop :=
  Run (step maxConcurrent) (fun _ _ => True) d tr d'

variable {n : Nat} {d d' : Dispatcher η} {a : DispatchAction η} {o : Unit}

/-- Only a delivery adds to what is unfinished. -/
theorem unfinished_step (h : step n d a = some (d', o)) :
    d'.unfinished ≤ d.unfinished ∨
      (∃ handle, a = .receive handle) ∧ d'.unfinished = d.running.length + 1 := by
  cases a with
  | receive handle =>
    simp only [step] at h
    split at h
    · obtain ⟨rfl, -⟩ := Prod.mk.inj (Option.some_inj.mp h)
      exact Or.inr ⟨⟨handle, rfl⟩, rfl⟩
    · exact nomatch h
  | start =>
    simp only [step] at h
    split at h
    · rename_i handle hloop
      split at h
      · obtain ⟨rfl, -⟩ := Prod.mk.inj (Option.some_inj.mp h)
        left
        simp [unfinished, LoopPhase.pulled, hloop]
      · exact nomatch h
    · exact nomatch h
  | finish serial =>
    simp only [step] at h
    split at h
    · obtain ⟨rfl, -⟩ := Prod.mk.inj (Option.some_inj.mp h)
      left
      have hle := List.length_filter_le (fun h : Nat × η => h.1 ≠ serial) d.running
      exact Nat.add_le_add_right hle _
    · exact nomatch h
  | cancel =>
    obtain ⟨rfl, -⟩ := Prod.mk.inj (Option.some_inj.mp h)
    left
    show d.running.length + 0 ≤ d.running.length + LoopPhase.pulled d.loop
    omega
  | _ =>
    -- the iterator raises or ends, or is entered again
    simp only [step] at h
    split at h
    · rename_i hloop
      obtain ⟨rfl, -⟩ := Prod.mk.inj (Option.some_inj.mp h)
      left
      simp [unfinished, LoopPhase.pulled]
    · exact nomatch h

/-- An operation is delivered while every slot is taken. -/
def Overtaken (n : Nat) (d : Dispatcher η) : DispatchAction η → Prop
  | .receive _ => n ≤ d.running.length
  | _ => False

theorem unfinished_le_step (h : step n d a = some (d', o)) (hd : d.unfinished ≤ n) :
    d'.unfinished ≤ n ↔ ¬ Overtaken n d a := by
  rcases unfinished_step h with hle | ⟨⟨handle, rfl⟩, heq⟩
  · refine ⟨fun _ hover => ?_, fun _ => Nat.le_trans hle hd⟩
    cases a with
    | receive handle =>
      have hfull : n ≤ d.running.length := hover
      simp only [step] at h
      split at h
      · obtain ⟨rfl, -⟩ := Prod.mk.inj (Option.some_inj.mp h)
        have hcount : d.running.length + 1 ≤ d.unfinished := hle
        omega
      · exact nomatch h
    | _ => exact hover
  · show _ ↔ ¬ n ≤ d.running.length
    omega

/-- **When the limit holds.**  In a run of a worker with the limit `n` and any broker, at most `n`
operations are received and not finished at every moment, if and only if the broker delivers
nothing while `n` handlers are at work. -/
theorem unfinished_le_iff (n : Nat) {tr : List (DispatchAction η × Unit)} {d : Dispatcher η}
    (hrun : DispatchRun n {} tr d) :
    Run.Throughout (step n) (fun _ _ => True) {} tr (fun d => d.unfinished ≤ n) ↔
      Run.Avoids (step n) (fun _ _ => True) {} tr (Overtaken n) :=
  hrun.throughout_iff_avoids (J := fun _ => True) trivial (Nat.zero_le n)
    (fun _ _ _ _ _ _ _ _ _ => trivial) fun _ _ _ _ _ hd _ hstep => unfinished_le_step hstep hd

/-! ### Slots in hand -/

/-- Every handler has its own slot, and nobody else has one. -/
structure SlotsKept (d : Dispatcher η) : Prop where
  taken : d.taken = d.running.length
  fresh : ∀ h ∈ d.running, h.1 < d.next
  serials : (d.running.map Prod.fst).Nodup

theorem length_filter_serial {running : List (Nat × η)} {serial : Nat}
    (hnodup : (running.map Prod.fst).Nodup) (hin : running.any (fun h => h.1 = serial) = true) :
    (running.filter fun h => h.1 ≠ serial).length = running.length - 1 := by
  induction running with
  | nil => simp at hin
  | cons h rest ih =>
    obtain ⟨hnew, hrest⟩ := List.nodup_cons.mp hnodup
    by_cases heq : h.1 = serial
    · subst heq
      have hall : (rest.filter fun h' => h'.1 ≠ h.1) = rest := by
        refine List.filter_eq_self.mpr fun h' hmem => decide_eq_true fun hsame => ?_
        exact hnew (hsame ▸ List.mem_map_of_mem hmem)
      rw [List.filter_cons_of_neg (by simp), hall]
      rfl
    · have hlater : rest.any (fun h => h.1 = serial) = true := by simpa [heq] using hin
      have hpos : 0 < rest.length := List.length_pos_of_mem (List.any_eq_true.mp hlater).choose_spec.1
      rw [List.filter_cons_of_pos (by simpa using heq), List.length_cons, ih hrest hlater,
        List.length_cons]
      omega

theorem SlotsKept.step (hd : SlotsKept d) (h : step n d a = some (d', o)) : SlotsKept d' := by
  cases a with
  | start =>
    simp only [Dispatcher.step] at h
    split at h
    · split at h
      · obtain ⟨rfl, -⟩ := Prod.mk.inj (Option.some_inj.mp h)
        refine ⟨?_, fun h' hmem => ?_, ?_⟩
        · simp [hd.taken]
        · rcases List.mem_append.mp hmem with hmem | hmem
          · exact Nat.lt_succ_of_lt (hd.fresh h' hmem)
          · rw [List.mem_singleton.mp hmem]
            exact Nat.lt_succ_self _
        · rw [List.map_append, List.nodup_append]
          refine ⟨hd.serials, List.pairwise_singleton .., fun x hx y hy => ?_⟩
          obtain ⟨h', hmem, rfl⟩ := List.mem_map.mp hx
          rw [List.mem_singleton.mp hy]
          exact Nat.ne_of_lt (hd.fresh h' hmem)
      · exact nomatch h
    · exact nomatch h
  | finish serial =>
    simp only [Dispatcher.step] at h
    split at h
    · rename_i hin
      obtain ⟨rfl, -⟩ := Prod.mk.inj (Option.some_inj.mp h)
      refine ⟨?_, fun h' hmem => hd.fresh h' (List.mem_of_mem_filter hmem), ?_⟩
      · show d.taken - 1 = _
        rw [length_filter_serial hd.serials hin, hd.taken]
      · exact hd.serials.sublist (List.filter_sublist.map _)
    · exact nomatch h
  | cancel =>
    obtain ⟨rfl, -⟩ := Prod.mk.inj (Option.some_inj.mp h)
    exact { hd with }
  | _ =>
    -- the loop moves, and no slot does
    simp only [Dispatcher.step] at h
    split at h
    · obtain ⟨rfl, -⟩ := Prod.mk.inj (Option.some_inj.mp h)
      exact { hd with }
    · exact nomatch h

/-- The loop has acquired a slot that no handler works in. -/
def SlotInHand (d : Dispatcher η) : Prop := d.running.length < d.taken

/-- An operation is pulled without a slot in hand. -/
def PullsEmptyHanded (d : Dispatcher η) : DispatchAction η → Prop
  | .receive _ => ¬ d.SlotInHand
  | _ => False

/-- The limit is backpressure in a run: at most `n` operations are received and not finished at
every moment, and one is pulled only when a slot is held for it. -/
def Backpressure (n : Nat) (tr : List (DispatchAction η × Unit)) : Prop :=
  Run.Throughout (step n) (fun _ _ => True) ({} : Dispatcher η) tr (fun d => d.unfinished ≤ n) ∧
    Run.Avoids (step n) (fun _ _ => True) {} tr PullsEmptyHanded

/-- **The limit is backpressure only where nothing is pulled.**  In a run of a worker with the limit
`n` and any broker, it is backpressure if and only if the broker delivers no operation at all. -/
theorem backpressure_iff (n : Nat) {tr : List (DispatchAction η × Unit)} {d : Dispatcher η}
    (hrun : DispatchRun n {} tr d) :
    Backpressure n tr ↔ ∀ handle o, (DispatchAction.receive handle, o) ∉ tr := by
  constructor
  · rintro ⟨-, hpulls⟩ handle o hmem
    obtain ⟨before, after, rfl⟩ := List.append_of_mem hmem
    obtain ⟨u, hbefore, -⟩ := hrun.split
    have hkept : SlotsKept u := hbefore.inv (fun _ _ _ _ hd _ hstep => hd.step hstep)
      ⟨rfl, nofun, List.nodup_nil⟩
    refine hpulls before _ o after u rfl hbefore ?_
    show ¬ u.running.length < u.taken
    rw [hkept.taken]
    exact Nat.lt_irrefl _
  · intro hnone
    refine ⟨(unfinished_le_iff n hrun).mpr fun before a o after u htr _ hover => ?_,
      fun before a o after u htr _ hpulls => ?_⟩
    all_goals
      have hmem : (a, o) ∈ tr := htr ▸ List.mem_append_right _ List.mem_cons_self
      cases a with
      | receive handle => exact hnone handle o hmem
      | _ => assumption

/-- The iterator raises, is entered again and ends. -/
theorem idle_backpressure :
    ∃ tr d, DispatchRun 1 ({} : Dispatcher Bool) tr d ∧ d.loop = .stopped ∧
      Backpressure (η := Bool) 1 tr := by
  have hrun := run_finalState (step 1) (fun _ _ => True) ({} : Dispatcher Bool)
    [.fail, .resume, .close] rfl
  refine ⟨_, _, hrun, by decide, (backpressure_iff 1 hrun).mpr fun handle o hmem => ?_⟩
  revert hmem
  cases handle <;> cases o <;> decide

/-- The second operation comes after the first one is finished. -/
theorem spaced_operations_within_limit :
    ∃ tr d, DispatchRun 1 ({} : Dispatcher Bool) tr d ∧ d.loop = .acquiring false ∧
      Run.Throughout (step 1) (fun _ _ => True) {} tr fun d => d.unfinished ≤ 1 := by
  have hrun := run_finalState (step 1) (fun _ _ => True) ({} : Dispatcher Bool)
    [.receive true, .start, .finish 0, .receive false] rfl
  refine ⟨_, _, hrun, by decide, (unfinished_le_iff 1 hrun).mpr ?_⟩
  -- no handler is at work when an operation is delivered
  refine .cons rfl (show ¬ 1 ≤ 0 by omega) (.cons rfl not_false (.cons rfl not_false
    (.cons rfl (show ¬ 1 ≤ 0 by omega) .nil)))

/-- With the limit one, a second operation is pulled while the first one is at work and has the only
slot. -/
theorem second_operation_pulled :
    ∃ tr d, DispatchRun 1 ({} : Dispatcher Bool) tr d ∧ d.unfinished = 2 ∧
      d.loop = .acquiring false ∧ d.running.length = 1 ∧ d.taken = 1 ∧
      ¬ Backpressure (η := Bool) 1 tr := by
  have hrun := run_finalState (step 1) (fun _ _ => True) ({} : Dispatcher Bool)
    [.receive true, .start, .receive false] rfl
  refine ⟨_, _, hrun, by decide, by decide, by decide, by decide, fun hback => ?_⟩
  have htwo := hback.1 _ [] _ (List.append_nil _).symm hrun
  exact absurd htwo (by decide)

end Dispatcher

end A2AKit
