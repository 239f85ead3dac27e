/-
A worker on the in-memory broker.

The operations are in a memory stream with a buffer of `opsBuffer` places.  `run_task` and the
`nack` of a handler send into it: an item goes to a waiting receiver, or into the buffer, or its
sender waits until the receiver makes room.  The receiver is the broker loop, which takes an item
and then waits for a slot; a handler gives its slot back after its `nack` is through.

So the loop may wait for a handler that waits for the loop (`Stuck`).  Such a state is entered by
two steps: the last handler that is at work sends its operation back while the buffer is full and
the loop waits for a slot, or the loop takes an item while all handlers wait and a producer is
first in the line of senders (`Closing`).  Without these steps the worker never stops
(`worker_live_iff`).
-/
import Mathlib.Data.List.Nodup
import A2AKit.Dispatch

namespace A2AKit

/-- `_EnqueuedOp` -/
structure EnqueuedOp (ω : Type) where
  op : ω
  attempt : Nat := 1
  deriving DecidableEq, Repr

/-- Who waits to send: the handler with this number, or a producer. -/
structure WaitingSender (ω : Type) where
  item : EnqueuedOp ω
  handler : Option Nat
  deriving DecidableEq, Repr

/-- A handler is at work, waits in `nack`, or has only its slot left to release. -/
inductive HandlerPhase
  | working
  | nacking
  | releasing
  deriving DecidableEq, Repr

structure SlotHandler (ω : Type) where
  serial : Nat
  item : EnqueuedOp ω
  phase : HandlerPhase := .working
  deriving DecidableEq, Repr

/-- The loop is about to receive, waits for an item, or has one and waits for a slot. -/
inductive PullPhase (ω : Type)
  | pulling
  | waiting
  | acquiring (item : EnqueuedOp ω)
  deriving DecidableEq, Repr

structure MemoryWorker (ω : Type) where
  buffer : List (EnqueuedOp ω) := []
  senders : List (WaitingSender ω) := []
  loop : PullPhase ω := .pulling
  handlers : List (SlotHandler ω) := []
  next : Nat := 0
  deriving DecidableEq, Repr

structure WorkerLimits where
  opsBuffer : Nat
  maxConcurrent : Nat
  maxRetries : Nat

inductive WorkerAction (ω : Type)
  | produce (op : ω)
  | receive
  | start
  | ack (serial : Nat)
  | fail (serial : Nat)
  | release (serial : Nat)
  deriving DecidableEq, Repr

namespace MemoryWorker

variable {ω : Type}

/-- The handler is in another phase. -/
def setPhase (handlers : List (SlotHandler ω)) (serial : Nat) (phase : HandlerPhase) :
    List (SlotHandler ω) :=
  handlers.map fun h => if h.serial = serial then { h with phase } else h

/-- `send`: the item was sent, or its sender has to wait. -/
def send (limits : WorkerLimits) (s : MemoryWorker ω) (item : EnqueuedOp ω) (handler : Option Nat) :
    MemoryWorker ω × Bool :=
  match s.loop with
  | .waiting => ({ s with loop := .acquiring item }, true)
  | _ =>
    if s.buffer.length < limits.opsBuffer then ({ s with buffer := s.buffer ++ [item] }, true)
    else ({ s with senders := s.senders ++ [{ item, handler }] }, false)

/-- The first sender in the line is served. -/
def promote (s : MemoryWorker ω) : MemoryWorker ω :=
  match s.senders with
  | [] => s
  | x :: rest =>
    { s with
      buffer := s.buffer ++ [x.item]
      senders := rest
      handlers := match x.handler with
        | none => s.handlers
        | some serial => setPhase s.handlers serial .releasing }

/-- `receive` -/
def take (s : MemoryWorker ω) : MemoryWorker ω :=
  match s.buffer with
  | [] => { s with loop := .waiting }
  | item :: rest => { s with buffer := rest, loop := .acquiring item }

/-- The handler has ended and given its slot back. -/
def finish (s : MemoryWorker ω) (serial : Nat) : MemoryWorker ω :=
  { s with handlers := s.handlers.filter fun h => h.serial ≠ serial }

def handler (s : MemoryWorker ω) (serial : Nat) : Option (SlotHandler ω) :=
  s.handlers.find? fun h => h.serial = serial

/-- `nack` of a handler that has failed. -/
def nack (limits : WorkerLimits) (s : MemoryWorker ω) (h : SlotHandler ω) : MemoryWorker ω :=
  let (s', sent) := s.send limits { op := h.item.op, attempt := h.item.attempt + 1 } (some h.serial)
  { s' with handlers := setPhase s'.handlers h.serial (if sent then .releasing else .nacking) }

/-- What happens next.  A handler whose operation has failed too often marks the task as failed
and acknowledges it. -/
def step (limits : WorkerLimits) (s : MemoryWorker ω) :
    WorkerAction ω → Option (MemoryWorker ω × Unit)
  | .produce op => some ((s.send limits { op } none).1, ())
  | .receive =>
    match s.loop with
    | .pulling => some (s.promote.take, ())
    | _ => none
  | .start =>
    match s.loop with
    | .acquiring item =>
      if s.handlers.length < limits.maxConcurrent then
        some ({ s with
          loop := .pulling
          handlers := s.handlers ++ [{ serial := s.next, item }]
          next := s.next + 1 }, ())
      else none
    | _ => none
  | .ack serial =>
    match s.handler serial with
    | some h => if h.phase = .working then some (s.finish serial, ()) else none
    | none => none
  | .fail serial =>
    match s.handler serial with
    | some h =>
      if h.phase = .working then
        if h.item.attempt < limits.maxRetries then some (s.nack limits h, ())
        else some (s.finish serial, ())
      else none
    | none => none
  | .release serial =>
    match s.handler serial with
    | some h => if h.phase = .releasing then some (s.finish serial, ()) else none
    | none => none

/-- An action of the loop or of a handler. -/
def WorkerAction.ofWorker : WorkerAction ω → Bool
  | .produce _ => false
  | _ => true

/-- There is an operation that is not finished. -/
def Busy (s : MemoryWorker ω) : Prop :=
  s.buffer ≠ [] ∨ s.senders ≠ [] ∨ (∃ item, s.loop = .acquiring item) ∨ s.handlers ≠ []

/-- Where an operation is not finished, the loop or a handler can go on. -/
def Live (limits : WorkerLimits) (s : MemoryWorker ω) : Prop :=
  s.Busy → ∃ a, WorkerAction.ofWorker a = true ∧ (s.step limits a).isSome = true

/-- Every slot is taken by a handler that waits in `nack`. -/
def Clogged (limits : WorkerLimits) (s : MemoryWorker ω) : Prop :=
  limits.maxConcurrent ≤ s.handlers.length ∧ ∀ h ∈ s.handlers, h.phase = .nacking

/-- The loop waits for a slot, and every slot is taken by a handler that waits for the loop. -/
def Stuck (limits : WorkerLimits) (s : MemoryWorker ω) : Prop :=
  (∃ item, s.loop = .acquiring item) ∧ s.Clogged limits

/-- The action closes the circle: the last handler that is not waiting sends its operation back
while the buffer is full and the loop waits for a slot, or the loop takes an item while all
handlers wait and a producer is first in the line. -/
def Closing (limits : WorkerLimits) (s : MemoryWorker ω) : WorkerAction ω → Prop
  | .fail serial =>
    (∃ item, s.loop = .acquiring item) ∧ limits.opsBuffer ≤ s.buffer.length ∧
      limits.maxConcurrent ≤ s.handlers.length ∧
      (∀ h ∈ s.handlers, h.serial ≠ serial → h.phase = .nacking) ∧
      ∀ h ∈ s.handlers, h.serial = serial → h.item.attempt < limits.maxRetries
  | .receive => s.Clogged limits ∧ ∀ x ∈ s.senders.head?, x.handler = none
  | _ => False

abbrev WorkerRun (limits : WorkerLimits) (s : MemoryWorker ω) (tr : List (WorkerAction ω × Unit))
    (s' : MemoryWorker ω) : Prop :=
  Run (step limits) (fun _ _ => True) s tr s'

/-! ### What holds between the stream, the loop and the handlers -/

/-- A waiting receiver has nothing to receive, handlers have their own numbers, and the handlers
that wait in `nack` are those in the line of senders. -/
structure WorkerInv (s : MemoryWorker ω) : Prop where
  idle : s.loop = .waiting → s.buffer = [] ∧ s.senders = []
  serials : (s.handlers.map SlotHandler.serial).Nodup
  fresh : ∀ h ∈ s.handlers, h.serial < s.next
  owner : ∀ x ∈ s.senders, ∀ serial, x.handler = some serial →
    ∃ h ∈ s.handlers, h.serial = serial ∧ h.phase = .nacking
  lined : ∀ h ∈ s.handlers, h.phase = .nacking → ∃ x ∈ s.senders, x.handler = some h.serial
  once : (s.senders.filterMap WaitingSender.handler).Nodup

variable {limits : WorkerLimits} {s s' : MemoryWorker ω} {a : WorkerAction ω} {o : Unit}
  {handlers : List (SlotHandler ω)} {serial : Nat} {phase : HandlerPhase} {g h : SlotHandler ω}

theorem mem_setPhase : h ∈ setPhase handlers serial phase ↔
    ∃ g ∈ handlers, h = if g.serial = serial then { g with phase } else g := by
  simp only [setPhase, List.mem_map, eq_comm]

/-- A handler keeps its number. -/
theorem serials_setPhase :
    (setPhase handlers serial phase).map SlotHandler.serial = handlers.map SlotHandler.serial := by
  rw [setPhase, List.map_map]
  refine List.map_congr_left fun h _ => ?_
  show (if h.serial = serial then { h with phase } else h : SlotHandler ω).serial = h.serial
  split
  · rfl
  · rfl

theorem length_setPhase : (setPhase handlers serial phase).length = handlers.length :=
  List.length_map _

theorem mem_setPhase_self (hg : g ∈ handlers) (hserial : g.serial = serial) :
    { g with phase } ∈ setPhase handlers serial phase :=
  mem_setPhase.mpr ⟨g, hg, (if_pos hserial).symm⟩

theorem mem_setPhase_of_ne (hg : g ∈ handlers) (hserial : g.serial ≠ serial) :
    g ∈ setPhase handlers serial phase :=
  mem_setPhase.mpr ⟨g, hg, (if_neg hserial).symm⟩

theorem handler_some (hs : s.handler serial = some h) : h ∈ s.handlers ∧ h.serial = serial := by
  unfold handler at hs
  have hserial := List.find?_some hs
  exact ⟨List.mem_of_find?_eq_some hs, of_decide_eq_true hserial⟩

namespace WorkerInv

variable (hinv : WorkerInv s)
include hinv

theorem eq_of_serial (hg : g ∈ s.handlers) (hh : h ∈ s.handlers) (heq : g.serial = h.serial) :
    g = h :=
  List.inj_on_of_nodup_map hinv.serials hg hh heq

theorem handler_eq (hh : h ∈ s.handlers) : s.handler h.serial = some h := by
  rcases hs : s.handler h.serial with _ | g
  · exact absurd (decide_eq_true rfl) (List.find?_eq_none.mp hs h hh)
  · obtain ⟨hg, hserial⟩ := handler_some hs
    rw [hinv.eq_of_serial hg hh hserial]

/-- A handler that does not wait can go on. -/
theorem enabled (hh : h ∈ s.handlers) (hphase : h.phase ≠ .nacking) :
    ∃ a, WorkerAction.ofWorker a = true ∧ (s.step limits a).isSome = true := by
  cases hp : h.phase with
  | working => exact ⟨.ack h.serial, rfl, by simp [step, hinv.handler_eq hh, hp]⟩
  | nacking => exact absurd hp hphase
  | releasing => exact ⟨.release h.serial, rfl, by simp [step, hinv.handler_eq hh, hp]⟩

/-- The handler that has ended is gone. -/
theorem finish (hs : s.handler serial = some h) (hphase : h.phase ≠ .nacking) :
    WorkerInv (s.finish serial) := by
  obtain ⟨hh, rfl⟩ := handler_some hs
  have hmem : ∀ {g}, g ∈ (s.finish h.serial).handlers → g ∈ s.handlers :=
    fun hg => (List.mem_filter.mp hg).1
  refine ⟨hinv.idle, hinv.serials.sublist (List.filter_sublist.map _),
    fun g hg => hinv.fresh g (hmem hg), fun x hx k hk => ?_,
    fun g hg hp => hinv.lined g (hmem hg) hp, hinv.once⟩
  obtain ⟨g, hg, rfl, hp⟩ := hinv.owner x hx k hk
  refine ⟨g, List.mem_filter.mpr ⟨hg, decide_eq_true ?_⟩, rfl, hp⟩
  intro heq
  rw [hinv.eq_of_serial hg hh heq] at hp
  exact hphase hp

end WorkerInv

theorem length_finish_lt (hs : s.handler serial = some h) :
    (s.finish serial).handlers.length < s.handlers.length := by
  obtain ⟨hh, rfl⟩ := handler_some hs
  refine List.length_filter_lt_length_iff_exists.mpr ⟨h, hh, ?_⟩
  simp

/-- The three ways in which `send` goes. -/
theorem send_cases (limits : WorkerLimits) (s : MemoryWorker ω) (item : EnqueuedOp ω)
    (handler : Option Nat) :
    (s.loop = .waiting ∧ s.send limits item handler = ({ s with loop := .acquiring item }, true)) ∨
    (s.loop ≠ .waiting ∧ s.buffer.length < limits.opsBuffer ∧
      s.send limits item handler = ({ s with buffer := s.buffer ++ [item] }, true)) ∨
    s.loop ≠ .waiting ∧ limits.opsBuffer ≤ s.buffer.length ∧
      s.send limits item handler = ({ s with senders := s.senders ++ [{ item, handler }] }, false) := by
  unfold send
  split
  · rename_i hloop
    exact Or.inl ⟨hloop, rfl⟩
  · rename_i hloop
    split
    · rename_i hroom
      exact Or.inr (Or.inl ⟨hloop, hroom, rfl⟩)
    · rename_i hfull
      exact Or.inr (Or.inr ⟨hloop, Nat.le_of_not_lt hfull, rfl⟩)

/-- The item of a producer is sent, or it is the last in the line. -/
theorem WorkerInv.produce (hinv : WorkerInv s) (item : EnqueuedOp ω) :
    WorkerInv (s.send limits item none).1 := by
  rcases send_cases limits s item none with ⟨-, hsend⟩ | ⟨hbusy, -, hsend⟩ | ⟨hbusy, -, hsend⟩
  · rw [hsend]
    exact ⟨nofun, hinv.serials, hinv.fresh, hinv.owner, hinv.lined, hinv.once⟩
  · rw [hsend]
    exact ⟨fun hwait => absurd hwait hbusy, hinv.serials, hinv.fresh, hinv.owner, hinv.lined,
      hinv.once⟩
  · rw [hsend]
    refine ⟨fun hwait => absurd hwait hbusy, hinv.serials, hinv.fresh, fun x hx k hk => ?_,
      fun h hh hp => ?_, ?_⟩
    · rcases List.mem_append.mp hx with hx | hx
      · exact hinv.owner x hx k hk
      · obtain rfl := List.mem_singleton.mp hx
        exact nomatch hk
    · obtain ⟨x, hx, hserial⟩ := hinv.lined h hh hp
      exact ⟨x, List.mem_append_left _ hx, hserial⟩
    · show ((s.senders ++ [_]).filterMap _).Nodup
      rw [List.filterMap_append]
      simpa using hinv.once

/-- The first in the line is served. -/
theorem WorkerInv.promote (hinv : WorkerInv s) (hloop : s.loop = .pulling) : WorkerInv s.promote := by
  unfold MemoryWorker.promote
  split
  · exact hinv
  rename_i x rest hsenders
  have honce := hinv.once
  rw [hsenders] at honce
  have hrest : ∀ y ∈ rest, y ∈ s.senders := fun y hy => hsenders ▸ List.mem_cons_of_mem x hy
  rcases hx : x.handler with _ | k
  · rw [List.filterMap_cons_none hx] at honce
    refine ⟨fun h => absurd (hloop.symm.trans h) nofun, hinv.serials, hinv.fresh,
      fun y hy => hinv.owner y (hrest y hy), fun h hh hp => ?_, honce⟩
    obtain ⟨y, hy, hserial⟩ := hinv.lined h hh hp
    rw [hsenders] at hy
    rcases List.mem_cons.mp hy with rfl | hy
    · exact nomatch hx.symm.trans hserial
    · exact ⟨y, hy, hserial⟩
  · rw [List.filterMap_cons_some hx] at honce
    obtain ⟨hnew, honce⟩ := List.nodup_cons.mp honce
    refine ⟨fun h => absurd (hloop.symm.trans h) nofun, ?_, fun h hh => ?_, fun y hy k' hk' => ?_,
      fun h hh hp => ?_, honce⟩
    · rw [serials_setPhase]
      exact hinv.serials
    · obtain ⟨g, hg, rfl⟩ := mem_setPhase.mp hh
      have hlt := hinv.fresh g hg
      split
      · exact hlt
      · exact hlt
    · obtain ⟨h, hh, hserial, hp⟩ := hinv.owner y (hrest y hy) k' hk'
      -- the handler of another sender is another handler
      have hne : h.serial ≠ k := by
        rintro rfl
        refine hnew (List.mem_filterMap.mpr ⟨y, hy, ?_⟩)
        rw [hk', hserial]
      exact ⟨h, mem_setPhase_of_ne hh hne, hserial, hp⟩
    · obtain ⟨g, hg, rfl⟩ := mem_setPhase.mp hh
      split at hp
      · exact nomatch hp
      · rename_i hne
        rw [if_neg hne]
        obtain ⟨y, hy, hserial⟩ := hinv.lined g hg hp
        rw [hsenders] at hy
        rcases List.mem_cons.mp hy with rfl | hy
        · exact absurd (Option.some_inj.mp (hserial.symm.trans hx)) hne
        · exact ⟨y, hy, hserial⟩

/-- Who waits to send has found the buffer full, so a loop that finds nothing has no senders. -/
theorem WorkerInv.take (hinv : WorkerInv s)
    (hsenders : s.buffer = [] → s.senders = []) : WorkerInv s.take := by
  unfold MemoryWorker.take
  split
  · rename_i hbuffer
    exact ⟨fun _ => ⟨hbuffer, hsenders hbuffer⟩, hinv.serials, hinv.fresh, hinv.owner, hinv.lined,
      hinv.once⟩
  · exact ⟨nofun, hinv.serials, hinv.fresh, hinv.owner, hinv.lined, hinv.once⟩

theorem promote_buffer (hbuffer : s.promote.buffer = []) : s.promote.senders = [] := by
  unfold promote at hbuffer ⊢
  split at hbuffer
  · rename_i hsenders
    rw [hsenders]
  · exact absurd hbuffer (List.append_ne_nil_of_right_ne_nil _ (List.cons_ne_nil _ _))

theorem WorkerInv.start (hinv : WorkerInv s) (item : EnqueuedOp ω) :
    WorkerInv { s with
      loop := .pulling
      handlers := s.handlers ++ [{ serial := s.next, item }]
      next := s.next + 1 } := by
  refine ⟨nofun, ?_, fun h hh => ?_, fun x hx k hk => ?_, fun h hh hp => ?_, hinv.once⟩
  · rw [List.map_append]
    refine List.nodup_append.mpr ⟨hinv.serials, List.nodup_singleton _, fun m hm k hk => ?_⟩
    obtain ⟨h, hh, rfl⟩ := List.mem_map.mp hm
    obtain rfl := List.mem_singleton.mp hk
    have hlt := hinv.fresh h hh
    show h.serial ≠ s.next
    omega
  · rcases List.mem_append.mp hh with hh | hh
    · have hlt := hinv.fresh h hh
      show h.serial < s.next + 1
      omega
    · obtain rfl := List.mem_singleton.mp hh
      exact Nat.lt_succ_self s.next
  · obtain ⟨h, hh, hserial, hp⟩ := hinv.owner x hx k hk
    exact ⟨h, List.mem_append_left _ hh, hserial, hp⟩
  · rcases List.mem_append.mp hh with hh | hh
    · exact hinv.lined h hh hp
    · obtain rfl := List.mem_singleton.mp hh
      exact nomatch hp

/-- A handler that is at work sends its operation back. -/
theorem WorkerInv.nack (hinv : WorkerInv s) (hs : s.handler serial = some h)
    (hworking : h.phase = .working) : WorkerInv (s.nack limits h) := by
  obtain ⟨hh, rfl⟩ := handler_some hs
  -- no sender is the handler's, which is not waiting
  have hnone : ∀ x ∈ s.senders, x.handler ≠ some h.serial := by
    intro x hx heq
    obtain ⟨g, hg, hserial, hp⟩ := hinv.owner x hx _ heq
    rw [hinv.eq_of_serial hg hh hserial, hworking] at hp
    exact nomatch hp
  have hserials : ∀ phase, ((setPhase s.handlers h.serial phase).map SlotHandler.serial).Nodup := by
    intro phase
    rw [serials_setPhase]
    exact hinv.serials
  have hfresh : ∀ phase, ∀ g ∈ setPhase s.handlers h.serial phase, g.serial < s.next := by
    intro phase g' hg'
    obtain ⟨g, hg, rfl⟩ := mem_setPhase.mp hg'
    have hlt := hinv.fresh g hg
    split
    · exact hlt
    · exact hlt
  have howner : ∀ phase, ∀ x ∈ s.senders, ∀ k, x.handler = some k →
      ∃ g ∈ setPhase s.handlers h.serial phase, g.serial = k ∧ g.phase = .nacking := by
    intro phase x hx k hk
    obtain ⟨g, hg, hserial, hp⟩ := hinv.owner x hx k hk
    refine ⟨g, mem_setPhase_of_ne hg ?_, hserial, hp⟩
    rintro heq
    exact hnone x hx (by rw [hk, ← hserial, heq])
  have hlined : ∀ g ∈ setPhase s.handlers h.serial .releasing, g.phase = .nacking →
      ∃ x ∈ s.senders, x.handler = some g.serial := by
    intro g' hg' hp
    obtain ⟨g, hg, rfl⟩ := mem_setPhase.mp hg'
    split at hp
    · exact nomatch hp
    · rename_i hne
      rw [if_neg hne]
      exact hinv.lined g hg hp
  unfold MemoryWorker.nack
  rcases send_cases limits s ⟨h.item.op, h.item.attempt + 1⟩ (some h.serial) with
    ⟨-, hsend⟩ | ⟨hbusy, -, hsend⟩ | ⟨hbusy, -, hsend⟩
  · rw [hsend]
    exact ⟨nofun, hserials _, hfresh _, howner _, hlined, hinv.once⟩
  · rw [hsend]
    exact ⟨fun hwait => absurd hwait hbusy, hserials _, hfresh _, howner _, hlined, hinv.once⟩
  · rw [hsend]
    refine ⟨fun hwait => absurd hwait hbusy, hserials _, hfresh _, fun x hx k hk => ?_,
      fun g' hg' hp => ?_, ?_⟩
    · rcases List.mem_append.mp hx with hx | hx
      · exact howner _ x hx k hk
      · obtain rfl := List.mem_singleton.mp hx
        obtain rfl := Option.some_inj.mp hk
        exact ⟨_, mem_setPhase_self hh rfl, rfl, rfl⟩
    · obtain ⟨g, hg, rfl⟩ := mem_setPhase.mp hg'
      split at hp
      · rename_i heq
        rw [if_pos heq]
        exact ⟨_, List.mem_append_right _ (List.mem_singleton_self _), by rw [← heq]⟩
      · rename_i hne
        rw [if_neg hne]
        obtain ⟨x, hx, hserial⟩ := hinv.lined g hg hp
        exact ⟨x, List.mem_append_left _ hx, hserial⟩
    · show ((s.senders ++ [_]).filterMap _).Nodup
      rw [List.filterMap_append]
      refine List.nodup_append.mpr ⟨hinv.once, by simp, fun k hk m hm => ?_⟩
      obtain ⟨x, hx, hserial⟩ := List.mem_filterMap.mp hk
      obtain rfl : m = h.serial := by simpa using hm
      rintro rfl
      exact hnone x hx hserial

/-- What a step does. -/
inductive WorkerStep (limits : WorkerLimits) (s : MemoryWorker ω) :
    WorkerAction ω → MemoryWorker ω → Prop
  | produce (op : ω) : WorkerStep limits s (.produce op) (s.send limits { op } none).1
  | receive : s.loop = .pulling → WorkerStep limits s .receive s.promote.take
  | start {item : EnqueuedOp ω} : s.loop = .acquiring item →
      s.handlers.length < limits.maxConcurrent → WorkerStep limits s .start
        { s with
          loop := .pulling
          handlers := s.handlers ++ [{ serial := s.next, item }]
          next := s.next + 1 }
  | finish {a : WorkerAction ω} {serial : Nat} {h : SlotHandler ω} : s.handler serial = some h →
      h.phase ≠ .nacking → (a = .ack serial ∨ a = .release serial ∨
        a = .fail serial ∧ limits.maxRetries ≤ h.item.attempt) →
      WorkerStep limits s a (s.finish serial)
  | nack {serial : Nat} {h : SlotHandler ω} : s.handler serial = some h → h.phase = .working →
      h.item.attempt < limits.maxRetries → WorkerStep limits s (.fail serial) (s.nack limits h)

theorem workerStep (h : s.step limits a = some (s', o)) : WorkerStep limits s a s' := by
  cases a with
  | produce op =>
    rw [← (Prod.mk.inj (Option.some_inj.mp h)).1]
    exact .produce op
  | receive =>
    simp only [step] at h
    split at h
    · rename_i hloop
      rw [← (Prod.mk.inj (Option.some_inj.mp h)).1]
      exact .receive hloop
    · exact nomatch h
  | start =>
    simp only [step] at h
    split at h
    · rename_i item hloop
      split at h
      · rename_i hroom
        rw [← (Prod.mk.inj (Option.some_inj.mp h)).1]
        exact .start hloop hroom
      · exact nomatch h
    · exact nomatch h
  | ack serial =>
    simp only [step] at h
    split at h
    · rename_i g hs
      split at h
      · rename_i hp
        rw [← (Prod.mk.inj (Option.some_inj.mp h)).1]
        exact .finish hs (by rw [hp]; nofun) (Or.inl rfl)
      · exact nomatch h
    · exact nomatch h
  -- the last attempt gives its slot back, an earlier one waits for its retry
  | fail serial =>
    simp only [step] at h
    split at h
    · rename_i g hs
      split at h
      · rename_i hp
        split at h
        · rename_i hretry
          rw [← (Prod.mk.inj (Option.some_inj.mp h)).1]
          exact .nack hs hp hretry
        · rename_i hlast
          rw [← (Prod.mk.inj (Option.some_inj.mp h)).1]
          exact .finish hs (by rw [hp]; nofun) (Or.inr (Or.inr ⟨rfl, Nat.le_of_not_lt hlast⟩))
      · exact nomatch h
    · exact nomatch h
  | release serial =>
    simp only [step] at h
    split at h
    · rename_i g hs
      split at h
      · rename_i hp
        rw [← (Prod.mk.inj (Option.some_inj.mp h)).1]
        exact .finish hs (by rw [hp]; nofun) (Or.inr (Or.inl rfl))
      · exact nomatch h
    · exact nomatch h

/-- **Every step keeps the invariant.** -/
theorem WorkerInv.step (hinv : WorkerInv s) (h : s.step limits a = some (s', o)) :
    WorkerInv s' := by
  cases workerStep h with
  | produce op => exact hinv.produce _
  | receive hloop => exact (hinv.promote hloop).take promote_buffer
  | start _ _ => exact hinv.start _
  | finish hs hphase _ => exact hinv.finish hs hphase
  | nack hs hworking _ => exact hinv.nack hs hworking

theorem workerInv_start : WorkerInv ({} : MemoryWorker ω) :=
  ⟨nofun, List.nodup_nil, nofun, nofun, nofun, List.nodup_nil⟩

/-! ### Stuck workers -/

/-- A handler that waits has the loop busy. -/
theorem WorkerInv.not_waiting (hinv : WorkerInv s) (hclogged : s.Clogged limits)
    (hpos : 1 ≤ limits.maxConcurrent) :
    s.loop ≠ .waiting ∧ s.senders ≠ [] := by
  obtain ⟨h, hh⟩ := List.exists_mem_of_length_pos (Nat.lt_of_lt_of_le hpos hclogged.1)
  obtain ⟨x, hx, -⟩ := hinv.lined h hh (hclogged.2 h hh)
  have hsenders : s.senders ≠ [] := List.ne_nil_of_mem hx
  exact ⟨fun hloop => hsenders (hinv.idle hloop).2, hsenders⟩

/-- The worker can go on unless it is stuck. -/
theorem live_iff_not_stuck (hinv : WorkerInv s) :
    s.Live limits ↔ ¬ s.Stuck limits := by
  constructor
  · rintro hlive ⟨⟨item, hloop⟩, hfull, hall⟩
    obtain ⟨a, hworker, henabled⟩ := hlive (Or.inr (Or.inr (Or.inl ⟨item, hloop⟩)))
    obtain ⟨⟨s', o⟩, hstep⟩ := Option.isSome_iff_exists.mp henabled
    have hwaits : ∀ {serial h}, s.handler serial = some h → h.phase = .nacking :=
      fun hs => hall _ (handler_some hs).1
    cases a with
    | produce op => exact nomatch hworker
    | receive => simp [step, hloop] at hstep
    | start =>
      have hnone : ¬ s.handlers.length < limits.maxConcurrent := by omega
      simp [step, hloop, hnone] at hstep
    | ack serial =>
      rcases hs : s.handler serial with _ | h
      · simp [step, hs] at hstep
      · simp [step, hs, hwaits hs] at hstep
    | fail serial =>
      rcases hs : s.handler serial with _ | h
      · simp [step, hs] at hstep
      · simp [step, hs, hwaits hs] at hstep
    | release serial =>
      rcases hs : s.handler serial with _ | h
      · simp [step, hs] at hstep
      · simp [step, hs, hwaits hs] at hstep
  · intro hfree hbusy
    by_cases hclogged : ∃ h ∈ s.handlers, h.phase ≠ .nacking
    · obtain ⟨h, hh, hphase⟩ := hclogged
      exact hinv.enabled hh hphase
    have hall : ∀ h ∈ s.handlers, h.phase = .nacking := by
      intro h hh
      by_contra hphase
      exact hclogged ⟨h, hh, hphase⟩
    cases hloop : s.loop with
    | pulling => exact ⟨.receive, rfl, by simp [step, hloop]⟩
    | waiting =>
      -- nothing is in the stream, and a handler that waits would be in the line
      obtain ⟨hbuffer, hsenders⟩ := hinv.idle hloop
      rcases hbusy with h | h | ⟨item, h⟩ | h
      · exact absurd hbuffer h
      · exact absurd hsenders h
      · exact nomatch hloop.symm.trans h
      · obtain ⟨g, hg⟩ := List.exists_mem_of_ne_nil _ h
        obtain ⟨x, hx, -⟩ := hinv.lined g hg (hall g hg)
        rw [hsenders] at hx
        exact nomatch hx
    | acquiring item =>
      have hroom : s.handlers.length < limits.maxConcurrent := by
        by_contra hfull
        exact hfree ⟨⟨item, hloop⟩, Nat.le_of_not_lt hfull, hall⟩
      exact ⟨.start, rfl, by simp [step, hloop, hroom]⟩

/-- A handler that ends leaves a slot. -/
theorem finish_not_stuck (hslots : s.handlers.length ≤ limits.maxConcurrent)
    (hs : s.handler serial = some h) : ¬ (s.finish serial).Stuck limits := by
  rintro ⟨-, hfull, -⟩
  have hlt := length_finish_lt hs
  omega

@[simp] theorem send_handlers (item : EnqueuedOp ω) (handler : Option Nat) :
    (s.send limits item handler).1.handlers = s.handlers := by
  rcases send_cases limits s item handler with ⟨-, hsend⟩ | ⟨-, -, hsend⟩ | ⟨-, -, hsend⟩
  · rw [hsend]
  · rw [hsend]
  · rw [hsend]

@[simp] theorem take_handlers : s.take.handlers = s.handlers := by
  unfold take
  split
  · rfl
  · rfl

theorem length_promote : s.promote.handlers.length = s.handlers.length := by
  unfold promote
  split
  · rfl
  · split
    · rfl
    · exact length_setPhase

/-- The slots bound the handlers. -/
theorem slots_step (hslots : s.handlers.length ≤ limits.maxConcurrent)
    (h : s.step limits a = some (s', o)) : s'.handlers.length ≤ limits.maxConcurrent := by
  cases workerStep h with
  | produce op =>
    rw [send_handlers]
    exact hslots
  | receive _ =>
    rw [take_handlers, length_promote]
    exact hslots
  | start _ hroom =>
    show (s.handlers ++ [_]).length ≤ _
    rw [List.length_append, List.length_singleton]
    omega
  | finish hs _ _ =>
    have hlt := length_finish_lt hs
    omega
  | nack _ _ _ =>
    unfold nack
    rw [length_setPhase, send_handlers]
    exact hslots

/-- A step that does not close the circle leaves a worker that can go on. -/
theorem not_stuck_step (hpos : 1 ≤ limits.maxConcurrent) (hinv : WorkerInv s)
    (hslots : s.handlers.length ≤ limits.maxConcurrent) (hfree : ¬ s.Stuck limits)
    (h : s.step limits a = some (s', o)) (hopen : ¬ s.Closing limits a) : ¬ s'.Stuck limits := by
  cases workerStep h with
  | produce op =>
    rintro ⟨⟨item, hloop⟩, hclogged⟩
    have hclogged' : s.Clogged limits := by
      rw [Clogged, send_handlers] at hclogged
      exact hclogged
    refine hfree ⟨?_, hclogged'⟩
    rcases send_cases limits s { op } none with ⟨hwait, -⟩ | ⟨-, -, hsend⟩ | ⟨-, -, hsend⟩
    · exact absurd hwait (hinv.not_waiting hclogged' hpos).1
    · rw [hsend] at hloop
      exact ⟨item, hloop⟩
    · rw [hsend] at hloop
      exact ⟨item, hloop⟩
  | receive hloop =>
    rintro ⟨-, hclogged⟩
    refine hopen ?_
    rw [Clogged, take_handlers, length_promote] at hclogged
    obtain ⟨hfull, hall⟩ := hclogged
    unfold promote at hall
    split at hall
    · rename_i hsenders
      refine ⟨⟨hfull, hall⟩, ?_⟩
      rw [hsenders]
      nofun
    · rename_i x rest hsenders
      rcases hx : x.handler with _ | k
      · rw [hx] at hall
        refine ⟨⟨hfull, hall⟩, ?_⟩
        rw [hsenders]
        rintro y ⟨⟩
        exact hx
      · -- the handler that is served has its slot to release
        rw [hx] at hall
        obtain ⟨g, hg, hserial, -⟩ := hinv.owner x (hsenders ▸ List.mem_cons_self) k hx
        exact nomatch hall _ (mem_setPhase_self hg hserial)
  | start hloop _ =>
    rintro ⟨⟨item, hloop'⟩, -⟩
    exact nomatch hloop'
  | finish hs _ _ => exact finish_not_stuck hslots hs
  | @nack serial g hs hworking hretry =>
    obtain ⟨hg, rfl⟩ := handler_some hs
    rintro ⟨⟨item, hloop⟩, hfull, hall⟩
    unfold nack at hloop hfull hall
    have hreleased : ∀ {handlers : List (SlotHandler ω)}, handlers = s.handlers →
        ¬ ∀ h ∈ setPhase handlers g.serial .releasing, h.phase = .nacking := by
      rintro _ rfl hall
      exact nomatch hall _ (mem_setPhase_self hg rfl)
    rcases send_cases limits s ⟨g.item.op, g.item.attempt + 1⟩ (some g.serial) with
      ⟨-, hsend⟩ | ⟨-, -, hsend⟩ | ⟨-, hbuffer, hsend⟩
    · rw [hsend] at hall
      exact hreleased rfl hall
    · rw [hsend] at hall
      exact hreleased rfl hall
    · rw [hsend] at hloop hfull hall
      rw [length_setPhase] at hfull
      refine hopen ⟨⟨item, hloop⟩, hbuffer, hfull, fun h hh hne => ?_, fun h hh heq => ?_⟩
      · exact hall h (mem_setPhase_of_ne hh hne)
      · rw [hinv.eq_of_serial hh hg heq]
        exact hretry

/-- A step that closes the circle leaves a worker that is stuck. -/
theorem stuck_step (hpos : 1 ≤ limits.maxConcurrent) (hinv : WorkerInv s)
    (h : s.step limits a = some (s', o)) (hclosing : s.Closing limits a) : s'.Stuck limits := by
  cases workerStep h with
  | produce op => exact hclosing.elim
  | receive hloop =>
    obtain ⟨⟨hfull, hall⟩, hhead⟩ := hclosing
    obtain ⟨-, hsenders⟩ := hinv.not_waiting ⟨hfull, hall⟩ hpos
    obtain ⟨x, rest, hcons⟩ := List.exists_cons_of_ne_nil hsenders
    have hx : x.handler = none := hhead x (by rw [hcons]; rfl)
    have hpromote : s.promote = { s with buffer := s.buffer ++ [x.item], senders := rest } := by
      unfold promote
      rw [hcons]
      simp only [hx]
    have hnext : ∃ item, s.promote.take.loop = .acquiring item := by
      unfold take
      split
      · rename_i hbuffer
        rw [hpromote] at hbuffer
        exact absurd hbuffer (List.append_ne_nil_of_right_ne_nil _ (List.cons_ne_nil _ _))
      · exact ⟨_, rfl⟩
    refine ⟨hnext, ?_⟩
    rw [Clogged, take_handlers, hpromote]
    exact ⟨hfull, hall⟩
  | start _ _ => exact hclosing.elim
  | @finish a serial g hs hphase ha =>
    rcases ha with rfl | rfl | ⟨rfl, hlast⟩
    · exact hclosing.elim
    · exact hclosing.elim
    · -- the operation is not sent back
      obtain ⟨hg, hserial⟩ := handler_some hs
      have hretry := hclosing.2.2.2.2 g hg hserial
      omega
  | @nack serial g hs _ _ =>
    obtain ⟨hg, rfl⟩ := handler_some hs
    obtain ⟨⟨item, hloop⟩, hbuffer, hfull, hothers, -⟩ := hclosing
    unfold nack
    rcases send_cases limits s ⟨g.item.op, g.item.attempt + 1⟩ (some g.serial) with
      ⟨hwait, -⟩ | ⟨-, hroom, -⟩ | ⟨-, -, hsend⟩
    · exact nomatch hloop.symm.trans hwait
    · omega
    · rw [hsend]
      refine ⟨⟨item, hloop⟩, ?_, fun h hh => ?_⟩
      · rw [length_setPhase]
        exact hfull
      · obtain ⟨g', hg', rfl⟩ := mem_setPhase.mp hh
        split
        · rfl
        · rename_i hne
          exact hothers g' hg' hne

/-- **When a worker on the in-memory broker never stops.**  For every buffer size and every limit
of at least one: at every moment of a run at which an operation is not finished, the loop or a
handler can go on, if and only if no step of the run closes the circle. -/
theorem worker_live_iff (limits : WorkerLimits) (hpos : 1 ≤ limits.maxConcurrent)
    {tr : List (WorkerAction ω × Unit)} {s : MemoryWorker ω} (hrun : WorkerRun limits {} tr s) :
    Run.Throughout (step limits) (fun _ _ => True) {} tr (Live limits) ↔
      Run.Avoids (step limits) (fun _ _ => True) {} tr (Closing limits) := by
  refine hrun.throughout_iff_avoids
    (J := fun s => WorkerInv s ∧ s.handlers.length ≤ limits.maxConcurrent)
    ⟨workerInv_start, Nat.zero_le _⟩ ?_ (fun u a v o hu _ _ _ hstep => ?_)
    fun u a v o hu hlive _ hstep => ?_
  · exact (live_iff_not_stuck workerInv_start).mpr fun hstuck => nomatch hstuck.1.choose_spec
  · exact ⟨hu.1.step hstep, slots_step hu.2 hstep⟩
  · rw [live_iff_not_stuck (hu.1.step hstep)]
    have hfree := (live_iff_not_stuck hu.1).mp hlive
    refine ⟨fun hv hclosing => hv (stuck_step hpos hu.1 hstep hclosing), fun hopen => ?_⟩
    exact not_stuck_step hpos hu.1 hu.2 hfree hstep hopen

/-! ### Two runs -/

/-- One slot and one place in the buffer. -/
def narrow : WorkerLimits := { opsBuffer := 1, maxConcurrent := 1, maxRetries := 3 }

/-- The first operation is at work, the loop has pulled the second one, the third one fills the
buffer, and the handler sends the first one back. -/
def fullBufferRun : List (WorkerAction Nat) :=
  [.produce 1, .receive, .start, .produce 2, .receive, .produce 3, .fail 0]

/-- The loop waits for the slot of a handler that waits for the loop. -/
theorem worker_stuck :
    ∃ tr s, WorkerRun narrow ({} : MemoryWorker Nat) tr s ∧ s.Busy ∧
      (¬ ∃ a, WorkerAction.ofWorker a = true ∧ (s.step narrow a).isSome = true) ∧
      (∀ h ∈ s.handlers, h.phase = .nacking) ∧ narrow.opsBuffer ≤ s.buffer.length := by
  have hrun := run_finalState (step narrow) (fun _ _ => True) ({} : MemoryWorker Nat)
    fullBufferRun rfl
  have hinv := hrun.inv (fun _ _ _ _ h _ hstep => WorkerInv.step h hstep) workerInv_start
  have hstuck : (finalState (step narrow) (fun _ _ => True) ({} : MemoryWorker Nat)
      fullBufferRun).Stuck narrow :=
    ⟨⟨{ op := 2 }, by decide⟩, by decide, by decide⟩
  obtain ⟨hbusy, hnone⟩ := Classical.not_imp.mp fun hlive =>
    (live_iff_not_stuck hinv).mp hlive hstuck
  exact ⟨_, _, hrun, hbusy, hnone, hstuck.2.2, by decide⟩

/-- The handler sends its operation back while there is a place in the buffer. -/
theorem worker_retries :
    ∃ tr s, WorkerRun narrow ({} : MemoryWorker Nat) tr s ∧ s.buffer = [{ op := 1, attempt := 2 }] ∧
      Run.Throughout (step narrow) (fun _ _ => True) {} tr (Live narrow) := by
  have hrun := run_finalState (step narrow) (fun _ _ => True) ({} : MemoryWorker Nat)
    [.produce 1, .receive, .start, .fail 0] rfl
  refine ⟨_, _, hrun, by decide, (worker_live_iff narrow (Nat.le_refl 1) hrun).mpr ?_⟩
  refine .cons rfl not_false (.cons rfl (fun hclosing => ?_) (.cons rfl not_false
    (.cons rfl (fun hclosing => ?_) .nil)))
  · exact absurd hclosing.1.1 (by decide)
  · obtain ⟨item, hloop⟩ := hclosing.1
    exact nomatch hloop

end MemoryWorker

end A2AKit
