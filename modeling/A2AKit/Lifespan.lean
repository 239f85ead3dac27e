/-
The lifespan of a server.

`lifespan` starts the delivery service and the dependencies, enters the storage, the broker, the
event bus and the worker loop, serves, and takes everything down again.  Any call may raise or be
cancelled.

* `lifespan_released` — what was entered is left in reverse order, the worker loop before the
  backends it uses and all of them before the dependencies, and when each step of the teardown is
  taken.
-/
import A2AKit.Middleware
import A2AKit.Scopes

namespace A2AKit

/-- What `async with storage, broker, event_bus, adapter.run()` enters. -/
inductive Resource
  | storage
  | broker
  | eventBus
  | workers
  deriving DecidableEq, Repr

inductive LifespanEvent
  | startDelivery
  | startDependencies
  | enter (r : Resource)
  | serve
  | awaitBackground (task : Nat)
  | shutdownEmitter
  | shutdownDelivery
  | closeCancelRegistry
  | shutdownBroker
  | leave (r : Resource)
  | shutdownDependencies
  deriving DecidableEq, Repr

/-- Whether push notifications are on, whether the cancel registry has a `close`, and the background
tasks that are left at the end. -/
structure LifespanConfig where
  pushNotifications : Bool
  closableRegistry : Bool
  backgroundTasks : Nat

abbrev LifespanM := Act (Logged LifespanEvent Failure) Unit Failure

namespace Lifespan

open LifespanEvent

/-- A step of the teardown; a background task is awaited with its cancellation suppressed. -/
def teardownStep : LifespanEvent → LifespanM Unit
  | .awaitBackground i =>
    tryCatchThe Failure (Act.call (.awaitBackground i)) fun
      | .cancelled => return ()
      | .exception => throw .exception
  | e => Act.call e

/-- The steps of the teardown.  Of the emitters only `PushDeliveryEmitter` has a `shutdown`. -/
def teardownSteps (cfg : LifespanConfig) : List LifespanEvent :=
  (List.range cfg.backgroundTasks).map awaitBackground ++
    ((if cfg.pushNotifications then [shutdownEmitter, shutdownDelivery] else []) ++
      if cfg.closableRegistry then [closeCancelRegistry] else [])

def teardown (cfg : LifespanConfig) : LifespanM Unit :=
  Act.sequence teardownStep (teardownSteps cfg)

/-- What runs inside `adapter.run()`, with the shutdown of the broker at its end. -/
def serving (cfg : LifespanConfig) : LifespanM Unit :=
  ((Act.call serve).ensure (teardown cfg)).ensure (Act.call shutdownBroker)

def resources : List Resource := [.storage, .broker, .eventBus, .workers]

def resourceEvents (r : Resource) : LifespanEvent × LifespanEvent := (enter r, leave r)

/-- `lifespan` -/
def lifespan (cfg : LifespanConfig) : LifespanM Unit := do
  if cfg.pushNotifications then Act.call startDelivery
  Act.call startDependencies
  (Act.scopes (resources.map resourceEvents) (serving cfg)).ensure (Act.call shutdownDependencies)

abbrev LifespanLog := CallLog LifespanEvent Failure

/-- The calls of a lifespan. -/
def lifespanLog (cfg : LifespanConfig)
    (raises : LifespanLog → LifespanEvent → Option Failure) : LifespanLog :=
  ((lifespan cfg).eval (Act.logCall raises) () []).2.2

/-! ### What a log says -/

def enters? : LifespanEvent → Option Resource
  | enter r => some r
  | _ => none

def leaves? : LifespanEvent → Option Resource
  | leave r => some r
  | _ => none

/-- The resources that were entered, in order. -/
def entered (log : LifespanLog) : List Resource := Bracketed.entered enters? log

/-- The resources that were left, in order. -/
def left (log : LifespanLog) : List Resource := Bracketed.left leaves? log

def Called (e : LifespanEvent) (log : LifespanLog) : Prop := e ∈ log.map Prod.fst

/-- The step does not keep the next one from being taken. -/
def passes : LifespanEvent → Option Failure → Prop
  | awaitBackground _, x => x ≠ some .exception
  | _, x => x = none

/-- Everything but the teardown's steps leaves the resources alone. -/
theorem names : Bracketed.Names enters? leaves? resourceEvents where
  opens_enter _ := rfl
  opens_leave _ := rfl
  closes_enter _ := rfl
  closes_leave _ := rfl

/-! ### Logs -/

theorem logs_teardownStep (e : LifespanEvent) :
    Act.Logs (teardownStep e) fun r l => ∃ x, l = [(e, x)] ∧ (passes e x ↔ r = .ok ()) := by
  have hcall : Act.Logs (Act.call e : LifespanM Unit) fun r l =>
      ∃ x, l = [(e, x)] ∧ (x = none ↔ r = .ok ()) := by
    refine (Act.logs_call e).mono fun r l h => ?_
    obtain ⟨x, rfl, rfl⟩ := h
    refine ⟨x, rfl, ?_⟩
    cases x <;> simp [Act.ended]
  cases e with
  | awaitBackground i =>
    refine (Act.logs_tryCatch (Act.logs_call (awaitBackground i))
      (Q := fun x r l => l = [] ∧ r = if x = .cancelled then .ok () else .error x)
      fun x => ?_).mono fun r l h => ?_
    · cases x with
      | cancelled => exact (Act.logs_pure ()).mono fun r l h => ⟨h.2, h.1⟩
      | exception => exact (Act.logs_throw _).mono fun r l h => ⟨h.2, h.1⟩
    · rcases h with ⟨a, rfl, x, hx, rfl⟩ | ⟨x, l₁, l₂, rfl, ⟨y, hy, rfl⟩, rfl, rfl⟩
      · refine ⟨x, rfl, ?_⟩
        cases x with
        | none => simp [passes]
        | some x => cases hx
      · refine ⟨y, rfl, ?_⟩
        cases y with
        | none => cases hy
        | some y =>
          obtain rfl := Except.error.inj hy
          cases x <;> simp [passes]
  | _ => exact hcall

theorem logs_teardown (cfg : LifespanConfig) :
    Act.Logs (teardown cfg) fun _ => Sequenced passes (teardownSteps cfg) :=
  Act.logs_sequence logs_teardownStep _

/-- The log of `serving`. -/
def Served (cfg : LifespanConfig) (l : LifespanLog) : Prop :=
  ∃ x td y, l = (serve, x) :: (td ++ [(shutdownBroker, y)]) ∧ Sequenced passes (teardownSteps cfg) td

theorem logs_serving (cfg : LifespanConfig) : Act.Logs (serving cfg) fun _ => Served cfg := by
  refine (Act.logs_ensure (Act.logs_ensure (Act.logs_call serve) (logs_teardown cfg))
    (Act.logs_call shutdownBroker)).mono fun r l h => ?_
  obtain ⟨_, _, _, _, -, rfl, ⟨_, _, _, td, -, rfl, ⟨x, -, rfl⟩, htd⟩, y, -, rfl⟩ := h
  exact ⟨x, td, y, rfl, htd⟩

/-- The log of the part that starts with the resources. -/
def Entering (cfg : LifespanConfig) (l : LifespanLog) : Prop :=
  ∃ mid y, l = mid ++ [(shutdownDependencies, y)] ∧
    Bracketed (Served cfg) (resources.map resourceEvents) mid

/-- The log of a lifespan: it ends where the start of the delivery service or of the dependencies
raises. -/
def Lived (cfg : LifespanConfig) (l : LifespanLog) : Prop :=
  ∃ pre, (∀ q ∈ pre, q.1 = startDelivery) ∧ pre.length ≤ 1 ∧
    (l = pre ∨ (∃ x, l = pre ++ [(startDependencies, some x)]) ∨
      ∃ rest, l = pre ++ (startDependencies, none) :: rest ∧ Entering cfg rest)

/-- The part of `lifespan` after the start of the delivery service. -/
theorem logs_dependencies (cfg : LifespanConfig) :
    Act.Logs (do
      Act.call startDependencies
      (Act.scopes (resources.map resourceEvents) (serving cfg)).ensure
        (Act.call shutdownDependencies) : LifespanM Unit) fun _ l =>
      (∃ x, l = [(startDependencies, some x)]) ∨
        ∃ rest, l = (startDependencies, none) :: rest ∧ Entering cfg rest := by
  refine (Act.logs_bind (Act.logs_call startDependencies) fun _ => Act.logs_ensure
    (Act.logs_scopes (logs_serving cfg) _) (Act.logs_call shutdownDependencies)).mono fun r l h => ?_
  rcases h with ⟨x, -, y, hy, rfl⟩ | ⟨_, _, _, rfl, ⟨x, hx, rfl⟩, _, mid, _, _, -, rfl, hmid, y, -, rfl⟩
  · cases y with
    | none => cases hy
    | some y => exact Or.inl ⟨y, rfl⟩
  · cases x with
    | some x => cases hx
    | none => exact Or.inr ⟨mid ++ [(shutdownDependencies, y)], rfl, mid, y, rfl, hmid⟩

theorem logs_lifespan (cfg : LifespanConfig) : Act.Logs (lifespan cfg) fun _ => Lived cfg := by
  unfold lifespan
  split
  · refine (Act.logs_bind (Act.logs_call startDelivery) fun _ => logs_dependencies cfg).mono
      fun r l h => ?_
    rcases h with ⟨x, -, y, -, rfl⟩ | ⟨_, _, l₂, rfl, ⟨x, -, rfl⟩, hrest⟩
    · exact ⟨[(startDelivery, y)], fun q hq => by rw [List.mem_singleton.mp hq], le_refl _,
        Or.inl rfl⟩
    · refine ⟨[(startDelivery, x)], fun q hq => by rw [List.mem_singleton.mp hq], le_refl _,
        Or.inr (hrest.imp ?_ ?_)⟩
      · rintro ⟨y, rfl⟩
        exact ⟨y, rfl⟩
      · rintro ⟨rest, rfl, hentering⟩
        exact ⟨rest, rfl, hentering⟩
  · refine (logs_dependencies cfg).mono fun r l hrest => ?_
    exact ⟨[], fun q hq => absurd hq List.not_mem_nil, Nat.zero_le _, Or.inr hrest⟩

theorem lived (cfg : LifespanConfig) (raises : LifespanLog → LifespanEvent → Option Failure) :
    Lived cfg (lifespanLog cfg raises) := by
  obtain ⟨r, s', l, heval, hl⟩ := logs_lifespan cfg raises () []
  rw [lifespanLog, heval]
  exact hl

/-! ### The innermost part -/

theorem nodup_teardownSteps (cfg : LifespanConfig) : (teardownSteps cfg).Nodup := by
  unfold teardownSteps
  refine List.nodup_append.mpr ⟨?_, ?_, fun e he e' he' => ?_⟩
  · exact List.nodup_range.map fun i j h => awaitBackground.inj h
  · cases cfg.pushNotifications <;> cases cfg.closableRegistry <;> decide
  · obtain ⟨i, -, rfl⟩ := List.mem_map.mp he
    rintro rfl
    cases hp : cfg.pushNotifications <;> cases hc : cfg.closableRegistry <;> simp [hp, hc] at he'

/-- A step of the teardown is none of the other events. -/
theorem teardownStep_kind {cfg : LifespanConfig} {e : LifespanEvent} (he : e ∈ teardownSteps cfg) :
    (∃ i, e = awaitBackground i) ∨ e = shutdownEmitter ∨ e = shutdownDelivery ∨
      e = closeCancelRegistry := by
  rcases List.mem_append.mp he with he | he
  · obtain ⟨i, -, rfl⟩ := List.mem_map.mp he
    exact Or.inl ⟨i, rfl⟩
  · refine Or.inr ?_
    cases hp : cfg.pushNotifications <;> cases hc : cfg.closableRegistry <;>
      simp [hp, hc] at he <;> tauto

namespace Served

variable {cfg : LifespanConfig} {l : LifespanLog}

/-- The events of `serving`. -/
theorem kind (h : Served cfg l) {q : LifespanEvent × Option Failure} (hq : q ∈ l) :
    q.1 = serve ∨ q.1 ∈ teardownSteps cfg ∨ q.1 = shutdownBroker := by
  obtain ⟨x, td, y, rfl, htd⟩ := h
  rcases List.mem_cons.mp hq with rfl | hq
  · exact Or.inl rfl
  rcases List.mem_append.mp hq with hq | hq
  · exact Or.inr (Or.inl (htd.prefix_steps.subset (List.mem_map_of_mem hq)))
  · rw [List.mem_singleton.mp hq]
    exact Or.inr (Or.inr rfl)

theorem outside (h : Served cfg l) {q : LifespanEvent × Option Failure} (hq : q ∈ l) :
    enters? q.1 = none ∧ leaves? q.1 = none := by
  rcases h.kind hq with heq | hstep | heq
  · rw [heq]
    exact ⟨rfl, rfl⟩
  · obtain ⟨i, heq⟩ | heq | heq | heq := teardownStep_kind hstep <;> rw [heq] <;> exact ⟨rfl, rfl⟩
  · rw [heq]
    exact ⟨rfl, rfl⟩

theorem nodup (h : Served cfg l) : (l.map Prod.fst).Nodup := by
  obtain ⟨x, td, y, rfl, htd⟩ := h
  have hsteps : ∀ e ∈ td.map Prod.fst, e ∈ teardownSteps cfg := fun e he => htd.prefix_steps.subset he
  have hother : ∀ e ∈ td.map Prod.fst, e ≠ serve ∧ e ≠ shutdownBroker := by
    intro e he
    obtain ⟨i, rfl⟩ | rfl | rfl | rfl := teardownStep_kind (hsteps e he) <;> simp
  rw [List.map_cons, List.map_append, List.map_singleton]
  refine List.nodup_cons.mpr ⟨fun hmem => ?_, ?_⟩
  · rcases List.mem_append.mp hmem with hmem | hmem
    · exact (hother _ hmem).1 rfl
    · cases List.mem_singleton.mp hmem
  · refine List.nodup_append.mpr ⟨(nodup_teardownSteps cfg).sublist htd.prefix_steps.sublist,
      List.nodup_singleton _, fun e he e' he' => ?_⟩
    rw [List.mem_singleton.mp he']
    exact (hother e he).2

end Served

/-! ### Released resources -/

/-- What a log has to say about the resources. -/
structure Released (cfg : LifespanConfig) (log : LifespanLog) : Prop where
  /-- What was entered is left in reverse order. -/
  reversed : left log = (entered log).reverse
  ordered : entered log <+: resources
  once : (log.map Prod.fst).Nodup
  needed : entered log ≠ [] → (startDependencies, none) ∈ log
  served : Called serve log ↔ entered log = resources
  stopped : Called shutdownBroker log ↔ entered log = resources
  /-- The broker is told to stop while everything is still there. -/
  held : ∀ before after x, log = before ++ (shutdownBroker, x) :: after →
    left before = [] ∧ entered after = []
  dependencies : Called shutdownDependencies log ↔ (startDependencies, none) ∈ log
  last : Called shutdownDependencies log →
    (log.map Prod.fst).getLast? = some shutdownDependencies
  /-- Each step of the teardown is taken unless an earlier one raises. -/
  steps : ∀ before e after, teardownSteps cfg = before ++ e :: after →
    (Called e log ↔ entered log = resources ∧ ∀ e' ∈ before, ∃ x, (e', x) ∈ log ∧ passes e' x)

section

variable {cfg : LifespanConfig} {log pre mid : LifespanLog} {e : LifespanEvent}

theorem called_append {l l' : LifespanLog} : Called e (l ++ l') ↔ Called e l ∨ Called e l' := by
  rw [Called, List.map_append, List.mem_append]
  rfl

theorem called_cons {q : LifespanEvent × Option Failure} {l : LifespanLog} :
    Called e (q :: l) ↔ e = q.1 ∨ Called e l := by
  rw [Called, List.map_cons, List.mem_cons]
  rfl

theorem not_called_of_forall {l : LifespanLog} (h : ∀ q ∈ l, q.1 ≠ e) : ¬ Called e l := by
  intro hmem
  obtain ⟨q, hq, heq⟩ := List.mem_map.mp hmem
  exact h q hq heq

theorem entered_eq_nil {l : LifespanLog} (h : ∀ q ∈ l, enters? q.1 = none) : entered l = [] := by
  refine List.filterMap_eq_nil_iff.mpr fun q hq => ?_
  rw [h q hq, ite_self]

theorem left_eq_nil {l : LifespanLog} (h : ∀ q ∈ l, leaves? q.1 = none) : left l = [] :=
  List.filterMap_eq_nil_iff.mpr h

/-- A log in which neither the resources nor the dependencies are there. -/
theorem released_of_early (hearly : ∀ q ∈ log, q.1 = startDelivery ∨ ∃ x, q = (startDependencies, some x))
    (honce : (log.map Prod.fst).Nodup) : Released cfg log := by
  have hnot : ∀ e, e ≠ startDelivery → e ≠ startDependencies → ¬ Called e log := by
    intro e hdelivery hdependencies
    refine not_called_of_forall fun q hq => ?_
    rcases hearly q hq with heq | ⟨x, rfl⟩
    · rw [heq]
      exact hdelivery.symm
    · exact hdependencies.symm
  have hentered : entered log = [] := by
    refine entered_eq_nil fun q hq => ?_
    rcases hearly q hq with heq | ⟨x, rfl⟩
    · rw [heq]
      rfl
    · rfl
  have hleft : left log = [] := by
    refine left_eq_nil fun q hq => ?_
    rcases hearly q hq with heq | ⟨x, rfl⟩
    · rw [heq]
      rfl
    · rfl
  have hstart : (startDependencies, none) ∉ log := by
    intro hmem
    rcases hearly _ hmem with heq | ⟨x, heq⟩
    · cases heq
    · cases heq
  have hall : entered log ≠ resources := by
    rw [hentered]
    exact (List.cons_ne_nil _ _).symm
  refine { reversed := by rw [hentered, hleft]; rfl
           ordered := by rw [hentered]; exact List.nil_prefix
           once := honce
           needed := fun hne => absurd hentered hne
           served := iff_of_false (hnot _ (by simp) (by simp)) hall
           stopped := iff_of_false (hnot _ (by simp) (by simp)) hall
           held := fun before after x heq => ?_
           dependencies := iff_of_false (hnot _ (by simp) (by simp)) hstart
           last := fun hcalled => absurd hcalled (hnot _ (by simp) (by simp))
           steps := fun before e after hsteps => iff_of_false (hnot e ?_ ?_) fun h => hall h.1 }
  · refine absurd ?_ (hnot shutdownBroker (by simp) (by simp))
    rw [heq, called_append, called_cons]
    exact Or.inr (Or.inl rfl)
  · have hmem : e ∈ teardownSteps cfg := hsteps ▸ List.mem_append_right _ List.mem_cons_self
    obtain ⟨i, rfl⟩ | rfl | rfl | rfl := teardownStep_kind hmem <;> simp
  · have hmem : e ∈ teardownSteps cfg := hsteps ▸ List.mem_append_right _ List.mem_cons_self
    obtain ⟨i, rfl⟩ | rfl | rfl | rfl := teardownStep_kind hmem <;> simp

/-- The events between the start and the shutdown of the dependencies. -/
theorem inside_kind (hmid : Bracketed (Served cfg) (resources.map resourceEvents) mid)
    {q : LifespanEvent × Option Failure} (hq : q ∈ mid) :
    (∃ r, q.1 = enter r ∨ q.1 = leave r) ∨ q.1 = serve ∨ q.1 ∈ teardownSteps cfg ∨
      q.1 = shutdownBroker := by
  rcases Bracketed.mem_events hmid hq with ⟨r, -, heq⟩ | ⟨l, hserved, hq⟩
  · exact Or.inl ⟨r, heq⟩
  · exact Or.inr (hserved.kind hq)

/-- None of them is an event of the delivery service or of the dependencies. -/
theorem inside_ne (hmid : Bracketed (Served cfg) (resources.map resourceEvents) mid)
    {q : LifespanEvent × Option Failure} (hq : q ∈ mid) :
    q.1 ≠ startDelivery ∧ q.1 ≠ startDependencies ∧ q.1 ≠ shutdownDependencies := by
  rcases inside_kind hmid hq with ⟨r, heq | heq⟩ | heq | hstep | heq
  · rw [heq]
    simp
  · rw [heq]
    simp
  · rw [heq]
    simp
  · obtain ⟨i, heq⟩ | heq | heq | heq := teardownStep_kind hstep <;> rw [heq] <;> simp
  · rw [heq]
    simp

theorem entered_nil_of_served {l : LifespanLog} (h : Served cfg l) : entered l = [] ∧ left l = [] :=
  ⟨entered_eq_nil fun _ hq => (h.outside hq).1, left_eq_nil fun _ hq => (h.outside hq).2⟩

/-- Where all resources were entered, `serving` was run between them; elsewhere it was not run. -/
theorem inside_cases (hmid : Bracketed (Served cfg) (resources.map resourceEvents) mid) :
    (entered mid = resources ∧ ∃ l₁ l₂ l₃, mid = l₁ ++ (l₂ ++ l₃) ∧ Served cfg l₂ ∧
        (∀ q ∈ l₁, ∃ r, q.1 = enter r) ∧ ∀ q ∈ l₃, ∃ r, q.1 = leave r) ∨
      entered mid ≠ resources ∧ ∀ q ∈ mid, ∃ r, q.1 = enter r ∨ q.1 = leave r := by
  refine (Bracketed.inner names (fun _ => entered_nil_of_served) hmid).imp_right fun ⟨hlength, hall⟩ => ?_
  refine ⟨fun heq => ?_, hall⟩
  have hlt : (entered mid).length < resources.length := hlength
  rw [heq] at hlt
  exact Nat.lt_irrefl _ hlt

/-- The event is none of a resource. -/
def Apart (e : LifespanEvent) : Prop := ∀ r, e ≠ enter r ∧ e ≠ leave r

theorem apart_of_step (he : e ∈ teardownSteps cfg) : Apart e := by
  obtain ⟨i, rfl⟩ | rfl | rfl | rfl := teardownStep_kind he <;> exact fun r => ⟨by simp, by simp⟩

/-- Between the resources `serving` was run with `l`, if all were entered. -/
theorem inside_apart (hmid : Bracketed (Served cfg) (resources.map resourceEvents) mid) :
    (entered mid = resources ∧ ∃ l, Served cfg l ∧ ∀ q, Apart q.1 → (q ∈ mid ↔ q ∈ l)) ∨
      entered mid ≠ resources ∧ ∀ q, Apart q.1 → q ∉ mid := by
  rcases inside_cases hmid with ⟨hall, l₁, l, l₃, rfl, hserved, hl₁, hl₃⟩ | ⟨hshort, hl⟩
  · refine Or.inl ⟨hall, l, hserved, fun q hq => ?_⟩
    have hnot₁ : q ∉ l₁ := fun hmem => (hl₁ q hmem).elim fun r heq => (hq r).1 heq
    have hnot₃ : q ∉ l₃ := fun hmem => (hl₃ q hmem).elim fun r heq => (hq r).2 heq
    rw [List.mem_append, List.mem_append]
    tauto
  · refine Or.inr ⟨hshort, fun q hq hmem => ?_⟩
    obtain ⟨r, heq | heq⟩ := hl q hmem
    · exact (hq r).1 heq
    · exact (hq r).2 heq

/-- An event of `serving` is called where all resources were entered and `serving` calls it. -/
theorem called_inside (hmid : Bracketed (Served cfg) (resources.map resourceEvents) mid)
    {P : Prop} (he : Apart e) (hserved : ∀ l, Served cfg l →
      (∀ q, Apart q.1 → (q ∈ mid ↔ q ∈ l)) → (Called e l ↔ P)) :
    Called e mid ↔ entered mid = resources ∧ P := by
  have hiff : ∀ l l' : LifespanLog, (∀ q, Apart q.1 → (q ∈ l ↔ q ∈ l')) → Called e l → Called e l' := by
    intro l l' h hcalled
    obtain ⟨q, hq, rfl⟩ := List.mem_map.mp hcalled
    exact List.mem_map_of_mem ((h q he).mp hq)
  rcases inside_apart hmid with ⟨hall, l, hl, hmem⟩ | ⟨hshort, hnone⟩
  · rw [and_iff_right hall, ← hserved l hl hmem]
    exact ⟨hiff _ _ hmem, hiff _ _ fun q hq => (hmem q hq).symm⟩
  · refine iff_of_false (fun hcalled => ?_) fun h => hshort h.1
    obtain ⟨q, hq, rfl⟩ := List.mem_map.mp hcalled
    exact hnone q he hq

theorem called_serve (hmid : Bracketed (Served cfg) (resources.map resourceEvents) mid) :
    Called serve mid ↔ entered mid = resources := by
  refine (called_inside hmid (P := True) (fun r => ⟨by simp, by simp⟩) fun l hl _ => ?_).trans
    (and_iff_left trivial)
  obtain ⟨x, td, y, rfl, -⟩ := hl
  exact iff_of_true List.mem_cons_self trivial

theorem called_shutdownBroker (hmid : Bracketed (Served cfg) (resources.map resourceEvents) mid) :
    Called shutdownBroker mid ↔ entered mid = resources := by
  refine (called_inside hmid (P := True) (fun r => ⟨by simp, by simp⟩) fun l hl _ => ?_).trans
    (and_iff_left trivial)
  obtain ⟨x, td, y, rfl, -⟩ := hl
  refine iff_of_true (called_cons.mpr (Or.inr (called_append.mpr (Or.inr ?_)))) trivial
  exact List.mem_cons_self

theorem called_step (hmid : Bracketed (Served cfg) (resources.map resourceEvents) mid)
    {before after : List LifespanEvent} (hsteps : teardownSteps cfg = before ++ e :: after) :
    Called e mid ↔ entered mid = resources ∧
      ∀ e' ∈ before, ∃ x, (e', x) ∈ mid ∧ passes e' x := by
  have hmem : ∀ e', e' ∈ before ++ e :: after → e' ∈ teardownSteps cfg := fun e' h => hsteps ▸ h
  have he : e ∈ teardownSteps cfg := hmem e (List.mem_append_right _ List.mem_cons_self)
  refine called_inside hmid (apart_of_step he) fun l hl hiff => ?_
  obtain ⟨x, td, y, rfl, htd⟩ := hl
  -- an event of a step is one of the teardown
  have hin : ∀ e' x', e' ∈ teardownSteps cfg →
      ((e', x') ∈ (serve, x) :: (td ++ [(shutdownBroker, y)]) ↔ (e', x') ∈ td) := by
    intro e' x' he'
    have hserve : e' ≠ serve := by
      obtain ⟨i, rfl⟩ | rfl | rfl | rfl := teardownStep_kind he' <;> simp
    have hbroker : e' ≠ shutdownBroker := by
      obtain ⟨i, rfl⟩ | rfl | rfl | rfl := teardownStep_kind he' <;> simp
    simp [hserve, hbroker]
  have hcalled : Called e ((serve, x) :: (td ++ [(shutdownBroker, y)])) ↔ e ∈ td.map Prod.fst := by
    constructor
    · intro h
      obtain ⟨q, hq, rfl⟩ := List.mem_map.mp h
      exact List.mem_map_of_mem ((hin q.1 q.2 he).mp hq)
    · intro h
      obtain ⟨q, hq, rfl⟩ := List.mem_map.mp h
      exact List.mem_map_of_mem ((hin q.1 q.2 he).mpr hq)
  rw [hcalled, htd.mem_iff (nodup_teardownSteps cfg) hsteps]
  refine forall₂_congr fun e' he' => exists_congr fun x' => and_congr_left' ?_
  have hstep := hmem e' (List.mem_append_left _ he')
  rw [hiff (e', x') (apart_of_step hstep), hin e' x' hstep]

/-- Before the broker is told to stop nothing is left, and after it nothing is entered. -/
theorem held_inside (hmid : Bracketed (Served cfg) (resources.map resourceEvents) mid)
    (hcalled : Called shutdownBroker mid) :
    ∃ l₁ l₂ y, mid = l₁ ++ (shutdownBroker, y) :: l₂ ∧ left l₁ = [] ∧ entered l₂ = [] := by
  rcases inside_cases hmid with ⟨-, l₁, l, l₃, rfl, hserved, hl₁, hl₃⟩ | ⟨hshort, -⟩
  · have hinside := hserved
    obtain ⟨x, td, y, rfl, htd⟩ := hserved
    refine ⟨l₁ ++ (serve, x) :: td, l₃, y, by simp, left_eq_nil fun q hq => ?_,
      entered_eq_nil fun q hq => ?_⟩
    · rcases List.mem_append.mp hq with hq | hq
      · obtain ⟨r, heq⟩ := hl₁ q hq
        rw [heq]
        rfl
      · refine (hinside.outside ?_).2
        rw [← List.cons_append]
        exact List.mem_append_left _ hq
    · obtain ⟨r, heq⟩ := hl₃ q hq
      rw [heq]
      rfl
  · exact absurd ((called_shutdownBroker hmid).mp hcalled) hshort

/-- The log around what happens while the dependencies are there. -/
def around (pre mid : LifespanLog) (y : Option Failure) : LifespanLog :=
  pre ++ (startDependencies, none) :: (mid ++ [(shutdownDependencies, y)])

variable {y : Option Failure}

theorem entered_around (hpre : ∀ q ∈ pre, q.1 = startDelivery) :
    entered (around pre mid y) = entered mid := by
  have hnone : entered pre = [] := entered_eq_nil fun q hq => by rw [hpre q hq]; rfl
  have hend : entered [(shutdownDependencies, y)] = [] := by cases y <;> rfl
  calc entered (around pre mid y)
      = entered pre ++ entered ((startDependencies, none) :: (mid ++ [(shutdownDependencies, y)])) :=
        Bracketed.entered_append _ _
    _ = entered (mid ++ [(shutdownDependencies, y)]) := by rw [hnone]; rfl
    _ = entered mid ++ entered [(shutdownDependencies, y)] := Bracketed.entered_append _ _
    _ = entered mid := by rw [hend, List.append_nil]

theorem left_around (hpre : ∀ q ∈ pre, q.1 = startDelivery) :
    left (around pre mid y) = left mid := by
  have hnone : left pre = [] := left_eq_nil fun q hq => by rw [hpre q hq]; rfl
  calc left (around pre mid y)
      = left pre ++ left ((startDependencies, none) :: (mid ++ [(shutdownDependencies, y)])) :=
        Bracketed.left_append _ _
    _ = left (mid ++ [(shutdownDependencies, y)]) := by rw [hnone]; rfl
    _ = left mid ++ left [(shutdownDependencies, y)] := Bracketed.left_append _ _
    _ = left mid := List.append_nil _

theorem mem_around (hpre : ∀ q ∈ pre, q.1 = startDelivery) {q : LifespanEvent × Option Failure}
    (hdelivery : q.1 ≠ startDelivery) (hstart : q.1 ≠ startDependencies)
    (hshutdown : q.1 ≠ shutdownDependencies) : q ∈ around pre mid y ↔ q ∈ mid := by
  have hnot : q ∉ pre := fun hq => hdelivery (hpre q hq)
  have hfirst : q ≠ (startDependencies, none) := fun heq => hstart (heq ▸ rfl)
  have hlast : q ≠ (shutdownDependencies, y) := fun heq => hshutdown (heq ▸ rfl)
  simp [around, hnot, hfirst, hlast]

theorem called_around (hpre : ∀ q ∈ pre, q.1 = startDelivery) (hdelivery : e ≠ startDelivery)
    (hstart : e ≠ startDependencies) (hshutdown : e ≠ shutdownDependencies) :
    Called e (around pre mid y) ↔ Called e mid := by
  constructor
  · intro h
    obtain ⟨q, hq, rfl⟩ := List.mem_map.mp h
    exact List.mem_map_of_mem ((mem_around hpre hdelivery hstart hshutdown).mp hq)
  · intro h
    obtain ⟨q, hq, rfl⟩ := List.mem_map.mp h
    exact List.mem_map_of_mem ((mem_around hpre hdelivery hstart hshutdown).mpr hq)

theorem nodup_around (hpre : ∀ q ∈ pre, q.1 = startDelivery) (hlength : pre.length ≤ 1)
    (hmid : Bracketed (Served cfg) (resources.map resourceEvents) mid) :
    ((around pre mid y).map Prod.fst).Nodup := by
  have hmid_nodup : (mid.map Prod.fst).Nodup := Bracketed.nodup_events names
    (fun l hl => ⟨hl.nodup, fun q hq => hl.outside hq⟩) (by decide) hmid
  have hpre_nodup : (pre.map Prod.fst).Nodup := by
    cases pre with
    | nil => exact List.nodup_nil
    | cons q rest =>
      obtain rfl : rest = [] := List.length_eq_zero_iff.mp (by simpa using hlength)
      exact List.nodup_singleton _
  have hnot : ∀ e ∈ mid.map Prod.fst, e ≠ startDelivery ∧ e ≠ startDependencies ∧
      e ≠ shutdownDependencies := by
    intro e he
    obtain ⟨q, hq, rfl⟩ := List.mem_map.mp he
    exact inside_ne hmid hq
  have hpres : ∀ e ∈ pre.map Prod.fst, e = startDelivery := by
    intro e he
    obtain ⟨q, hq, rfl⟩ := List.mem_map.mp he
    exact hpre q hq
  rw [around, List.map_append, List.map_cons, List.map_append, List.map_singleton]
  refine List.nodup_append.mpr ⟨hpre_nodup, List.nodup_cons.mpr ⟨fun hstart => ?_, ?_⟩, ?_⟩
  · rcases List.mem_append.mp hstart with hstart | hstart
    · exact (hnot _ hstart).2.1 rfl
    · cases List.mem_singleton.mp hstart
  · refine List.nodup_append.mpr ⟨hmid_nodup, List.nodup_singleton _, fun e he e' he' => ?_⟩
    rw [List.mem_singleton.mp he']
    exact (hnot e he).2.2
  · rintro e he e' he' rfl
    rw [hpres e he] at he'
    rcases List.mem_cons.mp he' with heq | he'
    · cases heq
    rcases List.mem_append.mp he' with he' | he'
    · exact (hnot _ he').1 rfl
    · cases List.mem_singleton.mp he'

theorem getLast?_around : (around pre mid y).getLast? = some (shutdownDependencies, y) := by
  rw [around, ← List.cons_append, ← List.append_assoc, List.getLast?_concat]

/-- A call that is made once has one place. -/
theorem around_once {log before after before' after' : LifespanLog} {x x' : Option Failure}
    (hnodup : (log.map Prod.fst).Nodup) (h : log = before ++ (e, x) :: after)
    (h' : log = before' ++ (e, x') :: after') : before = before' ∧ after = after' := by
  have hmem : (e, x) ∈ log := h ▸ List.mem_append_right _ List.mem_cons_self
  have hmem' : (e, x') ∈ log := h' ▸ List.mem_append_right _ List.mem_cons_self
  have hx : (e, x) = (e, x') := List.inj_on_of_nodup_map hnodup hmem hmem' rfl
  have hlog : log.Nodup := hnodup.of_map
  rw [h] at hlog
  obtain ⟨-, hlog, hdisjoint⟩ := List.nodup_append.mp hlog
  have hbefore : (e, x) ∉ before := fun hm => hdisjoint _ hm _ List.mem_cons_self rfl
  have hafter : (e, x) ∉ after := (List.nodup_cons.mp hlog).1
  rw [← hx] at h'
  obtain ⟨hfirst, -, hlast⟩ :=
    (List.append_cons_inj_of_notMem hbefore hafter).mp (h.symm.trans h')
  exact ⟨hfirst, hlast⟩

theorem held_around (hpre : ∀ q ∈ pre, q.1 = startDelivery) (hlength : pre.length ≤ 1)
    (hmid : Bracketed (Served cfg) (resources.map resourceEvents) mid)
    {before after : LifespanLog} {x : Option Failure}
    (h : around pre mid y = before ++ (shutdownBroker, x) :: after) :
    left before = [] ∧ entered after = [] := by
  have hbroker : Called shutdownBroker mid := by
    refine (called_around hpre (y := y) (by simp) (by simp) (by simp)).mp ?_
    rw [h]
    exact called_append.mpr (Or.inr List.mem_cons_self)
  obtain ⟨l₁, l₂, z, heq, hl₁, hl₂⟩ := held_inside hmid hbroker
  have hplace : around pre mid y = (pre ++ (startDependencies, none) :: l₁) ++
      (shutdownBroker, z) :: (l₂ ++ [(shutdownDependencies, y)]) := by
    rw [around, heq]
    simp
  obtain ⟨rfl, rfl⟩ := around_once (nodup_around hpre hlength hmid) h hplace
  have hnone : left pre = [] := left_eq_nil fun q hq => by rw [hpre q hq]; rfl
  have hend : entered [(shutdownDependencies, y)] = [] := by cases y <;> rfl
  constructor
  · calc left (pre ++ (startDependencies, none) :: l₁)
        = left pre ++ left ((startDependencies, none) :: l₁) := Bracketed.left_append _ _
      _ = left l₁ := by rw [hnone]; rfl
      _ = [] := hl₁
  · calc entered (l₂ ++ [(shutdownDependencies, y)])
        = entered l₂ ++ entered [(shutdownDependencies, y)] := Bracketed.entered_append _ _
      _ = [] := by rw [hl₂, hend]; rfl

/-- A log in which the dependencies are there. -/
theorem released_around (hpre : ∀ q ∈ pre, q.1 = startDelivery) (hlength : pre.length ≤ 1)
    (hmid : Bracketed (Served cfg) (resources.map resourceEvents) mid) :
    Released cfg (around pre mid y) := by
  obtain ⟨hreversed, hordered⟩ := Bracketed.left_eq names (fun _ => entered_nil_of_served) hmid
  have hstart : (startDependencies, none) ∈ around pre mid y :=
    List.mem_append_right _ List.mem_cons_self
  have hlast : ((around pre mid y).map Prod.fst).getLast? = some shutdownDependencies := by
    rw [List.getLast?_map, getLast?_around]
    rfl
  refine { reversed := by rw [entered_around hpre, left_around hpre]; exact hreversed
           ordered := by rw [entered_around hpre]; exact hordered
           once := nodup_around hpre hlength hmid
           needed := fun _ => hstart
           served := ?_
           stopped := ?_
           held := fun before after x heq => held_around hpre hlength hmid heq
           dependencies := iff_of_true (List.mem_of_getLast? hlast) hstart
           last := fun _ => hlast
           steps := fun before e after hsteps => ?_ }
  · rw [entered_around hpre, called_around hpre (by simp) (by simp) (by simp)]
    exact called_serve hmid
  · rw [entered_around hpre, called_around hpre (by simp) (by simp) (by simp)]
    exact called_shutdownBroker hmid
  · have hne : ∀ e' ∈ before ++ e :: after, e' ≠ startDelivery ∧ e' ≠ startDependencies ∧
        e' ≠ shutdownDependencies := by
      intro e' he'
      obtain ⟨i, rfl⟩ | rfl | rfl | rfl := teardownStep_kind (hsteps ▸ he') <;> simp
    obtain ⟨hdelivery, hstart, hshutdown⟩ := hne e (List.mem_append_right _ List.mem_cons_self)
    rw [entered_around hpre, called_around hpre hdelivery hstart hshutdown, called_step hmid hsteps]
    refine and_congr_right' (forall₂_congr fun e' he' => exists_congr fun x => and_congr_left' ?_)
    obtain ⟨hdelivery', hstart', hshutdown'⟩ := hne e' (List.mem_append_left _ he')
    exact (mem_around hpre hdelivery' hstart' hshutdown').symm

end

/-- **What a lifespan has entered is left in reverse order, whatever raises or is cancelled.** -/
theorem lifespan_released (cfg : LifespanConfig)
    (raises : LifespanLog → LifespanEvent → Option Failure) :
    Released cfg (lifespanLog cfg raises) := by
  obtain ⟨pre, hpre, hlength, heq | ⟨x, heq⟩ | ⟨rest, heq, mid, y, rfl, hmid⟩⟩ := lived cfg raises
  · rw [heq]
    refine released_of_early (fun q hq => Or.inl (hpre q hq)) ?_
    cases pre with
    | nil => exact List.nodup_nil
    | cons q rest =>
      obtain rfl : rest = [] := List.length_eq_zero_iff.mp (by simpa using hlength)
      exact List.nodup_singleton _
  · rw [heq]
    refine released_of_early (fun q hq => ?_) ?_
    · rcases List.mem_append.mp hq with hq | hq
      · exact Or.inl (hpre q hq)
      · exact Or.inr ⟨x, List.mem_singleton.mp hq⟩
    · cases pre with
      | nil => exact List.nodup_singleton _
      | cons q rest =>
        obtain rfl : rest = [] := List.length_eq_zero_iff.mp (by simpa using hlength)
        have hq := hpre q List.mem_cons_self
        simp [hq]
  · rw [heq]
    exact released_around hpre hlength hmid

end Lifespan

end A2AKit
