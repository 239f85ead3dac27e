/-
The lifecycle of registered dependencies.

`startup` walks the registry in registration order and `shutdown` walks it backwards; both skip the
instances they have seen.  An instance that is registered twice is met at its first key on the way
up and at its last key on the way down.

* `ordered_iff` — the shutdowns mirror the startups if and only if no instance encloses another one
  in the registry and nothing but an `Exception` is raised on the way down.
-/
import A2AKit.Occurrences

namespace A2AKit

open Occurrences

/-- A value of the registry: `isinstance(value, Dependency)`, or anything else. -/
inductive RegistryValue (δ : Type) where
  | dependency (instanceId : δ)
  | plain

def RegistryValue.instance? {δ : Type} : RegistryValue δ → Option δ
  | .dependency d => some d
  | .plain => none

inductive LifecycleCall (δ : Type) where
  | startup (d : δ)
  | shutdown (d : δ)
  deriving DecidableEq

/-- The instance that a call starts. -/
def LifecycleCall.started? {δ : Type} : LifecycleCall δ → Option δ
  | .startup d => some d
  | .shutdown _ => none

/-- What a call raises: an `Exception`, or another `BaseException` such as `CancelledError`. -/
inductive LifecycleError where
  | exception
  | baseException
  deriving DecidableEq

/-- What the calls raise; a call may depend on all calls before it. -/
abbrev LifecycleFailures (δ : Type) := List (LifecycleCall δ) → LifecycleCall δ → Option LifecycleError

/-- `DependencyContainer`, with the calls it has made so far. -/
structure DependencyContainer (κ δ : Type) where
  registry : List (κ × RegistryValue δ)
  started : Bool := false
  calls : List (LifecycleCall δ) := []

namespace DependencyContainer

section

variable {κ δ : Type} [DecidableEq δ] (raises : LifecycleFailures δ)

/-- The loop of `startup`; it ends with what was raised and the list `started`. -/
def startAll : List (RegistryValue δ) → List δ → List δ → List (LifecycleCall δ) →
    Option LifecycleError × List δ × List (LifecycleCall δ)
  | [], _, started, calls => (none, started, calls)
  | .plain :: values, seen, started, calls => startAll values seen started calls
  | .dependency d :: values, seen, started, calls =>
    if d ∈ seen then startAll values seen started calls
    else
      match raises calls (.startup d) with
      | some e => (some e, started, calls ++ [.startup d])
      | none => startAll values (d :: seen) (started ++ [d]) (calls ++ [.startup d])

/-- The rollback of `startup`: only an `Exception` is caught. -/
def rollBack : List δ → List (LifecycleCall δ) → Option LifecycleError × List (LifecycleCall δ)
  | [], calls => (none, calls)
  | d :: started, calls =>
    match raises calls (.shutdown d) with
    | some .baseException => (some .baseException, calls ++ [.shutdown d])
    | _ => rollBack started (calls ++ [.shutdown d])

/-- `startup` -/
def startup (c : DependencyContainer κ δ) : Option LifecycleError × DependencyContainer κ δ :=
  if c.started then (none, c)
  else
    match startAll raises (c.registry.map Prod.snd) [] [] c.calls with
    | (none, _, calls) => (none, { c with started := true, calls })
    | (some e, started, calls) =>
      let (e', calls) := rollBack raises started.reverse calls
      (some (e'.getD e), { c with calls })

/-- The loop of `shutdown`. -/
def shutdownAll : List (RegistryValue δ) → List δ → List (LifecycleCall δ) →
    Option LifecycleError × List (LifecycleCall δ)
  | [], _, calls => (none, calls)
  | .plain :: values, seen, calls => shutdownAll values seen calls
  | .dependency d :: values, seen, calls =>
    if d ∈ seen then shutdownAll values seen calls
    else
      match raises calls (.shutdown d) with
      | some .baseException => (some .baseException, calls ++ [.shutdown d])
      | _ => shutdownAll values (d :: seen) (calls ++ [.shutdown d])

/-- `shutdown` -/
def shutdown (c : DependencyContainer κ δ) : Option LifecycleError × DependencyContainer κ δ :=
  if c.started then
    match shutdownAll raises (c.registry.map Prod.snd).reverse [] c.calls with
    | (some e, calls) => (some e, { c with calls })
    | (none, calls) => (none, { c with calls, started := false })
  else (none, c)

/-- The dependencies of the registry, key by key. -/
def entries (c : DependencyContainer κ δ) : List δ := c.registry.filterMap fun e => e.2.instance?

/-- The distinct instances, in registration order. -/
def instances (c : DependencyContainer κ δ) : List δ := firsts c.entries

/-- A cycle of the lifecycle, from `startup` on: the startups go by the registration order, and what
has started is shut down in the reverse order, each instance once.  After a startup that has failed
the container is not started. -/
def Ordered (c : DependencyContainer κ δ) : Prop :=
  match c.startup raises with
  | (some _, c₁) => c₁.started = false ∧ ∃ started failed rest,
      c.instances = started ++ failed :: rest ∧
      c₁.calls = c.calls ++ (started ++ [failed]).map .startup ++ started.reverse.map .shutdown
  | (none, c₁) => c₁.started = true ∧ c₁.calls = c.calls ++ c.instances.map .startup ∧
      (c₁.shutdown raises).2.calls = c₁.calls ++ c.instances.reverse.map .shutdown

end

/-! ### The loops over distinct instances -/

variable {κ δ : Type} (raises : LifecycleFailures δ)

/-- The calls `call d`, one after the other, all have an outcome in `P`. -/
def Along (P : Option LifecycleError → Prop) (call : δ → LifecycleCall δ) (calls : List (LifecycleCall δ))
    (ds : List δ) : Prop :=
  ∀ before d after, ds = before ++ d :: after → P (raises (calls ++ before.map call) (call d))

/-- The startups of `ds` return. -/
abbrev Starts (calls : List (LifecycleCall δ)) (ds : List δ) : Prop :=
  Along raises (· = none) .startup calls ds

/-- None of the shutdowns of `ds` raises anything but an `Exception`. -/
abbrev Contained (calls : List (LifecycleCall δ)) (ds : List δ) : Prop :=
  Along raises (· ≠ some .baseException) .shutdown calls ds

variable {raises} {calls : List (LifecycleCall δ)} {d : δ} {ds seen started : List δ}
  {values : List (RegistryValue δ)} {P : Option LifecycleError → Prop} {call : δ → LifecycleCall δ}

theorem along_nil : Along raises P call calls [] := by
  intro before d after h
  simp at h

theorem along_cons : Along raises P call calls (d :: ds) ↔
    P (raises calls (call d)) ∧ Along raises P call (calls ++ [call d]) ds := by
  constructor
  · intro h
    refine ⟨by simpa using h [] d ds rfl, fun before x after hds => ?_⟩
    have hx := h (d :: before) x after (by rw [hds]; rfl)
    rwa [List.map_cons, ← List.singleton_append, ← List.append_assoc] at hx
  · rintro ⟨hd, h⟩ before x after hds
    cases before with
    | nil =>
      obtain ⟨rfl, rfl⟩ := List.cons.inj hds
      simpa using hd
    | cons y before =>
      obtain ⟨rfl, hrest⟩ := List.cons.inj hds
      have hx := h before x after hrest
      rwa [List.append_assoc, List.singleton_append] at hx

/-- Either all calls have an outcome in `P`, or there is a first one that has not. -/
theorem along_or (raises : LifecycleFailures δ) (P : Option LifecycleError → Prop) (call : δ → LifecycleCall δ)
    (calls : List (LifecycleCall δ)) (ds : List δ) : Along raises P call calls ds ∨
      ∃ before d after, ds = before ++ d :: after ∧ Along raises P call calls before ∧
        ¬ P (raises (calls ++ before.map call) (call d)) := by
  induction ds generalizing calls with
  | nil => exact Or.inl along_nil
  | cons d ds ih =>
    by_cases hd : P (raises calls (call d))
    · rcases ih (calls ++ [call d]) with hds | ⟨before, x, after, rfl, hbefore, hx⟩
      · exact Or.inl (along_cons.mpr ⟨hd, hds⟩)
      · refine Or.inr ⟨d :: before, x, after, rfl, along_cons.mpr ⟨hd, hbefore⟩, ?_⟩
        simpa using hx
    · exact Or.inr ⟨[], d, ds, rfl, along_nil, by simpa using hd⟩

/-- The startups of distinct instances. -/
def startEach (raises : LifecycleFailures δ) : List δ → List δ → List (LifecycleCall δ) →
    Option LifecycleError × List δ × List (LifecycleCall δ)
  | [], started, calls => (none, started, calls)
  | d :: ds, started, calls =>
    match raises calls (.startup d) with
    | some e => (some e, started, calls ++ [.startup d])
    | none => startEach raises ds (started ++ [d]) (calls ++ [.startup d])

theorem startAll_eq [DecidableEq δ] : startAll raises values seen started calls =
    startEach raises (firstsFrom seen (values.filterMap RegistryValue.instance?)) started calls := by
  induction values generalizing seen started calls with
  | nil => rfl
  | cons value values ih =>
    cases value with
    | plain => exact ih
    | dependency d =>
      rw [startAll, List.filterMap_cons_some (show (RegistryValue.dependency d).instance? = some d
        from rfl), firstsFrom]
      split
      · exact ih
      · rw [startEach]
        split
        · rfl
        · exact ih

theorem shutdownAll_eq [DecidableEq δ] : shutdownAll raises values seen calls =
    rollBack raises (firstsFrom seen (values.filterMap RegistryValue.instance?)) calls := by
  induction values generalizing seen calls with
  | nil => rfl
  | cons value values ih =>
    cases value with
    | plain => exact ih
    | dependency d =>
      rw [shutdownAll, List.filterMap_cons_some (show (RegistryValue.dependency d).instance? = some d
        from rfl), firstsFrom]
      split
      · exact ih
      · rw [rollBack]
        split
        · rfl
        · exact ih

theorem startEach_all (h : Starts raises calls ds) :
    startEach raises ds started calls = (none, started ++ ds, calls ++ ds.map .startup) := by
  induction ds generalizing started calls with
  | nil => simp [startEach]
  | cons d ds ih =>
    obtain ⟨hd, hds⟩ := along_cons.mp h
    rw [startEach, hd]
    dsimp only
    rw [ih hds]
    simp

/-- The first failure ends the loop. -/
theorem startEach_failure {failed : δ} {after : List δ} {e : LifecycleError} (h : Starts raises calls ds)
    (hraise : raises (calls ++ ds.map .startup) (.startup failed) = some e) :
    startEach raises (ds ++ failed :: after) started calls =
      (some e, started ++ ds, calls ++ ds.map .startup ++ [.startup failed]) := by
  induction ds generalizing started calls with
  | nil =>
    rw [List.map_nil, List.append_nil] at hraise
    simp [startEach, hraise]
  | cons d ds ih =>
    obtain ⟨hd, hds⟩ := along_cons.mp h
    rw [List.cons_append, startEach, hd]
    dsimp only
    rw [ih hds (by simpa using hraise)]
    simp

theorem rollBack_all (h : Contained raises calls ds) :
    rollBack raises ds calls = (none, calls ++ ds.map .shutdown) := by
  induction ds generalizing calls with
  | nil => simp [rollBack]
  | cons d ds ih =>
    obtain ⟨hd, hds⟩ := along_cons.mp h
    rw [rollBack]
    split
    · rename_i hraise
      exact absurd hraise hd
    · rw [ih hds]
      simp

/-- The first `BaseException` ends the loop. -/
theorem rollBack_broken {after : List δ} (h : Contained raises calls ds)
    (hraise : raises (calls ++ ds.map .shutdown) (.shutdown d) = some .baseException) :
    rollBack raises (ds ++ d :: after) calls =
      (some .baseException, calls ++ ds.map .shutdown ++ [.shutdown d]) := by
  induction ds generalizing calls with
  | nil =>
    rw [List.map_nil, List.append_nil] at hraise
    simp [rollBack, hraise]
  | cons x ds ih =>
    obtain ⟨hx, hds⟩ := along_cons.mp h
    rw [List.cons_append, rollBack]
    split
    · rename_i hbroken
      exact absurd hbroken hx
    · rw [ih hds (by simpa using hraise)]
      simp

/-- Every instance is shut down if and only if none but the last one breaks the loop. -/
theorem rollBack_calls_iff : (rollBack raises ds calls).2 = calls ++ ds.map .shutdown ↔
    Contained raises calls ds.dropLast := by
  rcases along_or raises (· ≠ some .baseException) .shutdown calls ds with hall |
    ⟨before, d, after, rfl, hbefore, hbroken⟩
  · rw [rollBack_all hall]
    refine iff_of_true rfl fun before d after hds => ?_
    have hne : ds ≠ [] := by
      rintro rfl
      simp at hds
    refine hall before d (after ++ [ds.getLast hne]) ?_
    refine (List.dropLast_append_getLast hne).symm.trans ?_
    rw [hds]
    simp
  · rw [rollBack_broken hbefore (not_not.mp hbroken)]
    have hlast : calls ++ before.map .shutdown ++ [LifecycleCall.shutdown d] =
        calls ++ (before ++ d :: after).map .shutdown ↔ after = [] := by
      rw [List.map_append, List.map_cons, ← List.append_assoc, List.append_right_inj,
        List.cons_inj_right, eq_comm, List.map_eq_nil_iff]
    rw [hlast]
    constructor
    · rintro rfl
      simpa using hbefore
    · intro hcontained
      by_contra hafter
      refine hbroken (hcontained before d after.dropLast ?_)
      rw [List.dropLast_append_cons, List.dropLast_cons_of_ne_nil hafter]

/-- The shutdowns of the first instances come after all other calls. -/
theorem rollBack_prefix (raises : LifecycleFailures δ) (ds : List δ) (calls : List (LifecycleCall δ)) :
    ∃ l : List δ, l <+: ds ∧ (rollBack raises ds calls).2 = calls ++ l.map .shutdown := by
  rcases along_or raises (· ≠ some .baseException) .shutdown calls ds with hall |
    ⟨before, d, after, rfl, hbefore, hbroken⟩
  · exact ⟨ds, List.prefix_rfl, by rw [rollBack_all hall]⟩
  · refine ⟨before ++ [d], ⟨after, by simp⟩, ?_⟩
    rw [rollBack_broken hbefore (not_not.mp hbroken)]
    simp

/-! ### A cycle of the lifecycle -/

variable [DecidableEq δ] {c : DependencyContainer κ δ}

theorem startup_eq (hc : c.started = false) : c.startup raises =
    match startEach raises c.instances [] c.calls with
    | (none, _, calls) => (none, { c with started := true, calls })
    | (some e, started, calls) =>
      let (e', calls) := rollBack raises started.reverse calls
      (some (e'.getD e), { c with calls }) := by
  rw [startup, if_neg (by simp [hc]), startAll_eq, List.filterMap_map]
  rfl

theorem shutdown_eq (hc : c.started = true) : c.shutdown raises =
    match rollBack raises (firsts c.entries.reverse) c.calls with
    | (some e, calls) => (some e, { c with calls })
    | (none, calls) => (none, { c with calls, started := false }) := by
  rw [shutdown, if_pos hc, shutdownAll_eq, List.filterMap_reverse, List.filterMap_map]
  rfl

/-- After `startup` has failed at `failed`, only the last of the shutdowns may break the loop. -/
def RollsBack (raises : LifecycleFailures δ) (c : DependencyContainer κ δ) : Prop :=
  ∀ started failed rest, c.instances = started ++ failed :: rest → Starts raises c.calls started →
    raises (c.calls ++ started.map .startup) (.startup failed) ≠ none →
    Contained raises (c.calls ++ started.map .startup ++ [.startup failed])
      started.reverse.dropLast

/-- If `startup` succeeds, no instance encloses another one, and no shutdown but the last one breaks
the loop. -/
def ShutsDown (raises : LifecycleFailures δ) (c : DependencyContainer κ δ) : Prop :=
  Starts raises c.calls c.instances → (¬ ∃ a b, Encloses c.entries a b) ∧
    Contained raises (c.calls ++ c.instances.map .startup) c.instances.reverse.dropLast

theorem shutdown_calls (hc : c.started = true) :
    (c.shutdown raises).2.calls = (rollBack raises (firsts c.entries.reverse) c.calls).2 := by
  rw [shutdown_eq hc]
  split
  all_goals
    rename_i hloop
    rw [hloop]

/-- `shutdown` makes the calls for `ds` if these are what it visits and nothing breaks the loop
before the last of them. -/
theorem shutdown_iff (hc : c.started = true) {ds : List δ}
    (hlength : (firsts c.entries.reverse).length = ds.length) :
    (c.shutdown raises).2.calls = c.calls ++ ds.map .shutdown ↔
      firsts c.entries.reverse = ds ∧ Contained raises c.calls ds.dropLast := by
  have hinj : Function.Injective (LifecycleCall.shutdown (δ := δ)) := fun _ _ h =>
    LifecycleCall.shutdown.inj h
  rw [shutdown_calls hc]
  constructor
  · intro hcalls
    -- as many calls as instances are visited only if all of them are called
    obtain ⟨l, hprefix, hl⟩ := rollBack_prefix raises (firsts c.entries.reverse) c.calls
    rw [hl, List.append_right_inj, List.map_inj_right hinj] at hcalls
    subst hcalls
    obtain rfl := hprefix.eq_of_length hlength.symm
    exact ⟨rfl, rollBack_calls_iff.mp hl⟩
  · rintro ⟨rfl, hcontained⟩
    exact rollBack_calls_iff.mpr hcontained

/-- All instances have started. -/
theorem ordered_of_starts (hc : c.started = false) (hstarts : Starts raises c.calls c.instances) :
    c.Ordered raises ↔ (¬ ∃ a b, Encloses c.entries a b) ∧
      Contained raises (c.calls ++ c.instances.map .startup) c.instances.reverse.dropLast := by
  rw [← firsts_reverse_iff, Ordered, startup_eq hc, startEach_all hstarts]
  dsimp only
  rw [eq_self, eq_self, true_and, true_and]
  exact shutdown_iff rfl firsts_reverse_perm.length_eq

/-- The startup of `failed` fails. -/
theorem ordered_of_failure {failed : δ} {rest : List δ} (hc : c.started = false)
    (hinstances : c.instances = started ++ failed :: rest)
    (hstarts : Starts raises c.calls started)
    (hfailed : raises (c.calls ++ started.map .startup) (.startup failed) ≠ none) :
    c.Ordered raises ↔ Contained raises (c.calls ++ started.map .startup ++ [.startup failed])
      started.reverse.dropLast := by
  obtain ⟨e, he⟩ := Option.ne_none_iff_exists'.mp hfailed
  rw [← rollBack_calls_iff, Ordered, startup_eq hc, hinstances, startEach_failure hstarts he]
  dsimp only
  rw [List.nil_append]
  constructor
  · rintro ⟨-, started', failed', rest', -, hcalls⟩
    obtain ⟨l, -, hl⟩ := rollBack_prefix raises started.reverse
      (c.calls ++ started.map .startup ++ [.startup failed])
    rw [hl] at hcalls ⊢
    -- the startups among the calls say what had started
    have hup : ∀ ds : List δ, (ds.map .startup).filterMap LifecycleCall.started? = ds := by
      intro ds
      rw [List.filterMap_map]
      exact List.filterMap_some
    have hdown : ∀ ds : List δ, (ds.map .shutdown).filterMap LifecycleCall.started? = [] := by
      intro ds
      rw [List.filterMap_map]
      exact List.filterMap_eq_nil_iff.mpr fun _ _ => rfl
    have hstarted := congrArg (List.filterMap LifecycleCall.started?) hcalls
    rw [List.append_assoc, List.append_assoc, List.append_assoc, List.append_right_inj] at hcalls
    have hstarted := congrArg (List.filterMap LifecycleCall.started?) hcalls
    rw [List.filterMap_append, List.filterMap_append, List.filterMap_append, hup, hup, hdown,
      hdown, List.append_nil, List.append_nil] at hstarted
    obtain ⟨rfl, hfailed⟩ := List.append_inj' hstarted rfl
    rw [← hfailed, List.map_append, List.append_assoc, List.append_right_inj] at hcalls
    rw [List.append_cancel_left hcalls]
  · intro hcalls
    exact ⟨hc, started, failed, rest, rfl, by rw [hcalls]; simp⟩

/-- **The lifecycle is ordered if and only if no instance encloses another one in the registry and
nothing but an `Exception` is raised by the shutdowns that others follow.** -/
theorem ordered_iff (raises : LifecycleFailures δ) (c : DependencyContainer κ δ)
    (hc : c.started = false) :
    c.Ordered raises ↔ c.RollsBack raises ∧ c.ShutsDown raises := by
  rcases along_or raises (· = none) .startup c.calls c.instances with hstarts |
    ⟨started, failed, rest, hinstances, hstarts, hfailed⟩
  · have hrolls : c.RollsBack raises := by
      intro started failed rest hinstances _ hfailed
      exact absurd (hstarts started failed rest hinstances) hfailed
    rw [ordered_of_starts hc hstarts, and_iff_right hrolls, ShutsDown, imp_iff_right hstarts]
  · have hshuts : c.ShutsDown raises := fun hall =>
      absurd (hall started failed rest hinstances) hfailed
    rw [ordered_of_failure hc hinstances hstarts hfailed, and_iff_left hshuts]
    constructor
    · intro hcontained started' failed' rest' hinstances' hstarts' hfailed'
      -- the loop fails at one instance only
      obtain ⟨e, he⟩ := Option.ne_none_iff_exists'.mp hfailed
      obtain ⟨e', he'⟩ := Option.ne_none_iff_exists'.mp hfailed'
      have hend : startEach raises (started ++ failed :: rest) [] c.calls = _ :=
        startEach_failure hstarts he
      rw [← hinstances, hinstances', startEach_failure hstarts' he'] at hend
      obtain ⟨-, hsame⟩ := Prod.mk.inj hend
      obtain ⟨hstarted, hcalls⟩ := Prod.mk.inj hsame
      rw [List.nil_append, List.nil_append] at hstarted
      rw [hcalls, hstarted]
      exact hcontained
    · intro hrolls
      exact hrolls started failed rest hinstances hstarts hfailed

/-! ### One pool under two keys -/

/-- Nothing is raised. -/
def quiet : LifecycleFailures Nat := fun _ _ => none

/-- The pool, under both its keys, and then a cache. -/
def poolFirst : DependencyContainer String Nat :=
  { registry := [("Pool", .dependency 0), ("pool", .dependency 0), ("cache", .dependency 1)] }

/-- The cache between the two keys of the pool that it was built on. -/
def cacheBetween : DependencyContainer String Nat :=
  { registry := [("Pool", .dependency 0), ("cache", .dependency 1), ("pool", .dependency 0)] }

theorem poolFirst_ordered : poolFirst.Ordered quiet := by
  refine (ordered_iff quiet poolFirst rfl).mpr ⟨?_, fun _ => ⟨?_, ?_⟩⟩
  · intro started failed rest _ _ hfailed
    exact absurd rfl hfailed
  · exact firsts_reverse_iff.mp (by decide)
  · intro before d after _
    exact (Option.some_ne_none _).symm

/-- **The pool starts before the cache and is shut down before it**, although nothing fails. -/
theorem cacheBetween_out_of_order : ¬ cacheBetween.Ordered quiet := fun h =>
  absurd h.2.2 (by decide)

end DependencyContainer

end A2AKit
