/-
Runs of executable transition systems.

A system is a step function `step : σ → α → Option (σ × ω)`: action `a` is
enabled in state `s` if `step s a` is some pair of a next state and an outcome.
`Run step ok s tr s'` is a run from `s` to `s'` along the trace `tr` of actions
and outcomes, every one of whose steps meets the condition `ok`.

* `Run.inv`, `Run.rel` and `Run.forward` — invariants of the states, relations
  between the first and the last state, and invariants of state and trace, from
  what one step does;
* `Run.throughout_iff_avoids` — a property that certain steps lose holds throughout the runs
  that avoid them;
* `Run.split` — a run is a run up to any point followed by the rest;
* `Run.collect` — what the steps of a run contribute, one after the other;
* `run_finalState` — concrete runs by evaluation.
-/
import Mathlib.Data.List.Basic
import Mathlib.Data.List.Induction

/-- Runs whose steps all meet `ok`. -/
inductive Run {σ α ω : Type} (step : σ → α → Option (σ × ω)) (ok : σ → α → Prop) :
    σ → List (α × ω) → σ → Prop
  | nil (s : σ) : Run step ok s [] s
  | cons {s s₁ s₂ : σ} {a : α} {o : ω} {tr : List (α × ω)} :
      step s a = some (s₁, o) → ok s a → Run step ok s₁ tr s₂ → Run step ok s ((a, o) :: tr) s₂

namespace Run

variable {σ α ω : Type} {step : σ → α → Option (σ × ω)} {ok : σ → α → Prop}
  {s s₁ s₂ : σ} {tr tr' : List (α × ω)}

theorem append (h : Run step ok s tr s₁) (h' : Run step ok s₁ tr' s₂) :
    Run step ok s (tr ++ tr') s₂ := by
  induction h with
  | nil s => exact h'
  | cons hstep hok _ ih => exact cons hstep hok (ih h')

theorem split (h : Run step ok s (tr ++ tr') s₂) :
    ∃ s₁, Run step ok s tr s₁ ∧ Run step ok s₁ tr' s₂ := by
  induction tr generalizing s with
  | nil => exact ⟨s, nil s, h⟩
  | cons p tr ih =>
    obtain _ | ⟨hstep, hok, hrest⟩ := h
    obtain ⟨s₁, h₁, h₂⟩ := ih hrest
    exact ⟨s₁, cons hstep hok h₁, h₂⟩

theorem snoc_inv {a : α} {o : ω} (h : Run step ok s (tr ++ [(a, o)]) s₂) :
    ∃ s₁, Run step ok s tr s₁ ∧ step s₁ a = some (s₂, o) ∧ ok s₁ a := by
  obtain ⟨s₁, h₁, h₂⟩ := h.split
  obtain _ | ⟨hstep, hok, hrest⟩ := h₂
  cases hrest
  exact ⟨s₁, h₁, hstep, hok⟩

/-- What every step keeps, every run keeps. -/
theorem inv {I : σ → Prop} (h : Run step ok s tr s₁)
    (hstep : ∀ s a s' o, I s → ok s a → step s a = some (s', o) → I s') (hs : I s) : I s₁ := by
  induction h with
  | nil s => exact hs
  | cons hs' hok _ ih => exact ih (hstep _ _ _ _ hs hok hs')

/-- A relation between the ends of a run, from its steps; `I` holds along the run. -/
theorem rel {I : σ → Prop} {R : σ → List (α × ω) → σ → Prop} (h : Run step ok s tr s₁)
    (hI : ∀ s a s' o, I s → ok s a → step s a = some (s', o) → I s')
    (hnil : ∀ s, I s → R s [] s)
    (hcons : ∀ s a s₁ o tr s₂, I s → I s₁ → ok s a → step s a = some (s₁, o) → R s₁ tr s₂ →
      R s ((a, o) :: tr) s₂) (hs : I s) : R s tr s₁ := by
  induction h with
  | nil s => exact hnil s hs
  | cons hstep hok _ ih =>
    have hs₁ := hI _ _ _ _ hs hok hstep
    exact hcons _ _ _ _ _ _ hs hs₁ hok hstep (ih hs₁)

/-- What every step keeps of a state and the trace that led to it. -/
theorem forward {P : List (α × ω) → σ → Prop} (h : Run step ok s tr s₁)
    (hstep : ∀ tr s a s' o, P tr s → ok s a → step s a = some (s', o) → P (tr ++ [(a, o)]) s')
    (hs : P [] s) : P tr s₁ := by
  have hpre : ∀ pre, P pre s → P (pre ++ tr) s₁ := by
    clear hs
    induction h with
    | nil s =>
      intro pre hpre
      rwa [List.append_nil]
    | cons hs' hok _ ih =>
      intro pre hpre
      have := ih _ (hstep _ _ _ _ _ hpre hok hs')
      rwa [List.append_assoc] at this
  exact hpre [] hs

/-- The actions determine where a run ends. -/
theorem unique (h : Run step ok s tr s₁) (h' : Run step ok s tr s₂) : s₂ = s₁ := by
  induction h with
  | nil s =>
    cases h'
    rfl
  | cons hstep _ _ ih =>
    obtain _ | ⟨hstep', _, hrest⟩ := h'
    obtain ⟨rfl, -⟩ := Prod.mk.inj (Option.some_inj.mp (hstep.symm.trans hstep'))
    exact ih hrest

/-- An invariant of a run whose steps are known to be at some place of the run. -/
theorem inv_at {I : σ → Prop} (h : Run step ok s tr s₁) (hs : I s)
    (hstep : ∀ before a o after u v, tr = before ++ (a, o) :: after → Run step ok s before u →
      ok u a → step u a = some (v, o) → I u → I v) : I s₁ := by
  induction tr using List.reverseRecOn generalizing s₁ with
  | nil =>
    cases h
    exact hs
  | append_singleton tr p ih =>
    obtain ⟨a, o⟩ := p
    obtain ⟨u, hinit, hlast, hok⟩ := h.snoc_inv
    refine hstep tr a o [] u s₁ rfl hinit hok hlast (ih hinit ?_)
    intro before a' o' after u' v' htr
    refine hstep before a' o' (after ++ [(a, o)]) u' v' ?_
    rw [htr, List.append_assoc]
    rfl

/-- `P` holds at every moment of a run along `tr`. -/
def Throughout (step : σ → α → Option (σ × ω)) (ok : σ → α → Prop) (s : σ) (tr : List (α × ω))
    (P : σ → Prop) : Prop :=
  ∀ before after u, tr = before ++ after → Run step ok s before u → P u

/-- No step of a run along `tr` is one of `C`. -/
def Avoids (step : σ → α → Option (σ × ω)) (ok : σ → α → Prop) (s : σ) (tr : List (α × ω))
    (C : σ → α → Prop) : Prop :=
  ∀ before a o after u, tr = before ++ (a, o) :: after → Run step ok s before u → ¬ C u a

theorem Avoids.nil {C : σ → α → Prop} : Avoids step ok s [] C := by
  intro before a o after u htr
  exact absurd htr.symm (List.append_ne_nil_of_right_ne_nil _ (List.cons_ne_nil _ _))

theorem Avoids.cons {C : σ → α → Prop} {a : α} {o : ω} (hstep : step s a = some (s₁, o))
    (ha : ¬ C s a) (h : Avoids step ok s₁ tr C) : Avoids step ok s ((a, o) :: tr) C := by
  intro before a' o' after u htr hrun
  rcases before with _ | ⟨p, before⟩
  · obtain ⟨heq, -⟩ := List.cons.inj htr
    obtain ⟨rfl, -⟩ := Prod.mk.inj heq
    cases hrun
    exact ha
  · obtain ⟨hhead, htail⟩ := List.cons.inj htr
    obtain rfl := hhead
    obtain _ | ⟨hstep', _, hrest⟩ := hrun
    obtain ⟨rfl, -⟩ := Prod.mk.inj (Option.some_inj.mp (hstep.symm.trans hstep'))
    exact h before a' o' after u htail hrest

/-- Where `P` is lost by the steps of `C` and by no others, it holds throughout a run if and only
if the run avoids them.  What holds besides, `J`, is needed only as long as `P` is not lost. -/
theorem throughout_iff_avoids {J P : σ → Prop} {C : σ → α → Prop} (h : Run step ok s tr s₁)
    (hJ : J s) (hP : P s)
    (hkeeps : ∀ u a v o, J u → P u → ok u a → ¬ C u a → step u a = some (v, o) → J v)
    (hloses : ∀ u a v o, J u → P u → ok u a → step u a = some (v, o) → (P v ↔ ¬ C u a)) :
    Throughout step ok s tr P ↔ Avoids step ok s tr C := by
  constructor
  · intro hall
    -- as long as `P` holds, the steps are not among those of `C`
    have hopen : ∀ before a o after u v, tr = before ++ (a, o) :: after →
        Run step ok s before u → ok u a → step u a = some (v, o) → J u → ¬ C u a := by
      intro before a o after u v htr hu hok hstep hJu
      refine (hloses u a v o hJu (hall before _ u htr hu) hok hstep).mp ?_
      refine hall (before ++ [(a, o)]) after v ?_ (hu.append (.cons hstep hok (.nil v)))
      rw [htr, List.append_cons]
    intro before a o after u htr hbefore
    have hsplit : tr = (before ++ [(a, o)]) ++ after := by
      rw [htr, List.append_cons]
    obtain ⟨v, hv, -⟩ := (hsplit ▸ h).split
    obtain ⟨u', hu', hstep, hok⟩ := hv.snoc_inv
    obtain rfl := hbefore.unique hu'
    refine hopen before a o after _ v htr hbefore hok hstep ?_
    refine hbefore.inv_at hJ fun before' a' o' after' w x htr' hw hok' hstep' hJw => ?_
    have htr'' : tr = before' ++ (a', o') :: (after' ++ (a, o) :: after) := by
      rw [htr, htr', List.append_assoc]
      rfl
    exact hkeeps w a' x o' hJw (hall before' _ w htr'' hw) hok'
      (hopen before' a' o' _ w x htr'' hw hok' hstep' hJw) hstep'
  · intro havoids before after u htr hbefore
    refine And.right (a := J u) ?_
    refine hbefore.inv_at (I := fun u => J u ∧ P u) ⟨hJ, hP⟩
      fun before' a o after' v w htr' hrun' hok hstep hv => ?_
    have hopen : ¬ C v a := by
      refine havoids before' a o (after' ++ after) v ?_ hrun'
      rw [htr, htr', List.append_assoc]
      rfl
    exact ⟨hkeeps v a w o hv.1 hv.2 hok hopen hstep,
      (hloses v a w o hv.1 hv.2 hok hstep).mpr hopen⟩

theorem mono {ok' : σ → α → Prop} (h : Run step ok s tr s₁) (himp : ∀ s a, ok s a → ok' s a) :
    Run step ok' s tr s₁ := by
  induction h with
  | nil s => exact nil s
  | cons hstep hok _ ih => exact cons hstep (himp _ _ hok) ih

/-- A condition on the actions alone is met by a run if its actions meet it. -/
theorem of_actions {P : α → Prop} (h : Run step ok s tr s₁) (hP : ∀ q ∈ tr, P q.1) :
    Run step (fun _ a => P a) s tr s₁ := by
  induction h with
  | nil s => exact nil s
  | cons hstep _ _ ih =>
    exact cons hstep (hP _ List.mem_cons_self) (ih fun q hq => hP q (List.mem_cons_of_mem _ hq))

/-- What the steps along a trace contribute, in their order. -/
def collect {β : Type} (step : σ → α → Option (σ × ω)) (f : σ → α → List β) :
    σ → List (α × ω) → List β
  | _, [] => []
  | s, (a, _) :: tr =>
    match step s a with
    | some p => f s a ++ collect step f p.1 tr
    | none => []

/-- The last step of a run contributes last. -/
theorem collect_snoc {β : Type} {f : σ → α → List β} {a : α} {o : ω}
    (h : Run step ok s tr s₁) (hstep : step s₁ a = some (s₂, o)) :
    collect step f s (tr ++ [(a, o)]) = collect step f s tr ++ f s₁ a := by
  induction h with
  | nil s => simp [collect, hstep]
  | cons hs' _ _ ih => simp only [List.cons_append, collect, hs', ih hstep, List.append_assoc]

end Run

/-! ### Evaluation -/

section Exec

variable {σ α ω : Type} (step : σ → α → Option (σ × ω)) (ok : σ → α → Prop)
  [∀ s a, Decidable (ok s a)]

/-- Take the steps of a list of actions. -/
def exec : σ → List α → Option (σ × List (α × ω))
  | s, [] => some (s, [])
  | s, a :: as =>
    if ok s a then
      match step s a with
      | none => none
      | some (s₁, o) => (exec s₁ as).map fun p => (p.1, (a, o) :: p.2)
    else none

variable {step ok}

theorem run_of_exec {s s' : σ} {as : List α} {tr : List (α × ω)}
    (h : exec step ok s as = some (s', tr)) : Run step ok s tr s' := by
  induction as generalizing s tr with
  | nil =>
    simp only [exec, Option.some_inj, Prod.mk.injEq] at h
    obtain ⟨rfl, rfl⟩ := h
    exact Run.nil s
  | cons a as ih =>
    rw [exec] at h
    split at h
    · rename_i hok
      split at h
      · exact absurd h (by simp)
      · rename_i s₁ o hstep
        rw [Option.map_eq_some_iff] at h
        obtain ⟨⟨s₂, tr'⟩, hexec, heq⟩ := h
        simp only [Prod.mk.injEq] at heq
        obtain ⟨rfl, rfl⟩ := heq
        exact Run.cons hstep hok (ih hexec)
    · exact absurd h (by simp)

/-- The steps of a run are those of a run in which each is admitted, if they are. -/
theorem Run.admitted {ok₀ : σ → α → Prop} {s s' : σ} {tr : List (α × ω)} (h : Run step ok₀ s tr s')
    (hexec : (exec step ok s (tr.map Prod.fst)).isSome = true) : Run step ok s tr s' := by
  induction h with
  | nil s => exact .nil s
  | cons hstep _ _ ih =>
    rw [List.map_cons, exec] at hexec
    split at hexec
    · rename_i hok
      rw [hstep, Option.isSome_map] at hexec
      exact .cons hstep hok (ih hexec)
    · exact nomatch hexec

variable (step ok)

/-- The state a list of actions leads to. -/
def finalState (s : σ) (as : List α) : σ :=
  match exec step ok s as with
  | some p => p.1
  | none => s

/-- The trace a list of actions leaves. -/
def traceOf (s : σ) (as : List α) : List (α × ω) :=
  match exec step ok s as with
  | some p => p.2
  | none => []

theorem run_finalState (s : σ) (as : List α) (h : (exec step ok s as).isSome) :
    Run step ok s (traceOf step ok s as) (finalState step ok s as) := by
  obtain ⟨⟨s', tr⟩, hexec⟩ := Option.isSome_iff_exists.mp h
  rw [finalState, traceOf, hexec]
  exact run_of_exec hexec

end Exec
