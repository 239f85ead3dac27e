/-
Versioned stores.

A store maps keys to values with a version.  Keys are allocated once and never
again; a value starts at version 1 in a state satisfying `Init`, every commit
moves it along `Next` and raises its version by one, and keys may be removed, or
drawn without being used, at any time.  `VersionedStore.Run` is a run of such a store.

* `Run.persist` — a key present at both ends of a run has moved along `Next` as
  often as its version has grown;
* `Run.birth` — a key present after a run from the empty store started at
  version 1 in an `Init` value.
-/
import Mathlib.Logic.Relation
import Mathlib.Logic.Function.Basic
import Mathlib.Data.Set.Insert

/-- A store, with the keys that were ever allocated. -/
structure VersionedStore (κ β : Type) where
  used : Set κ
  entry : κ → Option (ℕ × β)

namespace VersionedStore

variable {κ β : Type} [DecidableEq κ]

def empty : VersionedStore κ β := ⟨∅, fun _ => none⟩

/-- What a step shows of itself. -/
inductive Obs (κ : Type)
  | silent
  | committed (k : κ)

variable (Init : β → Prop) (Next : β → β → Prop)

inductive Step : VersionedStore κ β → Obs κ → VersionedStore κ β → Prop
  | create {u : Set κ} {m : κ → Option (ℕ × β)} {k : κ} {b : β} (hk : k ∉ u) (hb : Init b) :
      Step ⟨u, m⟩ .silent ⟨insert k u, Function.update m k (some (1, b))⟩
  | commit {u : Set κ} {m : κ → Option (ℕ × β)} {k : κ} {v : ℕ} {b b' : β}
      (hk : m k = some (v, b)) (hb : Next b b') :
      Step ⟨u, m⟩ (.committed k) ⟨u, Function.update m k (some (v + 1, b'))⟩
  | remove {u u' : Set κ} {m m' : κ → Option (ℕ × β)} (hu : u ⊆ u')
      (hm : ∀ k, m' k = m k ∨ m' k = none) : Step ⟨u, m⟩ .silent ⟨u', m'⟩

inductive Run : VersionedStore κ β → List (Obs κ) → VersionedStore κ β → Prop
  | nil (s : VersionedStore κ β) : Run s [] s
  | cons {s s₁ s₂ : VersionedStore κ β} {o : Obs κ} {os : List (Obs κ)} :
      Step Init Next s o s₁ → Run s₁ os s₂ → Run s (o :: os) s₂

/-- How often `k` was committed. -/
def commits (k : κ) : List (Obs κ) → ℕ
  | [] => 0
  | .silent :: os => commits k os
  | .committed k' :: os => commits k os + if k' = k then 1 else 0

/-- Only allocated keys are present. -/
def Allocated (s : VersionedStore κ β) : Prop := ∀ k, s.entry k ≠ none → k ∈ s.used

variable {Init Next} {s s' : VersionedStore κ β} {o : Obs κ} {os : List (Obs κ)} {k : κ}

theorem Step.of_create {b : β} (hk : k ∉ s.used) (hb : Init b) (hused : s'.used = insert k s.used)
    (hentry : s'.entry = Function.update s.entry k (some (1, b))) : Step Init Next s .silent s' := by
  obtain ⟨u, m⟩ := s
  obtain ⟨u', m'⟩ := s'
  obtain rfl : u' = insert k u := hused
  obtain rfl : m' = Function.update m k (some (1, b)) := hentry
  exact create hk hb

theorem Step.of_commit {v : ℕ} {b b' : β} (hk : s.entry k = some (v, b)) (hb : Next b b')
    (hused : s'.used = s.used) (hentry : s'.entry = Function.update s.entry k (some (v + 1, b'))) :
    Step Init Next s (.committed k) s' := by
  obtain ⟨u, m⟩ := s
  obtain ⟨u', m'⟩ := s'
  obtain rfl : u' = u := hused
  obtain rfl : m' = Function.update m k (some (v + 1, b')) := hentry
  exact commit hk hb

theorem Step.of_remove (hused : s.used ⊆ s'.used)
    (hentry : ∀ k, s'.entry k = s.entry k ∨ s'.entry k = none) : Step Init Next s .silent s' := by
  obtain ⟨u, m⟩ := s
  obtain ⟨u', m'⟩ := s'
  exact remove hused hentry

theorem Step.used_subset (h : Step Init Next s o s') : s.used ⊆ s'.used := by
  cases h with
  | create => exact Set.subset_insert _ _
  | commit => exact Set.Subset.rfl
  | remove hu => exact hu

theorem Step.allocated (h : Step Init Next s o s') (hs : s.Allocated) : s'.Allocated := by
  intro k hk
  cases h with
  | @create u m k' b _ _ =>
    by_cases hkk : k = k'
    · exact Or.inl hkk
    · refine Or.inr (hs k fun hnone => hk ?_)
      show Function.update m k' _ k = none
      rw [Function.update_of_ne hkk]
      exact hnone
  | @commit u m k' v b b' hm _ =>
    refine hs k fun hnone => hk ?_
    by_cases hkk : k = k'
    · subst hkk
      exact absurd (hnone.symm.trans hm) (by simp)
    · show Function.update m k' _ k = none
      rw [Function.update_of_ne hkk]
      exact hnone
  | remove hu hm =>
    refine hu (hs k fun hnone => hk ?_)
    rcases hm k with h | h
    · exact h.trans hnone
    · exact h

theorem Run.allocated (h : Run Init Next s os s') (hs : s.Allocated) : s'.Allocated := by
  induction h with
  | nil s => exact hs
  | cons hstep _ ih => exact ih (hstep.allocated hs)

/-- A removed key never comes back. -/
theorem Step.absent (h : Step Init Next s o s') (hk : k ∈ s.used) (hnone : s.entry k = none) :
    s'.entry k = none := by
  cases h with
  | @create u m k' b hk' _ =>
    have hkk : k ≠ k' := by
      rintro rfl
      exact hk' hk
    exact (Function.update_of_ne hkk _ _).trans hnone
  | @commit u m k' v b b' hm _ =>
    have hkk : k ≠ k' := by
      rintro rfl
      exact absurd (hnone.symm.trans hm) (by simp)
    exact (Function.update_of_ne hkk _ _).trans hnone
  | remove _ hm =>
    rcases hm k with h | h
    · exact h.trans hnone
    · exact h

theorem Run.absent (h : Run Init Next s os s') (hk : k ∈ s.used) (hnone : s.entry k = none) :
    s'.entry k = none := by
  induction h with
  | nil s => exact hnone
  | cons hstep _ ih => exact ih (hstep.used_subset hk) (hstep.absent hk hnone)

/-- One step on a present key: it is gone, committed, or as before. -/
theorem Step.present {v : ℕ} {b : β} (h : Step Init Next s o s') (hs : s.Allocated)
    (hk : s.entry k = some (v, b)) :
    s'.entry k = none ∨ (o = .committed k ∧ ∃ b', Next b b' ∧ s'.entry k = some (v + 1, b')) ∨
      (o ≠ .committed k ∧ s'.entry k = some (v, b)) := by
  cases h with
  | @create u m k' b' hk' _ =>
    have hkk : k ≠ k' := by
      rintro rfl
      exact hk' (hs k (by rw [hk]; simp))
    exact Or.inr (Or.inr ⟨by simp, (Function.update_of_ne hkk _ _).trans hk⟩)
  | @commit u m k' v' b₁ b' hm hb =>
    by_cases hkk : k = k'
    · subst hkk
      obtain ⟨rfl, rfl⟩ : v' = v ∧ b₁ = b := by
        have := hm.symm.trans hk
        simpa using this
      exact Or.inr (Or.inl ⟨rfl, b', hb, Function.update_self _ _ _⟩)
    · refine Or.inr (Or.inr ⟨?_, (Function.update_of_ne hkk _ _).trans hk⟩)
      simpa using fun h => hkk h.symm
  | remove _ hm =>
    rcases hm k with h | h
    · exact Or.inr (Or.inr ⟨by simp, h.trans hk⟩)
    · exact Or.inl h

theorem commits_cons_of_ne (h : o ≠ .committed k) (os : List (Obs κ)) :
    commits k (o :: os) = commits k os := by
  cases o with
  | silent => rfl
  | committed k' =>
    have : k' ≠ k := fun heq => h (by rw [heq])
    simp [commits, this]

/-- A key present at both ends moved along `Next`, once per version. -/
theorem Run.persist {v v' : ℕ} {b b' : β} (h : Run Init Next s os s') (hs : s.Allocated)
    (hk : s.entry k = some (v, b)) (hk' : s'.entry k = some (v', b')) :
    Relation.ReflTransGen Next b b' ∧ v' = v + commits k os := by
  induction h generalizing v b with
  | nil s =>
    obtain ⟨rfl, rfl⟩ : v = v' ∧ b = b' := by
      have := hk.symm.trans hk'
      simpa using this
    exact ⟨Relation.ReflTransGen.refl, rfl⟩
  | @cons s s₁ s₂ o os hstep hrest ih =>
    have hs₁ := hstep.allocated hs
    rcases hstep.present hs hk with hnone | ⟨rfl, b₁, hb, h₁⟩ | ⟨ho, h₁⟩
    · have hused := hstep.used_subset (hs k (by rw [hk]; simp))
      have habs := hrest.absent hused hnone
      exact absurd (habs.symm.trans hk') (by simp)
    · obtain ⟨hgen, hv⟩ := ih hs₁ h₁ hk'
      refine ⟨Relation.ReflTransGen.head hb hgen, ?_⟩
      simp only [commits, if_true]
      omega
    · obtain ⟨hgen, hv⟩ := ih hs₁ h₁ hk'
      exact ⟨hgen, by rw [commits_cons_of_ne ho]; exact hv⟩

/-- Where a key that was never allocated comes from. -/
theorem Run.birth {v : ℕ} {b : β} (h : Run Init Next s os s') (hs : s.Allocated)
    (hk : k ∉ s.used) (hk' : s'.entry k = some (v, b)) :
    ∃ b₀, Init b₀ ∧ Relation.ReflTransGen Next b₀ b ∧ v = 1 + commits k os := by
  have hnone : ∀ t : VersionedStore κ β, t.Allocated → k ∉ t.used → t.entry k = none := by
    intro t ht hkt
    by_contra hne
    exact hkt (ht k hne)
  induction h with
  | nil s => exact absurd ((hnone s hs hk).symm.trans hk') (by simp)
  | @cons s s₁ s₂ o os hstep hrest ih =>
    have hs₁ := hstep.allocated hs
    by_cases hk₁ : k ∈ s₁.used
    · -- this very step allocated `k`
      cases hstep with
      | @create u m k₀ b₀ hk₀ hb₀ =>
        obtain rfl : k = k₀ := by
          rcases hk₁ with h | h
          · exact h
          · exact absurd h hk
        obtain ⟨hgen, hv⟩ := hrest.persist hs₁ (Function.update_self _ _ _) hk'
        exact ⟨b₀, hb₀, hgen, hv⟩
      | commit => exact absurd hk₁ hk
      | @remove u u' m m' hu hm =>
        -- `k` was drawn without being created, so it stays absent
        have hnone' : m' k = none := by
          rcases hm k with h | h
          · exact h.trans (hnone _ hs hk)
          · exact h
        exact absurd ((hrest.absent hk₁ hnone').symm.trans hk') (by simp)
    · obtain ⟨b₀, hb₀, hgen, hv⟩ := ih hs₁ hk₁ hk'
      refine ⟨b₀, hb₀, hgen, ?_⟩
      rw [commits_cons_of_ne, hv]
      rintro rfl
      cases hstep with
      | commit hm _ => exact hk (hs k fun hnone' => absurd (hnone'.symm.trans hm) (by simp))

end VersionedStore
