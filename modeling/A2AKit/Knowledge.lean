/-
Programs that learn from the answers they get.

`Prog.Only` says which operations a program performs, whatever it is answered.  Often an
operation is only allowed after another one has been answered: an object may be used once
it has been built.  A `Knowledge` says what the program may do with what it knows, and what
an answer adds.  `Prog.Uses K k p` says that `p`, starting with `k`, keeps to that, and
`Act.Uses` comes with one rule for each construct.  `Prog.Leads K k p Q` says in addition
what is known when `p` returns.

* `Prog.uses_invariant` — an invariant that speaks of what the program knows holds along
  every run;
* `Prog.uses_sound` — the same for a program whose operations are verified to meet their
  requirements.
-/
import A2AKit.Interleave
import Mathlib.Order.Basic

/-- What a program may do with what it knows, and what an answer tells it. -/
structure Knowledge (E : Type → Type) (κ : Type) [Preorder κ] where
  admits : κ → {β : Type} → E β → Prop
  learn : κ → {β : Type} → E β → β → κ
  grows : ∀ k {β : Type} (e : E β) b, k ≤ learn k e b

namespace Prog

variable {E : Type → Type} {W κ : Type} [Preorder κ] {K : Knowledge E κ} {α β : Type} {k : κ}
  {p : Prog E α}

/-- Every operation that the program can perform is admitted by what it knows by then. -/
def Uses (K : Knowledge E κ) : κ → Prog E α → Prop
  | _, .ret _ => True
  | k, .op e f => K.admits k e ∧ ∀ b, (f b).Uses K (K.learn k e b)

theorem uses_bind {f : α → Prog E β} (hp : p.Uses K k) (hf : ∀ a k', k ≤ k' → (f a).Uses K k') :
    (p.bind f).Uses K k := by
  induction p generalizing k with
  | ret a => exact hf a k le_rfl
  | op e g ih =>
    refine ⟨hp.1, fun b => ih b (hp.2 b) fun a k' hk' => ?_⟩
    exact hf a k' ((K.grows k e b).trans hk')

/-- Where nothing depends on what is known. -/
theorem only_of_uses {P : {β : Type} → E β → Prop}
    (hP : ∀ k (β : Type) (e : E β), K.admits k e → P e)
    (hp : p.Uses K k) : p.Only P := by
  induction p generalizing k with
  | ret a => exact trivial
  | op e f ih => exact ⟨hP k _ e hp.1, fun b => ih b (hp.2 b)⟩

/-- What the environment keeps, and every admitted operation with what it tells, holds in every
run, with whatever the program knows by then. -/
theorem uses_invariant {S : System E W} {I : κ → W → Prop} (henv : ∀ k, S.Stable (I k))
    (hop : ∀ k (β : Type) (e : E β) w w' b, S.ok e w → K.admits k e →
      S.perform e w = some (w', b) → I k w → I (K.learn k e b) w')
    {c c' : Prog E α × W} (h : S.Reaches c c') (hp : c.1.Uses K k) (hw : I k c.2) :
    ∃ k', c'.1.Uses K k' ∧ I k' c'.2 := by
  induction h with
  | refl => exact ⟨k, hp, hw⟩
  | tail _ hstep ih =>
    obtain ⟨k', hp', hw'⟩ := ih
    cases hstep with
    | env he => exact ⟨k', hp', henv k' _ _ he hw'⟩
    | @op _ e _ w₁ w₂ b hok hperf =>
      exact ⟨_, hp'.2 b, hop k' _ e w₁ w₂ b hok hp'.1 hperf hw'⟩

/-- An operation of a verified program also meets its requirement. -/
theorem uses_sound {S : System E W} {Q : α → W → Prop} {I : κ → W → Prop}
    (henv : ∀ k, S.Stable (I k))
    (hop : ∀ k (β : Type) (e : E β) w w' b, S.ok e w → S.req e w → K.admits k e →
      S.perform e w = some (w', b) → I k w → I (K.learn k e b) w')
    {c c' : Prog E α × W} (h : S.Reaches c c') (hp : c.1.Uses K k) (hwp : c.1.wp S Q c.2)
    (hw : I k c.2) : ∃ k', k ≤ k' ∧ c'.1.Uses K k' ∧ I k' c'.2 := by
  induction h with
  | refl => exact ⟨k, le_rfl, hp, hw⟩
  | @tail c₁ c₂ hrun hstep ih =>
    obtain ⟨k', hk', hp', hw'⟩ := ih
    have hwp' : c₁.1.wp S Q c₁.2 := wp_reaches hrun hwp
    cases hstep with
    | env he => exact ⟨k', hk', hp', henv k' _ _ he hw'⟩
    | @op _ e _ w₁ w₂ b hok hperf =>
      exact ⟨_, hk'.trans (K.grows k' e b), hp'.2 b,
        hop k' _ e w₁ w₂ b hok (hwp' w₁ .refl hok).1 hp'.1 hperf hw'⟩

/-- Every operation is admitted by what the program knows by then, and `Q` is known of what it
returns. -/
def Leads (K : Knowledge E κ) : κ → Prog E α → (α → κ → Prop) → Prop
  | k, .ret a, Q => Q a k
  | k, .op e f, Q => K.admits k e ∧ ∀ b, (f b).Leads K (K.learn k e b) Q

variable {Q : α → κ → Prop}

theorem leads_bind {f : α → Prog E β} {R : β → κ → Prop} (hp : p.Leads K k Q)
    (hf : ∀ a k', k ≤ k' → Q a k' → (f a).Leads K k' R) : (p.bind f).Leads K k R := by
  induction p generalizing k with
  | ret a => exact hf a k le_rfl hp
  | op e g ih =>
    refine ⟨hp.1, fun b => ih b (hp.2 b) fun a k' hk' => ?_⟩
    exact hf a k' ((K.grows k e b).trans hk')

theorem leads_mono {Q' : α → κ → Prop} (hp : p.Leads K k Q)
    (hQ : ∀ a k', k ≤ k' → Q a k' → Q' a k') : p.Leads K k Q' := by
  induction p generalizing k with
  | ret a => exact hQ a k le_rfl hp
  | op e f ih =>
    exact ⟨hp.1, fun b => ih b (hp.2 b) fun a k' hk' => hQ a k' ((K.grows k e b).trans hk')⟩

theorem uses_of_leads (hp : p.Leads K k Q) : p.Uses K k := by
  induction p generalizing k with
  | ret a => exact trivial
  | op e f ih => exact ⟨hp.1, fun b => ih b (hp.2 b)⟩

/-- Nothing is forgotten. -/
theorem leads_of_uses {k₀ : κ} (hk : k₀ ≤ k) (hp : p.Uses K k) :
    p.Leads K k fun _ k' => k₀ ≤ k' := by
  induction p generalizing k with
  | ret a => exact hk
  | op e f ih => exact ⟨hp.1, fun b => ih b (hk.trans (K.grows k e b)) (hp.2 b)⟩

end Prog

namespace Act

variable {E : Type → Type} {κ : Type} [Preorder κ] {K : Knowledge E κ} {σ ε α β : Type} {k : κ}
  {m : Act E σ ε α}

/-- `m` keeps to what it knows, starting with at least `k`. -/
def Uses (K : Knowledge E κ) (k : κ) (m : Act E σ ε α) : Prop :=
  ∀ k', k ≤ k' → ∀ s, (m s).Uses K k'

theorem uses_pure (a : α) : Uses K k (Pure.pure a : Act E σ ε α) := fun _ _ _ => trivial

theorem uses_throw (e : ε) : Uses K k (MonadExcept.throw e : Act E σ ε α) := fun _ _ _ => trivial

theorem uses_get : Uses K k (get : Act E σ ε σ) := fun _ _ _ => trivial

theorem uses_modify (f : σ → σ) : Uses K k (modify f : Act E σ ε Unit) := fun _ _ _ => trivial

theorem uses_perform {e : E α} (he : ∀ k', k ≤ k' → K.admits k' e) :
    Uses K k (perform e : Act E σ ε α) := fun k' hk' _ => ⟨he k' hk', fun _ => trivial⟩

theorem uses_bind {f : α → Act E σ ε β} (hm : Uses K k m) (hf : ∀ a, Uses K k (f a)) :
    Uses K k (m >>= f) := by
  intro k' hk' s
  refine Prog.uses_bind (hm k' hk' s) fun r k'' hk'' => ?_
  obtain ⟨r, s'⟩ := r
  cases r with
  | ok a => exact hf a k'' (hk'.trans hk'') s'
  | error e => exact trivial

theorem uses_tryCatch {f : ε → Act E σ ε α} (hm : Uses K k m) (hf : ∀ e, Uses K k (f e)) :
    Uses K k (tryCatchThe ε m f) := by
  intro k' hk' s
  refine Prog.uses_bind (hm k' hk' s) fun r k'' hk'' => ?_
  obtain ⟨r, s'⟩ := r
  cases r with
  | ok a => exact trivial
  | error e => exact hf e k'' (hk'.trans hk'') s'

/-- What follows an operation knows its answer. -/
theorem uses_learn {e : E α} {f : α → Act E σ ε β} (he : ∀ k', k ≤ k' → K.admits k' e)
    (hf : ∀ a k', k ≤ k' → Uses K (K.learn k' e a) (f a)) : Uses K k (perform e >>= f) :=
  fun k' hk' s => ⟨he k' hk', fun a => hf a k' hk' _ le_rfl s⟩

theorem only_of_uses {P : {β : Type} → E β → Prop}
    (hP : ∀ k (β : Type) (e : E β), K.admits k e → P e)
    (hm : Uses K k m) : Only P m :=
  fun s => Prog.only_of_uses hP (hm k le_rfl s)

/-- `m` keeps to what it knows, and `Q` is known of what it returns. -/
def Leads (K : Knowledge E κ) (k : κ) (m : Act E σ ε α) (Q : α → κ → Prop) : Prop :=
  ∀ k', k ≤ k' → ∀ s, (m s).Leads K k' fun r k'' => ∀ a, r.1 = .ok a → Q a k''

variable {Q : α → κ → Prop} {R : β → κ → Prop}

theorem uses_of_leads (hm : Leads K k m Q) : Uses K k m :=
  fun k' hk' s => Prog.uses_of_leads (hm k' hk' s)

/-- The rule of `uses_bind` for a first part that finds something out. -/
theorem uses_bind_leads {f : α → Act E σ ε β} (hm : Leads K k m Q)
    (hf : ∀ a k', k ≤ k' → Q a k' → Uses K k' (f a)) : Uses K k (m >>= f) := by
  intro k' hk' s
  refine Prog.uses_of_leads (Q := fun _ _ => True) (Prog.leads_bind (hm k' hk' s) ?_)
  rintro ⟨r, s'⟩ k'' hk'' hr
  cases r with
  | ok a =>
    have hrest := hf a k'' (hk'.trans hk'') (hr a rfl) k'' le_rfl s'
    exact Prog.leads_mono (Prog.leads_of_uses le_rfl hrest) fun _ _ _ _ => trivial
  | error e => exact trivial

theorem leads_pure {a : α} (h : ∀ k', k ≤ k' → Q a k') :
    Leads K k (Pure.pure a : Act E σ ε α) Q := by
  intro k' hk' s a' ha'
  obtain rfl := Except.ok.inj ha'
  exact h k' hk'

theorem leads_throw (e : ε) : Leads K k (MonadExcept.throw e : Act E σ ε α) Q :=
  fun _ _ _ _ h => nomatch h

theorem leads_modify {f : σ → σ} {Q : Unit → κ → Prop} (h : ∀ k', k ≤ k' → Q () k') :
    Leads K k (modify f : Act E σ ε Unit) Q := fun k' hk' _ _ _ => h k' hk'

theorem leads_perform {e : E α} (he : ∀ k', k ≤ k' → K.admits k' e)
    (hQ : ∀ a k', k ≤ k' → Q a (K.learn k' e a)) : Leads K k (perform e : Act E σ ε α) Q := by
  intro k' hk' s
  refine ⟨he k' hk', fun b a ha => ?_⟩
  obtain rfl := Except.ok.inj ha
  exact hQ b k' hk'

theorem leads_bind {f : α → Act E σ ε β} (hm : Leads K k m Q)
    (hf : ∀ a k', k ≤ k' → Q a k' → Leads K k' (f a) R) : Leads K k (m >>= f) R := by
  intro k' hk' s
  refine Prog.leads_bind (hm k' hk' s) ?_
  rintro ⟨r, s'⟩ k'' hk'' hr
  cases r with
  | ok a => exact hf a k'' (hk'.trans hk'') (hr a rfl) k'' le_rfl s'
  | error e => exact fun _ h => nomatch h

/-- A first part that finds nothing out. -/
theorem leads_uses_bind {f : α → Act E σ ε β} (hm : Uses K k m)
    (hf : ∀ a, Leads K k (f a) R) : Leads K k (m >>= f) R := by
  refine leads_bind (Q := fun _ _ => True) (fun k' hk' s => ?_)
    fun a k' hk' _ k'' hk'' => hf a k'' (hk'.trans hk'')
  exact Prog.leads_mono (Prog.leads_of_uses le_rfl (hm k' hk' s)) fun _ _ _ _ _ _ => trivial

theorem leads_tryCatch {f : ε → Act E σ ε α} (hm : Leads K k m Q) (hf : ∀ e, Leads K k (f e) Q) :
    Leads K k (tryCatchThe ε m f) Q := by
  intro k' hk' s
  refine Prog.leads_bind (hm k' hk' s) ?_
  rintro ⟨r, s'⟩ k'' hk'' hr
  cases r with
  | ok a =>
    intro a' ha'
    exact hr a' ha'
  | error e => exact hf e k'' (hk'.trans hk'') s'

end Act
