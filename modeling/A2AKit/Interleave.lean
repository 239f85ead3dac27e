/-
Programs that interleave with an environment.

`Prog E α` is a program over the atomic operations `E`; an operation `e : E β`
answers with a `β`.  A `System` says what an operation does to the shared world and
which steps the environment may take between any two operations.  Beside that it
names two conditions on operations: `ok`, which a run is assumed to meet, and `req`,
which a program has to meet.  `Reaches` are the runs: any number of environment steps
before, between and after the operations.

`Prog.wp S p Q w` holds if in every run of `p` from `w`, whatever the environment
does, every operation is performed where `req` allows it (`wp_req`) and a return of
`a` in a world `w'` satisfies `Q a w'` (`wp_sound`).  `Prog.Only P p` says of every
operation that `p` can perform, however it is answered, that it satisfies `P`.

`Act E σ ε` are programs with exceptions `ε` and a private state `σ`, which the
environment does not see and which exceptions do not undo.  `Act.wp` comes with one
rule for each construct, and so does `Act.Triple`, with one postcondition for a return
and one for an exception.
-/
import Mathlib.Logic.Relation

inductive Prog (E : Type → Type) (α : Type) : Type 1
  | ret (a : α)
  | op {β : Type} (e : E β) (k : β → Prog E α)

namespace Prog

variable {E : Type → Type} {α β : Type}

def bind : Prog E α → (α → Prog E β) → Prog E β
  | .ret a, f => f a
  | .op e k, f => .op e fun b => (k b).bind f

end Prog

/-- The world `W` that the operations `E` work on. -/
structure System (E : Type → Type) (W : Type) where
  perform : {β : Type} → E β → W → Option (W × β)
  env : W → W → Prop
  ok : {β : Type} → E β → W → Prop
  req : {β : Type} → E β → W → Prop

namespace System

variable {E : Type → Type} {W : Type} (S : System E W)

/-- Any number of environment steps. -/
abbrev Rely : W → W → Prop := Relation.ReflTransGen S.env

inductive Step {α : Type} : Prog E α × W → Prog E α × W → Prop
  | env {p : Prog E α} {w w' : W} : S.env w w' → Step (p, w) (p, w')
  | op {β : Type} {e : E β} {k : β → Prog E α} {w w' : W} {b : β} :
      S.ok e w → S.perform e w = some (w', b) → Step (.op e k, w) (k b, w')

abbrev Reaches {α : Type} : Prog E α × W → Prog E α × W → Prop := Relation.ReflTransGen S.Step

variable {S} in
theorem Reaches.op {α β : Type} {e : E β} {k : β → Prog E α} {w w' : W} {b : β}
    {c : Prog E α × W} (hok : S.ok e w) (hperf : S.perform e w = some (w', b))
    (h : S.Reaches (k b, w') c) : S.Reaches (.op e k, w) c :=
  .head (.op hok hperf) h

variable {S} in
theorem Reaches.env {α : Type} {p : Prog E α} {w w' : W} {c : Prog E α × W} (hw : S.env w w')
    (h : S.Reaches (p, w') c) : S.Reaches (p, w) c :=
  .head (.env hw) h

/-- The environment keeps `I`. -/
def Stable (I : W → Prop) : Prop := ∀ w w', S.env w w' → I w → I w'

variable {S} in
theorem Stable.rely {I : W → Prop} (hI : S.Stable I) {w w' : W} (h : S.Rely w w') (hw : I w) :
    I w' := by
  induction h with
  | refl => exact hw
  | tail _ hstep ih => exact hI _ _ hstep ih

/-- What the environment and every admitted operation keep, every run keeps. -/
theorem inv_of_reaches {I : W → Prop} {α : Type} (henv : S.Stable I)
    (hop : ∀ (β : Type) (e : E β) w w' b, S.ok e w → S.perform e w = some (w', b) → I w → I w')
    {c c' : Prog E α × W} (h : S.Reaches c c') (hI : I c.2) : I c'.2 := by
  induction h with
  | refl => exact hI
  | tail _ hstep ih =>
    cases hstep with
    | env hw => exact henv _ _ hw ih
    | op hok hperf => exact hop _ _ _ _ _ hok hperf ih

end System

namespace Prog

variable {E : Type → Type} {W α β : Type} (S : System E W)

def wp : Prog E α → (α → W → Prop) → W → Prop
  | .ret a, Q, w => ∀ w', S.Rely w w' → Q a w'
  | .op e k, Q, w => ∀ w₁, S.Rely w w₁ → S.ok e w₁ → S.req e w₁ ∧
      ∀ w₂ b, S.perform e w₁ = some (w₂, b) → (k b).wp Q w₂

variable {S} {p : Prog E α} {Q Q' : α → W → Prop} {w w' : W}

theorem wp_rely (h : p.wp S Q w) (hw : S.Rely w w') : p.wp S Q w' := by
  cases p with
  | ret a => exact fun w'' hw' => h w'' (hw.trans hw')
  | op e k => exact fun w₁ hw₁ => h w₁ (hw.trans hw₁)

theorem wp_mono (h : p.wp S Q w) (hQ : ∀ a w, Q a w → Q' a w) : p.wp S Q' w := by
  induction p generalizing w with
  | ret a => exact fun w' hw => hQ a w' (h w' hw)
  | op e k ih =>
    intro w₁ hw hok
    obtain ⟨hreq, hk⟩ := h w₁ hw hok
    exact ⟨hreq, fun w₂ b hperf => ih b (hk w₂ b hperf)⟩

/-- A postcondition survives what the environment does after the return. -/
theorem wp_stable (h : p.wp S Q w) : p.wp S (fun a w => ∀ w', S.Rely w w' → Q a w') w := by
  induction p generalizing w with
  | ret a => exact fun w' hw w'' hw' => h w'' (hw.trans hw')
  | op e k ih =>
    intro w₁ hw hok
    obtain ⟨hreq, hk⟩ := h w₁ hw hok
    exact ⟨hreq, fun w₂ b hperf => ih b (hk w₂ b hperf)⟩

theorem wp_bind {f : α → Prog E β} {Q : β → W → Prop}
    (h : p.wp S (fun a w => (f a).wp S Q w) w) : (p.bind f).wp S Q w := by
  induction p generalizing w with
  | ret a => exact h w .refl
  | op e k ih =>
    intro w₁ hw hok
    obtain ⟨hreq, hk⟩ := h w₁ hw hok
    exact ⟨hreq, fun w₂ b hperf => ih b (hk w₂ b hperf)⟩

/-- A run of the first half of a program is one of the whole program. -/
theorem reaches_bind {f : α → Prog E β} {p' : Prog E α} (h : S.Reaches (p, w) (p', w')) :
    S.Reaches (p.bind f, w) (p'.bind f, w') := by
  refine Relation.ReflTransGen.lift (fun c : Prog E α × W => (c.1.bind f, c.2)) ?_ _ _ h
  intro c c' hstep
  cases hstep with
  | env hw => exact .env hw
  | op hok hperf => exact .op hok hperf

theorem wp_reaches {c c' : Prog E α × W} (h : S.Reaches c c') (hp : c.1.wp S Q c.2) :
    c'.1.wp S Q c'.2 := by
  induction h with
  | refl => exact hp
  | tail _ hstep ih =>
    cases hstep with
    | env hw => exact wp_rely ih (.single hw)
    | op hok hperf => exact (ih _ .refl hok).2 _ _ hperf

/-- A return satisfies the postcondition. -/
theorem wp_sound (hp : p.wp S Q w) {a : α} (h : S.Reaches (p, w) (.ret a, w')) : Q a w' :=
  wp_reaches h hp w' .refl

/-- Every operation of a run meets its requirement. -/
theorem wp_req (hp : p.wp S Q w) {e : E β} {k : β → Prog E α}
    (h : S.Reaches (p, w) (.op e k, w')) (hok : S.ok e w') : S.req e w' :=
  (wp_reaches h hp w' .refl hok).1

/-- What the environment keeps, and every operation where its requirement is met, every run
keeps. -/
theorem wp_invariant {I : W → Prop} (henv : S.Stable I)
    (hop : ∀ (β : Type) (e : E β) w w' b, S.ok e w → S.req e w → S.perform e w = some (w', b) →
      I w → I w')
    {c c' : Prog E α × W} (h : S.Reaches c c') (hp : c.1.wp S Q c.2) (hw : I c.2) : I c'.2 := by
  induction h with
  | refl => exact hw
  | @tail c₁ c₂ hrun hstep ih =>
    have hp₁ : c₁.1.wp S Q c₁.2 := wp_reaches hrun hp
    cases hstep with
    | env hw' => exact henv _ _ hw' ih
    | @op β e k w₁ w₂ b hok hperf => exact hop β e w₁ w₂ b hok (hp₁ w₁ .refl hok).1 hperf ih

/-! ### Which operations a program performs -/

/-- Every operation that the program can perform, however it is answered, satisfies `P`. -/
def Only (P : {β : Type} → E β → Prop) : Prog E α → Prop
  | .ret _ => True
  | .op e k => P e ∧ ∀ b, (k b).Only P

variable {P : {β : Type} → E β → Prop}

theorem only_mono {P' : {β : Type} → E β → Prop} (hP : ∀ β (e : E β), P e → P' e)
    (hp : p.Only P) : p.Only P' := by
  induction p with
  | ret a => exact trivial
  | op e k ih => exact ⟨hP _ e hp.1, fun b => ih b (hp.2 b)⟩

theorem only_bind {f : α → Prog E β} (hp : p.Only P) (hf : ∀ a, (f a).Only P) :
    (p.bind f).Only P := by
  induction p with
  | ret a => exact hf a
  | op e k ih => exact ⟨hp.1, fun b => ih b (hp.2 b)⟩

theorem only_reaches {c c' : Prog E α × W} (h : S.Reaches c c') (hp : c.1.Only P) :
    c'.1.Only P := by
  induction h with
  | refl => exact hp
  | tail _ hstep ih =>
    cases hstep with
    | env _ => exact ih
    | op _ _ => exact ih.2 _

/-! ### Programs over fewer operations -/

/-- The program over more operations. -/
def lift {F : Type → Type} (f : ∀ β, E β → F β) : Prog E α → Prog F α
  | .ret a => .ret a
  | .op e k => .op (f _ e) fun b => (k b).lift f

theorem only_lift {F : Type → Type} {P : {β : Type} → F β → Prop} {f : ∀ β, E β → F β}
    (hP : ∀ β (e : E β), P (f β e)) : (p.lift f).Only P := by
  induction p with
  | ret a => exact trivial
  | op e k ih => exact ⟨hP _ e, ih⟩

end Prog

/-- The system as the smaller set of operations sees it. -/
def System.comap {E F : Type → Type} {W : Type} (S : System F W) (f : ∀ β, E β → F β) :
    System E W where
  perform e := S.perform (f _ e)
  env := S.env
  ok e := S.ok (f _ e)
  req e := S.req (f _ e)

theorem Prog.wp_lift {E F : Type → Type} {W α : Type} {S : System F W} {f : ∀ β, E β → F β}
    {p : Prog E α} {Q : α → W → Prop} {w : W} (h : p.wp (S.comap f) Q w) : (p.lift f).wp S Q w := by
  induction p generalizing w with
  | ret a => exact h
  | op e k ih =>
    intro w₁ hw hok
    obtain ⟨hreq, hk⟩ := h w₁ hw hok
    exact ⟨hreq, fun w₂ b hperf => ih b (hk w₂ b hperf)⟩

/-- The system whose environment acts in worlds with `K` only. -/
def System.within {E : Type → Type} {W : Type} (S : System E W) (K : W → Prop) : System E W :=
  { S with env := fun w w' => S.env w w' ∧ K w }

/-- A program that is verified against an environment is verified against a smaller one. -/
theorem Prog.wp_env {E : Type → Type} {W α : Type} {S : System E W} {R : W → W → Prop}
    (hR : ∀ w w', R w w' → S.env w w') {p : Prog E α} {Q : α → W → Prop} {w : W}
    (h : p.wp S Q w) : p.wp { S with env := R } Q w := by
  induction p generalizing w with
  | ret a => exact fun w' hw => h w' (Relation.ReflTransGen.mono hR w w' hw)
  | op e k ih =>
    intro w₁ hw hok
    obtain ⟨hreq, hk⟩ := h w₁ (Relation.ReflTransGen.mono hR w w₁ hw) hok
    exact ⟨hreq, fun w₂ b hperf => ih b (hk w₂ b hperf)⟩

/-- What everybody keeps can be assumed of the environment. -/
theorem Prog.wp_within {E : Type → Type} {W α : Type} {S : System E W} {K : W → Prop}
    (henv : S.Stable K)
    (hop : ∀ (β : Type) (e : E β) w w' b, S.perform e w = some (w', b) → K w → K w')
    {p : Prog E α} {Q : α → W → Prop} {w : W} (h : p.wp (S.within K) Q w) (hw : K w) :
    p.wp S Q w := by
  -- a run of the environment that starts with `K` is one of the smaller environment
  have hrely : ∀ {w w' : W}, K w → S.Rely w w' → (S.within K).Rely w w' ∧ K w' := by
    intro w w' hw hrun
    induction hrun with
    | refl => exact ⟨.refl, hw⟩
    | tail _ hstep ih => exact ⟨ih.1.tail ⟨hstep, ih.2⟩, henv _ _ hstep ih.2⟩
  induction p generalizing w with
  | ret a => exact fun w' hrun => h w' (hrely hw hrun).1
  | op e k ih =>
    intro w₁ hrun hok
    obtain ⟨hrun₁, hw₁⟩ := hrely hw hrun
    obtain ⟨hreq, hk⟩ := h w₁ hrun₁ hok
    exact ⟨hreq, fun w₂ b hperf => ih b (hk w₂ b hperf) (hop _ e w₁ w₂ b hperf hw₁)⟩

/-! ### Exceptions and private state -/

/-- Programs with exceptions and a private state. -/
def Act (E : Type → Type) (σ ε α : Type) : Type 1 := σ → Prog E (Except ε α × σ)

namespace Act

variable {E : Type → Type} {σ ε α β : Type}

def pure (a : α) : Act E σ ε α := fun s => .ret (.ok a, s)

def bind (m : Act E σ ε α) (f : α → Act E σ ε β) : Act E σ ε β := fun s =>
  (m s).bind fun r =>
    match r.1 with
    | .ok a => f a r.2
    | .error e => .ret (.error e, r.2)

def throw (e : ε) : Act E σ ε α := fun s => .ret (.error e, s)

/-- Run `m`, and `f e` if it raised `e`. -/
def tryCatch (m : Act E σ ε α) (f : ε → Act E σ ε α) : Act E σ ε α := fun s =>
  (m s).bind fun r =>
    match r.1 with
    | .ok a => .ret (.ok a, r.2)
    | .error e => f e r.2

/-- Run `m`, and up to `n` times again if it raised. -/
def retry (m : Act E σ ε α) : Nat → Act E σ ε α
  | 0 => m
  | n + 1 => m.tryCatch fun _ => m.retry n

instance : Monad (Act E σ ε) where
  pure := Act.pure
  bind := Act.bind

instance : MonadExceptOf ε (Act E σ ε) where
  throw := Act.throw
  tryCatch := Act.tryCatch

def get : Act E σ ε σ := fun s => .ret (.ok s, s)

def modify (f : σ → σ) : Act E σ ε Unit := fun s => .ret (.ok (), f s)

/-- One atomic operation. -/
def perform (e : E α) : Act E σ ε α := fun s => .op e fun a => .ret (.ok a, s)

/-- The program over more operations. -/
def lift {F : Type → Type} (f : ∀ β, E β → F β) (m : Act E σ ε α) : Act F σ ε α :=
  fun s => (m s).lift f

/-! ### Which operations are performed -/

/-- Every operation of `m` satisfies `P`. -/
def Only (P : {β : Type} → E β → Prop) (m : Act E σ ε α) : Prop := ∀ s, (m s).Only P

section

variable {P : {β : Type} → E β → Prop} {m : Act E σ ε α}

theorem only_pure (a : α) : Only P (Pure.pure a : Act E σ ε α) := fun _ => trivial

theorem only_throw (e : ε) : Only P (MonadExcept.throw e : Act E σ ε α) := fun _ => trivial

theorem only_get : Only P (get : Act E σ ε σ) := fun _ => trivial

theorem only_perform {e : E α} (he : P e) : Only P (perform e : Act E σ ε α) :=
  fun _ => ⟨he, fun _ => trivial⟩

theorem only_bind {f : α → Act E σ ε β} (hm : Only P m) (hf : ∀ a, Only P (f a)) :
    Only P (m >>= f) := by
  intro s
  refine Prog.only_bind (hm s) fun r => ?_
  obtain ⟨r, s'⟩ := r
  cases r with
  | ok a => exact hf a s'
  | error e => exact trivial

theorem only_tryCatch {f : ε → Act E σ ε α} (hm : Only P m) (hf : ∀ e, Only P (f e)) :
    Only P (tryCatchThe ε m f) := by
  intro s
  refine Prog.only_bind (hm s) fun r => ?_
  obtain ⟨r, s'⟩ := r
  cases r with
  | ok a => exact trivial
  | error e => exact hf e s'

theorem only_lift {F : Type → Type} {P : {β : Type} → F β → Prop} {f : ∀ β, E β → F β}
    (hP : ∀ β (e : E β), P (f β e)) : Only P (m.lift f) :=
  fun _ => Prog.only_lift hP

end

section

variable {W : Type} (S : System E W)

def wp (m : Act E σ ε α) (Q : Except ε α → σ → W → Prop) (s : σ) (w : W) : Prop :=
  (m s).wp S (fun r w => Q r.1 r.2 w) w

variable {S} {m : Act E σ ε α} {Q Q' : Except ε α → σ → W → Prop} {s : σ} {w w' : W}

theorem wp_rely (h : m.wp S Q s w) (hw : S.Rely w w') : m.wp S Q s w' :=
  Prog.wp_rely h hw

theorem wp_mono (h : m.wp S Q s w) (hQ : ∀ r s w, Q r s w → Q' r s w) : m.wp S Q' s w :=
  Prog.wp_mono h fun r w => hQ r.1 r.2 w

theorem wp_pure {a : α} (h : ∀ w', S.Rely w w' → Q (.ok a) s w') :
    (Pure.pure a : Act E σ ε α).wp S Q s w := h

theorem wp_throw {e : ε} (h : ∀ w', S.Rely w w' → Q (.error e) s w') :
    (MonadExcept.throw e : Act E σ ε α).wp S Q s w := h

theorem wp_get {Q : Except ε σ → σ → W → Prop} (h : ∀ w', S.Rely w w' → Q (.ok s) s w') :
    (get : Act E σ ε σ).wp S Q s w := h

theorem wp_modify {Q : Except ε Unit → σ → W → Prop} {f : σ → σ}
    (h : ∀ w', S.Rely w w' → Q (.ok ()) (f s) w') : (modify f : Act E σ ε Unit).wp S Q s w := h

theorem wp_perform {e : E α} (h : ∀ w₁, S.Rely w w₁ → S.ok e w₁ → S.req e w₁ ∧
    ∀ w₂ a, S.perform e w₁ = some (w₂, a) → ∀ w₃, S.Rely w₂ w₃ → Q (.ok a) s w₃) :
    (perform e : Act E σ ε α).wp S Q s w := h

theorem wp_bind {f : α → Act E σ ε β} {Q : Except ε β → σ → W → Prop}
    (h : m.wp S (fun r s w => match r with
      | .ok a => (f a).wp S Q s w
      | .error e => Q (.error e) s w) s w) : (m >>= f).wp S Q s w := by
  refine Prog.wp_bind (Prog.wp_mono (Prog.wp_stable h) fun r w hr => ?_)
  obtain ⟨r, s⟩ := r
  cases r with
  | ok a => exact hr w .refl
  | error e => exact hr

theorem wp_tryCatch {f : ε → Act E σ ε α}
    (h : m.wp S (fun r s w => match r with
      | .ok a => Q (.ok a) s w
      | .error e => (f e).wp S Q s w) s w) : (tryCatchThe ε m f).wp S Q s w := by
  refine Prog.wp_bind (Prog.wp_mono (Prog.wp_stable h) fun r w hr => ?_)
  obtain ⟨r, s⟩ := r
  cases r with
  | ok a => exact hr
  | error e => exact hr w .refl

/-! ### Triples -/

variable (S) in
/-- From `P`, `m` returns `a` where `Q a` holds, or raises `x` where `X x` holds. -/
def Triple (P : σ → W → Prop) (m : Act E σ ε α) (Q : α → σ → W → Prop) (X : ε → σ → W → Prop) :
    Prop :=
  ∀ s w, P s w → m.wp S (fun r s w => match r with
    | .ok a => Q a s w
    | .error x => X x s w) s w

namespace Triple

variable {P P' : σ → W → Prop} {Q Q' : α → σ → W → Prop} {R : β → σ → W → Prop}
  {X X' : ε → σ → W → Prop}

theorem pure {a : α} (hP : ∀ s, S.Stable (P s)) (h : ∀ s w, P s w → Q a s w) :
    Triple S P (Pure.pure a) Q X := fun s _ hw =>
  wp_pure fun w' hrely => h s w' ((hP s).rely hrely hw)

theorem throw {e : ε} (hP : ∀ s, S.Stable (P s)) (h : ∀ s w, P s w → X e s w) :
    Triple S P (MonadExcept.throw e : Act E σ ε α) Q X := fun s _ hw =>
  wp_throw fun w' hrely => h s w' ((hP s).rely hrely hw)

theorem modify {f : σ → σ} {Q : Unit → σ → W → Prop} (hP : ∀ s, S.Stable (P s))
    (h : ∀ s w, P s w → Q () (f s) w) : Triple S P (modify f) Q X := fun s _ hw =>
  wp_modify fun w' hrely => h s w' ((hP s).rely hrely hw)

/-- The continuation of `get` knows the private state. -/
theorem get_bind {f : σ → Act E σ ε β} (hP : ∀ s, S.Stable (P s))
    (h : ∀ s₀, Triple S (fun s w => s = s₀ ∧ P s w) (f s₀) R X) : Triple S P (get >>= f) R X :=
  fun s _ hw => wp_bind (wp_get fun w' hrely => h s s w' ⟨rfl, (hP s).rely hrely hw⟩)

theorem perform {e : E α} (hP : ∀ s, S.Stable (P s)) (hQ : ∀ a s, S.Stable (Q a s))
    (h : ∀ s w, P s w → S.ok e w →
      S.req e w ∧ ∀ w' a, S.perform e w = some (w', a) → Q a s w') :
    Triple S P (perform e) Q X := by
  intro s w hw
  refine wp_perform fun w₁ hrely hok => ?_
  obtain ⟨hreq, hstep⟩ := h s w₁ ((hP s).rely hrely hw) hok
  exact ⟨hreq, fun w₂ a hperf w₃ hrely' => (hQ a s).rely hrely' (hstep w₂ a hperf)⟩

theorem bind {f : α → Act E σ ε β} (hm : Triple S P m Q X) (hf : ∀ a, Triple S (Q a) (f a) R X) :
    Triple S P (m >>= f) R X := by
  intro s w hw
  refine wp_bind (wp_mono (hm s w hw) ?_)
  rintro (x | a) s' w' hr
  · exact hr
  · exact hf a s' w' hr

theorem tryCatch {f : ε → Act E σ ε α} (hm : Triple S P m Q X)
    (hf : ∀ x, Triple S (X x) (f x) Q X') : Triple S P (tryCatchThe ε m f) Q X' := by
  intro s w hw
  refine wp_tryCatch (wp_mono (hm s w hw) ?_)
  rintro (x | a) s' w' hr
  · exact hf x s' w' hr
  · exact hr

/-- What holds after an exception lets the program be run again. -/
theorem retry (hm : Triple S P m Q fun _ => P) (n : Nat) :
    Triple S P (m.retry n) Q fun _ => P := by
  induction n with
  | zero => exact hm
  | succ n ih => exact tryCatch hm fun _ => ih

theorem pre (hm : Triple S P m Q X) (hP : ∀ s w, P' s w → P s w) : Triple S P' m Q X :=
  fun s w hw => hm s w (hP s w hw)

/-- The private state can be named. -/
theorem fix (h : ∀ s₀, Triple S (fun s w => s = s₀ ∧ P s w) m Q X) : Triple S P m Q X :=
  fun s w hw => h s s w ⟨rfl, hw⟩

theorem conseq (hm : Triple S P m Q X) (hP : ∀ s w, P' s w → P s w)
    (hQ : ∀ a s w, Q a s w → Q' a s w) (hX : ∀ x s w, X x s w → X' x s w) :
    Triple S P' m Q' X' := by
  intro s w hw
  refine wp_mono (hm s w (hP s w hw)) ?_
  rintro (x | a) s' w' hr
  · exact hX x s' w' hr
  · exact hQ a s' w' hr

theorem lift {F : Type → Type} {S : System F W} {f : ∀ β, E β → F β}
    (hm : Triple (S.comap f) P m Q X) : Triple S P (m.lift f) Q X :=
  fun s w hw => Prog.wp_lift (hm s w hw)

theorem within {K : W → Prop} (henv : S.Stable K)
    (hop : ∀ (β : Type) (e : E β) w w' b, S.perform e w = some (w', b) → K w → K w')
    (hm : Triple (S.within K) P m Q X) (hK : ∀ s w, P s w → K w) : Triple S P m Q X :=
  fun s w hw => Prog.wp_within henv hop (hm s w hw) (hK s w hw)

end Triple

end

end Act
