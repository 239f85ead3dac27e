/-
Programs whose operations are answered by an oracle.

Without an environment a program is a function: `Prog.eval answer p w` is what `p` returns from the
world `w` where `answer` says what every operation does and answers.  `Act.attempt` and
`Act.ensure` are the constructs of exception handling that look at how a program ends.

* `Act.eval_bind`, `Act.eval_tryCatch`, `Act.eval_ensure` — evaluation, construct by construct;
* `Act.Triple.of_only` — what every operation of a program keeps, the program keeps;
* `Act.Triple.eval` — what the rules of triples prove holds of the evaluation.
-/
import A2AKit.Interleave

namespace Prog

variable {E : Type → Type} {W α β : Type}

def eval (answer : ∀ β, E β → W → W × β) : Prog E α → W → α × W
  | .ret a, w => (a, w)
  | .op e k, w => (k (answer _ e w).2).eval answer (answer _ e w).1

theorem eval_bind {answer : ∀ β, E β → W → W × β} {p : Prog E α} {f : α → Prog E β} {w : W} :
    (p.bind f).eval answer w = (f (p.eval answer w).1).eval answer (p.eval answer w).2 := by
  induction p generalizing w with
  | ret a => rfl
  | op e k ih => exact ih _

end Prog

/-- The world in which nobody else acts. -/
def System.answered {E : Type → Type} {W : Type} (answer : ∀ β, E β → W → W × β) :
    System E W where
  perform e w := some (answer _ e w)
  env _ _ := False
  ok _ _ := True
  req _ _ := True

theorem System.stable_answered {E : Type → Type} {W : Type} {answer : ∀ β, E β → W → W × β}
    {I : W → Prop} : (System.answered answer).Stable I := fun _ _ h => h.elim

theorem Prog.wp_eval {E : Type → Type} {W α : Type} {answer : ∀ β, E β → W → W × β}
    {p : Prog E α} {Q : α → W → Prop} {w : W} (h : p.wp (System.answered answer) Q w) :
    Q (p.eval answer w).1 (p.eval answer w).2 := by
  induction p generalizing w with
  | ret a => exact h w .refl
  | op e k ih => exact ih _ ((h w .refl trivial).2 _ _ rfl)

theorem Prog.wp_of_only {E : Type → Type} {W α : Type} {answer : ∀ β, E β → W → W × β}
    {P : {β : Type} → E β → Prop} {I : W → Prop} {p : Prog E α} {w : W} (hp : p.Only P)
    (hI : ∀ (β : Type) (e : E β) w, P e → I w → I (answer β e w).1) (hw : I w) :
    p.wp (System.answered answer) (fun _ => I) w := by
  induction p generalizing w with
  | ret a => exact fun w' hrely => System.stable_answered.rely hrely hw
  | op e k ih =>
    intro w₁ hrely _
    have hw₁ : I w₁ := System.stable_answered.rely hrely hw
    refine ⟨trivial, fun w₂ b hperf => ih b (hp.2 b) ?_⟩
    obtain ⟨rfl, -⟩ := Prod.mk.inj (Option.some.inj hperf)
    exact hI _ e w₁ hp.1 hw₁

namespace Act

variable {E : Type → Type} {W σ ε α β : Type}

/-- How `m` ends. -/
def attempt (m : Act E σ ε α) : Act E σ ε (Except ε α) := fun s =>
  (m s).bind fun r => .ret (.ok r.1, r.2)

/-- Run `r` after `m`, however `m` ends; what `r` raises takes the place of how `m` ended. -/
def ensure (m : Act E σ ε α) (r : Act E σ ε Unit) : Act E σ ε α := do
  match ← m.attempt with
  | .ok a => do
    r
    return a
  | .error e => do
    r
    throw e

def eval (answer : ∀ β, E β → W → W × β) (m : Act E σ ε α) (s : σ) (w : W) :
    Except ε α × σ × W :=
  match (m s).eval answer w with
  | ((r, s'), w') => (r, s', w')

variable {answer : ∀ β, E β → W → W × β} {m : Act E σ ε α} {s : σ} {w : W}

@[simp] theorem eval_pure {a : α} :
    (Pure.pure a : Act E σ ε α).eval answer s w = (.ok a, s, w) := rfl

@[simp] theorem eval_throw {e : ε} :
    (MonadExcept.throw e : Act E σ ε α).eval answer s w = (.error e, s, w) := rfl

@[simp] theorem eval_get : (get : Act E σ ε σ).eval answer s w = (.ok s, s, w) := rfl

@[simp] theorem eval_modify {f : σ → σ} :
    (modify f : Act E σ ε Unit).eval answer s w = (.ok (), f s, w) := rfl

@[simp] theorem eval_perform {e : E α} :
    (perform e : Act E σ ε α).eval answer s w = (.ok (answer _ e w).2, s, (answer _ e w).1) := rfl

theorem eval_bind {f : α → Act E σ ε β} :
    (m >>= f).eval answer s w = match m.eval answer s w with
      | (.ok a, s', w') => (f a).eval answer s' w'
      | (.error e, s', w') => (.error e, s', w') := by
  show (Act.bind m f).eval answer s w = _
  unfold eval Act.bind
  rw [Prog.eval_bind]
  rcases (m s).eval answer w with ⟨⟨r, s'⟩, w'⟩
  cases r with
  | ok a => rfl
  | error e => rfl

theorem eval_tryCatch {f : ε → Act E σ ε α} :
    (tryCatchThe ε m f).eval answer s w = match m.eval answer s w with
      | (.ok a, s', w') => (.ok a, s', w')
      | (.error e, s', w') => (f e).eval answer s' w' := by
  show (Act.tryCatch m f).eval answer s w = _
  unfold eval Act.tryCatch
  rw [Prog.eval_bind]
  rcases (m s).eval answer w with ⟨⟨r, s'⟩, w'⟩
  cases r with
  | ok a => rfl
  | error e => rfl

theorem eval_attempt : m.attempt.eval answer s w = match m.eval answer s w with
    | (r, s', w') => (.ok r, s', w') := by
  unfold eval attempt
  rw [Prog.eval_bind]
  rfl

theorem eval_ensure {r : Act E σ ε Unit} :
    (m.ensure r).eval answer s w = match m.eval answer s w with
      | (x, s', w') => match r.eval answer s' w' with
        | (.ok _, s'', w'') => (x, s'', w'')
        | (.error e, s'', w'') => (.error e, s'', w'') := by
  unfold ensure
  rw [eval_bind, eval_attempt]
  rcases m.eval answer s w with ⟨x, s', w'⟩
  cases x with
  | ok a =>
    show (r >>= fun _ => Pure.pure a).eval answer s' w' = _
    rw [eval_bind]
    dsimp only
    rcases r.eval answer s' w' with ⟨y, s'', w''⟩
    cases y with
    | ok _ => rfl
    | error e => rfl
  | error e =>
    show (r >>= fun _ => MonadExcept.throw e).eval answer s' w' = _
    rw [eval_bind]
    dsimp only
    rcases r.eval answer s' w' with ⟨y, s'', w''⟩
    cases y with
    | ok _ => rfl
    | error e => rfl

theorem only_attempt {P : {β : Type} → E β → Prop} (hm : Only P m) : Only P m.attempt :=
  fun s => Prog.only_bind (hm s) fun _ => trivial

theorem only_ensure {P : {β : Type} → E β → Prop} {r : Act E σ ε Unit} (hm : Only P m)
    (hr : Only P r) : Only P (m.ensure r) := by
  refine only_bind (only_attempt hm) fun y => ?_
  cases y with
  | ok a => exact only_bind hr fun _ => only_pure a
  | error e => exact only_bind hr fun _ => only_throw e

/-! ### Triples -/

namespace Triple

variable {S : System E W} {P : σ → W → Prop} {Q Q' : α → σ → W → Prop} {X X' : ε → σ → W → Prop}

theorem attempt (hm : Triple S P m Q X) :
    Triple S P m.attempt (fun r s w => match r with
      | .ok a => Q a s w
      | .error x => X x s w) X' := by
  intro s w hw
  refine Prog.wp_bind (Prog.wp_mono (Prog.wp_stable (hm s w hw)) fun r w' hr => ?_)
  obtain ⟨r, s'⟩ := r
  exact fun w'' hrely => hr w'' hrely

/-- The rule of `ensure`, where what is run after `m` keeps what `m` left. -/
theorem ensure {r : Act E σ ε Unit} (hm : Triple S P m Q X)
    (hok : ∀ a, Triple S (Q a) r (fun _ => Q a) X) (hx : ∀ x, Triple S (X x) r (fun _ => X x) X)
    (hQ : ∀ a s, S.Stable (Q a s)) (hX : ∀ x s, S.Stable (X x s)) :
    Triple S P (m.ensure r) Q X := by
  unfold Act.ensure
  refine bind (attempt hm) fun y => ?_
  cases y with
  | ok a => exact bind (hok a) fun _ => pure (hQ a) fun _ _ h => h
  | error e => exact bind (hx e) fun _ => throw (hX e) fun _ _ h => h

/-- What every operation of a program keeps, the program keeps. -/
theorem of_only {P : {β : Type} → E β → Prop} {I : W → Prop} (hm : Only P m)
    (hI : ∀ (β : Type) (e : E β) w, P e → I w → I (answer β e w).1) :
    Triple (System.answered answer) (fun _ => I) m (fun _ _ => I) (fun _ _ => I) := by
  intro s w hw
  have h : (m s).wp (System.answered answer) (fun _ => I) w := Prog.wp_of_only (hm s) hI hw
  refine Prog.wp_mono h fun r w' hr => ?_
  obtain ⟨r, s'⟩ := r
  cases r with
  | ok a => exact hr
  | error e => exact hr

/-- What is proved of a program holds of its evaluation. -/
theorem eval (hm : Triple (System.answered answer) P m Q X) (hP : P s w) :
    match m.eval answer s w with
    | (.ok a, s', w') => Q a s' w'
    | (.error x, s', w') => X x s' w' := by
  have h := Prog.wp_eval (hm s w hP)
  unfold Act.eval
  rcases heval : (m s).eval answer w with ⟨⟨r, s'⟩, w'⟩
  rw [heval] at h
  cases r with
  | ok a => exact h
  | error x => exact h

end Triple

end Act
