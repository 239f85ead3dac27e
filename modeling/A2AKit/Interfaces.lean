/-
Interfaces, and programs that implement them.

`p.through impl` runs each operation of `p` as a program of an implementation.  The traces of a
program are its operations with what they were answered, for all possible answers.

* `Prog.traces_through` — a trace of `p.through impl` is made up of one trace of the implementation
  for each operation of a trace of `p`;
* `Act.Answers` — what the traces of a program with exceptions satisfy, with a rule for each
  construct.
-/
import A2AKit.Interleave
import Mathlib.Data.List.Flatten
import Mathlib.Data.List.Forall2

/-- An operation and what it was answered. -/
structure Asked (E : Type → Type) where
  {β : Type}
  op : E β
  answer : β

namespace Prog

variable {E I : Type → Type} {α β : Type}

/-- The operations that `p` may perform before it returns `a`. -/
inductive Traces : Prog E α → List (Asked E) → α → Prop
  | ret (a : α) : Traces (.ret a) [] a
  | op {β : Type} (e : E β) (k : β → Prog E α) (b : β) {tr : List (Asked E)} {a : α} :
      Traces (k b) tr a → Traces (.op e k) (⟨e, b⟩ :: tr) a

/-- Every operation of `p` is run by its implementation. -/
def through (impl : ∀ {β : Type}, I β → Prog E β) : Prog I α → Prog E α
  | .ret a => .ret a
  | .op e k => (impl e).bind fun b => (k b).through impl

/-- The trace of `p` where every operation is answered as `answer` says, and what `p` returns. -/
def asked (answer : ∀ {β : Type}, E β → β) : Prog E α → List (Asked E) × α
  | .ret a => ([], a)
  | .op e k =>
    let r := (k (answer e)).asked answer
    (⟨e, answer e⟩ :: r.1, r.2)

theorem traces_asked (answer : ∀ {β : Type}, E β → β) (p : Prog E α) :
    Traces p (p.asked answer).1 (p.asked answer).2 := by
  induction p with
  | ret a => exact .ret a
  | op e k ih => exact .op e k _ (ih _)

theorem traces_bind {p : Prog E α} {f : α → Prog E β} {tr : List (Asked E)} {b : β} :
    Traces (p.bind f) tr b ↔
      ∃ a tr₁ tr₂, tr = tr₁ ++ tr₂ ∧ Traces p tr₁ a ∧ Traces (f a) tr₂ b := by
  induction p generalizing tr with
  | ret a =>
    constructor
    · exact fun h => ⟨a, [], tr, rfl, .ret a, h⟩
    · rintro ⟨_, _, tr₂, rfl, ⟨⟩, h⟩
      exact h
  | op e k ih =>
    constructor
    · rintro (_ | ⟨_, _, c, h⟩)
      obtain ⟨a, tr₁, tr₂, rfl, h₁, h₂⟩ := (ih c).mp h
      exact ⟨a, _, tr₂, rfl, .op e k c h₁, h₂⟩
    · rintro ⟨a, _, tr₂, rfl, _ | ⟨_, _, c, h₁⟩, h₂⟩
      exact .op e _ c ((ih c).mpr ⟨a, _, tr₂, rfl, h₁, h₂⟩)

/-- The traces of an implemented program, operation by operation. -/
theorem traces_through {impl : ∀ {β : Type}, I β → Prog E β} {p : Prog I α}
    {tr : List (Asked E)} {a : α} :
    Traces (p.through impl) tr a ↔ ∃ calls blocks, Traces p calls a ∧
      List.Forall₂ (fun c block => Traces (impl c.op) block c.answer) calls blocks ∧
      tr = blocks.flatten := by
  induction p generalizing tr with
  | ret _ =>
    constructor
    · rintro ⟨⟩
      exact ⟨[], [], .ret a, .nil, rfl⟩
    · rintro ⟨_, _, ⟨⟩, ⟨⟩, rfl⟩
      exact .ret a
  | op e k ih =>
    constructor
    · intro h
      obtain ⟨b, block, tr₂, rfl, hblock, h₂⟩ := traces_bind.mp h
      obtain ⟨calls, blocks, hp, hblocks, rfl⟩ := (ih b).mp h₂
      exact ⟨_, block :: blocks, .op e k b hp, .cons hblock hblocks, rfl⟩
    · rintro ⟨_, _, _ | ⟨_, _, b, hp⟩, _ | ⟨hblock, hblocks⟩, rfl⟩
      exact traces_bind.mpr ⟨b, _, _, rfl, hblock, (ih b).mpr ⟨_, _, hp, hblocks, rfl⟩⟩

end Prog

namespace Act

open Prog (Traces)

variable {E : Type → Type} {σ ε α β : Type}

/-- The program without its private state. -/
def answer (m : Act E Unit ε α) : Prog E (Except ε α) := (m ()).bind fun r => .ret r.1

/-- What the traces of `m` satisfy, together with how they end. -/
def Answers (m : Act E σ ε α) (P : Except ε α → List (Asked E) → Prop) : Prop :=
  ∀ s tr r, Traces (m s) tr r → P r.1 tr

variable {m : Act E σ ε α} {P P' : Except ε α → List (Asked E) → Prop}

theorem Answers.mono (h : Answers m P) (hP : ∀ r tr, P r tr → P' r tr) : Answers m P' :=
  fun s tr r htr => hP r.1 tr (h s tr r htr)

theorem answers_pure (a : α) :
    Answers (pure a : Act E σ ε α) fun r tr => r = .ok a ∧ tr = [] := by
  rintro s tr r ⟨⟩
  exact ⟨rfl, rfl⟩

theorem answers_throw (x : ε) :
    Answers (throw x : Act E σ ε α) fun r tr => r = .error x ∧ tr = [] := by
  rintro s tr r ⟨⟩
  exact ⟨rfl, rfl⟩

theorem answers_perform (e : E α) :
    Answers (perform e : Act E σ ε α) fun r tr => ∃ a, r = .ok a ∧ tr = [⟨e, a⟩] := by
  rintro s tr r (_ | ⟨_, _, a, ⟨⟩⟩)
  exact ⟨a, rfl, rfl⟩

theorem answers_bind {f : α → Act E σ ε β} {Q : α → Except ε β → List (Asked E) → Prop}
    (hm : Answers m P) (hf : ∀ a, Answers (f a) (Q a)) :
    Answers (m >>= f) fun r tr => (∃ x, r = .error x ∧ P (.error x) tr) ∨
      ∃ a tr₁ tr₂, tr = tr₁ ++ tr₂ ∧ P (.ok a) tr₁ ∧ Q a r tr₂ := by
  intro s tr r htr
  obtain ⟨⟨r₁, s₁⟩, tr₁, tr₂, rfl, h₁, h₂⟩ := Prog.traces_bind.mp htr
  have hP := hm s tr₁ (r₁, s₁) h₁
  cases r₁ with
  | error x =>
    cases h₂
    exact Or.inl ⟨x, rfl, by rw [List.append_nil]; exact hP⟩
  | ok a => exact Or.inr ⟨a, tr₁, tr₂, rfl, hP, hf a s₁ tr₂ r h₂⟩

theorem answers_tryCatch {f : ε → Act E σ ε α} {Q : ε → Except ε α → List (Asked E) → Prop}
    (hm : Answers m P) (hf : ∀ x, Answers (f x) (Q x)) :
    Answers (tryCatchThe ε m f) fun r tr => (∃ a, r = .ok a ∧ P (.ok a) tr) ∨
      ∃ x tr₁ tr₂, tr = tr₁ ++ tr₂ ∧ P (.error x) tr₁ ∧ Q x r tr₂ := by
  intro s tr r htr
  obtain ⟨⟨r₁, s₁⟩, tr₁, tr₂, rfl, h₁, h₂⟩ := Prog.traces_bind.mp htr
  have hP := hm s tr₁ (r₁, s₁) h₁
  cases r₁ with
  | ok a =>
    cases h₂
    exact Or.inl ⟨a, rfl, by rw [List.append_nil]; exact hP⟩
  | error x => exact Or.inr ⟨x, tr₁, tr₂, rfl, hP, hf x s₁ tr₂ r h₂⟩

theorem Answers.traces {m : Act E Unit ε α} {P : Except ε α → List (Asked E) → Prop}
    (h : Answers m P) {tr : List (Asked E)} {r : Except ε α} (htr : Traces m.answer tr r) :
    P r tr := by
  obtain ⟨r₁, tr₁, tr₂, rfl, h₁, h₂⟩ := Prog.traces_bind.mp htr
  cases h₂
  rw [List.append_nil]
  exact h () tr₁ r₁ h₁

end Act
