/-
Programs of calls that may raise, and nested scopes.

A call is an event; what it raises is up to an oracle, which knows all calls before.  The calls of a
program are written to a log.  `Act.Logs m P` says of every oracle what `m` adds to the log and how
it ends, and comes with one rule for each construct.

`Act.within enter leave body` enters a scope, runs `body` and leaves the scope however `body` ends.

* `Act.logs_scopes`, `Bracketed.left_eq`, `Bracketed.inner` — of nested scopes, those that were
  entered are left in reverse order, and the innermost program is run where all were entered;
* `Act.logs_sequence` — a list of steps, each of which is taken if those before it have passed.
-/
import A2AKit.Answered
import Mathlib.Data.List.Infix
import Mathlib.Data.List.Nodup
import Mathlib.Data.List.TakeDrop

/-- A call, answered with what it raises. -/
inductive Logged (Ev ε : Type) : Type → Type
  | call (e : Ev) : Logged Ev ε (Option ε)

abbrev CallLog (Ev ε : Type) := List (Ev × Option ε)

namespace Act

variable {Ev ε σ α β : Type}

/-- The oracle answers, and the log has the answer. -/
def logCall (raises : CallLog Ev ε → Ev → Option ε) :
    ∀ β, Logged Ev ε β → CallLog Ev ε → CallLog Ev ε × β
  | _, .call e, log => (log ++ [(e, raises log e)], raises log e)

/-- How a call ends. -/
def ended : Option ε → Except ε Unit
  | none => .ok ()
  | some x => .error x

def call (e : Ev) : Act (Logged Ev ε) σ ε Unit := do
  match ← perform (.call e) with
  | none => return ()
  | some x => throw x

/-- `async with`: the scope is left however the body ends. -/
def within (enter leave : Ev) (body : Act (Logged Ev ε) σ ε α) : Act (Logged Ev ε) σ ε α := do
  call enter
  body.ensure (call leave)

/-- Scopes one inside the other, from the outermost to the innermost. -/
def scopes : List (Ev × Ev) → Act (Logged Ev ε) σ ε α → Act (Logged Ev ε) σ ε α
  | [], body => body
  | s :: rest, body => within s.1 s.2 (scopes rest body)

/-- What `m` adds to the log, and how it ends. -/
def Logs (m : Act (Logged Ev ε) σ ε α) (P : Except ε α → CallLog Ev ε → Prop) : Prop :=
  ∀ raises s w, ∃ r s' l, m.eval (logCall raises) s w = (r, s', w ++ l) ∧ P r l

section

variable {m : Act (Logged Ev ε) σ ε α} {P P' : Except ε α → CallLog Ev ε → Prop}

theorem Logs.mono (h : Logs m P) (hP : ∀ r l, P r l → P' r l) : Logs m P' := by
  intro raises s w
  obtain ⟨r, s', l, heval, hl⟩ := h raises s w
  exact ⟨r, s', l, heval, hP r l hl⟩

theorem logs_pure (a : α) :
    Logs (pure a : Act (Logged Ev ε) σ ε α) fun r l => r = .ok a ∧ l = [] := by
  intro raises s w
  exact ⟨_, s, [], by rw [List.append_nil]; rfl, rfl, rfl⟩

theorem logs_throw (x : ε) :
    Logs (throw x : Act (Logged Ev ε) σ ε α) fun r l => r = .error x ∧ l = [] := by
  intro raises s w
  exact ⟨_, s, [], by rw [List.append_nil]; rfl, rfl, rfl⟩

theorem logs_call (e : Ev) :
    Logs (call e : Act (Logged Ev ε) σ ε Unit) fun r l => ∃ x, r = ended x ∧ l = [(e, x)] := by
  intro raises s w
  refine ⟨ended (raises w e), s, _, ?_, raises w e, rfl, rfl⟩
  have hanswer : logCall raises _ (.call e) w = (w ++ [(e, raises w e)], raises w e) := rfl
  unfold call
  rw [eval_bind, eval_perform, hanswer]
  cases raises w e with
  | none => rfl
  | some x => rfl

theorem logs_bind {f : α → Act (Logged Ev ε) σ ε β} {Q : α → Except ε β → CallLog Ev ε → Prop}
    (hm : Logs m P) (hf : ∀ a, Logs (f a) (Q a)) :
    Logs (m >>= f) fun r l => (∃ x, r = .error x ∧ P (.error x) l) ∨
      ∃ a l₁ l₂, l = l₁ ++ l₂ ∧ P (.ok a) l₁ ∧ Q a r l₂ := by
  intro raises s w
  obtain ⟨r, s', l, heval, hl⟩ := hm raises s w
  rw [eval_bind, heval]
  cases r with
  | error x => exact ⟨_, s', l, rfl, Or.inl ⟨x, rfl, hl⟩⟩
  | ok a =>
    obtain ⟨r', s'', l', heval', hl'⟩ := hf a raises s' (w ++ l)
    refine ⟨r', s'', l ++ l', ?_, Or.inr ⟨a, l, l', rfl, hl, hl'⟩⟩
    rw [← List.append_assoc]
    exact heval'

/-- What `r` raises takes the place of how `m` ended. -/
def afterwards (r : Except ε α) : Except ε Unit → Except ε α
  | .ok _ => r
  | .error x => .error x

theorem logs_ensure {n : Act (Logged Ev ε) σ ε Unit} {Q : Except ε Unit → CallLog Ev ε → Prop}
    (hm : Logs m P) (hn : Logs n Q) :
    Logs (m.ensure n) fun r l => ∃ r₁ l₁ r₂ l₂, r = afterwards r₁ r₂ ∧ l = l₁ ++ l₂ ∧ P r₁ l₁ ∧
      Q r₂ l₂ := by
  intro raises s w
  obtain ⟨r₁, s', l₁, heval, hl₁⟩ := hm raises s w
  obtain ⟨r₂, s'', l₂, heval', hl₂⟩ := hn raises s' (w ++ l₁)
  rw [eval_ensure, heval]
  dsimp only
  rw [heval', List.append_assoc]
  cases r₂ with
  | ok _ => exact ⟨_, _, _, rfl, r₁, l₁, _, l₂, rfl, rfl, hl₁, hl₂⟩
  | error x => exact ⟨_, _, _, rfl, r₁, l₁, _, l₂, rfl, rfl, hl₁, hl₂⟩

theorem logs_tryCatch {f : ε → Act (Logged Ev ε) σ ε α}
    {Q : ε → Except ε α → CallLog Ev ε → Prop} (hm : Logs m P) (hf : ∀ x, Logs (f x) (Q x)) :
    Logs (tryCatchThe ε m f) fun r l => (∃ a, r = .ok a ∧ P (.ok a) l) ∨
      ∃ x l₁ l₂, l = l₁ ++ l₂ ∧ P (.error x) l₁ ∧ Q x r l₂ := by
  intro raises s w
  obtain ⟨r, s', l, heval, hl⟩ := hm raises s w
  rw [eval_tryCatch, heval]
  cases r with
  | ok a => exact ⟨_, s', l, rfl, Or.inl ⟨a, rfl, hl⟩⟩
  | error x =>
    obtain ⟨r', s'', l', heval', hl'⟩ := hf x raises s' (w ++ l)
    refine ⟨r', s'', l ++ l', ?_, Or.inr ⟨x, l, l', rfl, hl, hl'⟩⟩
    rw [← List.append_assoc]
    exact heval'

end

end Act

/-! ### Scopes -/

/-- A log of nested scopes around programs that log what `P` says. -/
def Bracketed {Ev ε : Type} (P : CallLog Ev ε → Prop) : List (Ev × Ev) → CallLog Ev ε → Prop
  | [], l => P l
  | s :: rest, l => (∃ x, l = [(s.1, some x)]) ∨
      ∃ l' y, l = (s.1, none) :: (l' ++ [(s.2, y)]) ∧ Bracketed P rest l'

namespace Act

variable {Ev ε σ α : Type} {body : Act (Logged Ev ε) σ ε α} {P : CallLog Ev ε → Prop}

theorem logs_scopes (hbody : Logs body fun _ => P) (scopeEvents : List (Ev × Ev)) :
    Logs (scopes scopeEvents body) fun _ => Bracketed P scopeEvents := by
  induction scopeEvents with
  | nil => exact hbody
  | cons s rest ih =>
    refine (logs_bind (logs_call s.1) fun _ => logs_ensure ih (logs_call s.2)).mono
      fun r l h => ?_
    rcases h with ⟨x, -, y, hend, rfl⟩ | ⟨_, _, l₂, rfl, ⟨y, hend, rfl⟩, _, l', _, _, -, rfl, hl',
      z, -, rfl⟩
    · cases y with
      | none => cases hend
      | some y => exact Or.inl ⟨y, rfl⟩
    · cases y with
      | none => exact Or.inr ⟨l', z, rfl, hl'⟩
      | some y => cases hend

end Act

namespace Bracketed

variable {Ev ε ρ : Type} {P : CallLog Ev ε → Prop} {l : CallLog Ev ε}

/-- The scopes of a log that were entered. -/
def entered (opens : Ev → Option ρ) (l : CallLog Ev ε) : List ρ :=
  l.filterMap fun q => if q.2.isNone then opens q.1 else none

/-- The scopes of a log that were left, or tried to. -/
def left (closes : Ev → Option ρ) (l : CallLog Ev ε) : List ρ :=
  l.filterMap fun q => closes q.1

/-- The events tell which scope is entered or left. -/
structure Names (opens closes : Ev → Option ρ) (events : ρ → Ev × Ev) : Prop where
  opens_enter : ∀ r, opens (events r).1 = some r
  opens_leave : ∀ r, opens (events r).2 = none
  closes_enter : ∀ r, closes (events r).1 = none
  closes_leave : ∀ r, closes (events r).2 = some r

variable {opens closes : Ev → Option ρ} {events : ρ → Ev × Ev}

theorem entered_cons (q : Ev × Option ε) (l : CallLog Ev ε) :
    entered opens (q :: l) = entered opens [q] ++ entered opens l := by
  rw [entered, entered, entered, ← List.filterMap_append, List.singleton_append]

theorem entered_append (l l' : CallLog Ev ε) :
    entered opens (l ++ l') = entered opens l ++ entered opens l' :=
  List.filterMap_append

theorem left_append (l l' : CallLog Ev ε) :
    left closes (l ++ l') = left closes l ++ left closes l' :=
  List.filterMap_append

section

variable (hnames : Names opens closes events)
include hnames

/-- A scope around a log. -/
theorem entered_around (r : ρ) (l : CallLog Ev ε) (y : Option ε) :
    entered opens (((events r).1, none) :: (l ++ [((events r).2, y)])) = r :: entered opens l := by
  have hfirst : entered opens [((events r).1, (none : Option ε))] = [r] := by
    simp [entered, hnames.opens_enter]
  have hlast : entered opens [((events r).2, y)] = [] := by
    cases y <;> simp [entered, hnames.opens_leave]
  rw [entered_cons, entered_append, hfirst, hlast, List.append_nil]
  rfl

theorem left_around (r : ρ) (l : CallLog Ev ε) (y : Option ε) :
    left closes (((events r).1, none) :: (l ++ [((events r).2, y)])) = left closes l ++ [r] := by
  have hlast : left closes [((events r).2, y)] = [r] := by
    simp [left, hnames.closes_leave]
  have hfirst : left closes [((events r).1, (none : Option ε))] = [] := by
    simp [left, hnames.closes_enter]
  show left closes ([_] ++ (l ++ [_])) = _
  rw [left_append, left_append, hfirst, hlast]
  rfl

/-- **Scopes that were entered are left in reverse order.** -/
theorem left_eq (hP : ∀ l, P l → entered opens l = [] ∧ left closes l = []) {scopes : List ρ}
    (h : Bracketed P (scopes.map events) l) :
    left closes l = (entered opens l).reverse ∧ entered opens l <+: scopes := by
  induction scopes generalizing l with
  | nil =>
    obtain ⟨hentered, hleft⟩ := hP l h
    rw [hentered, hleft]
    exact ⟨rfl, List.nil_prefix⟩
  | cons r scopes ih =>
    rcases h with ⟨x, rfl⟩ | ⟨l', y, rfl, h⟩
    · have hleft : left closes [((events r).1, some x)] = [] := by
        simp [left, hnames.closes_enter]
      have hentered : entered opens [((events r).1, some x)] = [] := by
        simp [entered]
      rw [hentered, hleft]
      exact ⟨rfl, List.nil_prefix⟩
    · obtain ⟨hleft, hprefix⟩ := ih h
      rw [entered_around hnames, left_around hnames, hleft, List.reverse_cons]
      exact ⟨rfl, (List.prefix_cons_inj r).mpr hprefix⟩

/-- Where all scopes were entered, the innermost program was run between them; elsewhere nothing
but scopes was entered and left. -/
theorem inner (hP : ∀ l, P l → entered opens l = [] ∧ left closes l = []) {scopes : List ρ}
    (h : Bracketed P (scopes.map events) l) :
    (entered opens l = scopes ∧ ∃ l₁ l' l₂, l = l₁ ++ (l' ++ l₂) ∧ P l' ∧
        (∀ q ∈ l₁, ∃ r, q.1 = (events r).1) ∧ ∀ q ∈ l₂, ∃ r, q.1 = (events r).2) ∨
      (entered opens l).length < scopes.length ∧
        ∀ q ∈ l, ∃ r, q.1 = (events r).1 ∨ q.1 = (events r).2 := by
  induction scopes generalizing l with
  | nil =>
    refine Or.inl ⟨(hP l h).1, [], l, [], ?_, h, ?_, ?_⟩
    · rw [List.nil_append, List.append_nil]
    · exact fun q hq => absurd hq List.not_mem_nil
    · exact fun q hq => absurd hq List.not_mem_nil
  | cons r scopes ih =>
    rcases h with ⟨x, rfl⟩ | ⟨l', y, rfl, h⟩
    · refine Or.inr ⟨by simp [entered], fun q hq => ?_⟩
      obtain rfl := List.mem_singleton.mp hq
      exact ⟨r, Or.inl rfl⟩
    · rw [entered_around hnames]
      rcases ih h with ⟨hentered, l₁, l₀, l₂, rfl, hl₀, hl₁, hl₂⟩ | ⟨hlength, hall⟩
      · refine Or.inl ⟨by rw [hentered], ((events r).1, none) :: l₁, l₀, l₂ ++ [((events r).2, y)],
          by simp, hl₀, fun q hq => ?_, fun q hq => ?_⟩
        · rcases List.mem_cons.mp hq with rfl | hq
          · exact ⟨r, rfl⟩
          · exact hl₁ q hq
        · rcases List.mem_append.mp hq with hq | hq
          · exact hl₂ q hq
          · obtain rfl := List.mem_singleton.mp hq
            exact ⟨r, rfl⟩
      · refine Or.inr ⟨Nat.succ_lt_succ hlength, fun q hq => ?_⟩
        rcases List.mem_cons.mp hq with rfl | hq
        · exact ⟨r, Or.inl rfl⟩
        · rcases List.mem_append.mp hq with hq | hq
          · exact hall q hq
          · obtain rfl := List.mem_singleton.mp hq
            exact ⟨r, Or.inr rfl⟩

omit hnames in
/-- Every event is one of a scope or of the innermost program. -/
theorem mem_events {scopes : List ρ} (h : Bracketed P (scopes.map events) l) {q : Ev × Option ε}
    (hq : q ∈ l) : (∃ r ∈ scopes, q.1 = (events r).1 ∨ q.1 = (events r).2) ∨
      ∃ l', P l' ∧ q ∈ l' := by
  induction scopes generalizing l with
  | nil => exact Or.inr ⟨l, h, hq⟩
  | cons r scopes ih =>
    rcases h with ⟨x, rfl⟩ | ⟨l', y, rfl, h⟩
    · obtain rfl := List.mem_singleton.mp hq
      exact Or.inl ⟨r, List.mem_cons_self, Or.inl rfl⟩
    · rcases List.mem_cons.mp hq with rfl | hq
      · exact Or.inl ⟨r, List.mem_cons_self, Or.inl rfl⟩
      rcases List.mem_append.mp hq with hq | hq
      · refine (ih h hq).imp_left fun ⟨r', hr', heq⟩ => ?_
        exact ⟨r', List.mem_cons_of_mem r hr', heq⟩
      · obtain rfl := List.mem_singleton.mp hq
        exact Or.inl ⟨r, List.mem_cons_self, Or.inr rfl⟩

/-- No call is made twice. -/
theorem nodup_events (hP : ∀ l, P l → (l.map Prod.fst).Nodup ∧
      ∀ q ∈ l, opens q.1 = none ∧ closes q.1 = none) {scopes : List ρ} (hscopes : scopes.Nodup)
    (h : Bracketed P (scopes.map events) l) : (l.map Prod.fst).Nodup := by
  induction scopes generalizing l with
  | nil => exact (hP l h).1
  | cons r scopes ih =>
    obtain ⟨hr, hscopes⟩ := List.nodup_cons.mp hscopes
    rcases h with ⟨x, rfl⟩ | ⟨l', y, rfl, h⟩
    · exact List.nodup_singleton _
    -- neither event of the scope is an event of what is inside
    have hother : ∀ e, opens e = some r ∨ closes e = some r → e ∉ l'.map Prod.fst := by
      intro e he hmem
      obtain ⟨q, hq, rfl⟩ := List.mem_map.mp hmem
      rcases mem_events h hq with ⟨r', hr', heq | heq⟩ | ⟨l₀, hl₀, hq₀⟩
      · rw [heq, hnames.opens_enter, hnames.closes_enter] at he
        rcases he with he | he
        · exact hr (Option.some.inj he ▸ hr')
        · cases he
      · rw [heq, hnames.opens_leave, hnames.closes_leave] at he
        rcases he with he | he
        · cases he
        · exact hr (Option.some.inj he ▸ hr')
      · obtain ⟨hopens, hcloses⟩ := (hP l₀ hl₀).2 q hq₀
        rw [hopens, hcloses] at he
        rcases he with he | he
        · cases he
        · cases he
    rw [List.map_cons, List.map_append, List.map_singleton]
    refine List.nodup_cons.mpr ⟨fun hmem => ?_, ?_⟩
    · rcases List.mem_append.mp hmem with hmem | hmem
      · exact hother _ (Or.inl (hnames.opens_enter r)) hmem
      · have heq : (events r).1 = (events r).2 := List.mem_singleton.mp hmem
        have hopens := hnames.opens_leave r
        rw [← heq, hnames.opens_enter] at hopens
        cases hopens
    · refine List.nodup_append.mpr ⟨ih hscopes h, List.nodup_singleton _, fun e he e' he' => ?_⟩
      rintro rfl
      obtain rfl := List.mem_singleton.mp he'
      exact hother _ (Or.inr (hnames.closes_leave r)) he

end

end Bracketed

/-! ### Sequences -/

/-- The log of steps in a row: a step that does not pass is the last one. -/
def Sequenced {Ev ε : Type} (passes : Ev → Option ε → Prop) : List Ev → CallLog Ev ε → Prop
  | [], l => l = []
  | e :: rest, l => (∃ x, ¬ passes e x ∧ l = [(e, x)]) ∨
      ∃ x l', passes e x ∧ l = (e, x) :: l' ∧ Sequenced passes rest l'

namespace Act

variable {Ev ε σ : Type} {step : Ev → Act (Logged Ev ε) σ ε Unit} {passes : Ev → Option ε → Prop}

def sequence (step : Ev → Act (Logged Ev ε) σ ε Unit) : List Ev → Act (Logged Ev ε) σ ε Unit
  | [] => return ()
  | e :: rest => do
    step e
    sequence step rest

theorem logs_sequence
    (hstep : ∀ e, Logs (step e) fun r l => ∃ x, l = [(e, x)] ∧ (passes e x ↔ r = .ok ()))
    (steps : List Ev) : Logs (sequence step steps) fun _ => Sequenced passes steps := by
  induction steps with
  | nil => exact (logs_pure ()).mono fun _ _ h => h.2
  | cons e rest ih =>
    refine (logs_bind (hstep e) fun _ => ih).mono fun r l h => ?_
    rcases h with ⟨x, -, y, rfl, hy⟩ | ⟨_, _, l₂, rfl, ⟨y, rfl, hy⟩, hl₂⟩
    · refine Or.inl ⟨y, fun hpass => ?_, rfl⟩
      cases hy.mp hpass
    · exact Or.inr ⟨y, l₂, hy.mpr rfl, rfl, hl₂⟩

end Act

namespace Sequenced

variable {Ev ε : Type} {passes : Ev → Option ε → Prop} {steps : List Ev} {l : CallLog Ev ε}

theorem prefix_steps (h : Sequenced passes steps l) : l.map Prod.fst <+: steps := by
  induction steps generalizing l with
  | nil =>
    obtain rfl : l = [] := h
    exact List.nil_prefix
  | cons e rest ih =>
    rcases h with ⟨x, -, rfl⟩ | ⟨x, l', -, rfl, h⟩
    · exact (List.prefix_cons_inj e).mpr List.nil_prefix
    · exact (List.prefix_cons_inj e).mpr (ih h)

/-- **A step is taken if and only if those before it have passed.** -/
theorem mem_iff (h : Sequenced passes steps l) (hnodup : steps.Nodup) {before after : List Ev}
    {e : Ev} (hsteps : steps = before ++ e :: after) :
    e ∈ l.map Prod.fst ↔ ∀ e' ∈ before, ∃ x, (e', x) ∈ l ∧ passes e' x := by
  induction steps generalizing l before with
  | nil => cases before <;> cases hsteps
  | cons e₁ rest ih =>
    obtain ⟨hfirst, hnodup⟩ := List.nodup_cons.mp hnodup
    cases before with
    | nil =>
      obtain ⟨rfl, rfl⟩ := List.cons.inj hsteps
      refine iff_of_true ?_ fun e' he' => absurd he' List.not_mem_nil
      rcases h with ⟨x, -, rfl⟩ | ⟨x, l', -, rfl, -⟩
      · exact List.mem_cons_self
      · exact List.mem_cons_self
    | cons e₂ before =>
      obtain ⟨rfl, rfl⟩ := List.cons.inj hsteps
      have hne : e ≠ e₁ := by
        rintro rfl
        exact hfirst (List.mem_append_right _ List.mem_cons_self)
      rcases h with ⟨x, hfails, rfl⟩ | ⟨x, l', hpasses, rfl, h⟩
      · refine iff_of_false (fun hmem => hne (List.mem_singleton.mp hmem)) fun hall => ?_
        obtain ⟨y, hy, hpass⟩ := hall e₁ List.mem_cons_self
        obtain rfl := (Prod.mk.inj (List.mem_singleton.mp hy)).2
        exact hfails hpass
      · rw [List.map_cons, List.mem_cons, ih h hnodup rfl]
        constructor
        · rintro (heq | hall) e' he'
          · exact absurd heq hne
          · rcases List.mem_cons.mp he' with rfl | he'
            · exact ⟨x, List.mem_cons_self, hpasses⟩
            · obtain ⟨y, hy, hpass⟩ := hall e' he'
              exact ⟨y, List.mem_cons_of_mem _ hy, hpass⟩
        · intro hall
          refine Or.inr fun e' he' => ?_
          obtain ⟨y, hy, hpass⟩ := hall e' (List.mem_cons_of_mem _ he')
          rcases List.mem_cons.mp hy with heq | hy
          · obtain ⟨rfl, -⟩ := Prod.mk.inj heq
            exact absurd (List.mem_append_left _ he') hfirst
          · exact ⟨y, hy, hpass⟩

end Sequenced
