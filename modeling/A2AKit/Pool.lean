/-
Pools of programs.

Any number of programs, one for each index `i : ι`, work on one world.  A step of the pool
is an operation of one of them or a step of the surroundings; `Crew.Run` are the runs, with
the list of their moves.

A program `i` is verified alone, in a system whose environment is a relation `rely i`
(`Crew.system`).  `Crew.Fits` says that the pieces go together: the surroundings, and every
operation that another program performs where its requirement is met, stay within `rely i`,
and they keep a common invariant.  Then in every run all programs meet their requirements
(`Crew.Run.sound`).

* `Crew.exists_run_of_check` — concrete runs by evaluation;
* `Linked.crosses` — between two moves with different values of a predicate there is one
  that changes it.
-/
import Mathlib.Logic.Function.Basic
import A2AKit.Interleave

/-- A move of a run and who has made it; `none` are the surroundings. -/
structure PoolMove (ι W : Type) where
  who : Option ι
  before : W
  after : W

/-- The moves lead from `w` to `w'`. -/
inductive Linked {ι W : Type} : W → List (PoolMove ι W) → W → Prop
  | nil (w : W) : Linked w [] w
  | cons {m : PoolMove ι W} {ms : List (PoolMove ι W)} {w : W} : Linked m.after ms w →
      Linked m.before (m :: ms) w

namespace Linked

variable {ι W : Type} {w w' w'' : W} {ms ms' : List (PoolMove ι W)} {m m' : PoolMove ι W}

theorem snoc (h : Linked w ms m.before) : Linked w (ms ++ [m]) m.after := by
  generalize hw : m.before = v at h
  induction h with
  | nil v =>
    subst hw
    exact .cons (.nil _)
  | cons _ ih => exact .cons (ih hw)

theorem split (h : Linked w (ms ++ ms') w'') : ∃ w', Linked w ms w' ∧ Linked w' ms' w'' := by
  induction ms generalizing w with
  | nil => exact ⟨w, .nil w, h⟩
  | cons m ms ih =>
    obtain _ | hrest := h
    obtain ⟨w', h₁, h₂⟩ := ih hrest
    exact ⟨w', .cons h₁, h₂⟩

/-- A predicate that changes along a run is changed by one of its moves. -/
theorem changes {P : W → Prop} (h : Linked w ms w') (hw : ¬ P w) (hw' : P w') :
    ∃ m ∈ ms, ¬ P m.before ∧ P m.after := by
  induction h with
  | nil w => exact absurd hw' hw
  | @cons m ms w hrest ih =>
    by_cases hm : P m.after
    · exact ⟨m, List.mem_cons_self, hw, hm⟩
    · obtain ⟨m', hmem, hm'⟩ := ih hm hw'
      exact ⟨m', List.mem_cons_of_mem m hmem, hm'⟩

/-- Between two moves, a predicate that is false after the first and true before the second
was changed. -/
theorem crosses {P : W → Prop} {a b c : List (PoolMove ι W)}
    (h : Linked w (a ++ m :: (b ++ m' :: c)) w') (hm : ¬ P m.after) (hm' : P m'.before) :
    ∃ m'' ∈ b, ¬ P m''.before ∧ P m''.after := by
  obtain ⟨w₁, -, h₁⟩ := h.split
  obtain _ | hrest := h₁
  obtain ⟨w₂, h₂, h₃⟩ := hrest.split
  obtain _ | _ := h₃
  exact h₂.changes hm hm'

end Linked

/-- What the programs of a pool work on: an operation of program `i` may also touch what the
world holds for `i`. -/
structure Crew (ι : Type) (E : Type → Type) (W : Type) where
  perform : ι → {β : Type} → E β → W → Option (W × β)
  env : W → W → Prop
  ok : ι → {β : Type} → E β → W → Prop

namespace Crew

variable {ι : Type} [DecidableEq ι] {E : Type → Type} {W : Type} {α : ι → Type}

/-- The runs of a pool, with their moves. -/
inductive Run (C : Crew ι E W) (c : (∀ i, Prog E (α i)) × W) : List (PoolMove ι W) →
    (∀ i, Prog E (α i)) × W → Prop
  | nil : Run C c [] c
  | env {ms : List (PoolMove ι W)} {p : ∀ i, Prog E (α i)} {w w' : W} :
      Run C c ms (p, w) → C.env w w' → Run C c (ms ++ [⟨none, w, w'⟩]) (p, w')
  | op {ms : List (PoolMove ι W)} {p : ∀ i, Prog E (α i)} {w w' : W} (i : ι) {β : Type} {e : E β}
      {k : β → Prog E (α i)} {b : β} :
      Run C c ms (p, w) → p i = .op e k → C.ok i e w → C.perform i e w = some (w', b) →
      Run C c (ms ++ [⟨some i, w, w'⟩]) (Function.update p i (k b), w')

theorem Run.linked {C : Crew ι E W} {c c' : (∀ i, Prog E (α i)) × W} {ms : List (PoolMove ι W)}
    (h : C.Run c ms c') : Linked c.2 ms c'.2 := by
  induction h with
  | nil => exact .nil c.2
  | env _ _ ih => exact ih.snoc (m := ⟨none, _, _⟩)
  | op i _ _ _ _ ih => exact ih.snoc (m := ⟨some i, _, _⟩)

/-- The world as program `i` sees it. -/
def system (C : Crew ι E W) (rely : ι → W → W → Prop)
    (req : ι → {β : Type} → E β → W → Prop) (i : ι) : System E W where
  perform := C.perform i
  env := rely i
  ok := C.ok i
  req := req i

/-- The programs fit together: nobody does to the others what they do not rely on. -/
structure Fits (C : Crew ι E W) (rely : ι → W → W → Prop)
    (req : ι → {β : Type} → E β → W → Prop) (I : W → Prop) (G : PoolMove ι W → Prop) : Prop where
  env_rely : ∀ i w w', I w → C.env w w' → rely i w w'
  env_keeps : ∀ w w', I w → C.env w w' → I w'
  env_guar : ∀ w w', I w → C.env w w' → G ⟨none, w, w'⟩
  op_rely : ∀ (i j : ι) {β : Type} (e : E β) w w' b, i ≠ j → I w → C.ok j e w → req j e w →
    C.perform j e w = some (w', b) → rely i w w'
  op_keeps : ∀ (j : ι) {β : Type} (e : E β) w w' b, I w → C.ok j e w → req j e w →
    C.perform j e w = some (w', b) → I w'
  op_guar : ∀ (j : ι) {β : Type} (e : E β) w w' b, I w → C.ok j e w → req j e w →
    C.perform j e w = some (w', b) → G ⟨some j, w, w'⟩

/-- **The parallel rule.** -/
theorem Run.sound {C : Crew ι E W} {rely : ι → W → W → Prop}
    {req : ι → {β : Type} → E β → W → Prop} {I : W → Prop} {G : PoolMove ι W → Prop}
    (hfits : C.Fits rely req I G) {Q : ∀ i, α i → W → Prop} {c c' : (∀ i, Prog E (α i)) × W}
    {ms : List (PoolMove ι W)} (h : C.Run c ms c') (hI : I c.2)
    (hwp : ∀ i, (c.1 i).wp (C.system rely req i) (Q i) c.2) :
    I c'.2 ∧ (∀ i, (c'.1 i).wp (C.system rely req i) (Q i) c'.2) ∧ ∀ m ∈ ms, G m := by
  induction h with
  | nil => exact ⟨hI, hwp, fun m hm => nomatch hm⟩
  | @env ms p w w' _ hstep ih =>
    obtain ⟨hIw, hwp', hG⟩ := ih
    refine ⟨hfits.env_keeps w w' hIw hstep, fun i => ?_, fun m hm => ?_⟩
    · exact Prog.wp_rely (hwp' i) (.single (hfits.env_rely i w w' hIw hstep))
    · rcases List.mem_append.mp hm with hm | hm
      · exact hG m hm
      · obtain rfl := List.mem_singleton.mp hm
        exact hfits.env_guar w w' hIw hstep
  | @op ms p w w' i β e k b _ hpi hok hperf ih =>
    obtain ⟨hIw, hwp', hG⟩ := ih
    have hi : (Prog.op e k).wp (C.system rely req i) (Q i) w := hpi ▸ hwp' i
    obtain ⟨hreq, hk⟩ := hi w .refl hok
    refine ⟨hfits.op_keeps i e w w' b hIw hok hreq hperf, fun j => ?_, fun m hm => ?_⟩
    · by_cases hj : j = i
      · subst hj
        show (Function.update p j (k b) j).wp _ _ _
        rw [Function.update_self]
        exact hk w' b hperf
      · show (Function.update p i (k b) j).wp _ _ _
        rw [Function.update_of_ne hj]
        exact Prog.wp_rely (hwp' j) (.single (hfits.op_rely j i e w w' b hj hIw hok hreq hperf))
    · rcases List.mem_append.mp hm with hm | hm
      · exact hG m hm
      · obtain rfl := List.mem_singleton.mp hm
        exact hfits.op_guar i e w w' b hIw hok hreq hperf

/-! ### Runs by evaluation -/

theorem Run.append {C : Crew ι E W} {c c' c'' : (∀ i, Prog E (α i)) × W}
    {ms ms' : List (PoolMove ι W)} (h : C.Run c ms c') (h' : C.Run c' ms' c'') :
    C.Run c (ms ++ ms') c'' := by
  induction h' with
  | nil =>
    rw [List.append_nil]
    exact h
  | env _ hstep ih =>
    rw [← List.append_assoc]
    exact ih.env hstep
  | op i _ hpi hok hperf ih =>
    rw [← List.append_assoc]
    exact ih.op i hpi hok hperf

/-- What happens next: an operation of a program, or a step of the surroundings. -/
inductive Cue (ι W : Type)
  | program (i : ι)
  | env (f : W → W)

/-- Play the cues, as far as the operations meet `guard`. -/
def play (C : Crew ι E W) (guard : ι → {β : Type} → E β → W → Bool) :
    List (Cue ι W) → (∀ i, Prog E (α i)) × W → Option ((∀ i, Prog E (α i)) × W)
  | [], c => some c
  | .env f :: cues, c => C.play guard cues (c.1, f c.2)
  | .program i :: cues, c =>
    match c.1 i with
    | .ret _ => none
    | .op e k =>
      if guard i e c.2 then
        match C.perform i e c.2 with
        | none => none
        | some (w, b) => C.play guard cues (Function.update c.1 i (k b), w)
      else none

/-- What is played is a run. -/
theorem exists_run_of_play {C : Crew ι E W} {guard : ι → {β : Type} → E β → W → Bool}
    (hok : ∀ (i : ι) {β : Type} (e : E β) w, guard i e w = true → C.ok i e w)
    {cues : List (Cue ι W)} (henv : ∀ f, Cue.env f ∈ cues → ∀ w, C.env w (f w))
    {c c' : (∀ i, Prog E (α i)) × W} (h : C.play guard cues c = some c') : ∃ ms, C.Run c ms c' := by
  induction cues generalizing c with
  | nil =>
    obtain rfl := Option.some_inj.mp h
    exact ⟨[], .nil⟩
  | cons cue cues ih =>
    have henv' : ∀ f, Cue.env f ∈ cues → ∀ w, C.env w (f w) :=
      fun f hf => henv f (List.mem_cons_of_mem _ hf)
    cases cue with
    | env f =>
      obtain ⟨ms, hrun⟩ := ih henv' h
      have hfirst : C.Run c [⟨none, c.2, f c.2⟩] (c.1, f c.2) :=
        Run.env (p := c.1) .nil (henv f List.mem_cons_self c.2)
      exact ⟨_, hfirst.append hrun⟩
    | program i =>
      simp only [play] at h
      split at h
      · exact nomatch h
      · rename_i e k hpi
        split at h
        · rename_i hguard
          split at h
          · exact nomatch h
          · rename_i w b hperf
            obtain ⟨ms, hrun⟩ := ih henv' h
            have hfirst : C.Run c [⟨some i, c.2, w⟩] (Function.update c.1 i (k b), w) :=
              Run.op i .nil hpi (hok i e c.2 hguard) hperf
            exact ⟨_, hfirst.append hrun⟩
        · exact nomatch h

/-- A run with a property of its end that can be evaluated. -/
theorem exists_run_of_check {C : Crew ι E W} {guard : ι → {β : Type} → E β → W → Bool}
    (hok : ∀ (i : ι) {β : Type} (e : E β) w, guard i e w = true → C.ok i e w)
    {cues : List (Cue ι W)} (henv : ∀ f, Cue.env f ∈ cues → ∀ w, C.env w (f w))
    {c : (∀ i, Prog E (α i)) × W} (check : (∀ i, Prog E (α i)) × W → Bool)
    (h : (C.play guard cues c).any check = true) : ∃ ms c', C.Run c ms c' ∧ check c' = true := by
  rcases hplay : C.play guard cues c with _ | c'
  · simp [hplay] at h
  · rw [hplay, Option.any_some] at h
    obtain ⟨ms, hrun⟩ := exists_run_of_play hok henv hplay
    exact ⟨ms, c', hrun, h⟩

/-- A run that goes on as it is played. -/
theorem Run.continues {C : Crew ι E W} {c c' : (∀ i, Prog E (α i)) × W} {ms : List (PoolMove ι W)}
    (hrun : C.Run c ms c') {guard : ι → {β : Type} → E β → W → Bool}
    (hok : ∀ (i : ι) {β : Type} (e : E β) w, guard i e w = true → C.ok i e w)
    {cues : List (Cue ι W)} (henv : ∀ f, Cue.env f ∈ cues → ∀ w, C.env w (f w))
    (check : (∀ i, Prog E (α i)) × W → Bool) (h : (C.play guard cues c').any check = true) :
    ∃ ms c', C.Run c ms c' ∧ check c' = true := by
  obtain ⟨ms', c'', hrun', hcheck⟩ := exists_run_of_check hok henv check h
  exact ⟨_, c'', hrun.append hrun', hcheck⟩

end Crew
