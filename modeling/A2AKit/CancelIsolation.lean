/-
Isolation of cancel scopes.

`cleanup` takes every scope of its task out of the registry, also the scope of a follow-up turn
that has started in the meantime, and releases it.  The follow-up then neither listens nor looks
for the key again, and a request does not reach it.

* `turns_isolated_iff` — the scopes of the turns under way have their subscription and listener,
  and detect every request, at every moment of a run if and only if no cleanup releases the scope
  of another turn that has not been told to stop;
* `avoids_of_spaced` — so it is where no turn is under way in the registry at the moment at which
  another turn of its task takes its scopes out.
-/
import A2AKit.CancelDetection

namespace A2AKit

namespace CancelSystem

variable {keyPrefix : String} {taskId : TaskId} {s s' : CancelSystem} {a : CancelAction} {o : Unit}
  {i j : Nat} {turn : CancelTurn}

/-- The turns of the task that are under way have their subscription and listener, and a request
that is through has its event set where a scope has nothing left to do. -/
def Isolated (keyPrefix : String) (taskId : TaskId) (s : CancelSystem) : Prop :=
  s.Attended taskId ∧ ∀ j turn, s.turns[j]? = some turn → turn.scope.taskId = taskId →
    turn.phase = .running → s.Completed taskId → s.Quiet keyPrefix j → turn.scope.event = true

/-- A scope that is released without an event has lost its listener. -/
theorem not_wired_release {sc : RedisCancelScope} (hevent : sc.event = false) :
    ¬ sc.release.Wired := by
  rintro (h | h)
  · exact nomatch hevent.symm.trans h
  · by_cases hdone : sc.startup = .done
    · simp only [RedisCancelScope.release, if_pos hdone] at h
      exact nomatch h.1
    · simp only [RedisCancelScope.release, if_neg hdone] at h

/-- The release of another turn's scope ends its isolation. -/
theorem not_attended_of_disables (h : s.step keyPrefix a = some (s', o))
    (hdis : s.Disables taskId a) : ¬ s'.Attended taskId := by
  obtain ⟨i, j, cleaner, rest, other, rfl, hcleaner, hphase, hother, htask, hrunning, hevent⟩ :=
    hdis
  have hne : i ≠ j := by
    rintro rfl
    obtain rfl := Option.some_inj.mp (hcleaner.symm.trans hother)
    exact nomatch hphase.symm.trans hrunning
  simp only [step, hcleaner, hphase] at h
  obtain ⟨rfl, -⟩ := Prod.mk.inj (Option.some_inj.mp h)
  have hreleased : ((s.turns.modify j fun t => { t with scope := t.scope.release }).modify i
      fun t => { t with phase := .releasing rest })[j]? =
        some { other with scope := other.scope.release } := by
    rw [List.getElem?_modify_ne _ _ hne, List.getElem?_modify_eq, hother]
    rfl
  intro hatt
  exact not_wired_release hevent (hatt _ (List.mem_of_getElem? hreleased) htask hrunning)

/-- **When the turns of a task do not disable each other.**  In a run of any number of turns whose
cleanups keep the cancel key of the task, the scopes of its turns under way keep their subscription
and listener and detect every request, at every moment, if and only if no cleanup releases the
scope of another turn that is under way and has not been told to stop. -/
theorem turns_isolated_iff (keyPrefix : String) (taskId : TaskId)
    {tr : List (CancelAction × Unit)} {s : CancelSystem}
    (hrun : Run (CancelSystem.step keyPrefix) (KeepsKey taskId) {} tr s) :
    Run.Throughout (CancelSystem.step keyPrefix) (KeepsKey taskId) {} tr
        (Isolated keyPrefix taskId) ↔
      Run.Avoids (CancelSystem.step keyPrefix) (KeepsKey taskId) {} tr (Disables taskId) := by
  refine hrun.throughout_iff_avoids (J := CancelInv keyPrefix taskId) cancelInv_start
    ⟨attended_start, fun _ _ hturn => absurd (List.mem_of_getElem? hturn) List.not_mem_nil⟩
    (fun u a v o hinv hiso hkeeps hopen hstep => ?_)
    fun u a v o hinv hiso hkeeps hstep => ⟨fun hiso' hdis => ?_, fun hopen => ?_⟩
  · exact hinv.step hiso.1 hkeeps hopen hstep
  · exact not_attended_of_disables hstep hdis hiso'.1
  · have hinv' := hinv.step hiso.1 hkeeps hopen hstep
    have hatt' := hiso.1.step hopen hstep
    refine ⟨hatt', fun j turn hturn htask hrunning hcompleted hquiet => ?_⟩
    exact hinv'.detects hatt' hturn htask hrunning hcompleted hquiet

/-! ### Turns that do not overlap -/

/-- A turn takes its scopes out of the registry while another turn of the task is under way in
it. -/
def Overlaps (taskId : TaskId) (s : CancelSystem) (a : CancelAction) : Prop :=
  ∃ i j cleaner other, a = .proceed i ∧ s.turns[i]? = some cleaner ∧
    cleaner.phase = .collecting ∧ cleaner.scope.taskId = taskId ∧ j ∈ s.scopes ∧
    s.turns[j]? = some other ∧ other.scope.taskId = taskId ∧ other.phase = .running

/-- The registry and the cleanups know turns that exist, and what a cleanup of the task has taken
out of the registry is not under way. -/
structure Spaced (taskId : TaskId) (s : CancelSystem) : Prop where
  known : ∀ j ∈ s.scopes, j < s.turns.length
  ended : ∀ (i : Nat) (cleaner : CancelTurn), s.turns[i]? = some cleaner →
    ∀ todo, cleaner.phase = .releasing todo → ∀ j ∈ todo, ∃ other : CancelTurn,
      s.turns[j]? = some other ∧ (other.scope.taskId = taskId → other.phase ≠ .running)

/-- A turn stays in its place. -/
theorem turn_stays (h : CancelMove keyPrefix s a s') (hturn : s.turns[j]? = some turn) :
    ∃ turn', s'.turns[j]? = some turn' ∧ ScopeMove keyPrefix s a j turn turn' := by
  have hlt : j < s.turns.length := (List.getElem?_eq_some_iff.mp hturn).1
  have hlength : s.turns.length ≤ s'.turns.length := by
    cases h with
    | onCancel t => simp [onCancel]
    | startup _ _ => simp [setScope]
    | listen _ _ => simp [setScope]
    | requestCancel t => exact Nat.le_refl _
    | set _ _ => exact Nat.le_refl _
    | publish _ _ => simp [publish, setRequest]
    | cleanup _ _ _ => simp [setPhase]
    | delete _ _ => simp [setPhase]
    | collect _ _ => simp [setPhase]
    | release _ _ => simp [setPhase]
  have hturn' := List.getElem?_eq_getElem (Nat.lt_of_lt_of_le hlt hlength)
  refine ⟨_, hturn', ?_⟩
  rcases turn_origin h hturn' with ⟨hnone, -⟩ | ⟨turn₀, hturn₀, hmove⟩
  · exact nomatch hnone.symm.trans hturn
  · obtain rfl := Option.some_inj.mp (hturn.symm.trans hturn₀)
    exact hmove

/-- A cleanup releases what it has taken out of the registry. -/
theorem todo_origin {todo : List Nat} (h : CancelMove keyPrefix s a s')
    (hturn : s'.turns[i]? = some turn) (hphase : turn.phase = .releasing todo) :
    (∃ before todo', s.turns[i]? = some before ∧ before.phase = .releasing todo' ∧
        todo ⊆ todo') ∨
      ∃ before, s.turns[i]? = some before ∧ a = .proceed i ∧ before.phase = .collecting ∧
        todo = s.scopes.filter (s.isOf before.scope.taskId) := by
  have hstill : ∀ before : CancelTurn, s.turns[i]? = some before → before.phase = turn.phase →
      ∃ before todo', s.turns[i]? = some before ∧ before.phase = .releasing todo' ∧
        todo ⊆ todo' :=
    fun before hbefore heq => ⟨before, todo, hbefore, heq.trans hphase, List.Subset.refl _⟩
  have hmodify : ∀ {k : Nat} {phase : CancelTurnPhase}, (∀ todo, phase ≠ .releasing todo) →
      (s.turns.modify k fun t => { t with phase })[i]? = some turn →
      ∃ before todo', s.turns[i]? = some before ∧ before.phase = .releasing todo' ∧
        todo ⊆ todo' := by
    intro k phase hne hmod
    obtain ⟨y, hy, rfl⟩ := getElem?_modify_some hmod
    by_cases hk : k = i
    · rw [if_pos hk] at hphase
      exact absurd hphase (hne todo)
    · exact hstill y hy (by rw [if_neg hk])
  cases h with
  | onCancel t =>
    rcases getElem?_concat_some hturn with hold | ⟨-, rfl⟩
    · exact Or.inl (hstill turn hold rfl)
    · exact nomatch hphase
  | startup _ _ =>
    obtain ⟨y, hy, rfl⟩ := getElem?_modify_some hturn
    exact Or.inl (hstill y hy (by split <;> rfl))
  | listen _ _ =>
    obtain ⟨y, hy, rfl⟩ := getElem?_modify_some hturn
    exact Or.inl (hstill y hy (by split <;> rfl))
  | requestCancel t => exact Or.inl (hstill turn hturn rfl)
  | set _ _ => exact Or.inl (hstill turn hturn rfl)
  | publish _ _ =>
    have hmap : (s.turns.map _)[i]? = some turn := hturn
    rw [List.getElem?_map] at hmap
    obtain ⟨y, hy, rfl⟩ := Option.map_eq_some_iff.mp hmap
    exact Or.inl (hstill y hy rfl)
  | cleanup releaseKey _ _ =>
    refine Or.inl (hmodify ?_ hturn)
    cases releaseKey with
    | true => exact fun _ => nofun
    | false => exact fun _ => nofun
  | delete _ _ =>
    have hne : ∀ todo, CancelTurnPhase.collecting ≠ .releasing todo := fun _ => nofun
    exact Or.inl (hmodify hne hturn)
  -- here the list is taken out of the registry, all at once
  | @collect k cleaner hk hcollecting =>
    obtain ⟨y, hy, rfl⟩ := getElem?_modify_some hturn
    by_cases heq : k = i
    · subst heq
      obtain rfl := Option.some_inj.mp (hk.symm.trans hy)
      rw [if_pos rfl] at hphase
      exact Or.inr ⟨cleaner, hk, rfl, hcollecting, (CancelTurnPhase.releasing.inj hphase).symm⟩
    · exact Or.inl (hstill y hy (by rw [if_neg heq]))
  -- the list only gets shorter from here on
  | @release k m cleaner rest hk hreleasing =>
    obtain ⟨z, hz, rfl⟩ := getElem?_modify_some hturn
    obtain ⟨y, hy, rfl⟩ := getElem?_modify_some hz
    by_cases heq : k = i
    · subst heq
      obtain rfl := Option.some_inj.mp (hk.symm.trans hy)
      rw [if_pos rfl] at hphase
      refine Or.inl ⟨cleaner, m :: rest, hk, hreleasing, ?_⟩
      rw [← CancelTurnPhase.releasing.inj hphase]
      exact List.subset_cons_self _ _
    · refine Or.inl (hstill y hy ?_)
      rw [if_neg heq]
      split <;> rfl

theorem Spaced.step (hsp : s.Spaced taskId) (hopen : ¬ s.Overlaps taskId a)
    (h : s.step keyPrefix a = some (s', o)) : s'.Spaced taskId := by
  have hmove := cancelMove h
  refine ⟨fun j hj => ?_, fun i cleaner hcleaner todo hphase j hj => ?_⟩
  · have hold : j ∈ s.scopes → j < s'.turns.length := by
      intro hin
      obtain ⟨turn', hturn', -⟩ :=
        turn_stays hmove (List.getElem?_eq_getElem (hsp.known j hin))
      exact (List.getElem?_eq_some_iff.mp hturn').1
    cases hmove with
    | onCancel t =>
      rcases List.mem_append.mp hj with hin | hin
      · exact hold hin
      · obtain rfl := List.mem_singleton.mp hin
        simp [onCancel]
    | collect _ _ => exact hold (List.mem_filter.mp hj).1
    | _ => exact hold hj
  · -- a turn that was not under way is not under way again
    have hstays : ∀ {other : CancelTurn}, s.turns[j]? = some other →
        (other.scope.taskId = taskId → other.phase ≠ .running) → ∃ other' : CancelTurn,
          s'.turns[j]? = some other' ∧
            (other'.scope.taskId = taskId → other'.phase ≠ .running) := by
      intro other hother hended
      obtain ⟨other', hother', hscope⟩ := turn_stays hmove hother
      refine ⟨other', hother', fun htask hrunning => ?_⟩
      exact hended (hscope.sameTask.symm.trans htask) (hscope.running hrunning)
    rcases todo_origin hmove hcleaner hphase with
      ⟨before, todo', hbefore, hphase', hsub⟩ | ⟨before, hbefore, rfl, hcollecting, rfl⟩
    · obtain ⟨other, hother, hended⟩ := hsp.ended i before hbefore todo' hphase' j (hsub hj)
      exact hstays hother hended
    · obtain ⟨hin, hof⟩ := List.mem_filter.mp hj
      have hlt := hsp.known j hin
      have hother := List.getElem?_eq_getElem hlt
      refine hstays hother fun htask hrunning => ?_
      have hsame : s.turns[j].scope.taskId = before.scope.taskId := by
        simpa [isOf, hother] using hof
      exact hopen ⟨i, j, before, s.turns[j], rfl, hbefore, hcollecting, hsame.symm.trans htask,
        hin, hother, htask, hrunning⟩

theorem spaced_start : Spaced taskId {} where
  known _ hj := absurd hj List.not_mem_nil
  ended _ _ hcleaner := absurd (List.mem_of_getElem? hcleaner) List.not_mem_nil

/-- **Turns that do not overlap do not disable each other**: it is enough that no turn of the task
is under way in the registry when another turn of it takes its scopes out. -/
theorem avoids_of_spaced {tr : List (CancelAction × Unit)}
    (havoids : Run.Avoids (CancelSystem.step keyPrefix) (KeepsKey taskId) {} tr
      (Overlaps taskId)) :
    Run.Avoids (CancelSystem.step keyPrefix) (KeepsKey taskId) {} tr (Disables taskId) := by
  intro before a o after u htr hrun hdis
  have hsp : u.Spaced taskId := by
    refine hrun.inv_at (I := Spaced taskId) spaced_start
      fun before' a' o' after' v w htr' hrun' _ hstep hv => ?_
    refine hv.step (havoids before' a' o' (after' ++ (a, o) :: after) v ?_ hrun') hstep
    rw [htr, htr', List.append_assoc]
    rfl
  obtain ⟨i, j, cleaner, rest, other, -, hcleaner, hphase, hother, htask, hrunning, -⟩ := hdis
  obtain ⟨other', hother', hended⟩ :=
    hsp.ended i cleaner hcleaner _ hphase j List.mem_cons_self
  obtain rfl := Option.some_inj.mp (hother.symm.trans hother')
  exact hended htask hrunning

/-! ### Two runs -/

instance : Decidable (KeepsKey taskId s a) :=
  match a with
  | .cleanup i true =>
    inferInstanceAs (Decidable (∀ turn ∈ s.turns[i]?, turn.scope.taskId ≠ taskId))
  | .cleanup _ false => isTrue trivial
  | .onCancel _ => isTrue trivial
  | .startup _ => isTrue trivial
  | .listen _ => isTrue trivial
  | .requestCancel _ => isTrue trivial
  | .request _ => isTrue trivial
  | .proceed _ => isTrue trivial

/-- The follow-up turn calls `on_cancel` before the first turn has taken its scopes out of the
registry. -/
def overlappingTurns : List CancelAction :=
  [.onCancel "t", .startup 0, .startup 0, .startup 0, .startup 0, .cleanup 0 false, .onCancel "t",
    .startup 1, .startup 1, .startup 1, .startup 1, .proceed 0, .proceed 0, .proceed 0,
    .requestCancel "t", .request 0, .request 0]

/-- A turn that is under way without its listener. -/
def deafTurn : CancelTurn where
  scope :=
    { taskId := "t"
      startup := .done
      listener := .ended
      inbox := [.subscribe] }

/-- The request does not reach the follow-up turn. -/
theorem follow_up_not_cancelled :
    ∃ tr s turn, Run (CancelSystem.step "a2akit:") (KeepsKey "t") {} tr s ∧
      s.turns[1]? = some turn ∧ turn.scope.taskId = "t" ∧ turn.phase = .running ∧
      s.Completed "t" ∧ s.Quiet "a2akit:" 1 ∧ turn.scope.event = false ∧
      turn.scope.subscribed = false ∧ turn.scope.listener = .ended := by
  have hrun := run_finalState (CancelSystem.step "a2akit:") (KeepsKey "t") {} overlappingTurns
    (by decide +kernel)
  refine ⟨_, _, deafTurn, hrun, by decide +kernel, rfl, rfl, ?_, ?_, rfl, rfl, rfl⟩
  · exact ⟨⟨"t", .completed⟩, by decide +kernel, rfl, rfl⟩
  · exact ⟨by decide +kernel, by decide +kernel⟩

/-- The follow-up turn starts after the first turn has taken its scopes out. -/
def spacedTurns : List CancelAction :=
  [.onCancel "t", .cleanup 0 false, .proceed 0, .onCancel "t", .proceed 0]

/-- The two turns do not disable each other. -/
theorem spaced_turns_isolated :
    ∃ tr s, Run (CancelSystem.step "a2akit:") (KeepsKey "t") {} tr s ∧ s.turns.length = 2 ∧
      Run.Throughout (CancelSystem.step "a2akit:") (KeepsKey "t") {} tr
        (Isolated "a2akit:" "t") := by
  have hrun := run_finalState (CancelSystem.step "a2akit:") (KeepsKey "t") {} spacedTurns
    (by decide +kernel)
  refine ⟨_, _, hrun, by decide +kernel, (turns_isolated_iff "a2akit:" "t" hrun).mpr ?_⟩
  refine .cons rfl ?_ (.cons rfl ?_ (.cons rfl ?_ (.cons rfl ?_ (.cons rfl ?_ .nil))))
  · rintro ⟨_, _, _, _, _, ha, -⟩
    exact nomatch ha
  · rintro ⟨_, _, _, _, _, ha, -⟩
    exact nomatch ha
  · -- the first turn is about to take its scopes out
    rintro ⟨_, _, _, _, _, ⟨⟩, ⟨⟩, hphase, -⟩
    exact nomatch hphase
  · rintro ⟨_, _, _, _, _, ha, -⟩
    exact nomatch ha
  · -- it releases its own scope
    rintro ⟨_, _, _, _, _, ⟨⟩, ⟨⟩, hphase, hother, -, hrunning, -⟩
    cases hphase
    cases hother
    exact nomatch hrunning

end CancelSystem

end A2AKit
