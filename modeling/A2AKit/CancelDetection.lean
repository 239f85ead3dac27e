/-
Detection of cancel requests.

For one task, SET leaves its key set, and PUBLISH is noted by every scope of a turn under way: by
the message, or because the scope has not looked for the key a second time.

* `Attended.step`, `CancelInv.step` — what the steps keep, as long as no turn releases the scope of
  another turn.
* `cancel_detected` — without cleanups, no request is lost: when a request is through and a scope
  has nothing left to do, its event is set, and it is not set without a request.
-/
import A2AKit.CancelScope

namespace A2AKit

namespace CancelSystem

variable {keyPrefix : String} {taskId : TaskId} {s s' : CancelSystem} {a : CancelAction} {o : Unit}
  {i j : Nat} {turn turn' : CancelTurn}

/-- What a step does. -/
inductive CancelMove (keyPrefix : String) (s : CancelSystem) :
    CancelAction → CancelSystem → Prop
  | onCancel (taskId : TaskId) : CancelMove keyPrefix s (.onCancel taskId) (s.onCancel taskId)
  | startup {i : Nat} {turn : CancelTurn} {scope : RedisCancelScope} : s.turns[i]? = some turn →
      turn.scope.start keyPrefix s.keys = some scope →
      CancelMove keyPrefix s (.startup i) (s.setScope i scope)
  | listen {i : Nat} {turn : CancelTurn} {scope : RedisCancelScope} : s.turns[i]? = some turn →
      turn.scope.listen = some scope →
      CancelMove keyPrefix s (.listen i) (s.setScope i scope)
  | requestCancel (taskId : TaskId) : CancelMove keyPrefix s (.requestCancel taskId)
      { s with requests := s.requests ++ [{ taskId }] }
  | set {n : Nat} {r : CancelRequest} : s.requests[n]? = some r → r.phase = .set →
      CancelMove keyPrefix s (.request n)
        { s.setRequest n .publish with keys := cancelKey keyPrefix r.taskId :: s.keys }
  | publish {n : Nat} {r : CancelRequest} : s.requests[n]? = some r → r.phase = .publish →
      CancelMove keyPrefix s (.request n)
        ((s.publish keyPrefix (cancelChannel keyPrefix r.taskId)).setRequest n .completed)
  | cleanup {i : Nat} {turn : CancelTurn} (releaseKey : Bool) : s.turns[i]? = some turn →
      turn.phase = .running → CancelMove keyPrefix s (.cleanup i releaseKey)
        (s.setPhase i (if releaseKey then .deleting else .collecting))
  | delete {i : Nat} {turn : CancelTurn} : s.turns[i]? = some turn → turn.phase = .deleting →
      CancelMove keyPrefix s (.proceed i) { s.setPhase i .collecting with
        keys := s.keys.filter fun key => key ≠ cancelKey keyPrefix turn.scope.taskId }
  | collect {i : Nat} {turn : CancelTurn} : s.turns[i]? = some turn → turn.phase = .collecting →
      CancelMove keyPrefix s (.proceed i)
        { s.setPhase i (.releasing (s.scopes.filter (s.isOf turn.scope.taskId))) with
          scopes := s.scopes.filter fun i => ¬ s.isOf turn.scope.taskId i }
  | release {i j : Nat} {turn : CancelTurn} {rest : List Nat} : s.turns[i]? = some turn →
      turn.phase = .releasing (j :: rest) → CancelMove keyPrefix s (.proceed i)
        (({ s with turns := s.turns.modify j fun t => { t with scope := t.scope.release } } :
          CancelSystem).setPhase i (.releasing rest))

theorem cancelMove (h : s.step keyPrefix a = some (s', o)) : CancelMove keyPrefix s a s' := by
  -- one branch of `step` for each move, and none where a guard fails
  cases a with
  | onCancel taskId =>
    rw [← (Prod.mk.inj (Option.some_inj.mp h)).1]
    exact .onCancel taskId
  | startup i =>
    simp only [step] at h
    split at h
    · exact nomatch h
    · rename_i turn hturn
      split at h
      · exact nomatch h
      · rename_i scope hscope
        rw [← (Prod.mk.inj (Option.some_inj.mp h)).1]
        exact .startup hturn hscope
  | listen i =>
    simp only [step] at h
    split at h
    · exact nomatch h
    · rename_i turn hturn
      split at h
      · exact nomatch h
      · rename_i scope hscope
        rw [← (Prod.mk.inj (Option.some_inj.mp h)).1]
        exact .listen hturn hscope
  | requestCancel taskId =>
    rw [← (Prod.mk.inj (Option.some_inj.mp h)).1]
    exact .requestCancel taskId
  | request n =>
    simp only [step] at h
    split at h
    · exact nomatch h
    · rename_i r hr
      split at h
      · rename_i hphase
        rw [← (Prod.mk.inj (Option.some_inj.mp h)).1]
        exact .set hr hphase
      · rename_i hphase
        rw [← (Prod.mk.inj (Option.some_inj.mp h)).1]
        exact .publish hr hphase
      · exact nomatch h
  | cleanup i releaseKey =>
    simp only [step] at h
    split at h
    · exact nomatch h
    · rename_i turn hturn
      split at h
      · rename_i hphase
        rw [← (Prod.mk.inj (Option.some_inj.mp h)).1]
        exact .cleanup releaseKey hturn hphase
      · exact nomatch h
  | proceed i =>
    simp only [step] at h
    split at h
    · exact nomatch h
    · rename_i turn hturn
      split at h
      · exact nomatch h
      · rename_i hphase
        rw [← (Prod.mk.inj (Option.some_inj.mp h)).1]
        exact .delete hturn hphase
      · rename_i hphase
        rw [← (Prod.mk.inj (Option.some_inj.mp h)).1]
        exact .collect hturn hphase
      · exact nomatch h
      · rename_i hphase
        rw [← (Prod.mk.inj (Option.some_inj.mp h)).1]
        exact .release hturn hphase

/-- What a step does to one turn. -/
inductive ScopeMove (keyPrefix : String) (s : CancelSystem) (a : CancelAction) (j : Nat)
    (turn : CancelTurn) : CancelTurn → Prop
  | still : (∀ n r, a = .request n → s.requests[n]? = some r → r.phase = .set) →
      ScopeMove keyPrefix s a j turn turn
  | start {scope : RedisCancelScope} : a = .startup j →
      turn.scope.start keyPrefix s.keys = some scope →
      ScopeMove keyPrefix s a j turn { turn with scope }
  | listen {scope : RedisCancelScope} : a = .listen j → turn.scope.listen = some scope →
      ScopeMove keyPrefix s a j turn { turn with scope }
  | deliver {n : Nat} {r : CancelRequest} : a = .request n → s.requests[n]? = some r →
      r.phase = .publish → ScopeMove keyPrefix s a j turn
        { turn with scope := turn.scope.deliver keyPrefix (cancelChannel keyPrefix r.taskId) }
  | proceed {phase : CancelTurnPhase} : a.isCleanup = true → phase ≠ .running →
      (phase = .deleting → a = .cleanup j true) → ScopeMove keyPrefix s a j turn { turn with phase }
  | release {i : Nat} {cleaner : CancelTurn} {rest : List Nat} {phase : CancelTurnPhase} :
      a = .proceed i → s.turns[i]? = some cleaner → cleaner.phase = .releasing (j :: rest) →
      (phase = turn.phase ∨ ∃ todo, phase = .releasing todo) →
      ScopeMove keyPrefix s a j turn ⟨turn.scope.release, phase⟩

theorem ScopeMove.sameTask (h : ScopeMove keyPrefix s a j turn turn') :
    turn'.scope.taskId = turn.scope.taskId := by
  cases h with
  | start _ hscope => exact RedisCancelScope.start_taskId hscope
  | listen _ hscope => exact RedisCancelScope.listen_taskId hscope
  | deliver _ _ _ => exact RedisCancelScope.deliver_taskId
  | _ => rfl

/-- A turn that has ended is not under way again. -/
theorem ScopeMove.running (h : ScopeMove keyPrefix s a j turn turn')
    (hrunning : turn'.phase = .running) : turn.phase = .running := by
  cases h with
  | proceed _ hphase _ => exact absurd hrunning hphase
  | release _ _ _ hstays =>
    rcases hstays with hstays | ⟨todo, htodo⟩
    · exact hstays.symm.trans hrunning
    · exact nomatch htodo.symm.trans hrunning
  | _ => exact hrunning

theorem getElem?_modify_some {α : Type} {l : List α} {f : α → α} {x : α}
    (h : (l.modify i f)[j]? = some x) : ∃ y, l[j]? = some y ∧ x = if i = j then f y else y := by
  rw [List.getElem?_modify] at h
  obtain ⟨y, hy, rfl⟩ := Option.map_eq_some_iff.mp h
  exact ⟨y, hy, rfl⟩

theorem getElem?_concat_some {α : Type} {l : List α} {x y : α} (h : (l ++ [x])[j]? = some y) :
    l[j]? = some y ∨ l[j]? = none ∧ y = x := by
  rcases Nat.lt_trichotomy j l.length with hlt | rfl | hgt
  · left
    rwa [← List.getElem?_append_left hlt]
  · rw [List.getElem?_concat_length] at h
    exact Or.inr ⟨List.getElem?_eq_none (Nat.le_refl _), (Option.some_inj.mp h).symm⟩
  · rw [List.getElem?_eq_none] at h
    · exact nomatch h
    · rw [List.length_append, List.length_singleton]
      omega

/-- Where a turn comes from. -/
theorem turn_origin (h : CancelMove keyPrefix s a s') (hturn : s'.turns[j]? = some turn') :
    (s.turns[j]? = none ∧ ∃ t, turn' = { scope := { taskId := t } }) ∨
      ∃ turn, s.turns[j]? = some turn ∧ ScopeMove keyPrefix s a j turn turn' := by
  cases h with
  | onCancel t =>
    rcases getElem?_concat_some hturn with hold | ⟨hnone, hnew⟩
    · exact Or.inr ⟨turn', hold, .still nofun⟩
    · exact Or.inl ⟨hnone, t, hnew⟩
  | @startup i turn scope hi hscope =>
    obtain ⟨y, hy, rfl⟩ := getElem?_modify_some hturn
    refine Or.inr ⟨y, hy, ?_⟩
    split
    · rename_i heq
      subst heq
      obtain rfl := Option.some_inj.mp (hi.symm.trans hy)
      exact .start rfl hscope
    · exact .still nofun
  | @listen i turn scope hi hscope =>
    obtain ⟨y, hy, rfl⟩ := getElem?_modify_some hturn
    refine Or.inr ⟨y, hy, ?_⟩
    split
    · rename_i heq
      subst heq
      obtain rfl := Option.some_inj.mp (hi.symm.trans hy)
      exact .listen rfl hscope
    · exact .still nofun
  | requestCancel t => exact Or.inr ⟨turn', hturn, .still nofun⟩
  | set hr hphase =>
    refine Or.inr ⟨turn', hturn, .still ?_⟩
    rintro n r ⟨⟩ hr'
    obtain rfl := Option.some_inj.mp (hr.symm.trans hr')
    exact hphase
  | publish hr hphase =>
    have hmap : (s.turns.map _)[j]? = some turn' := hturn
    rw [List.getElem?_map] at hmap
    obtain ⟨y, hy, rfl⟩ := Option.map_eq_some_iff.mp hmap
    exact Or.inr ⟨y, hy, .deliver rfl hr hphase⟩
  | @cleanup i turn releaseKey hi hphase =>
    obtain ⟨y, hy, rfl⟩ := getElem?_modify_some hturn
    refine Or.inr ⟨y, hy, ?_⟩
    split
    · rename_i heq
      subst heq
      refine .proceed rfl ?_ ?_
      · cases releaseKey with
        | true => exact nofun
        | false => exact nofun
      · cases releaseKey with
        | true => exact fun _ => rfl
        | false => exact nofun
    · exact .still nofun
  | @delete i turn hi hphase =>
    obtain ⟨y, hy, rfl⟩ := getElem?_modify_some hturn
    refine Or.inr ⟨y, hy, ?_⟩
    split
    · exact .proceed rfl nofun nofun
    · exact .still nofun
  | @collect i turn hi hphase =>
    obtain ⟨y, hy, rfl⟩ := getElem?_modify_some hturn
    refine Or.inr ⟨y, hy, ?_⟩
    split
    · exact .proceed rfl nofun nofun
    · exact .still nofun
  | @release i k turn rest hi hphase =>
    obtain ⟨z, hz, rfl⟩ := getElem?_modify_some hturn
    obtain ⟨y, hy, rfl⟩ := getElem?_modify_some hz
    refine Or.inr ⟨y, hy, ?_⟩
    split
    · -- the turn is the one that cleans up
      split
      · rename_i heq
        subst heq
        exact .release rfl hi hphase (Or.inr ⟨rest, rfl⟩)
      · exact .proceed rfl nofun nofun
    · split
      · rename_i heq
        subst heq
        exact .release rfl hi hphase (Or.inl rfl)
      · exact .still nofun

theorem mem_modify_requests {n : Nat} {phase : RequestPhase} {r' : CancelRequest}
    (h : r' ∈ (s.setRequest n phase).requests) :
    r' ∈ s.requests ∨ ∃ r, s.requests[n]? = some r ∧ r' = { r with phase } := by
  obtain ⟨m, hm⟩ := List.mem_iff_getElem?.mp h
  obtain ⟨r, hr, rfl⟩ := getElem?_modify_some hm
  split
  · rename_i heq
    subst heq
    exact Or.inr ⟨r, hr, rfl⟩
  · exact Or.inl (List.mem_of_getElem? hr)

/-- Where a request comes from. -/
theorem request_origin (h : CancelMove keyPrefix s a s') {r' : CancelRequest}
    (hr' : r' ∈ s'.requests) : r' ∈ s.requests ∨ (r'.phase = .set) ∨
      ∃ n r, a = .request n ∧ s.requests[n]? = some r ∧ r'.taskId = r.taskId ∧
        (r.phase = .set ∧ r'.phase = .publish ∨ r.phase = .publish ∧ r'.phase = .completed) := by
  cases h with
  | requestCancel t =>
    rcases List.mem_append.mp hr' with hmem | hmem
    · exact Or.inl hmem
    · obtain rfl := List.mem_singleton.mp hmem
      exact Or.inr (Or.inl rfl)
  | set hr hphase =>
    rcases mem_modify_requests hr' with hmem | ⟨r, hr₁, rfl⟩
    · exact Or.inl hmem
    · obtain rfl := Option.some_inj.mp (hr.symm.trans hr₁)
      exact Or.inr (Or.inr ⟨_, _, rfl, hr, rfl, Or.inl ⟨hphase, rfl⟩⟩)
  | publish hr hphase =>
    rcases mem_modify_requests (s := s) hr' with hmem | ⟨r, hr₁, rfl⟩
    · exact Or.inl hmem
    · obtain rfl := Option.some_inj.mp (hr.symm.trans hr₁)
      exact Or.inr (Or.inr ⟨_, _, rfl, hr, rfl, Or.inr ⟨hphase, rfl⟩⟩)
  | _ => exact Or.inl hr'

theorem requested_step (h : CancelMove keyPrefix s a s') (hreq : s.Requested taskId) :
    s'.Requested taskId := by
  obtain ⟨r, hr, htask⟩ := hreq
  have hmodify : ∀ n phase, (s.setRequest n phase).Requested taskId := by
    intro n phase
    obtain ⟨m, hm⟩ := List.mem_iff_getElem?.mp hr
    have hm' : (s.setRequest n phase).requests[m]? =
        some (if n = m then { r with phase } else r) := by
      show (s.requests.modify n _)[m]? = _
      rw [List.getElem?_modify, hm]
      rfl
    refine ⟨_, List.mem_of_getElem? hm', ?_⟩
    split
    · exact htask
    · exact htask
  cases h with
  | requestCancel t => exact ⟨r, List.mem_append_left _ hr, htask⟩
  | set _ _ => exact hmodify _ _
  | publish _ _ => exact hmodify _ _
  | _ => exact ⟨r, hr, htask⟩

/-- What a request leaves, for one task: its key is set after SET, and after PUBLISH every scope
of a turn under way has noted it. -/
structure CancelInv (keyPrefix : String) (taskId : TaskId) (s : CancelSystem) : Prop where
  keyed : ∀ r ∈ s.requests, r.taskId = taskId → r.phase ≠ .set →
    cancelKey keyPrefix taskId ∈ s.keys
  kept : ∀ turn ∈ s.turns, turn.scope.taskId = taskId → turn.phase ≠ .deleting
  noted : s.Completed taskId → ∀ turn ∈ s.turns, turn.scope.taskId = taskId →
    turn.phase = .running → turn.scope.Noted

/-- The scopes of the turns under way have what they need. -/
def Attended (taskId : TaskId) (s : CancelSystem) : Prop :=
  ∀ turn ∈ s.turns, turn.scope.taskId = taskId → turn.phase = .running → turn.scope.Wired

/-- The step releases the scope of another turn of the task, which is under way and has not been
told to stop. -/
def Disables (taskId : TaskId) (s : CancelSystem) (a : CancelAction) : Prop :=
  ∃ i j cleaner rest other, a = .proceed i ∧ s.turns[i]? = some cleaner ∧
    cleaner.phase = .releasing (j :: rest) ∧ s.turns[j]? = some other ∧
    other.scope.taskId = taskId ∧ other.phase = .running ∧ other.scope.event = false

/-- The cancel key of the task is not deleted. -/
def KeepsKey (taskId : TaskId) (s : CancelSystem) : CancelAction → Prop
  | .cleanup i true => ∀ turn ∈ s.turns[i]?, turn.scope.taskId ≠ taskId
  | _ => True

/-- A release leaves the event as it is. -/
theorem release_event (hopen : ¬ s.Disables taskId a) {i : Nat} {cleaner : CancelTurn}
    {rest : List Nat} (ha : a = .proceed i) (hcleaner : s.turns[i]? = some cleaner)
    (hphase : cleaner.phase = .releasing (j :: rest)) (hturn : s.turns[j]? = some turn)
    (htask : turn.scope.taskId = taskId) (hrunning : turn.phase = .running) :
    turn.scope.release.event = true := by
  by_contra hevent
  refine hopen ⟨i, j, cleaner, rest, turn, ha, hcleaner, hphase, hturn, htask, hrunning, ?_⟩
  exact eq_false_of_ne_true hevent

/-- **A step that disables no other turn leaves every scope with what it needs.** -/
theorem Attended.step (hatt : s.Attended taskId) (hopen : ¬ s.Disables taskId a)
    (h : s.step keyPrefix a = some (s', o)) : s'.Attended taskId := by
  intro turn' hmem htask hrunning
  obtain ⟨j, hj⟩ := List.mem_iff_getElem?.mp hmem
  rcases turn_origin (cancelMove h) hj with ⟨-, t, rfl⟩ | ⟨turn, hturn, hmove⟩
  · exact Or.inr rfl
  have htask' : turn.scope.taskId = taskId := hmove.sameTask.symm.trans htask
  have hrunning' := hmove.running hrunning
  have hwired := hatt turn (List.mem_of_getElem? hturn) htask' hrunning'
  cases hmove with
  | still _ => exact hwired
  | start _ hscope => exact hwired.start hscope
  | listen _ hscope => exact hwired.listen hscope
  | deliver _ _ _ => exact hwired.deliver
  | proceed _ hphase _ => exact absurd hrunning hphase
  | release ha hcleaner hphase _ =>
    exact Or.inl (release_event hopen ha hcleaner hphase hturn htask' hrunning')

/-- **The keys and the notes of the scopes are kept.** -/
theorem CancelInv.step (hinv : CancelInv keyPrefix taskId s) (hatt : s.Attended taskId)
    (hkeeps : s.KeepsKey taskId a) (hopen : ¬ s.Disables taskId a)
    (h : s.step keyPrefix a = some (s', o)) : CancelInv keyPrefix taskId s' := by
  have hmove := cancelMove h
  refine ⟨fun r' hr' htask hset => ?_, fun turn' hmem htask => ?_,
    fun hcompleted turn' hmem htask hrunning => ?_⟩
  · -- a key is set by SET, and the keys of this task are not deleted
    have hkeys : cancelKey keyPrefix taskId ∈ s.keys → cancelKey keyPrefix taskId ∈ s'.keys := by
      intro hkey
      cases hmove with
      | set _ _ => exact List.mem_cons_of_mem _ hkey
      | @delete i turn hi hphase =>
        refine List.mem_filter.mpr ⟨hkey, decide_eq_true fun heq => ?_⟩
        refine hinv.kept turn (List.mem_of_getElem? hi) (cancelKey_inj.mp heq).symm hphase
      | _ => exact hkey
    rcases request_origin hmove hr' with hr | hphase | ⟨n, r, rfl, hr, hid, hphases⟩
    · exact hkeys (hinv.keyed r' hr htask hset)
    · exact absurd hphase hset
    · rcases hphases with ⟨hphase, -⟩ | ⟨hphase, -⟩
      · cases hmove with
        | set hr₁ _ =>
          obtain rfl := Option.some_inj.mp (hr.symm.trans hr₁)
          rw [← hid, htask]
          exact List.mem_cons_self
        | publish hr₁ hphase₁ =>
          obtain rfl := Option.some_inj.mp (hr.symm.trans hr₁)
          exact nomatch hphase.symm.trans hphase₁
      · refine hkeys (hinv.keyed r (List.mem_of_getElem? hr) (hid.symm.trans htask) ?_)
        rw [hphase]
        nofun
  · obtain ⟨j, hj⟩ := List.mem_iff_getElem?.mp hmem
    rcases turn_origin hmove hj with ⟨-, t, rfl⟩ | ⟨turn, hturn, hscope⟩
    · nofun
    have htask' : turn.scope.taskId = taskId := hscope.sameTask.symm.trans htask
    have hkept := hinv.kept turn (List.mem_of_getElem? hturn) htask'
    cases hscope with
    | proceed _ _ hdeleting =>
      intro hphase
      obtain rfl := hdeleting hphase
      exact hkeeps turn hturn htask
    | release _ _ _ hstays =>
      rcases hstays with hstays | ⟨todo, htodo⟩
      · rw [hstays]
        exact hkept
      · rw [htodo]
        nofun
    | _ => exact hkept
  · obtain ⟨j, hj⟩ := List.mem_iff_getElem?.mp hmem
    rcases turn_origin hmove hj with ⟨-, t, rfl⟩ | ⟨turn, hturn, hscope⟩
    · exact Or.inr (Or.inl rfl)
    have hin := List.mem_of_getElem? hturn
    have htask' : turn.scope.taskId = taskId := hscope.sameTask.symm.trans htask
    have hrunning' := hscope.running hrunning
    -- unless the step is the PUBLISH of a request, the request was completed before
    have hbefore : (∀ n r, a = .request n → s.requests[n]? = some r → r.taskId = taskId →
        r.phase ≠ .publish) → s.Completed taskId := by
      intro hnot
      obtain ⟨r', hr', hid, hphase⟩ := hcompleted
      rcases request_origin hmove hr' with hr | hset | ⟨n, r, rfl, hr, htask', hphases⟩
      · exact ⟨r', hr, hid, hphase⟩
      · exact nomatch hset.symm.trans hphase
      · rcases hphases with ⟨-, hpublish⟩ | ⟨hpublish, -⟩
        · exact nomatch hpublish.symm.trans hphase
        · exact absurd hpublish (hnot n r rfl hr (htask'.symm.trans hid))
    cases hscope with
    | still hquiet =>
      refine hinv.noted (hbefore fun n r ha hr _ hphase => ?_) _ hin htask' hrunning'
      exact nomatch (hquiet n r ha hr).symm.trans hphase
    | start ha hstart =>
      obtain ⟨r, hr, hid, hphase⟩ := hbefore fun n r ha' => nomatch ha.symm.trans ha'
      refine (hinv.noted ⟨r, hr, hid, hphase⟩ turn hin htask' hrunning').start ?_ hstart
      rw [htask']
      exact hinv.keyed r hr hid (by rw [hphase]; nofun)
    | listen ha hlisten =>
      have hcompleted' := hbefore fun n r ha' => nomatch ha.symm.trans ha'
      exact (hinv.noted hcompleted' turn hin htask' hrunning').listen hlisten
    | @deliver n r ha hr hphase =>
      by_cases hid : r.taskId = taskId
      · rw [hid.trans htask'.symm]
        exact (hatt turn hin htask' hrunning').noted
      · refine (hinv.noted (hbefore ?_) turn hin htask' hrunning').deliver
        rintro m r' ha' hr' hid' -
        obtain rfl := CancelAction.request.inj (ha.symm.trans ha')
        obtain rfl := Option.some_inj.mp (hr.symm.trans hr')
        exact hid hid'
    | proceed _ hphase _ => exact absurd hrunning hphase
    | release ha hcleaner hphase _ =>
      exact Or.inl (release_event hopen ha hcleaner hphase hturn htask' hrunning')

theorem cancelInv_start : CancelInv keyPrefix taskId {} where
  keyed _ hr := absurd hr List.not_mem_nil
  kept _ hturn := absurd hturn List.not_mem_nil
  noted _ _ hturn := absurd hturn List.not_mem_nil

theorem attended_start : Attended taskId {} := fun _ hturn => absurd hturn List.not_mem_nil

/-- A request that is through has its event set where the scope has nothing left to do. -/
theorem CancelInv.detects (hinv : CancelInv keyPrefix taskId s) (hatt : s.Attended taskId)
    (hturn : s.turns[j]? = some turn) (htask : turn.scope.taskId = taskId)
    (hrunning : turn.phase = .running) (hcompleted : s.Completed taskId)
    (hquiet : s.Quiet keyPrefix j) : turn.scope.event = true := by
  have hin := List.mem_of_getElem? hturn
  obtain ⟨hstart, hlisten⟩ := hquiet
  simp only [CancelSystem.step, hturn] at hstart hlisten
  have hstarted : turn.scope.start keyPrefix s.keys = none := by
    split at hstart
    · assumption
    · exact nomatch hstart
  have hlistened : turn.scope.listen = none := by
    split at hlisten
    · assumption
    · exact nomatch hlisten
  exact (hatt turn hin htask hrunning).detects (hinv.noted hcompleted turn hin htask hrunning)
    hstarted hlistened

/-! ### Events come from requests -/

/-- Keys that are set, messages and events are those of requests. -/
structure Honest (keyPrefix : String) (s : CancelSystem) : Prop where
  keys : ∀ taskId, cancelKey keyPrefix taskId ∈ s.keys → s.Requested taskId
  scopes : ∀ turn ∈ s.turns, turn.scope.event = true ∨ .message ∈ turn.scope.inbox →
    s.Requested turn.scope.taskId

theorem Honest.step (hh : Honest keyPrefix s) (h : s.step keyPrefix a = some (s', o)) :
    Honest keyPrefix s' := by
  have hmove := cancelMove h
  refine ⟨fun t hkey => ?_, fun turn' hmem hheard => ?_⟩
  · have hold : cancelKey keyPrefix t ∈ s.keys → s'.Requested t :=
      fun hkey => requested_step hmove (hh.keys t hkey)
    cases hmove with
    -- only SET adds a key, and it is the one of the request
    | @set n r hr hphase =>
      rcases List.mem_cons.mp hkey with heq | hkey
      · obtain rfl := cancelKey_inj.mp heq
        exact requested_step (.set hr hphase) ⟨r, List.mem_of_getElem? hr, rfl⟩
      · exact hold hkey
    | delete _ _ => exact hold (List.mem_filter.mp hkey).1
    | _ => exact hold hkey
  · obtain ⟨j, hj⟩ := List.mem_iff_getElem?.mp hmem
    -- a turn that has just begun has heard nothing
    rcases turn_origin hmove hj with ⟨-, t, rfl⟩ | ⟨turn, hturn, hscope⟩
    · rcases hheard with h | h
      · exact nomatch h
      · exact nomatch h
    have hin := List.mem_of_getElem? hturn
    have hold : turn.scope.event = true ∨ .message ∈ turn.scope.inbox →
        s'.Requested turn.scope.taskId :=
      fun hheard => requested_step hmove (hh.scopes turn hin hheard)
    cases hscope with
    | still _ => exact hold hheard
    | start _ hstart =>
      rw [RedisCancelScope.start_taskId hstart]
      rcases hheard with hevent | hmessage
      · rcases RedisCancelScope.start_event hstart hevent with hevent | hkey
        · exact hold (Or.inl hevent)
        · exact requested_step hmove (hh.keys _ hkey)
      · exact hold (Or.inr (RedisCancelScope.start_inbox hstart hmessage))
    | listen _ hlisten =>
      rw [RedisCancelScope.listen_taskId hlisten]
      exact hold (RedisCancelScope.listen_heard hlisten hheard)
    | @deliver n r ha hr hphase =>
      rw [RedisCancelScope.deliver_taskId]
      rcases RedisCancelScope.deliver_cases turn.scope keyPrefix
        (cancelChannel keyPrefix r.taskId) with ⟨-, hchannel, -⟩ | hsame
      · rw [cancelChannel_inj.mp hchannel]
        exact requested_step hmove ⟨r, List.mem_of_getElem? hr, rfl⟩
      · rw [hsame] at hheard
        exact hold hheard
    | proceed _ _ _ => exact hold hheard
    | release _ _ _ _ => exact hold hheard

theorem honest_start : Honest keyPrefix {} where
  keys _ hkey := absurd hkey List.not_mem_nil
  scopes _ hturn := absurd hturn List.not_mem_nil

/-! ### Without cleanups -/

/-- The step of a startup or a listener of this turn. -/
def OwnStep (j : Nat) (_ : CancelSystem) (a : CancelAction) : Prop := a = .startup j ∨ a = .listen j

/-- The startup and the listener of a scope come to an end. -/
theorem exists_quiet (hturn : s.turns[j]? = some turn) :
    ∃ tr s', Run (CancelSystem.step keyPrefix) (OwnStep j) s tr s' ∧ s'.Quiet keyPrefix j := by
  induction hn : turn.scope.work using Nat.strong_induction_on generalizing s turn with
  | _ n ih =>
    subst hn
    have hset : ∀ {scope}, (s.setScope j scope).turns[j]? = some { turn with scope } := by
      intro scope
      show (s.turns.modify j _)[j]? = _
      rw [List.getElem?_modify_eq, hturn]
      rfl
    rcases hstart : turn.scope.start keyPrefix s.keys with _ | scope
    · rcases hlisten : turn.scope.listen with _ | scope
      · refine ⟨[], s, .nil s, ?_, ?_⟩
        · simp only [CancelSystem.step, hturn, hstart]
        · simp only [CancelSystem.step, hturn, hlisten]
      · obtain ⟨tr, s', hrun, hquiet⟩ :=
          ih _ (RedisCancelScope.work_listen hlisten) hset rfl
        refine ⟨_, s', .cons (a := .listen j) (o := ()) ?_ (Or.inr rfl) hrun, hquiet⟩
        simp only [CancelSystem.step, hturn, hlisten]
    · obtain ⟨tr, s', hrun, hquiet⟩ := ih _ (RedisCancelScope.work_start hstart) hset rfl
      refine ⟨_, s', .cons (a := .startup j) (o := ()) ?_ (Or.inl rfl) hrun, hquiet⟩
      simp only [CancelSystem.step, hturn, hstart]

/-- No turn cleans up. -/
def NoCleanup (_ : CancelSystem) (a : CancelAction) : Prop := a.isCleanup = false

instance : Decidable (NoCleanup s a) := inferInstanceAs (Decidable (_ = _))

theorem NoCleanup.not_disables (h : NoCleanup s a) : ¬ s.Disables taskId a := by
  rintro ⟨i, j, cleaner, rest, other, rfl, -⟩
  exact nomatch h

theorem NoCleanup.keepsKey (h : NoCleanup s a) : s.KeepsKey taskId a := by
  cases a with
  | cleanup i releaseKey => exact nomatch h
  | _ => exact trivial

/-- Every turn is under way. -/
theorem running_step (hall : ∀ turn ∈ s.turns, turn.phase = .running) (hno : NoCleanup s a)
    (h : s.step keyPrefix a = some (s', o)) : ∀ turn ∈ s'.turns, turn.phase = .running := by
  intro turn' hmem
  obtain ⟨j, hj⟩ := List.mem_iff_getElem?.mp hmem
  rcases turn_origin (cancelMove h) hj with ⟨-, t, rfl⟩ | ⟨turn, hturn, hscope⟩
  · rfl
  have hphase := hall turn (List.mem_of_getElem? hturn)
  cases hscope with
  | proceed hcleanup _ _ => exact nomatch hno.symm.trans hcleanup
  | release ha _ _ _ =>
    subst ha
    exact nomatch hno
  | _ => exact hphase

/-- **No cancel request is lost.**  In every run without cleanups, of any number of scopes and
requests: where a request for the task of a scope is through and the scope has nothing left to do,
its event is set; it is not set without a request for that task; and the scope always comes to
have nothing left to do. -/
theorem cancel_detected (keyPrefix : String) {tr : List (CancelAction × Unit)} {s : CancelSystem}
    (hrun : Run (CancelSystem.step keyPrefix) NoCleanup {} tr s) {j : Nat} {turn : CancelTurn}
    (hturn : s.turns[j]? = some turn) :
    (s.Completed turn.scope.taskId → s.Quiet keyPrefix j → turn.scope.event = true) ∧
      (turn.scope.event = true → s.Requested turn.scope.taskId) ∧
      ∃ tr' s', Run (CancelSystem.step keyPrefix) (OwnStep j) s tr' s' ∧
        s'.Quiet keyPrefix j := by
  have hin := List.mem_of_getElem? hturn
  obtain ⟨hinv, hatt, hall⟩ := hrun.inv
    (I := fun s => CancelInv keyPrefix turn.scope.taskId s ∧ s.Attended turn.scope.taskId ∧
      ∀ turn ∈ s.turns, turn.phase = .running)
    (fun u a v o hu hno hstep => ⟨hu.1.step hu.2.1 hno.keepsKey hno.not_disables hstep,
      hu.2.1.step hno.not_disables hstep, running_step hu.2.2 hno hstep⟩)
    ⟨cancelInv_start, attended_start, fun _ hturn => absurd hturn List.not_mem_nil⟩
  have hhonest := hrun.inv (fun _ _ _ _ hu _ hstep => Honest.step hu hstep) honest_start
  refine ⟨fun hcompleted hquiet => ?_, fun hevent => ?_, exists_quiet hturn⟩
  · exact hinv.detects hatt hturn rfl (hall turn hin) hcompleted hquiet
  · exact hhonest.scopes turn hin (Or.inl hevent)

/-- SET comes after the first look at the key and PUBLISH before the subscription. -/
def lateSubscription : List CancelAction :=
  [.onCancel "t", .requestCancel "t", .startup 0, .request 0, .request 0, .startup 0, .startup 0,
    .startup 0]

theorem late_subscription_detects :
    ∃ tr s turn, Run (CancelSystem.step "a2akit:") NoCleanup {} tr s ∧ s.turns[0]? = some turn ∧
      s.Completed turn.scope.taskId ∧ s.Quiet "a2akit:" 0 ∧ turn.scope.event = true := by
  have hrun := run_finalState (CancelSystem.step "a2akit:") NoCleanup {} lateSubscription rfl
  refine ⟨_, _, { scope :=
    { taskId := "t", startup := .done, inbox := [.subscribe], event := true } }, hrun, rfl, ?_, ?_, ?_⟩
  · exact ⟨⟨"t", .completed⟩, by decide, rfl, rfl⟩
  · exact ⟨rfl, rfl⟩
  · exact (cancel_detected "a2akit:" hrun (j := 0) rfl).1 ⟨⟨"t", .completed⟩, by decide, rfl, rfl⟩ ⟨rfl, rfl⟩

end CancelSystem

end A2AKit
