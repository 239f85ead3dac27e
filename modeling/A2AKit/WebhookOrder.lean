/-
The order of the webhooks of a task.

A writer loads its snapshot some time after its commit and enqueues it some time after that, so
another writer may commit, load and enqueue in between.

* `webhooks_in_order_iff` — the snapshots enqueued for a configuration never go back in time if and
  only if no writer that has loaded before a commit enqueues after one that has loaded after it;
* `webhook_goes_back` — a terminal snapshot before an older one.
-/
import A2AKit.PushEmitter

namespace A2AKit

open PushSystem

abbrev PushRun (taskId : TaskId) (maxsize : Nat) (s : PushSystem)
    (tr : List (PushAction × PushEvent)) (s' : PushSystem) : Prop :=
  Run (step taskId maxsize) (fun _ _ => True) s tr s'

/-- Before the first writer. -/
structure BeforePush (s : PushSystem) : Prop where
  calls : ∀ c, s.calls c = .idle
  lanes : ∀ k, s.lanes k = {}

/-- Of the snapshots enqueued for a configuration, no later one is of an older version, and none
after a terminal one is not terminal. -/
def EnqueuedInOrder (s : PushSystem) (k : String) : Prop :=
  (s.lanes k).delivered.Pairwise fun d d' =>
    d.version ≤ d'.version ∧ (d.toSnapshot.ended = true → d'.toSnapshot.ended = true)

/-- `a` loads the task, then something is committed, then `b` loads the task and enqueues it for the
configuration, and only then `a` does. -/
def Overtakes (events : List PushEvent) (k : String) : Prop :=
  ∃ (a b : CallId) (loadA commit loadB enqueueB enqueueA : Nat) (keysA keysB : List String),
    loadA < commit ∧ commit < loadB ∧ loadB < enqueueB ∧ enqueueB < enqueueA ∧
    events[loadA]? = some (.loaded a) ∧ events[commit]? = some .committed ∧
    events[loadB]? = some (.loaded b) ∧ events[enqueueB]? = some (.enqueued b keysB) ∧
    events[enqueueA]? = some (.enqueued a keysA) ∧ k ∈ keysA ∧ k ∈ keysB

/-! ### What is loaded when -/

/-- The commits before a moment. -/
def commitsBefore (events : List PushEvent) (i : Nat) : Nat := (events.take i).count .committed

/-- The snapshot is what the task was at moment `i`, when its call loaded it. -/
def LoadedAt (v₀ : Nat) (events : List PushEvent) (snapshot : Snapshot) (i : Nat) : Prop :=
  events[i]? = some (.loaded snapshot.call) ∧ snapshot.version = v₀ + commitsBefore events i

/-- The call enqueues for the configuration at moment `j`. -/
def EnqueuedAt (events : List PushEvent) (k : String) (c : CallId) (j : Nat) : Prop :=
  ∃ keys, k ∈ keys ∧ events[j]? = some (.enqueued c keys)

/-- What the events so far say of the state they led to. -/
structure Timeline (maxsize v₀ : Nat) (events : List PushEvent) (s : PushSystem) : Prop where
  version : ∀ t v, s.stored = some (t, v) → v = v₀ + events.count .committed
  held : ∀ c snapshot, (s.calls c).snapshot = some snapshot →
    snapshot.call = c ∧ ∃ i, LoadedAt v₀ events snapshot i
  notLoaded : ∀ c, s.calls c = .idle ∨ s.calls c = .committed → .loaded c ∉ events
  notEnqueued : ∀ c keys, s.calls c ≠ .returned → .enqueued c keys ∉ events
  loadedOnce : ∀ (i j : Nat) (c : CallId), events[i]? = some (.loaded c) → events[j]? = some (.loaded c) → i = j
  enqueuedOnce : ∀ (i j : Nat) (c : CallId) (keys keys' : List String), events[i]? = some (.enqueued c keys) →
    events[j]? = some (.enqueued c keys') → i = j
  sound : ∀ k, (s.lanes k).Sound maxsize
  dispatched : ∀ k, ∀ d ∈ (s.lanes k).delivered,
    ∃ i j, i < j ∧ LoadedAt v₀ events d.toSnapshot i ∧ EnqueuedAt events k d.call j
  order : ∀ k, (s.lanes k).delivered.Pairwise fun d d' => d.call = d'.call ∨
    ∃ j j', j < j' ∧ EnqueuedAt events k d.call j ∧ EnqueuedAt events k d'.call j'
  complete : ∀ k c j, EnqueuedAt events k c j → ∃ d ∈ (s.lanes k).delivered, d.call = c

section

variable {taskId : TaskId} {maxsize v₀ i j : Nat} {s s' : PushSystem} {events : List PushEvent}
  {e x : PushEvent} {snapshot : Snapshot} {k : String} {c : CallId}

/-- A moment of the past. -/
theorem event_append (h : events[i]? = some x) : (events ++ [e])[i]? = some x := by
  rw [List.getElem?_append_left (List.getElem?_eq_some_iff.mp h).1]
  exact h

theorem commitsBefore_append (h : i ≤ events.length) :
    commitsBefore (events ++ [e]) i = commitsBefore events i := by
  unfold commitsBefore
  rw [List.take_append_of_le_length h]

theorem event_append_cases (h : (events ++ [e])[i]? = some x) :
    events[i]? = some x ∨ i = events.length ∧ x = e := by
  rcases Nat.lt_trichotomy i events.length with hi | rfl | hi
  · exact Or.inl (by rwa [List.getElem?_append_left hi] at h)
  · rw [List.getElem?_concat_length] at h
    exact Or.inr ⟨rfl, (Option.some_inj.mp h).symm⟩
  · rw [List.getElem?_eq_none (by rw [List.length_append, List.length_singleton]; omega)] at h
    exact nomatch h

theorem LoadedAt.append (h : LoadedAt v₀ events snapshot i) :
    LoadedAt v₀ (events ++ [e]) snapshot i := by
  refine ⟨event_append h.1, ?_⟩
  rw [commitsBefore_append (Nat.le_of_lt (List.getElem?_eq_some_iff.mp h.1).1)]
  exact h.2

theorem EnqueuedAt.append (h : EnqueuedAt events k c j) : EnqueuedAt (events ++ [e]) k c j := by
  obtain ⟨keys, hk, hj⟩ := h
  exact ⟨keys, hk, event_append hj⟩

theorem EnqueuedAt.of_append (hne : ∀ c keys, e ≠ .enqueued c keys)
    (h : EnqueuedAt (events ++ [e]) k c j) : EnqueuedAt events k c j := by
  obtain ⟨keys, hk, hj⟩ := h
  rcases event_append_cases hj with hj | ⟨-, heq⟩
  · exact ⟨keys, hk, hj⟩
  · exact absurd heq.symm (hne c keys)

/-- Each version is that of a moment, so a later moment has no older version. -/
theorem commitsBefore_mono (h : i ≤ j) : commitsBefore events i ≤ commitsBefore events j :=
  (List.take_sublist_take_left h).count_le _

theorem commitsBefore_succ (m : Nat) : commitsBefore events (m + 1) =
    commitsBefore events m + if events[m]? = some .committed then 1 else 0 := by
  unfold commitsBefore
  rw [List.take_add_one, List.count_append]
  cases events[m]? with
  | none => rfl
  | some x => by_cases hx : x = .committed <;> simp [hx]

theorem commitsBefore_lt {m : Nat} (him : i ≤ m) (hmj : m < j)
    (hm : events[m]? = some .committed) : commitsBefore events i < commitsBefore events j := by
  have hsucc : commitsBefore events (m + 1) = commitsBefore events m + 1 := by
    rw [commitsBefore_succ, if_pos hm]
  have hfirst : commitsBefore events i ≤ commitsBefore events m := commitsBefore_mono him
  have hlast : commitsBefore events (m + 1) ≤ commitsBefore events j :=
    commitsBefore_mono (Nat.succ_le_of_lt hmj)
  omega

/-- Between two versions lies a commit. -/
theorem exists_commit (h : commitsBefore events i < commitsBefore events j) :
    ∃ m : Nat, i ≤ m ∧ m < j ∧ events[m]? = some .committed := by
  induction j with
  | zero => exact absurd h (Nat.not_lt_zero _)
  | succ j ih =>
    rw [commitsBefore_succ] at h
    by_cases hcommit : events[j]? = some .committed
    · have hij : i ≤ j := by
        by_contra hlt
        have hmono : commitsBefore events (j + 1) ≤ commitsBefore events i :=
          commitsBefore_mono (by omega)
        rw [commitsBefore_succ] at hmono
        omega
      exact ⟨j, hij, Nat.lt_succ_self j, hcommit⟩
    · rw [if_neg hcommit] at h
      obtain ⟨m, him, hmj, hm⟩ := ih h
      exact ⟨m, him, by omega, hm⟩

/-! ### The events of a run -/

theorem timeline_start (hs : BeforePush s) (hv : ∀ t v, s.stored = some (t, v) → v = v₀) :
    Timeline maxsize v₀ [] s where
  version t v h := hv t v h
  held c snapshot h := by
    rw [hs.calls c] at h
    exact nomatch h
  notLoaded _ _ := List.not_mem_nil
  notEnqueued _ _ _ := List.not_mem_nil
  loadedOnce _ _ _ h := nomatch h
  enqueuedOnce _ _ _ _ _ h := nomatch h
  sound k := by
    rw [hs.lanes k]
    exact Lane.sound_empty
  dispatched k d hd := by
    rw [hs.lanes k] at hd
    exact nomatch hd
  order k := by
    rw [hs.lanes k]
    exact List.Pairwise.nil
  complete k c j h := by
    obtain ⟨keys, -, hj⟩ := h
    exact nomatch hj

/-- The past stays what it was. -/
theorem Timeline.past (h : Timeline maxsize v₀ events s) (e : PushEvent) (k : String) :
    (∀ d ∈ (s.lanes k).delivered, ∃ i j, i < j ∧ LoadedAt v₀ (events ++ [e]) d.toSnapshot i ∧
      EnqueuedAt (events ++ [e]) k d.call j) ∧
    (s.lanes k).delivered.Pairwise fun d d' => d.call = d'.call ∨
      ∃ j j', j < j' ∧ EnqueuedAt (events ++ [e]) k d.call j ∧
        EnqueuedAt (events ++ [e]) k d'.call j' := by
  constructor
  · intro d hd
    obtain ⟨i, j, hij, hi, hj⟩ := h.dispatched k d hd
    exact ⟨i, j, hij, hi.append, hj.append⟩
  · refine (h.order k).imp fun {d d'} horder => horder.imp_right ?_
    rintro ⟨j, j', hlt, hj, hj'⟩
    exact ⟨j, j', hlt, hj.append, hj'.append⟩

/-- A step that loads and enqueues nothing. -/
theorem Timeline.unseen (h : Timeline maxsize v₀ events s) (hload : ∀ c, e ≠ .loaded c)
    (henqueue : ∀ c keys, e ≠ .enqueued c keys)
    (hversion : ∀ t v, s'.stored = some (t, v) → v = v₀ + (events ++ [e]).count .committed)
    (hheld : ∀ c snapshot, (s'.calls c).snapshot = some snapshot →
      (s.calls c).snapshot = some snapshot)
    (hearly : ∀ c, s'.calls c = .idle ∨ s'.calls c = .committed →
      s.calls c = .idle ∨ s.calls c = .committed)
    (hreturned : ∀ c, s.calls c = .returned → s'.calls c = .returned)
    (hlanes : ∀ k, (s'.lanes k).Sound maxsize ∧ (s'.lanes k).delivered = (s.lanes k).delivered) :
    Timeline maxsize v₀ (events ++ [e]) s' := by
  refine ⟨hversion, ?_, ?_, ?_, ?_, ?_, fun k => (hlanes k).1, ?_, ?_, ?_⟩
  · -- what a call holds was loaded before this step
    intro c snapshot hc
    obtain ⟨hcall, i, hi⟩ := h.held c snapshot (hheld c snapshot hc)
    exact ⟨hcall, i, hi.append⟩
  · intro c hc hmem
    rcases List.mem_append.mp hmem with hmem | hmem
    · exact h.notLoaded c (hearly c hc) hmem
    · exact hload c (List.mem_singleton.mp hmem).symm
  · intro c keys hc hmem
    rcases List.mem_append.mp hmem with hmem | hmem
    · exact h.notEnqueued c keys (fun hold => hc (hreturned c hold)) hmem
    · exact henqueue c keys (List.mem_singleton.mp hmem).symm
  · -- the new event is neither a load nor an enqueue, so both indices are old
    intro i j c hi hj
    rcases event_append_cases hi with hi | ⟨-, heq⟩
    · rcases event_append_cases hj with hj | ⟨-, heq⟩
      · exact h.loadedOnce i j c hi hj
      · exact absurd heq.symm (hload c)
    · exact absurd heq.symm (hload c)
  · intro i j c keys keys' hi hj
    rcases event_append_cases hi with hi | ⟨-, heq⟩
    · rcases event_append_cases hj with hj | ⟨-, heq⟩
      · exact h.enqueuedOnce i j c keys keys' hi hj
      · exact absurd heq.symm (henqueue c keys')
    · exact absurd heq.symm (henqueue c keys)
  · intro k
    rw [(hlanes k).2]
    exact (h.past e k).1
  · intro k
    rw [(hlanes k).2]
    exact (h.past e k).2
  · intro k c j hj
    rw [(hlanes k).2]
    exact h.complete k c j (hj.of_append henqueue)

theorem snapshot_of_goesOn {call call' : EmitterCall} (h : GoesOn call call')
    (hsnapshot : call'.snapshot = some snapshot) : call.snapshot = some snapshot := by
  obtain rfl | rfl | ⟨_, _, rfl, rfl⟩ := h
  · exact hsnapshot
  · exact nomatch hsnapshot
  · exact hsnapshot

theorem Timeline.quiet (h : Timeline maxsize v₀ events s)
    (hstored : s'.stored = s.stored ∨ s'.stored = none)
    (hcalls : ∀ c, GoesOn (s.calls c) (s'.calls c))
    (hlanes : ∀ k, (s'.lanes k).Sound maxsize ∧ (s'.lanes k).delivered = (s.lanes k).delivered) :
    Timeline maxsize v₀ (events ++ [.other]) s' := by
  refine h.unseen nofun nofun ?_ (fun c _ => snapshot_of_goesOn (hcalls c)) ?_ ?_ hlanes
  · intro t v ht
    rw [List.count_append]
    rcases hstored with heq | heq
    · exact h.version t v (heq.symm.trans ht)
    · rw [heq] at ht
      exact nomatch ht
  · intro c hc
    rcases hcalls c with heq | heq | ⟨_, _, -, heq⟩
    · rwa [heq] at hc
    · rw [heq] at hc
      exact hc.elim nofun nofun
    · rw [heq] at hc
      exact hc.elim nofun nofun
  · intro c hc
    rcases hcalls c with heq | heq | ⟨_, _, heq, -⟩
    · exact heq.trans hc
    · exact heq
    · rw [heq] at hc
      exact nomatch hc

theorem calls_setCall (s : PushSystem) (c c' : CallId) (call : EmitterCall) :
    (s.setCall c call).calls c' = if c' = c then call else s.calls c' := by
  show Function.update s.calls c call c' = _
  by_cases hc : c' = c
  · subst hc
    rw [Function.update_self, if_pos rfl]
  · rw [Function.update_of_ne hc, if_neg hc]

theorem Timeline.committed (h : Timeline maxsize v₀ events s) {t t' : Task} {v : Nat}
    {call : EmitterCall} (hidle : s.calls c = .idle) (hstored : s.stored = some (t, v))
    (hcall : call = .committed ∨ call = .returned) :
    Timeline maxsize v₀ (events ++ [.committed])
      ({ s with stored := some (t', v + 1) }.setCall c call) := by
  have hnone : call.snapshot = none := by
    obtain rfl | rfl := hcall
    · rfl
    · rfl
  refine h.unseen nofun nofun ?_ ?_ ?_ ?_ fun k => ⟨h.sound k, rfl⟩
  · intro t₁ v₁ ht
    obtain ⟨-, rfl⟩ := Prod.mk.inj (Option.some_inj.mp ht)
    rw [List.count_append, h.version t v hstored]
    rfl
  · intro c' sn hsn
    rw [calls_setCall] at hsn
    split at hsn
    · rw [hnone] at hsn
      exact nomatch hsn
    · exact hsn
  · intro c' hc'
    rw [calls_setCall] at hc'
    split at hc'
    · rename_i heq
      exact Or.inl (heq ▸ hidle)
    · exact hc'
  · intro c' hc'
    rw [calls_setCall]
    split
    · rename_i heq
      rw [heq, hidle] at hc'
      exact nomatch hc'
    · exact hc'

theorem loadedAt_now (hcall : x = .loaded snapshot.call)
    (hversion : snapshot.version = v₀ + events.count .committed) :
    LoadedAt v₀ (events ++ [x]) snapshot events.length := by
  refine ⟨by rw [List.getElem?_concat_length, hcall], ?_⟩
  rw [commitsBefore_append (Nat.le_refl _), hversion]
  unfold commitsBefore
  rw [List.take_length]

theorem Timeline.loaded (h : Timeline maxsize v₀ events s) {t : Task} {v : Nat}
    (hcall : s.calls c = .committed) (hstored : s.stored = some (t, v)) :
    Timeline maxsize v₀ (events ++ [.loaded c])
      (s.setCall c (.loaded { call := c, task := t, version := v })) := by
  -- a call that has just committed has not loaded before
  have hnew : .loaded c ∉ events := h.notLoaded c (Or.inr hcall)
  refine ⟨?_, ?_, ?_, ?_, ?_, ?_, h.sound, fun k => (h.past _ k).1, fun k => (h.past _ k).2, ?_⟩
  · intro t' v' ht
    rw [List.count_append]
    exact h.version t' v' ht
  · intro c' sn hsn
    rw [calls_setCall] at hsn
    split at hsn
    · rename_i heq
      cases hsn
      -- the stored version counts the commits so far, which is what the load sees
      exact ⟨heq.symm, events.length, loadedAt_now rfl (h.version t v hstored)⟩
    · obtain ⟨hc, i, hi⟩ := h.held c' sn hsn
      exact ⟨hc, i, hi.append⟩
  · intro c' hc' hmem
    rw [calls_setCall] at hc'
    split at hc'
    · exact hc'.elim nofun nofun
    · rename_i hne
      rcases List.mem_append.mp hmem with hmem | hmem
      · exact h.notLoaded c' hc' hmem
      · exact hne (PushEvent.loaded.inj (List.mem_singleton.mp hmem))
  · intro c' keys hc' hmem
    rw [calls_setCall] at hc'
    rcases List.mem_append.mp hmem with hold | hnow
    · split at hc'
      · rename_i heq
        refine h.notEnqueued c' keys ?_ hold
        rw [heq, hcall]
        exact nofun
      · exact h.notEnqueued c' keys hc' hold
    · exact nomatch List.mem_singleton.mp hnow
  · intro i j c' hi hj
    rcases event_append_cases hi with hi | ⟨rfl, heq⟩
    · rcases event_append_cases hj with hj | ⟨rfl, heq⟩
      · exact h.loadedOnce i j c' hi hj
      · exact absurd (heq ▸ List.mem_of_getElem? hi) hnew
    · rcases event_append_cases hj with hj | ⟨rfl, -⟩
      · exact absurd (heq ▸ List.mem_of_getElem? hj) hnew
      · rfl
  · intro i j c' keys keys' hi hj
    rcases event_append_cases hi with hi | ⟨-, heq⟩
    · rcases event_append_cases hj with hj | ⟨-, heq⟩
      · exact h.enqueuedOnce i j c' keys keys' hi hj
      · exact nomatch heq
    · exact nomatch heq
  · intro k c' j hj
    refine h.complete k c' j (EnqueuedAt.of_append ?_ hj)
    intro c₁ keys heq
    exact nomatch heq

theorem Timeline.enqueued (h : Timeline maxsize v₀ events s)
    {configs : List TaskPushNotificationConfig} (hcall : s.calls c = .lookedUp snapshot configs) :
    Timeline maxsize v₀ (events ++ [.enqueued c (configs.map TaskPushNotificationConfig.key)])
      ({ s with lanes := deliverAll maxsize s.lanes snapshot configs }.setCall c .returned) := by
  -- a call that still looks its configurations up has not enqueued before
  have hnew : ∀ keys, .enqueued c keys ∉ events := fun keys =>
    h.notEnqueued c keys (by rw [hcall]; exact nofun)
  obtain ⟨hc, i, hi⟩ := h.held c snapshot (by rw [hcall]; rfl)
  have hlt : i < events.length := (List.getElem?_eq_some_iff.mp hi.1).1
  have hnow : ∀ k, k ∈ configs.map TaskPushNotificationConfig.key →
      EnqueuedAt (events ++ [.enqueued c (configs.map TaskPushNotificationConfig.key)]) k c
        events.length := fun k hk => ⟨_, hk, List.getElem?_concat_length⟩
  have hspec := deliverAll_spec snapshot configs h.sound
  -- what `deliver` adds to a lane is this snapshot, under the key of the lane
  have hadded : ∀ k, ∀ d ∈ (configs.filter (·.key = k)).map fun config =>
      ({ snapshot with config } : Dispatch),
      d.toSnapshot = snapshot ∧ k ∈ configs.map TaskPushNotificationConfig.key := by
    intro k d hd
    obtain ⟨config, hconfig, rfl⟩ := List.mem_map.mp hd
    obtain ⟨hmem, hkey⟩ := List.mem_filter.mp hconfig
    exact ⟨rfl, List.mem_map.mpr ⟨config, hmem, of_decide_eq_true hkey⟩⟩
  refine ⟨?_, ?_, ?_, ?_, ?_, ?_, fun k => (hspec k).1, ?_, ?_, ?_⟩
  · intro t v ht
    rw [List.count_append]
    exact h.version t v ht
  · intro c' sn hsn
    rw [calls_setCall] at hsn
    split at hsn
    · exact nomatch hsn
    · obtain ⟨hc', i', hi'⟩ := h.held c' sn hsn
      exact ⟨hc', i', hi'.append⟩
  · intro c' hc' hmem
    rw [calls_setCall] at hc'
    split at hc'
    · exact hc'.elim nofun nofun
    · rcases List.mem_append.mp hmem with hmem | hmem
      · exact h.notLoaded c' hc' hmem
      · exact nomatch List.mem_singleton.mp hmem
  · intro c' keys hc' hmem
    rw [calls_setCall] at hc'
    split at hc'
    · exact hc' rfl
    · rename_i hne
      rcases List.mem_append.mp hmem with hmem | hmem
      · exact h.notEnqueued c' keys hc' hmem
      · exact hne (PushEvent.enqueued.inj (List.mem_singleton.mp hmem)).1
  · intro i j c' hi hj
    rcases event_append_cases hi with hi | ⟨-, heq⟩
    · rcases event_append_cases hj with hj | ⟨-, heq⟩
      · exact h.loadedOnce i j c' hi hj
      · exact nomatch heq
    · exact nomatch heq
  · intro i j c' keys keys' hi hj
    rcases event_append_cases hi with hold | ⟨rfl, heq⟩
    · rcases event_append_cases hj with hold' | ⟨rfl, heq⟩
      · exact h.enqueuedOnce i j c' keys keys' hold hold'
      · -- one of the indices is the new one, the other old: that contradicts `hnew`
        rw [(PushEvent.enqueued.inj heq).1] at hold
        exact absurd (List.mem_of_getElem? hold) (hnew keys)
    · rcases event_append_cases hj with hold' | ⟨rfl, -⟩
      · rw [(PushEvent.enqueued.inj heq).1] at hold'
        exact absurd (List.mem_of_getElem? hold') (hnew keys')
      · rfl
  · intro k d hd
    have hd : d ∈ (deliverAll maxsize s.lanes snapshot configs k).delivered := hd
    rw [(hspec k).2] at hd
    rcases List.mem_append.mp hd with hd | hd
    · exact (h.past _ k).1 d hd
    · obtain ⟨heq, hk⟩ := hadded k d hd
      rw [heq, hc]
      exact ⟨i, events.length, hlt, hi.append, hnow k hk⟩
  · intro k
    show (deliverAll maxsize s.lanes snapshot configs k).delivered.Pairwise _
    rw [(hspec k).2]
    -- the new dispatches carry one snapshot, and the old ones were enqueued before it
    refine List.pairwise_append.mpr ⟨(h.past _ k).2, ?_, ?_⟩
    · refine List.pairwise_of_forall_mem_list fun d hd d' hd' => Or.inl ?_
      rw [(hadded k d hd).1, (hadded k d' hd').1]
    · intro d hd d' hd'
      obtain ⟨heq, hk⟩ := hadded k d' hd'
      obtain ⟨i', j, -, -, hj⟩ := h.dispatched k d hd
      have hjlt : j < events.length := by
        obtain ⟨keys, -, hevent⟩ := hj
        exact (List.getElem?_eq_some_iff.mp hevent).1
      refine Or.inr ⟨j, events.length, hjlt, hj.append, ?_⟩
      rw [heq, hc]
      exact hnow k hk
  · intro k c' j hj
    show ∃ d ∈ (deliverAll maxsize s.lanes snapshot configs k).delivered, d.call = c'
    rw [(hspec k).2]
    obtain ⟨keys, hk, hevent⟩ := hj
    rcases event_append_cases hevent with hevent | ⟨-, heq⟩
    · obtain ⟨d, hd, hcall'⟩ := h.complete k c' j ⟨keys, hk, hevent⟩
      exact ⟨d, List.mem_append_left _ hd, hcall'⟩
    · obtain ⟨rfl, rfl⟩ := PushEvent.enqueued.inj heq
      obtain ⟨config, hmem, hkey⟩ := List.mem_map.mp hk
      refine ⟨{ snapshot with config }, List.mem_append_right _ (List.mem_map.mpr ⟨config, ?_, rfl⟩),
        hc⟩
      exact List.mem_filter.mpr ⟨hmem, decide_eq_true hkey⟩

/-! ### Old and new snapshots -/

/-- A snapshot that a call holds or that was enqueued. -/
def Taken (s : PushSystem) (snapshot : Snapshot) : Prop :=
  (∃ c, (s.calls c).snapshot = some snapshot) ∨
    ∃ k, ∃ d ∈ (s.lanes k).delivered, d.toSnapshot = snapshot

/-- What is terminal in an older snapshot is so in a newer one, and in the stored task. -/
structure Aged (s : PushSystem) : Prop where
  stored : ∀ snapshot t v, Taken s snapshot → s.stored = some (t, v) →
    snapshot.version ≤ v ∧ (snapshot.version = v → snapshot.task = t) ∧
      (snapshot.ended = true → t.status.state.isTerminal = true)
  taken : ∀ old new, Taken s old → Taken s new → old.version ≤ new.version →
    old.ended = true → new.ended = true

theorem aged_start (hs : BeforePush s) : Aged s := by
  have hnone : ∀ snapshot, ¬ Taken s snapshot := by
    rintro snapshot (⟨c, hc⟩ | ⟨k, d, hd, -⟩)
    · rw [hs.calls c] at hc
      exact nomatch hc
    · rw [hs.lanes k] at hd
      exact nomatch hd
  exact ⟨fun snapshot _ _ h => absurd h (hnone snapshot), fun old _ h => absurd h (hnone old)⟩

/-- No new snapshot, and the task is the same or gone. -/
theorem Aged.mono (h : Aged s) (htaken : ∀ snapshot, Taken s' snapshot → Taken s snapshot)
    (hstored : s'.stored = s.stored ∨ s'.stored = none) : Aged s' := by
  refine ⟨fun snapshot t v hsn hs' => ?_, fun old new hold hnew =>
    h.taken old new (htaken old hold) (htaken new hnew)⟩
  rcases hstored with heq | heq
  · exact h.stored snapshot t v (htaken snapshot hsn) (heq.symm.trans hs')
  · rw [heq] at hs'
    exact nomatch hs'

theorem Aged.effect (h : Aged s) (hsound : ∀ k, (s.lanes k).Sound maxsize)
    (heffect : Effect maxsize s e s') : Aged s' := by
  cases heffect with
  | quiet _ hstored hcalls hlanes =>
    refine h.mono ?_ hstored
    rintro snapshot (⟨c, hc⟩ | ⟨k, d, hd, hsn⟩)
    · exact Or.inl ⟨c, snapshot_of_goesOn (hcalls c) hc⟩
    · rw [(hlanes k).2] at hd
      exact Or.inr ⟨k, d, hd, hsn⟩
  | committed c t t' v call hidle hstored hterminal hcall =>
    have htaken : ∀ snapshot, Taken ({ s with stored := some (t', v + 1) }.setCall c call) snapshot →
        Taken s snapshot := by
      rintro snapshot (⟨c', hc'⟩ | hlane)
      · rw [calls_setCall] at hc'
        split at hc'
        · obtain rfl | rfl := hcall <;> exact nomatch hc'
        · exact Or.inl ⟨c', hc'⟩
      · exact Or.inr hlane
    refine ⟨fun snapshot t₁ v₁ hsn hs' => ?_, fun old new hold hnew =>
      h.taken old new (htaken old hold) (htaken new hnew)⟩
    obtain ⟨rfl, rfl⟩ := Prod.mk.inj (Option.some_inj.mp hs')
    obtain ⟨hle, -, hended⟩ := h.stored snapshot t v (htaken snapshot hsn) hstored
    exact ⟨by omega, by omega, fun hsnapshot => hterminal (hended hsnapshot)⟩
  | loaded c t v hcall hstored =>
    have htaken : ∀ snapshot,
        Taken (s.setCall c (.loaded { call := c, task := t, version := v })) snapshot →
        Taken s snapshot ∨ snapshot = { call := c, task := t, version := v } := by
      rintro snapshot (⟨c', hc'⟩ | hlane)
      · rw [calls_setCall] at hc'
        split at hc'
        · exact Or.inr (Option.some_inj.mp hc').symm
        · exact Or.inl (Or.inl ⟨c', hc'⟩)
      · exact Or.inl (Or.inr hlane)
    constructor
    · intro snapshot t₁ v₁ hsn hs'
      have hs' : s.stored = some (t₁, v₁) := hs'
      rcases htaken snapshot hsn with hsn | rfl
      · exact h.stored snapshot t₁ v₁ hsn hs'
      · obtain ⟨rfl, rfl⟩ := Prod.mk.inj (Option.some_inj.mp (hstored.symm.trans hs'))
        exact ⟨Nat.le_refl _, fun _ => rfl, id⟩
    · intro old new hold hnew hle hended
      rcases htaken old hold with hold | rfl
      · rcases htaken new hnew with hnew | rfl
        · exact h.taken old new hold hnew hle hended
        · exact (h.stored old t v hold hstored).2.2 hended
      · rcases htaken new hnew with hnew | rfl
        · -- nothing is newer than what is stored
          obtain ⟨hnewer, hsame, -⟩ := h.stored new t v hnew hstored
          have htask : new.task = t := hsame (Nat.le_antisymm hnewer hle)
          show new.task.status.state.isTerminal = true
          rw [htask]
          exact hended
        · exact hended
  | enqueued c snapshot configs hcall =>
    refine h.mono ?_ (Or.inl rfl)
    rintro sn (⟨c', hc'⟩ | ⟨k, d, hd, rfl⟩)
    · rw [calls_setCall] at hc'
      split at hc'
      · exact nomatch hc'
      · exact Or.inl ⟨c', hc'⟩
    · have hd : d ∈ (deliverAll maxsize s.lanes snapshot configs k).delivered := hd
      rw [(deliverAll_spec snapshot configs hsound k).2] at hd
      rcases List.mem_append.mp hd with hd | hd
      · exact Or.inr ⟨k, d, hd, rfl⟩
      · obtain ⟨config, -, rfl⟩ := List.mem_map.mp hd
        exact Or.inl ⟨c, by rw [hcall]; rfl⟩

theorem Timeline.effect (h : Timeline maxsize v₀ events s) (heffect : Effect maxsize s e s') :
    Timeline maxsize v₀ (events ++ [e]) s' := by
  cases heffect with
  | quiet _ hstored hcalls hlanes => exact h.quiet hstored hcalls hlanes
  | committed c t t' v call hidle hstored _ hcall => exact h.committed hidle hstored hcall
  | loaded c t v hcall hstored => exact h.loaded hcall hstored
  | enqueued c snapshot configs hcall => exact h.enqueued hcall

/-- **What a run has seen and what it has done.** -/
theorem timeline_run {tr : List (PushAction × PushEvent)} (hs : BeforePush s)
    (hv : ∀ t v, s.stored = some (t, v) → v = v₀) (hrun : PushRun taskId maxsize s tr s') :
    Timeline maxsize v₀ (tr.map Prod.snd) s' ∧ Aged s' := by
  refine hrun.forward (P := fun tr s => Timeline maxsize v₀ (tr.map Prod.snd) s ∧ Aged s) ?_
    ⟨timeline_start hs hv, aged_start hs⟩
  rintro tr u a u' e ⟨htimeline, haged⟩ - hstep
  have heffect := effect_of_step htimeline.sound hstep
  rw [List.map_append]
  exact ⟨htimeline.effect heffect, haged.effect htimeline.sound heffect⟩

end

/-! ### Overtaking -/

section

variable {maxsize v₀ : Nat} {s : PushSystem} {events : List PushEvent} {k : String}

theorem Timeline.enqueuedInOrder (h : Timeline maxsize v₀ events s) (haged : Aged s)
    (hno : ¬ Overtakes events k) : EnqueuedInOrder s k := by
  refine (h.order k).imp_of_mem fun {d d'} hd hd' horder => ?_
  obtain ⟨i, j, hij, ⟨hloaded, hversion⟩, keys, hk, hj⟩ := h.dispatched k d hd
  obtain ⟨i', j', -, ⟨hloaded', hversion'⟩, keys', hk', hj'⟩ := h.dispatched k d' hd'
  have hle : d.version ≤ d'.version := by
    by_contra hnewer
    rcases horder with hcall | ⟨m, m', hmm', ⟨mkeys, -, hm⟩, mkeys', -, hm'⟩
    · -- one call has loaded one snapshot
      rw [hcall] at hloaded
      obtain rfl := h.loadedOnce _ _ _ hloaded hloaded'
      omega
    · obtain rfl := h.enqueuedOnce _ _ _ _ _ hj hm
      obtain rfl := h.enqueuedOnce _ _ _ _ _ hj' hm'
      have hlt : commitsBefore events i' < commitsBefore events i := by omega
      obtain ⟨x, hix, hxi, hx⟩ := exists_commit hlt
      have hne : i' ≠ x := by
        rintro rfl
        rw [hx] at hloaded'
        exact nomatch hloaded'
      exact hno ⟨d'.call, d.call, i', x, i, j, j', keys', keys, by omega, hxi, hij, hmm', hloaded',
        hx, hloaded, hj, hj', hk', hk⟩
  exact ⟨hle, haged.taken _ _ (Or.inr ⟨k, d, hd, rfl⟩) (Or.inr ⟨k, d', hd', rfl⟩) hle⟩

theorem Timeline.not_enqueuedInOrder (h : Timeline maxsize v₀ events s) (hovertakes : Overtakes events k) :
    ¬ EnqueuedInOrder s k := by
  intro horder
  obtain ⟨a, b, loadA, commit, loadB, enqueueB, enqueueA, keysA, keysB, hac, hcb, hbe, hea, hloadA,
    hcommit, hloadB, henqueueB, henqueueA, hkA, hkB⟩ := hovertakes
  obtain ⟨da, hda, hcalla⟩ := h.complete k a enqueueA ⟨keysA, hkA, henqueueA⟩
  obtain ⟨db, hdb, hcallb⟩ := h.complete k b enqueueB ⟨keysB, hkB, henqueueB⟩
  have hab : a ≠ b := by
    rintro rfl
    have hload := h.loadedOnce _ _ _ hloadA hloadB
    omega
  have hnewer : da.version < db.version := by
    obtain ⟨i, -, -, ⟨hi, hversion⟩, -⟩ := h.dispatched k da hda
    obtain ⟨i', -, -, ⟨hi', hversion'⟩, -⟩ := h.dispatched k db hdb
    have hlt : commitsBefore events loadA < commitsBefore events loadB :=
      commitsBefore_lt (Nat.le_of_lt hac) hcb hcommit
    rw [hcalla] at hi
    rw [hcallb] at hi'
    obtain rfl := h.loadedOnce _ _ _ hi hloadA
    obtain rfl := h.loadedOnce _ _ _ hi' hloadB
    omega
  obtain ⟨p, hp, rfl⟩ := List.mem_iff_getElem.mp hda
  obtain ⟨q, hq, rfl⟩ := List.mem_iff_getElem.mp hdb
  rcases Nat.lt_trichotomy p q with hlt | rfl | hlt
  · -- the call that enqueued first comes first
    rcases List.pairwise_iff_getElem.mp (h.order k) p q hp hq hlt with hcall | ⟨j, j', hjj', hj, hj'⟩
    · rw [hcalla, hcallb] at hcall
      exact hab hcall
    · obtain ⟨keys, -, hj⟩ := hj
      obtain ⟨keys', -, hj'⟩ := hj'
      rw [hcalla] at hj
      rw [hcallb] at hj'
      obtain rfl := h.enqueuedOnce _ _ _ _ _ hj henqueueA
      obtain rfl := h.enqueuedOnce _ _ _ _ _ hj' henqueueB
      omega
  · exact hab (hcalla.symm.trans hcallb)
  · have hle := (List.pairwise_iff_getElem.mp horder q p hq hp hlt).1
    omega

end

/-- Of the snapshots that were handed over for posting, none is older than one before it, and none
after a terminal one is not terminal. -/
def ReceivedInOrder (s : PushSystem) (k : String) : Prop :=
  ((s.lanes k).handed.map Prod.snd).Pairwise fun d d' =>
    d.version ≤ d'.version ∧ (d.toSnapshot.ended = true → d'.toSnapshot.ended = true)

/-- **Webhooks never go back in time if and only if no writer is overtaken**, in every run of
writers, configurations and delivery workers, and for every configuration. -/
theorem webhooks_in_order_iff (taskId : TaskId) (maxsize : Nat) (s s' : PushSystem)
    (tr : List (PushAction × PushEvent)) (hs : BeforePush s) (hrun : PushRun taskId maxsize s tr s')
    (k : String) : (EnqueuedInOrder s' k ↔ ¬ Overtakes (tr.map Prod.snd) k) ∧
      (EnqueuedInOrder s' k → ReceivedInOrder s' k) := by
  have hv : ∀ t v, s.stored = some (t, v) → v = (s.stored.map Prod.snd).getD 0 := by
    intro t v ht
    rw [ht]
    rfl
  obtain ⟨htimeline, haged⟩ := timeline_run hs hv hrun
  refine ⟨⟨fun horder hovertakes => htimeline.not_enqueuedInOrder hovertakes horder,
    htimeline.enqueuedInOrder haged⟩, fun horder => ?_⟩
  have hsub : ((s'.lanes k).handed.map Prod.snd).Sublist (s'.lanes k).delivered :=
    (List.sublist_append_left _ _).trans (htimeline.sound k).books.sublist
  exact List.Pairwise.sublist hsub horder

/-! ### Two writers -/

/-- A new task. -/
def submittedTask : Task :=
  initialTask "t" "c" { role := .user, parts := [], messageId := "m", taskId := "", contextId := "" }
    none "2026-01-01T12:00:00+00:00"

/-- The task has one webhook. -/
def watchedTask : PushSystem where
  stored := some (submittedTask, 1)
  configs := [("w", { taskId := "t", id := some "w", url := "https://example.com/hook" })]

def setsState (c : CallId) (state : TaskState) : PushAction :=
  .commit c (fun _ => { artifactId := "", parts := [] }) { state := some state }
    "2026-01-01T12:00:01+00:00"

/-- The worker writes `working`, and then the task is completed by another writer. -/
def oneByOne : List PushAction :=
  [setsState 0 .working, .load 0, .lookUp 0, .enqueue 0, setsState 1 .completed, .load 1, .lookUp 1,
    .enqueue 1, .work "w" 0 .take, .work "w" 0 .handOver]

/-- The same, but the first writer is slow to look up the configurations. -/
def slowLookUp : List PushAction :=
  [setsState 0 .working, .load 0, setsState 1 .completed, .load 1, .lookUp 1, .enqueue 1, .lookUp 0,
    .enqueue 0]

theorem beforePush_watchedTask : BeforePush watchedTask := ⟨fun _ => rfl, fun _ => rfl⟩

/-- Nobody is overtaken. -/
theorem webhooks_one_by_one : ∃ tr s, PushRun "t" 100 watchedTask tr s ∧
    ((s.lanes "w").delivered.map fun d => d.version) = [2, 3] ∧
    ((EnqueuedInOrder s "w" ↔ ¬ Overtakes (tr.map Prod.snd) "w") ∧ (EnqueuedInOrder s "w" → ReceivedInOrder s "w")) := by
  have hrun := run_finalState (step "t" 100) (fun _ _ => True) watchedTask oneByOne rfl
  exact ⟨_, _, hrun, by decide +kernel,
    webhooks_in_order_iff "t" 100 _ _ _ beforePush_watchedTask hrun "w"⟩

/-- **A completed task is enqueued before the working one.** -/
theorem webhook_goes_back : ¬ ∀ (taskId : TaskId) (maxsize : Nat) (s s' : PushSystem)
    (tr : List (PushAction × PushEvent)), BeforePush s → PushRun taskId maxsize s tr s' →
    ∀ k, EnqueuedInOrder s' k := by
  intro hall
  have hrun := run_finalState (step "t" 100) (fun _ _ => True) watchedTask slowLookUp rfl
  have horder := hall "t" 100 _ _ _ beforePush_watchedTask hrun "w"
  have hversions : ((finalState (step "t" 100) (fun _ _ => True) watchedTask slowLookUp).lanes
      "w").delivered.map (fun d => d.version) = [3, 2] := by
    decide +kernel
  have hsorted : [3, 2].Pairwise fun v v' : Nat => v ≤ v' := by
    rw [← hversions, List.pairwise_map]
    exact horder.imp And.left
  revert hsorted
  decide

end A2AKit
