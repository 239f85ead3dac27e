/-
Webhooks and updates of their configurations.

A delivery worker posts with the configuration it was started with, for as long as it lives, while
its queue carries the task alone.

* `posts_current` — as long as no call of `deliver` comes with another url or other headers than
  those of the worker that is at work, every snapshot is posted to the configuration of its call;
* `posts_outdated` — a snapshot that goes to the url of before the update.
-/
import A2AKit.WebhookOrder

namespace A2AKit

def WorkerPhase.isDone {S : Type} : WorkerPhase S → Bool
  | .done => true
  | _ => false

theorem isDone_iff {S : Type} {phase : WorkerPhase S} : phase.isDone = true ↔ phase = .done := by
  cases phase <;> simp [WorkerPhase.isDone]

namespace Lane

variable {C S : Type} {maxsize : Nat} {ended : S → Bool} {l l' : Lane C S} {i : Nat}
  {w w' : QueueWorker C S} {move : WorkerMove} {config : C} {task : S} {o : LaneOutcome}
  {fits : C → S → Prop}

/-- What a worker has handed over, has in hand or in its queue fits its configuration. -/
structure Fits (fits : C → S → Prop) (l : Lane C S) : Prop where
  handed : ∀ p ∈ l.handed, fits p.1 p.2
  queued : ∀ (i : Nat) (w : QueueWorker C S), l.workers[i]? = some w →
    ∀ x ∈ w.phase.inHand ++ w.queue, fits w.config x

theorem Fits.of_set (h : Fits fits l) (hw : l.workers[i]? = some w)
    (hworkers : l'.workers = l.workers.set i w') (hhanded : ∀ p ∈ l'.handed, fits p.1 p.2)
    (hfits : ∀ x ∈ w'.phase.inHand ++ w'.queue, fits w'.config x) : Fits fits l' := by
  refine ⟨hhanded, fun j u hu => ?_⟩
  rw [hworkers, workers_setWorker hw] at hu
  rcases hu with ⟨-, rfl⟩ | ⟨-, hu⟩
  · exact hfits
  · exact h.queued j u hu

theorem Fits.worked (h : Fits fits l) (hw : l.workers[i]? = some w)
    (hstep : Worked ended l i w move l') : Fits fits l' := by
  have hold := h.queued i w hw
  cases hstep with
  | take item rest hphase hqueue =>
    refine h.of_set hw rfl h.handed fun x hx => hold x ?_
    rw [hqueue]
    exact List.mem_append_right _ hx
  | handOver item hphase =>
    rw [hphase] at hold
    refine h.of_set hw rfl ?_ fun x hx => hold x (List.mem_append_right _ hx)
    intro p hp
    rcases List.mem_append.mp hp with hp | hp
    · exact h.handed p hp
    · rw [List.mem_singleton.mp hp]
      exact hold item List.mem_cons_self
  | posted item hphase =>
    refine h.of_set hw rfl h.handed fun x hx => hold x ?_
    have hx : x ∈ WorkerPhase.inHand (if _ then .done else .waiting) ++ w.queue := hx
    rw [inHand_next] at hx
    exact List.mem_append_right _ hx
  | idleTimeout hphase =>
    refine h.of_set hw rfl h.handed fun x hx => hold x ?_
    have hx : x ∈ WorkerPhase.inHand (if _ then .done else .waiting) ++ w.queue := hx
    rw [inHand_next] at hx
    exact List.mem_append_right _ hx
  | callback hphase hcalled =>
    unfold cleanupQueue
    split
    · exact h.of_set hw rfl h.handed hold
    · exact h.of_set hw rfl h.handed hold

/-- The snapshot fits the configuration of the worker that will have it. -/
def Suits (fits : C → S → Prop) (l : Lane C S) (config : C) (task : S) : Prop :=
  fits config task ∧ ∀ w, l.current = some w → w.phase ≠ .done → fits w.config task

theorem Fits.deliver (h : Fits fits l) (hsound : Sound maxsize l) (hsuits : Suits fits l config task) :
    Fits fits (l.deliver maxsize config task).1 := by
  obtain ⟨hfit, hcurrent⟩ := hsuits
  have hstarted : Fits fits (if l.workerGone then l.startWorker config else l) := by
    split
    · refine ⟨h.handed, fun j u hu x hx => ?_⟩
      rcases startWorker_cases hu with rfl | hu
      · exact nomatch hx
      · exact h.queued j u hu x hx
    · exact h
  obtain ⟨i, w, hready⟩ := hsound.ready config
  unfold Lane.deliver
  generalize (if l.workerGone then l.startWorker config else l) = l₀ at hready hstarted ⊢
  rw [Sound.enqueue hready]
  refine hstarted.of_set hready.worker rfl hstarted.handed fun x hx => ?_
  have hold := hstarted.queued i w hready.worker
  have hnew : fits w.config task := by
    rcases hready.config with hsame | ⟨hconfig, -⟩
    · exact hcurrent w hsame hready.active
    · rwa [hconfig]
  obtain ⟨rest, hqueue, hput⟩ := DropOldest.put_spec maxsize task w.queue
  have hx : x ∈ w.phase.inHand ++ (DropOldest.put maxsize task w.queue).1 := hx
  rw [hput] at hx
  rcases List.mem_append.mp hx with hx | hx
  · exact hold x (List.mem_append_left _ hx)
  · rcases List.mem_append.mp hx with hx | hx
    · refine hold x (List.mem_append_right _ ?_)
      rw [hqueue]
      exact List.mem_append_right _ hx
    · rw [List.mem_singleton.mp hx]
      exact hnew

/-- After a call of `deliver` the worker is the one that was at work, or has the configuration of
the call. -/
theorem current_deliver (hsound : Sound maxsize l)
    (hw : (l.deliver maxsize config task).1.current = some w') :
    w'.config = config ∨ ∃ w, l.current = some w ∧ w.phase ≠ .done ∧ w'.config = w.config := by
  obtain ⟨i, w, hready⟩ := hsound.ready config
  unfold Lane.deliver at hw
  generalize (if l.workerGone then l.startWorker config else l) = l₀ at hready hw
  rw [Sound.enqueue hready] at hw
  have hset : w' = { w with queue := (DropOldest.put maxsize task w.queue).1 } := by
    obtain ⟨j, hj, hw⟩ := Option.bind_eq_some_iff.mp hw
    obtain rfl := Option.some_inj.mp (hj.symm.trans hready.table)
    rcases (workers_setWorker hready.worker j w').mp hw with ⟨-, heq⟩ | ⟨hne, -⟩
    · exact heq
    · exact absurd rfl hne
  rw [hset]
  rcases hready.config with hsame | ⟨hconfig, -⟩
  · exact Or.inr ⟨w, hsame, hready.active, rfl⟩
  · exact Or.inl hconfig

end Lane

/-! ### The configurations of a task -/

open PushSystem

/-- Two configurations that post to the same url and with the same headers. -/
def SamePost (used passed : TaskPushNotificationConfig) : Prop :=
  used.url = passed.url ∧ buildHeaders used = buildHeaders passed

/-- Every snapshot that was handed over for posting goes to the url and with the headers of the
configuration that the call of `deliver` came with. -/
def PostsCurrent (s : PushSystem) : Prop :=
  ∀ k, ∀ p ∈ (s.lanes k).handed, SamePost p.1 p.2.config

/-- The worker that is at work posts as the configuration says. -/
def PostsAlike (lanes : Lanes) (config : TaskPushNotificationConfig) : Prop :=
  ∀ w, (lanes config.key).current = some w → w.phase ≠ .done → SamePost w.config config

/-- A call of `deliver` comes with a configuration other than the one the worker at work was started
with, or with two for one worker. -/
def Outdates (s : PushSystem) : PushAction → Prop
  | .enqueue c => ∃ snapshot configs, s.calls c = .lookedUp snapshot configs ∧
      ¬ ((∀ config ∈ configs, PostsAlike s.lanes config) ∧
        configs.Pairwise fun a b => a.key = b.key → SamePost a b)
  | _ => False

/-- Whose snapshot goes where. -/
def FitsCall (used : TaskPushNotificationConfig) (d : Dispatch) : Prop := SamePost used d.config

section

variable {taskId : TaskId} {maxsize : Nat} {s s' : PushSystem} {a : PushAction} {e : PushEvent}

theorem SamePost.trans {a b c : TaskPushNotificationConfig} (h : SamePost a b) (h' : SamePost b c) :
    SamePost a c :=
  ⟨h.1.trans h'.1, h.2.trans h'.2⟩

theorem fits_deliverAll {lanes : Lanes} (snapshot : Snapshot)
    (configs : List TaskPushNotificationConfig) (hsound : ∀ k, (lanes k).Sound maxsize)
    (hfits : ∀ k, (lanes k).Fits FitsCall) (hagree : ∀ config ∈ configs, PostsAlike lanes config)
    (halike : configs.Pairwise fun a b => a.key = b.key → SamePost a b) (k : String) :
    (deliverAll maxsize lanes snapshot configs k).Fits FitsCall := by
  induction configs generalizing lanes with
  | nil => exact hfits k
  | cons config rest ih =>
    obtain ⟨hhead, hrest⟩ := List.pairwise_cons.mp halike
    obtain ⟨hok, hdelivered⟩ := (hsound config.key).deliver config { snapshot with config }
    have hdeliver : ((lanes config.key).deliver maxsize config { snapshot with config }).1.Fits
        FitsCall := (hfits config.key).deliver (hsound config.key)
      ⟨⟨rfl, rfl⟩, hagree config List.mem_cons_self⟩
    have hcurrent : ∀ w', ((lanes config.key).deliver maxsize config
        { snapshot with config }).1.current = some w' → _ := fun w' =>
      Lane.current_deliver (hsound config.key)
    unfold deliverAll
    generalize (lanes config.key).deliver maxsize config { snapshot with config } = r at hok hdelivered hdeliver hcurrent ⊢
    obtain ⟨lane, o⟩ := r
    obtain rfl : o = .ok := hok
    refine ih ?_ ?_ ?_ hrest
    · intro k'
      by_cases hk : k' = config.key
      · subst hk
        rw [Function.update_self]
        exact hdelivered.sound
      · rw [Function.update_of_ne hk]
        exact hsound k'
    · intro k'
      by_cases hk : k' = config.key
      · subst hk
        rw [Function.update_self]
        exact hdeliver
      · rw [Function.update_of_ne hk]
        exact hfits k'
    · intro other hother w' hw' hactive
      by_cases hk : other.key = config.key
      · rw [hk, Function.update_self] at hw'
        rcases hcurrent w' hw' with hconfig | ⟨w, hw, hwactive, hconfig⟩
        · rw [hconfig]
          exact hhead other hother hk.symm
        · rw [hconfig]
          exact hagree other (List.mem_cons_of_mem _ hother) w (hk ▸ hw) hwactive
      · rw [Function.update_of_ne hk] at hw'
        exact hagree other (List.mem_cons_of_mem _ hother) w' hw' hactive

/-- The delivery service changes with a call of `deliver` and with the steps of its workers. -/
theorem lanes_of_step (h : s.step taskId maxsize a = some (s', e)) :
    s'.lanes = s.lanes ∨
      (∃ c snapshot configs, a = .enqueue c ∧ s.calls c = .lookedUp snapshot configs ∧
        s'.lanes = deliverAll maxsize s.lanes snapshot configs) ∨
      ∃ k i move lane o, (s.lanes k).step maxsize (fun d => d.toSnapshot.ended) (.work i move) =
        some (lane, o) ∧ s'.lanes = Function.update s.lanes k lane := by
  cases a with
  | enqueue c =>
    rw [step] at h
    split at h
    · rename_i snapshot configs hcall
      cases h
      exact Or.inr (Or.inl ⟨c, snapshot, configs, rfl, hcall, rfl⟩)
    · cases h
  | work k i move =>
    rw [step] at h
    split at h
    · cases h
    · rename_i lane o hlane
      cases h
      exact Or.inr (Or.inr ⟨k, i, move, lane, o, hlane, rfl⟩)
  | setConfig config uuid =>
    cases h
    exact Or.inl rfl
  | deleteConfig configId =>
    cases h
    exact Or.inl rfl
  | deleteTask =>
    cases h
    exact Or.inl rfl
  | _ =>
    rw [step] at h
    repeat' split at h
    all_goals cases h
    all_goals exact Or.inl rfl

/-- What is known of the queues as long as no call has come with another configuration. -/
structure Fitting (maxsize : Nat) (s : PushSystem) : Prop where
  sound : ∀ k, (s.lanes k).Sound maxsize
  fits : ∀ k, (s.lanes k).Fits FitsCall

theorem fitting_start (hs : BeforePush s) : Fitting maxsize s := by
  refine ⟨fun k => ?_, fun k => ?_⟩
  · rw [hs.lanes k]
    exact Lane.sound_empty
  · rw [hs.lanes k]
    exact ⟨fun _ hp => absurd hp List.not_mem_nil, fun _ _ hw => nomatch hw⟩

theorem Fitting.step (h : Fitting maxsize s) (hok : ¬ Outdates s a)
    (hstep : s.step taskId maxsize a = some (s', e)) : Fitting maxsize s' := by
  rcases lanes_of_step hstep with heq | ⟨c, snapshot, configs, rfl, hcall, heq⟩ |
    ⟨k, i, move, lane, o, hlane, heq⟩
  · exact ⟨fun k => heq ▸ h.sound k, fun k => heq ▸ h.fits k⟩
  · obtain ⟨hagree, halike⟩ := Classical.not_not.mp fun hno => hok ⟨snapshot, configs, hcall, hno⟩
    refine ⟨fun k => ?_, fun k => ?_⟩
    · rw [heq]
      exact (deliverAll_spec snapshot configs h.sound k).1
    · rw [heq]
      exact fits_deliverAll snapshot configs h.sound h.fits hagree halike k
  · obtain ⟨w, hw, -, hworked⟩ := Lane.worked_of_step hlane
    refine ⟨fun k' => ?_, fun k' => ?_⟩
    · rw [heq]
      by_cases hk : k' = k
      · subst hk
        rw [Function.update_self]
        exact (h.sound k').worked hw hworked
      · rw [Function.update_of_ne hk]
        exact h.sound k'
    · rw [heq]
      by_cases hk : k' = k
      · subst hk
        rw [Function.update_self]
        exact (h.fits k').worked hw hworked
      · rw [Function.update_of_ne hk]
        exact h.fits k'

end

/-- **As long as no call of `deliver` comes with another configuration than that of the worker at
work, every snapshot is posted as the configuration of its call says**, in every state of the
run. -/
theorem posts_current (taskId : TaskId) (maxsize : Nat) (s s' : PushSystem)
    (tr : List (PushAction × PushEvent)) (hs : BeforePush s)
    (hrun : Run (step taskId maxsize) (fun s a => ¬ Outdates s a) s tr s') : PostsCurrent s' := by
  have hfitting : Fitting maxsize s' :=
    hrun.inv (fun _ _ _ _ h hok hstep => h.step hok hstep) (fitting_start hs)
  intro k p hp
  exact (hfitting.fits k).handed p hp

/-! ### An update of the url -/

/-- The url of the webhook is updated between two transitions. -/
def moveWebhook : PushAction :=
  .setConfig { id := some "w", url := "https://example.com/new" } "unused"

def postNext (i : Nat) : List PushAction := [.work "w" i .take, .work "w" i .handOver, .work "w" i .posted]

/-- The worker of the first snapshot has ended before the url is updated. -/
def movedLater : List PushAction :=
  [setsState 0 .working, .load 0, .lookUp 0, .enqueue 0] ++ postNext 0 ++
    [.work "w" 0 .idleTimeout, .work "w" 0 .callback, moveWebhook, setsState 1 .completed, .load 1,
      .lookUp 1, .enqueue 1] ++ postNext 1

/-- The url is updated while the worker waits. -/
def movedWhileWaiting : List PushAction :=
  [setsState 0 .working, .load 0, .lookUp 0, .enqueue 0] ++ postNext 0 ++
    [moveWebhook, setsState 1 .completed, .load 1, .lookUp 1, .enqueue 1] ++ postNext 0

instance (used passed : TaskPushNotificationConfig) : Decidable (SamePost used passed) :=
  inferInstanceAs (Decidable (_ ∧ _))

/-- A check of one configuration for every call. -/
def soleConfigAgrees (s : PushSystem) (a : PushAction) : Bool :=
  match a with
  | .enqueue c =>
    match s.calls c with
    | .lookedUp _ [config] =>
      match (s.lanes config.key).current with
      | none => true
      | some w => w.phase.isDone || decide (SamePost w.config config)
    | _ => false
  | _ => true

theorem not_outdates_of_check {s : PushSystem} {a : PushAction} (h : soleConfigAgrees s a = true) :
    ¬ Outdates s a := by
  cases a with
  | enqueue c =>
    rintro ⟨snapshot, configs, hcall, hno⟩
    unfold soleConfigAgrees at h
    simp only [hcall] at h
    split at h
    · rename_i snapshot' config heq
      obtain ⟨-, rfl⟩ := EmitterCall.lookedUp.inj heq
      refine hno ⟨fun other hother => ?_, List.pairwise_singleton _ _⟩
      rw [List.mem_singleton.mp hother]
      intro w hw hactive
      rw [hw] at h
      have h : (w.phase.isDone || decide (SamePost w.config config)) = true := h
      rcases Bool.or_eq_true_iff.mp h with hdone | hsame
      · exact absurd (isDone_iff.mp hdone) hactive
      · exact of_decide_eq_true hsame
    · exact nomatch h
  | _ => exact id

/-- The second snapshot is posted to the new url. -/
theorem posts_moved_later : ∃ tr s, Run (step "t" 100) (fun s a => ¬ Outdates s a) watchedTask tr s ∧
    ((s.lanes "w").handed.map fun p => p.1.url) =
      ["https://example.com/hook", "https://example.com/new"] ∧ PostsCurrent s := by
  have hcheck := run_finalState (step "t" 100) (fun s a => soleConfigAgrees s a = true) watchedTask
    movedLater (by decide +kernel)
  have hrun := hcheck.mono fun _ _ => not_outdates_of_check
  exact ⟨_, _, hrun, by decide +kernel, posts_current "t" 100 _ _ _ beforePush_watchedTask hrun⟩

/-- The second snapshot is posted to the url of before the update. -/
theorem posts_outdated : ¬ ∀ (taskId : TaskId) (maxsize : Nat) (s s' : PushSystem)
    (tr : List (PushAction × PushEvent)), BeforePush s → PushRun taskId maxsize s tr s' →
    PostsCurrent s' := by
  intro hall
  have hrun := run_finalState (step "t" 100) (fun _ _ => True) watchedTask movedWhileWaiting rfl
  have hposts := hall "t" 100 _ _ _ beforePush_watchedTask hrun "w"
  have hurls : ((finalState (step "t" 100) (fun _ _ => True) watchedTask movedWhileWaiting).lanes
      "w").handed.map (fun p => (p.1.url, p.2.config.url)) =
        [("https://example.com/hook", "https://example.com/hook"),
          ("https://example.com/hook", "https://example.com/new")] := by
    decide +kernel
  have hlast : ("https://example.com/hook", "https://example.com/new") ∈
      ((finalState (step "t" 100) (fun _ _ => True) watchedTask movedWhileWaiting).lanes
        "w").handed.map fun p => (p.1.url, p.2.config.url) := by
    rw [hurls]
    decide
  obtain ⟨p, hp, heq⟩ := List.mem_map.mp hlast
  obtain ⟨hused, hpassed⟩ := Prod.mk.inj heq
  have hsame := (hposts p hp).1
  rw [hused, hpassed] at hsame
  exact absurd hsame (by decide)

end A2AKit
