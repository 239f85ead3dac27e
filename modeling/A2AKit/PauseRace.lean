/-
Follow-ups that race for a paused task.

A message of the user is accepted by a paused task only, and its commit submits the task
again.  So between two accepted messages the task was paused again
(`one_follow_up_per_pause`).  A request whose message was not accepted has left everything as it
was; it has raised, or its message was in the history from the start
(`repeated_message_returns`).
-/
import A2AKit.FollowUps

namespace A2AKit

open TaskManager

/-- The stored task waits for the user. -/
def World.paused (w : World) : Prop :=
  ∃ row, w.row = some row ∧ awaitsInput row.task.status.state = true

/-- A user's message is accepted by a paused task only. -/
theorem paused_of_accepts {m : Message} {task : Task} (hrole : m.role = .user)
    (h : accepts m task = true) : awaitsInput task.status.state = true := by
  simp only [accepts, hrole, Bool.and_eq_true, Bool.or_eq_true, decide_eq_true_eq] at h
  rcases h.2 with h | h
  · exact h
  · cases h

/-- The message of a user is accepted by a paused task, which is submitted again. -/
theorem Accepted.submitted {m : Message} {row row' : Row} (hrole : m.role = .user)
    (h : Accepted m row row') :
    awaitsInput row.task.status.state = true ∧ row'.task.status.state = .submitted := by
  have hpaused := paused_of_accepts hrole h.accepts
  refine ⟨hpaused, ?_⟩
  rw [h.state, computeStateTransition, hpaused]
  rfl

/-- After an accepted message the task is not paused. -/
theorem Accepted.not_paused {m : Message} {row row' : Row} {w : World} (hrole : m.role = .user)
    (h : Accepted m row row') (hrow : w.row = some row') : ¬ w.paused := by
  rintro ⟨r, hr, hawait⟩
  obtain rfl := Option.some_inj.mp (hrow.symm.trans hr)
  rw [(h.submitted hrole).2] at hawait
  exact nomatch hawait

/-- Whatever happens to a request may be the reason that it raises. -/
def anyCircumstances {ι : Type} (_ : ι) : Circumstances ι := fun _ _ => True

theorem excused_any {ι : Type} (i : ι) (m : Message) :
    Excused m i (anyCircumstances i) fun _ => True :=
  ⟨fun _ _ _ _ => trivial, fun _ _ _ _ _ => trivial, fun _ _ _ _ _ _ _ => trivial,
    fun _ _ _ _ _ => trivial, fun _ _ _ _ => trivial⟩

/-- **At most one follow-up is accepted per pause.**  In every interleaving of any number of
requests, each with a message of the user and an id of its own, with cancellers, workers and
other writers:

* a request changes the task only by accepting its message, which appends the message to a
  paused task and submits it again, and between two such moves the task was paused again;
* a request is accepted at most once and hands over at most one operation, and only then;
  when it returns it has done both, unless its message was in the history from the start;
* when it was not accepted, none of its moves has changed the task or an account, and its
  message is in the history only if it was from the start;
* no message id occurs twice in the history. -/
theorem one_follow_up_per_pause {ι : Type} [DecidableEq ι] (cfg : BusConfig) (taskId : TaskId)
    (k : StorageKind) (params : ι → SendParams)
    (hrole : ∀ i, (params i).message.role = .user) (hname : ∀ i, (params i).message.taskId ≠ "")
    (hinj : Function.Injective fun i => (params i).message.messageId) (w : World)
    (hids : ∀ row, w.row = some row → (messageIds row.task).Nodup)
    {ms : List (PoolMove ι (Office ι))} {c : (ι → Prog Call (Except Exc Task × Unit)) × Office ι}
    (hrun : (followUps cfg taskId (fun i => (params i).message) anyCircumstances).Run
      (fun i => sendMessage k (params i) (), { world := w }) ms c) :
    (∀ m ∈ ms, ∀ i, m.who = some i → m.after.world.row ≠ m.before.world.row →
      ∃ row row', m.before.world.row = some row ∧ m.after.world.row = some row' ∧
        Accepted (params i).message row row' ∧ awaitsInput row.task.status.state = true ∧
        row'.task.status.state = .submitted) ∧
    (∀ before between after m m' i j, ms = before ++ m :: (between ++ m' :: after) →
      m.who = some i → m.after.world.row ≠ m.before.world.row →
      m'.who = some j → m'.after.world.row ≠ m'.before.world.row →
      ∃ p ∈ between, ¬ p.before.world.paused ∧ p.after.world.paused) ∧
    (∀ i, (c.2.accounts i).commits ≤ 1 ∧
      (c.2.accounts i).handed.length ≤ (c.2.accounts i).commits ∧
      (∀ r, c.1 i = .ret r → ∀ t, r.1 = .ok t →
        (c.2.accounts i).commits = 1 ∧ (c.2.accounts i).handed.length = 1 ∨
          KnownAt w.row (params i).message.messageId) ∧
      ((c.2.accounts i).commits = 0 →
        (∀ row, c.2.world.row = some row → (params i).message.messageId ∈ messageIds row.task →
          KnownAt w.row (params i).message.messageId) ∧
        ∀ m ∈ ms, m.who = some i →
          m.after.world.row = m.before.world.row ∧ m.after.accounts = m.before.accounts)) ∧
    ∀ row, c.2.world.row = some row → (messageIds row.task).Nodup := by
  obtain ⟨hend, hmoves, hret⟩ := followUps_sound k params hname
    (fun i => excused_any i (params i).message) w hrun
  have hstep : ∀ m ∈ ms, ∀ i, m.who = some i →
      FollowUpStep (fun i => (params i).message) i m.before m.after := by
    intro m hm i hwho
    have hmove := hmoves m hm
    rw [FollowUpMove, hwho] at hmove
    exact hmove
  -- an id that is in the history was there from the start, or its own request was accepted
  have hsource : ∀ i, Source w.row (fun i => (params i).message) i c.2 →
      (c.2.accounts i).commits = 0 → KnownAt w.row (params i).message.messageId := by
    intro i hsrc hnone
    rcases hsrc with hknown | ⟨j, hj, hid⟩
    · exact hknown
    · obtain rfl : j = i := hinj hid
      exact absurd hnone hj
  refine ⟨?_, ?_, fun i => ⟨(hend.account i).2, (hend.account i).1, ?_, fun hnone => ⟨?_, ?_⟩⟩,
    hend.nodup hids⟩
  · intro m hm i hwho hne
    obtain ⟨row, row', hrow, hrow', hacc⟩ := (hstep m hm i hwho).accepted hne
    exact ⟨row, row', hrow, hrow', hacc, hacc.submitted (hrole i)⟩
  · intro before between after m m' i j hms hi hne hj hne'
    have hm : m ∈ ms := by rw [hms]; simp
    have hm' : m' ∈ ms := by rw [hms]; simp
    obtain ⟨_, row', _, hrow', hacc⟩ := (hstep m hm i hi).accepted hne
    obtain ⟨row, _, hrow, _, hacc'⟩ := (hstep m' hm' j hj).accepted hne'
    have hlinked := hrun.linked
    rw [hms] at hlinked
    exact hlinked.crosses (P := fun o => o.world.paused) (hacc.not_paused (hrole i) hrow')
      ⟨row, hrow, (hacc'.submitted (hrole j)).1⟩
  · rintro ⟨r, s⟩ hr t rfl
    obtain ⟨hout, -⟩ := hret i _ hr
    rcases hout with ⟨x, hhanded⟩ | hrepeated
    · left
      rw [hhanded.account]
      exact ⟨rfl, rfl⟩
    · right
      exact hsource i hrepeated.source (by rw [hrepeated.account])
  · exact fun row hrow hmem => hsource i ((hend.origin i row hrow).mp hmem) hnone
  · exact fun m hm hwho => unchanged_of_commits hrun.linked hmoves hnone hm hwho

/-! ### Two runs -/

/-- A message of the user for the task `t`. -/
def followUp (id : String) : Message :=
  { role := .user, parts := [], messageId := id, taskId := "t", contextId := "c" }

/-- A paused task with one message. -/
def waitingTask : Task :=
  { workingTask with
    status := { state := .inputRequired, timestamp := "" }
    history := [followUp "m0"] }

/-- The bus has served everybody. -/
def busServed {ι : Type} (o : Office ι) : Office ι :=
  { o with world := { o.world with bus := {} } }

theorem outsiders_busServed {ι : Type} (message : ι → Message) (o : Office ι) :
    Outsiders message o (busServed o) := by
  refine ⟨.refl _, fun row row' h h' hnodup => ?_, fun row row' i h h' hmem => ?_, rfl⟩
  · obtain rfl := Option.some_inj.mp (h.symm.trans h')
    exact hnodup
  · obtain rfl := Option.some_inj.mp (h.symm.trans h')
    exact hmem

/-- Two requests with messages of their own. -/
def rivals (first : Bool) : SendParams :=
  { message := followUp (if first then "m1" else "m2"), mode := .returnImmediately }

/-- Both requests validate the task, and the first one is served before the second writes. -/
def rivalCues : List (Crew.Cue Bool (Office Bool)) :=
  List.replicate 2 (Crew.Cue.program true) ++ List.replicate 2 (Crew.Cue.program false) ++
    List.replicate 9 (Crew.Cue.program true) ++ [Crew.Cue.env busServed] ++
    List.replicate 4 (Crew.Cue.program true) ++ List.replicate 2 (Crew.Cue.program false)

/-- The first request has returned and the second has raised. -/
def firstServed (c : (Bool → Prog Call (Except Exc Task × Unit)) × Office Bool) : Bool :=
  match c.1 true, c.1 false with
  | .ret (.ok _, _), .ret (.error _, _) => (c.2.accounts false).commits == 0
  | _, _ => false

/-- Of two requests that have both validated the paused task, the second leaves no trace. -/
theorem second_follow_up_raises :
    ∃ ms c, (followUps ⟨1, 1, 60⟩ "t" (fun i => (rivals i).message) anyCircumstances).Run
        (fun i => sendMessage .memory (rivals i) (), { world := World.holding waitingTask 3 }) ms c ∧
      firstServed c = true ∧
      (c.2.accounts true).commits = 1 ∧ (c.2.accounts true).handed.length = 1 ∧
      ∀ row, c.2.world.row = some row → "m2" ∉ messageIds row.task := by
  have hplay : ((followUps ⟨1, 1, 60⟩ "t" (fun i => (rivals i).message) anyCircumstances).play
      (fun _ _ _ _ => true) rivalCues (fun i => sendMessage .memory (rivals i) (),
        { world := World.holding waitingTask 3 })).any firstServed = true := by
    decide +kernel
  have henv : ∀ f, Crew.Cue.env f ∈ rivalCues → ∀ o, Outsiders (fun i => (rivals i).message) o (f o) := by
    intro f hf o
    obtain rfl : f = busServed := by simpa [rivalCues] using hf
    exact outsiders_busServed _ o
  have hinj : Function.Injective fun i => (rivals i).message.messageId := by
    rw [Function.Injective]
    decide
  have hids : ∀ row, (World.holding waitingTask 3).row = some row →
      (messageIds row.task).Nodup := by
    intro row hrow
    obtain rfl := Option.some_inj.mp hrow
    decide
  obtain ⟨ms, c, hrun, hserved⟩ :=
    Crew.exists_run_of_check (fun _ _ _ _ _ => trivial) henv firstServed hplay
  obtain ⟨-, -, hreq, -⟩ := one_follow_up_per_pause ⟨1, 1, 60⟩ "t" .memory rivals
    (fun _ => rfl) (by decide) hinj (World.holding waitingTask 3) hids hrun
  have hunknown : ∀ first, ¬ KnownAt (World.holding waitingTask 3).row
      (rivals first).message.messageId := by
    rintro first ⟨row, hrow, hmem⟩
    obtain rfl := Option.some_inj.mp hrow
    revert hmem
    cases first <;> decide
  have hcheck := hserved
  rw [firstServed] at hcheck
  split at hcheck
  · rename_i t _ x _ htrue hfalse
    have hnone : (c.2.accounts false).commits = 0 := by simpa using hcheck
    rcases (hreq true).2.2.1 _ htrue t rfl with ⟨hcommits, hhanded⟩ | hknown
    · refine ⟨ms, c, hrun, hserved, hcommits, hhanded, fun row hrow hmem => ?_⟩
      exact hunknown false (((hreq false).2.2.2 hnone).1 row hrow hmem)
    · exact absurd hknown (hunknown true)
  · cases hcheck

/-- The message of the task, sent a second time. -/
def repeatedMessage : SendParams := { message := followUp "m0", mode := .returnImmediately }

/-- The request has returned with an empty account. -/
def returnedIdle (c : (Unit → Prog Call (Except Exc Task × Unit)) × Office Unit) : Bool :=
  match c.1 () with
  | .ret (.ok _, _) => c.2.accounts () == {}
  | _ => false

/-- A follow-up whose message is in the history is not accepted, and does not raise. -/
theorem repeated_message_returns :
    ∃ ms c t, (followUps ⟨1, 1, 60⟩ "t" (fun _ : Unit => repeatedMessage.message)
        anyCircumstances).Run
        (fun _ => sendMessage .memory repeatedMessage (), { world := World.holding waitingTask 3 })
        ms c ∧
      c.1 () = .ret (.ok t, ()) ∧ c.2.accounts () = {} := by
  have hplay : ((followUps ⟨1, 1, 60⟩ "t" (fun _ : Unit => repeatedMessage.message)
      anyCircumstances).play (fun _ _ _ _ => true) (List.replicate 3 (.program ()))
      (fun _ => sendMessage .memory repeatedMessage (),
        { world := World.holding waitingTask 3 })).any returnedIdle = true := by
    decide +kernel
  obtain ⟨ms, c, hrun, hidle⟩ :=
    Crew.exists_run_of_check (fun _ _ _ _ _ => trivial) (by simp) returnedIdle hplay
  rw [returnedIdle] at hidle
  split at hidle
  · rename_i t u hret
    exact ⟨ms, c, t, hrun, hret, by simpa using hidle⟩
  · cases hidle

end A2AKit
