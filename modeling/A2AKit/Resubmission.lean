/-
A follow-up message that is submitted again.

Any number of requests carry the same message, one after the other or at the same time.  The
check for a repetition comes after the state of the task is validated, and once more where the
guarded write has lost the race.  So a repetition is answered as such only if the task still
accepts messages when it is validated, and has the message when it is loaded after a lost race
(`undisturbed`).  In all runs in which the requests find this, the message is accepted once and
every request returns the task (`resubmission_idempotent`).  A client that repeats its message while the task is still
submitted is told that the task does not accept messages (`resubmission_refused`).
-/
import A2AKit.PauseRace

namespace A2AKit

open TaskManager

/-- The stored task is there, and has a property. -/
def Office.finds {ι : Type} (o : Office ι) (p : Task → Bool) : Bool :=
  o.world.row.any fun row => p row.task

theorem Office.finds_iff {ι : Type} {o : Office ι} {p : Task → Bool} :
    o.finds p = true ↔ ∃ row, o.world.row = some row ∧ p row.task = true := by
  simp only [finds, Option.any_eq_true]

/-- The loads of a request find what it takes for granted: the validation a task that accepts
its message, and the reload after a lost race a task with the message.  Nobody deletes the task,
and the client does not go away. -/
def isUndisturbed {ι : Type} (message : Message) {β : Type} (e : Call β) (o : Office ι) : Bool :=
  match e with
  | .inl (.loadTask .validation) => o.finds (accepts message)
  | .inl (.loadTask .conflict) => o.finds (isDuplicate message)
  | .inl (.loadTask _) => o.world.row.isSome
  | .inl (.update _ _) => o.world.row.isSome
  | .inl (.updateRead _ _ _) => o.world.row.isSome
  | .inl (.updateWrite _ _ _ _ _ _) => o.world.row.isSome
  | .inl (.await _) => !o.world.interrupted
  | _ => true

def undisturbed {ι : Type} (message : ι → Message) (i : ι) : Circumstances ι :=
  fun e o => isUndisturbed (message i) e o = true

/-- A request raises where it is disturbed. -/
theorem excused_of_disturbed {ι : Type} {m : Message} {i : ι} {cond : Circumstances ι}
    {E : Account → Prop}
    (h : ∀ {β : Type} (e : Call β) o, cond e o → isUndisturbed m e o = false → E (o.accounts i)) :
    Excused m i cond E where
  missing o site hcond hnone := by
    refine h _ o hcond ?_
    cases site <;> simp [isUndisturbed, Office.finds, hnone]
  rejected o row hcond hrow hacc := h _ o hcond (by simp [isUndisturbed, Office.finds, hrow, hacc])
  refused op b o e hop hcond hnone := by
    refine h _ o hcond ?_
    cases op with
    | update site args => simp [isUndisturbed, hnone]
    | updateRead b site args => simp [isUndisturbed, hnone]
    | updateWrite b site args attempt row values => simp [isUndisturbed, hnone]
    | _ => exact nomatch hop
  lost o row hcond hrow hnew := h _ o hcond (by simp [isUndisturbed, Office.finds, hrow, hnew])
  cancelled pt o hcond hi := h _ o hcond (by simp [isUndisturbed, hi])

theorem excused_undisturbed {ι : Type} (message : ι → Message) (i : ι) :
    Excused (message i) i (undisturbed message i) fun _ => False :=
  excused_of_disturbed fun _ _ hcond hdisturbed => nomatch hdisturbed.symm.trans hcond

/-- **A message is accepted once, and its repetitions return the task.**  In every interleaving
of any number of requests that carry the same message id, with cancellers, workers and other
writers, in which the requests are undisturbed:

* a request that has ended returned the task as it was stored at some time, with the message;
* at most one request is accepted, and it hands over one operation before it returns;
* once a request has returned, the message was in the history from the start and no request was
  accepted, or one request was;
* a request that was not accepted has changed nothing. -/
theorem resubmission_idempotent {ι : Type} [DecidableEq ι] (cfg : BusConfig) (taskId : TaskId)
    (k : StorageKind) (params : ι → SendParams) (id : String)
    (hname : ∀ i, (params i).message.taskId ≠ "")
    (hid : ∀ i, (params i).message.messageId = id) (w : World)
    {ms : List (PoolMove ι (Office ι))} {c : (ι → Prog Call (Except Exc Task × Unit)) × Office ι}
    (hrun : (followUps cfg taskId (fun i => (params i).message)
      (undisturbed fun i => (params i).message)).Run
      (fun i => sendMessage k (params i) (), { world := w }) ms c) :
    (∀ i r, c.1 i = .ret r → ∃ t row, r.1 = .ok t ∧ row.task = t ∧ MovesOn w.row (some row) ∧
      MovesOn (some row) c.2.world.row ∧ id ∈ messageIds t) ∧
    (∀ i j, (c.2.accounts i).commits ≠ 0 → (c.2.accounts j).commits ≠ 0 → i = j) ∧
    (∀ i, (c.2.accounts i).commits ≤ 1 ∧
      (c.2.accounts i).handed.length ≤ (c.2.accounts i).commits ∧
      ∀ r, c.1 i = .ret r → (c.2.accounts i).handed.length = (c.2.accounts i).commits) ∧
    (∀ i r, c.1 i = .ret r →
      KnownAt w.row id ∧ (∀ j, c.2.accounts j = {}) ∨
        ¬ KnownAt w.row id ∧ ∃ j, (c.2.accounts j).commits = 1) ∧
    ∀ i, (c.2.accounts i).commits = 0 → ∀ m ∈ ms, m.who = some i →
      m.after.world.row = m.before.world.row ∧ m.after.accounts = m.before.accounts := by
  obtain ⟨hend, hmoves, hret⟩ := followUps_sound k params hname
    (fun i => excused_undisturbed (fun i => (params i).message) i) w hrun
  -- the circumstances leave no reason to raise
  have hok : ∀ i r, c.1 i = .ret r → ∃ t, r.1 = .ok t ∧
      Outcome w.row (fun i => (params i).message) i c.2 ∧
      Returns w.row (params i).message t c.2 := by
    rintro i ⟨r, s⟩ hr
    have hi := hret i _ hr
    cases r with
    | ok t => exact ⟨t, rfl, hi⟩
    | error x =>
      rcases hi with ⟨-, hfalse⟩ | ⟨_, -, hfalse⟩
      · exact hfalse.elim
      · exact hfalse.elim
  have hold : KnownAt w.row id → ∀ j, c.2.accounts j = {} := by
    intro hknown j
    exact hend.old j ((hid j).symm ▸ hknown)
  refine ⟨fun i r hr => ?_, fun i j hi hj => ?_, fun i => ⟨(hend.account i).2, (hend.account i).1,
    fun r hr => ?_⟩, fun i r hr => ?_, fun i hnone m hm hwho => ?_⟩
  · obtain ⟨t, ht, -, ⟨row, hrow, hstart, hmove⟩, hholds⟩ := hok i r hr
    exact ⟨t, row, ht, hrow, hstart, hmove, hid i ▸ hholds⟩
  · exact hend.unique i j hi hj ((hid i).trans (hid j).symm)
  · obtain ⟨t, -, ⟨x, hhanded⟩ | hrepeated, -⟩ := hok i r hr
    · rw [hhanded.account]
      rfl
    · rw [hrepeated.account]
      rfl
  · by_cases hknown : KnownAt w.row id
    · exact Or.inl ⟨hknown, hold hknown⟩
    · refine Or.inr ⟨hknown, ?_⟩
      obtain ⟨t, -, hout, -⟩ := hok i r hr
      have hsource : Source w.row (fun i => (params i).message) i c.2 := by
        rcases hout with ⟨x, hhanded⟩ | hrepeated
        · exact hhanded.source
        · exact hrepeated.source
      rcases hsource with hstart | ⟨j, hj, -⟩
      · exact absurd (hid i ▸ hstart) hknown
      · have hle := (hend.account j).2
        exact ⟨j, by omega⟩
  · exact unchanged_of_commits hrun.linked hmoves hnone hm hwho

/-! ### Two requests with one message -/

/-- Two requests with the same message. -/
def twins (_ : Bool) : SendParams :=
  { message := followUp "m1", mode := .returnImmediately }

/-- Both requests have returned, and only the first one has committed. -/
def bothServed (c : (Bool → Prog Call (Except Exc Task × Unit)) × Office Bool) : Bool :=
  match c.1 true, c.1 false with
  | .ret (.ok _, _), .ret (.ok _, _) => (c.2.accounts false).commits == 0
  | _, _ => false

/-- Both requests validate the task, and the first one is served before the second writes. -/
def twinCues : List (Crew.Cue Bool (Office Bool)) :=
  List.replicate 2 (Crew.Cue.program true) ++ List.replicate 2 (Crew.Cue.program false) ++
    List.replicate 9 (Crew.Cue.program true) ++ [Crew.Cue.env busServed] ++
    List.replicate 4 (Crew.Cue.program true) ++ List.replicate 3 (Crew.Cue.program false)

/-- Both requests validate the paused task.  The one that loses the race finds the message of
its twin, and returns the task. -/
theorem concurrent_twins_return :
    ∃ ms c, (followUps ⟨1, 1, 60⟩ "t" (fun i => (twins i).message)
        (undisturbed fun i => (twins i).message)).Run
        (fun i => sendMessage .memory (twins i) (), { world := World.holding waitingTask 3 }) ms c ∧
      bothServed c = true ∧
      (c.2.accounts true).commits = 1 ∧ (c.2.accounts true).handed.length = 1 ∧
      (c.2.accounts false).handed.length = 0 := by
  have hplay : ((followUps ⟨1, 1, 60⟩ "t" (fun i => (twins i).message)
      (undisturbed fun i => (twins i).message)).play (fun i _ e o => isUndisturbed (twins i).message e o)
      twinCues (fun i => sendMessage .memory (twins i) (),
        { world := World.holding waitingTask 3 })).any bothServed = true := by
    decide +kernel
  have henv : ∀ f, Crew.Cue.env f ∈ twinCues → ∀ o, Outsiders (fun i => (twins i).message) o (f o) := by
    intro f hf o
    obtain rfl : f = busServed := by simpa [twinCues] using hf
    exact outsiders_busServed _ o
  obtain ⟨ms, c, hrun, hserved⟩ :=
    Crew.exists_run_of_check (fun _ _ _ _ hok => hok) henv bothServed hplay
  obtain ⟨-, -, haccounts, hone, -⟩ := resubmission_idempotent ⟨1, 1, 60⟩ "t" .memory twins "m1"
    (fun _ => by decide +revert) (fun _ => rfl) (World.holding waitingTask 3) hrun
  have hunknown : ¬ KnownAt (World.holding waitingTask 3).row "m1" := by
    rintro ⟨row, hrow, hmem⟩
    obtain rfl := Option.some_inj.mp hrow
    revert hmem
    decide
  have hcheck := hserved
  rw [bothServed] at hcheck
  split at hcheck
  · rename_i htrue hfalse
    have hnone : (c.2.accounts false).commits = 0 := by simpa using hcheck
    have hhanded := (haccounts false).2.2 _ hfalse
    rcases hone true _ htrue with ⟨hknown, -⟩ | ⟨-, j, hj⟩
    · exact absurd hknown hunknown
    · obtain rfl : j = true := by
        cases j with
        | true => rfl
        | false => omega
      exact ⟨ms, c, hrun, hserved, hj, ((haccounts true).2.2 _ htrue).trans hj, by omega⟩
  · cases hcheck

/-- The first request has returned, and the second was told that the task does not accept
messages. -/
def twinRefused (c : (Bool → Prog Call (Except Exc Task × Unit)) × Office Bool) : Bool :=
  match c.1 true, c.1 false with
  | .ret (.ok _, _), .ret (.error (.runtime text), _) =>
    text == "Task is not accepting messages" && c.2.finds (isDuplicate (followUp "m1"))
  | _, _ => false

/-- The client repeats a message that was accepted, while the task is still submitted. -/
theorem resubmission_refused :
    ∃ ms c t, (followUps ⟨1, 1, 60⟩ "t" (fun i => (twins i).message) anyCircumstances).Run
        (fun i => sendMessage .memory (twins i) (), { world := World.holding waitingTask 3 }) ms c ∧
      c.1 true = .ret (.ok t, ()) ∧
      c.1 false = .ret (.error (.runtime "Task is not accepting messages"), ()) ∧
      ∃ row, c.2.world.row = some row ∧ "m1" ∈ messageIds row.task := by
  have hplay : ((followUps ⟨1, 1, 60⟩ "t" (fun i => (twins i).message) anyCircumstances).play
      (fun _ _ _ _ => true)
      (List.replicate 11 (Crew.Cue.program true) ++ [Crew.Cue.env busServed] ++
        List.replicate 4 (Crew.Cue.program true) ++ List.replicate 2 (Crew.Cue.program false))
      (fun i => sendMessage .memory (twins i) (),
        { world := World.holding waitingTask 3 })).any twinRefused = true := by
    decide +kernel
  obtain ⟨ms, c, hrun, hrefused⟩ :=
    Crew.exists_run_of_check (fun _ _ _ _ _ => trivial) (fun f hf o => by
      obtain rfl : f = busServed := by simpa using hf
      exact outsiders_busServed _ o) twinRefused hplay
  rw [twinRefused] at hrefused
  split at hrefused
  · rename_i t _ text _ htrue hfalse
    obtain ⟨htext, hfinds⟩ := Bool.and_eq_true_iff.mp hrefused
    obtain ⟨row, hrow, hdup⟩ := Office.finds_iff.mp hfinds
    obtain rfl := eq_of_beq htext
    exact ⟨ms, c, t, hrun, htrue, hfalse, row, hrow, isDuplicate_iff.mp hdup⟩
  · cases hrefused

end A2AKit
