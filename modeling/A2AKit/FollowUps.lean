/-
Follow-up messages to one task.

Any number of requests, each with a message for the same task, interleave with each other and
with cancellers, workers and other writers (`followUps`).  A message is accepted by the commit
that appends it.  The write names the version that was read before the task was validated, so
the commit is over the validated task, which does not hold the message yet: the requests that
carry the same message id are accepted once among them, and the history says whether that has
happened (`FollowUpInv`).

* `followUp_request` — `send_message` and `stream_message` of a follow-up;
* `followUps_sound` — what holds in every interleaving.
-/
import A2AKit.Pool
import A2AKit.SubmitRule

namespace A2AKit

open Act (Triple)
open TaskManager

/-- The ids of the messages of a task. -/
def messageIds (task : Task) : List String := task.history.map Message.messageId

theorem isDuplicate_iff {message : Message} {task : Task} :
    isDuplicate message task = true ↔ message.messageId ∈ messageIds task := by
  simp only [isDuplicate, messageIds, List.any_eq_true, List.mem_map, beq_iff_eq]

/-- What a request may be confronted with at an operation. -/
abbrev Circumstances (ι : Type) : Type 1 := {β : Type} → Call β → Office ι → Prop

section

variable {ι : Type} [DecidableEq ι]

/-- What happens to the task beside the requests: the row moves on, the messages that are
appended have fresh ids, and the requests' accounts are their own. -/
structure Outsiders (message : ι → Message) (o o' : Office ι) : Prop where
  row : MovesOn o.world.row o'.world.row
  nodup : ∀ row row', o.world.row = some row → o'.world.row = some row' →
    (messageIds row.task).Nodup → (messageIds row'.task).Nodup
  fresh : ∀ row row' i, o.world.row = some row → o'.world.row = some row' →
    (message i).messageId ∈ messageIds row'.task → (message i).messageId ∈ messageIds row.task
  accounts : o'.accounts = o.accounts

/-- The requests `i`, and everything else. -/
def followUps (cfg : BusConfig) (taskId : TaskId) (message : ι → Message)
    (cond : ι → Circumstances ι) : Crew ι Call (Office ι) where
  perform i := Office.perform cfg taskId i
  env := Outsiders message
  ok i := cond i

/-- The message is accepted: appended to the task, which is submitted again if it was paused. -/
structure Accepted (message : Message) (row row' : Row) : Prop where
  accepts : accepts message row.task = true
  new : message.messageId ∉ messageIds row.task
  history : row'.task.history = row.task.history ++ [boundMessage message row.task]
  state : row'.task.status.state = (computeStateTransition row.task).getD row.task.status.state
  later : Later row row'

/-- A write of the request is the append of its message, over the task it has validated. -/
def Appends (message : Message) (args : UpdateArgs Ref) (r : Option Row) : Prop :=
  ∃ n, args.expectedVersion = some n ∧ ∀ row, r = some row → row.version = n →
    accepts message row.task = true ∧ isDuplicate message row.task = false ∧
      args = appendArgs message row.task (some n)

/-- What request `i` has to meet. -/
def FollowUpReq (taskId : TaskId) (message : ι → Message) (i : ι) {β : Type} (e : Call β)
    (o : Office ι) : Prop :=
  match e with
  | .inl (.update _ args) => o.accounts i = {} ∧ Appends (message i) args o.world.row
  | .inl (.updateWrite b _ args _ row values) =>
    Honest taskId b args row values o.world ∧ o.accounts i = {} ∧
      Appends (message i) args o.world.row
  | .inr (.createTask _ _) => False
  | .inr (.enqueue _) => o.accounts i = { commits := 1, handed := [] }
  | _ => True

/-- What a step of request `i` does. -/
inductive FollowUpStep (message : ι → Message) (i : ι) (o o' : Office ι) : Prop
  | idle : o'.world.row = o.world.row → o'.accounts = o.accounts → FollowUpStep message i o o'
  | accept {row row' : Row} : o.world.row = some row → o'.world.row = some row' →
      Accepted (message i) row row' → o.accounts i = {} →
      o'.accounts = Function.update o.accounts i { commits := 1 } → FollowUpStep message i o o'
  | handOver {m : Message} : o'.world.row = o.world.row → o.accounts i = { commits := 1 } →
      o'.accounts = Function.update o.accounts i { commits := 1, handed := [m] } →
      FollowUpStep message i o o'

variable {cfg : BusConfig} {taskId : TaskId} {message : ι → Message} {cond : ι → Circumstances ι}
  {i : ι} {o o' : Office ι}

/-- A later task has all the messages of an earlier one. -/
theorem Later.messageIds {row row' : Row} (h : Later row row') :
    messageIds row.task <+: messageIds row'.task :=
  h.history.map Message.messageId

theorem MovesOn.messageIds {r r' : Option Row} (h : MovesOn r r') {id : String}
    (hid : ∀ row, r = some row → id ∈ A2AKit.messageIds row.task) :
    ∀ row', r' = some row' → id ∈ A2AKit.messageIds row'.task := by
  intro row' hrow'
  obtain ⟨row, hrow, rfl | hlater⟩ := h row' hrow'
  · exact hid row' hrow
  · exact hlater.messageIds.subset (hid row hrow)

/-- The commit of an append. -/
theorem Appends.accepted {m : Message} {args : UpdateArgs Ref} {r : Option Row} {row row' : Row}
    (h : Appends m args r) (hrow : r = some row) (hcommit : TaskCommit taskId args row row') :
    Accepted m row row' := by
  obtain ⟨n, hn, happ⟩ := h
  obtain ⟨hacc, hnew, hargs⟩ := happ row hrow (hcommit.pinned n hn).symm
  obtain ⟨now, hstatus⟩ := hcommit.status
  have hlater := hcommit.later
  subst hargs
  refine ⟨hacc, ?_, hcommit.history, ?_, hlater⟩
  · intro hmem
    rw [isDuplicate_iff.mpr hmem] at hnew
    exact nomatch hnew
  · rw [hstatus, nextStatus_state]
    rfl

/-- The ids after an accepted message. -/
theorem Accepted.messageIds {m : Message} {row row' : Row} (h : Accepted m row row') :
    messageIds row'.task = messageIds row.task ++ [m.messageId] := by
  rw [A2AKit.messageIds, h.history, List.map_append]
  rfl

theorem followUpStep {β : Type} {e : Call β} {b : β} (hreq : FollowUpReq taskId message i e o)
    (h : Office.perform cfg taskId i e o = some (o', b)) : FollowUpStep message i o o' := by
  rcases e with e | e
  · obtain ⟨hworld, hput⟩ := Office.perform_op h
    have hwrites : WritesOf taskId (fun args => o.accounts i = {} ∧
        Appends (message i) args o.world.row) e o.world := by
      cases e <;> exact hreq
    rcases hwrites.perform hworld with
      ⟨hrow, -⟩ | ⟨args, row, row', ⟨haccount, happ⟩, hrow, hcommit, hw'⟩
    · exact .idle hrow (by rw [hput]; exact Office.put_same hrow)
    · -- a commit enters the account
      have hrow' : o'.world.row = some row' := by rw [hw']
      refine .accept hrow hrow' (happ.accepted hrow hcommit) haccount ?_
      rw [hput, Office.put_commit hrow hrow' hcommit.later.version, haccount]
  · cases e with
    | createTask contextId m => exact hreq.elim
    | enqueue m =>
      obtain ⟨rfl, -⟩ := Prod.mk.inj (Option.some_inj.mp h)
      refine .handOver (m := m) rfl hreq ?_
      show Function.update o.accounts i _ = _
      rw [hreq]
      rfl
    | runTask =>
      obtain ⟨rfl, -⟩ := Prod.mk.inj (Option.some_inj.mp h)
      exact .idle rfl rfl

theorem FollowUpStep.movesOn (hstep : FollowUpStep message i o o') :
    MovesOn o.world.row o'.world.row := by
  cases hstep with
  | idle hrow _ => exact hrow ▸ .refl _
  | accept hrow hrow' hacc _ _ =>
    intro r hr
    obtain rfl := Option.some_inj.mp (hrow'.symm.trans hr)
    exact ⟨_, hrow, Or.inr hacc.later⟩
  | handOver hrow _ _ => exact hrow ▸ .refl _

/-! ### The requests together -/

/-- The message id `id` was in the history from the start. -/
def KnownAt (start : Option Row) (id : String) : Prop :=
  ∃ row, start = some row ∧ id ∈ messageIds row.task

/-- A request with this message id was accepted. -/
def AcceptedId (message : ι → Message) (o : Office ι) (id : String) : Prop :=
  ∃ i, (o.accounts i).commits ≠ 0 ∧ (message i).messageId = id

/-- Where the message of a request comes from. -/
abbrev Source (start : Option Row) (message : ι → Message) (i : ι) (o : Office ι) : Prop :=
  KnownAt start (message i).messageId ∨ AcceptedId message o (message i).messageId

/-- A request accepts and hands over at most once, the ids of the requests that are in the
history are those that were there from the start and the accepted ones, and among the requests
with one id at most one is accepted. -/
structure FollowUpInv (start : Option Row) (message : ι → Message) (o : Office ι) : Prop where
  moved : MovesOn start o.world.row
  nodup : (∀ row, start = some row → (messageIds row.task).Nodup) →
    ∀ row, o.world.row = some row → (messageIds row.task).Nodup
  account : ∀ i, (o.accounts i).handed.length ≤ (o.accounts i).commits ∧ (o.accounts i).commits ≤ 1
  origin : ∀ i row, o.world.row = some row →
    ((message i).messageId ∈ messageIds row.task ↔ Source start message i o)
  unique : ∀ i j, (o.accounts i).commits ≠ 0 → (o.accounts j).commits ≠ 0 →
    (message i).messageId = (message j).messageId → i = j
  old : ∀ i, KnownAt start (message i).messageId → o.accounts i = {}

/-- What request `i` relies on. -/
structure Others (start : Option Row) (message : ι → Message) (i : ι) (o o' : Office ι) :
    Prop where
  row : MovesOn o.world.row o'.world.row
  account : o'.accounts i = o.accounts i
  accepted : ∀ id, AcceptedId message o id → AcceptedId message o' id
  source : ∀ row, o'.world.row = some row → (message i).messageId ∈ messageIds row.task →
    Source start message i o'

variable {start : Option Row}

omit [DecidableEq ι] in
/-- What is accepted depends on the commits only. -/
theorem source_congr (h : ∀ i, (o'.accounts i).commits = (o.accounts i).commits) :
    Source start message i o' ↔ Source start message i o := by
  simp only [Source, AcceptedId, h]

omit [DecidableEq ι] in
/-- Where the row is the same and so are the commits, only the hand-over is left to check. -/
theorem FollowUpInv.same_commits (ho : FollowUpInv start message o)
    (hrow : o'.world.row = o.world.row)
    (hcommits : ∀ i, (o'.accounts i).commits = (o.accounts i).commits)
    (hhanded : ∀ i, (o'.accounts i).handed.length ≤ (o.accounts i).commits)
    (hold : ∀ i, o.accounts i = {} → o'.accounts i = {}) : FollowUpInv start message o' where
  moved := by
    rw [hrow]
    exact ho.moved
  nodup := by
    rw [hrow]
    exact ho.nodup
  account i := by
    rw [hcommits]
    exact ⟨hhanded i, (ho.account i).2⟩
  origin i row h := by
    rw [source_congr hcommits]
    exact ho.origin i row (hrow ▸ h)
  unique i j := by
    rw [hcommits, hcommits]
    exact ho.unique i j
  old i hi := hold i (ho.old i hi)

theorem FollowUpInv.accept {row row' : Row} (ho : FollowUpInv start message o)
    (hrow : o.world.row = some row) (hrow' : o'.world.row = some row')
    (hacc : Accepted (message i) row row') (haccount : o.accounts i = {})
    (haccounts : o'.accounts = Function.update o.accounts i { commits := 1 }) :
    FollowUpInv start message o' := by
  have hother : ∀ j, j ≠ i → o'.accounts j = o.accounts j := by
    intro j hj
    rw [haccounts, Function.update_of_ne hj]
  have hself : o'.accounts i = { commits := 1 } := by
    rw [haccounts, Function.update_self]
  -- the message was new, so nobody with its id was accepted before
  have hnone : ¬ Source start message i o :=
    fun h => hacc.new ((ho.origin i row hrow).mpr h)
  have haccepted : ∀ id, AcceptedId message o' id ↔
      AcceptedId message o id ∨ id = (message i).messageId := by
    intro id
    constructor
    · rintro ⟨j, hj, rfl⟩
      by_cases hji : j = i
      · exact Or.inr (by rw [hji])
      · exact Or.inl ⟨j, hother j hji ▸ hj, rfl⟩
    · rintro (⟨j, hj, rfl⟩ | rfl)
      · have hji : j ≠ i := by
          rintro rfl
          rw [haccount] at hj
          exact hj rfl
        exact ⟨j, by rw [hother j hji]; exact hj, rfl⟩
      · exact ⟨i, by rw [hself]; exact Nat.one_ne_zero, rfl⟩
  refine ⟨?_, fun hstart r hr => ?_, fun j => ?_, fun j r hr => ?_, fun a b ha hb hab => ?_,
    fun j hj => ?_⟩
  · exact ho.moved.trans (FollowUpStep.accept hrow hrow' hacc haccount haccounts).movesOn
  · obtain rfl := Option.some_inj.mp (hrow'.symm.trans hr)
    rw [hacc.messageIds]
    refine List.nodup_append.mpr ⟨ho.nodup hstart row hrow, List.nodup_singleton _,
      fun a ha b hb => ?_⟩
    obtain rfl := List.mem_singleton.mp hb
    exact fun heq => hacc.new (heq ▸ ha)
  · by_cases hji : j = i
    · subst hji
      rw [hself]
      exact ⟨Nat.zero_le _, le_refl _⟩
    · rw [hother j hji]
      exact ho.account j
  · obtain rfl := Option.some_inj.mp (hrow'.symm.trans hr)
    rw [hacc.messageIds, List.mem_append, List.mem_singleton, ho.origin j row hrow, Source, Source, haccepted,
      or_assoc]
  · by_cases hai : a = i
    · by_cases hbi : b = i
      · rw [hai, hbi]
      · exact absurd (Or.inr ⟨b, hother b hbi ▸ hb, by rw [← hab, hai]⟩) hnone
    · by_cases hbi : b = i
      · exact absurd (Or.inr ⟨a, hother a hai ▸ ha, by rw [hab, hbi]⟩) hnone
      · exact ho.unique a b (hother a hai ▸ ha) (hother b hbi ▸ hb) hab
  · have hji : j ≠ i := by
      rintro rfl
      exact hnone (Or.inl hj)
    rw [hother j hji]
    exact ho.old j hj

theorem FollowUpInv.step (ho : FollowUpInv start message o) (hstep : FollowUpStep message i o o') :
    FollowUpInv start message o' := by
  cases hstep with
  | idle hrow haccounts =>
    refine ho.same_commits hrow (fun j => by rw [haccounts]) (fun j => ?_) fun j hj => ?_
    · rw [haccounts]
      exact (ho.account j).1
    · rw [haccounts]
      exact hj
  | accept hrow hrow' hacc haccount haccounts =>
    exact ho.accept hrow hrow' hacc haccount haccounts
  | @handOver m hrow haccount haccounts =>
    have hother : ∀ j, j ≠ i → o'.accounts j = o.accounts j := by
      intro j hj
      rw [haccounts, Function.update_of_ne hj]
    refine ho.same_commits hrow (fun j => ?_) (fun j => ?_) fun j hj => ?_
    · by_cases hji : j = i
      · subst hji
        rw [haccounts, haccount, Function.update_self]
      · rw [hother j hji]
    · by_cases hji : j = i
      · subst hji
        rw [haccounts, haccount, Function.update_self]
        exact le_refl 1
      · rw [hother j hji]
        exact (ho.account j).1
    · have hji : j ≠ i := by
        rintro rfl
        exact nomatch haccount.symm.trans hj
      rw [hother j hji]
      exact hj

omit [DecidableEq ι] in
theorem FollowUpInv.outsiders (ho : FollowUpInv start message o)
    (hstep : Outsiders message o o') : FollowUpInv start message o' where
  moved := ho.moved.trans hstep.row
  nodup hstart row' hrow' := by
    obtain ⟨row, hrow, -⟩ := hstep.row row' hrow'
    exact hstep.nodup row row' hrow hrow' (ho.nodup hstart row hrow)
  account := by
    rw [hstep.accounts]
    exact ho.account
  origin i row' hrow' := by
    obtain ⟨row, hrow, hmove⟩ := hstep.row row' hrow'
    have hcommits : ∀ j, (o'.accounts j).commits = (o.accounts j).commits := by
      intro j
      rw [hstep.accounts]
    rw [source_congr hcommits, ← ho.origin i row hrow]
    refine ⟨hstep.fresh row row' i hrow hrow', fun hmem => ?_⟩
    rcases hmove with rfl | hlater
    · exact hmem
    · exact hlater.messageIds.subset hmem
  unique := by
    rw [hstep.accounts]
    exact ho.unique
  old := by
    rw [hstep.accounts]
    exact ho.old

/-- What a request has committed stays committed. -/
theorem FollowUpStep.commits {j : ι} (hstep : FollowUpStep message i o o')
    (h : (o.accounts j).commits ≠ 0) : (o'.accounts j).commits ≠ 0 := by
  cases hstep with
  | idle _ haccounts =>
    rw [haccounts]
    exact h
  | accept _ _ _ _ haccounts =>
    rw [haccounts, Function.update_apply]
    split
    · exact Nat.one_ne_zero
    · exact h
  | handOver _ _ haccounts =>
    rw [haccounts, Function.update_apply]
    split
    · exact Nat.one_ne_zero
    · exact h

/-- A step of one request is within what the others rely on. -/
theorem FollowUpStep.others {j : ι} (hne : j ≠ i) (ho : FollowUpInv start message o)
    (hstep : FollowUpStep message i o o') : Others start message j o o' := by
  refine ⟨hstep.movesOn, ?_, ?_, fun row hrow => ((ho.step hstep).origin j row hrow).mp⟩
  · cases hstep with
    | idle _ haccounts => rw [haccounts]
    | accept _ _ _ _ haccounts => rw [haccounts, Function.update_of_ne hne]
    | handOver _ _ haccounts => rw [haccounts, Function.update_of_ne hne]
  · rintro _ ⟨x, hx, rfl⟩
    exact ⟨x, hstep.commits hx, rfl⟩

/-- Every move of a request is one of its steps, and the others keep off the accounts. -/
def FollowUpMove (message : ι → Message) (m : PoolMove ι (Office ι)) : Prop :=
  match m.who with
  | none => m.after.accounts = m.before.accounts
  | some i => FollowUpStep message i m.before m.after

theorem followUps_fit : (followUps cfg taskId message cond).Fits (Others start message)
    (FollowUpReq taskId message) (FollowUpInv start message) (FollowUpMove message) where
  env_rely i o o' ho hstep := by
    refine ⟨hstep.row, by rw [hstep.accounts], ?_,
      fun row hrow => ((ho.outsiders hstep).origin i row hrow).mp⟩
    rintro _ ⟨x, hx, rfl⟩
    exact ⟨x, by rw [hstep.accounts]; exact hx, rfl⟩
  env_keeps o o' ho hstep := ho.outsiders hstep
  env_guar o o' _ hstep := hstep.accounts
  op_rely i j _ e o o' b hne ho _ hreq hperf := (followUpStep hreq hperf).others hne ho
  op_keeps j _ e o o' b ho _ hreq hperf := ho.step (followUpStep hreq hperf)
  op_guar j _ e o o' b _ _ hreq hperf := followUpStep hreq hperf

/-! ### One request -/

/-- Where the circumstances of request `i` let it raise, `E` holds of its account. -/
structure Excused (m : Message) (i : ι) (cond : Circumstances ι) (E : Account → Prop) : Prop where
  missing : ∀ o site, cond (.inl (.loadTask site)) o → o.world.row = none → E (o.accounts i)
  rejected : ∀ o row, cond (.inl (.loadTask .validation)) o → o.world.row = some row →
    accepts m row.task = false → E (o.accounts i)
  refused : ∀ {β : Type} (op : Op β) b o e, op.failure b = some e → cond (.inl op) o →
    o.world.row = none → E (o.accounts i)
  lost : ∀ o row, cond (.inl (.loadTask .conflict)) o → o.world.row = some row →
    isDuplicate m row.task = false → E (o.accounts i)
  cancelled : ∀ pt o, cond (.inl (.await pt)) o → o.world.interrupted = true → E (o.accounts i)

/-- The task `t` was stored since the start, and holds the message. -/
structure Returns (start : Option Row) (m : Message) (t : Task) (o : Office ι) : Prop where
  stored : ∃ row, row.task = t ∧ MovesOn start (some row) ∧ MovesOn (some row) o.world.row
  holds : m.messageId ∈ messageIds t

/-- The message is in the history. -/
def Holds (m : Message) (o : Office ι) : Prop :=
  ∀ row, o.world.row = some row → m.messageId ∈ messageIds row.task

/-- The state of a request: what is in its account since the start. -/
structure Standing (start : Option Row) (message : ι → Message) (i : ι) (account : Account)
    (o : Office ι) : Prop where
  account : o.accounts i = account
  moved : MovesOn start o.world.row
  origin : ∀ row, o.world.row = some row → (message i).messageId ∈ messageIds row.task →
    Source start message i o

/-- The message was appended. -/
structure Submitted (start : Option Row) (message : ι → Message) (i : ι) (account : Account)
    (o : Office ι) : Prop extends Standing start message i account o where
  holds : Holds (message i) o
  source : Source start message i o

/-- The operation is in the hands of the broker. -/
def Handed (start : Option Row) (message : ι → Message) (i : ι) (o : Office ι) : Prop :=
  ∃ x, Submitted start message i { commits := 1, handed := [x] } o

/-- The request has raised: before its message was accepted, or after it. -/
def Halted (start : Option Row) (message : ι → Message) (i : ι) (E : Account → Prop) (o : Office ι) :
    Prop :=
  Standing start message i {} o ∧ E {} ∨
    ∃ xs, Submitted start message i { commits := 1, handed := xs } o ∧
      E { commits := 1, handed := xs }

variable (cfg taskId start message cond) in
/-- The system in which request `i` is verified. -/
abbrev followUpSystem (i : ι) : System Call (Office ι) :=
  (followUps cfg taskId message cond).system (Others start message) (FollowUpReq taskId message) i

variable (cfg taskId start message cond) in
theorem followUp_hosts (i : ι) : Hosts cfg taskId
    ((followUpSystem cfg taskId message cond start i).comap fun _ => Sum.inl) (Office.world (ι := ι)) :=
  Office.hosts fun _ _ hstep => hstep.row

/-- An operation that does not commit leaves the row and the accounts alone. -/
theorem followUp_unchanged {β : Type} {e : Op β} {b : β} (he : e.commits = false)
    (h : ((followUpSystem cfg taskId message cond start i).comap fun _ => Sum.inl).perform e o =
      some (o', b)) : o'.world.row = o.world.row ∧ o'.accounts = o.accounts :=
  Office.unchanged_of_perform h he

section

variable {m : Message} {account : Account} {t : Task}

omit [DecidableEq ι] in
theorem Source.others (hstep : Others start message i o o') (ho : Source start message i o) :
    Source start message i o' :=
  ho.imp_right (hstep.accepted _)

omit [DecidableEq ι] in
theorem Standing.others (hstep : Others start message i o o')
    (ho : Standing start message i account o) : Standing start message i account o' :=
  ⟨hstep.account.trans ho.account, ho.moved.trans hstep.row, hstep.source⟩

omit [DecidableEq ι] in
theorem Submitted.others (hstep : Others start message i o o')
    (ho : Submitted start message i account o) : Submitted start message i account o' :=
  ⟨ho.toStanding.others hstep, hstep.row.messageIds ho.holds, Source.others hstep ho.source⟩

omit [DecidableEq ι] in
theorem Returns.others (hstep : Others start message i o o') (ho : Returns start m t o) :
    Returns start m t o' := by
  obtain ⟨⟨row, hrow, hstart, hmoves⟩, hholds⟩ := ho
  exact ⟨⟨row, hrow, hstart, hmoves.trans hstep.row⟩, hholds⟩

omit [DecidableEq ι] in
/-- What is loaded after the submission. -/
theorem Submitted.returns {row : Row} (ho : Submitted start message i account o)
    (hrow : o.world.row = some row) : Returns start (message i) row.task o :=
  ⟨⟨row, rfl, hrow ▸ ho.moved, hrow ▸ .refl _⟩, ho.holds row hrow⟩

omit [DecidableEq ι] in
/-- A load finds the message in the history. -/
theorem Standing.submitted {row : Row} (ho : Standing start message i account o)
    (hrow : o.world.row = some row) (hdup : isDuplicate (message i) row.task = true) :
    Submitted start message i account o := by
  have hmem := isDuplicate_iff.mp hdup
  refine ⟨ho, fun r hr => ?_, ho.origin row hrow hmem⟩
  obtain rfl := Option.some_inj.mp (hrow.symm.trans hr)
  exact hmem

/-- An operation that does not commit leaves the standing. -/
theorem Standing.perform {β : Type} {e : Op β} {b : β} (he : e.commits = false)
    (h : ((followUpSystem cfg taskId message cond start i).comap fun _ => Sum.inl).perform e o =
      some (o', b)) (ho : Standing start message i account o) :
    Standing start message i account o' := by
  obtain ⟨hrow, haccounts⟩ := followUp_unchanged he h
  refine ⟨by rw [haccounts]; exact ho.account, by rw [hrow]; exact ho.moved, fun row hrow' hmem => ?_⟩
  have hcommits : ∀ j, (o'.accounts j).commits = (o.accounts j).commits := fun j => by rw [haccounts]
  exact (source_congr hcommits).mpr (ho.origin row (hrow ▸ hrow') hmem)

theorem Submitted.perform {β : Type} {e : Op β} {b : β} (he : e.commits = false)
    (h : ((followUpSystem cfg taskId message cond start i).comap fun _ => Sum.inl).perform e o =
      some (o', b)) (ho : Submitted start message i account o) :
    Submitted start message i account o' := by
  obtain ⟨hrow, haccounts⟩ := followUp_unchanged he h
  refine ⟨ho.toStanding.perform he h, fun row hrow' => ho.holds row (hrow ▸ hrow'), ?_⟩
  have hcommits : ∀ j, (o'.accounts j).commits = (o.accounts j).commits := fun j => by rw [haccounts]
  exact (source_congr hcommits).mpr ho.source

end

omit [DecidableEq ι] in
/-- A quiet operation has nothing to meet. -/
theorem followUpReq_quiet {β : Type} {e : Op β} (he : e.quiet = true) :
    FollowUpReq taskId message i (.inl e) o := by
  cases e with
  | update site args => exact nomatch he
  | updateWrite b site args attempt row values => exact nomatch he
  | _ => trivial

variable {E : Account → Prop}

omit [DecidableEq ι] in
theorem Halted.others (hstep : Others start message i o o') (ho : Halted start message i E o) :
    Halted start message i E o' := by
  rcases ho with ⟨ho, hE⟩ | ⟨xs, ho, hE⟩
  · exact Or.inl ⟨ho.others hstep, hE⟩
  · exact Or.inr ⟨xs, ho.others hstep, hE⟩

theorem Halted.perform {β : Type} {e : Op β} {b : β} (he : e.commits = false)
    (h : ((followUpSystem cfg taskId message cond start i).comap fun _ => Sum.inl).perform e o =
      some (o', b)) (ho : Halted start message i E o) : Halted start message i E o' := by
  rcases ho with ⟨ho, hE⟩ | ⟨xs, ho, hE⟩
  · exact Or.inl ⟨ho.perform he h, hE⟩
  · exact Or.inr ⟨xs, ho.perform he h, hE⟩

omit [DecidableEq ι] in
theorem Standing.halted (ho : Standing start message i {} o) (hE : E (o.accounts i)) :
    Halted start message i E o :=
  Or.inl ⟨ho, ho.account ▸ hE⟩

omit [DecidableEq ι] in
theorem Submitted.halted {xs : List Message}
    (ho : Submitted start message i { commits := 1, handed := xs } o) (hE : E (o.accounts i)) :
    Halted start message i E o :=
  Or.inr ⟨xs, ho, ho.account ▸ hE⟩

/-- The submission of request `i`. -/
theorem followUp_submitRule (i : ι) (hE : Excused (message i) i (cond i) E) :
    SubmitRule taskId ((followUpSystem cfg taskId message cond start i).comap fun _ => Sum.inl)
      (Office.world (ι := ι)) (message i) (Standing start message i {})
      (fun _ task o => Standing start message i {} o ∧ accepts (message i) task = true ∧
        (isDuplicate (message i) task = true → Submitted start message i {} o ∧
          Returns start (message i) task o))
      (fun _ => Submitted start message i { commits := 1 })
      (fun t o => Submitted start message i {} o ∧ Returns start (message i) t o)
      (fun t o => Submitted start message i { commits := 1 } o ∧ Returns start (message i) t o)
      fun _ => Halted start message i E where
  stable_before _ _ hstep ho := ho.others hstep
  stable_validated _ _ _ _ hstep ho :=
    ⟨ho.1.others hstep, ho.2.1, fun hdup => ⟨(ho.2.2 hdup).1.others hstep,
      (ho.2.2 hdup).2.others hstep⟩⟩
  stable_after _ _ _ hstep ho := ho.others hstep
  stable_duplicate _ _ _ hstep ho := ⟨ho.1.others hstep, ho.2.others hstep⟩
  stable_final _ _ _ hstep ho := ⟨ho.1.others hstep, ho.2.others hstep⟩
  stable_raise _ _ _ hstep ho := ho.others hstep
  req_quiet _ _ he _ := followUpReq_quiet he
  req_update version task o ho hnew hpins _ := by
    obtain ⟨n, rfl, hn⟩ := hpins
    refine ⟨ho.1.account, n, rfl, fun row hrow hver => ?_⟩
    rw [(hn row hrow).2 hver]
    exact ⟨ho.2.1, hnew, rfl⟩
  req_read _ _ _ _ _ _ _ _ := trivial
  req_write b version task attempt row values o ho hnew hpins hhonest _ := by
    obtain ⟨n, rfl, hn⟩ := hpins
    refine ⟨hhonest, ho.1.account, n, rfl, fun row hrow hver => ?_⟩
    rw [(hn row hrow).2 hver]
    exact ⟨ho.2.1, hnew, rfl⟩
  missing o _ ho hok hrow := ho.halted (hE.missing o _ hok hrow)
  rejected o row _ ho hok hrow hacc := ho.halted (hE.rejected o row hok hrow hacc)
  validated o row version ho _ hrow hacc _ := by
    refine ⟨ho, hacc, fun hdup => ?_⟩
    have hsub := ho.submitted hrow hdup
    exact ⟨hsub, hsub.returns hrow⟩
  duplicate o _ _ ho hdup := ho.2.2 hdup
  merge b _ _ o o' out ho hperf := by
    refine ⟨ho.1.perform rfl hperf, ho.2.1, fun hdup => ?_⟩
    obtain ⟨hsub, hret⟩ := ho.2.2 hdup
    refine ⟨hsub.perform rfl hperf, ?_, hret.holds⟩
    obtain ⟨row, hrow, hstart, hmoves⟩ := hret.stored
    refine ⟨row, hrow, hstart, ?_⟩
    have hsame := (followUp_unchanged rfl hperf).1
    rw [hsame]
    exact hmoves
  commit e version o o' b row row' _ ho _ _ hperf hrow ho' hcommit := by
    obtain ⟨-, hput⟩ := Office.perform_op hperf
    have hrow' : o'.world.row = some row' := by rw [ho']
    have haccount : o'.accounts i = { commits := 1 } := by
      rw [hput, Office.put_commit hrow hrow' hcommit.later.version, Function.update_self,
        ho.1.account]
    have hsource : Source start message i o' :=
      Or.inr ⟨i, by rw [haccount]; exact Nat.one_ne_zero, rfl⟩
    refine ⟨⟨haccount, ?_, fun _ _ _ => hsource⟩, fun r hr => ?_, hsource⟩
    · rw [hrow']
      exact ho.1.moved.trans (hrow ▸ hcommit.movesOn)
    · obtain rfl := Option.some_inj.mp (hrow'.symm.trans hr)
      rw [messageIds, hcommit.history, List.map_append]
      exact List.mem_append_right _ (List.mem_singleton_self _)
  refused op b version task o e hop ho hpins hok href hne := by
    cases href with
    | notFound hrow => exact ho.1.halted (hE.refused op b o _ hop hok hrow)
    | terminal hrow hterm hver =>
      -- the version was right, so the task is the one that was validated
      obtain ⟨n, rfl, hn⟩ := hpins
      rw [(hn _ hrow).2 (hver n rfl)] at hterm
      exact absurd ho.2.1 (by simp [accepts, hterm])
    | conflict _ _ => exact absurd rfl (hne _ _)
  twin _ _ o row ho _ hrow hdup := by
    have hsub := ho.1.submitted hrow hdup
    exact ⟨hsub, hsub.returns hrow⟩
  lost _ _ o _ ho hok hlost := by
    rcases hrow : o.world.row with _ | row
    · exact ho.1.halted (hE.missing o _ hok hrow)
    · exact ho.1.halted (hE.lost o row hok hrow (hlost row hrow).2)
  publish _ _ o o' _ _ ho hperf := ho.perform rfl hperf
  withdraw _ o o' ho hperf := ho.perform rfl hperf
  vanished _ o _ ho hok hrow := ho.halted (hE.missing o _ hok hrow)
  final _ o row ho _ hrow := ⟨ho, ho.returns hrow⟩
  cancelled_before pt o ho hok hi := ho.halted (hE.cancelled pt o hok hi)
  cancelled_validated pt _ _ o ho hok hi := ho.1.halted (hE.cancelled pt o hok hi)
  cancelled_after pt _ o ho hok hi := ho.halted (hE.cancelled pt o hok hi)

/-- A request that has submitted, with `account` in its books. -/
theorem followUp_reading (i : ι) (hE : Excused (message i) i (cond i) E) {I : Office ι → Prop}
    (hI : ∀ o o', Others start message i o o' → I o → I o')
    (hsub : ∀ o, I o → ∃ account, Submitted start message i account o)
    (hhalt : ∀ o, I o → E (o.accounts i) → Halted start message i E o) :
    Reading (followUpSystem cfg taskId message cond start i) Office.world I (Returns start (message i))
      fun _ => Halted start message i E where
  stable o o' hstep ho := hI o o' hstep ho
  stable_loaded _ _ _ hstep ho := ho.others hstep
  stable_raise _ _ hstep ho := ho.others hstep
  req_quiet _ _ he _ := followUpReq_quiet he
  loaded o _ ho hrow := by
    obtain ⟨account, hsub⟩ := hsub o ho
    exact hsub.returns hrow
  cancelled o ho hok hi := hhalt o ho (hE.cancelled _ o hok hi)

/-- A request whose message was in the history. -/
theorem followUp_repeated (i : ι) (hE : Excused (message i) i (cond i) E) :
    Reading (followUpSystem cfg taskId message cond start i) Office.world
      (Submitted start message i {})
      (Returns start (message i)) fun _ => Halted start message i E :=
  followUp_reading i hE (fun _ _ hstep ho => ho.others hstep) (fun _ ho => ⟨_, ho⟩)
    fun _ ho hE => ho.toStanding.halted hE

/-- A request whose message was accepted, with `xs` handed over. -/
theorem followUp_accepted (i : ι) (hE : Excused (message i) i (cond i) E) (xs : List Message) :
    Reading (followUpSystem cfg taskId message cond start i) Office.world
      (Submitted start message i { commits := 1, handed := xs })
      (Returns start (message i)) fun _ => Halted start message i E :=
  followUp_reading i hE (fun _ _ hstep ho => ho.others hstep) (fun _ ho => ⟨_, ho⟩)
    fun _ ho hE => ho.halted hE

theorem followUp_handOver (i : ι) (hE : Excused (message i) i (cond i) E) :
    HandOver (followUpSystem cfg taskId message cond start i) Office.world
      (Submitted start message i { commits := 1 }) (Handed start message i)
      (Returns start (message i)) fun _ => Halted start message i E where
  before := followUp_accepted i hE []
  after := by
    refine followUp_reading i hE ?_ ?_ ?_
    · rintro o o' hstep ⟨x, ho⟩
      exact ⟨x, ho.others hstep⟩
    · rintro o ⟨x, ho⟩
      exact ⟨_, ho⟩
    · rintro o ⟨x, ho⟩ hE
      exact ho.halted hE
  enqueue x o ho _ := by
    refine ⟨ho.account, fun o' hperf => ?_⟩
    rw [← (Prod.mk.inj (Option.some_inj.mp hperf)).1]
    let books := Function.update o.accounts i
      { o.accounts i with handed := (o.accounts i).handed ++ [x] }
    have haccount : books i = { commits := 1, handed := [x] } := by
      show Function.update o.accounts i _ i = _
      rw [Function.update_self, ho.account]
      rfl
    have hsource : Source start message i { o with accounts := books } :=
      Or.inr ⟨i, by show (books i).commits ≠ 0; rw [haccount]; exact Nat.one_ne_zero, rfl⟩
    exact ⟨⟨x, ⟨haccount, ho.moved, fun _ _ _ => hsource⟩, ho.holds, hsource⟩,
      fun t ht => ⟨ht.stored, ht.holds⟩⟩

/-- What a request has done when it returns. -/
def Outcome (start : Option Row) (message : ι → Message) (i : ι) (o : Office ι) : Prop :=
  Handed start message i o ∨ Submitted start message i {} o

variable (cfg taskId message) in
/-- `send_message` and `stream_message` of a follow-up. -/
theorem followUp_request (k : StorageKind) (params : SendParams) (i : ι)
    (hE : Excused (message i) i (cond i) E) (hparams : params.message = message i)
    (hname : (message i).taskId ≠ "") :
    Triple (followUpSystem cfg taskId message cond start i) (fun _ => Standing start message i {})
      (sendMessage k params)
      (fun t _ o => Outcome start message i o ∧ Returns start (message i) t o)
      fun _ _ => Halted start message i E := by
  have hsubmit : submit k params.message = onTask (submitTask k (message i)) := by
    rw [submit, hparams, if_neg hname]
  have htenant : ∀ enqueue, persistTenant k params enqueue = pure () := by
    intro enqueue
    rw [persistTenant]
    split
    · rfl
    · rw [if_neg fun h => hname (hparams ▸ h.1)]
  have hhosts := followUp_hosts cfg taskId message cond start i
  rw [sendMessage, hsubmit]
  refine Triple.bind (Triple.lift (hhosts.submitTask (followUp_submitRule i hE) k))
    fun r => ?_
  obtain ⟨task, enqueue⟩ := r
  dsimp only
  rw [htenant]
  show Triple _ _ (if params.mode = .stream then streamRest k params task enqueue
    else sendRest k params task enqueue) _ _
  cases enqueue with
  | false =>
    refine ((followUp_repeated i hE).repetition hhosts k params task).conseq (fun _ _ ho => ho)
      (fun t _ o ho => ⟨Or.inr ho.1, ho.2⟩) fun _ _ _ hx => hx
  | true =>
    refine ((followUp_handOver i hE).rest hhosts k params task).conseq (fun _ _ ho => ho)
      (fun t _ o ho => ⟨Or.inl ho.1, ho.2⟩) fun _ _ _ hx => hx

omit [DecidableEq ι] in
/-- At the start nothing has happened. -/
theorem standing_start (w : World) (i : ι) : Standing w.row message i {} { world := w } :=
  ⟨rfl, .refl _, fun row hrow hmem => Or.inl ⟨row, hrow, hmem⟩⟩

omit [DecidableEq ι] in
theorem followUpInv_start (w : World) : FollowUpInv w.row message { world := w } := by
  refine ⟨.refl _, fun h => h, fun _ => ⟨le_refl _, Nat.zero_le _⟩, fun i row hrow => ?_,
    fun i _ hi => absurd rfl hi, fun _ _ => rfl⟩
  refine ⟨fun hmem => Or.inl ⟨row, hrow, hmem⟩, ?_⟩
  rintro (⟨row', hrow', hmem⟩ | ⟨j, hj, -⟩)
  · obtain rfl := Option.some_inj.mp (hrow.symm.trans hrow')
    exact hmem
  · exact absurd rfl hj

/-- **Every interleaving of follow-ups.** -/
theorem followUps_sound (k : StorageKind) (params : ι → SendParams)
    (hname : ∀ i, (params i).message.taskId ≠ "")
    (hE : ∀ i, Excused (params i).message i (cond i) E) (w : World)
    {ms : List (PoolMove ι (Office ι))} {c : (ι → Prog Call (Except Exc Task × Unit)) × Office ι}
    (hrun : (followUps cfg taskId (fun i => (params i).message) cond).Run
      (fun i => sendMessage k (params i) (), { world := w }) ms c) :
    FollowUpInv w.row (fun i => (params i).message) c.2 ∧
    (∀ m ∈ ms, FollowUpMove (fun i => (params i).message) m) ∧
    ∀ i r, c.1 i = .ret r → match r.1 with
      | .ok t => Outcome w.row (fun i => (params i).message) i c.2 ∧ Returns w.row (params i).message t c.2
      | .error _ => Halted w.row (fun i => (params i).message) i E c.2 := by
  let message := fun i => (params i).message
  have hwp : ∀ i, (sendMessage k (params i) ()).wp (followUpSystem cfg taskId message cond w.row i)
      (fun r o => match r.1 with
        | .ok t => Outcome w.row message i o ∧ Returns w.row (message i) t o
        | .error _ => Halted w.row message i E o) { world := w } := by
    intro i
    refine Prog.wp_mono (followUp_request cfg taskId message k (params i) i (hE i) rfl (hname i) ()
      { world := w } (standing_start w i)) fun r o hr => ?_
    obtain ⟨r, s⟩ := r
    cases r with
    | ok t => exact hr
    | error x => exact hr
  obtain ⟨hend, hreq, hmoves⟩ := hrun.sound followUps_fit (followUpInv_start w) hwp
  refine ⟨hend, hmoves, fun i r hret => ?_⟩
  have hi := hreq i
  rw [hret] at hi
  exact hi _ .refl

theorem FollowUpMove.commits {m : PoolMove ι (Office ι)} (hm : FollowUpMove message m)
    (h : (m.before.accounts i).commits ≠ 0) : (m.after.accounts i).commits ≠ 0 := by
  obtain ⟨who, o, o'⟩ := m
  rcases who with _ | j
  · have haccounts : o'.accounts = o.accounts := hm
    show (o'.accounts i).commits ≠ 0
    rw [haccounts]
    exact h
  · exact FollowUpStep.commits hm h

/-- The moves of a request that is not accepted change nothing. -/
theorem unchanged_of_commits {ms : List (PoolMove ι (Office ι))} {o o' : Office ι}
    (hlinked : Linked o ms o') (hms : ∀ m ∈ ms, FollowUpMove message m)
    (hnone : (o'.accounts i).commits = 0) {m : PoolMove ι (Office ι)} (hm : m ∈ ms)
    (hwho : m.who = some i) :
    m.after.world.row = m.before.world.row ∧ m.after.accounts = m.before.accounts := by
  -- a commit after this move would still be there at the end
  have hafter : (m.after.accounts i).commits = 0 := by
    by_contra hne
    obtain ⟨a, b, rfl⟩ := List.append_of_mem hm
    obtain ⟨o₁, -, h₁⟩ := hlinked.split
    obtain _ | hrest := h₁
    obtain ⟨m', hm', hbefore, hzero⟩ :=
      hrest.changes (P := fun o => (o.accounts i).commits = 0) hne hnone
    exact (hms m' (List.mem_append_right _ (List.mem_cons_of_mem _ hm'))).commits hbefore hzero
  have hstep : FollowUpStep message i m.before m.after := by
    have hmove := hms m hm
    rw [FollowUpMove, hwho] at hmove
    exact hmove
  cases hstep with
  | idle hrow haccounts => exact ⟨hrow, haccounts⟩
  | accept _ _ _ _ haccounts =>
    rw [haccounts, Function.update_self] at hafter
    exact nomatch hafter
  | handOver _ _ haccounts =>
    rw [haccounts, Function.update_self] at hafter
    exact nomatch hafter

/-- The move of a request that changes the task accepts its message. -/
theorem FollowUpStep.accepted (hstep : FollowUpStep message i o o')
    (hne : o'.world.row ≠ o.world.row) :
    ∃ row row', o.world.row = some row ∧ o'.world.row = some row' ∧
      Accepted (message i) row row' := by
  cases hstep with
  | idle hrow _ => exact absurd hrow hne
  | accept hrow hrow' hacc _ _ => exact ⟨_, _, hrow, hrow', hacc⟩
  | handOver hrow _ _ => exact absurd hrow hne

end

end A2AKit
