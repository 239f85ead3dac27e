/-
Direct replies.

A handler may answer with a message instead of a task.  `reply_directly` completes the task, with
the message at the end of its history and the id of the message under a key of the metadata, and
publishes the message after that write.  A blocking `message/send` waits for events until it sees a
marker or its time is over; it takes the reply from an event, and if it has missed it there it looks
for it in the stored task.

Both ways lead to the same answer.  What is marked in a task stays, since a task that has ended is
written without a state and without messages (`Replied.commit`), and what is published was stored
before (`turnParts_replying`): the program learns of its own write before it publishes.  So a
request is answered with a message if and only if the stored task holds a direct reply, whatever
events it has seen and whenever it has stopped waiting (`blocking_call_answered`).
-/
import A2AKit.StateMachine
import A2AKit.StreamSeparation
import A2AKit.TurnParts

namespace A2AKit

/-! ### The answer of a request -/

namespace TaskManager

/-- `_find_direct_reply` -/
def findDirectReply (task : Task) : Option Message :=
  match (task.metadata.entries.lookup directReplyKey).filter (· ≠ "") with
  | none => none
  | some replyId => task.history.reverse.find? fun m => m.messageId == replyId

/-- The loop of a blocking `message/send` over the events that arrive before the wait is over;
`direct` is the reply that was seen before. -/
def awaitReply {α : Type} (direct : Option Message) : List (StreamEvent α) → Option Message
  | [] => direct
  | .directReply m :: events => awaitReply (some m) events
  | .terminalMarker .. :: _ => direct
  | _ :: events => awaitReply direct events

/-- `v10.Task | v10.Message` -/
inductive SendAnswer
  | task (task : Task)
  | message (message : Message)

/-- What `send_message` returns after the wait: `full` is the task that is loaded first, and
`trimmed` the one that is loaded next if the request gives a history length. -/
def sendAnswer (direct : Option Message) (full : Option Task) (trimmed : Option (Option Task))
    (task : Task) : SendAnswer :=
  match direct with
  | some m => .message m
  | none =>
    match full.bind findDirectReply with
    | some m => .message m
    | none => .task ((trimmed.join <|> full).getD task)

end TaskManager

open TaskManager

/-! ### The mark of a reply -/

/-- The write of `reply_directly`. -/
structure UpdateArgs.Replies (args : UpdateArgs Ref) (m : Message) : Prop where
  state : args.state = some .completed
  messages : args.messages = [m]
  metadata : args.taskMetadata = directReplyMetadata m.messageId
  fromAgent : m.role = .agent

/-- The task was completed with the reply `m`. -/
structure Replied (m : Message) (row : Row) : Prop where
  completed : row.task.status.state = .completed
  marked : row.task.metadata.entries.lookup directReplyKey = some m.messageId
  named : m.messageId ≠ ""
  last : row.task.history.getLast? = some m
  fromAgent : m.role = .agent

/-- What another party may write: the write of a direct reply, or one that leaves the mark alone
and appends messages to a task that has ended only together with a state. -/
def FairWrite (args : UpdateArgs Ref) (row : Row) : Prop :=
  directReplyKey ∉ args.taskMetadata.entries ∧
      (args.state = none → args.messages ≠ [] → row.task.status.state.isTerminal = false) ∨
    ∃ m, args.Replies m ∧ m.messageId ≠ ""

section

variable {m : Message} {row row' : Row} {taskId : TaskId} {args : UpdateArgs Ref}

/-- The last message of the history is the one that is found. -/
theorem Replied.find (h : Replied m row) : findDirectReply row.task = some m := by
  obtain ⟨before, hhistory⟩ := List.getLast?_eq_some_iff.mp h.last
  rw [findDirectReply, h.marked, Option.filter_some, if_pos (by simpa using h.named), hhistory]
  simp

/-- The expected version of a write does not matter. -/
theorem replies_pinned {version : Option Nat} :
    UpdateArgs.Replies { args with expectedVersion := version } m ↔ args.Replies m :=
  ⟨fun h => ⟨h.state, h.messages, h.metadata, h.fromAgent⟩,
    fun h => ⟨h.state, h.messages, h.metadata, h.fromAgent⟩⟩

/-- A task that is marked was replied to. -/
def MarkSound (row : Row) : Prop :=
  directReplyKey ∈ row.task.metadata.entries → ∃ m, Replied m row

theorem MarkSound.replied (h : MarkSound row) (hfind : findDirectReply row.task = some m) :
    Replied m row := by
  have hmarked : directReplyKey ∈ row.task.metadata.entries := by
    rw [← AList.lookup_isSome]
    by_contra hnone
    rw [findDirectReply, Option.not_isSome_iff_eq_none.mp hnone] at hfind
    cases hfind
  obtain ⟨m', hreplied⟩ := h hmarked
  obtain rfl := Option.some_inj.mp (hreplied.find.symm.trans hfind)
  exact hreplied

theorem directReplyKey_ne : directReplyKey ≠ metaLastModifiedKey := by decide

/-- A task that was replied to is not written with a state, and keeps its reply. -/
theorem Replied.commit (h : Replied m row) (hcommit : TaskCommit taskId args row row')
    (hfair : FairWrite args row) : Replied m row' := by
  have hterm : row.task.status.state.isTerminal = true := by
    rw [h.completed]
    rfl
  have hstate : args.state = none := by
    have hguard := hcommit.guard
    rcases hs : args.state with _ | st
    · rfl
    · simp [terminalGuard, hs, hterm] at hguard
  rcases hfair with ⟨hunmarked, hmessages⟩ | ⟨m', hreplies, -⟩
  · have hnone : args.messages = [] := by
      by_contra hne
      exact absurd (hmessages hstate hne) (by simp [hterm])
    obtain ⟨now, hstatus⟩ := hcommit.status
    refine ⟨?_, ?_, h.named, ?_, h.fromAgent⟩
    · rw [hstatus, nextStatus_state, hstate]
      exact h.completed
    · rw [hcommit.metadata _ hunmarked directReplyKey_ne]
      exact h.marked
    · rw [hcommit.history, hnone, List.append_nil]
      exact h.last
  · cases hreplies.state.symm.trans hstate

/-- The commit of a reply, with the mark that it leaves. -/
theorem UpdateArgs.Replies.replied (h : args.Replies m) (hname : m.messageId ≠ "")
    (hcommit : TaskCommit taskId args row row')
    (hmark : row'.task.metadata.entries.lookup directReplyKey = some m.messageId) :
    Replied m row' := by
  obtain ⟨now, hstatus⟩ := hcommit.status
  refine ⟨?_, hmark, hname, ?_, h.fromAgent⟩
  · rw [hstatus, nextStatus_state, h.state]
    rfl
  · rw [hcommit.history, h.messages]
    simp

/-- The metadata of a write that sets a state, as both kinds of storage compute it. -/
theorem lookup_marked (md : Metadata) (st : TaskState) (now : Timestamp) (message : Option Message)
    (h : args.Replies m) :
    (((md.update args.taskMetadata).appendTransition
      (buildTransitionRecord st now message)).touch now).entries.lookup directReplyKey =
        some m.messageId := by
  refine (lookup_touch _ now directReplyKey_ne).trans ?_
  have hkey : directReplyKey ∈ args.taskMetadata.entries := by
    rw [h.metadata]
    exact AList.mem_insert _ |>.mpr (Or.inl rfl)
  refine (AList.lookup_union_left hkey).trans ?_
  rw [h.metadata]
  exact AList.lookup_insert _

theorem UpdateArgs.Replies.not_isEmpty (h : args.Replies m) :
    args.taskMetadata.isEmpty = false := by
  rw [h.metadata]
  rfl

theorem updatedTask_marked (heap : Heap) (task : Task) (now : Timestamp) (h : args.Replies m) :
    (InMemoryStorage.updatedTask heap task args now).metadata.entries.lookup directReplyKey =
      some m.messageId := by
  have hmarked := lookup_marked task.metadata .completed now args.statusMessage h
  rw [InMemoryStorage.updatedTask, h.state, h.not_isEmpty]
  exact hmarked

theorem mergeValues_marked (heap : Heap) (task task' : Task) (now : Timestamp)
    (h : args.Replies m) :
    ((mergeValues heap task args now).2.applyTo task').metadata.entries.lookup directReplyKey =
      some m.messageId := by
  have hmarked := lookup_marked task.metadata .completed now args.statusMessage h
  rw [mergeValues, h.state, h.not_isEmpty]
  exact hmarked

end

/-! ### What a program learns of its reply -/

/-- The changes that an operation has stored. -/
def Op.stored : {β : Type} → Op β → β → Option (UpdateArgs Ref)
  | _, .update _ args, .ok _ => some args
  | _, .updateWrite _ _ args _ _ _, .committed _ => some args
  | _, _, _ => none

/-- An id that was drawn, or a reply that was stored. -/
inductive Learned
  | drawn (id : String)
  | replied (m : Message)

def Op.told : {β : Type} → Op β → β → Set Learned
  | _, .uuid, id => {.drawn id}
  | _, e, b => {x | ∃ args m, e.stored b = some args ∧ args.Replies m ∧ x = .replied m}

/-- A plain write, or a reply whose id was drawn. -/
def ProperWrite (known : Set Learned) (args : UpdateArgs Ref) : Prop :=
  args.Plain ∨ ∃ m, args.Replies m ∧ .drawn m.messageId ∈ known

/-- A direct reply is published once it is stored. -/
def replying : Knowledge Op (Set Learned) where
  admits known _ e := match e with
    | .publish event => ∀ m, event = .directReply m → .replied m ∈ known
    | .update _ args => ProperWrite known args
    | .updateWrite _ _ args _ _ _ => ProperWrite known args
    | _ => True
  learn known _ e b := known ∪ e.told b
  grows _ _ _ _ := Set.subset_union_left

/-- The reply that `args` writes is known. -/
def ToldOf (args : UpdateArgs Ref) (known : Set Learned) : Prop :=
  ∀ m, args.Replies m → .replied m ∈ known

theorem ToldOf.mono {args : UpdateArgs Ref} {known known' : Set Learned} (h : ToldOf args known)
    (hle : known ≤ known') : ToldOf args known' := fun m hm => hle (h m hm)

theorem ToldOf.of_stored {args : UpdateArgs Ref} {β : Type} {e : Op β} {b : β}
    {known : Set Learned} (hstored : e.stored b = some args) :
    ToldOf args (replying.learn known e b) := by
  intro m hm
  refine Or.inr ?_
  cases e with
  | uuid => cases hstored
  | _ => exact ⟨args, m, hstored, hm, rfl⟩

section Programs

open Act (Uses Leads uses_pure uses_throw uses_get uses_modify uses_perform uses_bind
  uses_bind_leads uses_of_leads uses_tryCatch leads_pure leads_throw leads_modify leads_perform
  leads_bind leads_uses_bind leads_tryCatch)

variable {k : StorageKind} {known : Set Learned} {σ α : Type}

theorem uses_local {e : Op α} (he : e.local = true) :
    Uses replying known (Act.perform e : TaskM σ α) := by
  refine uses_perform fun known' _ => ?_
  cases e with
  | publish event => cases he
  | update site args => cases he
  | updateWrite b site args attempt row values => cases he
  | _ => trivial

theorem ProperWrite.mono {known' : Set Learned} {args : UpdateArgs Ref} (h : ProperWrite known args)
    (hle : known ≤ known') : ProperWrite known' args :=
  h.imp id fun ⟨m, hm, hid⟩ => ⟨m, hm, hle hid⟩

theorem uses_checkpoint (pt : AwaitPoint) :
    Uses replying known (checkpoint pt : TaskM σ Unit) := by
  refine uses_bind (uses_local rfl) fun raised => ?_
  cases raised with
  | true => exact uses_throw _
  | false => exact uses_pure ()

/-- The retry loop, by induction on the attempts that are left. -/
theorem leads_updateLoop (b : SplitStorage) (site : Site) {args : UpdateArgs Ref}
    (hargs : ProperWrite known args) (n attempt : Nat) :
    Leads replying known (updateLoop b site args n attempt : TaskM σ Nat) fun _ => ToldOf args := by
  induction n generalizing attempt with
  | zero => exact leads_throw _
  | succ n ih =>
    refine leads_uses_bind (uses_checkpoint .plain) fun _ => ?_
    refine leads_uses_bind (uses_perform fun _ _ => trivial) fun out => ?_
    rcases out with e | ⟨row, values⟩
    · exact leads_throw _
    refine leads_uses_bind (uses_checkpoint _) fun _ => ?_
    refine leads_bind (leads_perform (Q := fun out known' =>
      ∀ row', out = .committed row' → ToldOf args known') (fun _ hle => hargs.mono hle)
      fun out known' _ row' hout => ToldOf.of_stored (by rw [hout]; rfl))
      fun out known' hle hout => ?_
    rcases out with row' | _ | e
    · exact leads_uses_bind (uses_checkpoint _) fun _ =>
        leads_pure fun _ hle' => (hout row' rfl).mono hle'
    · exact fun known'' hle' => ih (attempt + 1) known'' (hle.trans hle')
    · exact leads_throw _

theorem leads_update (site : Site) {args : UpdateArgs Ref} (hargs : ProperWrite known args) :
    Leads replying known (Emitter.updateTask k site args : TaskM σ Nat) fun _ => ToldOf args := by
  have hstorage : Leads replying known (updateTask k site args : TaskM σ Nat)
      fun _ => ToldOf args := by
    cases k with
    | split b => exact leads_updateLoop b site hargs _ _
    | memory =>
      refine leads_bind (leads_perform (Q := fun out known' =>
        ∀ v, out = .ok v → ToldOf args known') (fun _ hle => hargs.mono hle)
        fun out known' _ v hout => ToldOf.of_stored (by rw [hout]; rfl)) fun out known' _ hout => ?_
      rcases out with e | v
      · exact leads_throw _
      · exact leads_pure fun _ hle' => (hout v rfl).mono hle'
  have hnotify : ∀ known', Uses replying known' (Emitter.notify site args : TaskM σ Unit) := by
    intro known'
    rw [Emitter.notify]
    split
    · exact uses_pure ()
    · refine uses_bind (uses_checkpoint _) fun _ => uses_bind (uses_checkpoint _) fun _ => ?_
      refine uses_bind (uses_checkpoint _) fun _ => uses_bind (uses_checkpoint _) fun _ => ?_
      exact uses_checkpoint _
  exact leads_bind hstorage fun v known' _ htold =>
    leads_uses_bind (hnotify known') fun _ => leads_pure fun _ hle => htold.mono hle

/-- An event may be sent if it is no reply, or one that is known to be stored. -/
theorem uses_sendEvent (shielded : Bool) {event : StreamEvent Ref}
    (hevent : ∀ m, event = .directReply m → .replied m ∈ known) :
    Uses replying known (Emitter.sendEvent shielded event : TaskM σ Unit) := by
  refine uses_bind (uses_perform fun _ hle m hm => hle (hevent m hm)) fun id => ?_
  split
  · exact uses_local rfl
  · refine uses_tryCatch (uses_bind (uses_checkpoint .plain) fun _ => uses_local rfl) fun x => ?_
    exact uses_bind (uses_local rfl) fun _ => uses_throw x

/-- What is put together from the parts of a turn needs to know nothing, if it is no direct
reply. -/
theorem turnParts_replying (k : StorageKind) :
    TurnParts k fun m => ∀ known, Uses replying known m where
  pure a _ := uses_pure a
  throw x _ := uses_throw x
  get _ := uses_get
  modify f _ := uses_modify f
  bind hm hf known := uses_bind (hm known) fun a => hf a known
  tryCatch hm hf known := uses_tryCatch (hm known) fun x => hf x known
  ask e he _ := uses_local he
  update site args hargs _ := uses_of_leads (leads_update site (Or.inl hargs))
  sendEvent shielded event hevent _ := uses_sendEvent shielded fun m hm => by
    rw [hm] at hevent
    cases hevent

section Reply

variable {taskId : TaskId} {contextId : Option ContextId}

theorem leads_versionedUpdate (batch : List (ArtifactWrite Ref)) {args : UpdateArgs Ref}
    (hargs : ∀ version, ProperWrite known { args with expectedVersion := version }) :
    Leads replying known (TaskContext.versionedUpdate k taskId batch args)
      fun _ => ToldOf args := by
  have hparts := turnParts_replying k
  have hwrite : ∀ second version, Leads replying known (do
      let newVersion ← Emitter.updateTask k (.turn batch second)
        { args with expectedVersion := version }
      TaskContext.setVersion (some newVersion) : TurnM Unit) fun _ => ToldOf args := by
    intro second version
    refine leads_bind (leads_update _ (hargs version)) fun v known' _ htold => ?_
    exact leads_modify fun _ hle m hm => hle (htold m (replies_pinned.mpr hm))
  refine leads_uses_bind uses_get fun ctx => leads_tryCatch (hwrite false ctx.version) fun x => ?_
  split
  · refine leads_uses_bind (hparts.loadTask .other known) fun task => ?_
    rcases task with _ | task
    · exact leads_throw _
    dsimp only
    split
    · exact leads_throw _
    · exact leads_uses_bind (hparts.freshVersion _ known) fun fresh => hwrite true fresh
  · exact leads_throw _

/-- `reply_directly` publishes the reply once it has stored it. -/
theorem uses_replyDirectly (text : String) :
    Uses replying known (TaskContext.replyDirectly k taskId contextId text) := by
  have hparts := turnParts_replying k
  have hmessage : Leads replying known
      (TaskContext.makeAgentMessage taskId contextId [{ text := some text }])
      fun m known' => .drawn m.messageId ∈ known' ∧ m.role = .agent := by
    refine leads_bind (leads_perform (Q := fun id known' => .drawn id ∈ known')
      (fun _ _ => trivial) fun id _ _ => Or.inr rfl) fun id known' _ hid => ?_
    exact leads_pure fun _ hle => ⟨hle hid, rfl⟩
  refine uses_bind_leads hmessage fun m known₁ _ ⟨hid, hrole⟩ => ?_
  refine uses_bind uses_get fun ctx => ?_
  split
  · exact uses_throw _
  refine uses_bind (hparts.takePending known₁) fun pending => ?_
  have hwrite : Leads replying known₁ (TaskContext.versionedUpdate k taskId pending
      { state := some .completed
        artifacts := pending ++ []
        statusMessage := some m
        messages := [m]
        taskMetadata := directReplyMetadata m.messageId }) fun _ known' => .replied m ∈ known' := by
    intro known' hle ctx'
    refine Prog.leads_mono (leads_versionedUpdate pending (fun version =>
      Or.inr ⟨m, ⟨rfl, rfl, rfl, hrole⟩, hid⟩) known' hle ctx') fun r _ _ htold u hu => ?_
    exact htold u hu m ⟨rfl, rfl, rfl, hrole⟩
  refine uses_bind_leads (leads_tryCatch hwrite fun x =>
    leads_uses_bind (uses_modify _) fun _ => leads_throw x) fun _ known₂ _ hstored => ?_
  refine uses_bind (uses_modify _) fun _ => uses_bind ?_ fun _ =>
    hparts.emitStatus true .completed (some m) true known₂
  refine uses_bind (uses_sendEvent true fun m' hm' => ?_) fun _ => uses_pure ()
  obtain rfl := StreamEvent.directReply.inj hm'
  exact hstored

end Reply

end Programs

/-! ### A task that is marked -/

section

variable {cfg : BusConfig} {taskId : TaskId} {m : Message} {row row' : Row} {args : UpdateArgs Ref}
  {w w' : World}

/-- The task has the reply `m`, if it is still there. -/
def World.Held (m : Message) (w : World) : Prop := ∀ row, w.row = some row → Replied m row

/-- A commit, with the mark of the reply that it writes. -/
structure MarkedCommit (taskId : TaskId) (args : UpdateArgs Ref) (row row' : Row) : Prop
    extends TaskCommit taskId args row row' where
  mark : ∀ m, args.Replies m →
    row'.task.metadata.entries.lookup directReplyKey = some m.messageId

theorem MarkSound.commit (h : MarkSound row) (hcommit : MarkedCommit taskId args row row')
    (hfair : FairWrite args row) : MarkSound row' := by
  intro hmarked
  rcases id hfair with ⟨hunmarked, -⟩ | ⟨m, hm, hname⟩
  · have hold : directReplyKey ∈ row.task.metadata.entries := by
      rw [← AList.lookup_isSome] at hmarked ⊢
      rwa [← hcommit.metadata _ hunmarked directReplyKey_ne]
    obtain ⟨m, hreplied⟩ := h hold
    exact ⟨m, hreplied.commit hcommit.toTaskCommit hfair⟩
  · exact ⟨m, hm.replied hname hcommit.toTaskCommit (hcommit.mark m hm)⟩

/-- The row of another party's write. -/
theorem MarkedCommit.otherWrite (h : Heap) (now : Timestamp)
    (hguard : terminalGuard taskId row.task.status.state args.state = none) :
    MarkedCommit taskId { args with expectedVersion := none } row
      { row with task := InMemoryStorage.updatedTask h row.task args now
                 version := row.version + 1 } := by
  obtain ⟨hid, hctx⟩ := updatedTask_ids args h row.task now
  refine ⟨⟨⟨rfl, hguard, fun _ hn => (Option.some_ne_none _ hn.symm).elim, now,
    updatedTask_status _ _⟩, hid, hctx, updatedTask_history _ _ _, rfl,
    fun _ => updatedTask_metadata _ _ _⟩, fun m hm => ?_⟩
  exact updatedTask_marked h row.task now (replies_pinned.mp hm)

theorem FairWrite.unversioned (h : FairWrite args row) :
    FairWrite { args with expectedVersion := none } row :=
  h.imp id fun ⟨m, hm, hname⟩ => ⟨m, replies_pinned.mpr hm, hname⟩

theorem Honest.marked {b : SplitStorage} {attempt : Nat} {values : Values}
    (hw : Honest taskId b args row values w)
    (hwrite : b.backend.updateWrite taskId w.row args attempt row values = .committed row')
    (hm : args.Replies m) :
    row'.task.metadata.entries.lookup directReplyKey = some m.messageId := by
  obtain ⟨cur, -, -, -, rfl⟩ := b.sound.write_ok hw.checked hw.follows hwrite
  obtain ⟨h, now, rfl⟩ := hw.merged
  exact mergeValues_marked h row.task cur.task now hm

/-- What an operation has stored is committed over the row that was there. -/
theorem World.stored_of_perform {β : Type} {e : Op β} {b : β} (hreq : WritesHonestly taskId e w)
    (hperf : World.perform cfg taskId e w = some (w', b)) :
    (e.stored b = none ∧ w'.row = w.row) ∨
      ∃ args row row', e.stored b = some args ∧ w.row = some row ∧
        MarkedCommit taskId args row row' ∧
        w' = { w with row := some row', written := w.written ++ args.state.toList } := by
  cases e with
  | update site args =>
    rcases World.perform_update_task hperf with
      ⟨x, rfl, rfl, -⟩ | ⟨row, row', hrow, rfl, hcommit, hw'⟩
    · exact Or.inl ⟨rfl, rfl⟩
    refine Or.inr ⟨args, row, row', rfl, hrow, ⟨hcommit, fun m hm => ?_⟩, hw'⟩
    simp only [World.perform, hrow] at hperf
    split at hperf
    · exact absurd (Prod.mk.inj (Option.some_inj.mp hperf)).2 (by simp)
    · rename_i task version hok
      obtain ⟨t, v, hstored, rfl, rfl, -, -⟩ := InMemoryStorage.updateTask_ok hok
      obtain ⟨rfl, rfl⟩ := Prod.mk.inj (Option.some_inj.mp hstored)
      have hworld := (Prod.mk.inj (Option.some_inj.mp hperf)).1.trans hw'
      obtain rfl := Option.some_inj.mp (World.mk.inj hworld).1
      exact updatedTask_marked w.heap row.task w.ambient.now hm
  | updateWrite b site args attempt row values =>
    rcases World.perform_write hreq hperf with
      ⟨cur, row', hcur, rfl, hcommit, hw'⟩ | ⟨rfl, ⟨rfl, -⟩ | ⟨x, rfl, -⟩⟩
    · have hwrite : b.backend.updateWrite taskId w.row args attempt row values =
          .committed row' := by
        simp only [World.perform] at hperf
        split at hperf
        · rename_i row'' hwrite
          exact hwrite.trans (Prod.mk.inj (Option.some_inj.mp hperf)).2
        · exact (Prod.mk.inj (Option.some_inj.mp hperf)).2
      exact Or.inr ⟨args, cur, row', rfl, hcur, ⟨hcommit, fun m hm => hreq.marked hwrite hm⟩, hw'⟩
    · exact Or.inl ⟨rfl, rfl⟩
    · exact Or.inl ⟨rfl, rfl⟩
  | _ => exact Or.inl ⟨rfl, (World.row_of_perform hperf rfl).1⟩

end

/-! ### The other parties -/

/-- What the other parties may do: whatever they like, but their writes are fair, the ids that they
draw are not empty, and a direct reply of the task is published once it is stored. -/
inductive OtherStep (cfg : BusConfig) (taskId : TaskId) : World → World → Prop
  | write {w : World} {row : Row} {h : Heap} {args : UpdateArgs Ref} {now : Timestamp} :
      w.row = some row → terminalGuard taskId row.task.status.state args.state = none →
      FairWrite args row → OtherStep cfg taskId w (w.otherWrite row h args now)
  | delete {w : World} : OtherStep cfg taskId w { w with row := none }
  | cancel {w : World} : OtherStep cfg taskId w { w with cancelled := true }
  | ambient {w : World} {a : Ambient} : a.uuid ≠ "" → OtherStep cfg taskId w { w with ambient := a }
  | bus {w w' : World} {a : BusAction (StreamEvent Ref)} :
      (∀ m, a = .publish taskId (.directReply m) → w.Held m) → w.busStep cfg a = some w' →
      OtherStep cfg taskId w w'
  | load {w : World} {row : Row} {u : SubId} : w.row = some row →
      row.task.status.state.isTerminal = false → w.snapshots u = none →
      OtherStep cfg taskId w { w with snapshots := Function.update w.snapshots u (some row.task) }

/-- A process that works on the task, among the other parties. -/
def answering (cfg : BusConfig) (taskId : TaskId) : System Op World :=
  { (anyParty cfg taskId fun _ _ => True).systemWith (WritesHonestly taskId) with
    env := OtherStep cfg taskId }

section

variable {cfg : BusConfig} {taskId : TaskId} {m : Message} {w w' : World} {known : Set Learned}

theorem OtherStep.anyStep (h : OtherStep cfg taskId w w') :
    EnvStep (anyParty cfg taskId fun _ _ => True) w w' := by
  cases h with
  | write hrow hguard _ => exact .write trivial hrow hguard
  | delete => exact .delete trivial
  | cancel => exact .cancel trivial
  | ambient _ => exact .ambient
  | bus _ hbus => exact .bus trivial hbus
  | load hrow hlive hnone => exact .load trivial hrow hlive hnone

/-! ### The invariant -/

/-- A step that commits a fair write to the task, or leaves the row alone or deletes it. -/
inductive RowStep (taskId : TaskId) : Option Row → Option Row → Prop
  | same {r : Option Row} : RowStep taskId r r
  | delete {r : Option Row} : RowStep taskId r none
  | commit {args : UpdateArgs Ref} {row row' : Row} : MarkedCommit taskId args row row' →
      FairWrite args row → RowStep taskId (some row) (some row')

theorem RowStep.held (h : RowStep taskId w.row w'.row) (hw : w.Held m) : w'.Held m := by
  intro row' hrow'
  generalize hr : w.row = r at h
  rw [hrow'] at h
  cases h with
  | same => exact hw row' hr
  | commit hcommit hfair => exact (hw _ hr).commit hcommit.toTaskCommit hfair

theorem RowStep.sound (h : RowStep taskId w.row w'.row)
    (hw : ∀ row, w.row = some row → MarkSound row) :
    ∀ row, w'.row = some row → MarkSound row := by
  intro row' hrow'
  generalize hr : w.row = r at h
  rw [hrow'] at h
  cases h with
  | same => exact hw row' hr
  | commit hcommit hfair => exact (hw _ hr).commit hcommit hfair

theorem OtherStep.rowStep (h : OtherStep cfg taskId w w') : RowStep taskId w.row w'.row := by
  cases h with
  | write hrow hguard hfair =>
    rw [hrow]
    exact .commit (.otherWrite _ _ hguard) hfair.unversioned
  | delete => exact .delete
  | bus _ hbus =>
    obtain ⟨out, -, rfl⟩ := World.busStep_some hbus
    exact .same
  | _ => exact .same

/-- What a process that knows `known` finds: a mark stands for a reply, and the replies that it has
stored and those that were published are held. -/
structure KnowsReplies (taskId : TaskId) (known : Set Learned) (w : World) : Prop where
  sound : ∀ row, w.row = some row → MarkSound row
  drawn : ∀ id, .drawn id ∈ known → id ≠ ""
  ambient : w.ambient.uuid ≠ ""
  stored : ∀ m, .replied m ∈ known → w.Held m
  published : ∀ m, w.Published taskId (.directReply m) → w.Held m
  streams : OwnStreams w

theorem ProperWrite.fair {args : UpdateArgs Ref} {row : Row} (h : ProperWrite known args)
    (hdrawn : ∀ id, .drawn id ∈ known → id ≠ "") : FairWrite args row := by
  rcases h with hplain | ⟨m, hm, hid⟩
  · exact Or.inl ⟨hplain.unmarked, fun hstate hne => absurd (hplain.messages hstate) hne⟩
  · exact Or.inr ⟨m, hm, hdrawn _ hid⟩

theorem ProperWrite.of_stored {β : Type} {e : Op β} {b : β} {args : UpdateArgs Ref}
    (hadmits : replying.admits known e) (hstored : e.stored b = some args) :
    ProperWrite known args := by
  cases e with
  | update site args' =>
    cases b with
    | ok v =>
      obtain rfl := Option.some_inj.mp hstored
      exact hadmits
    | error x => cases hstored
  | updateWrite s site args' attempt row values =>
    cases b with
    | committed row' =>
      obtain rfl := Option.some_inj.mp hstored
      exact hadmits
    | _ => cases hstored
  | _ => cases hstored

/-- An admitted operation writes fairly. -/
theorem KnowsReplies.rowStep {β : Type} {e : Op β} {b : β} (hw : KnowsReplies taskId known w)
    (hreq : WritesHonestly taskId e w) (hadmits : replying.admits known e)
    (hperf : World.perform cfg taskId e w = some (w', b)) : RowStep taskId w.row w'.row := by
  rcases World.stored_of_perform hreq hperf with
    ⟨-, hrow⟩ | ⟨args, row, row', hstored, hrow, hcommit, rfl⟩
  · rw [hrow]
    exact .same
  · rw [hrow]
    exact .commit hcommit ((ProperWrite.of_stored hadmits hstored).fair hw.drawn)

/-- A step of the bus that publishes no reply of the task but one that is held. -/
theorem published_busStep {a : BusAction (StreamEvent Ref)} (hbus : w.busStep cfg a = some w')
    (hw : ∀ m, w.Published taskId (.directReply m) → w.Held m)
    (ha : ∀ m, a = .publish taskId (.directReply m) → w.Held m) :
    ∀ m, w'.Published taskId (.directReply m) → w'.Held m := by
  obtain ⟨out, -, rfl⟩ := World.busStep_some hbus
  rintro m ⟨rec, hrec, hact⟩
  rcases List.mem_append.mp hrec with hrec | hrec
  · exact hw m ⟨rec, hrec, hact⟩
  · obtain rfl := List.mem_singleton.mp hrec
    exact ha m hact

/-- A step without the bus. -/
theorem published_frame (hrow : RowStep taskId w.row w'.row) (hhistory : w'.history = w.history)
    (hw : ∀ m, w.Published taskId (.directReply m) → w.Held m) :
    ∀ m, w'.Published taskId (.directReply m) → w'.Held m := by
  rintro m ⟨rec, hrec, hact⟩
  rw [hhistory] at hrec
  exact hrow.held (hw m ⟨rec, hrec, hact⟩)

theorem KnowsReplies.other (h : OtherStep cfg taskId w w') (hw : KnowsReplies taskId known w) :
    KnowsReplies taskId known w' := by
  have hrow := h.rowStep
  have hframe : w'.ambient.uuid ≠ "" → w'.bus = w.bus → w'.history = w.history →
      KnowsReplies taskId known w' := fun hambient hbus hhistory =>
    ⟨hrow.sound hw.sound, hw.drawn, hambient, fun m hm => hrow.held (hw.stored m hm),
      published_frame hrow hhistory hw.published, hw.streams.frame hbus hhistory⟩
  cases h with
  | ambient ha => exact hframe ha rfl rfl
  | bus ha hbus =>
    refine ⟨hrow.sound hw.sound, hw.drawn, ?_, fun m hm => hrow.held (hw.stored m hm),
      published_busStep hbus hw.published ha, hw.streams.busStep hbus⟩
    obtain ⟨out, -, rfl⟩ := World.busStep_some hbus
    exact hw.ambient
  | _ => exact hframe hw.ambient rfl rfl

/-- The reply that an operation has stored. -/
theorem KnowsReplies.held_of_stored {β : Type} {e : Op β} {b : β} {args : UpdateArgs Ref}
    (hw : KnowsReplies taskId known w) (hreq : WritesHonestly taskId e w)
    (hadmits : replying.admits known e) (hperf : World.perform cfg taskId e w = some (w', b))
    (hstored : e.stored b = some args) (hm : args.Replies m) : w'.Held m := by
  have hproper := ProperWrite.of_stored hadmits hstored
  rcases World.stored_of_perform hreq hperf with
    ⟨hnone, -⟩ | ⟨args', row, row', hargs, hrow, hcommit, rfl⟩
  · cases hnone.symm.trans hstored
  obtain rfl := Option.some_inj.mp (hargs.symm.trans hstored)
  intro r hr
  obtain rfl := Option.some_inj.mp hr
  refine hm.replied ?_ hcommit.toTaskCommit (hcommit.mark m hm)
  -- the id was drawn: a plain write does not mark
  rcases hproper with hplain | ⟨m', hm', hid⟩
  · refine absurd ?_ hplain.unmarked
    rw [hm.metadata]
    exact AList.mem_insert _ |>.mpr (Or.inl rfl)
  · obtain rfl : m = m' := List.singleton_inj.mp (hm.messages.symm.trans hm'.messages)
    exact hw.drawn _ hid

/-- What an operation tells is so. -/
theorem KnowsReplies.told {β : Type} {e : Op β} {b : β} (hw : KnowsReplies taskId known w)
    (hreq : WritesHonestly taskId e w) (hadmits : replying.admits known e)
    (hperf : World.perform cfg taskId e w = some (w', b)) :
    (∀ id, .drawn id ∈ e.told b → id ≠ "") ∧ ∀ m, .replied m ∈ e.told b → w'.Held m := by
  cases e with
  | uuid =>
    obtain ⟨rfl, rfl⟩ := Prod.mk.inj (Option.some_inj.mp hperf)
    refine ⟨fun id hid => ?_, fun m hm => by cases hm⟩
    obtain rfl := Learned.drawn.inj hid
    exact hw.ambient
  | _ =>
    refine ⟨fun id hid => ?_, fun m hm => ?_⟩
    · obtain ⟨args, m, hstored, hreplies, heq⟩ := hid
      cases heq
    · obtain ⟨args, m', hstored, hreplies, heq⟩ := hm
      cases heq
      exact hw.held_of_stored hreq hadmits hperf hstored hreplies

/-- An admitted operation, with what it tells. -/
theorem KnowsReplies.perform {β : Type} {e : Op β} {b : β} (hw : KnowsReplies taskId known w)
    (hreq : WritesHonestly taskId e w) (hadmits : replying.admits known e)
    (hperf : World.perform cfg taskId e w = some (w', b)) :
    KnowsReplies taskId (replying.learn known e b) w' := by
  have hrow := hw.rowStep hreq hadmits hperf
  obtain ⟨hdrawn, hstored⟩ := hw.told hreq hadmits hperf
  have hframe : w'.ambient = w.ambient → (∀ m, w'.Published taskId (.directReply m) → w'.Held m) →
      OwnStreams w' → KnowsReplies taskId (replying.learn known e b) w' := by
    intro hambient hpublished hstreams
    refine ⟨hrow.sound hw.sound, fun id hid => hid.elim (hw.drawn id) (hdrawn id), ?_,
      fun m hm => hm.elim (fun hm => hrow.held (hw.stored m hm)) (hstored m), hpublished, hstreams⟩
    rw [hambient]
    exact hw.ambient
  have hquiet : w'.ambient = w.ambient → w'.bus = w.bus → w'.history = w.history →
      KnowsReplies taskId (replying.learn known e b) w' := fun hambient hbus hhistory =>
    hframe hambient (published_frame hrow hhistory hw.published) (hw.streams.frame hbus hhistory)
  cases World.performed hperf with
  | @publish event w₁ hbus =>
    have hambient : w₁.ambient = w.ambient := by
      obtain ⟨out, -, rfl⟩ := World.busStep_some hbus
      rfl
    have hpublished : ∀ m, w₁.Published taskId (.directReply m) → w₁.Held m := by
      refine published_busStep hbus hw.published fun m hm => ?_
      obtain ⟨-, hevent⟩ := BusAction.publish.inj hm
      exact hw.stored m (hadmits m hevent)
    exact hframe hambient hpublished ((hw.streams.busStep hbus).frame rfl rfl)
  | withdraw _ =>
    exact hframe rfl (published_frame hrow rfl hw.published) (hw.streams.withdraw _)
  | cleanup hbus =>
    have hambient : w'.ambient = w.ambient := by
      obtain ⟨out, -, rfl⟩ := World.busStep_some hbus
      rfl
    exact hframe hambient (published_busStep hbus hw.published fun _ h => by cases h)
      (hw.streams.busStep hbus)
  | _ => exact hquiet rfl rfl rfl

/-! ### Runs -/

theorem wp_runTurns (k : StorageKind) (turns : List (Option ContextId × Handler)) :
    (runTurns k taskId turns).wp (answering cfg taskId) (fun _ _ => True) w := by
  refine Prog.wp_env (fun _ _ h => h.anyStep) ?_
  induction turns generalizing w with
  | nil => exact fun _ _ => trivial
  | cons turn turns ih =>
    obtain ⟨contextId, h⟩ := turn
    have hd := (streamRule_honest (anyParty cfg taskId fun _ _ => True)).discipline k
    have hturn : Keeps (anyParty cfg taskId fun _ _ => True) (WritesHonestly taskId)
        (fun _ => True) (WorkerAdapter.runTaskInner k taskId contextId
          (TaskContext.run k taskId contextId h)) :=
      hd.runTaskInner (fun w _ => known_none w) (fun _ _ => trivial)
        (fun _ _ => ⟨fun hw => hw, fun _ hw => hw⟩) h
    exact Prog.wp_bind (Prog.wp_mono (hturn {} w trivial) fun _ _ _ => ih)

theorem uses_runTurns (k : StorageKind) (turns : List (Option ContextId × Handler)) :
    (runTurns k taskId turns).Uses replying known := by
  induction turns generalizing known with
  | nil => exact trivial
  | cons turn turns ih =>
    obtain ⟨contextId, h⟩ := turn
    have hturn : ∀ known, Act.Uses replying known (WorkerAdapter.runTaskInner k taskId contextId
        (TaskContext.run k taskId contextId h)) :=
      (turnParts_replying k).runTaskInner (fun text _ => uses_replyDirectly text) h
    exact Prog.uses_bind (hturn known known le_rfl {}) fun _ _ _ => ih

/-- Every run keeps the invariant, and the replies that the task has. -/
theorem KnowsReplies.run (hw : KnowsReplies taskId known w) (replies : Set Message)
    {p p' : Prog Op Unit} (hrun : (answering cfg taskId).Reaches (p, w) (p', w'))
    (huses : p.Uses replying known) (hwp : p.wp (answering cfg taskId) (fun _ _ => True) w)
    (hheld : ∀ m ∈ replies, w.Held m) :
    ∃ known', p'.Uses replying known' ∧ KnowsReplies taskId known' w' ∧
      ∀ m ∈ replies, w'.Held m := by
  obtain ⟨known', -, huses', hw'⟩ := Prog.uses_sound (S := answering cfg taskId)
    (I := fun known w => KnowsReplies taskId known w ∧ ∀ m ∈ replies, w.Held m)
    (fun known _ _ hstep hw => ⟨hw.1.other hstep, fun m hm => hstep.rowStep.held (hw.2 m hm)⟩)
    (fun known β e w w' b _ hreq hadmits hperf hw => ⟨hw.1.perform hreq hadmits hperf,
      fun m hm => (hw.1.rowStep hreq hadmits hperf).held (hw.2 m hm)⟩)
    hrun huses hwp ⟨hw, hheld⟩
  exact ⟨known', huses', hw'⟩

end

/-! ### The answer -/

/-- Nothing of the task is a reply yet. -/
structure Unanswered (taskId : TaskId) (w : World) : Prop where
  unmarked : ∀ row, w.row = some row → directReplyKey ∉ row.task.metadata.entries
  unpublished : ∀ m, ¬ w.Published taskId (.directReply m)
  drawn : w.ambient.uuid ≠ ""
  streams : OwnStreams w

theorem Unanswered.answering {taskId : TaskId} {w : World} (h : Unanswered taskId w) :
    KnowsReplies taskId ∅ w where
  sound row hrow hmarked := absurd hmarked (h.unmarked row hrow)
  drawn _ hid := absurd hid (Set.notMem_empty _)
  ambient := h.drawn
  stored _ hm := absurd hm (Set.notMem_empty _)
  published m hm := absurd hm (h.unpublished m)
  streams := h.streams

/-- The loop answers with a reply that it has seen. -/
theorem TaskManager.mem_of_awaitReply {α : Type} {direct : Option Message}
    {events : List (StreamEvent α)} {m : Message} (h : awaitReply direct events = some m) :
    direct = some m ∨ .directReply m ∈ events := by
  induction events generalizing direct with
  | nil => exact Or.inl h
  | cons e events ih =>
    cases e with
    | directReply m' =>
      rcases ih h with heq | hmem
      · obtain rfl := Option.some_inj.mp heq
        exact Or.inr List.mem_cons_self
      · exact Or.inr (List.mem_cons_of_mem _ hmem)
    | terminalMarker t c status => exact Or.inl h
    | _ => exact (ih h).imp_right (List.mem_cons_of_mem _)

/-- **A blocking call is answered with the stored reply**: in every run of turns among fair parties,
whatever events of the task the call has seen by then, it is answered with a message if and only if
the stored task holds that message as its direct reply.  The task is then completed with it, every
direct reply that was published is this one, and it stays. -/
theorem blocking_call_answered (cfg : BusConfig) (taskId : TaskId) (k : StorageKind)
    (turns : List (Option ContextId × Handler)) {w w₁ w₂ : World} {p₁ p₂ : Prog Op Unit}
    (hstart : Unanswered taskId w)
    (hrun : (answering cfg taskId).Reaches (runTurns k taskId turns, w) (p₁, w₁))
    (hrest : (answering cfg taskId).Reaches (p₁, w₁) (p₂, w₂)) {u : SubId}
    (hsub : w₁.bus.SubscribesTo u taskId) {events : List (StreamEvent Ref)}
    (hevents : events <+: w₁.handedTo u) {row : Row} (hrow : w₂.row = some row)
    (trimmed : Option (Option Task)) (task : Task) :
    (∀ m, sendAnswer (awaitReply none events) (some row.task) trimmed task = .message m ↔
      findDirectReply row.task = some m) ∧
      (∀ m, findDirectReply row.task = some m → Replied m row) ∧
      (∀ m, w₂.Published taskId (.directReply m) → findDirectReply row.task = some m) ∧
      ∀ row₁ m, w₁.row = some row₁ → findDirectReply row₁.task = some m →
        findDirectReply row.task = some m := by
  obtain ⟨known₁, huses₁, hw₁, -⟩ := hstart.answering.run ∅ hrun
    (uses_runTurns k turns) (wp_runTurns k turns) fun _ hm => absurd hm (Set.notMem_empty _)
  -- what the task has at the end of the wait, it keeps
  obtain ⟨known₂, -, hw₂, hkept⟩ := hw₁.run {m | w₁.Held m} hrest huses₁
    (Prog.wp_reaches hrun (wp_runTurns k turns)) fun _ hm => hm
  have hfound : ∀ m, w₁.Held m → findDirectReply row.task = some m :=
    fun m hm => (hkept m hm row hrow).find
  refine ⟨fun m => ?_, fun m hm => (hw₂.sound row hrow).replied hm,
    fun m hm => (hw₂.published m hm row hrow).find, fun row₁ m hrow₁ hm => hfound m ?_⟩
  · rcases hdirect : awaitReply none events with _ | m'
    · rw [sendAnswer, Option.bind_some]
      rcases findDirectReply row.task with _ | m''
      · simp
      · simp
    · -- a reply that was seen was published, so the task has it
      have hseen : .directReply m' ∈ events :=
        (mem_of_awaitReply hdirect).resolve_left fun h => by cases h
      have hheld := hw₁.published m' (hw₁.streams.received hsub (hevents.subset hseen))
      rw [sendAnswer, hfound m' hheld]
      simp
  · intro r hr
    obtain rfl := Option.some_inj.mp (hr.symm.trans hrow₁)
    exact (hw₁.sound _ hrow₁).replied hm

/-- A handler that answers with a message. -/
def sayingHi : Handler := .call (.lifecycle (.replyDirectly "hi")) .done

def hiReply : Message :=
  { role := .agent, parts := [{ text := some "hi" }], messageId := "m", taskId := "t"
    contextId := "c" }

/-- The turn of `sayingHi`; subscription 0 takes every event as it comes. -/
def hiTurn : List Move :=
  Move.bus (.subscribe 0 "t" none) :: grantAndConsume ++ List.replicate 10 Move.step ++
    grantAndConsume ++ List.replicate 10 Move.step ++ grantAndConsume ++
    List.replicate 3 Move.step ++ grantAndConsume ++ List.replicate 6 Move.step

/-- The other parties only take steps of the bus, and publish nothing. -/
theorem sayingHi_moves {Q : Move → Prop} (hstep : Q .step)
    (hbus : ∀ a, (∀ t e, a ≠ .publish t e) → Q (.bus a)) : ∀ m ∈ hiTurn, Q m := by
  simp +contextual [hiTurn, grantAndConsume, or_imp, hstep, hbus]

/-- A call that has seen the reply, and one that has stopped waiting before it. -/
theorem hi_answered :
    ∃ w row, (answering ⟨10, 10, 60⟩ "t").Reaches
      (runTurns .memory "t" [(some "c", sayingHi)],
        { World.holding workingTask 1 with ambient := ⟨"", 0, "m", false, false⟩ }) (.ret (), w) ∧
      w.row = some row ∧ Replied hiReply row ∧
      awaitReply none (w.handedTo 0) = some hiReply ∧
      sendAnswer (awaitReply none (w.handedTo 0)) (some row.task) none row.task =
        .message hiReply ∧
      sendAnswer (awaitReply none ((w.handedTo 0).take 1)) (some row.task) none row.task =
        .message hiReply := by
  have hplay : ((execute ⟨10, 10, 60⟩ "t" anyOp hiTurn
      (runTurns .memory "t" [(some "c", sayingHi)])
      { World.holding workingTask 1 with ambient := ⟨"", 0, "m", false, false⟩ }).any
      fun r => decide ((r.2.bus.subscribers 0).any (fun sub => decide (sub.taskId = "t")) = true ∧
        awaitReply none (r.2.handedTo 0) = some hiReply ∧
        (r.2.row.bind fun row => findDirectReply row.task) = some hiReply)) = true := by
    decide +kernel
  obtain ⟨⟨u, w⟩, hexec, hcheck⟩ := (Option.any_eq_true _ _).mp hplay
  obtain ⟨hsub, hseen, hstored⟩ := of_decide_eq_true hcheck
  obtain ⟨row, hrow, hfound⟩ := Option.bind_eq_some_iff.mp hstored
  obtain ⟨sub, hsub, htask⟩ := (Option.any_eq_true _ _).mp hsub
  have hsubscribes : w.bus.SubscribesTo 0 "t" := ⟨sub, hsub, of_decide_eq_true htask⟩
  have hmoves : ∀ m ∈ hiTurn, ∀ w w', m.act ⟨10, 10, 60⟩ w = some w' →
      OtherStep ⟨10, 10, 60⟩ "t" w w' :=
    sayingHi_moves (fun _ _ hact => by cases hact) fun a ha w w' hact =>
      .bus (fun m hm => absurd hm (ha _ _)) hact
  have hrun := execute_run (S := answering ⟨10, 10, 60⟩ "t") (fun _ _ _ => rfl)
    (fun _ _ _ _ => trivial) hmoves hexec
  have hstart : Unanswered "t"
      { World.holding workingTask 1 with ambient := ⟨"", 0, "m", false, false⟩ } := by
    refine ⟨fun row hrow => ?_, fun m ⟨rec, hrec, _⟩ => absurd hrec List.not_mem_nil,
      by decide, .start rfl rfl⟩
    obtain rfl := Option.some_inj.mp hrow
    decide
  have hanswer : ∀ events, events <+: w.handedTo 0 →
      sendAnswer (awaitReply none events) (some row.task) none row.task = .message hiReply :=
    fun events hevents => ((blocking_call_answered _ _ _ _ hstart hrun .refl hsubscribes hevents
      hrow none row.task).1 hiReply).mpr hfound
  have hreplied := (blocking_call_answered _ _ _ _ hstart hrun .refl hsubscribes
    (List.prefix_refl _) hrow none row.task).2.1 hiReply hfound
  exact ⟨w, row, hrun, hrow, hreplied, hseen, hanswer _ (List.prefix_refl _),
    hanswer _ (List.take_prefix _ _)⟩

end A2AKit
