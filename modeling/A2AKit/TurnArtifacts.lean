/-
The calls of a handler.

A turn is `TurnOpen` as long as no lifecycle call has succeeded: what was emitted is
stored or buffered.  It is `TurnDone` afterwards: everything is stored, and so is the
artifact of the lifecycle call.  Each call of the handler keeps this, whenever the
buffer is flushed and whatever the other writers do to the version.

* `wp_runHandler` — a handler, call by call.
-/
import A2AKit.TurnWrites

namespace A2AKit

/-- Before the turn has ended: everything that was emitted is stored or buffered. -/
structure TurnHeld (T : Setting) (init : List Artifact) (ctx : TaskContext) (d : TaskData) :
    Prop where
  running : ctx.turnEnded = false
  buffered : Buffered T init ctx.emitted ctx.pending d

/-- The turn goes on. -/
structure TurnOpen (T : Setting) (init : List Artifact) (ctx : TaskContext) (d : TaskData) : Prop
    extends TurnHeld T init ctx d where
  announced : announced d.published = ctx.emitted
  seen : ∀ n, ctx.version = some n → d.Seen (some n)
  exact : d.Exact T ctx.version

/-- The turn has ended, with the artifact `vals` of the lifecycle call. -/
structure TurnDone (init : List Artifact) (vals : List (ArtifactWrite Artifact))
    (ctx : TaskContext) (d : TaskData) : Prop where
  finished : ctx.turnEnded = true
  stored : d.Stored init (ctx.emitted ++ vals)
  announced : announced d.published = ctx.emitted ++ vals

/-- A call has raised. -/
def TurnRaised (T : Setting) (init : List Artifact) (vals : List (ArtifactWrite Artifact)) :
    Exc → TaskContext → TaskData → Prop
  | .cancelled => fun ctx d => d.Interruptible ∧
    (TurnHeld T init ctx d ∨ ctx.turnEnded = false ∧ Finished init ctx.emitted vals d ∨
      TurnDone init vals ctx d)
  | _ => fun ctx d => TurnHeld T init ctx d ∨ TurnDone init vals ctx d

/-- How a call ends that buffers `new` and stores `vals` itself. -/
def CallEnds (T : Setting) (init : List Artifact) (Done : TaskContext → TaskData → Prop)
    (vals new : List (ArtifactWrite Artifact)) (ctx : TaskContext) (r : Except Exc Unit)
    (ctx' : TaskContext) (w : World) : Prop :=
  match r with
  | .ok _ => ctx'.emitted = ctx.emitted ++ new ∧ Done ctx' w.data
  | .error x => (ctx'.emitted = ctx.emitted ∨ ctx'.emitted = ctx.emitted ++ new) ∧
    TurnRaised T init vals x ctx' w.data

section

variable {T : Setting} {k : StorageKind} {taskId : TaskId} {contextId : Option ContextId}
  {init : List Artifact} {vals new : List (ArtifactWrite Artifact)} {ctx : TaskContext} {w : World}
  {d : TaskData}

theorem kept_turnHeld (hT : TurnSetting T k) : Kept T (TurnHeld T init ctx) :=
  fun d d' hstep hd => ⟨hd.running, kept_buffered hT d d' hstep hd.buffered⟩

theorem kept_turnOpen (hT : TurnSetting T k) : Kept T (TurnOpen T init ctx) :=
  fun d d' hstep hd => ⟨kept_turnHeld hT d d' hstep hd.toTurnHeld,
    kept_announced d d' hstep hd.announced, kept_known _ d d' hstep hd.seen,
    kept_exact _ d d' hstep hd.exact⟩

theorem kept_turnDone (hT : TurnSetting T k) : Kept T (TurnDone init vals ctx) :=
  fun d d' hstep hd => ⟨hd.finished, kept_stored hT d d' hstep hd.stored,
    kept_announced d d' hstep hd.announced⟩

theorem TurnHeld.raised (hd : TurnHeld T init ctx d) {x : Exc}
    (hx : x = .cancelled → d.Interruptible) : TurnRaised T init vals x ctx d := by
  cases x with
  | cancelled => exact ⟨hx rfl, Or.inl hd⟩
  | storage e => exact Or.inl hd
  | runtime m => exact Or.inl hd
  | group x => exact Or.inl hd

theorem TurnDone.raised (hd : TurnDone init vals ctx d) {x : Exc}
    (hx : x = .cancelled → d.Interruptible) : TurnRaised T init vals x ctx d := by
  cases x with
  | cancelled => exact ⟨hx rfl, Or.inr (Or.inr hd)⟩
  | storage e => exact Or.inr hd
  | runtime m => exact Or.inr hd
  | group x => exact Or.inr hd

/-! ### The pieces of a call -/

theorem wp_takePending {J : TaskData → Prop}
    {Q : Except Exc (List (ArtifactWrite Ref)) → TaskContext → World → Prop} (hJ : Kept T J)
    (hw : J w.data) (hQ : ∀ w, J w.data → Q (.ok ctx.pending) { ctx with pending := [] } w) :
    (TaskContext.takePending).wp T.system Q ctx w := by
  refine Act.wp_bind (wp_get hJ hw fun w hw => ?_)
  refine Act.wp_bind (wp_modify hJ hw fun w hw => ?_)
  exact wp_return hJ hw hQ

theorem wp_touchFlush {J : TaskData → Prop} {Q : Except Exc Unit → TaskContext → World → Prop}
    (hJ : Kept T J) (hw : J w.data)
    (hQ : ∀ n w, J w.data → Q (.ok ()) { ctx with lastFlush := n } w) :
    (TaskContext.touchFlush).wp T.system Q ctx w := by
  refine Act.wp_bind (wp_ask hJ hw (fun _ _ => trivial) (fun _ => ⟨_, rfl⟩) fun n w hw => ?_)
  exact wp_modify hJ hw fun w hw => hQ n w hw

theorem announced_concat (events : List (StreamEvent Artifact)) (event : StreamEvent Artifact) :
    announced (events ++ [event]) = announced events ++ event.writes := by
  simp [announced]

theorem wp_emitStatus {J : TaskData → Prop} {Q : Except Exc Unit → TaskContext → World → Prop}
    (shielded : Bool) (state : TaskState) (message : Option Message) (final : Bool)
    (hJ : Kept T J) (hw : J w.data)
    (h : ∀ d event, event.writes = [] → J d → J { d with published := d.published ++ [event] })
    (hQ : ∀ w, J w.data → Q (.ok ()) ctx w)
    (hx : shielded = false → ∀ w, J w.data → w.data.Interruptible → Q (.error .cancelled) ctx w) :
    (TaskContext.emitStatus taskId contextId shielded state message final).wp T.system Q ctx w := by
  refine Act.wp_bind (wp_ask hJ hw (fun _ _ => trivial) (fun _ => ⟨_, rfl⟩)
    fun timestamp w hw => ?_)
  refine wp_sendEvent shielded _ hJ hw hJ (fun d hd => h d _ ?_ hd) hQ hx
  cases final <;> rfl

/-- A piece of a call that leaves the turn open. -/
def StaysOpen {α : Type} (T : Setting) (init : List Artifact)
    (vals : List (ArtifactWrite Artifact)) (ctx : TaskContext) (r : Except Exc α)
    (ctx' : TaskContext) (w : World) : Prop :=
  ctx'.emitted = ctx.emitted ∧ match r with
    | .ok _ => TurnOpen T init ctx' w.data
    | .error x => TurnRaised T init vals x ctx' w.data

/-- A write without a lifecycle call has stored the buffer. -/
theorem Committed.turnOpen {n : Nat} {ws : List (ArtifactWrite Ref)}
    (hd : Committed T init ctx.emitted ws [] [] none n d)
    (hrunning : ctx.turnEnded = false) (hpending : ctx.pending = []) :
    TurnOpen T init { ctx with version := some n } d where
  running := hrunning
  buffered := by
    refine ⟨by simp [hpending, refs], by simp [hpending, refs], hd.live (by simp), ?_⟩
    intro row hrow
    simpa [hpending] using hd.stored row hrow
  announced := hd.announced
  seen := fun m hm => Option.some_inj.mp hm ▸ hd.seen
  exact := hd.exact

theorem TurnOpen.pending {ws : List (ArtifactWrite Ref)}
    (hd : TurnOpen T init { ctx with pending := ws } d) :
    Pending T init ctx.emitted ws [] [] ctx.version d where
  buffered := hd.buffered
  own := ⟨by simpa using hd.buffered.nodup, rfl, Or.inl rfl⟩
  announced := hd.announced
  seen := hd.seen
  exact := hd.exact

/-- A raised write whose batch was put back. -/
theorem Raised.turnRaised {ws own : List (ArtifactWrite Ref)}
    {vals' : List (ArtifactWrite Artifact)} {state : Option TaskState} {x : Exc}
    (hrunning : ctx.turnEnded = false) (hpending : ctx.pending = [])
    (hvals : state.isSome = true → vals' = vals)
    (hd : Raised T init ctx.emitted ws own vals' state x d) :
    TurnRaised T init vals x { ctx with pending := ws ++ ctx.pending } d := by
  have hheld : Buffered T init ctx.emitted ws d →
      TurnHeld T init { ctx with pending := ws ++ ctx.pending } d := by
    intro hbuf
    rw [hpending, List.append_nil]
    exact ⟨hrunning, hbuf⟩
  match x, hd with
  | .cancelled, hd =>
    rcases hd.2 with hbuf | ⟨hstate, hfin⟩
    · exact ⟨hd.1, Or.inl (hheld hbuf)⟩
    · rw [hvals hstate] at hfin
      exact ⟨hd.1, Or.inr (Or.inl ⟨hrunning, hfin⟩)⟩
  | .storage (.taskNotFound _), hd => exact Or.inl (hheld hd)
  | .storage (.taskTerminalState _), hd => exact Or.inl (hheld hd)
  | .storage (.concurrency ..), hd => exact Or.inl (hheld hd.1.buffered)
  | .runtime _, hd => exact Or.inl (hheld hd)
  | .group _, hd => exact Or.inl (hheld hd)

theorem wp_writeOrSkip (hT : TurnSetting T k) (vals : List (ArtifactWrite Artifact))
    {ws : List (ArtifactWrite Ref)} (args : UpdateArgs Ref) (hargs : args.artifacts = ws)
    (hstate : args.state = none) (hpending : ctx.pending = []) (hw : TurnOpen T init { ctx with pending := ws } w.data) :
    (TaskContext.writeOrSkip k taskId ws args).wp T.system (StaysOpen T init vals ctx) ctx w := by
  have hrunning : ctx.turnEnded = false := hw.running
  refine Act.wp_tryCatch (Act.wp_bind (Act.wp_mono
    (wp_versionedUpdate hT args (by simpa using hargs) (fun h => absurd rfl h) hw.pending) ?_))
  rintro (x | _) ctx' w hw
  swap
  · obtain ⟨n, rfl, hw⟩ := hw
    rw [hstate] at hw
    exact wp_return (kept_committed hT _ _) hw fun w hw => ⟨rfl, hw.turnOpen hrunning hpending⟩
  obtain ⟨rfl, hraised⟩ := hw
  have hraise : ∀ {y : Exc} {w : World}, Raised T init ctx'.emitted ws [] [] args.state y w.data →
      (do
        TaskContext.rebuffer ws
        throw y : TurnM Bool).wp T.system (StaysOpen T init vals ctx') ctx' w := by
    intro y w hw
    refine Act.wp_bind (wp_modify (kept_raised hT _ _) hw fun w hw => ?_)
    refine wp_raise (kept_raised hT _ _) hw fun w hw => ⟨rfl, hw.turnRaised hrunning hpending ?_⟩
    simp [hstate]
  match x, hraised with
  | .storage (.taskNotFound _), hw => exact hraise hw
  | .storage (.taskTerminalState _), hw => exact hraise hw
  | .runtime _, hw => exact hraise hw
  | .group _, hw => exact hraise hw
  | .cancelled, hw => exact hraise hw
  | .storage (.concurrency m current), hw =>
    -- a lost race is skipped, and the context learns the version
    have hkept : Kept T fun d => Pending T init ctx'.emitted ws [] [] current d ∧ ¬ T.Alone :=
      (kept_pending hT).and (Kept.const _)
    have hopen : ∀ {v : Option Nat} {d : TaskData},
        Pending T init ctx'.emitted ws [] [] current d → (∀ n, v = some n → d.Seen (some n)) →
        d.Exact T v →
        TurnOpen T init { ctx' with pending := ws ++ ctx'.pending, version := v } d := by
      intro v d hd hseen hexact
      rw [hpending, List.append_nil]
      exact ⟨⟨hrunning, hd.buffered⟩, hd.announced, hseen, hexact⟩
    refine Act.wp_bind (wp_modify hkept hw fun w hw => ?_)
    cases current with
    | some v =>
      refine Act.wp_bind (wp_modify hkept hw fun w hw => ?_)
      exact wp_return hkept hw fun w hw =>
        ⟨rfl, hopen hw.1 hw.1.seen fun h => absurd h hw.2⟩
    | none =>
      refine Act.wp_bind (wp_getVersion k hkept hw ?_ ?_)
      · intro version w hw hseen hexact
        have hknown : ∀ n, version = some n → w.data.Seen (some n) := fun n hn => hn ▸ hseen
        have hkept' := hkept.and ((kept_known version).and (kept_exact version))
        refine Act.wp_bind (wp_modify hkept' ⟨hw, hknown, hexact⟩ fun w hw => ?_)
        exact wp_return hkept' hw fun w hw => ⟨rfl, hopen hw.1.1 hw.2.1 hw.2.2⟩
      · intro w hw hi
        have hheld : TurnHeld T init { ctx' with pending := ws ++ ctx'.pending } w.data := by
          rw [hpending, List.append_nil]
          exact ⟨hrunning, hw.1.buffered⟩
        exact ⟨rfl, hheld.raised fun _ => hi⟩

/-! ### The calls -/

/-- The turn does not depend on when the buffer was flushed last. -/
theorem TurnOpen.flushed (hd : TurnOpen T init ctx d) (n : Nat) :
    TurnOpen T init { ctx with lastFlush := n } d :=
  ⟨⟨hd.running, hd.buffered⟩, hd.announced, hd.seen, hd.exact⟩

theorem Buffered.publish {es : List (ArtifactWrite Artifact)} {ws : List (ArtifactWrite Ref)}
    (hd : Buffered T init es ws d) (event : StreamEvent Artifact) :
    Buffered T init es ws { d with published := d.published ++ [event] } :=
  ⟨hd.nodup, hd.fresh, hd.live, hd.stored⟩

theorem TurnOpen.publish (hd : TurnOpen T init ctx d) {event : StreamEvent Artifact}
    (hevent : event.writes = []) :
    TurnOpen T init ctx { d with published := d.published ++ [event] } := by
  refine ⟨⟨hd.running, hd.buffered.publish event⟩, ?_, hd.seen, hd.exact⟩
  show A2AKit.announced (d.published ++ [event]) = ctx.emitted
  rw [announced_concat, hevent, List.append_nil, hd.announced]

theorem wp_flushArtifacts (hT : TurnSetting T k) (vals : List (ArtifactWrite Artifact))
    (hw : TurnOpen T init ctx w.data) :
    (TaskContext.flushArtifacts k taskId).wp T.system (StaysOpen T init vals ctx) ctx w := by
  refine Act.wp_bind (wp_takePending (kept_turnOpen hT) hw fun w hw => ?_)
  refine Act.wp_bind (Act.wp_mono (wp_writeOrSkip hT vals { artifacts := ctx.pending }
    rfl rfl rfl hw) ?_)
  rintro (x | written) ctx' w ⟨hemitted, hw⟩
  · exact ⟨hemitted, hw⟩
  · cases written with
    | true =>
      exact wp_touchFlush (kept_turnOpen hT) hw fun n w hw => ⟨hemitted, hw.flushed n⟩
    | false => exact wp_return (kept_turnOpen hT) hw fun w hw => ⟨hemitted, hw⟩

theorem wp_maybeFlush (hT : TurnSetting T k) (vals : List (ArtifactWrite Artifact))
    (hw : TurnOpen T init ctx w.data) :
    (TaskContext.maybeFlush k taskId).wp T.system (StaysOpen T init vals ctx) ctx w := by
  refine Act.wp_bind (wp_get (kept_turnOpen hT) hw fun w hw => ?_)
  dsimp only
  split
  · exact wp_return (kept_turnOpen hT) hw fun w hw => ⟨rfl, hw⟩
  · refine Act.wp_bind (wp_ask (kept_turnOpen hT) hw (fun _ _ => trivial) (fun _ => ⟨_, rfl⟩) ?_)
    intro now w hw
    dsimp only
    split
    · exact wp_flushArtifacts hT vals hw
    · exact wp_return (kept_turnOpen hT) hw fun w hw => ⟨rfl, hw⟩

theorem wp_emitStatus_open (hT : TurnSetting T k) (vals : List (ArtifactWrite Artifact))
    (state : TaskState) (message : Option Message) (hw : TurnOpen T init ctx w.data) :
    (TaskContext.emitStatus taskId contextId false state message false).wp T.system
      (StaysOpen T init vals ctx) ctx w :=
  wp_emitStatus false state message false (kept_turnOpen hT) hw
    (fun _ _ hevent hd => hd.publish hevent) (fun _ hw => ⟨rfl, hw⟩)
    fun _ _ hw hi => ⟨rfl, hw.toTurnHeld.raised fun _ => hi⟩

/-- `_make_agent_message`, whatever `uuid4` answers. -/
theorem wp_agentMessage {J : TaskData → Prop}
    {Q : Except Exc Message → TaskContext → World → Prop} (parts : List Part) (hJ : Kept T J)
    (hw : J w.data)
    (hQ : ∀ messageId w, J w.data → Q (.ok
      { role := .agent, parts, messageId, taskId, contextId := contextId.getD "" }) ctx w) :
    (TaskContext.makeAgentMessage taskId contextId parts).wp T.system Q ctx w := by
  refine Act.wp_bind (wp_ask hJ hw (fun _ _ => trivial) (fun _ => ⟨_, rfl⟩) ?_)
  exact fun messageId w hw => wp_return hJ hw (hQ messageId)

theorem wp_makeAgentMessage {J : TaskData → Prop}
    {Q : Except Exc Message → TaskContext → World → Prop} (parts : List Part) (hJ : Kept T J)
    (hw : J w.data) (hQ : ∀ message w, J w.data → Q (.ok message) ctx w) :
    (TaskContext.makeAgentMessage taskId contextId parts).wp T.system Q ctx w :=
  wp_agentMessage parts hJ hw fun _ => hQ _

/-- `send_status` -/
theorem wp_sendStatus (hT : TurnSetting T k) (message : Option String)
    (hw : TurnOpen T init ctx w.data) :
    (TaskContext.sendStatus k taskId contextId message).wp T.system (StaysOpen T init vals ctx)
      ctx w := by
  refine Act.wp_bind (wp_get (kept_turnOpen hT) hw fun w hw => ?_)
  dsimp only
  split
  · exact wp_return (kept_turnOpen hT) hw fun w hw => ⟨rfl, hw⟩
  cases message with
  | none => exact wp_emitStatus_open hT vals _ _ hw
  | some text =>
    refine Act.wp_bind (wp_makeAgentMessage _ (kept_turnOpen hT) hw fun statusMsg w hw => ?_)
    refine Act.wp_bind (wp_takePending (kept_turnOpen hT) hw fun w hw => ?_)
    refine Act.wp_bind (Act.wp_mono (wp_writeOrSkip hT vals
      { statusMessage := some statusMsg, artifacts := ctx.pending } rfl rfl rfl hw) ?_)
    rintro (x | written) ctx' w ⟨hemitted, hw⟩
    · exact ⟨hemitted, hw⟩
    · cases written with
      | false => exact wp_return (kept_turnOpen hT) hw fun w hw => ⟨hemitted, hw⟩
      | true =>
        refine Act.wp_bind (wp_touchFlush (kept_turnOpen hT) hw fun n _ hw => ?_)
        refine Act.wp_mono (wp_emitStatus_open hT vals _ _ (hw.flushed n)) ?_
        exact fun r ctx'' w hw => ⟨hw.1.trans hemitted, hw.2⟩

/-- The data after a new artifact object. -/
def TaskData.alloc (d : TaskData) (artifact : Artifact) : TaskData :=
  { d with heap := Function.update d.heap d.next artifact, next := d.next + 1 }

/-- A new object that is not yet in the buffer `ws`. -/
structure NewArtifact (ws : List (ArtifactWrite Ref)) (r : Ref) (artifact : Artifact)
    (d : TaskData) : Prop where
  unused : r ∉ refs ws
  allocated : r < d.next
  reads : d.heap r = artifact

theorem kept_newArtifact {ws : List (ArtifactWrite Ref)} {r : Ref} {artifact : Artifact} :
    Kept T (NewArtifact ws r artifact) := fun d d' hstep hd =>
  ⟨hd.unused, kept_heap (P := fun _ next => r < next) d d' hstep hd.allocated,
    kept_heap (P := fun h _ => h r = artifact) d d' hstep hd.reads⟩

theorem Buffered.alloc {es : List (ArtifactWrite Artifact)} {ws : List (ArtifactWrite Ref)}
    (hd : Buffered T init es ws d) (artifact : Artifact) :
    Buffered T init es ws (d.alloc artifact) ∧ NewArtifact ws d.next artifact (d.alloc artifact) := by
  have hsame : ∀ r ∈ refs ws, Function.update d.heap d.next artifact r = d.heap r := by
    intro r hr
    exact Function.update_of_ne (ne_of_lt (hd.fresh r hr)) _ _
  refine ⟨⟨hd.nodup, fun r hr => ?_, hd.live, fun row hrow => ?_⟩, ⟨fun hr => ?_, ?_, ?_⟩⟩
  · exact Nat.lt_succ_of_lt (hd.fresh r hr)
  · show applyWrites row.task.artifacts (resolve (Function.update d.heap d.next artifact) ws) = _
    rw [resolve_congr hsame]
    exact hd.stored row hrow
  · exact lt_irrefl _ (hd.fresh _ hr)
  · exact Nat.lt_succ_self _
  · exact Function.update_self ..

theorem TurnOpen.alloc (hd : TurnOpen T init ctx d) (artifact : Artifact) :
    TurnOpen T init ctx (d.alloc artifact) :=
  ⟨⟨hd.running, (hd.buffered.alloc artifact).1⟩, hd.announced, hd.seen, hd.exact⟩

theorem wp_newArtifact (hT : TurnSetting T k)
    {Q : Except Exc Ref → TaskContext → World → Prop} (artifact : Artifact)
    (hw : TurnOpen T init ctx w.data)
    (hQ : ∀ r w, TurnOpen T init ctx w.data → NewArtifact ctx.pending r artifact w.data →
      Q (.ok r) ctx w) :
    (Act.perform (.newArtifact artifact) : TurnM Ref).wp T.system Q ctx w := by
  refine wp_op (kept_turnOpen hT) hw
    (K := fun r d => TurnOpen T init ctx d ∧ NewArtifact ctx.pending r artifact d)
    (fun r => (kept_turnOpen hT).and kept_newArtifact) (fun _ _ => trivial) ?_
    fun r w hw => hQ r w hw.1 hw.2
  intro w w' r hw _ hperf
  simp only [World.perform, Option.some_inj, Prod.mk.injEq] at hperf
  obtain ⟨rfl, rfl⟩ := hperf
  exact ⟨hw.alloc artifact, (hw.buffered.alloc artifact).2⟩

/-- The turn once a chunk is published and buffered. -/
theorem TurnOpen.emit (hd : TurnOpen T init ctx d) {r : Ref} {artifact : Artifact}
    (hr : NewArtifact ctx.pending r artifact d) (taskId : TaskId) (contextId : ContextId)
    (append lastChunk : Bool) :
    TurnOpen T init
      { ctx with
        pending := ctx.pending ++ [⟨r, append⟩]
        emitted := ctx.emitted ++ [⟨artifact, append⟩] }
      { d with published := d.published ++
        [StreamEvent.read d.heap (.artifactUpdate taskId contextId r append lastChunk)] } := by
  refine ⟨⟨hd.running, ?_, ?_, hd.buffered.live, ?_⟩, ?_, hd.seen, hd.exact⟩
  · rw [refs_append]
    refine List.nodup_append.mpr ⟨hd.buffered.nodup, by simp [refs], ?_⟩
    intro q hq q' hq' heq
    obtain rfl : q' = r := by simpa [refs] using hq'
    exact hr.unused (heq ▸ hq)
  · intro q hq
    rw [refs_append, List.mem_append] at hq
    rcases hq with hq | hq
    · exact hd.buffered.fresh q hq
    · obtain rfl : q = r := by simpa [refs] using hq
      exact hr.allocated
  · intro row hrow
    show applyWrites row.task.artifacts (resolve d.heap (ctx.pending ++ [⟨r, append⟩])) = _
    rw [resolve_append, applyWrites_append, hd.buffered.stored row hrow, applyWrites_append,
      resolve_cons, resolve_nil, hr.reads]
  · show A2AKit.announced (d.published ++ [_]) = _
    rw [announced_concat, hd.announced, StreamEvent.read, StreamEvent.writes, hr.reads]

/-- `emit_artifact` -/
theorem wp_emitArtifact (hT : TurnSetting T k) (a : EmitArgs) (hw : TurnOpen T init ctx w.data) :
    (TaskContext.emitArtifact k taskId contextId a).wp T.system
      (CallEnds T init (TurnOpen T init) vals [⟨a.artifact, a.append⟩] ctx) ctx w := by
  refine Act.wp_bind (wp_get (kept_turnOpen hT) hw fun w hw => ?_)
  dsimp only
  rw [if_neg (by simp [hw.running])]
  split
  · exact wp_raise (kept_turnOpen hT) hw fun w hw =>
      ⟨Or.inl rfl, hw.toTurnHeld.raised fun h => nomatch h⟩
  refine Act.wp_bind (wp_newArtifact hT a.artifact hw fun r w hw hr => ?_)
  refine Act.wp_bind (wp_sendEvent false _ ((kept_turnOpen hT).and kept_newArtifact) ⟨hw, hr⟩
    ((kept_turnHeld hT).and (kept_turnOpen hT))
    (fun d hd => ⟨⟨hd.1.running, hd.1.buffered.publish _⟩, hd.1.emit hd.2 taskId _ _ _⟩) ?_ ?_)
  · intro w hw
    refine Act.wp_bind (wp_modify (kept_turnOpen hT) hw.2 fun w hw => ?_)
    refine Act.wp_mono (wp_maybeFlush hT vals hw) ?_
    rintro (x | _) ctx' w ⟨hemitted, hw⟩
    · exact ⟨Or.inr hemitted, hw⟩
    · exact ⟨hemitted, hw⟩
  · intro _ w hw hi
    exact ⟨Or.inl rfl, hw.1.raised fun _ => hi⟩

/-- The events before the final one: what they announce is what they read as. -/
theorem wp_sendEvents {h : Heap} {es fs : List (ArtifactWrite Artifact)}
    {Q : Except Exc Unit → TaskContext → World → Prop} (hT : TurnSetting T k)
    (events : List (StreamEvent Ref))
    (hw : (w.data.heap = h ∧ w.data.Stored init es) ∧ announced w.data.published = fs)
    (hQ : ∀ w : World, w.data.Stored init es →
      announced w.data.published = fs ++ announced (events.map (StreamEvent.read h)) →
      Q (.ok ()) ctx w) :
    (TaskContext.sendEvents events).wp T.system Q ctx w := by
  have hkept : Kept T fun d => d.heap = h ∧ d.Stored init es :=
    (kept_heap (P := fun h' _ => h' = h)).and (kept_stored hT)
  induction events generalizing w fs with
  | nil =>
    exact wp_return (hkept.and kept_announced) hw fun w hw =>
      hQ w hw.1.2 (by simpa [announced] using hw.2)
  | cons event events ih =>
    refine Act.wp_bind (wp_sendEvent true event (hkept.and kept_announced) hw
      (K := fun d => (d.heap = h ∧ d.Stored init es) ∧
        announced d.published = fs ++ (event.read h).writes)
      (hkept.and kept_announced) ?_ (fun w hw => ?_) fun hfalse => nomatch hfalse)
    · intro d hd
      refine ⟨hd.1, ?_⟩
      show announced (d.published ++ [event.read d.heap]) = _
      rw [announced_concat, hd.2, hd.1.1]
    · refine ih hw fun w hstored hann => hQ w hstored ?_
      rw [hann]
      simp [announced]

theorem wp_emitStatus_done {Q : Except Exc Unit → TaskContext → World → Prop}
    (hT : TurnSetting T k) (state : TaskState) (message : Option Message) (final : Bool)
    (hw : TurnDone init vals ctx w.data)
    (hQ : ∀ w, TurnDone init vals ctx w.data → Q (.ok ()) ctx w) :
    (TaskContext.emitStatus taskId contextId true state message final).wp T.system Q ctx w := by
  refine wp_emitStatus true state message final (kept_turnDone hT) hw ?_ hQ fun h => nomatch h
  intro d event hevent hd
  refine ⟨hd.finished, hd.stored, ?_⟩
  show announced (d.published ++ [event]) = _
  rw [announced_concat, hevent, List.append_nil, hd.announced]

/-- `_terminal_transition` -/
theorem wp_terminalTransition (hT : TurnSetting T k) (state : TaskState)
    (message : Option Message) (own : List (ArtifactWrite Ref)) (taskMetadata : TaskMetadata)
    (preEvents : List (StreamEvent Ref)) (hstate : vals ≠ [] → state = .completed)
    (hpre : ∀ h, announced (preEvents.map (StreamEvent.read h)) = resolve h own)
    (hw : TurnOpen T init ctx w.data) (hown : OwnWrites ctx.pending own vals w.data) :
    (TaskContext.terminalTransition k taskId contextId state message own taskMetadata
      preEvents).wp T.system (CallEnds T init (TurnDone init vals) vals [] ctx) ctx w := by
  have hkept : Kept T fun d => TurnOpen T init ctx d ∧ OwnWrites ctx.pending own vals d :=
    (kept_turnOpen hT).and kept_ownWrites
  refine Act.wp_bind (wp_get hkept ⟨hw, hown⟩ fun w hw => ?_)
  have hrunning : ctx.turnEnded = false := hw.1.running
  dsimp only
  rw [if_neg (by simp [hrunning])]
  refine Act.wp_bind (wp_takePending hkept hw fun w hw => ?_)
  have hpending : Pending T init ctx.emitted ctx.pending own vals ctx.version w.data :=
    ⟨hw.1.buffered, hw.2, hw.1.announced, hw.1.seen, hw.1.exact⟩
  refine Act.wp_bind (Act.wp_tryCatch (Act.wp_mono (wp_versionedUpdate hT
    { state := some state, artifacts := ctx.pending ++ own, statusMessage := message,
      messages := message.toList, taskMetadata } rfl (fun h => by rw [hstate h]) hpending) ?_))
  rintro (x | _) ctx' w hw
  · obtain ⟨rfl, hw⟩ := hw
    refine Act.wp_bind (wp_modify (kept_raised hT _ _) hw fun w hw => ?_)
    refine wp_raise (kept_raised hT _ _) hw fun w hw => ⟨Or.inl rfl, ?_⟩
    exact hw.turnRaised hrunning rfl fun _ => rfl
  · obtain ⟨n, rfl, hw⟩ := hw
    refine Act.wp_bind (wp_modify (kept_committed hT _ _) hw fun w hw => ?_)
    refine Act.wp_bind (wp_sendEvents hT preEvents
      ⟨⟨rfl, hw.stored⟩, hw.announced⟩ fun w' hstored hann => ?_)
    rw [hpre, hw.reads] at hann
    exact wp_emitStatus_done hT state message _ ⟨rfl, hstored, hann⟩ fun w hw => ⟨by simp, hw⟩

end

/-- The write of the artifact that a lifecycle call adds. -/
def Lifecycle.ownWrites (l : Lifecycle) : List (ArtifactWrite Artifact) :=
  (l.ownArtifact.map (⟨·, false⟩)).toList

section

variable {T : Setting} {k : StorageKind} {taskId : TaskId} {contextId : Option ContextId}
  {init : List Artifact} {vals new : List (ArtifactWrite Artifact)} {ctx : TaskContext} {w : World}
  {d : TaskData}

/-- A lifecycle call without an artifact. -/
theorem wp_transition_plain (hT : TurnSetting T k) (state : TaskState) (message : Option Message)
    (taskMetadata : TaskMetadata) (preEvents : List (StreamEvent Ref))
    (hpre : ∀ h, announced (preEvents.map (StreamEvent.read h)) = [])
    (hw : TurnOpen T init ctx w.data) :
    (TaskContext.terminalTransition k taskId contextId state message [] taskMetadata
      preEvents).wp T.system (CallEnds T init (TurnDone init []) [] [] ctx) ctx w :=
  wp_terminalTransition hT state message [] taskMetadata preEvents (fun h => absurd rfl h) hpre hw
    ⟨by simpa using hw.buffered.nodup, rfl, Or.inl rfl⟩

theorem wp_endWithMessage (hT : TurnSetting T k) (state : TaskState) (parts : List Part)
    (hw : TurnOpen T init ctx w.data) :
    (TaskContext.endWithMessage k taskId contextId state parts).wp T.system
      (CallEnds T init (TurnDone init []) [] [] ctx) ctx w := by
  refine Act.wp_bind (wp_makeAgentMessage _ (kept_turnOpen hT) hw fun message w hw => ?_)
  exact wp_transition_plain hT state (some message) {} [] (fun _ => rfl) hw

theorem wp_completeWith (hT : TurnSetting T k) (artifact : Artifact)
    (hw : TurnOpen T init ctx w.data) :
    (TaskContext.completeWith k taskId contextId artifact).wp T.system
      (CallEnds T init (TurnDone init [⟨artifact, false⟩]) [⟨artifact, false⟩] [] ctx) ctx w := by
  refine Act.wp_bind (wp_newArtifact hT artifact hw fun r w hw hr => ?_)
  refine wp_terminalTransition hT .completed none [⟨r, false⟩] {} _ (fun _ => rfl) (fun h => rfl)
    hw ⟨?_, ?_, Or.inr ⟨r, rfl⟩⟩
  · rw [refs_append]
    refine List.nodup_append.mpr ⟨hw.buffered.nodup, by simp [refs], ?_⟩
    intro q hq q' hq' heq
    obtain rfl : q' = r := by simpa [refs] using hq'
    exact hr.unused (heq ▸ hq)
  · simp [hr.reads]

/-- A lifecycle call. -/
theorem wp_runLifecycle (hT : TurnSetting T k) (l : Lifecycle) (hw : TurnOpen T init ctx w.data) :
    (TaskContext.runLifecycle k taskId contextId l).wp T.system
      (CallEnds T init (TurnDone init l.ownWrites) l.ownWrites [] ctx) ctx w := by
  cases l with
  | complete text artifactId =>
    cases text with
    | none => exact wp_transition_plain hT .completed none {} [] (fun _ => rfl) hw
    | some text => exact wp_completeWith hT _ hw
  | completeJson data artifactId => exact wp_completeWith hT _ hw
  | fail reason => exact wp_endWithMessage hT _ _ hw
  | reject reason => exact wp_endWithMessage hT _ _ hw
  | requestInput question => exact wp_endWithMessage hT _ _ hw
  | requestAuth details authData => exact wp_endWithMessage hT _ _ hw
  | respond text => exact wp_endWithMessage hT _ _ hw
  | replyDirectly text =>
    refine Act.wp_bind (wp_makeAgentMessage _ (kept_turnOpen hT) hw fun message w hw => ?_)
    exact wp_transition_plain hT .completed (some message) _ _ (fun _ => rfl) hw

/-! ### After the turn has ended -/

/-- A call after the end of the turn changes nothing. -/
def StaysDone (T : Setting) (init : List Artifact) (vals : List (ArtifactWrite Artifact))
    (ctx : TaskContext) (r : Except Exc Unit) (ctx' : TaskContext) (w : World) : Prop :=
  ctx' = ctx ∧ match r with
    | .ok _ => TurnDone init vals ctx' w.data
    | .error x => TurnRaised T init vals x ctx' w.data

theorem wp_terminalTransition_done (hT : TurnSetting T k) (state : TaskState)
    (message : Option Message) (own : List (ArtifactWrite Ref)) (taskMetadata : TaskMetadata)
    (preEvents : List (StreamEvent Ref)) (hw : TurnDone init vals ctx w.data) :
    (TaskContext.terminalTransition k taskId contextId state message own taskMetadata
      preEvents).wp T.system (StaysDone T init vals ctx) ctx w := by
  refine Act.wp_bind (wp_get (kept_turnDone hT) hw fun w hw => ?_)
  dsimp only
  rw [if_pos hw.finished]
  exact wp_raise (kept_turnDone hT) hw fun w hw => ⟨rfl, hw.raised fun h => nomatch h⟩

theorem wp_endWithMessage_done (hT : TurnSetting T k) (state : TaskState) (parts : List Part)
    (hw : TurnDone init vals ctx w.data) :
    (TaskContext.endWithMessage k taskId contextId state parts).wp T.system
      (StaysDone T init vals ctx) ctx w := by
  refine Act.wp_bind (wp_makeAgentMessage _ (kept_turnDone hT) hw fun message w hw => ?_)
  exact wp_terminalTransition_done hT _ _ _ _ _ hw

theorem wp_completeWith_done (hT : TurnSetting T k) (artifact : Artifact)
    (hw : TurnDone init vals ctx w.data) :
    (TaskContext.completeWith k taskId contextId artifact).wp T.system
      (StaysDone T init vals ctx) ctx w := by
  refine Act.wp_bind (wp_op (kept_turnDone hT) hw (K := fun _ => TurnDone init vals ctx)
    (fun _ => kept_turnDone hT) (fun _ _ => trivial) ?_ ?_)
  · intro w w' r hw _ hperf
    simp only [World.perform, Option.some_inj, Prod.mk.injEq] at hperf
    obtain ⟨rfl, rfl⟩ := hperf
    exact ⟨hw.finished, hw.stored, hw.announced⟩
  · exact fun r w hw => wp_terminalTransition_done hT _ _ _ _ _ hw

theorem wp_runCall_done (hT : TurnSetting T k) (c : HandlerCall)
    (hw : TurnDone init vals ctx w.data) :
    (TaskContext.runCall k taskId contextId c).wp T.system (StaysDone T init vals ctx) ctx w := by
  cases c with
  | wait =>
    exact wp_checkpoint_plain (kept_turnDone hT) hw (fun w hw => ⟨rfl, hw⟩)
      fun w hw hi => ⟨rfl, hw.raised fun _ => hi⟩
  | emitArtifact a =>
    refine Act.wp_bind (wp_get (kept_turnDone hT) hw fun w hw => ?_)
    dsimp only
    rw [if_pos hw.finished]
    exact wp_return (kept_turnDone hT) hw fun w hw => ⟨rfl, hw⟩
  | sendStatus message =>
    refine Act.wp_bind (wp_get (kept_turnDone hT) hw fun w hw => ?_)
    dsimp only
    rw [if_pos hw.finished]
    exact wp_return (kept_turnDone hT) hw fun w hw => ⟨rfl, hw⟩
  | lifecycle l =>
    cases l with
    | complete text artifactId =>
      cases text with
      | none => exact wp_terminalTransition_done hT _ _ _ _ _ hw
      | some text => exact wp_completeWith_done hT _ hw
    | completeJson data artifactId => exact wp_completeWith_done hT _ hw
    | fail reason => exact wp_endWithMessage_done hT _ _ hw
    | reject reason => exact wp_endWithMessage_done hT _ _ hw
    | requestInput question => exact wp_endWithMessage_done hT _ _ hw
    | requestAuth details authData => exact wp_endWithMessage_done hT _ _ hw
    | respond text => exact wp_endWithMessage_done hT _ _ hw
    | replyDirectly text =>
      refine Act.wp_bind (wp_makeAgentMessage _ (kept_turnDone hT) hw fun message w hw => ?_)
      exact wp_terminalTransition_done hT _ _ _ _ _ hw

theorem wp_runHandler_done (hT : TurnSetting T k) (cs : List HandlerCall)
    (hw : TurnDone init vals ctx w.data) :
    (TaskContext.runHandler k taskId contextId cs).wp T.system (StaysDone T init vals ctx) ctx w := by
  induction cs generalizing w with
  | nil => exact wp_return (kept_turnDone hT) hw fun w hw => ⟨rfl, hw⟩
  | cons c cs ih =>
    refine Act.wp_bind (Act.wp_mono (wp_runCall_done hT c hw) ?_)
    rintro (x | _) ctx' w ⟨rfl, hw'⟩
    · exact ⟨rfl, hw'⟩
    · exact ih hw'

end

/-! ### A handler -/

def HandlerCall.isLifecycle : HandlerCall → Bool
  | .lifecycle _ => true
  | _ => false

/-- What a call buffers. -/
def HandlerCall.writes : HandlerCall → List (ArtifactWrite Artifact)
  | .emitArtifact a => [⟨a.artifact, a.append⟩]
  | _ => []

/-- The writes that a handler buffers before it ends its turn. -/
def emittedBy : List HandlerCall → List (ArtifactWrite Artifact)
  | [] => []
  | c :: cs => if c.isLifecycle then [] else c.writes ++ emittedBy cs

/-- The artifact of the call that ends the turn. -/
def ownArtifacts : List HandlerCall → List (ArtifactWrite Artifact)
  | [] => []
  | .lifecycle l :: _ => l.ownWrites
  | _ :: cs => ownArtifacts cs

/-- How a handler ends. -/
def HandlerEnds (T : Setting) (init : List Artifact) (cs : List HandlerCall) (ctx : TaskContext)
    (r : Except Exc Unit) (ctx' : TaskContext) (w : World) : Prop :=
  match r with
  | .ok _ => ctx'.emitted = ctx.emitted ++ emittedBy cs ∧
    (cs.any HandlerCall.isLifecycle = false ∧ TurnOpen T init ctx' w.data ∨
      TurnDone init (ownArtifacts cs) ctx' w.data)
  | .error x => ctx'.emitted <+: ctx.emitted ++ emittedBy cs ∧
    TurnRaised T init (ownArtifacts cs) x ctx' w.data

section

variable {T : Setting} {k : StorageKind} {taskId : TaskId} {contextId : Option ContextId}
  {init : List Artifact} {ctx : TaskContext} {w : World}

theorem StaysOpen.callEnds {vals : List (ArtifactWrite Artifact)} {r : Except Exc Unit}
    {ctx' : TaskContext} (h : StaysOpen T init vals ctx r ctx' w) :
    CallEnds T init (TurnOpen T init) vals [] ctx r ctx' w := by
  rcases r with x | _
  · exact ⟨Or.inl h.1, h.2⟩
  · exact ⟨by simpa using h.1, h.2⟩

/-- A call that does not end the turn. -/
theorem wp_runCall (hT : TurnSetting T k) (vals : List (ArtifactWrite Artifact)) {c : HandlerCall}
    (hc : c.isLifecycle = false) (hw : TurnOpen T init ctx w.data) :
    (TaskContext.runCall k taskId contextId c).wp T.system
      (CallEnds T init (TurnOpen T init) vals c.writes ctx) ctx w := by
  cases c with
  | emitArtifact a => exact wp_emitArtifact hT a hw
  | sendStatus message =>
    exact Act.wp_mono (wp_sendStatus hT message hw) fun _ _ _ h => h.callEnds
  | wait =>
    exact wp_checkpoint_plain (kept_turnOpen hT) hw (fun w hw => ⟨by simp [HandlerCall.writes], hw⟩)
      fun w hw hi => ⟨Or.inl rfl, hw.toTurnHeld.raised fun _ => hi⟩
  | lifecycle l => exact nomatch hc

/-- A handler, call by call. -/
theorem wp_runHandler (hT : TurnSetting T k) (cs : List HandlerCall)
    (hw : TurnOpen T init ctx w.data) :
    (TaskContext.runHandler k taskId contextId cs).wp T.system (HandlerEnds T init cs ctx) ctx w := by
  induction cs generalizing ctx w with
  | nil =>
    exact wp_return (kept_turnOpen hT) hw fun w hw => ⟨by simp [emittedBy], Or.inl ⟨rfl, hw⟩⟩
  | cons c cs ih =>
    cases hc : c.isLifecycle with
    | false =>
      -- a call that does not end the turn: the rest of the handler goes on from what it leaves
      have hnew : ctx.emitted ++ emittedBy (c :: cs) = (ctx.emitted ++ c.writes) ++ emittedBy cs := by
        simp [emittedBy, hc]
      have hown : ownArtifacts (c :: cs) = ownArtifacts cs := by
        cases c with
        | lifecycle l => exact nomatch hc
        | emitArtifact a => rfl
        | sendStatus message => rfl
        | wait => rfl
      refine Act.wp_bind (Act.wp_mono (wp_runCall hT (ownArtifacts cs) hc hw) ?_)
      rintro (x | _) ctx₁ w ⟨hemitted, hw⟩
      · refine ⟨?_, by rw [hown]; exact hw⟩
        rw [hnew]
        rcases hemitted with he | he
        · rw [he, List.append_assoc]
          exact List.prefix_append _ _
        · rw [he]
          exact List.prefix_append _ _
      · refine Act.wp_mono (ih hw) ?_
        rintro (x | _) ctx₂ w ⟨hemitted', hw⟩
        · refine ⟨?_, by rw [hown]; exact hw⟩
          rw [hnew, ← hemitted]
          exact hemitted'
        · rw [HandlerEnds, hnew, ← hemitted, hown, List.any_cons, hc, Bool.false_or]
          exact ⟨hemitted', hw⟩
    | true =>
      -- after the end of the turn the rest of the handler writes nothing
      obtain ⟨l, rfl⟩ : ∃ l, c = .lifecycle l := by
        cases c with
        | lifecycle l => exact ⟨l, rfl⟩
        | emitArtifact a => exact nomatch hc
        | sendStatus message => exact nomatch hc
        | wait => exact nomatch hc
      refine Act.wp_bind (Act.wp_mono (wp_runLifecycle hT l hw) ?_)
      rintro (x | _) ctx₁ w ⟨hemitted, hw⟩
      · refine ⟨?_, hw⟩
        simp only [List.append_nil, or_self] at hemitted
        rw [hemitted]
        exact List.prefix_append _ _
      · refine Act.wp_mono (wp_runHandler_done hT cs hw) ?_
        rintro (x | _) ctx₂ w ⟨rfl, hw'⟩
        · refine ⟨?_, hw'⟩
          rw [hemitted, List.append_nil]
          exact List.prefix_append _ _
        · exact ⟨by rw [hemitted]; rfl, Or.inr hw'⟩

end

end A2AKit
