/-
When the calls of the middlewares are paired.

* `rest_paired`, `rpc_paired` — for each route and each method, when the log of a request is
  paired;
* `paired_iff` — both, for every request.
-/
import A2AKit.MiddlewareCalls

namespace A2AKit

variable {α : Type} {F : HttpEvent → Fate} {s : StartedLists} {n : Nat}

namespace Endpoints

variable {v : ProtocolVersion} {app : AppState} {r : RestRequest}

/-- The request comes to the pipeline of `message_send`. -/
def SendReached (F : HttpEvent → Fate) (v : ProtocolVersion) (app : AppState)
    (r : RestRequest) : Prop :=
  r.hasMessageId = true ∧ app.taskManager = true ∧ Converts F v

/-- The pipeline of `message_send` comes to a release loop: it is not cancelled, and the result
converts. -/
def SendReleases (F : HttpEvent → Fate) (v : ProtocolVersion) (n : Nat) : Prop :=
  submitted F .sendMessage n = .raises ∨
    submitted F .sendMessage n = .returns ∧
      (v = .v03 → F (.point .convertResult) = .returns)

instance (n : Nat) : Decidable (SendReleases F v n) := inferInstanceAs (Decidable (_ ∨ _))

theorem messageSend_leaves (hs : s.inner = []) (hreach : SendReached F v app r) :
    Leaves F (messageSend v app r) s (dispatched F .inner (List.range app.middlewares))
      (entered F .inner (List.range app.middlewares))
      (if SendReleases F v app.middlewares then releasedInner F app.middlewares
        else []) := by
  obtain ⟨hid, htm, hconv⟩ := hreach
  unfold messageSend
  rw [if_neg (by rw [hid]; exact Bool.noConfusion)]
  refine .after (silent_raiseUnless htm) (.after (silent_convertParams hconv) ?_)
  have hunary := unary_leaves (F := F) (n := app.middlewares) (s := s) hs
    (A := if v = .v03 → F (.point .convertResult) = .returns then
      releasedInner F app.middlewares else [])
    (f := fun _ => do
      convertResult v
      releaseStarted .inner
      syncCall .render
      return Reply.result) fun hsub => ?_
  · have heq : releasedAfter F app.middlewares
        (if v = .v03 → F (.point .convertResult) = .returns then
          releasedInner F app.middlewares else []) (submitted F .sendMessage app.middlewares) =
        if SendReleases F v app.middlewares then releasedInner F app.middlewares else [] := by
      cases hsub : submitted F .sendMessage app.middlewares with
      | returns => simp [SendReleases, releasedAfter, hsub]
      | raises => simp [SendReleases, releasedAfter, hsub]
      | cancelled => simp [SendReleases, releasedAfter, hsub]
    rw [← heq]
    exact hunary
  · have hok := inner_returns (s := s) hsub
    split
    · rename_i hconvert
      have hresult : Silent F (convertResult v) (.ok ()) := by
        cases v with
        | v03 =>
          have h := silent_sync (F := F) .convertResult
          rwa [if_pos (hconvert rfl)] at h
        | v10 => exact fun _ => .pure
      refine hok.bind (.after hresult (leaves_released hs fun _ => ?_))
      exact (Mute.sync _).bind fun _ => Mute.pure _
    · -- the result does not convert, and nobody is released
      rename_i hconvert
      cases v with
      | v03 =>
        have hraises : F (.point .convertResult) ≠ .returns := fun h => hconvert fun _ => h
        have hresult := silent_sync (F := F) .convertResult
        rw [if_neg hraises] at hresult
        exact hok.bind (Adds.bind_error (hresult _)).leaves
      | v10 => exact (hconvert fun h => by cases h).elim

theorem mute_messageSend (hreach : ¬ SendReached F v app r) :
    Mute F (messageSend v app r) := by
  unfold messageSend
  split
  · cases v with
    | v03 => exact Mute.throw _
    | v10 => exact Mute.pure _
  rename_i hid
  have hid : r.hasMessageId = true := eq_true_of_ne_false hid
  cases htm : app.taskManager with
  | false => exact raiseUnless_bind_of_false rfl
  | true =>
    have hconv : ¬ Converts F v := fun hconv => hreach ⟨hid, htm, hconv⟩
    exact (mute_raiseUnless _).bind fun _ => convertParams_bind_of_not hconv

/-- The request comes to the pipeline of `_stream_setup`. -/
def StreamReached (F : HttpEvent → Fate) (v : ProtocolVersion) (app : AppState)
    (r : RestRequest) : Prop :=
  app.streaming = true ∧ r.hasMessageId = true ∧ app.taskManager = true ∧ Converts F v

theorem mute_eventStream : Mute F eventStream :=
  (Mute.orError ((Mute.point _).bind fun _ => Mute.pure _)).bind fun _ => Mute.pure _

theorem mute_firstEvent (op : ServerOperation) : Mute F (firstEvent op) :=
  (Mute.operation op).exceptBaseException (Mute.point _)

theorem streamSetup_leaves (hs : s.inner = []) (hreach : StreamReached F v app r) :
    Leaves F (streamSetup v app r eventStream) s
      (dispatched F .inner (List.range app.middlewares))
      (entered F .inner (List.range app.middlewares)) (releasedInner F app.middlewares) := by
  obtain ⟨hstreaming, hid, htm, hconv⟩ := hreach
  unfold streamSetup
  refine .after (silent_raiseUnless hstreaming) (.after (silent_raiseUnless hid)
    (.after (silent_raiseUnless htm) (.after (silent_convertParams hconv) ?_)))
  obtain ⟨x, hop⟩ := mute_firstEvent (F := F) .streamMessage
  have h := inner_submission (n := app.middlewares) (s := s) hop
  generalize (if AllStart F .inner app.middlewares then x
    else (firstFate F ((List.range app.middlewares).map (.before .inner))).result) = y at h
  cases y with
  | error e =>
    obtain ⟨e', he'⟩ := h.exceptBaseException hs
    exact (Adds.bind_error he').leaves
  | ok _ =>
    have hok : Inner F (exceptBaseException (do
        beforeDispatch .inner (List.range app.middlewares)
        firstEvent .streamMessage) (releaseStarted .inner)) s app.middlewares [] (.ok ()) :=
      h.tryCatch
    refine hok.bind ?_
    obtain ⟨r₁, h₁⟩ := mute_eventStream (F := F)
    obtain ⟨r₂, h₂⟩ := Mute.point (F := F) .closeEvents
    obtain ⟨x₃, h₃⟩ := adds_releaseInner (F := F) (n := app.middlewares) hs
    obtain ⟨r₄, h₄⟩ := (h₂ _).ensure h₃
    obtain ⟨r₅, h₅⟩ := (h₁ _).ensure h₄
    exact h₅.leaves

theorem mute_streamSetup (hreach : ¬ StreamReached F v app r) :
    Mute F (streamSetup v app r eventStream) := by
  unfold streamSetup
  cases hstreaming : app.streaming with
  | false => exact raiseUnless_bind_of_false rfl
  | true =>
    refine (mute_raiseUnless _).bind fun _ => ?_
    cases hid : r.hasMessageId with
    | false => exact raiseUnless_bind_of_false rfl
    | true =>
      refine (mute_raiseUnless _).bind fun _ => ?_
      cases htm : app.taskManager with
      | false => exact raiseUnless_bind_of_false rfl
      | true =>
        have hconv : ¬ Converts F v := fun hconv => hreach ⟨hstreaming, hid, htm, hconv⟩
        exact (mute_raiseUnless _).bind fun _ => convertParams_bind_of_not hconv

theorem mute_operate (op : ServerOperation) : Mute F (operate op) :=
  (Mute.operation op).bind fun _ => (Mute.sync _).bind fun _ => Mute.pure _

theorem mute_pushConfig {op : HttpM Reply} (hop : Mute F op) :
    Mute F (pushConfig app op) :=
  (mute_raiseUnless _).bind fun _ => (mute_raiseUnless _).bind fun _ =>
    (mute_raiseUnless _).bind fun _ => hop

/-- The endpoint runs a pipeline of its own. -/
def InnerReached (F : HttpEvent → Fate) (v : ProtocolVersion) (app : AppState)
    (r : RestRequest) : Prop :=
  r.validParams = true ∧ (r.route = .messageSend ∧ SendReached F v app r ∨
    r.route = .messageStream ∧ StreamReached F v app r)

/-- The other endpoints call no middleware. -/
theorem mute_endpoint (hsend : r.route = .messageSend → ¬ SendReached F v app r)
    (hstream : r.route = .messageStream → ¬ StreamReached F v app r) :
    Mute F (endpoint v app r) := by
  unfold endpoint
  cases hroute : r.route with
  | messageSend => exact mute_messageSend (hsend hroute)
  | messageStream => exact mute_streamSetup (hstream hroute)
  | tasksGet => exact (mute_raiseUnless _).bind fun _ => mute_operate _
  | tasksList =>
    exact (mute_raiseUnless _).bind fun _ => Mute.ite (Mute.pure _) (mute_operate _)
  | tasksCancel => exact (mute_raiseUnless _).bind fun _ => mute_operate _
  | tasksSubscribe =>
    exact (mute_raiseUnless _).bind fun _ => (mute_raiseUnless _).bind fun _ =>
      (mute_firstEvent _).bind fun _ => mute_eventStream.ensure (Mute.point _)
  | pushConfigSet => exact mute_pushConfig ((Mute.point _).bind fun _ => mute_operate _)
  | pushConfigGetById => exact mute_pushConfig (mute_operate _)
  | pushConfigList => exact mute_pushConfig (mute_operate _)
  | pushConfigDelete => exact mute_pushConfig (mute_operate _)
  | card =>
    refine Mute.ite (mute_operate _) ?_
    cases v with
    | v03 => exact Mute.throw _
    | v10 => exact Mute.pure _
  | healthCheck => exact Mute.pure _
  | readinessCheck =>
    exact (Mute.orError ((Mute.point _).bind fun _ => Mute.pure _)).bind fun _ => Mute.pure _

theorem mute_sendResponse (reply : Reply) : Mute F (sendResponse reply) :=
  Mute.ite (Mute.pure _) ((Mute.point _).bind fun _ => Mute.pure _)

theorem mute_core (hreach : ¬ InnerReached F v app r) : Mute F (core v app r) := by
  unfold core
  cases hvalid : r.validParams with
  | false => exact raiseUnless_bind_of_false rfl
  | true =>
    refine (mute_raiseUnless _).bind fun _ => Mute.bind ?_ mute_sendResponse
    exact mute_endpoint (fun hroute hsend => hreach ⟨hvalid, Or.inl ⟨hroute, hsend⟩⟩)
      fun hroute hstream => hreach ⟨hvalid, Or.inr ⟨hroute, hstream⟩⟩

/-- The endpoint comes to the release loop of its pipeline. -/
def EndpointReleases (F : HttpEvent → Fate) (v : ProtocolVersion) (n : Nat) (r : RestRequest) :
    Prop :=
  r.route = .messageSend → SendReleases F v n

instance (n : Nat) : Decidable (EndpointReleases F v n r) :=
  inferInstanceAs (Decidable (_ → _))

theorem core_leaves (hs : s.inner = []) (hreach : InnerReached F v app r) :
    Leaves F (core v app r) s (dispatched F .inner (List.range app.middlewares))
      (entered F .inner (List.range app.middlewares))
      (if decide (EndpointReleases F v app.middlewares r) then
        releasedInner F app.middlewares else []) := by
  obtain ⟨hvalid, ⟨hroute, hsend⟩ | ⟨hroute, hstream⟩⟩ := hreach
  · refine .after (silent_raiseUnless hvalid) (Leaves.bind_mute ?_ mute_sendResponse)
    unfold endpoint
    rw [hroute]
    have h := messageSend_leaves hs hsend
    simpa [EndpointReleases, hroute] using h
  · refine .after (silent_raiseUnless hvalid) (Leaves.bind_mute ?_ mute_sendResponse)
    unfold endpoint
    rw [hroute]
    have h := streamSetup_leaves hs hstream
    simpa [EndpointReleases, hroute] using h

/-- The router's pipeline is around the request. -/
def Guarded (v : ProtocolVersion) (app : AppState) (r : RestRequest) : Prop :=
  r.path ∉ middlewareSelfHandledPaths v ∧ r.path ∉ middlewarePublicPaths v ∧
    app.middlewares ≠ 0

/-- The request runs one pipeline, which comes to its release loop, and no `after_dispatch` but
the last one fails. -/
def Orderly (F : HttpEvent → Fate) (v : ProtocolVersion) (app : AppState) (r : RestRequest) :
    Prop :=
  r.versionSupported = true →
    (Guarded v app r → Releases F .outer app.middlewares ∧
      ¬ (AllStart F .outer app.middlewares ∧ InnerReached F v app r)) ∧
    (¬ Guarded v app r → InnerReached F v app r → NoneStarts F .inner app.middlewares ∨
      EndpointReleases F v app.middlewares r ∧ Releases F .inner app.middlewares)

theorem enforce_guarded {m : HttpM α} (h : Guarded v app r) :
    enforceMiddlewarePipeline v app r.path m = Act.ensure (do
      beforeDispatch .outer (List.range app.middlewares)
      m) (releaseStarted .outer) := by
  unfold enforceMiddlewarePipeline
  rw [if_neg (not_or.mpr ⟨h.1, h.2.1⟩), if_neg h.2.2]

theorem enforce_of_not {m : HttpM α} (h : ¬ Guarded v app r) :
    enforceMiddlewarePipeline v app r.path m = m := by
  unfold enforceMiddlewarePipeline
  by_cases hexempt : r.path ∈ middlewareSelfHandledPaths v ∨
      r.path ∈ middlewarePublicPaths v
  · rw [if_pos hexempt]
  · rw [if_neg hexempt]
    split
    · rfl
    · rename_i hn
      exact absurd ⟨fun hmem => hexempt (Or.inl hmem), fun hmem => hexempt (Or.inr hmem), hn⟩ h

/-- **When the calls of a REST request are paired.** -/
theorem rest_paired : Paired (logOf F (serve v app r)) ↔ Orderly F v app r := by
  rw [serve_eq]
  cases hversion : r.versionSupported with
  | false =>
    exact iff_of_true (raiseUnless_bind_of_false rfl).paired fun h =>
      absurd (hversion.symm.trans h) Bool.false_ne_true
  | true =>
    rw [paired_after (silent_raiseUnless rfl)]
    unfold Orderly
    simp only [hversion, true_implies]
    by_cases hguarded : Guarded v app r
    · rw [enforce_guarded hguarded]
      simp only [hguarded, true_implies, not_true_eq_false, false_implies, and_true]
      by_cases hreach : InnerReached F v app r
      · by_cases hall : AllStart F .outer app.middlewares
        · -- the first middleware is called by both pipelines
          obtain ⟨C, A, h⟩ := outer_inner (s := {}) hall
            (core_leaves (StartedLists.inner_add_outer _ _) hreach)
          refine iff_of_false (fun hpaired => ?_) fun h => h.2 ⟨hall, hreach⟩
          have hnodup := hpaired.1
          rw [h.log.1] at hnodup
          exact (List.nodup_append.mp hnodup).2.2 0 (zero_mem_dispatched hguarded.2.2) 0
            (zero_mem_dispatched hguarded.2.2) rfl
        · rw [outer_paired fun h => absurd h hall]
          exact ⟨fun h => ⟨h, fun h' => hall h'.1⟩, And.left⟩
      · rw [outer_paired fun _ => mute_core hreach]
        exact ⟨fun h => ⟨h, fun h' => hreach h'.2⟩, And.left⟩
    · rw [enforce_of_not hguarded]
      simp only [hguarded, false_implies, not_false_eq_true, true_implies, true_and]
      by_cases hreach : InnerReached F v app r
      · rw [Leaves.paired _ (core_leaves rfl hreach)]
        simp only [decide_eq_true_eq, hreach, true_implies]
      · exact iff_of_true (mute_core hreach).paired fun h => absurd h hreach

end Endpoints

namespace JsonRpc

variable {v : ProtocolVersion} {app : AppState} {r : RpcRequest}

/-- The request comes to the pipeline of the handler for a message. -/
def SendReached (F : HttpEvent → Fate) (v : ProtocolVersion) (app : AppState)
    (r : RpcRequest) : Prop :=
  r.validParams = true ∧ r.hasMessageId = true ∧ app.taskManager = true ∧ Converts F v

theorem handleMessageSend_leaves (hs : s.inner = []) (hreach : SendReached F v app r) :
    Leaves F (handleMessageSend v app r) s
      (dispatched F .inner (List.range app.middlewares))
      (entered F .inner (List.range app.middlewares))
      (if decide (submitted F .sendMessage app.middlewares ≠ .cancelled) then
        releasedInner F app.middlewares else []) := by
  obtain ⟨hvalid, hid, htm, hconv⟩ := hreach
  unfold handleMessageSend
  rw [if_neg (by rw [hvalid, hid]; decide)]
  refine .after (silent_convertParams hconv) (Leaves.orError (.after (silent_raiseUnless htm) ?_))
  have hunary := unary_leaves (F := F) (n := app.middlewares) (s := s) hs
    (A := releasedInner F app.middlewares)
    (f := fun _ => do
      releaseStarted .inner
      syncCall .render
      return Reply.result) fun hsub => ?_
  · have heq : releasedAfter F app.middlewares (releasedInner F app.middlewares)
          (submitted F .sendMessage app.middlewares) =
        if decide (submitted F .sendMessage app.middlewares ≠ .cancelled) then
          releasedInner F app.middlewares else [] := by
      cases submitted F .sendMessage app.middlewares with
      | returns => rfl
      | raises => rfl
      | cancelled => rfl
    rw [← heq]
    exact hunary
  · refine (inner_returns hsub).bind (leaves_released hs fun _ => ?_)
    exact (Mute.sync _).bind fun _ => Mute.pure _

theorem mute_handleMessageSend (hreach : ¬ SendReached F v app r) :
    Mute F (handleMessageSend v app r) := by
  unfold handleMessageSend
  split
  · exact Mute.pure _
  rename_i hchecked
  obtain ⟨hvalid, hid⟩ := not_or.mp hchecked
  by_cases hconv : Converts F v
  · have htm : app.taskManager = false := eq_false_of_ne_true fun htm =>
      hreach ⟨eq_true_of_ne_false hvalid, eq_true_of_ne_false hid, htm, hconv⟩
    obtain ⟨x, hx⟩ : Mute F (orError (do
        Endpoints.raiseUnless app.taskManager
        exceptException (do
          beforeDispatch .inner (List.range app.middlewares)
          awaitCall (.operation .sendMessage)) (releaseStarted .inner)
        releaseStarted .inner
        syncCall .render
        return .result)) := (raiseUnless_bind_of_false htm).orError
    exact ⟨x, fun s => ((silent_convertParams hconv) s).bind (hx s)⟩
  · exact convertParams_bind_of_not hconv

theorem mute_sseStart (hstart : F (.point .startStream) ≠ .returns) :
    Mute F sseGenerator := by
  obtain ⟨e, he⟩ := Fate.result_error hstart
  have h := silent_point (F := F) .startStream
  rw [he] at h
  exact ⟨.error e, fun s => (h s).bind_error⟩

/-- A generator that is started releases. -/
theorem sseGenerator_leaves (hs : s.inner = []) (n : Nat) :
    Leaves F sseGenerator (s.add .inner (entered F .inner (List.range n))) [] []
      (if F (.point .startStream) = .returns then releasedInner F n else []) := by
  split
  · rename_i hstart
    have h := silent_point (F := F) .startStream
    rw [hstart] at h
    refine .after h ?_
    obtain ⟨r₁, h₁⟩ : Mute F (do
        let _ ← orError (do
          awaitCall (.point .streamEvents)
          return .stream)
        return Reply.stream) := Endpoints.mute_eventStream
    obtain ⟨r₂, h₂⟩ := Mute.point (F := F) .closeEvents
    obtain ⟨x₃, h₃⟩ := adds_releaseInner (F := F) (n := n) hs
    obtain ⟨r₄, h₄⟩ := (h₂ _).ensure h₃
    obtain ⟨r₅, h₅⟩ := (h₁ _).ensure h₄
    exact h₅.leaves
  · rename_i hstart
    exact (mute_sseStart hstart).leaves

/-- A handler that answers with a stream: its pipeline releases where its setup fails, and in the
generator. -/
theorem stream_leaves {op : HttpM Unit} {x : Except Failure Unit} (hop : Silent F op x)
    (hs : s.inner = []) : Leaves F (do
      let reply ← orError (do
        exceptBaseException (do
          beforeDispatch .inner (List.range n)
          op) (releaseStarted .inner)
        return .stream)
      if reply = .stream then sseGenerator else return reply) s
      (dispatched F .inner (List.range n)) (entered F .inner (List.range n))
      (if AllStart F .inner n → x = .ok () → F (.point .startStream) = .returns then
        releasedInner F n else []) := by
  have h := inner_submission (n := n) (s := s) hop
  by_cases hok : AllStart F .inner n ∧ x = .ok ()
  · obtain ⟨hall, rfl⟩ := hok
    rw [if_pos hall] at h
    have hsetup : Inner F (exceptBaseException (do
        beforeDispatch .inner (List.range n)
        op) (releaseStarted .inner)) s n [] (.ok ()) := h.tryCatch
    have hreply := Adds.bind (f := fun _ => (return Reply.stream : HttpM Reply)) hsetup Adds.pure
    rw [List.append_nil, List.append_nil, List.append_nil] at hreply
    have hcaught : Inner F (orError (do
        exceptBaseException (do
          beforeDispatch .inner (List.range n)
          op) (releaseStarted .inner)
        return .stream)) s n [] (.ok .stream) := Adds.tryCatch hreply
    have hfinal := Inner.bind (f := fun reply => if reply = Reply.stream then sseGenerator
      else return reply) hcaught (sseGenerator_leaves hs n)
    simp only [hall, true_implies]
    exact hfinal
  · -- the setup fails, and releases
    obtain ⟨e, he⟩ : ∃ e, (if AllStart F .inner n then x
        else (firstFate F ((List.range n).map (.before .inner))).result) = .error e := by
      split
      · rename_i hall
        cases x with
        | ok _ => exact absurd ⟨hall, rfl⟩ hok
        | error e => exact ⟨e, rfl⟩
      · rename_i hsome
        exact Fate.result_error (mt allStart_iff.mpr hsome)
    rw [he] at h
    obtain ⟨e', he'⟩ := h.exceptBaseException hs
    have hreply := Adds.bind_error (f := fun _ => (return Reply.stream : HttpM Reply)) he'
    have hrelease : AllStart F .inner n → x = .ok () →
        F (.point .startStream) = .returns := fun hall hx => absurd ⟨hall, hx⟩ hok
    rw [if_pos hrelease]
    cases e' with
    | exception =>
      have hfinal := hreply.orError_exception.bind (f := fun reply => if reply = Reply.stream then
        sseGenerator else return reply) Adds.pure
      rw [List.append_nil, List.append_nil, List.append_nil] at hfinal
      exact hfinal.leaves
    | cancelled => exact hreply.orError_cancelled.bind_error.leaves

/-- The request comes to the pipeline of the handler for a stream. -/
def StreamReached (F : HttpEvent → Fate) (v : ProtocolVersion) (app : AppState)
    (r : RpcRequest) : Prop :=
  app.streaming = true ∧ r.validParams = true ∧ r.hasMessageId = true ∧
    app.taskManager = true ∧ Converts F v

/-- The request comes to the pipeline of the handler for a subscription. -/
def ResubscribeReached (app : AppState) (r : RpcRequest) : Prop :=
  app.streaming = true ∧ r.hasTaskId = true

/-- A stream that is set up is started. -/
def StreamStarts (F : HttpEvent → Fate) (op : ServerOperation) (app : AppState) : Prop :=
  app.taskManager = true → submitted F op app.middlewares = .returns →
    F (.point .startStream) = .returns

instance (op : ServerOperation) : Decidable (StreamStarts F op app) :=
  inferInstanceAs (Decidable (_ → _))

theorem firstEvent_result (op : ServerOperation) : ∃ x, Silent F (Endpoints.firstEvent op) x ∧
    (x = .ok () ↔ F (.operation op) = .returns) := by
  have h := silent_operation (F := F) op
  by_cases hop : F (.operation op) = .returns
  · rw [hop] at h
    exact ⟨.ok (), fun s => (h s).tryCatch, iff_of_true rfl hop⟩
  · obtain ⟨e, he⟩ := Fate.result_error hop
    rw [he] at h
    obtain ⟨r, hr⟩ := Mute.point (F := F) .closeEvents
    rcases r with e' | u
    · refine ⟨.error e', fun s => ?_, iff_of_false nofun hop⟩
      exact (h s).tryCatch_error ((hr s).bind_error)
    · refine ⟨.error e, fun s => ?_, iff_of_false nofun hop⟩
      exact (h s).tryCatch_error ((hr s).bind Adds.throw)

theorem submitted_returns (op : ServerOperation) : submitted F op n = .returns ↔
    AllStart F .inner n ∧ F (.operation op) = .returns := by
  unfold submitted
  rw [firstFate_append, firstFate_singleton, allStart_iff]
  split
  · rename_i h
    rw [h]
    exact ⟨fun hop => ⟨rfl, hop⟩, And.right⟩
  · rename_i h
    exact ⟨fun heq => absurd heq h, fun hand => absurd hand.1 h⟩


theorem handleMessageSendStream_leaves (hs : s.inner = []) (hreach : StreamReached F v app r) :
    Leaves F (handleMessageSendStream v app r) s (dispatched F .inner (List.range app.middlewares))
      (entered F .inner (List.range app.middlewares))
      (if decide (StreamStarts F .streamMessage app) then
        releasedInner F app.middlewares else []) := by
  obtain ⟨hstreaming, hvalid, hid, htm, hconv⟩ := hreach
  unfold handleMessageSendStream
  rw [if_neg (by rw [hstreaming, hvalid, hid]; decide)]
  refine .after (silent_convertParams hconv) ?_
  obtain ⟨x, hop, hx⟩ := firstEvent_result (F := F) .streamMessage
  have hstarts : StreamStarts F .streamMessage app ↔ (AllStart F .inner app.middlewares →
      x = .ok () → F (.point .startStream) = .returns) := by
    unfold StreamStarts
    rw [submitted_returns, hx]
    exact ⟨fun h hall hf => h htm ⟨hall, hf⟩, fun h _ hand => h hand.1 hand.2⟩
  simp only [decide_eq_true_eq, hstarts]
  rw [htm]
  exact stream_leaves hop hs

theorem silent_orError_raise {f : Unit → HttpM Reply} :
    Silent F (orError (Endpoints.raiseUnless false >>= f)) (.ok .error) :=
  fun _ => Adds.tryCatch_error (Adds.bind_error Adds.throw) Adds.pure

theorem mute_handleMessageSendStream (hreach : ¬ StreamReached F v app r) :
    Mute F (handleMessageSendStream v app r) := by
  unfold handleMessageSendStream
  split
  · exact Mute.pure _
  rename_i hchecked
  obtain ⟨hstreaming, hrest⟩ := not_or.mp hchecked
  obtain ⟨hvalid, hid⟩ := not_or.mp hrest
  by_cases hconv : Converts F v
  · have htm : app.taskManager = false := eq_false_of_ne_true fun htm =>
      hreach ⟨eq_true_of_ne_false hstreaming, eq_true_of_ne_false hvalid,
        eq_true_of_ne_false hid, htm, hconv⟩
    refine Mute.bind ⟨_, silent_convertParams hconv⟩ fun _ => ?_
    -- the error of the task manager is answered before the pipeline
    rw [htm]
    exact ⟨.ok .error, fun s => (silent_orError_raise s).bind (f := fun reply =>
      if reply = Reply.stream then sseGenerator else return reply) Adds.pure⟩
  · exact convertParams_bind_of_not hconv

theorem handleTasksResubscribe_leaves (hs : s.inner = []) (hreach : ResubscribeReached app r) :
    Leaves F (handleTasksResubscribe app r) s (dispatched F .inner (List.range app.middlewares))
      (entered F .inner (List.range app.middlewares))
      (if decide (StreamStarts F .subscribeTask app) then
        releasedInner F app.middlewares else []) := by
  obtain ⟨hstreaming, hid⟩ := hreach
  unfold handleTasksResubscribe
  rw [if_neg (by rw [hstreaming, hid]; decide)]
  obtain ⟨x, hop, hx⟩ : ∃ x, Silent F (do
      Endpoints.raiseUnless app.taskManager
      Endpoints.firstEvent .subscribeTask) x ∧
      (x = .ok () ↔ app.taskManager = true ∧ F (.operation .subscribeTask) = .returns) := by
    cases htm : app.taskManager with
    | false =>
      exact ⟨.error .exception, fun _ => Adds.bind_error Adds.throw,
        iff_of_false nofun fun h => absurd h.1 Bool.false_ne_true⟩
    | true =>
      obtain ⟨x, hop, hx⟩ := firstEvent_result (F := F) .subscribeTask
      exact ⟨x, hop, hx.trans (by rw [and_iff_right rfl])⟩
  have hstarts : StreamStarts F .subscribeTask app ↔ (AllStart F .inner app.middlewares →
      x = .ok () → F (.point .startStream) = .returns) := by
    unfold StreamStarts
    rw [submitted_returns, hx]
    exact ⟨fun h hall hand => h hand.1 ⟨hall, hand.2⟩,
      fun h htm hand => h hand.1 ⟨htm, hand.2⟩⟩
  simp only [decide_eq_true_eq, hstarts]
  exact stream_leaves hop hs

theorem mute_operate (checked ready : Bool) (op : ServerOperation) :
    Mute F (operate checked ready op) :=
  Mute.ite (Mute.pure _)
    ((mute_raiseUnless _).bind fun _ => Endpoints.mute_operate op).orError

/-! ### The dispatcher -/

/-- The request comes to a pipeline of this handler. -/
def HandlerReached (F : HttpEvent → Fate) (v : ProtocolVersion) (app : AppState)
    (r : RpcRequest) : RpcHandler → Prop
  | .messageSend => SendReached F v app r
  | .messageStream => StreamReached F v app r
  | .tasksResubscribe => ResubscribeReached app r
  | _ => False

/-- The pipeline of this handler comes to a release loop: a message is not cancelled, and a stream
is started. -/
def HandlerReleases (F : HttpEvent → Fate) (app : AppState) : RpcHandler → Prop
  | .messageSend => submitted F .sendMessage app.middlewares ≠ .cancelled
  | .messageStream => StreamStarts F .streamMessage app
  | .tasksResubscribe => StreamStarts F .subscribeTask app
  | _ => True

theorem handle_leaves {h : RpcHandler} (hs : s.inner = []) (hreach : HandlerReached F v app r h) :
    ∃ release : Bool, (release = true ↔ HandlerReleases F app h) ∧
      Leaves F (handle v app r h) s (dispatched F .inner (List.range app.middlewares))
        (entered F .inner (List.range app.middlewares))
        (if release then releasedInner F app.middlewares else []) := by
  cases h with
  | messageSend =>
    exact ⟨_, decide_eq_true_iff (p := submitted F .sendMessage app.middlewares ≠ .cancelled),
      handleMessageSend_leaves hs hreach⟩
  | messageStream =>
    exact ⟨_, decide_eq_true_iff (p := StreamStarts F .streamMessage app),
      handleMessageSendStream_leaves hs hreach⟩
  | tasksResubscribe =>
    exact ⟨_, decide_eq_true_iff (p := StreamStarts F .subscribeTask app),
      handleTasksResubscribe_leaves hs hreach⟩
  | _ => exact hreach.elim

theorem mute_handle {h : RpcHandler} (hreach : ¬ HandlerReached F v app r h) :
    Mute F (handle v app r h) := by
  cases h with
  | messageSend => exact mute_handleMessageSend hreach
  | messageStream => exact mute_handleMessageSendStream hreach
  | tasksResubscribe =>
    have hchecked : app.streaming = false ∨ r.hasTaskId = false := by
      by_contra hboth
      obtain ⟨hstreaming, hid⟩ := not_or.mp hboth
      exact hreach ⟨eq_true_of_ne_false hstreaming, eq_true_of_ne_false hid⟩
    unfold handle handleTasksResubscribe
    rw [if_pos hchecked]
    exact Mute.pure _
  | health => exact Mute.pure _
  | tasksGet => exact mute_operate _ _ _
  | tasksList => exact mute_operate _ _ _
  | tasksCancel => exact mute_operate _ _ _
  | pushSet => exact mute_operate _ _ _
  | pushGet => exact mute_operate _ _ _
  | pushList => exact mute_operate _ _ _
  | pushDelete => exact mute_operate _ _ _
  | extendedCard => exact mute_operate _ _ _

/-- The dispatcher's pipeline is around the handler of the method. -/
def Guarded (v : ProtocolVersion) (app : AppState) (method : String) : Prop :=
  method ∉ middlewareSelfHandledMethods v ∧ method ∉ middlewarePublicMethods v ∧
    app.middlewares ≠ 0

/-- A handler with a pipeline of its own is that of a method that runs it. -/
theorem selfHandled_of_reached {h : RpcHandler} {method : String}
    (hlookup : (dispatch v).lookup method = some h) (hreach : HandlerReached F v app r h) :
    method ∈ middlewareSelfHandledMethods v := by
  have hall : ∀ e ∈ dispatch v, e.1 ∈ middlewareSelfHandledMethods v ∨
      e.2 ≠ .messageSend ∧ e.2 ≠ .messageStream ∧ e.2 ≠ .tasksResubscribe := by
    cases v <;> decide
  obtain ⟨l₁, l₂, heq, -⟩ := List.lookup_eq_some_iff.mp hlookup
  have hmem : (method, h) ∈ dispatch v := by
    rw [heq]
    exact List.mem_append_right _ List.mem_cons_self
  refine (hall _ hmem).elim id fun hother => ?_
  cases h with
  | messageSend => exact absurd rfl hother.1
  | messageStream => exact absurd rfl hother.2.1
  | tasksResubscribe => exact absurd rfl hother.2.2
  | _ => exact hreach.elim

theorem guarded_paired {handler : HttpM Reply} (hmute : Mute F handler) (hasId : Bool) :
    Paired (logOf F (guarded app hasId handler)) ↔ Releases F .outer app.middlewares := by
  have hbefore := adds_beforeDispatch (F := F) (p := .outer) (s := {}) (List.range app.middlewares)
  -- what follows the loop calls no middleware, whatever is answered
  have hrest : ∀ ready : Reply, Mute F (if ready = .error then return answer hasId .error
      else do
        let reply ← handler
        return answer hasId reply) := fun ready =>
    Mute.ite (Mute.pure _) (hmute.bind fun _ => Mute.pure _)
  have hready : ∃ x, Adds F (do
      beforeDispatch .outer (List.range app.middlewares)
      return Reply.result) {} (dispatched F .outer (List.range app.middlewares))
      (entered F .outer (List.range app.middlewares)) [] x
      (StartedLists.add {} .outer (entered F .outer (List.range app.middlewares))) := by
    cases hfate : (firstFate F ((List.range app.middlewares).map (.before .outer))).result with
    | ok u =>
      rw [hfate] at hbefore
      have h := hbefore.bind (f := fun _ => (return Reply.result : HttpM Reply)) Adds.pure
      rw [List.append_nil, List.append_nil, List.append_nil] at h
      exact ⟨_, h⟩
    | error e =>
      rw [hfate] at hbefore
      exact ⟨_, hbefore.bind_error⟩
  obtain ⟨_, hx⟩ := hready
  obtain ⟨x, hx⟩ := hx.orError
  have hguard : ∃ y, Adds F (do
      let ready ← orError (do
        beforeDispatch .outer (List.range app.middlewares)
        return Reply.result)
      if ready = .error then return answer hasId .error
      else do
        let reply ← handler
        return answer hasId reply) {} (dispatched F .outer (List.range app.middlewares))
      (entered F .outer (List.range app.middlewares)) [] y
      (StartedLists.add {} .outer (entered F .outer (List.range app.middlewares))) := by
    cases x with
    | ok ready =>
      obtain ⟨y, hy⟩ := hrest ready
      have h := hx.bind (f := fun ready => if ready = .error then return answer hasId .error
        else do
          let reply ← handler
          return answer hasId reply) (hy _)
      rw [List.append_nil, List.append_nil, List.append_nil] at h
      exact ⟨y, h⟩
    | error e => exact ⟨.error e, hx.bind_error⟩
  obtain ⟨y, hy⟩ := hguard
  have h := Leaves.paired true (hy.release_outer rfl)
  unfold guarded
  rw [h]
  exact ⟨fun h => h.elim NoneStarts.releases And.right, fun h => Or.inr ⟨rfl, h⟩⟩

/-- The request runs one pipeline, which comes to its release loop, and no `after_dispatch` but
the last one fails. -/
def MethodOrderly (F : HttpEvent → Fate) (v : ProtocolVersion) (app : AppState) (r : RpcRequest)
    (hasId : Bool) (method : String) (h : RpcHandler) : Prop :=
  ¬ (hasId = false ∧ method ∈ streamingMethods v) →
    (Guarded v app method → Releases F .outer app.middlewares) ∧
    (¬ Guarded v app method → HandlerReached F v app r h →
      NoneStarts F .inner app.middlewares ∨
        HandlerReleases F app h ∧ Releases F .inner app.middlewares)

theorem invoke_paired {h : RpcHandler} {method : String} (hasId : Bool)
    (hlookup : (dispatch v).lookup method = some h) :
    Paired (logOf F (invoke v app hasId method (handle v app r h))) ↔
      MethodOrderly F v app r hasId method h := by
  unfold invoke MethodOrderly
  by_cases hnotified : hasId = false ∧ method ∈ streamingMethods v
  · rw [if_pos hnotified]
    exact iff_of_true (Mute.pure _).paired fun hn => absurd hnotified hn
  rw [if_neg hnotified]
  by_cases hguarded : Guarded v app method
  · -- a guarded method has no pipeline of its own
    have hcond : method ∉ middlewareSelfHandledMethods v ∧ method ∉ middlewarePublicMethods v ∧
      app.middlewares ≠ 0 := hguarded
    rw [if_pos hcond]
    have hmute : Mute F (handle v app r h) := mute_handle fun hreach =>
      hguarded.1 (selfHandled_of_reached hlookup hreach)
    rw [guarded_paired hmute]
    exact ⟨fun hr _ => ⟨fun _ => hr, fun hn => absurd hguarded hn⟩,
      fun hall => (hall hnotified).1 hguarded⟩
  · have hcond : ¬ (method ∉ middlewareSelfHandledMethods v ∧
      method ∉ middlewarePublicMethods v ∧ app.middlewares ≠ 0) := hguarded
    rw [if_neg hcond]
    by_cases hreach : HandlerReached F v app r h
    · obtain ⟨release, hrelease, hleaves⟩ := handle_leaves (s := {}) rfl hreach
      have hpaired := Leaves.paired release
        (hleaves.bind_mute fun reply => Mute.pure (answer hasId reply))
      rw [hpaired, hrelease]
      exact ⟨fun hr _ => ⟨fun hg => absurd hg hguarded, fun _ _ => hr⟩,
        fun hall => (hall hnotified).2 hguarded hreach⟩
    · have hmute := (mute_handle hreach).bind fun reply => Mute.pure (answer hasId reply)
      exact iff_of_true hmute.paired fun _ =>
        ⟨fun hg => absurd hg hguarded, fun _ hr => absurd hr hreach⟩

/-- A body that is read has a handler, or is rejected. -/
def Orderly (F : HttpEvent → Fate) (v : ProtocolVersion) (app : AppState) (r : RpcRequest) :
    Prop :=
  r.versionSupported = true → F (.point .readBody) = .returns →
    ∀ hasId method h, found v r = some (hasId, method, h) →
      MethodOrderly F v app r hasId method h

theorem dispatchBody_paired : Paired (logOf F (dispatchBody v app r)) ↔
    ∀ hasId method h, found v r = some (hasId, method, h) →
      MethodOrderly F v app r hasId method h := by
  unfold dispatchBody
  cases hfound : found v r with
  | none => exact iff_of_true (Mute.pure _).paired nofun
  | some e =>
    obtain ⟨hasId, method, h⟩ := e
    dsimp only
    rw [invoke_paired hasId (found_lookup hfound)]
    constructor
    · intro horderly hasId' method' h' heq
      cases heq
      exact horderly
    · exact fun hall => hall hasId method h rfl

/-- **When the calls of a JSON-RPC request are paired.** -/
theorem rpc_paired : Paired (logOf F (serve v app r)) ↔ Orderly F v app r := by
  rw [serve_eq]
  unfold Orderly
  cases hversion : r.versionSupported with
  | false => exact iff_of_true (raiseUnless_bind_of_false rfl).paired nofun
  | true =>
    rw [paired_after (silent_raiseUnless rfl)]
    have hbody := silent_point (F := F) .readBody
    by_cases hread : F (.point .readBody) = .returns
    · rw [hread] at hbody
      have hresult : Silent F (orError (do
          awaitCall (.point .readBody)
          return .result)) (.ok .result) := fun s =>
        Adds.tryCatch ((hbody s).bind (f := fun _ => (return Reply.result : HttpM Reply)) Adds.pure)
      rw [paired_after hresult, if_neg nofun, dispatchBody_paired]
      exact ⟨fun h _ _ => h, fun h => h rfl hread⟩
    · refine iff_of_true ?_ fun _ h => absurd h hread
      -- a body that is not read is answered with an error, or the request is cancelled
      obtain ⟨e, he⟩ := Fate.result_error hread
      rw [he] at hbody
      have hfail : ∀ s, Adds F (do
          awaitCall (.point .readBody)
          return Reply.result) s [] [] [] (.error e) s := fun s => (hbody s).bind_error
      refine Mute.paired (?_ : Mute F _)
      cases e with
      | exception =>
        have herr : Silent F (orError (do
            awaitCall (.point .readBody)
            return .result)) (.ok .error) := fun s => (hfail s).tryCatch_error Adds.pure
        exact ⟨.ok .error, fun s => (herr s).bind (f := fun read =>
          if read = Reply.error then return .error else dispatchBody v app r) Adds.pure⟩
      | cancelled =>
        have herr : Silent F (orError (do
            awaitCall (.point .readBody)
            return .result)) (.error .cancelled) := fun s =>
          (hfail s).tryCatch_error Adds.throw
        exact ⟨.error .cancelled, fun s => (herr s).bind_error⟩

end JsonRpc

/-! ### Both bindings -/

def HttpRequest.Orderly (F : HttpEvent → Fate) (v : ProtocolVersion) (app : AppState) :
    HttpRequest → Prop
  | .rest r => Endpoints.Orderly F v app r
  | .jsonRpc r => JsonRpc.Orderly F v app r

/-- **The calls of the middlewares are paired in the orderly requests, and in no others.** -/
theorem HttpRequest.paired_iff (v : ProtocolVersion) (app : AppState) (r : HttpRequest) :
    Paired (logOf F (r.serve v app)) ↔ r.Orderly F v app := by
  cases r with
  | rest r => exact Endpoints.rest_paired
  | jsonRpc r => exact JsonRpc.rpc_paired

/-- A message over JSON-RPC whose client goes away while the task manager works on it. -/
def cancelledSend : HttpRequest :=
  .jsonRpc { body := some { method := some "SendMessage" } }

/-- The middleware has started, and gets no `after_dispatch`. -/
theorem HttpRequest.started_not_released : ¬ ∀ (F : HttpEvent → Fate) (v : ProtocolVersion)
    (app : AppState) (r : HttpRequest), Paired (logOf F (r.serve v app)) := by
  intro hall
  have h := hall (fun e => if e = .operation .sendMessage then .cancelled else .returns) .v10
    { middlewares := 1 } cancelledSend
  revert h
  decide +kernel

/-- Under a mount prefix the router's pipeline runs around that of `message_send`. -/
example : ¬ Paired (logOf (fun _ => .returns) (HttpRequest.serve .v10 { middlewares := 1 }
    (.rest { route := .messageSend, path := "/agent/message:send" }))) := by decide +kernel

end A2AKit
