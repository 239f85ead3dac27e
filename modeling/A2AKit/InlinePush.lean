/-
Push configurations that come with a message.

`send_message` and `stream_message` take a configuration out of the request and write it into the
store themselves; the endpoints of version 1.0 have it validated as JSON.

* `registrations_agree_iff` — for every configuration, policy, resolver and state, both ways to
  register it agree if and only if the endpoint accepts it and the message is not a repetition, or
  neither accepts anything;
* `inline_unchecked` — a url that the policy rejects and the message brings in.
-/
import A2AKit.PushEndpoints
import A2AKit.Endpoints
import A2AKit.Requests

namespace A2AKit

/-! ### The configuration of a request -/

namespace V10

/-- `v10.AuthenticationInfo` -/
structure AuthenticationInfo where
  scheme : String
  credentials : Option String := none
  deriving DecidableEq, Repr

/-- `v10.TaskPushNotificationConfig` -/
structure TaskPushNotificationConfig where
  id : Option String := none
  url : String
  token : Option String := none
  authentication : Option AuthenticationInfo := none
  deriving DecidableEq, Repr

/-- `v10.SendMessageConfiguration` -/
structure SendMessageConfiguration where
  returnImmediately : Option Bool := none
  taskPushNotificationConfig : Option TaskPushNotificationConfig := none
  acceptedOutputModes : List String := []
  historyLength : Option Nat := none
  deriving DecidableEq, Repr

end V10

namespace V03

/-- `v03.PushNotificationAuthenticationInfo` -/
structure PushNotificationAuthenticationInfo where
  schemes : List String
  credentials : Option String := none
  deriving DecidableEq, Repr

/-- `v03.PushNotificationConfig` -/
structure PushNotificationConfig where
  id : Option String := none
  url : String
  token : Option String := none
  authentication : Option PushNotificationAuthenticationInfo := none
  deriving DecidableEq, Repr

/-- `v03.MessageSendConfiguration` -/
structure MessageSendConfiguration where
  blocking : Option Bool := none
  pushNotificationConfig : Option PushNotificationConfig := none
  acceptedOutputModes : List String := []
  historyLength : Option Nat := none
  deriving DecidableEq, Repr

end V03

/-- The `configuration` of the params, of either version. -/
inductive SendConfiguration
  | v10 (config : V10.SendMessageConfiguration)
  | v03 (config : V03.MessageSendConfiguration)
  deriving DecidableEq, Repr

/-- The scheme of version 1.0 becomes a list of at most one. -/
def V10.AuthenticationInfo.inlined (auth : V10.AuthenticationInfo) :
    PushNotificationAuthenticationInfo :=
  { schemes := if auth.scheme = "" then [] else [auth.scheme], credentials := auth.credentials }

def V10.TaskPushNotificationConfig.inlined (config : V10.TaskPushNotificationConfig) :
    PushNotificationConfig :=
  { id := config.id, url := config.url, token := config.token
    authentication := config.authentication.map V10.AuthenticationInfo.inlined }

def V03.PushNotificationConfig.inlined (config : V03.PushNotificationConfig) :
    A2AKit.PushNotificationConfig :=
  { id := config.id, url := config.url, token := config.token
    authentication := config.authentication.map fun auth =>
      { schemes := auth.schemes, credentials := auth.credentials } }

/-- `_extract_inline_push_config` -/
def extractInlinePushConfig : Option SendConfiguration → Option PushNotificationConfig
  | none => none
  | some (.v10 config) => config.taskPushNotificationConfig.map (·.inlined)
  | some (.v03 config) => config.pushNotificationConfig.map (·.inlined)

/-- `_is_blocking` -/
def isBlocking (config : Option V10.SendMessageConfiguration) : Bool :=
  match config.bind (·.returnImmediately) with
  | none => true
  | some returnImmediately => !returnImmediately

/-! ### The configuration on the wire -/

/-- The members of an object that are not `None`. -/
def presentFields : List (String × Option Json) → JsonFields
  | [] => .nil
  | (_, none) :: rest => presentFields rest
  | (key, some j) :: rest => .cons key j (presentFields rest)

def V10.AuthenticationInfo.wire (auth : V10.AuthenticationInfo) : Json :=
  .object (presentFields
    [("scheme", some (.string auth.scheme)), ("credentials", auth.credentials.map .string)])

/-- The body that a client sends for the configuration. -/
def V10.TaskPushNotificationConfig.wireFields (config : V10.TaskPushNotificationConfig) :
    JsonFields :=
  presentFields
    [("id", config.id.map .string), ("url", some (.string config.url)),
      ("token", config.token.map .string),
      ("authentication", config.authentication.map V10.AuthenticationInfo.wire)]

/-! ### The two ways to register it -/

inductive RpcBinding
  | rest
  | jsonRpc
  deriving DecidableEq, Repr

/-- How a registration ends. -/
inductive Registration
  | stored (config : TaskPushNotificationConfig)
  | rejected (e : ServerExc)
  | ignored
  deriving DecidableEq, Repr

/-- The registration, as the message is answered: `submission` is what `_submit_task` came to, with
whether the message has to be enqueued.  A repetition is answered before `send_message` looks at the
configuration, but not before `stream_message` does. -/
def registerInline (app : AppState) (mode : Mode) (submission : Except ServerExc Bool)
    (taskId : TaskId) (configuration : Option SendConfiguration) (uuid : String) : Registration :=
  match submission with
  | .error e => .rejected e
  | .ok shouldEnqueue =>
    if mode ≠ .stream ∧ !shouldEnqueue then .ignored
    else if !app.pushStore then .ignored
    else
      match extractInlinePushConfig configuration with
      | none => .ignored
      | some config => .stored (InMemoryPushConfigStore.stored taskId config uuid)

/-- `config_data` of `_handle_push_create`, from the params. -/
def flatConfigData (params : JsonFields) : Json :=
  let field (key : String) : Json := (params.get key).getD .null
  .object (.cons "id" (field "id") (.cons "url" (field "url")
    (.cons "token" (field "token") (.cons "authentication" (field "authentication") .nil))))

def Registration.ofResult : Except ServerExc TaskPushNotificationConfig → Registration
  | .ok config => .stored config
  | .error e => .rejected e

/-- `push_config_set` of version 1.0 -/
def pushConfigSetV10 (app : AppState) (r : Registrar) (task : PushTask) (body : Json)
    (uuid : String) : Registration :=
  let unavailable (code : Nat) (status message : String) : Registration :=
    .rejected (.http code (.fields code (some status) message))
  if !app.pushNotifications then
    unavailable 501 "UNIMPLEMENTED" "Push notifications are not supported"
  else if !app.pushStore then
    unavailable 501 "UNIMPLEMENTED" "Push notifications are not configured"
  else if !app.storage then unavailable 503 "UNAVAILABLE" "Storage not initialized"
  else .ofResult (handleSetConfig r task body uuid)

/-- `_handle_push_create`; without a store or a storage it fails where it calls them. -/
def handlePushCreate (app : AppState) (r : Registrar) (task : PushTask) (params : JsonFields)
    (uuid : String) : Registration :=
  if !app.pushNotifications then .rejected (.other "Push notifications are not supported")
  else if task.taskId = "" then .rejected (.other "Missing taskId")
  else if !app.storage then .rejected (.other "'NoneType' object has no attribute 'load_task'")
  else
    match handleSetConfig r task (flatConfigData params) uuid with
    | .error e => .rejected e
    | .ok config =>
      if app.pushStore then .stored config
      else .rejected (.other "'NoneType' object has no attribute 'set_config'")

/-- The registration with the endpoint of version 1.0. -/
def registerExplicitly (binding : RpcBinding) (app : AppState) (r : Registrar) (task : PushTask)
    (config : V10.TaskPushNotificationConfig) (uuid : String) : Registration :=
  match binding with
  | .rest => pushConfigSetV10 app r task (.object config.wireFields) uuid
  | .jsonRpc =>
    handlePushCreate app r task (.cons "taskId" (.string task.taskId) config.wireFields) uuid

/-! ### When they agree -/

/-- Both store the same configuration, so that a delivery sends the same headers, or both reject
it.  An id that is drawn may differ. -/
def RegisteredAlike (config : V10.TaskPushNotificationConfig) : Registration → Registration → Prop
  | .stored a, .stored b =>
    (a.taskId = b.taskId ∧ a.url = b.url ∧ a.token = b.token ∧
      a.authentication = b.authentication ∧ buildHeaders a = buildHeaders b) ∧
      (isText config.id → a.id = b.id)
  | .rejected _, .rejected _ => True
  | _, _ => False

/-- What the endpoint needs: a server with push notifications, a task that exists, a configuration
without authentication, and a url that passes the policy, if there is one. -/
structure EndpointAccepts (binding : RpcBinding) (app : AppState) (r : Registrar) (task : PushTask)
    (config : V10.TaskPushNotificationConfig) : Prop where
  enabled : app.pushNotifications = true ∧ app.pushStore = true ∧ app.storage = true
  found : task.found = true
  named : binding = .jsonRpc → task.taskId ≠ ""
  plain : config.authentication = none
  passes : r.validate config.url = .ok true

section

variable {binding : RpcBinding} {app : AppState} {r : Registrar} {task : PushTask}
  {config : V10.TaskPushNotificationConfig} {body : Json} {uuid : String}

/-- The body of a configuration without authentication is read back as that configuration; with
one, it has one error, since the model wants `schemes` there. -/
theorem modelValidate_wire (config : V10.TaskPushNotificationConfig) :
    PushNotificationConfig.modelValidate (.object config.wireFields) =
      match config.authentication with
      | none => .ok config.inlined
      | some _ => .error 1 := by
  obtain ⟨id, url, token, authentication⟩ := config
  cases authentication with
  | none => cases id <;> cases token <;> rfl
  | some auth =>
    obtain ⟨scheme, credentials⟩ := auth
    cases id <;> cases token <;> cases credentials <;> rfl

/-- Nothing else is read from the params of a call. -/
theorem modelValidate_flat (taskId : TaskId) (config : V10.TaskPushNotificationConfig) :
    PushNotificationConfig.modelValidate
        (flatConfigData (.cons "taskId" (.string taskId) config.wireFields)) =
      PushNotificationConfig.modelValidate (.object config.wireFields) := by
  obtain ⟨id, url, token, authentication⟩ := config
  cases id <;> cases token <;> cases authentication <;> rfl

theorem modelValidate_wire_ok {read : PushNotificationConfig} :
    PushNotificationConfig.modelValidate (.object config.wireFields) = .ok read ↔
      config.authentication = none ∧ read = config.inlined := by
  rw [modelValidate_wire]
  cases config.authentication with
  | none => exact ⟨fun h => ⟨rfl, (Except.ok.inj h).symm⟩, fun h => congrArg _ h.2.symm⟩
  | some auth => exact ⟨nofun, fun h => nomatch h.1⟩

/-- What the handler makes of the body of a configuration. -/
theorem handleSetConfig_wire {tpnc : TaskPushNotificationConfig}
    (hbody : PushNotificationConfig.modelValidate body =
      PushNotificationConfig.modelValidate (.object config.wireFields)) :
    handleSetConfig r task body uuid = .ok tpnc ↔
      task.found = true ∧ config.authentication = none ∧ r.validate config.url = .ok true ∧
        tpnc = InMemoryPushConfigStore.stored task.taskId config.inlined uuid := by
  rw [handleSetConfig_ok, hbody]
  constructor
  · rintro ⟨hfound, read, hread, hpass, rfl⟩
    obtain ⟨hplain, rfl⟩ := modelValidate_wire_ok.mp hread
    exact ⟨hfound, hplain, hpass, rfl⟩
  · rintro ⟨hfound, hplain, hpass, rfl⟩
    exact ⟨hfound, config.inlined, modelValidate_wire_ok.mpr ⟨hplain, rfl⟩, hpass, rfl⟩

/-- The endpoint stores the configuration or rejects it. -/
theorem registerExplicitly_spec (binding : RpcBinding) (app : AppState) (r : Registrar)
    (task : PushTask) (config : V10.TaskPushNotificationConfig) (uuid : String) :
    EndpointAccepts binding app r task config ∧
        registerExplicitly binding app r task config uuid =
          .stored (InMemoryPushConfigStore.stored task.taskId config.inlined uuid) ∨
      ¬ EndpointAccepts binding app r task config ∧
        ∃ e, registerExplicitly binding app r task config uuid = .rejected e := by
  -- both bindings hand the same wire fields to the common handler
  have hset : ∀ tpnc, (∃ body, PushNotificationConfig.modelValidate body =
      PushNotificationConfig.modelValidate (.object config.wireFields) ∧
        handleSetConfig r task body uuid = .ok tpnc) →
      task.found = true ∧ config.authentication = none ∧ r.validate config.url = .ok true ∧
        tpnc = InMemoryPushConfigStore.stored task.taskId config.inlined uuid := by
    rintro tpnc ⟨body, hbody, h⟩
    exact (handleSetConfig_wire hbody).mp h
  have hrejects : ∀ body, PushNotificationConfig.modelValidate body =
      PushNotificationConfig.modelValidate (.object config.wireFields) →
      ∀ e, handleSetConfig r task body uuid = .error e →
        ¬ EndpointAccepts binding app r task config := by
    intro body hbody e he haccepts
    have hok : handleSetConfig r task body uuid = .ok _ :=
      (handleSetConfig_wire hbody).mpr ⟨haccepts.found, haccepts.plain, haccepts.passes, rfl⟩
    exact nomatch he.symm.trans hok
  cases binding with
  | rest =>
    unfold registerExplicitly pushConfigSetV10
    dsimp only
    split
    · rename_i hoff
      exact Or.inr ⟨fun h => by simp [h.enabled] at hoff, _, rfl⟩
    split
    · rename_i hoff
      exact Or.inr ⟨fun h => by simp [h.enabled] at hoff, _, rfl⟩
    split
    · rename_i hoff
      exact Or.inr ⟨fun h => by simp [h.enabled] at hoff, _, rfl⟩
    -- the three capabilities are there; what is left is the handler
    rename_i hpush hstore hstorage
    have enabled : app.pushNotifications = true ∧ app.pushStore = true ∧ app.storage = true :=
      ⟨by simpa using hpush, by simpa using hstore, by simpa using hstorage⟩
    cases hresult : handleSetConfig r task (.object config.wireFields) uuid with
    | error e => exact Or.inr ⟨hrejects _ rfl e hresult, e, rfl⟩
    | ok tpnc =>
      obtain ⟨hfound, hplain, hpasses, rfl⟩ := hset tpnc ⟨_, rfl, hresult⟩
      exact Or.inl ⟨⟨enabled, hfound, nofun, hplain, hpasses⟩, rfl⟩
  | jsonRpc =>
    have hflat := modelValidate_flat task.taskId config
    unfold registerExplicitly handlePushCreate
    dsimp only
    split
    · rename_i hoff
      exact Or.inr ⟨fun h => by simp [h.enabled] at hoff, _, rfl⟩
    split
    · rename_i hempty
      exact Or.inr ⟨fun h => h.named rfl hempty, _, rfl⟩
    split
    · rename_i hoff
      exact Or.inr ⟨fun h => by simp [h.enabled] at hoff, _, rfl⟩
    rename_i hpush hnamed hstorage
    split
    · rename_i e hresult
      exact Or.inr ⟨hrejects _ hflat e hresult, e, rfl⟩
    rename_i tpnc hresult
    split
    · rename_i hstore
      have enabled : app.pushNotifications = true ∧ app.pushStore = true ∧ app.storage = true :=
        ⟨by simpa using hpush, hstore, by simpa using hstorage⟩
      obtain ⟨hfound, hplain, hpasses, rfl⟩ := hset tpnc ⟨_, hflat, hresult⟩
      exact Or.inl ⟨⟨enabled, hfound, fun _ => hnamed, hplain, hpasses⟩, rfl⟩
    · rename_i hoff
      exact Or.inr ⟨fun h => hoff h.enabled.2.1, _, rfl⟩

/-- What comes with the message is stored whatever it says, if the message is no repetition. -/
theorem registerInline_spec (app : AppState) (mode : Mode) (submission : Except ServerExc Bool)
    (taskId : TaskId) (configuration : V10.SendMessageConfiguration)
    (config : V10.TaskPushNotificationConfig) (uuid : String) :
    registerInline app mode submission taskId
        (some (.v10 { configuration with taskPushNotificationConfig := some config })) uuid =
      match submission with
      | .error e => .rejected e
      | .ok shouldEnqueue =>
        if (mode = .stream ∨ shouldEnqueue = true) ∧ app.pushStore = true then
          .stored (InMemoryPushConfigStore.stored taskId config.inlined uuid)
        else .ignored := by
  cases submission with
  | error e => rfl
  | ok shouldEnqueue =>
    unfold registerInline
    by_cases hstream : mode = .stream
    · cases app.pushStore <;> simp [hstream, extractInlinePushConfig]
    · cases shouldEnqueue <;> cases app.pushStore <;> simp [hstream, extractInlinePushConfig]

theorem registeredAlike_stored (taskId : TaskId) (config : V10.TaskPushNotificationConfig)
    (uuid uuid' : String) : RegisteredAlike config
      (.stored (InMemoryPushConfigStore.stored taskId config.inlined uuid))
      (.stored (InMemoryPushConfigStore.stored taskId config.inlined uuid')) := by
  refine ⟨⟨rfl, rfl, rfl, rfl, rfl⟩, fun hid => ?_⟩
  show some (textOr config.id uuid) = some (textOr config.id uuid')
  cases hconfig : config.id with
  | none => simp [hconfig, isText] at hid
  | some id =>
    have hne : id ≠ "" := by simpa [hconfig, isText] using hid
    simp [textOr, hne]

end

/-- **A configuration is registered alike with a message and with the endpoint if and only if the
endpoint accepts it and the message is no repetition**; a message that is refused agrees with an
endpoint that rejects. -/
theorem registrations_agree_iff (binding : RpcBinding) (app : AppState) (r : Registrar)
    (task : PushTask) (mode : Mode) (submission : Except ServerExc Bool)
    (configuration : V10.SendMessageConfiguration) (config : V10.TaskPushNotificationConfig)
    (uuid uuid' : String) :
    RegisteredAlike config
        (registerInline app mode submission task.taskId
          (some (.v10 { configuration with taskPushNotificationConfig := some config })) uuid)
        (registerExplicitly binding app r task config uuid') ↔
      match submission with
      | .error _ => ¬ EndpointAccepts binding app r task config
      | .ok shouldEnqueue =>
        (mode = .stream ∨ shouldEnqueue = true) ∧ EndpointAccepts binding app r task config := by
  rw [registerInline_spec]
  obtain ⟨haccepts, hexplicit⟩ | ⟨hrejects, e, hexplicit⟩ :=
    registerExplicitly_spec binding app r task config uuid'
  · rw [hexplicit]
    cases submission with
    | error e => exact iff_of_false (fun h => h.elim) fun h => h haccepts
    | ok shouldEnqueue =>
      dsimp only
      split
      · rename_i hstores
        exact iff_of_true (registeredAlike_stored _ _ _ _) ⟨hstores.1, haccepts⟩
      · rename_i hignores
        exact iff_of_false (fun h => h.elim) fun h => hignores ⟨h.1, haccepts.enabled.2.1⟩
  · rw [hexplicit]
    cases submission with
    | error e' => exact iff_of_true trivial hrejects
    | ok shouldEnqueue =>
      refine iff_of_false (fun h => ?_) fun h => hrejects h.2
      -- the inline path rejects nothing
      dsimp only at h
      split at h <;> exact h.elim

/-! ### A url that only the endpoint looks at -/

/-- Reads one url. -/
def localHook : Registrar where
  lib := twoAddresses
  urlparse url :=
    if url = "https://127.0.0.1/hook" then some (hookUrl "127.0.0.1") else none
  ask _ := none
  policy := some {}

/-- **A url that the policy rejects at the endpoint is stored with a message.** -/
theorem inline_unchecked : ¬ ∀ (binding : RpcBinding) (app : AppState) (r : Registrar)
    (task : PushTask) (mode : Mode) (configuration : V10.SendMessageConfiguration)
    (config : V10.TaskPushNotificationConfig) (uuid uuid' : String),
    app.pushNotifications = true → app.pushStore = true → app.storage = true →
    task.found = true →
    RegisteredAlike config
      (registerInline app mode (.ok true) task.taskId
        (some (.v10 { configuration with taskPushNotificationConfig := some config })) uuid)
      (registerExplicitly binding app r task config uuid') := by
  intro hall
  have halike := hall .rest { middlewares := 0 } localHook { taskId := "t", found := true }
    .blocking {} { url := "https://127.0.0.1/hook" } "a" "b" rfl rfl rfl rfl
  have hinline : registerInline { middlewares := 0 } .blocking (.ok true) "t"
      (some (.v10 { taskPushNotificationConfig := some { url := "https://127.0.0.1/hook" } })) "a" =
        .stored { taskId := "t", id := some "a", url := "https://127.0.0.1/hook" } := by
    decide +kernel
  have hexplicit : registerExplicitly .rest { middlewares := 0 } localHook
      { taskId := "t", found := true } { url := "https://127.0.0.1/hook" } "b" =
        .rejected (badRequest
          "Webhook URL rejected (SSRF protection): https://127.0.0.1/hook") := by
    decide +kernel
  rw [hexplicit] at halike
  have halike : RegisteredAlike { url := "https://127.0.0.1/hook" }
      (registerInline { middlewares := 0 } .blocking (.ok true) "t"
        (some (.v10 { taskPushNotificationConfig := some { url := "https://127.0.0.1/hook" } }))
        "a") (.rejected (badRequest
          "Webhook URL rejected (SSRF protection): https://127.0.0.1/hook")) := halike
  rw [hinline] at halike
  exact halike

end A2AKit
