/-
The handlers of the endpoints for push configurations.

They load the task, and read the store of the task or write into it.  A configuration that is
written comes as JSON: it is validated by the model, which counts the errors of all its fields, and
its url by the registration policy, if the delivery service has published one.
-/
import A2AKit.JsonText
import A2AKit.WebhookPinning

namespace A2AKit

/-- The detail of an `HTTPException`. -/
inductive HttpDetail
  | text (detail : String)
  | fields (code : Int) (status : Option String) (message : String)
  deriving DecidableEq, Repr

/-- What an operation of the server raises. -/
inductive ServerExc
  | taskNotFound (text : String)
  | taskTerminalState (text : String)
  | taskNotCancelable (text : String)
  | contextMismatch (text : String)
  | taskNotAcceptingMessages (state : Option TaskState)
  | unsupportedOperation (text : String)
  | contentTypeNotSupported (mimeType : String)
  | invalidAgentResponse (detail : String)
  | concurrency (text : String)
  | authenticationRequired (scheme : String) (realm : String)
  | pushConfigNotFound (text : String)
  | http (statusCode : Nat) (detail : HttpDetail)
  | other (text : String)
  deriving DecidableEq, Repr

/-! ### Validation of a configuration -/

namespace Json

/-- The value of a field `str | None`, or the number of its errors. -/
def optionalText : Option Json → Except Nat (Option String)
  | none => .ok none
  | some .null => .ok none
  | some (.string s) => .ok (some s)
  | some _ => .error 1

/-- A field `str`. -/
def requiredText : Option Json → Except Nat String
  | some (.string s) => .ok s
  | _ => .error 1

/-- The items of a field `list[str]`, each of which may have an error. -/
def textItems : JsonItems → Except Nat (List String)
  | .nil => .ok []
  | .cons j rest =>
    match requiredText (some j), textItems rest with
    | .ok s, .ok items => .ok (s :: items)
    | .ok _, .error n => .error n
    | .error n, .ok _ => .error n
    | .error n, .error m => .error (n + m)

/-- A field `list[str]`. -/
def requiredTexts : Option Json → Except Nat (List String)
  | some (.array items) => textItems items
  | _ => .error 1

/-- The number of errors of a field. -/
def errorCount {α : Type} : Except Nat α → Nat
  | .ok _ => 0
  | .error n => n

end Json

open A2AKit.Json

/-- `PushNotificationAuthenticationInfo.model_validate` -/
def PushNotificationAuthenticationInfo.modelValidate :
    Json → Except Nat PushNotificationAuthenticationInfo
  | .object fields =>
    match requiredTexts (fields.get "schemes"), optionalText (fields.get "credentials") with
    | .ok schemes, .ok credentials => .ok { schemes, credentials }
    | schemes, credentials => .error (errorCount schemes + errorCount credentials)
  | _ => .error 1

/-- The field `authentication`. -/
def optionalAuthentication :
    Option Json → Except Nat (Option PushNotificationAuthenticationInfo)
  | none => .ok none
  | some .null => .ok none
  | some j => (PushNotificationAuthenticationInfo.modelValidate j).map some

/-- `PushNotificationConfig.model_validate` -/
def PushNotificationConfig.modelValidate : Json → Except Nat PushNotificationConfig
  | .object fields =>
    match optionalText (fields.get "id"), requiredText (fields.get "url"),
        optionalText (fields.get "token"), optionalAuthentication (fields.get "authentication") with
    | .ok id, .ok url, .ok token, .ok authentication => .ok { id, url, token, authentication }
    | id, url, token, authentication =>
      .error (errorCount id + errorCount url + errorCount token + errorCount authentication)
  | _ => .error 1

/-! ### The handlers -/

/-- What a url is validated with: the addresses, `urlparse`, with `none` for its exception, the
answers of the resolver, and the policy that was published. -/
structure Registrar where
  lib : AddressLibrary
  urlparse : String → Option ParsedUrl
  ask : List Char → Option (List (List Char))
  policy : Option DeliveryPolicy := none

/-- `resolve_webhook_url`, for the text of a url. -/
def Registrar.resolve (r : Registrar) (policy : DeliveryPolicy) (url : String) : Validation :=
  match r.urlparse url with
  | none => .rejected
  | some parsed => (resolveWebhookUrl r.lib policy r.ask parsed).1

/-- `validate_webhook_url`, under the policy. -/
def Registrar.validate (r : Registrar) (url : String) : Except ServerExc Bool :=
  match r.policy with
  | none => .ok true
  | some policy =>
    match r.resolve policy url with
    | .rejected => .ok false
    | .raised => .error (.other "not an address")
    | .unpinned _ => .ok true
    | .pinned .. => .ok true

/-- `-32602` as the code of an `HTTPException` -/
def badRequest (message : String) : ServerExc := .http 400 (.fields (-32602) none message)

/-- What there is of a task: whether `load_task` finds it, and its configurations. -/
structure PushTask where
  taskId : TaskId
  found : Bool
  configs : TaskConfigs := []

/-- `storage.load_task`, without which nothing else is done. -/
def PushTask.load (task : PushTask) : Except ServerExc Unit :=
  if task.found then .ok () else .error (.taskNotFound s!"Task {task.taskId} not found")

/-- `handle_set_config`: the configuration that is stored.  `uuid` is the id it gets if it has
none. -/
def handleSetConfig (r : Registrar) (task : PushTask) (configData : Json) (uuid : String) :
    Except ServerExc TaskPushNotificationConfig := do
  task.load
  match PushNotificationConfig.modelValidate configData with
  | .error n => throw (badRequest s!"Invalid push config: {n} errors")
  | .ok config =>
    if ← r.validate config.url then
      return InMemoryPushConfigStore.stored task.taskId config uuid
    else throw (badRequest s!"Webhook URL rejected (SSRF protection): {config.url}")

/-- What is stored was validated, for a task that exists, and has a url that passes. -/
theorem handleSetConfig_ok {r : Registrar} {task : PushTask} {configData : Json} {uuid : String}
    {tpnc : TaskPushNotificationConfig} :
    handleSetConfig r task configData uuid = .ok tpnc ↔
      task.found = true ∧ ∃ config, PushNotificationConfig.modelValidate configData = .ok config ∧
        r.validate config.url = .ok true ∧
        tpnc = InMemoryPushConfigStore.stored task.taskId config uuid := by
  unfold handleSetConfig PushTask.load
  cases hfound : task.found with
  | false => exact ⟨nofun, fun h => nomatch h.1⟩
  | true =>
    cases hread : PushNotificationConfig.modelValidate configData with
    | error n => exact ⟨nofun, fun ⟨_, _, h, _⟩ => nomatch h⟩
    | ok config =>
      show (r.validate config.url >>= _) = _ ↔ _
      cases hpass : r.validate config.url with
      | error e =>
        refine ⟨nofun, ?_⟩
        rintro ⟨-, other, hother, h, -⟩
        cases hother
        exact nomatch hpass.symm.trans h
      | ok passes =>
        cases passes with
        | true =>
          refine ⟨fun h => ⟨rfl, config, rfl, hpass, (Except.ok.inj h).symm⟩, ?_⟩
          rintro ⟨-, other, hother, -, rfl⟩
          cases hother
          rfl
        | false =>
          refine ⟨nofun, ?_⟩
          rintro ⟨-, other, hother, h, -⟩
          cases hother
          exact nomatch hpass.symm.trans h

/-- `handle_get_config` -/
def handleGetConfig (task : PushTask) (configId : Option String) :
    Except ServerExc TaskPushNotificationConfig := do
  task.load
  let name := textOr configId "default"
  match InMemoryPushConfigStore.getConfig task.configs configId with
  | none => throw (.pushConfigNotFound s!"Push config {name} not found for task {task.taskId}")
  | some config => return config

/-- `handle_list_configs` -/
def handleListConfigs (task : PushTask) : Except ServerExc (List TaskPushNotificationConfig) := do
  task.load
  return task.configs.map Prod.snd

/-- `handle_delete_config`: what is left. -/
def handleDeleteConfig (task : PushTask) (configId : String) : Except ServerExc TaskConfigs := do
  task.load
  let (rest, deleted) := InMemoryPushConfigStore.deleteConfig task.configs configId
  if deleted then return rest
  else throw (.pushConfigNotFound s!"Push config {configId} not found for task {task.taskId}")

end A2AKit
