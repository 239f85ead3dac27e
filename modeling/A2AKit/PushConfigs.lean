/-
Push notification configurations.

The stored configuration of a task, the store that keeps the configurations of every task by their
ids, and the headers a webhook is called with.
-/
import A2AKit.Task

namespace A2AKit

/-- `PushNotificationAuthenticationInfo` -/
structure PushNotificationAuthenticationInfo where
  schemes : List String
  credentials : Option String := none
  deriving DecidableEq, Repr

/-- `PushNotificationConfig` -/
structure PushNotificationConfig where
  id : Option String := none
  url : String
  token : Option String := none
  authentication : Option PushNotificationAuthenticationInfo := none
  deriving DecidableEq, Repr

/-- `TaskPushNotificationConfig` -/
structure TaskPushNotificationConfig where
  taskId : TaskId
  id : Option String := none
  url : String
  token : Option String := none
  authentication : Option PushNotificationAuthenticationInfo := none
  deriving DecidableEq, Repr

/-- `config.push_notification_config` -/
def TaskPushNotificationConfig.pushNotificationConfig (config : TaskPushNotificationConfig) :
    PushNotificationConfig :=
  { id := config.id, url := config.url, token := config.token
    authentication := config.authentication }

/-- `a or b`, for a text that may be missing. -/
def textOr (a : Option String) (b : String) : String :=
  match a with
  | none => b
  | some s => if s = "" then b else s

/-- `if a:` -/
def isText (a : Option String) : Bool :=
  match a with
  | none => false
  | some s => s ≠ ""

/-- `_build_headers` -/
def buildHeaders (config : TaskPushNotificationConfig) : List (String × String) :=
  [("Content-Type", "application/json"), ("User-Agent", "a2akit-push/0.1")] ++
    (if isText config.token then [("X-A2A-Notification-Token", config.token.getD "")] else []) ++
    match config.authentication with
    | none => []
    | some auth =>
      match auth.schemes with
      | [] => []
      | scheme :: _ =>
        if isText auth.credentials then
          [("Authorization", scheme ++ " " ++ auth.credentials.getD "")]
        else []

/-- The dict of a task: the configurations by id, in the order in which the ids came. -/
abbrev TaskConfigs := List (String × TaskPushNotificationConfig)

namespace InMemoryPushConfigStore

/-- `task_configs[config_id] = tpnc` -/
def put (configs : TaskConfigs) (configId : String) (tpnc : TaskPushNotificationConfig) :
    TaskConfigs :=
  if configs.any (·.1 = configId) then
    configs.map fun e => if e.1 = configId then (configId, tpnc) else e
  else configs ++ [(configId, tpnc)]

/-- What `set_config` stores; `uuid` is the id of a configuration without one. -/
def stored (taskId : TaskId) (config : PushNotificationConfig) (uuid : String) :
    TaskPushNotificationConfig :=
  { taskId, id := some (textOr config.id uuid), url := config.url, token := config.token
    authentication := config.authentication }

/-- `set_config` -/
def setConfig (configs : TaskConfigs) (taskId : TaskId) (config : PushNotificationConfig)
    (uuid : String) : TaskConfigs :=
  put configs (textOr config.id uuid) (stored taskId config uuid)

/-- `get_config` -/
def getConfig (configs : TaskConfigs) (configId : Option String) :
    Option TaskPushNotificationConfig :=
  if isText configId then configs.lookup (configId.getD "") else (configs.map Prod.snd).head?

/-- `delete_config` -/
def deleteConfig (configs : TaskConfigs) (configId : String) : TaskConfigs × Bool :=
  (configs.filter (·.1 ≠ configId), configs.any (·.1 = configId))

/-- `get_configs_for_delivery` -/
def getConfigsForDelivery (configs : TaskConfigs) : List TaskPushNotificationConfig :=
  configs.map Prod.snd

end InMemoryPushConfigStore

end A2AKit
