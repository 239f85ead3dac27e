/-
What a call of the client means at the task manager.

`send` and `send_parts` build the params of version 0.3, with nothing in them that is absent.  The
transports of version 1.0 make a request of them by hand, those of version 0.3 leave that to the
server, which converts the params; the task manager fills in what is missing.

* `means_same_iff` — a request means what was passed if and only if the call is a blocking one and,
  over version 1.0, has no push configuration;
* `push_config_lost` — a blocking call whose push configuration does not arrive.
-/
import A2AKit.ClientNetwork
import A2AKit.InlinePush

namespace A2AKit

/-- `v03.Message`, of the user. -/
structure V03.Message (P M : Type) where
  parts : List P
  messageId : String
  taskId : Option String := none
  contextId : Option String := none
  metadata : Option M := none
  deriving DecidableEq, Repr

/-- `v03.MessageSendParams` -/
structure V03.MessageSendParams (P M : Type) where
  message : V03.Message P M
  configuration : Option V03.MessageSendConfiguration := none
  deriving DecidableEq, Repr

/-- `v10.Message`, of the user. -/
structure V10.Message (Q M : Type) where
  parts : List Q
  messageId : String
  taskId : Option String := none
  contextId : Option String := none
  metadata : Option M := none
  deriving DecidableEq, Repr

/-- `v10.SendMessageRequest` -/
structure V10.SendMessageRequest (Q M : Type) where
  message : V10.Message Q M
  configuration : Option V10.SendMessageConfiguration := none
  deriving DecidableEq, Repr

/-- `convert_to_v10`, of a part, a message and the params. -/
structure Conversion (P Q M : Type) where
  part : P → Q
  message : V03.Message P M → V10.Message Q M
  params : V03.MessageSendParams P M → V10.SendMessageRequest Q M

/-! ### The params -/

/-- A call of the client, with `uuid4` for the ids that are drawn. -/
structure SendCall (P : Type) (M : Type) where
  parts : List P
  taskId : Option String := none
  contextId : Option String := none
  blocking : Bool := true
  metadata : Option M := none
  pushNotificationConfig : Option V03.PushNotificationConfig := none
  messageUuid : String
  contextUuid : String
  deriving Repr

section

variable {P Q M : Type}

/-- The call that `send` makes of a text. -/
def SendCall.ofText (textPart : String → P) (text : String) (taskId contextId : Option String)
    (blocking : Bool) (metadata : Option M) (pushUrl pushToken : Option String)
    (messageUuid contextUuid : String) : SendCall P M :=
  { parts := [textPart text], taskId, contextId, blocking, metadata, messageUuid, contextUuid
    pushNotificationConfig :=
      if isText pushUrl then
        some { url := pushUrl.getD "", token := if isText pushToken then pushToken else none }
      else none }

/-- `_build_params` -/
def buildParams (call : SendCall P M) : V03.MessageSendParams P M where
  message :=
    { parts := call.parts
      messageId := call.messageUuid
      taskId := call.taskId
      contextId :=
        if isText call.contextId then call.contextId
        else if call.taskId = none then some call.contextUuid
        else none
      metadata := call.metadata }
  configuration :=
    if call.blocking = false ∧ call.pushNotificationConfig = none then none
    else some
      { blocking := if call.blocking then some true else none
        pushNotificationConfig := call.pushNotificationConfig }

/-! ### The transports -/

/-- `_to_v10_request`, of the REST and the JSON-RPC transport. -/
def toV10Request (conv : Conversion P Q M) (params : V03.MessageSendParams P M) :
    V10.SendMessageRequest Q M where
  message := conv.message params.message
  configuration := params.configuration.bind fun config =>
    if config.blocking = none ∧ config.acceptedOutputModes = [] ∧ config.historyLength = none then
      none
    else some
      { returnImmediately := config.blocking.map (!·)
        acceptedOutputModes := config.acceptedOutputModes
        historyLength := config.historyLength }

def Transport.isV10 : Transport → Bool
  | .rest => false
  | .restV10 => true
  | .jsonRpc => false
  | .jsonRpcV10 => true

/-- The request that reaches `TaskManager.send_message`. -/
def Transport.received (t : Transport) (conv : Conversion P Q M)
    (params : V03.MessageSendParams P M) : V10.SendMessageRequest Q M :=
  if t.isV10 then toV10Request conv params else conv.params params

/-! ### Its meaning -/

/-- The conversion keeps the message, the blocking flag and the push configuration of the params, and
an absent configuration absent. -/
structure Conversion.Keeps (conv : Conversion P Q M) (params : V03.MessageSendParams P M) : Prop where
  message : conv.message params.message =
    { parts := params.message.parts.map conv.part, messageId := params.message.messageId
      taskId := params.message.taskId, contextId := params.message.contextId
      metadata := params.message.metadata }
  paramsMessage : (conv.params params).message = conv.message params.message
  absent : params.configuration = none → (conv.params params).configuration = none
  configuration : ∀ config, params.configuration = some config →
    ∃ config', (conv.params params).configuration = some config' ∧
      config'.returnImmediately = config.blocking.map (!·) ∧
      extractInlinePushConfig (some (.v10 config')) = extractInlinePushConfig (some (.v03 config))

/-- What the task manager reads from the request is what was passed. -/
structure MeansSame (conv : Conversion P Q M) (call : SendCall P M)
    (request : V10.SendMessageRequest Q M) : Prop where
  parts : request.message.parts = call.parts.map conv.part
  messageId : request.message.messageId = call.messageUuid
  taskId : request.message.taskId = call.taskId
  contextId : request.message.contextId = (buildParams call).message.contextId ∧
    (isText call.contextId = true → request.message.contextId = call.contextId)
  metadata : request.message.metadata = call.metadata
  blocking : isBlocking request.configuration = true ↔ call.blocking = true
  push : extractInlinePushConfig (request.configuration.map .v10) =
    call.pushNotificationConfig.map (·.inlined)

variable {conv : Conversion P Q M} {call : SendCall P M}

/-- The message arrives over every transport. -/
theorem received_message (t : Transport) (hkeeps : conv.Keeps (buildParams call)) :
    (t.received conv (buildParams call)).message =
      { parts := call.parts.map conv.part, messageId := call.messageUuid, taskId := call.taskId
        contextId := (buildParams call).message.contextId, metadata := call.metadata } := by
  unfold Transport.received
  split
  · exact hkeeps.message
  · exact hkeeps.paramsMessage.trans hkeeps.message

/-- A transport of version 1.0 sends the flag of a blocking call and nothing else. -/
theorem configuration_toV10Request (conv : Conversion P Q M) (call : SendCall P M) :
    (toV10Request conv (buildParams call)).configuration =
      if call.blocking then some { returnImmediately := some false } else none := by
  unfold toV10Request buildParams
  cases call.blocking <;> cases call.pushNotificationConfig <;> rfl

/-- The params of version 0.3 have the flag if it is set. -/
theorem configuration_buildParams {config : V03.MessageSendConfiguration}
    (h : (buildParams call).configuration = some config) :
    config.blocking = (if call.blocking then some true else none) ∧
      config.pushNotificationConfig = call.pushNotificationConfig := by
  unfold buildParams at h
  dsimp only at h
  split at h
  · exact nomatch h
  · cases h
    exact ⟨rfl, rfl⟩

/-- Every request is taken for a blocking one, since the flag of one that is not is left out. -/
theorem isBlocking_received (t : Transport) (hkeeps : conv.Keeps (buildParams call)) :
    isBlocking (t.received conv (buildParams call)).configuration = true := by
  unfold Transport.received
  split
  · rw [configuration_toV10Request]
    cases call.blocking <;> rfl
  · cases hconfig : (buildParams call).configuration with
    | none =>
      rw [hkeeps.absent hconfig]
      rfl
    | some config =>
      obtain ⟨config', hconfig', hreturn, -⟩ := hkeeps.configuration config hconfig
      rw [(configuration_buildParams hconfig).1] at hreturn
      rw [hconfig', isBlocking, Option.bind_some, hreturn]
      cases call.blocking <;> rfl

/-- The push configuration arrives over version 0.3, and none does over version 1.0. -/
theorem push_received (t : Transport) (hkeeps : conv.Keeps (buildParams call)) :
    extractInlinePushConfig ((t.received conv (buildParams call)).configuration.map .v10) =
      if t.isV10 then none else call.pushNotificationConfig.map (·.inlined) := by
  unfold Transport.received
  split
  · rw [configuration_toV10Request]
    cases call.blocking <;> rfl
  · cases hconfig : (buildParams call).configuration with
    | none =>
      rw [hkeeps.absent hconfig]
      have hnone : call.pushNotificationConfig = none := by
        by_contra hsome
        have hpresent : ¬ (call.blocking = false ∧ call.pushNotificationConfig = none) :=
          fun h => hsome h.2
        unfold buildParams at hconfig
        rw [if_neg hpresent] at hconfig
        exact nomatch hconfig
      rw [hnone]
      rfl
    | some config =>
      obtain ⟨config', hconfig', -, hpush⟩ := hkeeps.configuration config hconfig
      rw [hconfig', Option.map_some, hpush, ← (configuration_buildParams hconfig).2]
      rfl

/-- **A call means the same over a transport if and only if it is a blocking one and, over version
1.0, has no push configuration.** -/
theorem means_same_iff (conv : Conversion P Q M) (call : SendCall P M) (t : Transport)
    (hkeeps : conv.Keeps (buildParams call)) :
    MeansSame conv call (t.received conv (buildParams call)) ↔
      call.blocking = true ∧ (t.isV10 = true → call.pushNotificationConfig = none) := by
  have hmessage := received_message t hkeeps
  have hpush := push_received t hkeeps
  constructor
  · intro hsame
    refine ⟨hsame.blocking.mp (isBlocking_received t hkeeps), fun ht => ?_⟩
    rw [ht] at hpush
    exact Option.map_eq_none_iff.mp (hsame.push.symm.trans hpush)
  · rintro ⟨hblocking, hnone⟩
    refine ⟨by rw [hmessage], by rw [hmessage], by rw [hmessage], ⟨by rw [hmessage], fun hgiven => ?_⟩,
      by rw [hmessage], iff_of_true (isBlocking_received t hkeeps) hblocking, ?_⟩
    · rw [hmessage]
      exact if_pos hgiven
    · rw [hpush]
      split
      · rename_i ht
        rw [hnone ht]
        rfl
      · rfl

end

/-! ### A conversion -/

/-- Converts as documented, for authentication with at most one scheme. -/
def plainConversion : Conversion String String Unit where
  part := id
  message m :=
    { parts := m.parts, messageId := m.messageId, taskId := m.taskId, contextId := m.contextId
      metadata := m.metadata }
  params p :=
    { message :=
        { parts := p.message.parts, messageId := p.message.messageId, taskId := p.message.taskId
          contextId := p.message.contextId, metadata := p.message.metadata }
      configuration := p.configuration.map fun config =>
        { returnImmediately := config.blocking.map (!·)
          taskPushNotificationConfig := config.pushNotificationConfig.map fun push =>
            { id := push.id, url := push.url, token := push.token
              authentication := push.authentication.map fun auth =>
                { scheme := auth.schemes.headD "", credentials := auth.credentials } }
          acceptedOutputModes := config.acceptedOutputModes
          historyLength := config.historyLength } }

/-- A text, with a webhook. -/
def reportCall : SendCall String Unit :=
  .ofText id "Generate report" none none true none (some "https://example.com/hook") (some "token")
    "m" "c"

theorem plainConversion_keeps : plainConversion.Keeps (buildParams reportCall) where
  message := by rfl
  paramsMessage := by rfl
  absent := nofun
  configuration config hconfig := by
    cases hconfig
    exact ⟨_, rfl, rfl, rfl⟩

/-- Over JSON-RPC of version 0.3 the webhook arrives. -/
theorem means_same_report :
    MeansSame plainConversion reportCall
      (Transport.jsonRpc.received plainConversion (buildParams reportCall)) :=
  (means_same_iff plainConversion reportCall .jsonRpc plainConversion_keeps).mpr ⟨rfl, nofun⟩

/-- **Over REST of version 1.0 it does not.** -/
theorem push_config_lost : ¬ ∀ (conv : Conversion String String Unit) (call : SendCall String Unit)
    (t : Transport), conv.Keeps (buildParams call) →
      MeansSame conv call (t.received conv (buildParams call)) := by
  intro hall
  have hsame := hall plainConversion reportCall .restV10 plainConversion_keeps
  exact absurd hsame.push (by decide)

end A2AKit
