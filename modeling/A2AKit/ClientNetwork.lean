/-
Network failures at the client.

A call of `A2AClient.send` makes attempts until one succeeds or fails with an exception that is not
to be retried; `connect` runs the health checks of the interfaces on the card until one of them is
accepted.  The JSON-RPC transports raise a `ProtocolError` for a failed request, which is neither
retried nor skipped.

* `network_failures_iff` — when every transport makes the attempts it is asked for and `connect`
  selects the first candidate that is not down;
* `connect_error_not_retried` — one connect error, on two transports.
-/
import A2AKit.Attempts
import A2AKit.Endpoints

namespace A2AKit

/-! ### Exceptions -/

/-- The `httpx.RequestError`s that matter here. -/
inductive NetworkError
  | connectError
  | connectTimeout
  | readTimeout
  | other
  deriving DecidableEq, Repr

/-- What a transport raises.  A `ProtocolError` has its description. -/
inductive ClientExc
  | network (e : NetworkError) (text : String)
  | httpStatus (statusCode : Nat)
  | protocol (description : String)
  | versionMismatch (detail : String)
  | taskNotFound
  | taskNotCancelable
  | taskTerminal
  | client (text : String)
  | other
  deriving DecidableEq, Repr

/-- The class of an exception. -/
inductive ExcClass
  | network (e : NetworkError)
  | httpStatusError
  | protocolError
  | protocolVersionMismatchError
  | taskNotFoundError
  | taskNotCancelableError
  | taskTerminalError
  | clientError
  | other
  deriving DecidableEq, Repr

def ClientExc.excClass : ClientExc → ExcClass
  | .network e _ => .network e
  | .httpStatus _ => .httpStatusError
  | .protocol _ => .protocolError
  | .versionMismatch _ => .protocolVersionMismatchError
  | .taskNotFound => .taskNotFoundError
  | .taskNotCancelable => .taskNotCancelableError
  | .taskTerminal => .taskTerminalError
  | .client _ => .clientError
  | .other => .other

/-- The default of `retry_on` -/
def defaultRetryOn : ExcClass → Bool
  | .network .connectError => true
  | .network .connectTimeout => true
  | .network .readTimeout => true
  | _ => false

/-- `needle in text` -/
def containsText (needle text : String) : Bool := decide (needle.toList <:+: text.toList)

/-! ### Transports -/

inductive Transport
  | rest
  | restV10
  | jsonRpc
  | jsonRpcV10
  deriving DecidableEq, Repr

def Transport.isJsonRpc : Transport → Bool
  | .rest => false
  | .restV10 => false
  | .jsonRpc => true
  | .jsonRpcV10 => true

/-- How a request fails in the network. -/
structure Outage where
  error : NetworkError
  text : String
  deriving DecidableEq, Repr

/-- What is raised for it: `_call` of JSON-RPC raises an exception of its own. -/
def Transport.raised (t : Transport) (o : Outage) : ClientExc :=
  if t.isJsonRpc then .protocol ("Request failed: " ++ o.text) else .network o.error o.text

/-- `send_message`, for a request that fails in the network or is answered with a result. -/
def Transport.sendMessage {τ : Type} (t : Transport) (outcome : Except Outage τ) :
    Except ClientExc τ :=
  match outcome with
  | .error o => .error (t.raised o)
  | .ok result => .ok result

/-! ### Retries -/

section

variable {τ : Type} (retryOn : ExcClass → Bool)

/-- `except self._retry_on` -/
def retries (e : ClientExc) : Bool := retryOn e.excClass

/-- `_with_retry`, with the number of attempts. -/
def withRetry (maxRetries : Nat) (call : Nat → Except ClientExc τ) : Nat × Except ClientExc τ :=
  let (last, result) := Attempts.loop (retries retryOn) call maxRetries 0
  (last + 1, result)

/-- `send_parts`, with the number of attempts. -/
def sendParts (t : Transport) (maxRetries : Int) (outcomes : Nat → Except Outage τ) :
    Nat × Except ClientExc τ :=
  if 0 < maxRetries then
    withRetry retryOn maxRetries.toNat fun attempt => t.sendMessage (outcomes attempt)
  else (1, t.sendMessage (outcomes 0))

/-- The exception of the network itself. -/
def Outage.exc (o : Outage) : ClientExc := .network o.error o.text

/-- What the promise is: attempts as long as the network fails with an exception of `retry_on`, and
what the last one came to. -/
def RetriedAsAsked (maxRetries : Int) (outcomes : Nat → Except Outage τ)
    (sent : Nat × Except ClientExc τ) : Prop :=
  ∃ k, sent.1 = k + 1 ∧ Attempts.Ends (retries retryOn)
    (fun attempt => (outcomes attempt).mapError Outage.exc) maxRetries.toNat k sent.2

/-- The first attempt succeeds, or all that fail before one does are retried, as a `ProtocolError`
is. -/
def SucceedsAnyway (maxRetries : Int) (outcomes : Nat → Except Outage τ) : Prop :=
  ∃ k ≤ maxRetries.toNat, (∃ result, outcomes k = .ok result) ∧
    ∀ i < k, ∃ o, outcomes i = .error o ∧ retryOn (.network o.error) = true ∧
      retryOn .protocolError = true

end

/-! ### Health checks -/

/-- The body of an answer, as JSON-RPC reads it. -/
inductive RpcBody
  | result
  | error (code : Int) (message : String) (reason : String)
  | invalidJson (text : String)
  | malformed
  deriving DecidableEq, Repr

/-- An answer to a health check. -/
structure HealthResponse where
  status : Nat
  text : String := ""
  body : RpcBody := .result
  deriving DecidableEq, Repr

def HealthResponse.isSuccess (r : HealthResponse) : Bool := 200 ≤ r.status && r.status < 300

/-- `_exc_from_reason` -/
def excFromReason (reason message : String) : ClientExc :=
  if reason = "TASK_NOT_FOUND" then .taskNotFound
  else if reason = "TASK_NOT_CANCELABLE" then .taskNotCancelable
  else if reason = "TASK_TERMINAL_STATE" then .taskTerminal
  else .client (if message = "" then reason else message)

/-- The exception of `_handle_response` for an error of version 0.3. -/
def excFromCode (code : Int) (message : String) : ClientExc :=
  if code = -32009 then .versionMismatch message
  else if code = -32001 then .taskNotFound
  else if code = -32002 then .taskNotCancelable
  else if code = -32004 then .taskTerminal
  else if code = -32602 then .client message
  else .protocol s!"JSON-RPC error {code}: {message}"

/-- The exception of `_handle_response` for an error of version 1.0. -/
def excFromErrorInfo (code : Int) (message reason : String) : ClientExc :=
  if containsText "Unsupported A2A version" message then .versionMismatch message
  else if reason ≠ "" then excFromReason reason message
  else if code = -32001 then .taskNotFound
  else .protocol s!"JSON-RPC error {code}: {message}"

/-- `_handle_response` -/
def Transport.handleResponse (t : Transport) : RpcBody → Except ClientExc Unit
  | .result => .ok ()
  | .error code message reason =>
    if t = .jsonRpc then .error (excFromCode code message)
    else .error (excFromErrorInfo code message reason)
  | .invalidJson text => .error (.protocol s!"Invalid JSON response: {text}")
  | .malformed => .error .other

/-- `_call` -/
def Transport.call (t : Transport) : Except Outage HealthResponse → Except ClientExc Unit
  | .error o => .error (t.raised o)
  | .ok r =>
    if r.isSuccess then t.handleResponse r.body
    else if r.status = 400 ∧ containsText "Unsupported A2A version" r.text then
      .error (.versionMismatch r.text)
    else .error (.protocol s!"HTTP {r.status}: {r.text}")

/-- `health_check` -/
def Transport.healthCheck (t : Transport) (answer : Except Outage HealthResponse) :
    Except ClientExc Unit :=
  if t.isJsonRpc then t.call answer
  else
    match answer with
    | .error o => .error (t.raised o)
    | .ok r => if r.isSuccess then .ok () else .error (.httpStatus r.status)

/-! ### Fallback -/

structure Candidate where
  url : String
  proto : String
  wireVersion : String
  deriving DecidableEq, Repr

/-- `_create_transport` -/
def createTransport (c : Candidate) : Transport :=
  if c.wireVersion.startsWith "1" then
    if c.proto = "http+json" then .restV10 else .jsonRpcV10
  else if c.proto = "http+json" then .rest
  else .jsonRpc

/-- `wire_version in supported` -/
def Candidate.supported (c : Candidate) : Bool := c.wireVersion = "0.3" || c.wireVersion = "1.0"

/-- A health check with this exception makes `connect` go on to the next candidate. -/
def skips : ClientExc → Bool
  | .network .connectError _ => true
  | .network .connectTimeout _ => true
  | .network _ _ => false
  | .protocol description => containsText "HTTP 5" ("Protocol error: " ++ description)
  | .httpStatus statusCode => 500 ≤ statusCode
  | _ => false

/-- A candidate, and what its health check meets. -/
abbrev Probe := Candidate × Except Outage HealthResponse

inductive Connection
  | selected (index : Nat)
  | versionMismatch (versions : List String)
  | agentNotFound (errors : List (Candidate × ClientExc))
  deriving DecidableEq, Repr

/-- The loop over the candidates, from candidate `index` on. -/
def tryCandidates (index : Nat) (errors : List (Candidate × ClientExc)) : List Probe → Connection
  | [] => .agentNotFound errors
  | (candidate, answer) :: rest =>
    if !candidate.supported then tryCandidates (index + 1) errors rest
    else
      match (createTransport candidate).healthCheck answer with
      | .ok _ => .selected index
      | .error e =>
        if skips e then tryCandidates (index + 1) (errors ++ [(candidate, e)]) rest
        else .selected index

/-- `connect`, once it has the candidates. -/
def connect (probes : List Probe) : Connection :=
  if !probes.isEmpty && probes.all fun p => !p.1.supported then
    .versionMismatch (probes.map fun p => p.1.wireVersion)
  else tryCandidates 0 [] probes

/-- The health check fails with a connection error or a 5xx answer. -/
def backendDown : Except Outage HealthResponse → Bool
  | .error o => o.error = .connectError || o.error = .connectTimeout
  | .ok r => 500 ≤ r.status && r.status < 600

/-- What the promise is: the first candidate that is not down, of those in a version that the client
speaks. -/
def ConnectsAsPromised (probes : List Probe) : Prop :=
  match probes.findIdx? fun p => p.1.supported && !backendDown p.2 with
  | some index => connect probes = .selected index
  | none => ∃ errors, connect probes = .agentNotFound errors

/-- The text of the exception is taken for a 5xx answer. -/
def looksDown (t : Transport) (answer : Except Outage HealthResponse) : Bool :=
  match t.healthCheck answer with
  | .error (.protocol description) => containsText "HTTP 5" ("Protocol error: " ++ description)
  | _ => false

/-- A health check that `connect` takes for another: of JSON-RPC, a connection error that does not
look like a 5xx answer, or something else that does; of REST, an answer beyond 5xx. -/
def Misjudged (p : Probe) : Prop :=
  let t := createTransport p.1
  if t.isJsonRpc then
    if backendDown p.2 then (∃ o, p.2 = .error o) ∧ looksDown t p.2 = false
    else looksDown t p.2 = true
  else ∃ r, p.2 = .ok r ∧ 600 ≤ r.status

/-- Before the first candidate that `connect` is to select, none is misjudged, and neither is that
one. -/
def JudgedRight (probes : List Probe) : Prop :=
  ∀ (i : Nat) (p : Probe), probes[i]? = some p → p.1.supported = true →
    (∀ j < i, ∀ q, probes[j]? = some q → (q.1.supported && !backendDown q.2) = false) → ¬ Misjudged p

/-! ### Attempts -/

section

variable {τ : Type} {retryOn : ExcClass → Bool} {maxRetries : Int}
  {outcomes : Nat → Except Outage τ}

theorem sendParts_ends (retryOn : ExcClass → Bool) (maxRetries : Int)
    (outcomes : Nat → Except Outage τ) (t : Transport) :
    ∃ k, (sendParts retryOn t maxRetries outcomes).1 = k + 1 ∧
      Attempts.Ends (retries retryOn) (fun attempt => t.sendMessage (outcomes attempt))
        maxRetries.toNat k (sendParts retryOn t maxRetries outcomes).2 := by
  unfold sendParts
  split
  · exact ⟨_, rfl, Attempts.loop_ends _ _ _⟩
  · rename_i hnone
    have hzero : maxRetries.toNat = 0 := by omega
    rw [hzero]
    exact ⟨0, rfl, Nat.le_refl 0, fun i hi => absurd hi (Nat.not_lt_zero i), rfl, fun _ _ _ => rfl⟩

/-- Where an attempt succeeds after failures that every transport retries, all come to that. -/
theorem retriedAsAsked_of_succeeds (h : SucceedsAnyway retryOn maxRetries outcomes) (t : Transport) :
    RetriedAsAsked retryOn maxRetries outcomes (sendParts retryOn t maxRetries outcomes) := by
  obtain ⟨k, hk, ⟨result, hresult⟩, hbefore⟩ := h
  have hended : Attempts.Ends (retries retryOn) (fun attempt => t.sendMessage (outcomes attempt))
      maxRetries.toNat k (.ok result) := by
    refine ⟨hk, fun i hi => ?_, by rw [hresult]; rfl, nofun⟩
    obtain ⟨o, ho, hnetwork, hprotocol⟩ := hbefore i hi
    refine ⟨t.raised o, by rw [ho]; rfl, ?_⟩
    unfold retries Transport.raised
    split
    · exact hprotocol
    · exact hnetwork
  obtain ⟨last, hlast, hends⟩ := sendParts_ends retryOn maxRetries outcomes t
  obtain ⟨rfl, hsame⟩ := hends.unique hended
  refine ⟨last, hlast, hk, fun i hi => ?_, by rw [hsame, hresult]; rfl, ?_⟩
  · obtain ⟨o, ho, hnetwork, -⟩ := hbefore i hi
    exact ⟨o.exc, by rw [ho]; rfl, hnetwork⟩
  · intro e he
    rw [hsame] at he
    exact nomatch he

/-- A `ProtocolError` is never what the network came to, so JSON-RPC has to succeed. -/
theorem succeeds_of_retriedAsAsked
    (h : RetriedAsAsked retryOn maxRetries outcomes (sendParts retryOn .jsonRpc maxRetries outcomes)) :
    SucceedsAnyway retryOn maxRetries outcomes := by
  obtain ⟨k, hk, hnetwork⟩ := h
  obtain ⟨last, hlast, hends⟩ := sendParts_ends retryOn maxRetries outcomes .jsonRpc
  obtain rfl : last = k := by omega
  have hsame := hends.last.trans hnetwork.last.symm
  refine ⟨last, hends.bound, ?_, fun i hi => ?_⟩
  · cases houtcome : outcomes last with
    | ok result => exact ⟨result, rfl⟩
    | error o =>
      rw [houtcome] at hsame
      exact nomatch hsame
  · obtain ⟨e, he, hretried⟩ := hnetwork.before i hi
    obtain ⟨e', he', hretried'⟩ := hends.before i hi
    cases houtcome : outcomes i with
    | ok result =>
      rw [houtcome] at he
      exact nomatch he
    | error o =>
      rw [houtcome] at he he'
      cases he
      cases he'
      exact ⟨o, rfl, hretried, hretried'⟩

end

/-! ### Judging a health check -/

/-- A 5xx answer says so in its text. -/
theorem containsText_status {n : Nat} (h : 500 ≤ n) (h' : n < 600) (text : String) :
    containsText "HTTP 5" ("Protocol error: " ++ s!"HTTP {n}: {text}") = true := by
  have hdigits : ∀ m < 100, (toString (500 + m)).toList.head? = some '5' := by decide +kernel
  have hhead := hdigits (n - 500) (by omega)
  rw [show 500 + (n - 500) = n by omega] at hhead
  obtain ⟨rest, hrest⟩ := List.head?_eq_some_iff.mp hhead
  refine decide_eq_true ⟨"Protocol error: ".toList, rest ++ (": " ++ text).toList, ?_⟩
  simp only [String.toList_append, hrest, List.append_assoc]
  rfl

/-- The exceptions of the client library itself. -/
def ClientExc.isHttpx : ClientExc → Bool
  | .network .. => true
  | .httpStatus _ => true
  | _ => false

theorem isHttpx_excFromCode (code : Int) (message : String) :
    (excFromCode code message).isHttpx = false := by
  unfold excFromCode
  repeat' split
  all_goals rfl

theorem isHttpx_excFromErrorInfo (code : Int) (message reason : String) :
    (excFromErrorInfo code message reason).isHttpx = false := by
  unfold excFromErrorInfo excFromReason
  repeat' split
  all_goals rfl

/-- A call of JSON-RPC raises no exception of the client library. -/
theorem isHttpx_call {t : Transport} (ht : t.isJsonRpc = true)
    {answer : Except Outage HealthResponse} {e : ClientExc} (h : t.call answer = .error e) :
    e.isHttpx = false := by
  cases answer with
  | error o =>
    cases h
    rw [Transport.raised, if_pos ht]
    rfl
  | ok r =>
    rw [Transport.call] at h
    split at h
    · cases hbody : r.body with
      | result =>
        rw [hbody] at h
        exact nomatch h
      | error code message reason =>
        rw [hbody, Transport.handleResponse] at h
        split at h
        · cases h
          exact isHttpx_excFromCode code message
        · cases h
          exact isHttpx_excFromErrorInfo code message reason
      | invalidJson text =>
        rw [hbody] at h
        cases h
        rfl
      | malformed =>
        rw [hbody] at h
        cases h
        rfl
    · split at h
      · cases h
        rfl
      · cases h
        rfl

theorem healthCheck_jsonRpc {t : Transport} (ht : t.isJsonRpc = true)
    (answer : Except Outage HealthResponse) : t.healthCheck answer = t.call answer :=
  if_pos ht

/-- `connect` does not accept the candidate. -/
def passesOver (p : Probe) : Bool :=
  match (createTransport p.1).healthCheck p.2 with
  | .ok _ => false
  | .error e => skips e

/-- A candidate of JSON-RPC is skipped if and only if its health check looks like a 5xx answer. -/
theorem passesOver_jsonRpc {p : Probe} (ht : (createTransport p.1).isJsonRpc = true) :
    passesOver p = looksDown (createTransport p.1) p.2 := by
  unfold passesOver looksDown
  cases hcheck : (createTransport p.1).healthCheck p.2 with
  | ok _ => rfl
  | error e =>
    rw [healthCheck_jsonRpc ht] at hcheck
    have hno := isHttpx_call ht hcheck
    cases e with
    | network error text => exact nomatch hno
    | httpStatus statusCode => exact nomatch hno
    | _ => rfl

/-- What is down is passed over, and nothing else, unless the health check is misjudged. -/
theorem passesOver_iff (p : Probe) : passesOver p = backendDown p.2 ↔ ¬ Misjudged p := by
  unfold Misjudged
  dsimp only
  split
  · rename_i ht
    rw [passesOver_jsonRpc ht]
    cases hdown : backendDown p.2 with
    | false => cases looksDown (createTransport p.1) p.2 <;> simp
    | true =>
      rcases hanswer : p.2 with o | r
      · cases looksDown (createTransport p.1) (.error o) <;> simp
      · -- a 5xx answer cannot be overlooked
        rw [hanswer] at hdown
        have hstatus : 500 ≤ r.status ∧ r.status < 600 := by simpa [backendDown] using hdown
        have hlooks : looksDown (createTransport p.1) (.ok r) = true := by
          unfold looksDown
          rw [healthCheck_jsonRpc ht, Transport.call, if_neg (by simp [HealthResponse.isSuccess]; omega),
            if_neg (by omega)]
          exact containsText_status hstatus.1 hstatus.2 r.text
        simp [hlooks]
  · rename_i ht
    unfold passesOver Transport.healthCheck
    rw [if_neg ht]
    rcases hanswer : p.2 with o | r
    · have hraised : (createTransport p.1).raised o = .network o.error o.text := if_neg ht
      dsimp only
      rw [hraised]
      obtain ⟨error, text⟩ := o
      cases error <;> simp [skips, backendDown]
    · by_cases hok : r.isSuccess = true
      · have hstatus : 200 ≤ r.status ∧ r.status < 300 := by
          simpa [HealthResponse.isSuccess] using hok
        simp [hok, backendDown]
        omega
      · simp [hok, skips, backendDown]
        omega

/-! ### The selection -/

/-- `connect` accepts the candidate when it comes to it. -/
def wouldSelect (p : Probe) : Bool := p.1.supported && !passesOver p

/-- The loop selects the first candidate that it accepts. -/
theorem tryCandidates_spec (probes : List Probe) (index : Nat)
    (errors : List (Candidate × ClientExc)) :
    (∀ i, probes.findIdx? wouldSelect = some i →
        tryCandidates index errors probes = .selected (index + i)) ∧
      (probes.findIdx? wouldSelect = none →
        ∃ errors', tryCandidates index errors probes = .agentNotFound errors') := by
  induction probes generalizing index errors with
  | nil => exact ⟨nofun, fun _ => ⟨errors, rfl⟩⟩
  | cons p rest ih =>
    obtain ⟨candidate, answer⟩ := p
    -- what the rest comes to, from the next index on
    have hnext : ∀ errors, wouldSelect (candidate, answer) = false →
        (∀ i, ((candidate, answer) :: rest).findIdx? wouldSelect = some i →
          tryCandidates (index + 1) errors rest = .selected (index + i)) ∧
        (((candidate, answer) :: rest).findIdx? wouldSelect = none →
          ∃ errors', tryCandidates (index + 1) errors rest = .agentNotFound errors') := by
      intro errors hno
      rw [List.findIdx?_cons, hno]
      obtain ⟨hsome, hnone⟩ := ih (index + 1) errors
      constructor
      · intro i hi
        obtain ⟨j, hj, rfl⟩ := Option.map_eq_some_iff.mp hi
        rw [hsome j hj]
        congr 1
        omega
      · intro hi
        exact hnone (Option.map_eq_none_iff.mp hi)
    have hselected : wouldSelect (candidate, answer) = true →
        (∀ i, ((candidate, answer) :: rest).findIdx? wouldSelect = some i →
          Connection.selected index = .selected (index + i)) ∧
        (((candidate, answer) :: rest).findIdx? wouldSelect = none →
          ∃ errors', Connection.selected index = .agentNotFound errors') := by
      intro hyes
      rw [List.findIdx?_cons, hyes]
      exact ⟨fun i hi => by rw [← Option.some_inj.mp hi]; rfl, nofun⟩
    unfold tryCandidates
    split
    · rename_i hunsupported
      exact hnext errors (by simpa [wouldSelect] using fun h => absurd h (by simpa using hunsupported))
    · rename_i hsupported
      have hsupported : candidate.supported = true := by simpa using hsupported
      split
      · rename_i hok
        exact hselected (by simp [wouldSelect, passesOver, hsupported, hok])
      · rename_i e he
        split
        · rename_i hskip
          exact hnext _ (by simp [wouldSelect, passesOver, he, hskip])
        · rename_i hkeep
          exact hselected (by simp [wouldSelect, passesOver, hsupported, he, hkeep])

/-- `connect` keeps its promise if and only if it chooses as it should, and there is a candidate in a
version that it speaks. -/
theorem connects_iff_same (probes : List Probe) :
    ConnectsAsPromised probes ↔ (probes = [] ∨ ∃ p ∈ probes, p.1.supported = true) ∧
      probes.findIdx? wouldSelect =
        probes.findIdx? fun p => p.1.supported && !backendDown p.2 := by
  obtain ⟨hsome, hnone⟩ := tryCandidates_spec probes 0 []
  unfold ConnectsAsPromised
  by_cases hrefused : (!probes.isEmpty && probes.all fun p => !p.1.supported) = true
  · have hconnect : connect probes = .versionMismatch (probes.map fun p => p.1.wireVersion) :=
      if_pos hrefused
    rw [Bool.and_eq_true, List.all_eq_true] at hrefused
    have hempty : probes ≠ [] := by simpa using hrefused.1
    refine iff_of_false (fun h => ?_) ?_
    · rw [hconnect] at h
      split at h
      · exact nomatch h
      · obtain ⟨errors, h⟩ := h
        exact nomatch h
    · rintro ⟨hany, -⟩
      obtain ⟨p, hp, hsupported⟩ := hany.resolve_left hempty
      have := hrefused.2 p hp
      rw [hsupported] at this
      exact nomatch this
  · have hconnect : connect probes = tryCandidates 0 [] probes := if_neg hrefused
    have hspoken : probes = [] ∨ ∃ p ∈ probes, p.1.supported = true := by
      by_contra hno
      push Not at hno
      refine hrefused ?_
      rw [Bool.and_eq_true, List.all_eq_true]
      exact ⟨by simpa using hno.1, fun p hp => by simpa using hno.2 p hp⟩
    rw [and_iff_right hspoken, hconnect]
    cases hchosen : probes.findIdx? wouldSelect with
    | none =>
      obtain ⟨errors, herrors⟩ := hnone hchosen
      rw [herrors]
      split
      · rename_i i hi
        rw [hi]
        exact iff_of_false nofun nofun
      · rename_i hi
        exact iff_of_true ⟨errors, rfl⟩ hi.symm
    | some j =>
      rw [hsome j hchosen]
      split
      · rename_i i hi
        rw [hi, Nat.zero_add]
        exact ⟨fun h => congrArg some (Connection.selected.inj h),
          fun h => congrArg Connection.selected (Option.some_inj.mp h)⟩
      · rename_i hi
        rw [hi]
        exact iff_of_false nofun nofun

theorem connects_iff (probes : List Probe) :
    ConnectsAsPromised probes ↔
      (probes = [] ∨ ∃ p ∈ probes, p.1.supported = true) ∧ JudgedRight probes := by
  rw [connects_iff_same, Attempts.findIdx?_eq_iff]
  refine and_congr_right fun _ => forall₃_congr fun i p hp => ?_
  constructor
  · intro h hsupported hopen
    have hsame := h hopen
    unfold wouldSelect at hsame
    rw [hsupported] at hsame
    exact (passesOver_iff p).mp (by simpa using hsame)
  · intro h hopen
    unfold wouldSelect
    cases hsupported : p.1.supported with
    | false => rfl
    | true => rw [(passesOver_iff p).mpr (h hsupported hopen)]

/-- **Network failures are handled alike if and only if the first attempt succeeds, or a
`ProtocolError` is retried with the others and an attempt succeeds, and no health check that
`connect` comes to is misjudged.** -/
theorem network_failures_iff {τ : Type} (retryOn : ExcClass → Bool) (maxRetries : Int)
    (outcomes : Nat → Except Outage τ) (probes : List Probe) :
    ((∀ t, RetriedAsAsked retryOn maxRetries outcomes (sendParts retryOn t maxRetries outcomes)) ∧
        ConnectsAsPromised probes) ↔
      SucceedsAnyway retryOn maxRetries outcomes ∧
        (probes = [] ∨ ∃ p ∈ probes, p.1.supported = true) ∧ JudgedRight probes := by
  rw [connects_iff]
  refine and_congr_left fun _ => ⟨fun h => ?_, retriedAsAsked_of_succeeds⟩
  exact succeeds_of_retriedAsAsked (h .jsonRpc)

/-! ### One connect error -/

/-- The first attempt fails to connect, and the second succeeds. -/
def secondSucceeds (attempt : Nat) : Except Outage Unit :=
  if attempt = 0 then .error { error := .connectError, text := "All connection attempts failed" }
  else .ok ()

/-- **With one retry, REST makes two attempts and succeeds, and JSON-RPC makes one and fails.** -/
theorem connect_error_not_retried : ¬ ∀ (maxRetries : Int) (outcomes : Nat → Except Outage Unit)
    (probes : List Probe),
    (∀ t, RetriedAsAsked defaultRetryOn maxRetries outcomes
      (sendParts defaultRetryOn t maxRetries outcomes)) ∧ ConnectsAsPromised probes := by
  intro hall
  obtain ⟨k, hk, hends⟩ := (hall 1 secondSucceeds []).1 .jsonRpc
  have hsent : sendParts defaultRetryOn .jsonRpc 1 secondSucceeds =
      (1, .error (.protocol "Request failed: All connection attempts failed")) := by
    decide +kernel
  rw [hsent] at hk hends
  obtain rfl : k = 0 := by simpa using hk.symm
  exact nomatch hends.last

end A2AKit
