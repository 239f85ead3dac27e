/-
Signatures of agent cards.

`verify_agent_card` goes through the signatures of a card and stops at the first one that verifies.
It goes on after an `AgentCardSignatureError` only, and not everything that the header of a
signature can bring about is one.

* `decided_iff` — the call returns if a signature verifies, and raises an `AgentCardSignatureError`
  otherwise, if and only if no signature that it comes to makes another exception, and none verifies
  under a key that is passed over for another one;
* `numeric_jku_escapes` — a number as `jku` hides the good signature behind it.
-/
import A2AKit.JsonText

namespace A2AKit

/-- `v10.AgentCardSignature` -/
structure AgentCardSignature where
  protectedHeader : String
  signature : String

/-- What `urlparse` makes of a URL, as far as it is read. -/
structure KeyUrl where
  scheme : String
  hostname : Option String

/-- The libraries for keys, signatures and canonical JSON, the network and the parsers of texts; an
error is the text of an exception. -/
structure SignatureLibraries where
  Key : Type
  KeySet : Type
  Payload : Type
  RawBody : Type
  /-- `list(jwks)` -/
  keys : KeySet → List Key
  /-- `jwks.get_key(kid)` -/
  getKey : KeySet → Json → Except String (Option Key)
  getKey_mem : ∀ s kid key, getKey s kid = .ok (some key) → key ∈ keys s
  /-- `key.kid == kid` -/
  hasKid : Key → Json → Bool
  /-- A number that is equal to zero. -/
  isZero : NumberText → Bool
  /-- `JWS().deserialize` of a detached signature -/
  deserialize : AgentCardSignature → Except String Unit
  /-- `detached.verify(key, detached_payload=payload)` -/
  verify : AgentCardSignature → Key → Payload → Except String Unit
  /-- `rfc8785.dumps` -/
  dumps : JsonFields → Except String Payload
  /-- `json.loads` of the body -/
  loads : RawBody → Except String Json
  /-- `json.loads(_b64url_decode(protected).decode("utf-8"))` -/
  loadsHeader : String → Except String Json
  urlparse : String → Except String KeyUrl
  /-- The keys at a URL, as they are fetched for a signature. -/
  fetch : Nat → String → Except String KeySet

/-- What an `AgentCardSignatureError` says. -/
inductive SignatureFailure where
  | malformedJws (text : String)
  | jkuNotHttps
  | jkuHostNotAllowed (hostname : Option String)
  | fetchFailed (text : String)
  | keyNotInJwks (kid : Json)
  | noKidForJwks
  | noKeyResolvable
  | verificationFailed (text : String)
  | noSignatures
  | noneVerified (lastError : Option SignatureFailure)

inductive CardError where
  | agentCardSignatureError (failure : SignatureFailure)
  | other (text : String)

inductive SignatureMode where
  | off
  | soft
  | strict
  deriving DecidableEq

/-- The keys a client trusts, and where it lets keys be fetched. -/
structure KeyPolicy (L : SignatureLibraries) where
  trustedKeys : List L.Key
  allowJku : Bool := true
  allowedJkuHosts : Option (List String) := none

section

variable (L : SignatureLibraries) (policy : KeyPolicy L)

/-- `bool(value)` -/
def truthy : Json → Bool
  | .null => false
  | .bool b => b
  | .number n => !L.isZero n
  | .string s => s ≠ ""
  | .array .nil | .object .nil => false
  | .array _ | .object _ => true

/-- The key id of a header, if it counts. -/
def headerKid (header : JsonFields) : Option Json := (header.get "kid").filter (truthy L)

/-- The first trusted key with the key id of the header. -/
def trustedKey (header : JsonFields) : Option L.Key :=
  (headerKid L header).bind fun kid => policy.trustedKeys.find? fun k => L.hasKid k kid

def signatureError {α : Type} (failure : SignatureFailure) : Except CardError α :=
  .error (.agentCardSignatureError failure)

/-- The end of `_resolve_key`, with the keys that were fetched. -/
def pickKey (header : JsonFields) (jwks : L.KeySet) : Except CardError L.Key :=
  match headerKid L header with
  | some kid =>
    match L.getKey jwks kid with
    | .error text => .error (.other text)
    | .ok none => signatureError (.keyNotInJwks kid)
    | .ok (some key) => .ok key
  | none =>
    match L.keys jwks with
    | [key] => .ok key
    | _ => signatureError .noKidForJwks

/-- The part of `_resolve_key` about `jku`, for signature number `i`. -/
def fetchKey (i : Nat) (hosts : List String) (header : JsonFields) :
    Json → Except CardError L.Key
  | .string url =>
    match L.urlparse url with
    | .error text => .error (.other text)
    | .ok parsed =>
      if parsed.scheme ≠ "https" then signatureError .jkuNotHttps
      else if !parsed.hostname.any (· ∈ hosts) then
        signatureError (.jkuHostNotAllowed parsed.hostname)
      else
        match L.fetch i url with
        | .error text => signatureError (.fetchFailed text)
        | .ok jwks => pickKey L header jwks
  | url =>
    -- `urlparse` takes what is false for an empty URL, and has no `decode` for the rest
    if truthy L url then .error (.other "AttributeError") else signatureError .jkuNotHttps

/-- `_resolve_key` -/
def resolveKey (i : Nat) (header : JsonFields) : Except CardError L.Key :=
  match trustedKey L policy header with
  | some key => .ok key
  | none =>
    match policy.allowJku, policy.allowedJkuHosts, header.get "jku" with
    | true, some hosts, some url => fetchKey L i hosts header url
    | _, _, _ => signatureError .noKeyResolvable

/-- `canonicalize_card_for_signing` -/
def canonicalizeCardForSigning : Json → Except String L.Payload
  | .object fields => L.dumps (fields.filterKeys (· ≠ "signatures"))
  | _ => .error "AttributeError"

/-- `verify_signature`, for signature number `i`. -/
def verifySignature (body : Json) (i : Nat) (signature : AgentCardSignature) :
    Except CardError Unit :=
  match L.deserialize signature with
  | .error text => signatureError (.malformedJws text)
  | .ok () =>
    match canonicalizeCardForSigning L body with
    | .error text => .error (.other text)
    | .ok payload =>
      match L.loadsHeader signature.protectedHeader with
      | .error text => .error (.other text)
      | .ok (.object header) =>
        match resolveKey L policy i header with
        | .error e => .error e
        | .ok key =>
          match L.verify signature key payload with
          | .error text => signatureError (.verificationFailed text)
          | .ok () => .ok ()
      | .ok _ => .error (.other "AttributeError")

/-- The loop of `verify_agent_card`. -/
def verifyLoop (body : Json) :
    Nat → Option SignatureFailure → List AgentCardSignature → Except CardError Unit
  | _, lastError, [] => signatureError (.noneVerified lastError)
  | i, _, signature :: rest =>
    match verifySignature L policy body i signature with
    | .ok () => .ok ()
    | .error (.agentCardSignatureError failure) => verifyLoop body (i + 1) (some failure) rest
    | .error (.other text) => .error (.other text)

/-- `verify_agent_card` -/
def verifyAgentCard (signatures : List AgentCardSignature) (rawBody : L.RawBody)
    (mode : SignatureMode) : Except CardError Unit :=
  if mode = .off then .ok ()
  else if signatures.isEmpty then
    if mode = .strict then signatureError .noSignatures else .ok ()
  else
    match L.loads rawBody with
    | .error text => .error (.other text)
    | .ok body => verifyLoop L policy body 0 none signatures

/-! ### What the signatures are worth -/

/-- The header names a URL under which keys may be fetched, and these are the keys. -/
structure Fetched (i : Nat) (header : JsonFields) (jwks : L.KeySet) : Prop where
  allowed : policy.allowJku = true
  keys : ∃ hosts url parsed, policy.allowedJkuHosts = some hosts ∧
    header.get "jku" = some (.string url) ∧ L.urlparse url = .ok parsed ∧
    parsed.scheme = "https" ∧ parsed.hostname.any (· ∈ hosts) = true ∧ L.fetch i url = .ok jwks

/-- The signature verifies under a trusted key with the key id of its header, or under one that was
fetched from an allowed host. -/
def Verifies (body : Json) (i : Nat) (signature : AgentCardSignature) : Prop :=
  ∃ payload header key, canonicalizeCardForSigning L body = .ok payload ∧
    L.loadsHeader signature.protectedHeader = .ok (.object header) ∧
    ((∃ kid, header.get "kid" = some kid ∧ key ∈ policy.trustedKeys ∧ L.hasKid key kid = true) ∨
      ∃ jwks, Fetched L policy i header jwks ∧ key ∈ L.keys jwks) ∧
    L.deserialize signature = .ok () ∧ L.verify signature key payload = .ok ()

/-- The call returns if a signature of the list verifies, and raises an `AgentCardSignatureError` and
nothing else if none does. -/
def VerdictByGood (signatures : List AgentCardSignature) (rawBody : L.RawBody) (mode : SignatureMode) :
    Prop :=
  let verified := ∃ body, L.loads rawBody = .ok body ∧
    ∃ i signature, signatures[i]? = some signature ∧ Verifies L policy body i signature
  (verified ∧ verifyAgentCard L policy signatures rawBody mode = .ok ()) ∨
    (¬ verified ∧ ∃ failure, verifyAgentCard L policy signatures rawBody mode =
      signatureError failure)

/-- The key that the header picks: the first trusted one with its key id, else of those that are
fetched the one with its key id, or the only one if it has no key id. -/
inductive Picks (i : Nat) (header : JsonFields) : L.Key → Prop
  | trusted {key : L.Key} : trustedKey L policy header = some key → Picks i header key
  | named {jwks : L.KeySet} {kid : Json} {key : L.Key} : trustedKey L policy header = none →
      Fetched L policy i header jwks → headerKid L header = some kid →
      L.getKey jwks kid = .ok (some key) → Picks i header key
  | only {jwks : L.KeySet} {key : L.Key} : trustedKey L policy header = none →
      Fetched L policy i header jwks → headerKid L header = none → L.keys jwks = [key] →
      Picks i header key

/-- The signature verifies under the key that its header picks. -/
def SignatureAccepted (body : Json) (i : Nat) (signature : AgentCardSignature) : Prop :=
  ∃ payload header key, canonicalizeCardForSigning L body = .ok payload ∧
    L.loadsHeader signature.protectedHeader = .ok (.object header) ∧ Picks L policy i header key ∧
    L.deserialize signature = .ok () ∧ L.verify signature key payload = .ok ()

/-- No trusted key has the key id of the header, and its `jku` is no text and not false either, or no
URL, or leads to keys of which several have the key id. -/
inductive BadUrl (i : Nat) (header : JsonFields) : Prop
  | noText {hosts : List String} {url : Json} : trustedKey L policy header = none →
      policy.allowJku = true → policy.allowedJkuHosts = some hosts → header.get "jku" = some url →
      (∀ s, url ≠ .string s) → truthy L url = true → BadUrl i header
  | noUrl {hosts : List String} {url text : String} : trustedKey L policy header = none →
      policy.allowJku = true → policy.allowedJkuHosts = some hosts →
      header.get "jku" = some (.string url) → L.urlparse url = .error text → BadUrl i header
  | noKey {jwks : L.KeySet} {kid : Json} {text : String} : trustedKey L policy header = none →
      Fetched L policy i header jwks → headerKid L header = some kid →
      L.getKey jwks kid = .error text → BadUrl i header

/-- The signature can be read, and the body cannot be canonicalized, the header is no object, or its
`jku` is bad. -/
inductive Escapes (body : Json) (i : Nat) (signature : AgentCardSignature) : Prop
  | body {text : String} : L.deserialize signature = .ok () →
      canonicalizeCardForSigning L body = .error text → Escapes body i signature
  | header : L.deserialize signature = .ok () →
      (∀ header, L.loadsHeader signature.protectedHeader ≠ .ok (.object header)) →
      Escapes body i signature
  | key {header : JsonFields} : L.deserialize signature = .ok () →
      L.loadsHeader signature.protectedHeader = .ok (.object header) → BadUrl L policy i header →
      Escapes body i signature

end

/-! ### The key of a header -/

section

variable {L : SignatureLibraries} {policy : KeyPolicy L} {i : Nat} {header : JsonFields}
  {jwks : L.KeySet} {key : L.Key} {text : String}

theorem resolveKey_of_fetched (hnone : trustedKey L policy header = none)
    (h : Fetched L policy i header jwks) :
    resolveKey L policy i header = pickKey L header jwks := by
  obtain ⟨hosts, url, parsed, hhosts, hjku, hparsed, hscheme, hhost, hfetch⟩ := h.keys
  simp only [resolveKey, hnone, h.allowed, hhosts, hjku, fetchKey, hparsed, hscheme, hhost, hfetch,
    ne_eq, not_true_eq_false, if_false, Bool.not_true, Bool.false_eq_true]

theorem resolveKey_of_picks (h : Picks L policy i header key) :
    resolveKey L policy i header = .ok key := by
  cases h with
  | trusted hkey => rw [resolveKey, hkey]
  | named hnone hfetched hkid hkey =>
    rw [resolveKey_of_fetched hnone hfetched, pickKey, hkid]
    dsimp only
    rw [hkey]
  | only hnone hfetched hkid hkeys =>
    rw [resolveKey_of_fetched hnone hfetched, pickKey, hkid]
    dsimp only
    rw [hkeys]

theorem resolveKey_of_badUrl (h : BadUrl L policy i header) :
    ∃ text, resolveKey L policy i header = .error (.other text) := by
  cases h with
  | noText hnone hallow hhosts hjku hnot htruthy =>
    rename_i hosts url
    refine ⟨"AttributeError", ?_⟩
    simp only [resolveKey, hnone, hallow, hhosts, hjku]
    unfold fetchKey
    split
    · exact absurd rfl (hnot _)
    · rw [if_pos htruthy]
  | noUrl hnone hallow hhosts hjku hurl =>
    simp only [resolveKey, hnone, hallow, hhosts, hjku, fetchKey, hurl]
    exact ⟨_, rfl⟩
  | noKey hnone hfetched hkid hkey =>
    rw [resolveKey_of_fetched hnone hfetched, pickKey, hkid]
    dsimp only
    rw [hkey]
    exact ⟨_, rfl⟩

/-- What `_resolve_key` may come to. -/
inductive Resolved (L : SignatureLibraries) (policy : KeyPolicy L) (i : Nat) (header : JsonFields) :
    Except CardError L.Key → Prop
  | picked {key : L.Key} : Picks L policy i header key → Resolved L policy i header (.ok key)
  | refused (failure : SignatureFailure) : Resolved L policy i header (signatureError failure)
  | raised (text : String) : BadUrl L policy i header →
      Resolved L policy i header (.error (.other text))

theorem resolved_pickKey (hnone : trustedKey L policy header = none)
    (h : Fetched L policy i header jwks) : Resolved L policy i header (pickKey L header jwks) := by
  unfold pickKey
  split
  · rename_i kid hkid
    split
    · rename_i text hkey
      exact .raised text (.noKey hnone h hkid hkey)
    · exact .refused _
    · rename_i key hkey
      exact .picked (.named hnone h hkid hkey)
  · rename_i hkid
    split
    · rename_i key hkeys
      exact .picked (.only hnone h hkid hkeys)
    · exact .refused _

theorem resolved (L : SignatureLibraries) (policy : KeyPolicy L) (i : Nat) (header : JsonFields) :
    Resolved L policy i header (resolveKey L policy i header) := by
  unfold resolveKey
  split
  · rename_i key hkey
    exact .picked (.trusted hkey)
  · rename_i hnone
    split
    · rename_i hosts url hallow hhosts hjku
      unfold fetchKey
      split
      · split
        · rename_i text hurl
          exact .raised text (.noUrl hnone hallow hhosts hjku hurl)
        · rename_i url parsed hurl
          split
          · exact .refused _
          · rename_i hscheme
            split
            · exact .refused _
            · rename_i hhost
              split
              · exact .refused _
              · rename_i jwks hfetch
                refine resolved_pickKey hnone ⟨hallow, hosts, _, parsed, hhosts, hjku, hurl, ?_, ?_,
                  hfetch⟩
                · simpa using hscheme
                · simpa using hhost
      · rename_i hnot
        split
        · rename_i htruthy
          exact .raised _ (.noText hnone hallow hhosts hjku hnot htruthy)
        · exact .refused _
    · exact .refused _

/-- The key that is picked is one that counts. -/
theorem Picks.counts (h : Picks L policy i header key) :
    (∃ kid, header.get "kid" = some kid ∧ key ∈ policy.trustedKeys ∧ L.hasKid key kid = true) ∨
      ∃ jwks, Fetched L policy i header jwks ∧ key ∈ L.keys jwks := by
  cases h with
  | trusted hkey =>
    obtain ⟨kid, hkid, hfind⟩ := Option.bind_eq_some_iff.mp hkey
    have hsame := List.find?_some hfind
    exact Or.inl ⟨kid, (Option.filter_eq_some_iff.mp hkid).1, List.mem_of_find?_eq_some hfind, hsame⟩
  | named hnone hfetched hkid hkey => exact Or.inr ⟨_, hfetched, L.getKey_mem _ _ _ hkey⟩
  | only hnone hfetched hkid hkeys =>
    refine Or.inr ⟨_, hfetched, ?_⟩
    rw [hkeys]
    exact List.mem_singleton.mpr rfl

/-! ### One signature -/

variable {body : Json} {signature : AgentCardSignature}

theorem SignatureAccepted.verifies (h : SignatureAccepted L policy body i signature) :
    Verifies L policy body i signature := by
  obtain ⟨payload, header, key, hpayload, hheader, hpicks, hread, hverify⟩ := h
  exact ⟨payload, header, key, hpayload, hheader, hpicks.counts, hread, hverify⟩

theorem verifySignature_of_accepted (h : SignatureAccepted L policy body i signature) :
    verifySignature L policy body i signature = .ok () := by
  obtain ⟨payload, header, key, hpayload, hheader, hpicks, hread, hverify⟩ := h
  simp only [verifySignature, hread, hpayload, hheader, resolveKey_of_picks hpicks, hverify]

theorem verifySignature_of_escapes (h : Escapes L policy body i signature) :
    ∃ text, verifySignature L policy body i signature = .error (.other text) := by
  unfold verifySignature
  cases h with
  | body hread hbody =>
    rw [hread]
    dsimp only
    rw [hbody]
    exact ⟨_, rfl⟩
  | header hread hheader =>
    rw [hread]
    dsimp only
    split
    · exact ⟨_, rfl⟩
    · split
      · exact ⟨_, rfl⟩
      · rename_i header hobject
        exact absurd hobject (hheader header)
      · exact ⟨_, rfl⟩
  | key hread hheader hbad =>
    obtain ⟨text, hraised⟩ := resolveKey_of_badUrl hbad
    rw [hread, hheader]
    dsimp only
    split
    · exact ⟨_, rfl⟩
    · rw [hraised]
      exact ⟨_, rfl⟩

/-- What `verify_signature` may come to. -/
inductive Checked (L : SignatureLibraries) (policy : KeyPolicy L) (body : Json) (i : Nat)
    (signature : AgentCardSignature) : Except CardError Unit → Prop
  | accepted : SignatureAccepted L policy body i signature → Checked L policy body i signature (.ok ())
  | refused (failure : SignatureFailure) :
      Checked L policy body i signature (.error (.agentCardSignatureError failure))
  | raised (text : String) : Escapes L policy body i signature →
      Checked L policy body i signature (.error (.other text))

theorem checked (L : SignatureLibraries) (policy : KeyPolicy L) (body : Json) (i : Nat)
    (signature : AgentCardSignature) :
    Checked L policy body i signature (verifySignature L policy body i signature) := by
  unfold verifySignature
  split
  · exact .refused _
  · rename_i hread
    split
    · rename_i text hbody
      exact .raised _ (.body hread hbody)
    · rename_i payload hbody
      split
      · rename_i text hheader
        exact .raised _ (.header hread fun header h => nomatch hheader.symm.trans h)
      · rename_i header hheader
        have hresolved := resolved L policy i header
        split
        · rename_i e hkey
          rw [hkey] at hresolved
          cases hresolved with
          | refused failure => exact .refused failure
          | raised text hbad => exact .raised text (.key hread hheader hbad)
        · rename_i key hkey
          rw [hkey] at hresolved
          split
          · exact .refused _
          · rename_i hverify
            cases hresolved with
            | picked hpicks =>
              exact .accepted ⟨payload, header, key, hbody, hheader, hpicks, hread, hverify⟩
      · rename_i hnot hheader
        refine .raised _ (.header hread fun header h => ?_)
        exact hnot header (Except.ok.inj (hheader.symm.trans h))

/-! ### The loop -/

/-- A signature of the list that is accepted comes before all that escape. -/
def Reached (L : SignatureLibraries) (policy : KeyPolicy L) (body : Json) (i : Nat)
    (signatures : List AgentCardSignature) : Prop :=
  ∃ before signature after, signatures = before ++ signature :: after ∧
    SignatureAccepted L policy body (i + before.length) signature ∧
    ∀ j s, before[j]? = some s → ¬ Escapes L policy body (i + j) s

theorem reached_cons {signatures : List AgentCardSignature} :
    Reached L policy body i (signature :: signatures) ↔ SignatureAccepted L policy body i signature ∨
      ¬ Escapes L policy body i signature ∧ Reached L policy body (i + 1) signatures := by
  constructor
  · rintro ⟨before, s, after, heq, haccepted, hbefore⟩
    cases before with
    | nil =>
      obtain ⟨rfl, rfl⟩ := List.cons.inj heq
      exact Or.inl haccepted
    | cons first before =>
      obtain ⟨rfl, rfl⟩ := List.cons.inj heq
      refine Or.inr ⟨hbefore 0 signature rfl, before, s, after, rfl, ?_, fun j s' hj => ?_⟩
      · rw [List.length_cons, Nat.add_comm before.length, ← Nat.add_assoc] at haccepted
        exact haccepted
      · have hlater := hbefore (j + 1) s' hj
        rw [Nat.add_comm j, ← Nat.add_assoc] at hlater
        exact hlater
  · rintro (haccepted | ⟨hfirst, before, s, after, rfl, haccepted, hbefore⟩)
    · exact ⟨[], signature, signatures, rfl, haccepted, fun j s hj => nomatch hj⟩
    · refine ⟨signature :: before, s, after, rfl, ?_, fun j s' hj => ?_⟩
      · rw [List.length_cons, Nat.add_comm before.length, ← Nat.add_assoc]
        exact haccepted
      · cases j with
        | zero =>
          obtain rfl := Option.some.inj hj
          exact hfirst
        | succ j =>
          rw [Nat.add_comm j, ← Nat.add_assoc]
          exact hbefore j s' hj

/-- Something holds of the signatures and their numbers, from `i` on. -/
def Every (i : Nat) (signatures : List AgentCardSignature) (p : Nat → AgentCardSignature → Prop) :
    Prop :=
  ∀ j s, signatures[j]? = some s → p (i + j) s

theorem every_cons {signatures : List AgentCardSignature} {p : Nat → AgentCardSignature → Prop} :
    Every i (signature :: signatures) p ↔ p i signature ∧ Every (i + 1) signatures p := by
  constructor
  · intro hall
    refine ⟨hall 0 signature rfl, fun j s hj => ?_⟩
    rw [Nat.add_assoc, Nat.add_comm 1]
    exact hall (j + 1) s hj
  · rintro ⟨hfirst, hrest⟩ j s hj
    cases j with
    | zero =>
      obtain rfl := Option.some.inj hj
      exact hfirst
    | succ j =>
      rw [Nat.add_comm j, ← Nat.add_assoc]
      exact hrest j s hj

/-- What the loop may come to. -/
inductive Looped (L : SignatureLibraries) (policy : KeyPolicy L) (body : Json) (i : Nat)
    (signatures : List AgentCardSignature) : Except CardError Unit → Prop
  | accepted : Reached L policy body i signatures → Looped L policy body i signatures (.ok ())
  | refused (failure : SignatureFailure) : ¬ Reached L policy body i signatures →
      Every i signatures (fun j s => ¬ Escapes L policy body j s) →
      Looped L policy body i signatures (.error (.agentCardSignatureError failure))
  | raised (text : String) : ¬ Reached L policy body i signatures →
      ¬ Every i signatures (fun j s => ¬ Escapes L policy body j s) →
      Looped L policy body i signatures (.error (.other text))

/-- An accepted signature does not escape, and neither does one that is refused. -/
theorem not_escapes_of_verifySignature
    (h : ∀ text, verifySignature L policy body i signature ≠ .error (.other text)) :
    ¬ Escapes L policy body i signature := fun hescapes => by
  obtain ⟨text, hraised⟩ := verifySignature_of_escapes hescapes
  exact h text hraised

theorem not_accepted_of_verifySignature {e : CardError}
    (h : verifySignature L policy body i signature = .error e) :
    ¬ SignatureAccepted L policy body i signature := fun haccepted =>
  nomatch h.symm.trans (verifySignature_of_accepted haccepted)

/-- **What the loop comes to**, by induction on the signatures that are left. -/
theorem looped (L : SignatureLibraries) (policy : KeyPolicy L) (body : Json) (i : Nat)
    (last : Option SignatureFailure) (signatures : List AgentCardSignature) :
    Looped L policy body i signatures (verifyLoop L policy body i last signatures) := by
  induction signatures generalizing i last with
  | nil =>
    refine .refused _ ?_ fun j s hj => nomatch hj
    rintro ⟨before, s, after, heq, -, -⟩
    exact absurd heq.symm (by simp)
  | cons signature signatures ih =>
    rw [verifyLoop]
    have hchecked := checked L policy body i signature
    cases hresult : verifySignature L policy body i signature with
    | ok =>
      rw [hresult] at hchecked
      cases hchecked with
      | accepted haccepted => exact .accepted (reached_cons.mpr (Or.inl haccepted))
    -- a signature that is refused is skipped; one whose check raises ends the loop
    | error e =>
      rw [hresult] at hchecked
      have hnot := not_accepted_of_verifySignature hresult
      cases hchecked with
      | refused failure =>
        have hstays := not_escapes_of_verifySignature fun text h => nomatch hresult.symm.trans h
        have hreached : Reached L policy body i (signature :: signatures) ↔
            Reached L policy body (i + 1) signatures := by
          rw [reached_cons, or_iff_right hnot, and_iff_right hstays]
        have hevery : Every i (signature :: signatures) (fun j s => ¬ Escapes L policy body j s) ↔
            Every (i + 1) signatures (fun j s => ¬ Escapes L policy body j s) := by
          rw [every_cons, and_iff_right hstays]
        have hrest := ih (i + 1) (some failure)
        dsimp only
        generalize verifyLoop L policy body (i + 1) (some failure) signatures = result at hrest ⊢
        cases hrest with
        | accepted h => exact .accepted (hreached.mpr h)
        | refused failure' h hall => exact .refused _ (hreached.not.mpr h) (hevery.mpr hall)
        | raised text h hsome => exact .raised _ (hreached.not.mpr h) (hevery.not.mpr hsome)
      | raised text hescapes =>
        refine .raised text ?_ ?_
        · rw [reached_cons]
          rintro (haccepted | ⟨hstays, -⟩)
          · exact hnot haccepted
          · exact hstays hescapes
        · rw [every_cons]
          exact fun hall => hall.1 hescapes

/-! ### The verdict -/

variable {signatures : List AgentCardSignature} {rawBody : L.RawBody} {mode : SignatureMode}

theorem verifyAgentCard_signed (hmode : mode ≠ .off) (hne : signatures ≠ []) :
    verifyAgentCard L policy signatures rawBody mode =
      match L.loads rawBody with
      | .error text => .error (.other text)
      | .ok body => verifyLoop L policy body 0 none signatures := by
  rw [verifyAgentCard, if_neg hmode, if_neg (by simpa using hne)]

theorem Reached.verifies (h : Reached L policy body 0 signatures) :
    ∃ i signature, signatures[i]? = some signature ∧ Verifies L policy body i signature := by
  obtain ⟨before, signature, after, rfl, haccepted, -⟩ := h
  rw [Nat.zero_add] at haccepted
  refine ⟨before.length, signature, ?_, haccepted.verifies⟩
  rw [List.getElem?_append_right (Nat.le_refl _), Nat.sub_self]
  rfl

/-- **The good signatures decide if and only if the body is JSON and either one verifies under the key
that its header picks and none before it escapes, or none escapes and none verifies.** -/
theorem decided_iff (hmode : mode ≠ .off) (hne : signatures ≠ []) :
    VerdictByGood L policy signatures rawBody mode ↔
      ∃ body, L.loads rawBody = .ok body ∧ (Reached L policy body 0 signatures ∨
        Every 0 signatures fun i signature => ¬ Escapes L policy body i signature ∧
          ¬ Verifies L policy body i signature) := by
  unfold VerdictByGood
  rw [verifyAgentCard_signed hmode hne]
  cases hbody : L.loads rawBody with
  | error text =>
    refine iff_of_false ?_ ?_
    · rintro (⟨⟨body, hbody', -⟩, -⟩ | ⟨-, failure, hresult⟩)
      · exact nomatch hbody'
      · exact nomatch hresult
    · rintro ⟨body, hbody', -⟩
      exact nomatch hbody'
  | ok body =>
    have hsame : ∀ p : Json → Prop, (∃ body', (.ok body : Except String Json) = .ok body' ∧ p body') ↔
        p body := fun p => ⟨fun ⟨body', h, hp⟩ => Except.ok.inj h ▸ hp, fun hp => ⟨body, rfl, hp⟩⟩
    rw [hsame, hsame]
    dsimp only
    -- none verifies, if none is reached and none escapes
    have hverified : (¬ ∃ i signature, signatures[i]? = some signature ∧
        Verifies L policy body i signature) ↔
        Every 0 signatures fun i signature => ¬ Verifies L policy body i signature := by
      unfold Every
      push Not
      simp only [Nat.zero_add]
    have hlooped := looped L policy body 0 none signatures
    generalize verifyLoop L policy body 0 none signatures = result at hlooped
    cases hlooped with
    | accepted hreached =>
      exact iff_of_true (Or.inl ⟨hreached.verifies, rfl⟩) (Or.inl hreached)
    | refused failure hreached hstay =>
      rw [or_iff_right hreached, hverified]
      constructor
      · rintro (⟨-, hresult⟩ | ⟨hnone, -⟩)
        · exact nomatch hresult
        · exact fun j s hj => ⟨hstay j s hj, hnone j s hj⟩
      · intro hall
        exact Or.inr ⟨fun j s hj => (hall j s hj).2, failure, rfl⟩
    | raised text hreached hescape =>
      rw [or_iff_right hreached]
      refine iff_of_false ?_ fun hall => hescape fun j s hj => (hall j s hj).1
      rintro (⟨-, hresult⟩ | ⟨-, failure, hresult⟩)
      · exact nomatch hresult
      · exact nomatch hresult

end

/-! ### A signature with a number as `jku` -/

/-- The header of a protected text, of two. -/
def twoHeaders (protectedHeader : String) : Except String Json :=
  if protectedHeader = "eyJhbGciOiJIUzI1NiIsImprdSI6NX0" then
    .ok (.object (.cons "alg" (.string "HS256") (.cons "jku" (.number (.ofNat 5)) .nil)))
  else if protectedHeader = "eyJhbGciOiJIUzI1NiIsImtpZCI6ImF3In0" then
    .ok (.object (.cons "alg" (.string "HS256") (.cons "kid" (.string "aw") .nil)))
  else .error "ValueError"

/-- Keys that are their ids, and signatures that name the key they were made with. -/
def namedKeys : SignatureLibraries where
  Key := String
  KeySet := List String
  Payload := JsonFields
  RawBody := Json
  keys := id
  getKey s kid :=
    match kid with
    | .string t => .ok (s.find? (· = t))
    | _ => .ok none
  getKey_mem s kid key h := by
    split at h
    · exact List.mem_of_find?_eq_some (Except.ok.inj h)
    · exact nomatch h
  hasKid key kid :=
    match kid with
    | .string t => key = t
    | _ => false
  isZero n := n.text = "0"
  deserialize _ := .ok ()
  verify signature key _ := if signature.signature = key then .ok () else .error "InvalidJWSSignature"
  dumps fields := .ok fields
  loads body := .ok body
  loadsHeader := twoHeaders
  urlparse _ := .ok ⟨"https", none⟩
  fetch _ _ := .error "ConnectError"

/-- A client that trusts one key and fetches keys from one host. -/
def oneKey : KeyPolicy namedKeys where
  trustedKeys := ["aw"]
  allowedJkuHosts := some ["keys.example.com"]

def numericJku : AgentCardSignature := ⟨"eyJhbGciOiJIUzI1NiIsImprdSI6NX0", "eA"⟩

def goodSignature : AgentCardSignature :=
  ⟨"eyJhbGciOiJIUzI1NiIsImtpZCI6ImF3In0", "aw"⟩

/-- A card with a good signature. -/
theorem decided_good : VerdictByGood namedKeys oneKey [goodSignature] (.object .nil) .strict ↔
    ∃ body, namedKeys.loads (.object .nil) = .ok body ∧
      (Reached namedKeys oneKey body 0 [goodSignature] ∨
        Every 0 [goodSignature] fun i signature => ¬ Escapes namedKeys oneKey body i signature ∧
          ¬ Verifies namedKeys oneKey body i signature) :=
  decided_iff (by decide) (by simp)

/-- **The good signature behind it is not looked at, and an `AttributeError` leaves the call.** -/
theorem numeric_jku_escapes :
    Verifies namedKeys oneKey (.object .nil) 1 goodSignature ∧
    verifyAgentCard namedKeys oneKey [numericJku, goodSignature] (.object .nil) .soft =
      .error (.other "AttributeError") ∧
    ¬ VerdictByGood namedKeys oneKey [numericJku, goodSignature] (.object .nil) .soft := by
  have hraised : verifyAgentCard namedKeys oneKey [numericJku, goodSignature] (.object .nil) .soft =
      .error (.other "AttributeError") := rfl
  refine ⟨⟨.nil, _, "aw", rfl, rfl, Or.inl ⟨_, rfl, ?_, rfl⟩, rfl, rfl⟩, hraised, ?_⟩
  · exact List.mem_singleton.mpr rfl
  · rintro (⟨-, hresult⟩ | ⟨-, failure, hresult⟩)
    · exact nomatch hraised.symm.trans hresult
    · exact nomatch hraised.symm.trans hresult

end A2AKit
