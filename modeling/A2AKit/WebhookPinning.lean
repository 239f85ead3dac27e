/-
Delivery to a webhook whose address was validated.

`_deliver_single` resolves the host of the url and validates every address of the answer, rewrites
the url to the first of them, and posts it as often as it takes.  The host of the url goes into the
`Host` header and is the name for the TLS handshake.

* `delivery_safe_iff` — every request goes to a validated address and keeps what the url says, if
  and only if the userinfo of a url with a name has no empty part;
* `password_dropped` — a password behind an empty username.
-/
import A2AKit.Netloc
import A2AKit.PushConfigs

namespace A2AKit

open Netloc

/-- `urlparse` of a url. -/
structure ParsedUrl where
  scheme : String
  netloc : List Char
  path : String := ""
  params : String := ""
  query : String := ""
  fragment : String := ""
  deriving DecidableEq, Repr

/-- `ipaddress`, and `str.lower`: `parse` is `ip_address`, with `none` for its `ValueError`. -/
structure AddressLibrary where
  Address : Type
  parse : List Char → Option Address
  str : Address → List Char
  isGlobal : Address → Bool
  ipv4Mapped : Address → Option Address
  lower : List Char → List Char
  parse_str : ∀ ip, parse (str ip) = some ip

/-- `getaddrinfo`, call by call, with `none` for an `OSError`: addresses of answers are in plain
text. -/
structure Resolver (lib : AddressLibrary) where
  ask : Nat → List Char → Option (List (List Char))
  plain : ∀ i name answer, ask i name = some answer → ∀ a ∈ answer, ∀ ip, lib.parse a = some ip →
    PlainAddress (lib.str ip) ∧ lowerHost lib.lower (lib.str ip) = lib.str ip

/-- The settings of the service; without allowed hosts it is not in allowlist mode. -/
structure DeliveryPolicy where
  allowHttp : Bool := false
  allowedHosts : List (List Char) := []
  blockedHosts : List (List Char) := []

/-- What `resolve_webhook_url` comes to; it raises where an answer has no address. -/
inductive Validation
  | rejected
  | raised
  | unpinned (hostname : List Char)
  | pinned (hostname : List Char) (ip : List Char) (others : List (List Char))
  deriving DecidableEq, Repr

section

variable (lib : AddressLibrary)

/-- `_is_blocked_ip` -/
def isBlockedIp (ip : lib.Address) : Bool := !lib.isGlobal ((lib.ipv4Mapped ip).getD ip)

/-- The loop over the answer, with the addresses found so far. -/
def checkAnswer (hostname : List Char) (ips : List (List Char)) : List (List Char) → Validation
  | [] =>
    match ips with
    | [] => .rejected
    | ip :: others => .pinned hostname ip others
  | a :: rest =>
    match lib.parse a with
    | none => .raised
    | some ip =>
      if isBlockedIp lib ip then .rejected
      else checkAnswer hostname (if lib.str ip ∈ ips then ips else ips ++ [lib.str ip]) rest

/-- `resolve_webhook_url`, with the answer the resolver would give, and the names it is asked for. -/
def resolveWebhookUrl (policy : DeliveryPolicy)
    (ask : List Char → Option (List (List Char))) (url : ParsedUrl) :
    Validation × List (List Char) :=
  if !policy.allowHttp && url.scheme ≠ "https" then (.rejected, [])
  else if url.scheme ≠ "http" && url.scheme ≠ "https" then (.rejected, [])
  else
    match hostname lib.lower url.netloc with
    | none => (.rejected, [])
    | some hostname =>
      if policy.blockedHosts.contains (lib.lower hostname) then (.rejected, [])
      else if !policy.allowedHosts.isEmpty then
        if policy.allowedHosts.contains (lib.lower hostname) then (.unpinned hostname, [])
        else (.rejected, [])
      else
        match lib.parse hostname with
        | some ip => if isBlockedIp lib ip then (.rejected, []) else (.unpinned hostname, [])
        | none =>
          match ask hostname with
          | none => (.rejected, [hostname])
          | some answer => (checkAnswer lib hostname [] answer, [hostname])

/-- `if text:` -/
def nonEmpty (text : Option (List Char)) : Option (List Char) := text.filter (· ≠ [])

/-- The userinfo of the rewritten url. -/
def pinnedUserinfo (url : ParsedUrl) : List Char :=
  match nonEmpty (userinfo url.netloc).1 with
  | none => []
  | some username =>
    (match nonEmpty (userinfo url.netloc).2 with
      | none => username
      | some password => username ++ ':' :: password) ++ ['@']

/-- `_pin_url`: the rewritten url, the `Host` header and the name for the TLS handshake. -/
def pinUrl (url : ParsedUrl) (ip : List Char) :
    Except Unit (ParsedUrl × List Char × Option (List Char)) :=
  let host := (hostname lib.lower url.netloc).getD []
  match port url.netloc with
  | .error e => .error e
  | .ok n =>
    .ok ({ url with netloc := pinnedUserinfo url ++ (addressText ip ++ portText n) },
      host ++ portText n, if url.scheme = "https" then some host else none)

/-- What the client is told to post; it takes the host of the url where it is told no other. -/
structure WebhookRequest where
  url : ParsedUrl
  headers : List (String × String)
  hostHeader : Option (List Char) := none
  sniHostname : Option (List Char) := none
  deriving DecidableEq, Repr

/-- What comes back from the client. -/
inductive WebhookResponse
  | status (code : Nat)
  | requestError

/-- The loop over the attempts: a 5xx answer and a `RequestError` are tried again. -/
def postAttempts (request : WebhookRequest) (responses : Nat → WebhookResponse) :
    Nat → Nat → List WebhookRequest
  | 0, _ => []
  | left + 1, attempt =>
    request ::
      match responses attempt with
      | .status code => if code < 500 then [] else postAttempts request responses left (attempt + 1)
      | .requestError => postAttempts request responses left (attempt + 1)

/-- `_deliver_single`, where `url` is what `urlparse` makes of the url of the configuration: the
requests, and the names the resolver was asked for. -/
def deliverSingle (policy : DeliveryPolicy) (maxRetries : Nat)
    (ask : List Char → Option (List (List Char))) (responses : Nat → WebhookResponse)
    (config : TaskPushNotificationConfig) (url : ParsedUrl) :
    List WebhookRequest × List (List Char) :=
  let headers := buildHeaders config
  let (validation, asked) := resolveWebhookUrl lib policy ask url
  match validation with
  | .rejected => ([], asked)
  | .raised => ([], asked)
  | .unpinned _ => (postAttempts { url, headers } responses maxRetries 1, asked)
  | .pinned _ ip _ =>
    match pinUrl lib url ip with
    | .error _ => ([], asked)
    | .ok (url, hostHeader, sniHostname) =>
      (postAttempts { url, headers, hostHeader, sniHostname } responses maxRetries 1, asked)

/-! ### What a request must be -/

/-- The address the client connects to, if the host of the url is one. -/
def connectsTo (request : WebhookRequest) : Option lib.Address :=
  (hostname lib.lower request.url.netloc).bind lib.parse

/-- The address was in the answer, and the whole answer passed; or it is the host of the url, and
passed. -/
def Validated (ask : List Char → Option (List (List Char))) (url : ParsedUrl) (ip : lib.Address) :
    Prop :=
  ∃ name, hostname lib.lower url.netloc = some name ∧
    ((lib.parse name = some ip ∧ isBlockedIp lib ip = false) ∨
      ∃ answer, ask name = some answer ∧ (∃ a ∈ answer, lib.parse a = some ip) ∧
        ∀ a ∈ answer, ∃ other, lib.parse a = some other ∧ isBlockedIp lib other = false)

structure SafeRequest (policy : DeliveryPolicy) (ask : List Char → Option (List (List Char)))
    (url : ParsedUrl) (request : WebhookRequest) : Prop where
  address : ∃ ip, connectsTo lib request = some ip ∧ Validated lib ask url ip
  scheme : request.url.scheme = url.scheme ∧
    (url.scheme = "https" ∨ policy.allowHttp = true ∧ url.scheme = "http")
  port : port request.url.netloc = port url.netloc
  rest : request.url.path = url.path ∧ request.url.params = url.params ∧
    request.url.query = url.query ∧ request.url.fragment = url.fragment
  userinfo : userinfo request.url.netloc = userinfo url.netloc
  host : ∃ name, hostname lib.lower url.netloc = some name ∧
    match request.hostHeader with
    | none => hostname lib.lower request.url.netloc = some name
    | some header => ∃ n, Netloc.port url.netloc = .ok n ∧ header = name ++ portText n
  sni : url.scheme = "https" → ∃ name, hostname lib.lower url.netloc = some name ∧
    match request.sniHostname with
    | none => hostname lib.lower request.url.netloc = some name
    | some sni => sni = name

/-- The userinfo, if there is one, has a username and no empty password. -/
def FullUserinfo (url : ParsedUrl) : Prop :=
  match userinfo url.netloc with
  | (none, _) => True
  | (some username, password) => username ≠ [] ∧ password ≠ some []

/-- The host of the url is an address. -/
def HasAddress (url : ParsedUrl) : Prop :=
  ∃ name ip, hostname lib.lower url.netloc = some name ∧ lib.parse name = some ip

end

/-! ### Validation -/

section

variable {lib : AddressLibrary} {policy : DeliveryPolicy} {url : ParsedUrl}
  {ask : List Char → Option (List (List Char))} {name ip : List Char}
  {others ips answer asked : List (List Char)} {request : WebhookRequest}

/-- The whole answer passed, and what is pinned comes from it. -/
theorem checkAnswer_pinned (h : checkAnswer lib name ips answer = .pinned name ip others) :
    (∀ a ∈ answer, ∃ other, lib.parse a = some other ∧ isBlockedIp lib other = false) ∧
      (ip ∈ ips ∨ ∃ a ∈ answer, ∃ address, lib.parse a = some address ∧ ip = lib.str address) := by
  induction answer generalizing ips with
  | nil =>
    refine ⟨nofun, Or.inl ?_⟩
    unfold checkAnswer at h
    split at h
    · exact nomatch h
    · cases h
      exact List.mem_cons_self
  | cons a rest ih =>
    rw [checkAnswer] at h
    split at h
    · exact nomatch h
    · rename_i address hparse
      split at h
      · exact nomatch h
      · rename_i hblocked
        obtain ⟨hall, hfrom⟩ := ih h
        constructor
        · intro b hb
          rcases List.mem_cons.mp hb with rfl | hb
          · exact ⟨address, hparse, Bool.eq_false_iff.mpr hblocked⟩
          · exact hall b hb
        · rcases hfrom with hmem | ⟨b, hb, hrest⟩
          · split at hmem
            · exact Or.inl hmem
            · rcases List.mem_append.mp hmem with hmem | hmem
              · exact Or.inl hmem
              · exact Or.inr ⟨a, List.mem_cons_self, address, hparse, List.mem_singleton.mp hmem⟩
          · exact Or.inr ⟨b, List.mem_cons_of_mem _ hb, hrest⟩

theorem checkAnswer_hostname {hostname : List Char}
    (h : checkAnswer lib hostname ips answer = .pinned name ip others) : name = hostname := by
  induction answer generalizing ips with
  | nil =>
    unfold checkAnswer at h
    split at h
    · exact nomatch h
    · cases h
      rfl
  | cons a rest ih =>
    rw [checkAnswer] at h
    split at h
    · exact nomatch h
    · split at h
      · exact nomatch h
      · exact ih h

theorem checkAnswer_not_unpinned {hostname : List Char} :
    checkAnswer lib hostname ips answer ≠ .unpinned name := by
  intro h
  induction answer generalizing ips with
  | nil =>
    unfold checkAnswer at h
    split at h <;> exact nomatch h
  | cons a rest ih =>
    rw [checkAnswer] at h
    split at h
    · exact nomatch h
    · split at h
      · exact nomatch h
      · exact ih h

/-- How a url comes to be posted. -/
inductive Validates (lib : AddressLibrary) (policy : DeliveryPolicy)
    (ask : List Char → Option (List (List Char))) (url : ParsedUrl) : Validation → Prop
  | address (name : List Char) (ip : lib.Address) : hostname lib.lower url.netloc = some name →
      lib.parse name = some ip → isBlockedIp lib ip = false →
      Validates lib policy ask url (.unpinned name)
  | answer (name ip : List Char) (others answer : List (List Char)) :
      hostname lib.lower url.netloc = some name → lib.parse name = none → ask name = some answer →
      checkAnswer lib name [] answer = .pinned name ip others →
      Validates lib policy ask url (.pinned name ip others)

theorem accepted_of_resolve (hmode : policy.allowedHosts = []) {validation : Validation}
    (h : resolveWebhookUrl lib policy ask url = (validation, asked)) :
    asked.length ≤ 1 ∧ (validation = .rejected ∨ validation = .raised ∨
      ((url.scheme = "https" ∨ policy.allowHttp = true ∧ url.scheme = "http") ∧
        Validates lib policy ask url validation)) := by
  unfold resolveWebhookUrl at h
  split at h
  · cases h
    exact ⟨Nat.zero_le _, Or.inl rfl⟩
  rename_i hhttps
  split at h
  · cases h
    exact ⟨Nat.zero_le _, Or.inl rfl⟩
  rename_i hscheme
  have hallowed : url.scheme = "https" ∨ policy.allowHttp = true ∧ url.scheme = "http" := by
    by_cases hs : url.scheme = "https"
    · exact Or.inl hs
    · refine Or.inr ⟨?_, ?_⟩
      · by_contra hno
        exact hhttps (by simp [hs, hno])
      · by_contra hno
        exact hscheme (by simp [hs, hno])
  split at h
  · cases h
    exact ⟨Nat.zero_le _, Or.inl rfl⟩
  rename_i name hname
  split at h
  · cases h
    exact ⟨Nat.zero_le _, Or.inl rfl⟩
  rw [hmode, if_neg (by simp)] at h
  split at h
  · -- the host is an address: nobody is asked, and nothing is pinned
    rename_i ip hip
    split at h
    · cases h
      exact ⟨Nat.zero_le _, Or.inl rfl⟩
    · rename_i hblocked
      cases h
      exact ⟨Nat.zero_le _, Or.inr (Or.inr ⟨hallowed,
        .address name ip hname hip (Bool.eq_false_iff.mpr hblocked)⟩)⟩
  · -- the host is a name: one question, and the answer is checked
    rename_i hip
    split at h
    · cases h
      exact ⟨Nat.le_refl _, Or.inl rfl⟩
    rename_i answer hanswer
    cases h
    refine ⟨Nat.le_refl _, ?_⟩
    cases hcheck : checkAnswer lib name [] answer with
    | rejected => exact Or.inl rfl
    | raised => exact Or.inr (Or.inl rfl)
    | unpinned other => exact absurd hcheck checkAnswer_not_unpinned
    | pinned other ip others =>
      obtain rfl := checkAnswer_hostname hcheck
      exact Or.inr (Or.inr ⟨hallowed, .answer other ip others answer hname hip hanswer hcheck⟩)

/-! ### The rewritten url -/

/-- Every attempt posts the same request. -/
theorem eq_of_mem_postAttempts {responses : Nat → WebhookResponse} {left attempt : Nat}
    {r : WebhookRequest} (h : r ∈ postAttempts request responses left attempt) : r = request := by
  induction left generalizing attempt with
  | zero => exact absurd h List.not_mem_nil
  | succ left ih =>
    rcases List.mem_cons.mp h with rfl | h
    · rfl
    · split at h
      · split at h
        · exact absurd h List.not_mem_nil
        · exact ih h
      · exact ih h

theorem userinfo_of_none {netloc : List Char} (h : (userinfo netloc).1 = none) :
    userinfo netloc = (none, none) := by
  unfold userinfo at h ⊢
  split at h
  · rfl
  · exact nomatch h

theorem nonEmpty_some {text : List Char} (h : text ≠ []) : nonEmpty (some text) = some text := by
  unfold nonEmpty
  rw [Option.filter_some, if_pos (decide_eq_true h)]

/-- The rewritten url has the userinfo of the url if and only if that has no empty part. -/
theorem userinfo_pinned {n : Option Nat} (hplain : PlainAddress ip) :
    userinfo (pinnedUserinfo url ++ (addressText ip ++ portText n)) = userinfo url.netloc ↔
      FullUserinfo url := by
  obtain ⟨hnone, hsome⟩ := rpartition_address (n := n) hplain
  have hdropped : userinfo (addressText ip ++ portText n) = (none, none) := by
    unfold userinfo
    rw [hnone]
  unfold FullUserinfo
  rcases hinfo : userinfo url.netloc with ⟨username, password⟩
  unfold pinnedUserinfo
  rw [hinfo]
  cases username with
  | none =>
    have hnothing := userinfo_of_none (show (userinfo url.netloc).1 = none by rw [hinfo])
    rw [hinfo] at hnothing
    rw [hnothing]
    exact iff_of_true hdropped trivial
  | some username =>
    have hcolon : ':' ∉ username := username_plain (show (userinfo url.netloc).1 = some username by
      rw [hinfo])
    by_cases husername : username = []
    · subst husername
      refine iff_of_false (fun heq => ?_) fun hfull => hfull.1 rfl
      have heq : userinfo (addressText ip ++ portText n) = (some [], password) := heq
      rw [hdropped] at heq
      exact nomatch heq
    · dsimp only
      rw [nonEmpty_some husername]
      have hbare : userinfo (username ++ ['@'] ++ (addressText ip ++ portText n)) =
          (some username, none) := userinfo_rebuild hcolon (hsome username)
      cases password with
      | none => exact iff_of_true hbare ⟨husername, nofun⟩
      | some password =>
        by_cases hpassword : password = []
        · subst hpassword
          refine iff_of_false (fun heq => ?_) fun hfull => hfull.2 rfl
          have heq : userinfo (username ++ ['@'] ++ (addressText ip ++ portText n)) =
            (some username, some []) := heq
          rw [hbare] at heq
          exact nomatch heq
        · rw [nonEmpty_some hpassword]
          have hfull : userinfo (username ++ ':' :: password ++ ['@'] ++
              (addressText ip ++ portText n)) = (some username, some password) :=
            userinfo_rebuild hcolon (hsome (username ++ ':' :: password))
          exact iff_of_true hfull ⟨husername, fun heq => hpassword (Option.some_inj.mp heq)⟩

/-- What `pinUrl` keeps of the url, besides the userinfo. -/
theorem safe_pinned (hscheme : url.scheme = "https" ∨ policy.allowHttp = true ∧ url.scheme = "http")
    (hname : hostname lib.lower url.netloc = some name) (hplain : PlainAddress ip)
    (hlower : lowerHost lib.lower ip = ip) {address : lib.Address}
    (hparse : lib.parse ip = some address) (hvalid : Validated lib ask url address)
    {headers : List (String × String)} {pinned : ParsedUrl} {hostHeader : List Char}
    {sni : Option (List Char)} (h : pinUrl lib url ip = .ok (pinned, hostHeader, sni)) :
    SafeRequest lib policy ask url
        { url := pinned, headers, hostHeader, sniHostname := sni } ↔ FullUserinfo url := by
  unfold pinUrl at h
  rw [hname] at h
  cases hport : port url.netloc with
  | error e =>
    rw [hport] at h
    exact nomatch h
  | ok n =>
    rw [hport] at h
    cases h
    have hlast : (rpartition '@' (pinnedUserinfo url ++ (addressText ip ++ portText n))).2 =
        addressText ip ++ portText n := by
      obtain ⟨hnone, hsome⟩ := rpartition_address (n := n) hplain
      unfold pinnedUserinfo
      split
      · rw [List.nil_append, hnone]
      · rw [hsome]
    obtain ⟨hhost, hports⟩ := split_rebuild hplain (port_le hport) hlast lib.lower
    rw [hlower] at hhost
    constructor
    · intro hsafe
      exact (userinfo_pinned hplain).mp hsafe.userinfo
    · intro hfull
      refine ⟨⟨address, ?_, hvalid⟩, ⟨rfl, hscheme⟩, ?_, ⟨rfl, rfl, rfl, rfl⟩,
        (userinfo_pinned hplain).mpr hfull, ⟨name, hname, n, hport, rfl⟩, fun hhttps => ⟨name, hname, ?_⟩⟩
      · show (hostname lib.lower _).bind lib.parse = some address
        rw [hhost]
        exact hparse
      · rw [hport]
        exact hports
      · rw [if_pos hhttps]
        rfl

/-- An address that is posted to as it stands. -/
theorem safe_unpinned (hscheme : url.scheme = "https" ∨ policy.allowHttp = true ∧ url.scheme = "http")
    (hname : hostname lib.lower url.netloc = some name) {address : lib.Address}
    (hparse : lib.parse name = some address) (hblocked : isBlockedIp lib address = false)
    (headers : List (String × String)) : SafeRequest lib policy ask url { url, headers } := by
  refine ⟨⟨address, ?_, name, hname, Or.inl ⟨hparse, hblocked⟩⟩, ⟨rfl, hscheme⟩, rfl,
    ⟨rfl, rfl, rfl, rfl⟩, rfl, ⟨name, hname, hname⟩, fun _ => ⟨name, hname, hname⟩⟩
  show (hostname lib.lower url.netloc).bind lib.parse = some address
  rw [hname]
  exact hparse

end

/-- What holds of the requests of a delivery, and of the names the resolver was asked for. -/
structure SafeDelivery (lib : AddressLibrary) (policy : DeliveryPolicy)
    (ask : List Char → Option (List (List Char))) (url : ParsedUrl)
    (delivery : List WebhookRequest × List (List Char)) : Prop where
  askedOnce : delivery.2.length ≤ 1
  alike : ∀ r ∈ delivery.1, ∀ r' ∈ delivery.1, r = r'
  safe : ∀ r ∈ delivery.1, SafeRequest lib policy ask url r

theorem safeDelivery_iff {lib : AddressLibrary} {policy : DeliveryPolicy}
    {ask : List Char → Option (List (List Char))} {url : ParsedUrl}
    {responses : Nat → WebhookResponse} {maxRetries : Nat} {asked : List (List Char)}
    {request : WebhookRequest} (hasked : asked.length ≤ 1) :
    SafeDelivery lib policy ask url (postAttempts request responses maxRetries 1, asked) ↔
      postAttempts request responses maxRetries 1 = [] ∨ SafeRequest lib policy ask url request := by
  constructor
  · intro h
    cases hposts : postAttempts request responses maxRetries 1 with
    | nil => exact Or.inl rfl
    | cons r rest =>
      have hr : r ∈ postAttempts request responses maxRetries 1 := by
        rw [hposts]
        exact List.mem_cons_self
      exact Or.inr (eq_of_mem_postAttempts hr ▸ h.safe r hr)
  · intro h
    refine ⟨hasked, fun r hr r' hr' => ?_, fun r hr => ?_⟩
    · rw [eq_of_mem_postAttempts hr, eq_of_mem_postAttempts hr']
    · rcases h with hnone | hsafe
      · have hr : r ∈ postAttempts request responses maxRetries 1 := hr
        rw [hnone] at hr
        exact absurd hr List.not_mem_nil
      · rw [eq_of_mem_postAttempts hr]
        exact hsafe

/-- **A delivery is safe if and only if it makes no request, the host of the url is an address, or
no part of its userinfo is empty**, for every url, every policy without allowed hosts and every
resolver. -/
theorem delivery_safe_iff (lib : AddressLibrary) (resolver : Resolver lib) (policy : DeliveryPolicy)
    (hmode : policy.allowedHosts = []) (maxRetries moment : Nat)
    (responses : Nat → WebhookResponse) (config : TaskPushNotificationConfig) (url : ParsedUrl) :
    SafeDelivery lib policy (resolver.ask moment) url
        (deliverSingle lib policy maxRetries (resolver.ask moment) responses config url) ↔
      (deliverSingle lib policy maxRetries (resolver.ask moment) responses config url).1 = [] ∨
        HasAddress lib url ∨ FullUserinfo url := by
  unfold deliverSingle
  rcases hresolve : resolveWebhookUrl lib policy (resolver.ask moment) url with ⟨validation, asked⟩
  obtain ⟨hasked, hvalidation⟩ := accepted_of_resolve hmode hresolve
  have hsilent : SafeDelivery lib policy (resolver.ask moment) url ([], asked) :=
    ⟨hasked, nofun, nofun⟩
  obtain rfl | rfl | ⟨hscheme, haccepted⟩ := hvalidation
  · exact iff_of_true hsilent (Or.inl rfl)
  · exact iff_of_true hsilent (Or.inl rfl)
  · cases haccepted with
    | address name ip hname hparse hblocked =>
      refine iff_of_true ((safeDelivery_iff hasked).mpr (Or.inr ?_)) (Or.inr (Or.inl ?_))
      · exact safe_unpinned hscheme hname hparse hblocked _
      · exact ⟨name, ip, hname, hparse⟩
    | answer name ip others answer hname hnone hanswer hcheck =>
      -- the address is one of the answer
      obtain ⟨hall, hfrom⟩ := checkAnswer_pinned hcheck
      obtain ⟨a, ha, address, haddress, rfl⟩ := hfrom.resolve_left List.not_mem_nil
      obtain ⟨hplain, hlower⟩ := resolver.plain moment name answer hanswer a ha address haddress
      have hvalid : Validated lib (resolver.ask moment) url address :=
        ⟨name, hname, Or.inr ⟨answer, hanswer, ⟨a, ha, haddress⟩, hall⟩⟩
      have hname' : ¬ HasAddress lib url := by
        rintro ⟨other, ip, hother, hparse⟩
        obtain rfl := Option.some_inj.mp (hname.symm.trans hother)
        rw [hnone] at hparse
        exact nomatch hparse
      dsimp only
      split
      · exact iff_of_true hsilent (Or.inl rfl)
      · rename_i pinned hostHeader sni hpin
        rw [safeDelivery_iff hasked,
          safe_pinned hscheme hname hplain hlower (lib.parse_str address) hvalid hpin]
        exact or_congr_right (by simp [hname'])

/-! ### Two urls -/

/-- Two addresses and their texts. -/
def twoAddresses : AddressLibrary where
  Address := Bool
  parse text :=
    if text = "93.184.216.34".toList then some true
    else if text = "127.0.0.1".toList then some false
    else none
  str ip := (if ip then "93.184.216.34" else "127.0.0.1").toList
  isGlobal ip := ip
  ipv4Mapped _ := none
  lower text := text.map Char.toLower
  parse_str ip := by cases ip <;> decide

/-- The name is resolved to the first of them. -/
def resolvesName : Resolver twoAddresses where
  ask _ name := if name = "example.com".toList then some ["93.184.216.34".toList] else none
  plain i name answer hanswer a ha ip hip := by
    cases ip <;> exact ⟨⟨by decide, by decide, by decide, by decide⟩, by decide⟩

def hookUrl (netloc : String) : ParsedUrl :=
  { scheme := "https", netloc := netloc.toList, path := "/hook" }

def hookConfig (netloc : String) : TaskPushNotificationConfig :=
  { taskId := "t", id := some "w", url := "https://" ++ netloc ++ "/hook" }

/-- A url with a username and a password. -/
theorem delivery_safe_named : SafeDelivery twoAddresses {} (resolvesName.ask 0)
    (hookUrl "user:secret@example.com:8443")
    (deliverSingle twoAddresses {} 3 (resolvesName.ask 0) (fun _ => .status 200)
      (hookConfig "user:secret@example.com:8443") (hookUrl "user:secret@example.com:8443")) := by
  refine (delivery_safe_iff twoAddresses resolvesName {} rfl 3 0 _ _ _).mpr (Or.inr (Or.inr ?_))
  have hinfo : userinfo (hookUrl "user:secret@example.com:8443").netloc =
      (some "user".toList, some "secret".toList) := by
    decide +kernel
  unfold FullUserinfo
  rw [hinfo]
  exact ⟨by decide, by decide⟩

/-- **The password of a url without a username is not in the request.** -/
theorem password_dropped : ¬ ∀ (lib : AddressLibrary) (resolver : Resolver lib)
    (policy : DeliveryPolicy) (maxRetries moment : Nat) (responses : Nat → WebhookResponse)
    (config : TaskPushNotificationConfig) (url : ParsedUrl), policy.allowedHosts = [] →
    SafeDelivery lib policy (resolver.ask moment) url
      (deliverSingle lib policy maxRetries (resolver.ask moment) responses config url) := by
  intro hall
  have hsafe := (hall twoAddresses resolvesName {} 3 0 (fun _ => .status 200)
    (hookConfig ":secret@example.com") (hookUrl ":secret@example.com") rfl).safe
  have hposts : (deliverSingle twoAddresses {} 3 (resolvesName.ask 0) (fun _ => .status 200)
      (hookConfig ":secret@example.com") (hookUrl ":secret@example.com")).1 =
        [{ url := hookUrl "93.184.216.34"
           headers := [("Content-Type", "application/json"), ("User-Agent", "a2akit-push/0.1")]
           hostHeader := "example.com".toList
           sniHostname := "example.com".toList }] := by
    decide +kernel
  have hrequest := hsafe _ (hposts ▸ List.mem_singleton_self _)
  exact absurd hrequest.userinfo (by decide +kernel)

end A2AKit
