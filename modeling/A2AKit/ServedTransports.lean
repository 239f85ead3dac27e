/-
What a server mounts, what it advertises, and what its clients try.

A server mounts the routers of one protocol version for its protocol and the additional ones, and
builds its agent card from the same configuration.  A client of the card tries the interfaces that it
speaks.

* `candidates_served` — a client of a server's own card tries the transports that are mounted, each
  once, and the server's protocol first; the only interfaces that nothing serves are those of gRPC.
-/
import A2AKit.RestRouting
import A2AKit.TransportCandidates

namespace A2AKit

/-- `AgentCardConfig.protocol` -/
inductive CardProtocol
  | jsonrpc
  | httpJson
  deriving DecidableEq, Repr

namespace CardProtocol

def text : CardProtocol → String
  | jsonrpc => "jsonrpc"
  | httpJson => "http+json"

/-- The name of the transport on a card. -/
def binding : CardProtocol → String
  | jsonrpc => "JSONRPC"
  | httpJson => "HTTP+JSON"

def other : CardProtocol → CardProtocol
  | jsonrpc => httpJson
  | httpJson => jsonrpc

end CardProtocol

structure ServerConfig where
  protocol : CardProtocol
  additionalProtocols : List String := []
  version : ProtocolVersion := .v10

/-- The headers that `external_base_url` reads. -/
structure ProxyHeaders where
  forwardedProto : Option String := none
  forwardedHost : Option String := none
  host : Option String := none

namespace ServedTransports

/-! ### The server -/

/-- `proto.lower().replace(" ", "")` -/
def normalized (proto : String) : List Char := (lower proto.toList).filter (· ≠ ' ')

def isRpc (proto : String) : Bool := normalized proto = "jsonrpc".toList

def isRest (proto : String) : Bool :=
  normalized proto = "http+json".toList || normalized proto = "http".toList ||
    normalized proto = "rest".toList

/-- `_transports_for_protocol`, before the spellings are made equal. -/
def wanted (cfg : ServerConfig) : List String := cfg.protocol.text :: cfg.additionalProtocols

def isGrpc (proto : String) : Bool := normalized proto = "grpc".toList

def isFor : CardProtocol → String → Bool
  | .httpJson => isRest
  | .jsonrpc => isRpc

/-- The routers that `as_fastapi_app` includes. -/
def mounts (cfg : ServerConfig) (proto : CardProtocol) : Bool := (wanted cfg).any (isFor proto)

def wireVersion : ProtocolVersion → String
  | .v03 => "0.3"
  | .v10 => "1.0"

/-- Where the paths of a router start. -/
def prefixOf (v : ProtocolVersion) : CardProtocol → String
  | .httpJson => String.ofList (RestRouting.basePath v)
  | .jsonrpc => ""

/-- A router, as a client would have to try it. -/
def served (v : ProtocolVersion) (origin : String) (proto : CardProtocol) : Candidate :=
  { url := origin ++ prefixOf v proto, proto := proto.text, wireVersion := wireVersion v }

/-- `.split(",")[0].strip()` -/
def firstPart (value : String) : String :=
  String.ofList (EventStream.strip (value.toList.takeWhile (· ≠ ',')))

/-- `external_base_url` -/
def externalBaseUrl (trustProxyHeaders : Bool) (headers : ProxyHeaders) (scheme netloc : String) :
    String :=
  if trustProxyHeaders then
    firstPart (textOr headers.forwardedProto scheme) ++ "://" ++
      firstPart (textOr headers.forwardedHost (textOr headers.host netloc))
  else scheme ++ "://" ++ firstPart (textOr headers.host netloc)

/-- `base_url.rstrip("/")` -/
def stripped (baseUrl : String) : String := String.ofList (baseUrl.toList.rdropWhile (· = '/'))

/-- `build_agent_card_v03` -/
def buildAgentCardV03 (cfg : ServerConfig) (baseUrl : String) : AgentCard :=
  let url := stripped baseUrl
  let additional : List AgentInterface := cfg.additionalProtocols.filterMap fun proto =>
    if isRpc proto ∧ cfg.protocol ≠ .jsonrpc then some { url, transport := "JSONRPC" }
    else if isRest proto ∧ cfg.protocol ≠ .httpJson then
      some { url := url ++ "/v1", transport := "HTTP+JSON" }
    else none
  { url := match cfg.protocol with
      | .jsonrpc => url
      | .httpJson => url ++ "/v1"
    preferredTransport := some cfg.protocol.binding
    additionalInterfaces := if additional.isEmpty then none else some additional }

/-- `_binding_for_protocol` -/
def bindingForProtocol (proto : String) : Option String :=
  if isRpc proto then some "JSONRPC"
  else if isRest proto then some "HTTP+JSON"
  else if isGrpc proto then some "GRPC"
  else none

/-- `build_agent_card_v10` -/
def buildAgentCardV10 (cfg : ServerConfig) (baseUrl : String) : AgentCardV10 :=
  let interface (binding : String) : AgentInterfaceV10 :=
    { url := some (stripped baseUrl), protocolBinding := some binding, protocolVersion := some "1.0" }
  { supportedInterfaces := some (interface cfg.protocol.binding ::
      (cfg.additionalProtocols.filterMap fun proto =>
        (bindingForProtocol proto).filter (· ≠ cfg.protocol.binding)).map interface) }

/-- `build_agent_card` -/
def buildAgentCard (cfg : ServerConfig) (baseUrl : String) : ParsedCard :=
  match cfg.version with
  | .v03 => .v03 (buildAgentCardV03 cfg baseUrl)
  | .v10 => .v10 (buildAgentCardV10 cfg baseUrl)

/-- The interfaces of a card: their urls and transports. -/
def interfaces : ParsedCard → List (String × String)
  | .v03 card => card.interfaces.map fun iface => (iface.url, iface.transport)
  | .v10 card => (card.supportedInterfaces.getD []).map fun iface =>
      (iface.url.getD "", iface.protocolBinding.getD "")

/-! ### Candidates -/

variable {cfg : ServerConfig} {baseUrl url : String}

/-- Candidates that are all the same are one candidate. -/
theorem foldl_addNew_same {a b : Candidate} (hne : a ≠ b) {entries : List Candidate}
    (hall : ∀ e ∈ entries, e = b) :
    entries.foldl addNew [a] = if entries.isEmpty then [a] else [a, b] := by
  have hboth : ∀ l : List Candidate, (∀ e ∈ l, e = b) → l.foldl addNew [a, b] = [a, b] := by
    intro l hl
    induction l with
    | nil => rfl
    | cons e l ih =>
      obtain rfl := hl e List.mem_cons_self
      rw [List.foldl_cons, addNew, if_pos (by simp), ih fun e' he' => hl e' (List.mem_cons_of_mem _ he')]
  cases entries with
  | nil => rfl
  | cons e entries =>
    obtain rfl := hall e List.mem_cons_self
    rw [List.foldl_cons, addNew, if_neg (by simpa using hne.symm)]
    exact hboth entries fun e' he' => hall e' (List.mem_cons_of_mem _ he')

theorem stripped_ne_empty (trust : Bool) (headers : ProxyHeaders) (scheme netloc : String) :
    stripped (externalBaseUrl trust headers scheme netloc) ≠ "" := by
  have hcolon : ':' ∈ (externalBaseUrl trust headers scheme netloc).toList := by
    unfold externalBaseUrl
    split <;> simp
  intro heq
  have hnil : (externalBaseUrl trust headers scheme netloc).toList.rdropWhile (· = '/') = [] := by
    have h := congrArg String.toList heq
    rwa [stripped, String.toList_ofList] at h
  have hall := List.rdropWhile_eq_nil_iff.mp hnil ':' hcolon
  exact absurd hall (by decide)

theorem isFor_text (proto : CardProtocol) : isFor proto proto.text = true := by
  cases proto <;> decide

theorem isFor_other (proto : CardProtocol) : isFor proto.other proto.text = false := by
  cases proto <;> decide

theorem mounts_protocol (cfg : ServerConfig) : mounts cfg cfg.protocol = true :=
  List.any_eq_true.mpr ⟨cfg.protocol.text, List.mem_cons_self, isFor_text cfg.protocol⟩

theorem mounts_other (cfg : ServerConfig) :
    mounts cfg cfg.protocol.other = cfg.additionalProtocols.any (isFor cfg.protocol.other) := by
  rw [mounts, wanted, List.any_cons, isFor_other, Bool.false_or]

theorem isRest_of_isRpc {proto : String} (h : isRpc proto = true) : isRest proto = false := by
  have h : normalized proto = "jsonrpc".toList := of_decide_eq_true h
  rw [isRest, h]
  decide

theorem protocolFromTransport_binding (proto : CardProtocol) :
    protocolFromTransport proto.binding = some proto.text := by
  cases proto <;> decide

theorem protocolFromBinding_binding (proto : CardProtocol) :
    protocolFromBinding (some proto.binding) = some proto.text := by
  cases proto <;> decide

/-- What is the same for all that is kept is one candidate, if anything is kept. -/
theorem foldl_filterMap {v : ProtocolVersion} {origin : String} {f : String → Option Candidate}
    (hf : ∀ proto ∈ cfg.additionalProtocols, f proto =
      if isFor cfg.protocol.other proto then some (served v origin cfg.protocol.other) else none) :
    (cfg.additionalProtocols.filterMap f).foldl addNew [served v origin cfg.protocol] =
      (if mounts cfg cfg.protocol.other then [cfg.protocol, cfg.protocol.other] else
        [cfg.protocol]).map (served v origin) := by
  have hne : served v origin cfg.protocol ≠ served v origin cfg.protocol.other := by
    intro heq
    have htext : cfg.protocol.text = cfg.protocol.other.text := congrArg Candidate.proto heq
    revert htext
    cases cfg.protocol <;> decide
  have hall : ∀ e ∈ cfg.additionalProtocols.filterMap f, e = served v origin cfg.protocol.other := by
    intro e he
    obtain ⟨proto, hproto, heq⟩ := List.mem_filterMap.mp he
    rw [hf proto hproto] at heq
    split at heq
    · exact (Option.some_inj.mp heq).symm
    · cases heq
  have hempty : (cfg.additionalProtocols.filterMap f).isEmpty = !mounts cfg cfg.protocol.other := by
    rw [mounts_other, Bool.eq_iff_iff, List.isEmpty_iff, List.filterMap_eq_nil_iff, Bool.not_eq_true',
      List.any_eq_false]
    refine forall₂_congr fun proto hproto => ?_
    rw [hf proto hproto]
    cases isFor cfg.protocol.other proto <;> simp
  rw [foldl_addNew_same hne hall, hempty]
  cases mounts cfg cfg.protocol.other <;> rfl

theorem textOr_some {a b : String} (h : a ≠ "") : textOr (some a) b = a := if_neg h

theorem append_ne_empty {a b : String} (h : a ≠ "") : a ++ b ≠ "" := by
  intro heq
  exact h (String.append_eq_empty_iff.mp heq).1

theorem getD_orNone {α : Type} (l : List α) : (if l.isEmpty then none else some l).getD [] = l := by
  cases l <;> rfl

/-- The first candidate of a card of version 0.3. -/
theorem first_cardV03 (cfg : ServerConfig) (baseUrl : String) :
    ({ url := (buildAgentCardV03 cfg baseUrl).url
       proto := detectProtocol none (buildAgentCardV03 cfg baseUrl)
       wireVersion := "0.3" } : Candidate) = served .v03 (stripped baseUrl) cfg.protocol := by
  have hproto : detectProtocol none (buildAgentCardV03 cfg baseUrl) = cfg.protocol.text := by
    show ((some cfg.protocol.binding).bind protocolFromTransport).getD "jsonrpc" = _
    rw [Option.bind_some, protocolFromTransport_binding]
    rfl
  have hurl : (buildAgentCardV03 cfg baseUrl).url =
      stripped baseUrl ++ prefixOf .v03 cfg.protocol := by
    unfold buildAgentCardV03
    cases cfg.protocol with
    | jsonrpc => exact (String.append_empty).symm
    | httpJson => rfl
  rw [hproto, hurl]
  rfl

theorem additional_cardV03 (cfg : ServerConfig) (baseUrl : String) :
    (buildAgentCardV03 cfg baseUrl).additionalInterfaces.getD [] =
      cfg.additionalProtocols.filterMap fun proto =>
        if isFor cfg.protocol.other proto then
          some { url := stripped baseUrl ++ prefixOf .v03 cfg.protocol.other
                 transport := cfg.protocol.other.binding }
        else none := by
  refine (getD_orNone _).trans (List.filterMap_congr fun proto _ => ?_)
  cases hprotocol : cfg.protocol with
  | jsonrpc => simp [isFor, CardProtocol.other, CardProtocol.binding, prefixOf, RestRouting.basePath]
  | httpJson => simp [isFor, CardProtocol.other, CardProtocol.binding, prefixOf]

/-- The candidates of a card of version 0.3. -/
theorem candidates_cardV03 (hbase : stripped baseUrl ≠ "") :
    candidatesV03 none (buildAgentCardV03 cfg baseUrl) =
      (if mounts cfg cfg.protocol.other then [cfg.protocol, cfg.protocol.other] else
        [cfg.protocol]).map (served .v03 (stripped baseUrl)) := by
  rw [candidatesV03, first_cardV03, additional_cardV03, List.filterMap_filterMap]
  refine foldl_filterMap fun proto _ => ?_
  split
  · rw [Option.bind_some, AgentInterface.entry, protocolFromTransport_binding,
      textOr_some (append_ne_empty hbase)]
    rfl
  · rfl

/-- The binding of an additional protocol, if it is not that of the server. -/
theorem filter_bindingForProtocol (cfg : ServerConfig) (proto : String) :
    (bindingForProtocol proto).filter (· ≠ cfg.protocol.binding) =
      if isFor cfg.protocol.other proto then some cfg.protocol.other.binding
      else if isGrpc proto then some "GRPC" else none := by
  have hgrpc : isGrpc proto = true → isRpc proto = false ∧ isRest proto = false := by
    intro h
    have h : normalized proto = "grpc".toList := of_decide_eq_true h
    rw [isRpc, isRest, h]
    decide
  unfold bindingForProtocol
  cases hrpc : isRpc proto with
  | true =>
    have hrest := isRest_of_isRpc hrpc
    have hnot : isGrpc proto = false := by
      by_contra h
      rw [(hgrpc (Bool.not_eq_false _ ▸ h)).1] at hrpc
      cases hrpc
    cases cfg.protocol <;>
      simp [isFor, CardProtocol.other, CardProtocol.binding, hrpc, hrest, hnot]
  | false =>
    cases hrest : isRest proto with
    | true =>
      have hnot : isGrpc proto = false := by
        by_contra h
        rw [(hgrpc (Bool.not_eq_false _ ▸ h)).2] at hrest
        cases hrest
      cases cfg.protocol <;>
        simp [isFor, CardProtocol.other, CardProtocol.binding, hrpc, hrest, hnot]
    | false =>
      cases hname : isGrpc proto <;> cases cfg.protocol <;>
        simp [isFor, CardProtocol.other, CardProtocol.binding, hrpc, hrest]

/-- The candidates of a card of version 1.0. -/
theorem candidates_cardV10 (hbase : stripped baseUrl ≠ "") :
    candidatesV10 url (buildAgentCardV10 cfg baseUrl) =
      (if mounts cfg cfg.protocol.other then [cfg.protocol, cfg.protocol.other] else
        [cfg.protocol]).map (served .v10 (stripped baseUrl)) := by
  have hentry : ∀ proto : CardProtocol, AgentInterfaceV10.entry url
      { url := some (stripped baseUrl), protocolBinding := some proto.binding,
        protocolVersion := some "1.0" } = some (served .v10 (stripped baseUrl) proto) := by
    intro proto
    have hprefix : stripped baseUrl ++ prefixOf .v10 proto = stripped baseUrl := by
      cases proto <;> exact String.append_empty
    rw [AgentInterfaceV10.entry, protocolFromBinding_binding, textOr_some hbase, served, hprefix]
    rfl
  rw [candidatesV10, buildAgentCardV10, Option.getD_some, List.filterMap_cons, hentry,
    List.filterMap_map, List.filterMap_filterMap, List.foldl_cons]
  refine foldl_filterMap fun proto _ => ?_
  rw [filter_bindingForProtocol]
  split
  · exact hentry cfg.protocol.other
  · split
    · have hunknown : protocolFromBinding (some "GRPC") = none := by decide
      rw [Option.bind_some, Function.comp_apply, AgentInterfaceV10.entry, hunknown]
      rfl
    · rfl

/-- An interface of a card is that of a router, or one of gRPC. -/
theorem interface_cases {iface : String × String} (hbase : stripped baseUrl ≠ "")
    (h : iface ∈ interfaces (buildAgentCard cfg baseUrl)) :
    (∃ proto, mounts cfg proto = true ∧
      iface = ((served cfg.version (stripped baseUrl) proto).url, proto.binding)) ∨
      cfg.version = .v10 ∧ iface.2 = "GRPC" := by
  have hother : ∀ proto ∈ cfg.additionalProtocols, isFor cfg.protocol.other proto = true →
      mounts cfg cfg.protocol.other = true := by
    intro proto hproto hfor
    rw [mounts_other]
    exact List.any_eq_true.mpr ⟨proto, hproto, hfor⟩
  cases hversion : cfg.version with
  | v03 =>
    have hcard : buildAgentCard cfg baseUrl = .v03 (buildAgentCardV03 cfg baseUrl) := by
      rw [buildAgentCard, hversion]
    rw [hcard] at h
    obtain ⟨i, hi, rfl⟩ := List.mem_map.mp h
    refine Or.inl ?_
    rcases List.mem_cons.mp hi with rfl | hi
    · refine ⟨cfg.protocol, mounts_protocol cfg, ?_⟩
      rw [← first_cardV03]
      rfl
    · obtain ⟨j, hj, rfl⟩ := List.mem_map.mp hi
      rw [additional_cardV03] at hj
      obtain ⟨proto, hproto, heq⟩ := List.mem_filterMap.mp hj
      split at heq
      · rename_i hfor
        obtain rfl := Option.some_inj.mp heq
        refine ⟨cfg.protocol.other, hother proto hproto hfor, ?_⟩
        rw [textOr_some (append_ne_empty hbase)]
        rfl
      · cases heq
  | v10 =>
    have hcard : buildAgentCard cfg baseUrl = .v10 (buildAgentCardV10 cfg baseUrl) := by
      rw [buildAgentCard, hversion]
    rw [hcard] at h
    have hurl : ∀ proto, (served .v10 (stripped baseUrl) proto).url = stripped baseUrl := by
      intro proto
      cases proto <;> exact String.append_empty
    obtain ⟨i, hi, rfl⟩ := List.mem_map.mp h
    rcases List.mem_cons.mp hi with rfl | hi
    · exact Or.inl ⟨cfg.protocol, mounts_protocol cfg, by rw [hurl]; rfl⟩
    · obtain ⟨binding, hbinding, rfl⟩ := List.mem_map.mp hi
      obtain ⟨proto, hproto, heq⟩ := List.mem_filterMap.mp hbinding
      rw [filter_bindingForProtocol] at heq
      split at heq
      · rename_i hfor
        obtain rfl := Option.some_inj.mp heq
        exact Or.inl ⟨cfg.protocol.other, hother proto hproto hfor, by rw [hurl]; rfl⟩
      · split at heq
        · exact Or.inr ⟨rfl, (Option.some_inj.mp heq).symm⟩
        · cases heq

end ServedTransports

open ServedTransports

/-- **A client of a server's own card tries what the server has mounted**: its protocol first, and
the other one if it is among the additional protocols, whatever their spelling and however often they
are given, at the urls where the paths of the routers start and in their version.  All interfaces on
the card are those of routers, apart from gRPC ones on cards of version 1.0. -/
theorem candidates_served (cfg : ServerConfig) (trustProxyHeaders : Bool) (headers : ProxyHeaders)
    (scheme netloc url : String) :
    let baseUrl := externalBaseUrl trustProxyHeaders headers scheme netloc
    let candidates := buildTransportCandidates url none (buildAgentCard cfg baseUrl)
    candidates = (if mounts cfg cfg.protocol.other then [cfg.protocol, cfg.protocol.other] else
        [cfg.protocol]).map (served cfg.version (stripped baseUrl)) ∧
      (∀ proto, served cfg.version (stripped baseUrl) proto ∈ candidates ↔ mounts cfg proto = true) ∧
      ∀ iface ∈ interfaces (buildAgentCard cfg baseUrl),
        (∃ proto, mounts cfg proto = true ∧
          iface = ((served cfg.version (stripped baseUrl) proto).url, proto.binding)) ∨
        cfg.version = .v10 ∧ iface.2 = "GRPC" := by
  intro baseUrl candidates
  have hbase : stripped baseUrl ≠ "" := stripped_ne_empty trustProxyHeaders headers scheme netloc
  have hcandidates : candidates =
      (if mounts cfg cfg.protocol.other then [cfg.protocol, cfg.protocol.other] else
        [cfg.protocol]).map (served cfg.version (stripped baseUrl)) := by
    cases hversion : cfg.version with
    | v03 =>
      have hcard : buildAgentCard cfg baseUrl = .v03 (buildAgentCardV03 cfg baseUrl) := by
        rw [buildAgentCard, hversion]
      show buildTransportCandidates url none (buildAgentCard cfg baseUrl) = _
      rw [hcard]
      exact candidates_cardV03 hbase
    | v10 =>
      have hcard : buildAgentCard cfg baseUrl = .v10 (buildAgentCardV10 cfg baseUrl) := by
        rw [buildAgentCard, hversion]
      show buildTransportCandidates url none (buildAgentCard cfg baseUrl) = _
      rw [hcard, buildTransportCandidates, candidates_cardV10 hbase]
      cases mounts cfg cfg.protocol.other <;> rfl
  refine ⟨hcandidates, fun proto => ?_, fun iface hiface => interface_cases hbase hiface⟩
  have hinj : ∀ a b : CardProtocol, served cfg.version (stripped baseUrl) a =
      served cfg.version (stripped baseUrl) b ↔ a = b := by
    refine fun a b => ⟨fun heq => ?_, fun heq => by rw [heq]⟩
    have htext : a.text = b.text := congrArg Candidate.proto heq
    revert htext
    cases a <;> cases b <;> decide
  have hown := mounts_protocol cfg
  rw [hcandidates]
  cases hother : mounts cfg cfg.protocol.other with
  | true =>
    have hall : mounts cfg proto = true := by
      cases hp : cfg.protocol <;> rw [hp] at hown hother <;> cases proto <;> assumption
    refine iff_of_true ?_ hall
    cases hp : cfg.protocol <;> cases proto <;> simp [CardProtocol.other]
  | false =>
    rw [if_neg Bool.false_ne_true, List.map_singleton, List.mem_singleton, hinj]
    constructor
    · rintro rfl
      exact hown
    · intro hproto
      by_contra hne
      have heq : proto = cfg.protocol.other := by
        revert hne
        cases proto <;> cases cfg.protocol <;> decide
      rw [heq, hother] at hproto
      cases hproto

end A2AKit
