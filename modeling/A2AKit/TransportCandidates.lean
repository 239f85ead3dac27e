/-
Transport candidates of the client.

`connect` tries the candidates that `_build_transport_candidates` makes of the agent card, in their
order.  A caller that forces a protocol gets it at the primary url of a card of version 0.3, whether
the agent advertises it there or not.

* `candidates_advertised` — the candidates of every card, under every preference: no two are the
  same, and apart from the forced one they are interfaces on the card;
* `forced_not_advertised` — a forced protocol that is on no interface of the card.
-/
import A2AKit.ClientNetwork
import A2AKit.EventStream
import A2AKit.PushConfigs
import Mathlib.Data.List.Nodup

namespace A2AKit

/-! ### Texts -/

/-- Outside ASCII there is one letter whose upper case is a letter of the names below, the long s. -/
def upperChar (c : Char) : Char := if c = 'ſ' then 'S' else c.toUpper

/-- `str.upper` -/
def upper (text : List Char) : List Char := text.map upperChar

/-- `str.lower` -/
def lower (text : List Char) : List Char := text.map Char.toLower

/-! ### Agent cards -/

structure AgentInterface where
  url : String
  transport : String

/-- `v03.AgentCard`, as far as the client reads it here.  A transport is the text of a
`TransportProtocol`. -/
structure AgentCard where
  url : String
  preferredTransport : Option String := none
  additionalInterfaces : Option (List AgentInterface) := none

structure AgentInterfaceV10 where
  url : Option String := none
  protocolBinding : Option String := none
  protocolVersion : Option String := none

/-- `v10.AgentCard` -/
structure AgentCardV10 where
  supportedInterfaces : Option (List AgentInterfaceV10) := none

/-- `_project_v10_card_to_v03` -/
def projectV10CardToV03 (card : AgentCardV10) : AgentCard :=
  let ifaces := card.supportedInterfaces.getD []
  let primaryUrl := (ifaces.head?.bind (·.url)).getD ""
  let primaryBinding := textOr (ifaces.head?.bind (·.protocolBinding)) "HTTP+JSON"
  let transport (binding : String) : String :=
    if upper binding.toList = "JSONRPC".toList then "JSONRPC" else "HTTP+JSON"
  let additional := ifaces.tail.map fun iface =>
    { url := textOr iface.url primaryUrl, transport := transport (iface.protocolBinding.getD "") }
  { url := primaryUrl
    preferredTransport := some (transport primaryBinding)
    additionalInterfaces := if additional.isEmpty then none else some additional }

/-- The card as `connect` has parsed it. -/
inductive ParsedCard
  | v03 (card : AgentCard)
  | v10 (card : AgentCardV10)

/-! ### Candidates -/

/-- `_protocol_from_binding` -/
def protocolFromBinding (binding : Option String) : Option String :=
  let val := upper (EventStream.strip (binding.getD "None").toList)
  if val = "HTTP+JSON".toList then some "http+json"
  else if val = "JSONRPC".toList then some "jsonrpc"
  else none

/-- `_protocol_from_transport` -/
def protocolFromTransport (transport : String) : Option String :=
  let valLower := String.ofList (lower transport.toList)
  if containsText "http" valLower ||
      (containsText "json" valLower && !containsText "rpc" valLower) then some "http+json"
  else if containsText "jsonrpc" valLower || containsText "rpc" valLower then some "jsonrpc"
  else none

/-- The protocol that the caller forces. -/
def forced (preference : Option String) : Option String := preference.filter (· ≠ "")

/-- `_detect_protocol` -/
def detectProtocol (preference : Option String) (card : AgentCard) : String :=
  match forced preference with
  | some proto => proto
  | none => (card.preferredTransport.bind protocolFromTransport).getD "jsonrpc"

/-- `if entry not in candidates: candidates.append(entry)` -/
def addNew (candidates : List Candidate) (entry : Candidate) : List Candidate :=
  if entry ∈ candidates then candidates else candidates ++ [entry]

/-- What is made of one of `additional_interfaces`. -/
def AgentInterface.entry (cardUrl : String) (iface : AgentInterface) : Option Candidate :=
  (protocolFromTransport iface.transport).map fun proto =>
    { url := textOr (some iface.url) cardUrl, proto, wireVersion := "0.3" }

/-- What is made of one of `supported_interfaces`, by a client of `url`. -/
def AgentInterfaceV10.entry (url : String) (iface : AgentInterfaceV10) : Option Candidate :=
  (protocolFromBinding iface.protocolBinding).map fun proto =>
    { url := textOr iface.url url, proto, wireVersion := textOr iface.protocolVersion "1.0" }

/-- `_build_transport_candidates`, of a card of version 0.3 -/
def candidatesV03 (preference : Option String) (card : AgentCard) : List Candidate :=
  ((card.additionalInterfaces.getD []).filterMap (AgentInterface.entry card.url)).foldl addNew
    [{ url := card.url, proto := detectProtocol preference card, wireVersion := "0.3" }]

/-- `_build_transport_candidates`, of the interfaces of a card of version 1.0 -/
def candidatesV10 (url : String) (card : AgentCardV10) : List Candidate :=
  ((card.supportedInterfaces.getD []).filterMap (AgentInterfaceV10.entry url)).foldl addNew []

/-- `_build_transport_candidates` of a client of `url` -/
def buildTransportCandidates (url : String) (preference : Option String) :
    ParsedCard → List Candidate
  | .v03 card => candidatesV03 preference card
  | .v10 card =>
    if (candidatesV10 url card).isEmpty then candidatesV03 preference (projectV10CardToV03 card)
    else candidatesV10 url card

/-! ### What a card advertises -/

/-- Two spellings of the name of a protocol. -/
def SameProtocol (a b : String) : Prop :=
  upper (EventStream.strip a.toList) = upper (EventStream.strip b.toList)

instance (a b : String) : Decidable (SameProtocol a b) :=
  inferInstanceAs (Decidable (_ = _))

/-- The transport is one of the two that the client speaks. -/
def Spoken (transport : String) : Prop :=
  SameProtocol transport "JSONRPC" ∨ SameProtocol transport "HTTP+JSON"

/-- The interfaces on the card.  A primary url without a preferred transport speaks JSON-RPC, and an
interface without a url of its own is at the primary one. -/
def AgentCard.interfaces (card : AgentCard) : List AgentInterface :=
  { url := card.url, transport := card.preferredTransport.getD "JSONRPC" } ::
    (card.additionalInterfaces.getD []).map fun iface =>
      { iface with url := textOr (some iface.url) card.url }

def AgentCard.Advertises (card : AgentCard) (c : Candidate) : Prop :=
  c.wireVersion = "0.3" ∧
    ∃ iface ∈ card.interfaces, c.url = iface.url ∧ SameProtocol iface.transport c.proto

/-- An interface without a url is at the url of the client, and one without a version speaks 1.0. -/
def AgentCardV10.Advertises (url : String) (card : AgentCardV10) (c : Candidate) : Prop :=
  ∃ iface ∈ card.supportedInterfaces.getD [], c.url = textOr iface.url url ∧
    c.wireVersion = textOr iface.protocolVersion "1.0" ∧
    ∃ binding, iface.protocolBinding = some binding ∧ SameProtocol binding c.proto

def ParsedCard.Advertises (url : String) : ParsedCard → Candidate → Prop
  | .v03 card => card.Advertises
  | .v10 card => card.Advertises url

/-- What the promise is: every candidate is on the card, no two are the same, and the first one has
the protocol that the caller forces, if the card has it. -/
structure RespectsCard (url : String) (preference : Option String) (card : ParsedCard)
    (candidates : List Candidate) : Prop where
  advertised : ∀ c ∈ candidates, card.Advertises url c
  distinct : candidates.Nodup
  preferred : ∀ proto, forced preference = some proto →
    (∃ c, card.Advertises url c ∧ SameProtocol c.proto proto) →
    ∃ first rest, candidates = first :: rest ∧ SameProtocol first.proto proto

/-- What the candidates of a card of version 0.3 are: the forced protocol at the primary url, before
all others, and interfaces on the card.  Only where the transport of an interface is not one that the
client speaks, there may be something else at its url: the protocol that its name is taken for, which
is JSON-RPC for a primary url with a name that says nothing. -/
structure ForcedThenAdvertised (preference : Option String) (card : AgentCard)
    (candidates : List Candidate) : Prop where
  distinct : candidates.Nodup
  preferred : ∀ proto, forced preference = some proto →
    ∃ rest, candidates = { url := card.url, proto, wireVersion := "0.3" } :: rest
  advertised : ∀ c ∈ candidates, card.Advertises c ∨
    (∃ proto, forced preference = some proto ∧
      c = { url := card.url, proto, wireVersion := "0.3" }) ∨
    ∃ iface ∈ card.interfaces, ¬ Spoken iface.transport ∧
      c = { url := iface.url, proto := (protocolFromTransport iface.transport).getD "jsonrpc"
            wireVersion := "0.3" }

/-- A card of version 1.0 has an interface that the client speaks. -/
def AgentCardV10.Usable (card : AgentCardV10) : Prop :=
  ∃ iface ∈ card.supportedInterfaces.getD [],
    ∃ binding, iface.protocolBinding = some binding ∧ Spoken binding

/-- What the candidates are by design. -/
def KeepsToCard (url : String) (preference : Option String) (candidates : List Candidate) :
    ParsedCard → Prop
  | .v03 card => ForcedThenAdvertised preference card candidates
  | .v10 card =>
    (card.Usable → candidates ≠ [] ∧ candidates.Nodup ∧ ∀ c ∈ candidates, card.Advertises url c) ∧
      (¬ card.Usable → ForcedThenAdvertised preference (projectV10CardToV03 card) candidates)

/-! ### Names of protocols -/

/-- The lower case of a letter does not depend on its case. -/
theorem toLower_toUpper (c : Char) : c.toUpper.toLower = c.toLower := by
  have hval : ∀ d : Char, d.toUpper.val =
      if 'a'.val ≤ d.val ∧ d.val ≤ 'z'.val then d.val + ('A'.val - 'a'.val) else d.val := by
    intro d
    unfold Char.toUpper
    split <;> rfl
  have hlow : ∀ d : Char, d.toLower.val =
      if d.val ≥ 'A'.val ∧ d.val ≤ 'Z'.val then d.val + ('a'.val - 'A'.val) else d.val := by
    intro d
    unfold Char.toLower
    split <;> rfl
  apply Char.ext
  rw [hlow, hlow, hval]
  generalize c.val = n
  -- only the small letters of ASCII are changed, and come back
  have h1 : ('a' : Char).val = 97 := rfl
  have h2 : ('A' : Char).val = 65 := rfl
  have h3 : ('z' : Char).val = 122 := rfl
  have h4 : ('Z' : Char).val = 90 := rfl
  rw [h1, h2, h3, h4]
  split
  · rename_i h
    have hn : 97 ≤ n.toNat ∧ n.toNat ≤ 122 := h
    have hsub : (n + (65 - 97)).toNat = n.toNat - 32 := by
      rw [UInt32.toNat_add, show ((65 : UInt32) - 97).toNat = 4294967264 from rfl]
      omega
    have hupper : n + (65 - 97) ≥ 65 ∧ n + (65 - 97) ≤ 90 := by
      constructor
      · show 65 ≤ (n + (65 - 97)).toNat
        omega
      · show (n + (65 - 97)).toNat ≤ 90
        omega
    have hnot : ¬ (n ≥ 65 ∧ n ≤ 90) := by
      rintro ⟨-, h90⟩
      have : n.toNat ≤ 90 := h90
      omega
    rw [if_pos hupper, if_neg hnot]
    apply UInt32.toNat_inj.mp
    rw [UInt32.toNat_add, hsub, show ((97 : UInt32) - 65).toNat = 32 from rfl]
    omega
  · rfl

theorem toLower_of_upperChar (c : Char) : c.toLower = (upperChar c).toLower ∨ c = 'ſ' := by
  unfold upperChar
  split
  · rename_i h
    exact .inr h
  · exact .inl (toLower_toUpper c).symm

theorem toLower_of_isSpace {c : Char} (h : EventStream.isSpace c = true) : c.toLower = c := by
  unfold Char.toLower
  rw [dif_neg]
  rintro ⟨hge, hle⟩
  have h65 : 65 ≤ c.toNat := hge
  have h90 : c.toNat ≤ 90 := hle
  simp only [EventStream.isSpace, Bool.or_eq_true, Bool.and_eq_true, decide_eq_true_eq] at h
  omega

theorem strip_isInfix (text : List Char) : EventStream.strip text <:+: text :=
  (List.rdropWhile_prefix _ _).isInfix.trans (List.dropWhile_suffix _).isInfix

theorem mem_dropWhile_or {α : Type} {p : α → Bool} {a : α} {l : List α} (h : a ∈ l) :
    a ∈ l.dropWhile p ∨ p a = true := by
  rw [← List.takeWhile_append_dropWhile (p := p) (l := l)] at h
  rcases List.mem_append.mp h with h | h
  · exact .inr (List.mem_takeWhile_imp h)
  · exact .inl h

/-- Stripping takes blanks away and nothing else. -/
theorem mem_strip_or {c : Char} {text : List Char} (h : c ∈ text) :
    c ∈ EventStream.strip text ∨ EventStream.isSpace c = true := by
  rcases mem_dropWhile_or (p := EventStream.isSpace) h with h | h
  · rcases mem_dropWhile_or (p := EventStream.isSpace) (List.mem_reverse.mpr h) with h | h
    · exact .inl (List.mem_reverse.mpr h)
    · exact .inr h
  · exact .inr h

theorem containsText_iff {needle : String} {text : List Char} :
    containsText needle (String.ofList text) = true ↔ needle.toList <:+: text := by
  simp [containsText]

/-- A letter of the lower case of a text is one of the name that the text spells. -/
theorem mem_lower {text : List Char} {c : Char} (h : c ∈ lower text)
    (hspace : EventStream.isSpace c = false) (hlong : c ≠ 'ſ') :
    ∃ d ∈ upper (EventStream.strip text), c = d.toLower := by
  obtain ⟨d, hd, rfl⟩ := List.mem_map.mp h
  rcases mem_strip_or hd with hd | hblank
  · refine ⟨_, List.mem_map_of_mem hd, ?_⟩
    rcases toLower_of_upperChar d with hlower | rfl
    · exact hlower
    · exact absurd rfl hlong
  · rw [toLower_of_isSpace hblank, hblank] at hspace
    exact nomatch hspace

/-- The lower case of what an upper case came of, where there is no long s. -/
theorem lower_of_upper {core name : List Char} (h : upper core = name) (hname : 'S' ∉ name) :
    lower core = lower name := by
  subst h
  unfold lower upper
  rw [List.map_map]
  refine List.map_congr_left fun c hc => ?_
  rcases toLower_of_upperChar c with hlower | rfl
  · exact hlower
  · exact absurd (List.mem_map.mpr ⟨_, hc, rfl⟩) hname

/-- A part of the name that a text spells is a part of the text, in small letters. -/
theorem contains_of_upper {text front back : List Char} {name needle : String}
    (h : upper (EventStream.strip text) = front ++ name.toList ++ back) (hname : 'S' ∉ name.toList)
    (hneedle : needle.toList = lower name.toList) :
    containsText needle (String.ofList (lower text)) = true := by
  obtain ⟨l, r, hsplit, hl, hback⟩ := List.map_eq_append_iff.mp h
  obtain ⟨l', m, hsplit', hfront, hm⟩ := List.map_eq_append_iff.mp hl
  have hmiddle : lower m = needle.toList := (lower_of_upper hm hname).trans hneedle.symm
  have hinfix : m <:+: text :=
    List.IsInfix.trans ⟨l', r, by rw [hsplit, hsplit']⟩ (strip_isInfix text)
  rw [containsText_iff, ← hmiddle]
  exact hinfix.map _

theorem protocolFromTransport_http {transport : String} (h : SameProtocol transport "HTTP+JSON") :
    protocolFromTransport transport = some "http+json" := by
  have hupper : upper (EventStream.strip transport.toList) = [] ++ "HTTP".toList ++ "+JSON".toList := h
  have hhttp : containsText "http" (String.ofList (lower transport.toList)) = true :=
    contains_of_upper hupper (by decide) (by decide)
  unfold protocolFromTransport
  simp [hhttp]

theorem protocolFromTransport_rpc {transport : String} (h : SameProtocol transport "JSONRPC") :
    protocolFromTransport transport = some "jsonrpc" := by
  have hupper : upper (EventStream.strip transport.toList) = "JSON".toList ++ "RPC".toList ++ [] := h
  have hrpc : containsText "rpc" (String.ofList (lower transport.toList)) = true :=
    contains_of_upper hupper (by decide) (by decide)
  have hhttp : containsText "http" (String.ofList (lower transport.toList)) = false := by
    rw [Bool.eq_false_iff, Ne, containsText_iff]
    intro hinfix
    have hh : 'h' ∈ lower transport.toList := hinfix.subset (by decide)
    obtain ⟨d, hd, heq⟩ := mem_lower hh (by decide) (by decide)
    rw [hupper] at hd
    -- no letter of the name is an H
    have hnone : ("JSON".toList ++ "RPC".toList ++ []).all (fun d => d.toLower != 'h') = true := by
      decide
    have hne := List.all_eq_true.1 hnone d hd
    rw [← heq] at hne
    cases hne
  unfold protocolFromTransport
  simp [hhttp, hrpc]

theorem rpc_sameProtocol : SameProtocol "JSONRPC" "jsonrpc" := by decide

theorem http_sameProtocol : SameProtocol "HTTP+JSON" "http+json" := by decide

theorem SameProtocol.trans {a b c : String} (h : SameProtocol a b) (h' : SameProtocol b c) :
    SameProtocol a c := Eq.trans h h'

/-- The transports that the client speaks are read as what they are. -/
theorem protocolFromTransport_spoken {transport : String} (h : Spoken transport) :
    ∃ proto, protocolFromTransport transport = some proto ∧ SameProtocol transport proto := by
  rcases h with h | h
  · exact ⟨_, protocolFromTransport_rpc h, h.trans rpc_sameProtocol⟩
  · exact ⟨_, protocolFromTransport_http h, h.trans http_sameProtocol⟩

/-- A binding is read as a protocol only if it is the name of one. -/
theorem protocolFromBinding_some {binding : Option String} {proto : String}
    (h : protocolFromBinding binding = some proto) :
    ∃ name, binding = some name ∧ Spoken name ∧ SameProtocol name proto := by
  cases binding with
  | none =>
    -- the text of a missing binding is the name of no protocol
    have hnone : protocolFromBinding none = none := by decide
    rw [hnone] at h
    exact nomatch h
  | some name =>
    unfold protocolFromBinding at h
    dsimp only at h
    split at h
    · rename_i hname
      have hsame : SameProtocol name "HTTP+JSON" := hname
      cases h
      exact ⟨name, rfl, .inr hsame, hsame.trans http_sameProtocol⟩
    · split at h
      · rename_i hname
        have hsame : SameProtocol name "JSONRPC" := hname
        cases h
        exact ⟨name, rfl, .inl hsame, hsame.trans rpc_sameProtocol⟩
      · exact nomatch h

theorem protocolFromBinding_spoken {name : String} (h : Spoken name) :
    ∃ proto, protocolFromBinding (some name) = some proto := by
  unfold protocolFromBinding
  dsimp only
  split
  · exact ⟨_, rfl⟩
  · rename_i hnot
    rcases h with h | h
    · exact ⟨_, if_pos h⟩
    · exact absurd h hnot

/-! ### Lists of candidates -/

theorem addNew_nodup {candidates : List Candidate} (h : candidates.Nodup) (entry : Candidate) :
    (addNew candidates entry).Nodup := by
  unfold addNew
  split
  · exact h
  · rename_i hnew
    exact h.append (List.nodup_singleton entry) (List.disjoint_singleton.mpr hnew)

theorem foldl_addNew_nodup {candidates : List Candidate} (h : candidates.Nodup)
    (entries : List Candidate) : (entries.foldl addNew candidates).Nodup := by
  induction entries generalizing candidates with
  | nil => exact h
  | cons entry rest ih => exact ih (addNew_nodup h entry)

theorem mem_addNew {candidates : List Candidate} {entry c : Candidate} :
    c ∈ addNew candidates entry ↔ c ∈ candidates ∨ c = entry := by
  unfold addNew
  split
  · rename_i hold
    constructor
    · exact .inl
    · rintro (h | rfl)
      · exact h
      · exact hold
  · rw [List.mem_append, List.mem_singleton]

theorem mem_foldl_addNew {candidates entries : List Candidate} {c : Candidate} :
    c ∈ entries.foldl addNew candidates ↔ c ∈ candidates ∨ c ∈ entries := by
  induction entries generalizing candidates with
  | nil => simp
  | cons entry rest ih =>
    rw [List.foldl_cons, ih, mem_addNew, List.mem_cons]
    exact or_assoc

/-- Nothing comes before the candidates that are there. -/
theorem foldl_addNew_isPrefix (candidates entries : List Candidate) :
    candidates <+: entries.foldl addNew candidates := by
  induction entries generalizing candidates with
  | nil => exact List.prefix_rfl
  | cons entry rest ih =>
    refine List.IsPrefix.trans ?_ (ih (addNew candidates entry))
    unfold addNew
    split
    · exact List.prefix_rfl
    · exact List.prefix_append _ _

/-! ### The candidates of a card -/

section

variable {url : String} {preference : Option String}

theorem detectProtocol_forced {proto : String} (h : forced preference = some proto)
    (card : AgentCard) : detectProtocol preference card = proto := by
  unfold detectProtocol
  rw [h]

/-- Without a forced protocol the primary url has the preferred transport. -/
theorem detectProtocol_spoken {card : AgentCard} (h : forced preference = none)
    (hspoken : Spoken (card.preferredTransport.getD "JSONRPC")) :
    SameProtocol (card.preferredTransport.getD "JSONRPC") (detectProtocol preference card) := by
  unfold detectProtocol
  rw [h]
  dsimp only
  cases hpreferred : card.preferredTransport with
  | none => exact rpc_sameProtocol
  | some transport =>
    rw [hpreferred, Option.getD_some] at hspoken
    obtain ⟨proto, hproto, hsame⟩ := protocolFromTransport_spoken hspoken
    rw [Option.bind_some, hproto]
    exact hsame

theorem candidatesV03_keep (preference : Option String) (card : AgentCard) :
    ForcedThenAdvertised preference card (candidatesV03 preference card) := by
  constructor
  · exact foldl_addNew_nodup (List.nodup_singleton _) _
  · intro proto hforced
    obtain ⟨rest, hrest⟩ := foldl_addNew_isPrefix
      [{ url := card.url, proto := detectProtocol preference card, wireVersion := "0.3" }]
      ((card.additionalInterfaces.getD []).filterMap (AgentInterface.entry card.url))
    rw [detectProtocol_forced hforced] at hrest
    refine ⟨rest, ?_⟩
    unfold candidatesV03
    rw [detectProtocol_forced hforced, ← hrest]
    rfl
  · intro c hc
    rcases mem_foldl_addNew.mp hc with hc | hc
    · -- the primary url, with the forced protocol or the preferred transport
      obtain rfl := List.mem_singleton.mp hc
      cases hforced : forced preference with
      | some proto => exact .inr (.inl ⟨proto, rfl, by rw [detectProtocol_forced hforced]⟩)
      | none =>
        by_cases hspoken : Spoken (card.preferredTransport.getD "JSONRPC")
        · exact .inl ⟨rfl, _, List.mem_cons_self, rfl, detectProtocol_spoken hforced hspoken⟩
        · refine .inr (.inr ⟨_, List.mem_cons_self, hspoken, ?_⟩)
          cases htransport : card.preferredTransport with
          | none =>
            rw [htransport] at hspoken
            exact absurd (Or.inl rfl) hspoken
          | some transport => rw [detectProtocol, hforced, htransport, Option.bind_some, Option.getD_some]
    · -- an interface that is listed
      obtain ⟨iface, hiface, hentry⟩ := List.mem_filterMap.mp hc
      obtain ⟨proto, hproto, rfl⟩ := Option.map_eq_some_iff.mp hentry
      have hlisted : { iface with url := textOr (some iface.url) card.url } ∈ card.interfaces :=
        List.mem_cons_of_mem _ (List.mem_map.mpr ⟨iface, hiface, rfl⟩)
      by_cases hspoken : Spoken iface.transport
      · obtain ⟨proto', hproto', hsame⟩ := protocolFromTransport_spoken hspoken
        rw [hproto] at hproto'
        cases hproto'
        exact .inl ⟨rfl, _, hlisted, rfl, hsame⟩
      · exact .inr (.inr ⟨_, hlisted, hspoken, by rw [hproto, Option.getD_some]⟩)

theorem mem_candidatesV10 {card : AgentCardV10} {c : Candidate} :
    c ∈ candidatesV10 url card ↔
      ∃ iface ∈ card.supportedInterfaces.getD [], iface.entry url = some c := by
  unfold candidatesV10
  rw [mem_foldl_addNew, List.mem_filterMap]
  exact or_iff_right (List.not_mem_nil)

theorem candidatesV10_advertised {card : AgentCardV10} {c : Candidate}
    (h : c ∈ candidatesV10 url card) : card.Advertises url c := by
  obtain ⟨iface, hiface, hentry⟩ := mem_candidatesV10.mp h
  obtain ⟨proto, hproto, rfl⟩ := Option.map_eq_some_iff.mp hentry
  obtain ⟨name, hname, -, hsame⟩ := protocolFromBinding_some hproto
  exact ⟨iface, hiface, rfl, rfl, name, hname, hsame⟩

/-- There is a candidate if the client speaks one of the bindings. -/
theorem candidatesV10_ne_nil_iff {card : AgentCardV10} :
    candidatesV10 url card ≠ [] ↔ card.Usable := by
  constructor
  · intro h
    obtain ⟨c, hc⟩ := List.exists_mem_of_ne_nil _ h
    obtain ⟨iface, hiface, hentry⟩ := mem_candidatesV10.mp hc
    obtain ⟨proto, hproto, -⟩ := Option.map_eq_some_iff.mp hentry
    obtain ⟨name, hname, hspoken, -⟩ := protocolFromBinding_some hproto
    exact ⟨iface, hiface, name, hname, hspoken⟩
  · rintro ⟨iface, hiface, name, hname, hspoken⟩
    obtain ⟨proto, hproto⟩ := protocolFromBinding_spoken hspoken
    have hentry : iface.entry url = some
        { url := textOr iface.url url, proto, wireVersion := textOr iface.protocolVersion "1.0" } := by
      rw [AgentInterfaceV10.entry, hname, hproto]
      rfl
    exact List.ne_nil_of_mem (mem_candidatesV10.mpr ⟨iface, hiface, hentry⟩)

/-- The candidates are what they are by design, for every card and every preference. -/
theorem candidates_advertised (url : String) (preference : Option String) (card : ParsedCard) :
    KeepsToCard url preference (buildTransportCandidates url preference card) card := by
  cases card with
  | v03 card => exact candidatesV03_keep preference card
  | v10 card =>
    have hempty : (candidatesV10 url card).isEmpty = true ↔ ¬ card.Usable := by
      rw [List.isEmpty_iff, ← @candidatesV10_ne_nil_iff url card, not_not]
    constructor
    · intro husable
      have hcandidates : buildTransportCandidates url preference (.v10 card) = candidatesV10 url card :=
        if_neg fun h => hempty.mp h husable
      rw [hcandidates]
      refine ⟨candidatesV10_ne_nil_iff.mpr husable, ?_, fun c => candidatesV10_advertised⟩
      exact foldl_addNew_nodup List.nodup_nil _
    · intro hnone
      have hcandidates : buildTransportCandidates url preference (.v10 card) =
          candidatesV03 preference (projectV10CardToV03 card) := if_pos (hempty.mpr hnone)
      rw [hcandidates]
      exact candidatesV03_keep preference _

end

/-- The caller forces JSON-RPC, and the agent has REST only. -/
theorem forced_not_advertised :
    ¬ RespectsCard "http://agent" (some "jsonrpc")
      (.v03 { url := "http://agent/v1", preferredTransport := some "HTTP+JSON" })
      (buildTransportCandidates "http://agent" (some "jsonrpc")
        (.v03 { url := "http://agent/v1", preferredTransport := some "HTTP+JSON" })) := by
  intro h
  obtain ⟨-, iface, hiface, -, hsame⟩ := h.advertised
    { url := "http://agent/v1", proto := "jsonrpc", wireVersion := "0.3" } (by decide)
  obtain rfl := List.mem_singleton.mp hiface
  exact absurd hsame (by decide)

end A2AKit
