/-
The network location of a URL.

`userinfo@host:port`, as `urllib.parse` splits it: the last `@` ends the userinfo, the first colon
in it ends the username, and a host in brackets may have colons of its own.

* `split_rebuild`, `userinfo_rebuild` — a network location put together from a username, a password,
  the text of an address and a port is split into these.
-/
import Mathlib.Data.List.Basic

namespace Netloc

/-- `text.partition(c)`: the part before the first `c`, and the part after it. -/
def partition (c : Char) : List Char → List Char × Option (List Char)
  | [] => ([], none)
  | x :: xs =>
    if x = c then ([], some xs)
    else
      let r := partition c xs
      (x :: r.1, r.2)

/-- `text.rpartition(c)`: the part before the last `c`, and the part after it. -/
def rpartition (c : Char) (text : List Char) : Option (List Char) × List Char :=
  match partition c text.reverse with
  | (after, some before) => (some before.reverse, after.reverse)
  | (_, none) => (none, text)

/-- Username and password. -/
def userinfo (netloc : List Char) : Option (List Char) × Option (List Char) :=
  match (rpartition '@' netloc).1 with
  | none => (none, none)
  | some info => (some (partition ':' info).1, (partition ':' info).2)

/-- The texts of host and port, of what stands after the userinfo. -/
def splitHost (text : List Char) : List Char × Option (List Char) :=
  match (partition '[' text).2 with
  | some bracketed =>
    ((partition ']' bracketed).1, (partition ':' ((partition ']' bracketed).2.getD [])).2)
  | none => partition ':' text

/-- The texts of host and port; an empty port is none. -/
def hostinfo (netloc : List Char) : List Char × Option (List Char) :=
  let r := splitHost (rpartition '@' netloc).2
  (r.1, r.2.filter (· ≠ []))

/-- The text before a zone is in lower case. -/
def lowerHost (lower : List Char → List Char) (hostname : List Char) : List Char :=
  let r := partition '%' hostname
  lower r.1 ++ match r.2 with
    | none => []
    | some zone => '%' :: zone

/-- `hostname` -/
def hostname (lower : List Char → List Char) (netloc : List Char) : Option (List Char) :=
  if (hostinfo netloc).1 = [] then none else some (lowerHost lower (hostinfo netloc).1)

/-- `port`; an error where the text is no number up to 65535. -/
def port (netloc : List Char) : Except Unit (Option Nat) :=
  match (hostinfo netloc).2 with
  | none => .ok none
  | some digits =>
    if digits.all Char.isDigit && Nat.ofDigitChars 10 digits 0 ≤ 65535 then
      .ok (some (Nat.ofDigitChars 10 digits 0))
    else .error ()

/-! ### Parts of a text -/

variable {c : Char} {s t : List Char}

theorem partition_append (h : c ∉ s) : partition c (s ++ c :: t) = (s, some t) := by
  induction s with
  | nil => exact if_pos rfl
  | cons x s ih =>
    obtain ⟨hx, hs⟩ := not_or.mp (mt List.mem_cons.mpr h)
    rw [List.cons_append, partition, if_neg (Ne.symm hx), ih hs]

theorem partition_of_not_mem (h : c ∉ s) : partition c s = (s, none) := by
  induction s with
  | nil => rfl
  | cons x s ih =>
    obtain ⟨hx, hs⟩ := not_or.mp (mt List.mem_cons.mpr h)
    rw [partition, if_neg (Ne.symm hx), ih hs]

theorem not_mem_partition (c : Char) (s : List Char) : c ∉ (partition c s).1 := by
  induction s with
  | nil => exact List.not_mem_nil
  | cons x s ih =>
    rw [partition]
    split
    · exact List.not_mem_nil
    · rename_i hx
      rw [List.mem_cons, not_or]
      exact ⟨Ne.symm hx, ih⟩

theorem rpartition_append (h : c ∉ t) : rpartition c (s ++ c :: t) = (some s, t) := by
  have hreverse : (s ++ c :: t).reverse = t.reverse ++ c :: s.reverse := by simp
  unfold rpartition
  rw [hreverse, partition_append (by simpa using h)]
  simp

theorem rpartition_of_not_mem (h : c ∉ t) : rpartition c t = (none, t) := by
  unfold rpartition
  rw [partition_of_not_mem (by simpa using h)]

/-! ### Putting it together -/

/-- An address stands in brackets if it has a colon. -/
def addressText (address : List Char) : List Char :=
  if ':' ∈ address then '[' :: (address ++ [']']) else address

def portText : Option Nat → List Char
  | none => []
  | some n => ':' :: Nat.toDigits 10 n

/-- The text of an address: it has no character that ends a part of the network location. -/
def PlainAddress (address : List Char) : Prop :=
  address ≠ [] ∧ '@' ∉ address ∧ '[' ∉ address ∧ ']' ∉ address

section

variable {address : List Char} {n : Option Nat}

theorem isDigit_of_mem_digits {n : Nat} {d : Char} (h : d ∈ Nat.toDigits 10 n) : d.isDigit = true :=
  Nat.isDigit_of_mem_toDigits (by omega) (by omega) h

theorem not_mem_portText {d : Char} (hd : d.isDigit = false) (hcolon : d ≠ ':') : d ∉ portText n := by
  cases n with
  | none => exact List.not_mem_nil
  | some n =>
    show d ∉ ':' :: Nat.toDigits 10 n
    rw [List.mem_cons, not_or]
    refine ⟨hcolon, fun hmem => ?_⟩
    rw [isDigit_of_mem_digits hmem] at hd
    exact nomatch hd

theorem not_mem_addressText {d : Char} (hd : d ∉ address) (hopen : d ≠ '[') (hclose : d ≠ ']') :
    d ∉ addressText address := by
  unfold addressText
  split
  · simp [hd, hopen, hclose]
  · exact hd

theorem filter_digits (n : Nat) :
    (some (Nat.toDigits 10 n)).filter (· ≠ []) = some (Nat.toDigits 10 n) := by
  rw [Option.filter_some, if_pos (decide_eq_true Nat.toDigits_ne_nil)]

/-- The port of a text that a port was put in front of. -/
theorem partition_portText : (partition ':' (portText n)).2.filter (· ≠ []) =
    n.map (Nat.toDigits 10) := by
  cases n with
  | none => rfl
  | some n =>
    exact filter_digits n

theorem splitHost_address (haddress : PlainAddress address) :
    (splitHost (addressText address ++ portText n)).1 = address ∧
      (splitHost (addressText address ++ portText n)).2.filter (· ≠ []) =
        n.map (Nat.toDigits 10) := by
  obtain ⟨-, -, hopen, hclose⟩ := haddress
  unfold addressText
  split
  · -- in brackets
    have hbracket : partition '[' ('[' :: (address ++ [']']) ++ portText n) =
        ([], some (address ++ ']' :: portText n)) := by
      rw [List.cons_append, partition, if_pos rfl, List.append_assoc, List.singleton_append]
    unfold splitHost
    rw [hbracket]
    dsimp only
    rw [partition_append hclose]
    exact ⟨rfl, partition_portText⟩
  · rename_i hcolon
    have hbracket : '[' ∉ address ++ portText n := by
      rw [List.mem_append, not_or]
      exact ⟨hopen, not_mem_portText rfl (by decide)⟩
    unfold splitHost
    rw [partition_of_not_mem hbracket]
    dsimp only
    cases n with
    | none =>
      rw [show portText none = [] from rfl, List.append_nil, partition_of_not_mem hcolon]
      exact ⟨rfl, rfl⟩
    | some n =>
      rw [show portText (some n) = ':' :: Nat.toDigits 10 n from rfl, partition_append hcolon]
      exact ⟨rfl, filter_digits n⟩

/-- The address is behind the userinfo, if there is one. -/
theorem rpartition_address (haddress : PlainAddress address) :
    rpartition '@' (addressText address ++ portText n) = (none, addressText address ++ portText n) ∧
      ∀ info, rpartition '@' (info ++ ['@'] ++ (addressText address ++ portText n)) =
        (some info, addressText address ++ portText n) := by
  obtain ⟨-, hat, -, -⟩ := haddress
  have hnone : '@' ∉ addressText address ++ portText n := by
    rw [List.mem_append, not_or]
    exact ⟨not_mem_addressText hat (by decide) (by decide), not_mem_portText rfl (by decide)⟩
  refine ⟨rpartition_of_not_mem hnone, fun info => ?_⟩
  rw [List.append_assoc, List.singleton_append]
  exact rpartition_append hnone

/-- What an address and a port are split into, behind any userinfo. -/
theorem split_rebuild (haddress : PlainAddress address) (hport : ∀ m ∈ n, m ≤ 65535)
    {netloc : List Char} (hlast : (rpartition '@' netloc).2 = addressText address ++ portText n)
    (lower : List Char → List Char) :
    hostname lower netloc = some (lowerHost lower address) ∧ port netloc = .ok n := by
  obtain ⟨hhost, hdigits⟩ := splitHost_address (n := n) haddress
  have hinfo : hostinfo netloc = (address, n.map (Nat.toDigits 10)) := by
    unfold hostinfo
    rw [hlast]
    exact Prod.ext hhost hdigits
  unfold hostname port
  rw [hinfo]
  refine ⟨if_neg haddress.1, ?_⟩
  cases n with
  | none => rfl
  | some m =>
    have hall : (Nat.toDigits 10 m).all Char.isDigit = true :=
      List.all_eq_true.mpr fun d hd => isDigit_of_mem_digits hd
    show (if _ then _ else _) = _
    rw [Nat.ofDigitChars_ten_toDigits, hall, if_pos]
    simpa using hport m rfl

/-- A username without a colon, and any password. -/
theorem userinfo_rebuild {username rest : List Char} {password : Option (List Char)} {netloc : List Char}
    (husername : ':' ∉ username)
    (hinfo : rpartition '@' netloc = (some (match password with
      | none => username
      | some password => username ++ ':' :: password), rest)) :
    userinfo netloc = (some username, password) := by
  unfold userinfo
  rw [hinfo]
  cases password with
  | none =>
    show (some (partition ':' username).1, (partition ':' username).2) = _
    rw [partition_of_not_mem husername]
  | some password =>
    show (some (partition ':' (username ++ ':' :: password)).1,
      (partition ':' (username ++ ':' :: password)).2) = _
    rw [partition_append husername]

/-- A username that was split off has no colon. -/
theorem username_plain {netloc username : List Char} (h : (userinfo netloc).1 = some username) :
    ':' ∉ username := by
  unfold userinfo at h
  split at h
  · exact nomatch h
  · cases h
    exact not_mem_partition ':' _

/-- A port that was split off is no larger than 65535. -/
theorem port_le {netloc : List Char} (h : port netloc = .ok n) : ∀ m ∈ n, m ≤ 65535 := by
  unfold port at h
  split at h
  · cases h
    exact nofun
  · split at h
    · rename_i hdigits
      cases h
      intro m hm
      cases hm
      rw [Bool.and_eq_true, decide_eq_true_eq] at hdigits
      exact hdigits.2
    · exact nomatch h

end

end Netloc
