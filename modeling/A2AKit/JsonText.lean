/-
JSON values and their texts.

A `Style` says how texts are written: with all other characters than the printable ones of ASCII
escaped, and with a space after the separators, as `json.dumps` does, or without, as compact
writers of Unicode do.  `Json.read` reads a text of either style.

`Json.read_write` says that what is written is read back.
-/
import Mathlib.Data.List.Basic
import Mathlib.Data.Nat.Basic

/-- A closed list is checked character by character, whatever instances Mathlib brings along. -/
instance (priority := high) decidableForallChar (p : Char → Prop) [DecidablePred p]
    (l : List Char) : Decidable (∀ c ∈ l, p c) :=
  List.decidableBAll p l

/-- The characters of numbers. -/
def isNumberChar (c : Char) : Bool :=
  c.isDigit || c = '-' || c = '+' || c = '.' || c = 'e' || c = 'E'

/-- What has been read of a number. -/
inductive NumberState
  | start
  | minus
  | zero
  | digits
  | point
  | fraction
  | exponentMark
  | exponentSign
  | exponent
  deriving DecidableEq, Repr

namespace NumberState

def afterInteger (c : Char) : Option NumberState :=
  if c = '.' then some point else if c = 'e' ∨ c = 'E' then some exponentMark else none

def step : NumberState → Char → Option NumberState
  | start, c =>
    if c = '-' then some minus else if c = '0' then some zero
    else if c.isDigit then some digits else none
  | minus, c => if c = '0' then some zero else if c.isDigit then some digits else none
  | zero, c => afterInteger c
  | digits, c => if c.isDigit then some digits else afterInteger c
  | point, c => if c.isDigit then some fraction else none
  | fraction, c =>
    if c.isDigit then some fraction else if c = 'e' ∨ c = 'E' then some exponentMark else none
  | exponentMark, c =>
    if c = '+' ∨ c = '-' then some exponentSign else if c.isDigit then some exponent else none
  | exponentSign, c => if c.isDigit then some exponent else none
  | exponent, c => if c.isDigit then some exponent else none

def accepts : NumberState → List Char → Bool
  | s, [] => s = zero || s = digits || s = fraction || s = exponent
  | s, c :: r =>
    match s.step c with
    | none => false
    | some s' => s'.accepts r

end NumberState

/-- The text of a number. -/
structure NumberText where
  text : String
  valid : NumberState.start.accepts text.toList = true

theorem accepts_digits {l : List Char} (h : ∀ c ∈ l, c.isDigit = true) :
    NumberState.digits.accepts l = true := by
  induction l with
  | nil => rfl
  | cons c l ih =>
    have hstep : NumberState.digits.step c = some .digits := by
      simp [NumberState.step, h c (by simp)]
    rw [NumberState.accepts, hstep]
    exact ih fun d hd => h d (by simp [hd])

/-- The decimals of a positive number do not begin with a zero. -/
theorem toDigits_head {n : Nat} (hn : 0 < n) :
    ∃ c r, Nat.toDigits 10 n = c :: r ∧ c ≠ '0' := by
  induction n using Nat.strongRecOn with
  | ind n ih =>
    by_cases hsmall : n < 10
    · rw [Nat.toDigits_of_lt_base hsmall]
      refine ⟨n.digitChar, [], rfl, ?_⟩
      have hall : ∀ k < 10, 0 < k → k.digitChar ≠ '0' := by decide
      exact hall n hsmall hn
    · obtain ⟨c, r, hc, hzero⟩ := ih (n / 10) (by omega) (by omega)
      rw [Nat.toDigits_of_base_le (by omega) (by omega), hc]
      exact ⟨c, _, rfl, hzero⟩

theorem accepts_toDigits (n : Nat) : NumberState.start.accepts (Nat.toDigits 10 n) = true := by
  have hdigit : ∀ c ∈ Nat.toDigits 10 n, c.isDigit = true := fun c hc =>
    Nat.isDigit_of_mem_toDigits (by omega) (by omega) hc
  rcases Nat.eq_zero_or_pos n with rfl | hn
  · decide
  · obtain ⟨c, r, hc, hzero⟩ := toDigits_head hn
    rw [hc] at hdigit ⊢
    have hminus : c ≠ '-' := by
      rintro rfl
      exact absurd (hdigit '-' (by simp)) (by decide)
    have hstep : NumberState.start.step c = some .digits := by
      simp [NumberState.step, hminus, hzero, hdigit c (by simp)]
    rw [NumberState.accepts, hstep]
    exact accepts_digits fun d hd => hdigit d (by simp [hd])

def NumberText.ofNat (n : Nat) : NumberText :=
  ⟨String.ofList (Nat.toDigits 10 n), by rw [String.toList_ofList]; exact accepts_toDigits n⟩

mutual

inductive Json
  | null
  | bool (b : Bool)
  | number (n : NumberText)
  | string (s : String)
  | array (items : JsonItems)
  | object (fields : JsonFields)

inductive JsonItems
  | nil
  | cons (j : Json) (rest : JsonItems)

inductive JsonFields
  | nil
  | cons (key : String) (j : Json) (rest : JsonFields)

end

namespace JsonFields

/-- `dict.get`: of two members with one key, the last. -/
def get (key : String) : JsonFields → Option Json
  | .nil => none
  | .cons k j rest =>
    match rest.get key with
    | some v => some v
    | none => if k = key then some j else none

/-- `key in dict` -/
def has (key : String) (fields : JsonFields) : Bool := (fields.get key).isSome

def keys : JsonFields → List String
  | .nil => []
  | .cons k _ rest => k :: rest.keys

def filterKeys (p : String → Bool) : JsonFields → JsonFields
  | .nil => .nil
  | .cons k j rest => if p k then .cons k j (rest.filterKeys p) else rest.filterKeys p

end JsonFields

/-- `escaped` texts have nothing but printable characters of ASCII; in `spaced` ones a space comes
after a separator. -/
structure JsonStyle where
  escaped : Bool
  spaced : Bool
  deriving DecidableEq, Repr

namespace Json

/-! ### Strings -/

def hexDigit (n : Nat) : Char := ("0123456789abcdef".toList)[n % 16]!

def hexValue (c : Char) : Option Nat :=
  if '0' ≤ c ∧ c ≤ '9' then some (c.toNat - '0'.toNat)
  else if 'a' ≤ c ∧ c ≤ 'f' then some (c.toNat - 'a'.toNat + 10)
  else if 'A' ≤ c ∧ c ≤ 'F' then some (c.toNat - 'A'.toNat + 10)
  else none

/-- `\uXXXX` -/
def unicodeEscape (n : Nat) : List Char :=
  ['\\', 'u', hexDigit (n / 4096), hexDigit (n / 256), hexDigit (n / 16), hexDigit n]

/-- The escapes of one letter. -/
def shortEscapes : List (Char × Char) :=
  [('"', '"'), ('\\', '\\'), ('\n', 'n'), ('\r', 'r'), ('\t', 't'), ('\x08', 'b'), ('\x0c', 'f')]

def escapeChar (escaped : Bool) (c : Char) : List Char :=
  match shortEscapes.lookup c with
  | some e => ['\\', e]
  | none =>
    if c.toNat < 32 then unicodeEscape c.toNat
    else if escaped ∧ 126 < c.toNat then
      if c.toNat < 65536 then unicodeEscape c.toNat
      else unicodeEscape (55296 + (c.toNat - 65536) / 1024) ++
        unicodeEscape (56320 + (c.toNat - 65536) % 1024)
    else [c]

/-- The body of a string, and the quotation mark after it. -/
def writeString (escaped : Bool) : List Char → List Char
  | [] => ['"']
  | c :: s => escapeChar escaped c ++ writeString escaped s

/-- Where a reader is within a string; `high` is a surrogate that waits for its partner. -/
inductive StringState
  | plain
  | escape
  | hex (digits : Nat) (value : Nat) (high : Option Nat)
  | lowEscape (high : Nat)
  | lowUnicode (high : Nat)
  deriving DecidableEq, Repr

/-- The character of an escape of one letter. -/
def unescape (e : Char) : Option Char :=
  if e = '/' then some '/' else (shortEscapes.find? fun p => p.2 = e).map Prod.fst

def isHigh (n : Nat) : Bool := 55296 ≤ n && n < 56320

def isLow (n : Nat) : Bool := 56320 ≤ n && n < 57344

/-- What comes after the last digit of an escape. -/
def afterHex (value : Nat) (high : Option Nat) : Option (StringState × List Char) :=
  match high with
  | none =>
    if isHigh value then some (.lowEscape value, [])
    else if isLow value then none
    else some (.plain, [Char.ofNat value])
  | some h =>
    if isLow value then
      some (.plain, [Char.ofNat (65536 + (h - 55296) * 1024 + (value - 56320))])
    else none

/-- One character of a string: the next state, and what is read; not for the end of the string. -/
def stringStep : StringState → Char → Option (StringState × List Char)
  | .plain, c =>
    if c = '\\' then some (.escape, [])
    else if c.toNat < 32 then none
    else some (.plain, [c])
  | .escape, c =>
    if c = 'u' then some (.hex 0 0 none, [])
    else (unescape c).map fun d => (.plain, [d])
  | .hex digits value high, c =>
    match hexValue c with
    | none => none
    | some x =>
      if digits < 3 then some (.hex (digits + 1) (16 * value + x) high, [])
      else afterHex (16 * value + x) high
  | .lowEscape high, c => if c = '\\' then some (.lowUnicode high, []) else none
  | .lowUnicode high, c => if c = 'u' then some (.hex 0 0 (some high), []) else none

/-- The rest of a string, and the text after it. -/
def readString : StringState → List Char → Option (List Char × List Char)
  | _, [] => none
  | state, c :: r =>
    if state = .plain ∧ c = '"' then some ([], r)
    else
      match stringStep state c with
      | none => none
      | some (state', s) => (readString state' r).map fun p => (s ++ p.1, p.2)

/-! ### Texts -/

def isJsonSpace (c : Char) : Bool := c = ' ' || c = '\t' || c = '\n' || c = '\r'

def skipSpace (text : List Char) : List Char := text.dropWhile isJsonSpace

def separator (style : JsonStyle) (c : Char) : List Char :=
  c :: if style.spaced then [' '] else []

mutual

def write (style : JsonStyle) : Json → List Char
  | .null => "null".toList
  | .bool true => "true".toList
  | .bool false => "false".toList
  | .number n => n.text.toList
  | .string s => '"' :: writeString style.escaped s.toList
  | .array .nil => ['[', ']']
  | .array (.cons j rest) => '[' :: (write style j ++ writeItems style rest)
  | .object .nil => ['{', '}']
  | .object (.cons key j rest) =>
    '{' :: '"' :: (writeString style.escaped key.toList ++
      (separator style ':' ++ (write style j ++ writeFields style rest)))

/-- The other items of an array, and the bracket after them. -/
def writeItems (style : JsonStyle) : JsonItems → List Char
  | .nil => [']']
  | .cons j rest => separator style ',' ++ (write style j ++ writeItems style rest)

/-- The other members of an object, and the brace after them. -/
def writeFields (style : JsonStyle) : JsonFields → List Char
  | .nil => ['}']
  | .cons key j rest =>
    separator style ',' ++ ('"' :: (writeString style.escaped key.toList ++
      (separator style ':' ++ (write style j ++ writeFields style rest))))

end

/-- A word at the beginning of a text. -/
def readWord (text : List Char) : Option (Json × List Char) :=
  if "null".toList <+: text then some (.null, text.drop 4)
  else if "true".toList <+: text then some (.bool true, text.drop 4)
  else if "false".toList <+: text then some (.bool false, text.drop 5)
  else none

/-- A number at the beginning of a text. -/
def readNumber (text : List Char) : Option (Json × List Char) :=
  if h : NumberState.start.accepts (text.takeWhile isNumberChar) = true then
    some (.number ⟨String.ofList (text.takeWhile isNumberChar), by rwa [String.toList_ofList]⟩,
      text.dropWhile isNumberChar)
  else none

mutual

/-- A value at the beginning of a text. -/
def readValue : Nat → List Char → Option (Json × List Char)
  | 0, _ => none
  | n + 1, text =>
    match skipSpace text with
    | [] => none
    | c :: r =>
      if c = '"' then (readString .plain r).map fun p => (.string (String.ofList p.1), p.2)
      else if c = '[' then
        if (skipSpace r).head? = some ']' then some (.array .nil, (skipSpace r).tail)
        else
          (readValue n r).bind fun p =>
            (readItems n p.2).map fun q => (.array (.cons p.1 q.1), q.2)
      else if c = '{' then
        if (skipSpace r).head? = some '}' then some (.object .nil, (skipSpace r).tail)
        else (readMember n r).map fun q => (.object q.1, q.2)
      else if isNumberChar c = true ∧ c ≠ 'e' then readNumber (c :: r)
      else readWord (c :: r)

/-- The other items of an array. -/
def readItems : Nat → List Char → Option (JsonItems × List Char)
  | 0, _ => none
  | n + 1, text =>
    match skipSpace text with
    | [] => none
    | c :: r =>
      if c = ']' then some (.nil, r)
      else if c = ',' then
        (readValue n r).bind fun p => (readItems n p.2).map fun q => (.cons p.1 q.1, q.2)
      else none

/-- A member of an object, and the others. -/
def readMember : Nat → List Char → Option (JsonFields × List Char)
  | 0, _ => none
  | n + 1, text =>
    match skipSpace text with
    | [] => none
    | c :: r =>
      if c = '"' then
        (readString .plain r).bind fun k =>
          if (skipSpace k.2).head? = some ':' then
            (readValue n (skipSpace k.2).tail).bind fun p =>
              (readFields n p.2).map fun q => (.cons (String.ofList k.1) p.1 q.1, q.2)
          else none
      else none

/-- The other members of an object. -/
def readFields : Nat → List Char → Option (JsonFields × List Char)
  | 0, _ => none
  | n + 1, text =>
    match skipSpace text with
    | [] => none
    | c :: r =>
      if c = '}' then some (.nil, r)
      else if c = ',' then readMember n r
      else none

end

/-- The value of a text. -/
def read (text : List Char) : Option Json :=
  match readValue (2 * text.length + 2) text with
  | none => none
  | some p => if skipSpace p.2 = [] then some p.1 else none

/-! ### Strings are read back -/

theorem hexValue_hexDigit (n : Nat) : hexValue (hexDigit n) = some (n % 16) := by
  have h : ∀ k < 16, hexValue (hexDigit k) = some k := by decide
  have hmod : hexDigit n = hexDigit (n % 16) := by simp [hexDigit]
  rw [hmod]
  exact h _ (Nat.mod_lt _ (by omega))

/-- The digits of an escape are read as its number. -/
theorem readString_hex {n : Nat} (hn : n < 65536) (high : Option Nat) (t : List Char) :
    readString (.hex 0 0 high) (hexDigit (n / 4096) :: hexDigit (n / 256) :: hexDigit (n / 16) ::
        hexDigit n :: t) =
      match afterHex n high with
      | none => none
      | some (state, s) => (readString state t).map fun p => (s ++ p.1, p.2) := by
  have hsum : 16 * (16 * (16 * (n / 4096 % 16) + n / 256 % 16) + n / 16 % 16) + n % 16 = n := by
    omega
  simp [readString, stringStep, hexValue_hexDigit, hsum]

theorem mem_shortEscapes {c e : Char} (h : shortEscapes.lookup c = some e) :
    (c, e) ∈ shortEscapes := by
  obtain ⟨l₁, l₂, hl, -⟩ := List.lookup_eq_some_iff.1 h
  rw [hl]
  simp

theorem unescape_of_lookup {c e : Char} (h : shortEscapes.lookup c = some e) :
    unescape e = some c ∧ e ≠ 'u' := by
  have hall : ∀ p ∈ shortEscapes, unescape p.2 = some p.1 ∧ p.2 ≠ 'u' := by decide
  exact hall (c, e) (mem_shortEscapes h)

/-- Neither a quotation mark nor a backslash is written as it is. -/
theorem ne_of_lookup_none {c : Char} (h : shortEscapes.lookup c = none) :
    c ≠ '"' ∧ c ≠ '\\' := by
  refine ⟨?_, ?_⟩ <;>
  · rintro rfl
    revert h
    decide

theorem readString_unicodeEscape {n : Nat} (hn : n < 65536) (t : List Char) :
    readString .plain (unicodeEscape n ++ t) =
      match afterHex n none with
      | none => none
      | some (state, s) => (readString state t).map fun p => (s ++ p.1, p.2) := by
  rw [← readString_hex hn none t]
  simp [unicodeEscape, readString, stringStep]

theorem readString_lowEscape {n high : Nat} (hn : n < 65536) (t : List Char) :
    readString (.lowEscape high) (unicodeEscape n ++ t) =
      match afterHex n (some high) with
      | none => none
      | some (state, s) => (readString state t).map fun p => (s ++ p.1, p.2) := by
  rw [← readString_hex hn (some high) t]
  simp [unicodeEscape, readString, stringStep]

/-- A character is no surrogate. -/
theorem range_toNat (c : Char) : c.toNat < 55296 ∨ 57343 < c.toNat ∧ c.toNat < 1114112 := by
  have hvalid := c.valid
  simp only [UInt32.isValidChar, Nat.isValidChar] at hvalid
  exact hvalid

/-- A character of the first plane is what its number says. -/
theorem afterHex_toNat (c : Char) : afterHex c.toNat none = some (.plain, [c]) := by
  have hrange := range_toNat c
  have hhigh : isHigh c.toNat = false := by
    simp only [isHigh, Bool.and_eq_false_iff, decide_eq_false_iff_not]
    omega
  have hlow : isLow c.toNat = false := by
    simp only [isLow, Bool.and_eq_false_iff, decide_eq_false_iff_not]
    omega
  simp [afterHex, hhigh, hlow]

/-- A high surrogate waits for its partner. -/
theorem afterHex_high {value : Nat} (h : isHigh value = true) :
    afterHex value none = some (.lowEscape value, []) := by
  simp only [afterHex, h, if_true]

/-- The two surrogates of a character beyond the first plane. -/
theorem isHigh_surrogate {n : Nat} (hlarge : 65536 ≤ n) (hrange : n < 1114112) :
    isHigh (55296 + (n - 65536) / 1024) = true := by
  simp only [isHigh, Bool.and_eq_true, decide_eq_true_eq]
  omega

theorem afterHex_low {c : Char} (hlarge : 65536 ≤ c.toNat) :
    afterHex (56320 + (c.toNat - 65536) % 1024) (some (55296 + (c.toNat - 65536) / 1024)) =
      some (.plain, [c]) := by
  have hlow : isLow (56320 + (c.toNat - 65536) % 1024) = true := by
    simp only [isLow, Bool.and_eq_true, decide_eq_true_eq]
    omega
  have hsum : 65536 + (55296 + (c.toNat - 65536) / 1024 - 55296) * 1024 +
      (56320 + (c.toNat - 65536) % 1024 - 56320) = c.toNat := by omega
  simp only [afterHex, hlow, if_true, hsum, Char.ofNat_toNat]

/-- A character is read back from its escape, one surrogate after the other where there are
two. -/
theorem readString_escapeChar (escaped : Bool) (c : Char) (t : List Char) :
    readString .plain (escapeChar escaped c ++ t) =
      (readString .plain t).map fun p => (c :: p.1, p.2) := by
  unfold escapeChar
  split
  · next e he =>
    obtain ⟨hback, hu⟩ := unescape_of_lookup he
    simp [readString, stringStep, hu, hback, Function.comp_def]
  · next hnone =>
    obtain ⟨hquote, hslash⟩ := ne_of_lookup_none hnone
    split_ifs with hsmall hescaped hplane
    · rw [readString_unicodeEscape (by omega), afterHex_toNat]
      rfl
    · rw [readString_unicodeEscape hplane, afterHex_toNat]
      rfl
    · -- beyond the first plane: a high surrogate, which waits, and a low one
      have hlarge : 65536 ≤ c.toNat := by omega
      have hrange : c.toNat < 1114112 := by
        have := range_toNat c
        omega
      rw [List.append_assoc, readString_unicodeEscape (by omega),
        afterHex_high (isHigh_surrogate hlarge hrange)]
      show (readString (.lowEscape _) _).map _ = _
      rw [readString_lowEscape (by omega), afterHex_low hlarge]
      simp [Function.comp_def]
    · simp [readString, stringStep, hquote, hslash, hsmall]

theorem readString_writeString (escaped : Bool) (s r : List Char) :
    readString .plain (writeString escaped s ++ r) = some (s, r) := by
  induction s with
  | nil => simp [writeString, readString]
  | cons c s ih => simp [writeString, readString_escapeChar, ih]

/-! ### Values are read back -/

theorem skipSpace_cons {c : Char} (h : isJsonSpace c = false) (r : List Char) :
    skipSpace (c :: r) = c :: r := by
  simp [skipSpace, h]

theorem separator_append (style : JsonStyle) (c : Char) (r : List Char) :
    separator style c ++ r = c :: ((if style.spaced then [' '] else []) ++ r) := by
  simp [separator]

/-- The space after a separator is skipped. -/
theorem readValue_space (style : JsonStyle) (n : Nat) (r : List Char) :
    readValue n ((if style.spaced then [' '] else []) ++ r) = readValue n r := by
  cases n <;> cases style.spaced <;> simp [readValue, skipSpace, isJsonSpace]

theorem readMember_space (style : JsonStyle) (n : Nat) (r : List Char) :
    readMember n ((if style.spaced then [' '] else []) ++ r) = readMember n r := by
  cases n <;> cases style.spaced <;> simp [readMember, skipSpace, isJsonSpace]

/-- No number goes on in this text. -/
def endsNumber : List Char → Bool
  | [] => true
  | c :: _ => !isNumberChar c

theorem isNumberChar_of_step {s s' : NumberState} {c : Char} (h : s.step c = some s') :
    isNumberChar c = true := by
  cases s <;> simp only [NumberState.step, NumberState.afterInteger] at h <;>
    split_ifs at h <;> simp_all [isNumberChar] <;> grind

theorem all_isNumberChar {s : NumberState} {text : List Char} (h : s.accepts text = true) :
    ∀ c ∈ text, isNumberChar c = true := by
  induction text generalizing s with
  | nil => simp
  | cons c r ih =>
    simp only [NumberState.accepts] at h
    split at h
    · cases h
    · next s' hs =>
      intro d hd
      rcases List.mem_cons.1 hd with rfl | hd
      · exact isNumberChar_of_step hs
      · exact ih h d hd

/-- A number begins with a digit or a minus. -/
theorem number_head (n : NumberText) :
    ∃ c r, n.text.toList = c :: r ∧ isNumberChar c = true ∧ c ≠ 'e' := by
  have hvalid := n.valid
  cases htext : n.text.toList with
  | nil => rw [htext] at hvalid; cases hvalid
  | cons c r =>
    refine ⟨c, r, rfl, all_isNumberChar hvalid c (by simp [htext]), ?_⟩
    rintro rfl
    rw [htext] at hvalid
    cases hvalid

theorem takeWhile_number {text rest : List Char} (h : ∀ c ∈ text, isNumberChar c = true)
    (hrest : endsNumber rest = true) :
    (text ++ rest).takeWhile isNumberChar = text ∧
      (text ++ rest).dropWhile isNumberChar = rest := by
  have hend : rest.takeWhile isNumberChar = [] ∧ rest.dropWhile isNumberChar = rest := by
    cases rest with
    | nil => exact ⟨rfl, rfl⟩
    | cons c r =>
      have hc : isNumberChar c = false := by simpa [endsNumber] using hrest
      simp [hc]
  rw [List.takeWhile_append_of_pos h, List.dropWhile_append_of_pos h, hend.1, hend.2]
  simp

theorem readNumber_text (n : NumberText) {rest : List Char} (hrest : endsNumber rest = true) :
    readNumber (n.text.toList ++ rest) = some (.number n, rest) := by
  obtain ⟨htake, hdrop⟩ := takeWhile_number (all_isNumberChar n.valid) hrest
  simp only [readNumber, htake, hdrop, String.ofList_toList]
  rw [dif_pos n.valid]

/-- What a value begins with. -/
def opens (c : Char) : Bool :=
  c = '"' || c = '[' || c = '{' || c = 'n' || c = 't' || c = 'f' || c = '-' || c.isDigit

theorem number_opens (n : NumberText) : ∃ c r, n.text.toList = c :: r ∧ opens c = true := by
  have hvalid := n.valid
  cases htext : n.text.toList with
  | nil => rw [htext] at hvalid; cases hvalid
  | cons c r =>
    refine ⟨c, r, rfl, ?_⟩
    rw [htext] at hvalid
    simp only [NumberState.accepts, NumberState.step] at hvalid
    split_ifs at hvalid with hminus hzero hdigit
    · simp [opens, hminus]
    · simp [opens, hzero]
    · simp [opens, hdigit]

theorem write_opens (style : JsonStyle) (j : Json) :
    ∃ c r, write style j = c :: r ∧ opens c = true := by
  cases j with
  | null => exact ⟨'n', _, rfl, rfl⟩
  | bool b => cases b <;> exact ⟨_, _, rfl, rfl⟩
  | number n =>
    obtain ⟨c, r, h, hc⟩ := number_opens n
    exact ⟨c, r, by simpa only [write] using h, hc⟩
  | string s => exact ⟨'"', _, rfl, rfl⟩
  | array items => cases items <;> exact ⟨'[', _, rfl, rfl⟩
  | object fields => cases fields <;> exact ⟨'{', _, rfl, rfl⟩

theorem opens_not_space {c : Char} (h : opens c = true) :
    isJsonSpace c = false ∧ c ≠ ']' ∧ c ≠ '}' := by
  refine ⟨?_, ?_, ?_⟩
  · by_contra hspace
    simp only [isJsonSpace, Bool.not_eq_false, Bool.or_eq_true, decide_eq_true_eq] at hspace
    rcases hspace with ((rfl | rfl) | rfl) | rfl <;> exact absurd h (by decide)
  · rintro rfl
    exact absurd h (by decide)
  · rintro rfl
    exact absurd h (by decide)

theorem endsNumber_items (style : JsonStyle) (items : JsonItems) (r : List Char) :
    endsNumber (writeItems style items ++ r) = true := by
  cases items <;> rfl

theorem endsNumber_fields (style : JsonStyle) (fields : JsonFields) (r : List Char) :
    endsNumber (writeFields style fields ++ r) = true := by
  cases fields <;> rfl

/-- The text of a member and of those after it. -/
def writeMember (style : JsonStyle) (key : String) (value fields : List Char) : List Char :=
  '"' :: (writeString style.escaped key.toList ++ (separator style ':' ++ (value ++ fields)))

theorem write_fields (style : JsonStyle) (key : String) (j : Json) (fields : JsonFields) :
    write style (.object (.cons key j fields)) =
      '{' :: writeMember style key (write style j) (writeFields style fields) :=
  rfl

theorem writeFields_cons (style : JsonStyle) (key : String) (j : Json) (fields : JsonFields) :
    writeFields style (.cons key j fields) =
      separator style ',' ++ writeMember style key (write style j) (writeFields style fields) :=
  rfl

/-- A member is read back when its value and the other members are. -/
theorem readMember_writeMember (style : JsonStyle) (key : String) {j : Json}
    {fields : JsonFields} {n : Nat} {value others rest : List Char}
    (hvalue : readValue n (value ++ (others ++ rest)) = some (j, others ++ rest))
    (hothers : readFields n (others ++ rest) = some (fields, rest)) :
    readMember (n + 1) (writeMember style key value others ++ rest) =
      some (.cons key j fields, rest) := by
  have hcolon : isJsonSpace ':' = false := by decide
  simp only [writeMember, List.cons_append, List.append_assoc, readMember,
    skipSpace_cons (show isJsonSpace '"' = false by decide), if_true, readString_writeString,
    separator_append, Option.bind_some, skipSpace_cons hcolon, List.head?_cons, List.tail_cons,
    readValue_space, hvalue, hothers, Option.map_some, String.ofList_toList]

mutual

/-- Every value is read back from its text, whatever comes after it that no number goes on
with. -/
theorem readValue_write (style : JsonStyle) (j : Json) (n : Nat) (rest : List Char)
    (hn : 2 * (write style j).length ≤ n) (hrest : endsNumber rest = true) :
    readValue n (write style j ++ rest) = some (j, rest) := by
  -- no text is empty, so there is fuel for one step
  obtain ⟨m, rfl⟩ : ∃ m, n = m + 1 := by
    obtain ⟨c, r, hc, -⟩ := write_opens style j
    rw [hc] at hn
    exact ⟨n - 1, by simp at hn; omega⟩
  cases j with
  | null => simp [write, readValue, skipSpace, isJsonSpace, isNumberChar, readWord]
  | bool b => cases b <;> simp [write, readValue, skipSpace, isJsonSpace, isNumberChar, readWord]
  | number t =>
    obtain ⟨c, r, hc, hopens⟩ := number_opens t
    obtain ⟨c', r', hc', hnumber, he⟩ := number_head t
    obtain ⟨rfl, rfl⟩ : c = c' ∧ r = r' := by simpa [hc] using hc'
    have hread := readNumber_text t hrest
    simp only [write, hc, List.cons_append] at hread ⊢
    have hne : c ≠ '"' ∧ c ≠ '[' ∧ c ≠ '{' := by
      refine ⟨?_, ?_, ?_⟩ <;>
      · rintro rfl
        exact absurd hnumber (by decide)
    simp [readValue, skipSpace_cons (opens_not_space hopens).1, hne, hnumber, he, hread]
  | string s =>
    simp [write, readValue, skipSpace, isJsonSpace, readString_writeString]
  | array items =>
    cases items with
    | nil => simp [write, readValue, skipSpace, isJsonSpace]
    | cons j items =>
      obtain ⟨c, r, hc, hopens⟩ := write_opens style j
      simp only [write, List.length_cons, List.length_append] at hn
      have hj := readValue_write style j m (writeItems style items ++ rest)
        (by omega) (endsNumber_items style items rest)
      have hitems := readItems_write style items m rest (by omega)
      -- the array is not empty, so no bracket closes it here
      have hclose : (skipSpace (write style j ++ (writeItems style items ++ rest))).head? ≠
          some ']' := by
        rw [hc, List.cons_append, skipSpace_cons (opens_not_space hopens).1]
        simpa using (opens_not_space hopens).2.1
      simp [write, readValue, skipSpace_cons (show isJsonSpace '[' = false by decide), hclose, hj,
        hitems]
  | object fields =>
    cases fields with
    | nil => simp [write, readValue, skipSpace, isJsonSpace]
    | cons key j fields =>
      rw [write_fields] at hn ⊢
      simp only [writeMember, separator, List.length_cons, List.length_append] at hn
      obtain ⟨k, rfl⟩ : ∃ k, m = k + 1 := ⟨m - 1, by omega⟩
      have hj := readValue_write style j k (writeFields style fields ++ rest)
        (by omega) (endsNumber_fields style fields rest)
      have hfields := readFields_write style fields k rest (by omega)
      have hmember := readMember_writeMember style key hj hfields
      have hclose : (skipSpace (writeMember style key (write style j) (writeFields style fields) ++
          rest)).head? ≠ some '}' := by
        simp [writeMember, skipSpace, isJsonSpace]
      rw [List.cons_append, readValue, skipSpace_cons (show isJsonSpace '{' = false by decide)]
      simp [hclose, hmember]

theorem readItems_write (style : JsonStyle) (items : JsonItems) (n : Nat) (rest : List Char)
    (hn : 2 * (writeItems style items).length ≤ n) :
    readItems n (writeItems style items ++ rest) = some (items, rest) := by
  obtain ⟨m, rfl⟩ : ∃ m, n = m + 1 := by
    cases items <;>
    · simp only [writeItems, separator, List.length_cons, List.length_append] at hn
      exact ⟨n - 1, by omega⟩
  cases items with
  | nil => simp [writeItems, readItems, skipSpace, isJsonSpace]
  | cons j items =>
    simp only [writeItems, separator, List.length_cons, List.length_append] at hn
    have hj := readValue_write style j m (writeItems style items ++ rest)
      (by omega) (endsNumber_items style items rest)
    have hitems := readItems_write style items m rest (by omega)
    simp [writeItems, separator_append, readItems,
      skipSpace_cons (show isJsonSpace ',' = false by decide), readValue_space, hj, hitems]

theorem readFields_write (style : JsonStyle) (fields : JsonFields) (n : Nat) (rest : List Char)
    (hn : 2 * (writeFields style fields).length ≤ n) :
    readFields n (writeFields style fields ++ rest) = some (fields, rest) := by
  obtain ⟨m, rfl⟩ : ∃ m, n = m + 1 := by
    cases fields <;>
    · simp only [writeFields, separator, List.length_cons, List.length_append] at hn
      exact ⟨n - 1, by omega⟩
  cases fields with
  | nil => simp [writeFields, readFields, skipSpace, isJsonSpace]
  | cons key j fields =>
    rw [writeFields_cons] at hn ⊢
    simp only [writeMember, separator, List.length_cons, List.length_append] at hn
    obtain ⟨k, rfl⟩ : ∃ k, m = k + 1 := ⟨m - 1, by omega⟩
    have hj := readValue_write style j k (writeFields style fields ++ rest)
      (by omega) (endsNumber_fields style fields rest)
    have hfields := readFields_write style fields k rest (by omega)
    have hmember := readMember_writeMember style key hj hfields
    rw [List.append_assoc, separator_append, readFields,
      skipSpace_cons (show isJsonSpace ',' = false by decide)]
    simp [readMember_space, hmember]

end

/-- What is written is read back. -/
theorem read_write (style : JsonStyle) (j : Json) : read (write style j) = some j := by
  have h := readValue_write style j (2 * (write style j).length + 2) [] (by omega) rfl
  rw [List.append_nil] at h
  simp [read, h, skipSpace]

end Json
