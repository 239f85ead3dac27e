/-
Percent encoding.

`quote` writes the bytes of every character that is not safe as `%XX`, and `unquote` reads them back.
A `%` that no two hexadecimal digits follow stands for itself.

* `unquote_pieces` — what is quoted comes back, between texts without a `%`.
-/
import Mathlib.Data.List.Basic

namespace PercentEncoding

def hexDigit (n : Nat) : Char := Char.ofNat (if n < 10 then 48 + n else 55 + n)

def hexValue (c : Char) : Option Nat :=
  if '0' ≤ c ∧ c ≤ '9' then some (c.toNat - 48)
  else if 'A' ≤ c ∧ c ≤ 'F' then some (c.toNat - 55)
  else if 'a' ≤ c ∧ c ≤ 'f' then some (c.toNat - 87)
  else none

def quoteByte (b : UInt8) : List Char := ['%', hexDigit (b.toNat / 16), hexDigit (b.toNat % 16)]

variable (safe : Char → Bool)

def quoteChar (c : Char) : List Char :=
  if safe c then [c] else (String.utf8EncodeChar c).flatMap quoteByte

def quote (text : List Char) : List Char := text.flatMap (quoteChar safe)

def unquoteToBytes : List Char → List UInt8
  | [] => []
  | '%' :: a :: b :: rest =>
    match hexValue a, hexValue b with
    | some m, some n => UInt8.ofNat (16 * m + n) :: unquoteToBytes rest
    | _, _ => String.utf8EncodeChar '%' ++ unquoteToBytes (a :: b :: rest)
  | c :: rest => String.utf8EncodeChar c ++ unquoteToBytes rest

/-- The text that the bytes spell; bytes that spell none are not decoded here. -/
def unquote (text : List Char) : Option (List Char) :=
  (unquoteToBytes text).toByteArray.utf8Decode?.map Array.toList

variable {safe} {text rest : List Char}

theorem hexValue_hexDigit : ∀ n < 16, hexValue (hexDigit n) = some n := by decide

theorem unquoteToBytes_quoteByte (b : UInt8) (rest : List Char) :
    unquoteToBytes (quoteByte b ++ rest) = b :: unquoteToBytes rest := by
  have hb : b.toNat < 256 := b.toNat_lt
  have hhigh := hexValue_hexDigit (b.toNat / 16) (by omega)
  have hlow := hexValue_hexDigit (b.toNat % 16) (by omega)
  show unquoteToBytes ('%' :: hexDigit (b.toNat / 16) :: hexDigit (b.toNat % 16) :: rest) = _
  rw [unquoteToBytes, hhigh, hlow]
  dsimp only
  rw [Nat.div_add_mod, UInt8.ofNat_toNat]

theorem unquoteToBytes_bytes (bytes : List UInt8) (rest : List Char) :
    unquoteToBytes (bytes.flatMap quoteByte ++ rest) = bytes ++ unquoteToBytes rest := by
  induction bytes with
  | nil => rfl
  | cons b bytes ih =>
    rw [List.flatMap_cons, List.append_assoc, unquoteToBytes_quoteByte, ih, List.cons_append]

theorem unquoteToBytes_cons {c : Char} (hc : c ≠ '%') (rest : List Char) :
    unquoteToBytes (c :: rest) = String.utf8EncodeChar c ++ unquoteToBytes rest := by
  rw [unquoteToBytes]
  intro a b rest' h
  exact fun _ => hc h

theorem unquoteToBytes_plain (hplain : '%' ∉ text) (rest : List Char) :
    unquoteToBytes (text ++ rest) = text.flatMap String.utf8EncodeChar ++ unquoteToBytes rest := by
  induction text with
  | nil => rfl
  | cons c text ih =>
    have hc : c ≠ '%' := fun heq => hplain (heq ▸ List.mem_cons_self)
    rw [List.cons_append, unquoteToBytes_cons hc, ih fun h => hplain (List.mem_cons_of_mem _ h),
      List.flatMap_cons, List.append_assoc]

theorem unquoteToBytes_quote (hsafe : safe '%' = false) (text rest : List Char) :
    unquoteToBytes (quote safe text ++ rest) =
      text.flatMap String.utf8EncodeChar ++ unquoteToBytes rest := by
  induction text with
  | nil => rfl
  | cons c text ih =>
    have hchar : ∀ rest, unquoteToBytes (quoteChar safe c ++ rest) =
        String.utf8EncodeChar c ++ unquoteToBytes rest := by
      intro rest
      unfold quoteChar
      split
      · rename_i hc
        refine unquoteToBytes_cons (fun heq => ?_) rest
        rw [heq, hsafe] at hc
        cases hc
      · exact unquoteToBytes_bytes _ rest
    rw [quote, List.flatMap_cons, List.append_assoc, hchar, List.flatMap_cons, List.append_assoc]
    exact congrArg _ ih

/-- A part of a text: as it is, or to be quoted. -/
inductive Piece
  | plain (text : List Char)
  | quoted (text : List Char)

def Piece.chars : Piece → List Char
  | .plain text | .quoted text => text

/-- How the piece is written. -/
def Piece.write (safe : Char → Bool) : Piece → List Char
  | .plain text => text
  | .quoted text => quote safe text

/-- **What is quoted comes back.** -/
theorem unquote_pieces (hsafe : safe '%' = false) (pieces : List Piece)
    (hplain : ∀ text, .plain text ∈ pieces → '%' ∉ text) :
    unquote (pieces.flatMap (Piece.write safe)) = some (pieces.flatMap Piece.chars) := by
  have hbytes : unquoteToBytes (pieces.flatMap (Piece.write safe)) =
      (pieces.flatMap Piece.chars).flatMap String.utf8EncodeChar := by
    induction pieces with
    | nil => rfl
    | cons piece pieces ih =>
      have hrest := ih fun text h => hplain text (List.mem_cons_of_mem _ h)
      rw [List.flatMap_cons, List.flatMap_cons, List.flatMap_append, ← hrest]
      cases piece with
      | plain text => exact unquoteToBytes_plain (hplain text List.mem_cons_self) _
      | quoted text => exact unquoteToBytes_quote hsafe text _
  have hdecode : ((pieces.flatMap Piece.chars).flatMap String.utf8EncodeChar).toByteArray.utf8Decode? =
      some (pieces.flatMap Piece.chars).toArray := List.utf8Decode?_utf8Encode
  rw [unquote, hbytes, hdecode]
  rfl

/-- What is quoted has no character that is not safe, apart from the `%` and the digits. -/
theorem mem_quote {c : Char} (h : c ∈ quote safe text) :
    (safe c = true ∧ c ∈ text) ∨ c = '%' ∨ ∃ n < 16, c = hexDigit n := by
  obtain ⟨d, hd, hc⟩ := List.mem_flatMap.mp h
  unfold quoteChar at hc
  split at hc
  · rename_i hsafe
    obtain rfl := List.mem_singleton.mp hc
    exact Or.inl ⟨hsafe, hd⟩
  · obtain ⟨b, -, hb⟩ := List.mem_flatMap.mp hc
    have hlt : b.toNat < 256 := b.toNat_lt
    rcases List.mem_cons.mp hb with rfl | hb
    · exact Or.inr (Or.inl rfl)
    rcases List.mem_cons.mp hb with rfl | hb
    · exact Or.inr (Or.inr ⟨_, by omega, rfl⟩)
    · exact Or.inr (Or.inr ⟨b.toNat % 16, by omega, List.mem_singleton.mp hb⟩)

/-- A text that is written without a `%` is written as it is. -/
theorem eq_of_quote (h : '%' ∉ quote safe text) : quote safe text = text := by
  induction text with
  | nil => rfl
  | cons c text ih =>
    rw [quote, List.flatMap_cons] at h ⊢
    have hfirst : quoteChar safe c = [c] := by
      unfold quoteChar at h ⊢
      split
      · rfl
      · rename_i hc
        rw [if_neg hc] at h
        have hne : String.utf8EncodeChar c ≠ [] := by
          intro hnil
          have hlength := String.length_utf8EncodeChar c
          rw [hnil] at hlength
          exact absurd hlength.symm (Nat.ne_of_gt c.utf8Size_pos)
        obtain ⟨b, bytes, hbytes⟩ := List.exists_cons_of_ne_nil hne
        rw [hbytes] at h
        exact absurd (List.mem_append_left _ List.mem_cons_self) h
    rw [hfirst]
    exact congrArg _ (ih fun hmem => h (List.mem_append_right _ hmem))

end PercentEncoding
