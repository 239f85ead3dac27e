/-
Streams of server-sent events.

A stream is a text of blocks.  A block has a line `id: …`, lines `data: …`, and an empty line at its
end.  `splitLines` splits a text at the line breaks of Unicode, as `str.splitlines` does, and `parse`
is the loop of a client over the lines; what it makes of the data of a block is a parameter.

* `parse_fields` — a client has the id and the data of a block whose data stand on one line, in
  either order of its fields;
* `parse_broken` — data with a line break of Unicode are decoded without what comes after it, or
  with that as another line.
-/
import Mathlib.Data.List.DropRight

namespace EventStream

/-! ### Lines -/

/-- The line breaks of `str.splitlines`. -/
def isLineBreak (c : Char) : Bool :=
  (10 ≤ c.toNat && c.toNat ≤ 13) || (28 ≤ c.toNat && c.toNat ≤ 30) || c.toNat = 133 ||
    c.toNat = 8232 || c.toNat = 8233

/-- The blanks of `str.strip`. -/
def isSpace (c : Char) : Bool :=
  (9 ≤ c.toNat && c.toNat ≤ 13) || (28 ≤ c.toNat && c.toNat ≤ 32) || c.toNat = 133 ||
    c.toNat = 160 || c.toNat = 5760 || (8192 ≤ c.toNat && c.toNat ≤ 8202) || c.toNat = 8232 ||
    c.toNat = 8233 || c.toNat = 8239 || c.toNat = 8287 || c.toNat = 12288

def strip (line : List Char) : List Char := (line.dropWhile isSpace).rdropWhile isSpace

/-- The lines of a text that goes on after `line`. -/
def linesFrom (line : List Char) : List Char → List (List Char)
  | [] => if line = [] then [] else [line]
  | '\r' :: '\n' :: rest => line :: linesFrom [] rest
  | c :: rest => if isLineBreak c then line :: linesFrom [] rest else linesFrom (line ++ [c]) rest

def splitLines (text : List Char) : List (List Char) := linesFrom [] text

/-- Lines as a text, each with its end. -/
def textOf (lines : List (List Char)) : List Char := lines.flatMap (· ++ ['\n'])

theorem isSpace_of_isLineBreak {c : Char} (h : isLineBreak c = true) : isSpace c = true := by
  simp only [isLineBreak, isSpace, Bool.or_eq_true, Bool.and_eq_true, decide_eq_true_eq] at h ⊢
  omega

theorem linesFrom_break {d : Char} (hd : isLineBreak d = true) (hreturn : d ≠ '\r')
    (line rest : List Char) : linesFrom line (d :: rest) = line :: linesFrom [] rest := by
  rw [linesFrom, if_pos hd]
  intro r hr
  exact absurd hr hreturn

theorem linesFrom_plain {c : Char} (hc : isLineBreak c = false) (line rest : List Char) :
    linesFrom line (c :: rest) = linesFrom (line ++ [c]) rest := by
  rw [linesFrom, if_neg (by simp [hc])]
  rintro r rfl
  exact absurd hc (by decide)

theorem linesFrom_append {s : List Char} (hs : ∀ c ∈ s, isLineBreak c = false)
    (line rest : List Char) : linesFrom line (s ++ rest) = linesFrom (line ++ s) rest := by
  induction s generalizing line with
  | nil => simp
  | cons c s ih =>
    rw [List.cons_append, linesFrom_plain (hs c (by simp)), ih (fun d hd => hs d (by simp [hd]))]
    simp

/-- A line up to its break. -/
theorem splitLines_break {s : List Char} {d : Char} (hs : ∀ c ∈ s, isLineBreak c = false)
    (hd : isLineBreak d = true) (hreturn : d ≠ '\r') (rest : List Char) :
    splitLines (s ++ d :: rest) = s :: splitLines rest := by
  simp only [splitLines]
  rw [linesFrom_append hs, linesFrom_break hd hreturn]
  simp

/-- Lines without breaks are split as they were written. -/
theorem splitLines_textOf {lines : List (List Char)}
    (h : ∀ line ∈ lines, ∀ c ∈ line, isLineBreak c = false) (rest : List Char) :
    splitLines (textOf lines ++ rest) = lines ++ splitLines rest := by
  induction lines with
  | nil => rfl
  | cons line lines ih =>
    have hsplit := splitLines_break (h line (by simp)) (d := '\n') (by decide) (by decide)
      (textOf lines ++ rest)
    rw [ih fun l hl => h l (by simp [hl])] at hsplit
    simpa [textOf] using hsplit

/-! ### Stripping -/

theorem rdropWhile_append {l m : List Char} {c : Char} (hmem : c ∈ m) (hc : isSpace c = false) :
    (l ++ m).rdropWhile isSpace = l ++ m.rdropWhile isSpace := by
  induction m using List.reverseRecOn with
  | nil => cases hmem
  | append_singleton m d ih =>
    rw [← List.append_assoc]
    by_cases hd : isSpace d = true
    · rw [List.rdropWhile_concat_pos _ _ _ hd, List.rdropWhile_concat_pos _ _ _ hd]
      refine ih ?_
      rcases List.mem_append.1 hmem with hmem | hmem
      · exact hmem
      · rw [List.mem_singleton.1 hmem, hd] at hc
        cases hc
    · rw [List.rdropWhile_concat_neg _ _ _ hd, List.rdropWhile_concat_neg _ _ _ hd,
        List.append_assoc]

theorem strip_cons {c : Char} (hc : isSpace c = false) (l : List Char) :
    strip (c :: l) = (c :: l).rdropWhile isSpace := by
  simp [strip, hc]

/-- A line that begins with a name is stripped at its end only. -/
theorem strip_append {c d : Char} (hc : isSpace c = false) (hd : isSpace d = false)
    (l m : List Char) : strip (c :: l ++ d :: m) = c :: l ++ strip (d :: m) := by
  rw [List.cons_append, strip_cons hc, strip_cons hd, ← List.cons_append,
    rdropWhile_append (c := d) (by simp) hd]

theorem strip_space {d : Char} (hd : isSpace d = false) (m : List Char) :
    strip (' ' :: d :: m) = strip (d :: m) := by
  simp [strip, hd, show isSpace ' ' = true by decide]

theorem strip_last {c d : Char} (hc : isSpace c = false) (hd : isSpace d = false)
    (l : List Char) : strip (c :: (l ++ [d])) = c :: (l ++ [d]) := by
  rw [strip_cons hc, ← List.cons_append, List.rdropWhile_concat_neg _ _ _ (by simp [hd])]

/-- What is stripped off the end of a line are blanks. -/
theorem strip_prefix {c : Char} (hc : isSpace c = false) (l : List Char) :
    ∃ m, (∀ d ∈ m, isSpace d = true) ∧ c :: l = strip (c :: l) ++ m := by
  refine ⟨(c :: l).rtakeWhile isSpace, ?_, ?_⟩
  · intro d hd
    exact List.mem_rtakeWhile_imp hd
  · rw [strip_cons hc, List.rdropWhile_append_rtakeWhile]

theorem strip_head {c : Char} (hc : isSpace c = false) (l : List Char) :
    ∃ m, strip (c :: l) = c :: m := by
  obtain ⟨m, hm, heq⟩ := strip_prefix hc l
  cases hs : strip (c :: l) with
  | nil =>
    rw [hs, List.nil_append] at heq
    rw [hm c (by simp [← heq])] at hc
    cases hc
  | cons d s =>
    rw [hs, List.cons_append, List.cons.injEq] at heq
    exact ⟨s, by rw [heq.1]⟩

theorem strip_strip {c : Char} (hc : isSpace c = false) (l : List Char) :
    strip (strip (c :: l)) = strip (c :: l) := by
  obtain ⟨m, hm⟩ := strip_head hc l
  have h : strip (c :: m) = (c :: m).rdropWhile isSpace := strip_cons hc m
  rw [hm, h, ← hm, strip_cons hc, List.rdropWhile_idempotent]

/-- A word without blanks. -/
theorem strip_word {l : List Char} (h : ∀ c ∈ l, isSpace c = false) : strip l = l := by
  cases l with
  | nil => rfl
  | cons c l =>
    rw [strip_cons (h c (by simp))]
    refine List.rdropWhile_eq_self_iff.2 fun hne => ?_
    simp [h _ (List.getLast_mem hne)]

/-! ### Blocks -/

def idField : List Char := "id:".toList

def dataField : List Char := "data:".toList

/-- What a client has of a block. -/
structure Block where
  eventId : Option (List Char)
  dataLines : List (List Char)
  deriving DecidableEq, Repr

def Block.empty : Block := ⟨none, []⟩

/-- What a client makes of the data of a block. -/
inductive Decoded (ε κ : Type)
  | yields (event : ε)
  | nothing
  | returns
  | raises (error : κ)

variable {ε κ : Type}

/-- The lines of the data. -/
def Block.payload (block : Block) : List Char := List.intercalate ['\n'] block.dataLines

/-- The end of the stream: a block without an empty line after it counts. -/
def flush (decode : Option (List Char) → List Char → Decoded ε κ) (block : Block) :
    List ε × Option κ :=
  if block.dataLines = [] ∨ block.payload = [] then ([], none)
  else
    match decode block.eventId block.payload with
    | .yields event => ([event], none)
    | .nothing => ([], none)
    | .returns => ([], none)
    | .raises error => ([], some error)

/-- The events of a stream, and the exception that ends it. -/
def parse (decode : Option (List Char) → List Char → Decoded ε κ) :
    Block → List (List Char) → List ε × Option κ
  | block, [] => flush decode block
  | block, line :: rest =>
    if idField <+: strip line then
      let eventId := strip ((strip line).drop 3)
      parse decode { block with eventId := if eventId = [] then none else some eventId } rest
    else if dataField <+: strip line then
      parse decode { block with
        dataLines := block.dataLines ++ [strip ((strip line).drop 5)] } rest
    else if strip line = [] ∧ block.dataLines ≠ [] then
      if block.payload = [] then parse decode .empty rest
      else
        match decode block.eventId block.payload with
        | .yields event =>
          (event :: (parse decode .empty rest).1, (parse decode .empty rest).2)
        | .nothing => parse decode .empty rest
        | .returns => ([], none)
        | .raises error => ([], some error)
    else parse decode block rest

/-- The line of an event's id. -/
def idLine (eventId : List Char) : List Char := idField ++ ' ' :: eventId

def dataLine (data : List Char) : List Char := dataField ++ ' ' :: data

/-- The lines of a block: one for each line of the data, and one for the id when there is one,
before them or after them. -/
def blockLines (idFirst : Bool) (eventId : Option (List Char)) (payload : List Char) :
    List (List Char) :=
  let ids := eventId.toList.map idLine
  let data := (payload.splitOn '\n').map dataLine
  (if idFirst then ids ++ data else data ++ ids) ++ [[]]

section Steps

variable (decode : Option (List Char) → List Char → Decoded ε κ)

/-- A line with a word as the id, or with none. -/
theorem parse_idLine (block : Block) {eventId : List Char}
    (hword : ∀ c ∈ eventId, isSpace c = false) (rest : List (List Char)) :
    parse decode block (idLine eventId :: rest) =
      parse decode { block with
        eventId := if eventId = [] then none else some eventId } rest := by
  cases eventId with
  | nil => rfl
  | cons c l =>
    have hc : isSpace c = false := hword c (by simp)
    have hline : strip (idLine (c :: l)) = idField ++ ' ' :: c :: l := by
      have h := strip_append (c := 'i') (by decide) hc ['d', ':', ' '] l
      rw [strip_word hword] at h
      exact h
    have hvalue : strip ((strip (idLine (c :: l))).drop 3) = c :: l := by
      rw [hline]
      show strip (' ' :: c :: l) = _
      rw [strip_space hc, strip_word hword]
    rw [parse, if_pos (by rw [hline]; exact List.prefix_append _ _), hvalue]

theorem parse_dataLine (block : Block) {c : Char} (hc : isSpace c = false) (l : List Char)
    (rest : List (List Char)) :
    parse decode block (dataLine (c :: l) :: rest) =
      parse decode { block with dataLines := block.dataLines ++ [strip (c :: l)] } rest := by
  have hline : strip (dataLine (c :: l)) = dataField ++ ' ' :: strip (c :: l) :=
    strip_append (c := 'd') (by decide) hc ['a', 't', 'a', ':', ' '] l
  obtain ⟨m, hm⟩ := strip_head hc l
  have hvalue : strip ((strip (dataLine (c :: l))).drop 5) = strip (c :: l) := by
    rw [hline]
    show strip (' ' :: strip (c :: l)) = _
    rw [hm, strip_space hc, ← hm, strip_strip hc]
  have hdata : dataField <+: strip (dataLine (c :: l)) := by
    rw [hline]
    exact List.prefix_append _ _
  have hid : ¬idField <+: strip (dataLine (c :: l)) := by
    rw [hline]
    simp [idField, dataField]
  rw [parse, if_neg hid, if_pos hdata, hvalue]

/-- An empty line after data. -/
theorem parse_emptyLine {block : Block} (hlines : block.dataLines ≠ [])
    (hpayload : block.payload ≠ []) {event : ε}
    (hdecode : decode block.eventId block.payload = .yields event) (rest : List (List Char)) :
    parse decode block ([] :: rest) =
      (event :: (parse decode .empty rest).1, (parse decode .empty rest).2) := by
  have hstrip : strip [] = [] := rfl
  rw [parse, hstrip, if_neg (by decide), if_neg (by decide), if_pos ⟨rfl, hlines⟩,
    if_neg hpayload, hdecode]

theorem parse_emptyLine_raises {block : Block} (hlines : block.dataLines ≠ [])
    (hpayload : block.payload ≠ []) {error : κ}
    (hdecode : decode block.eventId block.payload = .raises error) (rest : List (List Char)) :
    parse decode block ([] :: rest) = ([], some error) := by
  have hstrip : strip [] = [] := rfl
  rw [parse, hstrip, if_neg (by decide), if_neg (by decide), if_pos ⟨rfl, hlines⟩,
    if_neg hpayload, hdecode]

/-- Data that begin with a line on which no decoding succeeds end the stream, whatever comes
after. -/
theorem parse_failing {line : List Char} (hline : line ≠ [])
    (hraises : ∀ eventId more, ∃ error,
      decode eventId (List.intercalate ['\n'] (line :: more)) = .raises error)
    (lines : List (List Char)) (eventId : Option (List Char)) (more : List (List Char)) :
    ∃ error, parse decode ⟨eventId, line :: more⟩ lines = ([], some error) := by
  have hpayload : ∀ more, List.intercalate ['\n'] (line :: more) ≠ [] := by
    intro more
    cases more <;> simp [hline]
  induction lines generalizing eventId more with
  | nil =>
    obtain ⟨error, herror⟩ := hraises eventId more
    refine ⟨error, ?_⟩
    have hp : Block.payload ⟨eventId, line :: more⟩ ≠ [] := hpayload more
    have hd : decode eventId (Block.payload ⟨eventId, line :: more⟩) = .raises error := herror
    simp [parse, flush, hp, hd]
  | cons l lines ih =>
    rw [parse]
    split_ifs with hid hdata hempty hp
    · exact ih _ more
    · exact ih eventId (more ++ [_])
    · exact absurd hp (hpayload more)
    · obtain ⟨error, herror⟩ := hraises eventId more
      have hd : decode eventId (Block.payload ⟨eventId, line :: more⟩) = .raises error := herror
      exact ⟨error, by simp [hd]⟩
    · exact ih eventId more

end Steps

/-! ### Blocks are read back -/

theorem splitOn_single {payload : List Char} (h : '\n' ∉ payload) :
    payload.splitOn '\n' = [payload] := by
  have hsplit : (List.intercalate ['\n'] [payload]).splitOn '\n' = [payload] :=
    List.splitOn_intercalate '\n' (by simpa using h) (by simp)
  rwa [List.intercalate_singleton] at hsplit

/-- The lines of a block of data without line feeds. -/
theorem blockLines_true {payload : List Char} (h : '\n' ∉ payload)
    (eventId : Option (List Char)) :
    blockLines true eventId payload = eventId.toList.map idLine ++ [dataLine payload, []] := by
  simp [blockLines, splitOn_single h]

theorem blockLines_false {payload : List Char} (h : '\n' ∉ payload)
    (eventId : Option (List Char)) :
    blockLines false eventId payload = dataLine payload :: (eventId.toList.map idLine ++ [[]]) := by
  simp [blockLines, splitOn_single h]

theorem no_feed {payload : List Char} (h : ∀ c ∈ payload, isLineBreak c = false) :
    '\n' ∉ payload := by
  intro hmem
  have hbreak := h _ hmem
  revert hbreak
  decide

/-- The id that a client has of a block. -/
def idOf (eventId : Option (List Char)) : Option (List Char) :=
  eventId.bind fun e => if e = [] then none else some e

/-- The names of the two fields hold no line break. -/
theorem fieldNames_plain (c : Char) (hc : c ∈ idField ∨ c ∈ dataField) :
    isLineBreak c = false := by
  have hall : (idField ++ dataField).all (fun c => !isLineBreak c) = true := by decide
  simpa using List.all_eq_true.1 hall c (List.mem_append.2 hc)

theorem idLine_plain {eventId : List Char} (h : ∀ c ∈ eventId, isSpace c = false) :
    ∀ c ∈ idLine eventId, isLineBreak c = false := by
  intro c hc
  rcases List.mem_append.1 hc with hc | hc
  · exact fieldNames_plain c (Or.inl hc)
  · rcases List.mem_cons.1 hc with rfl | hc
    · decide
    · by_contra hbreak
      have hspace := isSpace_of_isLineBreak (c := c) (by simpa using hbreak)
      rw [h c hc] at hspace
      cases hspace

theorem dataLine_plain {data : List Char} (h : ∀ c ∈ data, isLineBreak c = false) :
    ∀ c ∈ dataLine data, isLineBreak c = false := by
  intro c hc
  rcases List.mem_append.1 hc with hc | hc
  · exact fieldNames_plain c (Or.inr hc)
  · rcases List.mem_cons.1 hc with rfl | hc
    · decide
    · exact h c hc

/-- The lines of the id, where there is one. -/
theorem parse_ids (decode : Option (List Char) → List Char → Decoded ε κ)
    {eventId : Option (List Char)} (hid : ∀ e ∈ eventId, ∀ c ∈ e, isSpace c = false)
    (data : List (List Char)) (lines : List (List Char)) :
    parse decode ⟨none, data⟩ (eventId.toList.map idLine ++ lines) =
      parse decode ⟨idOf eventId, data⟩ lines := by
  cases eventId with
  | none => rfl
  | some e => exact parse_idLine decode ⟨none, data⟩ (hid e rfl) lines

/-- What a client has of a block before the empty line, when the data stand on one line. -/
theorem parse_fields (decode : Option (List Char) → List Char → Decoded ε κ) (idFirst : Bool)
    {eventId : Option (List Char)} (hid : ∀ e ∈ eventId, ∀ c ∈ e, isSpace c = false)
    {c d : Char} {l : List Char} (hc : isSpace c = false) (hd : isSpace d = false)
    (hplain : ∀ e ∈ c :: (l ++ [d]), isLineBreak e = false) (rest : List Char) :
    parse decode .empty
        (splitLines (textOf (blockLines idFirst eventId (c :: (l ++ [d]))) ++ rest)) =
      parse decode ⟨idOf eventId, [c :: (l ++ [d])]⟩ ([] :: splitLines rest) := by
  have hfeed := no_feed hplain
  have hlines : ∀ line ∈ blockLines idFirst eventId (c :: (l ++ [d])),
      ∀ e ∈ line, isLineBreak e = false := by
    intro line hline
    -- the lines of the block are the same in both orders
    have hcases : line ∈ eventId.toList.map idLine ∨ line = dataLine (c :: (l ++ [d])) ∨
        line = [] := by
      cases idFirst with
      | true =>
        rw [blockLines_true hfeed] at hline
        simpa only [List.mem_append, List.mem_cons, List.not_mem_nil, or_false] using hline
      | false =>
        rw [blockLines_false hfeed] at hline
        rcases List.mem_cons.1 hline with hline | hline
        · exact Or.inr (Or.inl hline)
        · rcases List.mem_append.1 hline with hline | hline
          · exact Or.inl hline
          · exact Or.inr (Or.inr (List.mem_singleton.1 hline))
    rcases hcases with hline | rfl | rfl
    · obtain ⟨e, he, rfl⟩ := List.mem_map.1 hline
      exact idLine_plain (hid e (Option.mem_toList.1 he))
    · exact dataLine_plain hplain
    · simp
  have hdata := fun eventId lines => parse_dataLine decode ⟨eventId, []⟩ hc (l ++ [d]) lines
  simp only [strip_last hc hd, List.nil_append] at hdata
  rw [splitLines_textOf hlines]
  cases idFirst with
  | true =>
    rw [blockLines_true hfeed, List.append_assoc, Block.empty, parse_ids decode hid,
      List.cons_append, hdata]
    rfl
  | false =>
    rw [blockLines_false hfeed, List.cons_append, List.append_assoc, Block.empty, hdata,
      parse_ids decode hid]
    rfl

/-- Data with a line break of Unicode are decoded up to it, or with other lines after that; when
neither can be, the stream ends there. -/
theorem parse_broken (decode : Option (List Char) → List Char → Decoded ε κ) (idFirst : Bool)
    {eventId : Option (List Char)} (hid : ∀ e ∈ eventId, ∀ c ∈ e, isSpace c = false)
    {c d : Char} {p q : List Char} (hc : isSpace c = false)
    (hplain : ∀ e ∈ c :: p, isLineBreak e = false) (hd : isLineBreak d = true)
    (hreturn : d ≠ '\r') (hfeed : '\n' ∉ c :: p ++ d :: q)
    (hraises : ∀ eventId more, ∃ error,
      decode eventId (List.intercalate ['\n'] (strip (c :: p) :: more)) = .raises error)
    (rest : List Char) :
    ∃ error, parse decode .empty
      (splitLines (textOf (blockLines idFirst eventId (c :: p ++ d :: q)) ++ rest)) =
        ([], some error) := by
  have hne : strip (c :: p) ≠ [] := by
    obtain ⟨m, hm⟩ := strip_head hc p
    rw [hm]
    simp
  -- the line of the data ends at the break
  have hcut : ∀ more, splitLines (dataLine (c :: p ++ d :: q) ++ more) =
      dataLine (c :: p) :: splitLines (q ++ more) := by
    intro more
    have h := splitLines_break (dataLine_plain hplain) hd hreturn (q ++ more)
    simpa [dataLine] using h
  have hfails := fun eventId lines => parse_failing decode hne hraises lines eventId []
  cases idFirst with
  | true =>
    have hids : ∀ line ∈ eventId.toList.map idLine, ∀ e ∈ line, isLineBreak e = false := by
      intro line hline
      obtain ⟨e, he, rfl⟩ := List.mem_map.1 hline
      exact idLine_plain (hid e (Option.mem_toList.1 he))
    have htext : textOf (blockLines true eventId (c :: p ++ d :: q)) ++ rest =
        textOf (eventId.toList.map idLine) ++
          (dataLine (c :: p ++ d :: q) ++ ('\n' :: '\n' :: rest)) := by
      rw [blockLines_true hfeed]
      simp [textOf]
    rw [htext, splitLines_textOf hids, hcut, Block.empty, parse_ids decode hid,
      parse_dataLine decode _ hc]
    exact hfails _ _
  | false =>
    have htext : textOf (blockLines false eventId (c :: p ++ d :: q)) ++ rest =
        dataLine (c :: p ++ d :: q) ++
          ('\n' :: (textOf (eventId.toList.map idLine ++ [[]]) ++ rest)) := by
      rw [blockLines_false hfeed]
      simp [textOf]
    rw [htext, hcut, Block.empty, parse_dataLine decode _ hc]
    exact hfails _ _

end EventStream
