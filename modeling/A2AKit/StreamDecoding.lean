/-
What the clients read of the streams of the four bindings.

* `streams_decoded_iff` — a client yields one event for each that was sent, with its id and its
  payload, exactly when the binding is one of version 1.0, or no message was sent and, with REST of
  version 0.3, no text has a line break of Unicode.
* `separator_and_reply_refused` — a text with a line separator ends the stream of REST of version
  0.3 with a `ProtocolError`, and so does a direct reply on both bindings of that version.
-/
import A2AKit.JsonCuts
import A2AKit.ServerSentEvents

namespace A2AKit.Sse

open EventStream

variable {P : Protocol}

/-! ### What was sent -/

/-- The object that the client of a binding is to yield. -/
def Binding.payload : Binding → StreamEvent P → V03Object P
  | .restV03, event => (v10ToV03Wire event).1.sanitized
  | .jsonrpcV03, event => (v10ToV03Wire event).1.sanitized
  | _, .task t => .task (P.convertTask (sanitizeTask P.v10 t))
  | _, .terminalMarker e => .statusUpdate (P.convertStatusUpdate e)
  | _, event => (v10ToV03Wire event).1

/-- The events after the first that are sent. -/
def Binding.sentRest (b : Binding) (operation : Operation) :
    List (Option EventId × StreamEvent P) → List (Option EventId × StreamEvent P)
  | [] => []
  | (eventId, event) :: rest =>
    if event.isDirectReply then b.sentRest operation rest
    else
      (eventId, event) ::
        if event.isTerminalMarker ∧ b.breaks operation = true then []
        else b.sentRest operation rest

/-- The events that are sent: the first, and of the others those that are no direct replies, up to
a marker. -/
def Binding.sent (b : Binding) (operation : Operation)
    (events : List (Option EventId × StreamEvent P)) : List (Option EventId × StreamEvent P) :=
  match events with
  | [] => []
  | first :: rest => first :: b.sentRest operation rest

/-- One event for each that was sent, with its id and its payload. -/
def Binding.decodedEvent (b : Binding) (p : Option EventId × StreamEvent P) : ClientEvent P :=
  ⟨b.payload p.2, p.1.map (·.text.toList)⟩

/-- A direct reply or another message. -/
def StreamEvent.isMessage : StreamEvent P → Bool
  | .directReply _ => true
  | .message _ => true
  | _ => false

/-- A string of the object has a line break of Unicode: U+0085, U+2028 or U+2029. -/
def V03Object.MentionsBreak (obj : V03Object P) : Prop :=
  ∃ d : Char, (d.toNat = 133 ∨ d.toNat = 8232 ∨ d.toNat = 8233) ∧
    Json.Mentions d (.object obj.dump)

/-- The events that a binding's client can read. -/
def Binding.Readable : Binding → StreamEvent P → Prop
  | .restV03, event =>
    event.isMessage = false ∧ ¬((v10ToV03Wire event).1.sanitized).MentionsBreak
  | .jsonrpcV03, event => event.isMessage = false
  | .restV10, _ => True
  | .jsonrpcV10, _ => True

/-! ### Payloads -/

theorem isLineBreak_range {c : Char} (h : isLineBreak c = true) :
    c.toNat < 32 ∨ c.toNat = 133 ∨ c.toNat = 8232 ∨ c.toNat = 8233 := by
  simp only [isLineBreak, Bool.or_eq_true, Bool.and_eq_true, decide_eq_true_eq] at h
  omega

/-- `json.dumps` writes on one line. -/
theorem jsonDumps_plain (j : Json) : ∀ c ∈ jsonDumps j, isLineBreak c = false := by
  intro c hc
  obtain ⟨hlow, hhigh⟩ := Json.write_writes ⟨true, true⟩ j c hc
  have hprintable := hhigh rfl
  by_contra hbreak
  have hrange := isLineBreak_range (c := c) (by simpa using hbreak)
  omega

/-- A compact text is on one line when its strings are. -/
theorem modelDumpJson_plain {obj : V03Object P} (h : ¬obj.MentionsBreak) :
    ∀ c ∈ modelDumpJson obj, isLineBreak c = false := by
  intro c hc
  obtain ⟨hlow, -⟩ := Json.write_writes ⟨false, false⟩ (.object obj.dump) c hc
  by_contra hbreak
  have hrange := isLineBreak_range (c := c) (by simpa using hbreak)
  have hblank : Json.isBlank c = true := by
    simp only [Json.isBlank, Bool.or_eq_true, decide_eq_true_eq]
    omega
  exact h ⟨c, by omega, (Json.mem_write hblank _).1 hc⟩

theorem not_mentionsBreak {obj : V03Object P}
    (h : ∀ c ∈ modelDumpJson obj, isLineBreak c = false) : ¬obj.MentionsBreak := by
  rintro ⟨d, hd, hmentions⟩
  have hblank : Json.isBlank d = true := by
    simp only [Json.isBlank, Bool.or_eq_true, decide_eq_true_eq]
    omega
  have hbreak := h d ((Json.mem_write hblank _).2 hmentions)
  simp only [isLineBreak, Bool.or_eq_false_iff, decide_eq_false_iff_not] at hbreak
  omega

/-- The first line break of a compact text: what comes before it is cut off within a string. -/
theorem modelDumpJson_break {obj : V03Object P} (h : obj.MentionsBreak) :
    ∃ p d q, modelDumpJson obj = '{' :: p ++ d :: q ∧
      (∀ c ∈ '{' :: p, isLineBreak c = false) ∧ isLineBreak d = true ∧ d ≠ '\r' := by
  obtain ⟨b, hb, hmentions⟩ := h
  have hblank : Json.isBlank b = true := by
    simp only [Json.isBlank, Bool.or_eq_true, decide_eq_true_eq]
    omega
  have hmem : b ∈ modelDumpJson obj := (Json.mem_write hblank _).2 hmentions
  have hbreak : isLineBreak b = true := by
    simp only [isLineBreak, Bool.or_eq_true, Bool.and_eq_true, decide_eq_true_eq]
    omega
  obtain ⟨l, hl⟩ := Json.write_object_last ⟨false, false⟩ obj.dump
  replace hl : modelDumpJson obj = '{' :: (l ++ ['}']) := hl
  -- the first line break of the text
  obtain ⟨d, hfind⟩ := Option.isSome_iff_exists.mp (List.find?_isSome.mpr ⟨b, hmem, hbreak⟩)
  obtain ⟨hd, p, q, htext, hp⟩ := List.find?_eq_some_iff_append.mp hfind
  have hdmem : d ∈ modelDumpJson obj := by
    rw [htext]
    simp
  have hlow := (Json.write_writes ⟨false, false⟩ (.object obj.dump) d hdmem).1
  have hreturn : d ≠ '\r' := by
    rintro rfl
    exact absurd hlow (by decide)
  have hdblank : Json.isBlank d = true := by
    have hrange := isLineBreak_range hd
    simp only [Json.isBlank, Bool.or_eq_true, decide_eq_true_eq]
    omega
  obtain ⟨p', rfl, -⟩ := Json.cut_cons (hl.symm.trans htext) (by decide) hdblank
  exact ⟨p', d, q, htext, fun c hc => by simpa using hp c hc, hd, hreturn⟩

/-- What is left of a compact text before a line break, with or without other lines, is no text of
JSON. -/
theorem read_broken {obj : V03Object P} {p q : List Char} {d : Char}
    (htext : modelDumpJson obj = '{' :: p ++ d :: q) (hd : isLineBreak d = true)
    (more : List (List Char)) :
    Json.read (List.intercalate ['\n'] (strip ('{' :: p) :: more)) = none := by
  have hlow : ∀ c ∈ modelDumpJson obj, 32 ≤ c.toNat := fun c hc =>
    (Json.write_writes ⟨false, false⟩ (.object obj.dump) c hc).1
  -- every blank of the text is one within a string
  have hblank : ∀ c ∈ modelDumpJson obj, isSpace c = true → Json.isBlank c = true := by
    intro c hc hspace
    have hc32 := hlow c hc
    simp only [isSpace, Bool.or_eq_true, Bool.and_eq_true, decide_eq_true_eq] at hspace
    simp only [Json.isBlank, Bool.or_eq_true, decide_eq_true_eq]
    by_cases hc' : c.toNat = 32
    · left
      exact Char.toNat_inj.1 hc'
    · right
      omega
  obtain ⟨m, hm, hstrip⟩ := strip_prefix (show isSpace '{' = false by decide) p
  obtain ⟨rem, hrem, hmore⟩ : ∃ rem, Json.Broken rem ∧
      List.intercalate ['\n'] (strip ('{' :: p) :: more) = strip ('{' :: p) ++ rem := by
    cases more with
    | nil => exact ⟨[], Or.inl rfl, by simp⟩
    | cons l more =>
      exact ⟨'\n' :: List.intercalate ['\n'] (l :: more), Or.inr ⟨_, rfl⟩, by simp⟩
  obtain ⟨e, q', hcut, he⟩ : ∃ e q', m ++ d :: q = e :: q' ∧ isSpace e = true := by
    cases m with
    | nil => exact ⟨d, q, rfl, isSpace_of_isLineBreak hd⟩
    | cons e m => exact ⟨e, m ++ d :: q, rfl, hm e (by simp)⟩
  have hwhole : modelDumpJson obj = strip ('{' :: p) ++ e :: q' := by
    rw [htext, hstrip, List.append_assoc, hcut, ← hstrip]
  rw [hmore]
  exact Json.read_cut _ (hblank e (by rw [hwhole]; simp) he) hrem hwhole

/-! ### Decoding -/

theorem deserialize_dump {m : Model} (hm : m.Lossless) (x : m.Value) :
    m.deserialize (.object (m.dump x)) = .ok x := by
  simp only [Model.deserialize, hm x]

theorem modelValidate_dump {m : Model} (hm : m.Lossless) (x : m.Value) :
    m.modelValidate (.object (m.dump x)) = .ok x := by
  simp only [Model.modelValidate, hm x]

/-- A dumped object of version 0.3 is deserialized, unless it is a message. -/
theorem deserializeEvent_dump (hP : P.Documented) {obj : V03Object P}
    (hmessage : ∀ m, obj ≠ .message m) : deserializeEvent P (.object obj.dump) = .ok obj := by
  cases obj with
  | task x => simp [deserializeEvent, V03Object.dump, hP.kinds.task x,
      deserialize_dump hP.lossless03.task, Except.map]
  | message x => exact absurd rfl (hmessage x)
  | statusUpdate x => simp [deserializeEvent, V03Object.dump, hP.kinds.statusUpdate x,
      deserialize_dump hP.lossless03.statusUpdate, Except.map]
  | artifactUpdate x => simp [deserializeEvent, V03Object.dump, hP.kinds.artifactUpdate x,
      deserialize_dump hP.lossless03.artifactUpdate, Except.map]

/-- No `kind` of the clients of version 0.3 is that of a message. -/
theorem deserializeEvent_message (hP : P.Documented) (m : P.v03.message.Value) :
    deserializeEvent P (.object (P.v03.message.dump m)) =
      .error (.unknownKind (some (.string "message"))) := by
  simp [deserializeEvent, hP.kinds.message m]

theorem parseJsonPayload_modelDumpJson (obj : V03Object P) :
    parseJsonPayload (modelDumpJson obj) false = .ok (.object obj.dump) := by
  simp [parseJsonPayload, modelDumpJson, Json.read_write]

/-- The envelope is unwrapped. -/
theorem parseJsonPayload_envelope (reqId : Json) (result : JsonFields) :
    parseJsonPayload (jsonDumps (rpcEnvelope reqId result)) true = .ok (.object result) := by
  simp [parseJsonPayload, jsonDumps, rpcEnvelope, Json.read_write, JsonFields.get]

theorem wrapStreamEvent_eq (event : StreamEvent P) :
    wrapStreamEvent event = modelDumpJson (v10ToV03Wire event).1.sanitized := by
  cases event <;> rfl

theorem serialize_eq (event : StreamEvent P) :
    serialize event = (v10ToV03Wire event).1.sanitized.dump := by
  cases event <;> rfl

/-- The wire object of an event is a message exactly when the event is. -/
theorem wire_message (event : StreamEvent P) :
    event.isMessage = false ↔ ∀ m, (v10ToV03Wire event).1.sanitized ≠ .message m := by
  cases event <;> simp [StreamEvent.isMessage, v10ToV03Wire, V03Object.sanitized]

/-- The result of a wrapped event, whatever was sent before. -/
theorem decodeRpcResult_wrapped (hP : P.Documented) (event : StreamEvent P)
    (cache : TaskCache P) :
    decodeRpcResult P (wrapStreamEventV10 event cache).1 =
      .ok (Binding.jsonrpcV10.payload event) := by
  cases event with
  | task x => simp [wrapStreamEventV10, decodeRpcResult, JsonFields.get, Binding.payload,
      modelValidate_dump hP.lossless10.task, Except.map]
  | message x => simp [wrapStreamEventV10, decodeRpcResult, JsonFields.get, Binding.payload,
      v10ToV03Wire, modelValidate_dump hP.lossless10.message, Except.map]
  | statusUpdate x => simp [wrapStreamEventV10, decodeRpcResult, JsonFields.get, Binding.payload,
      v10ToV03Wire, modelValidate_dump hP.lossless10.statusUpdate, Except.map]
  | artifactUpdate x =>
    cases hindex : artifactIndex cache x <;>
      simp [wrapStreamEventV10, hindex, decodeRpcResult, JsonFields.get, Binding.payload,
        v10ToV03Wire, modelValidate_dump hP.lossless10.artifactUpdate, Except.map]
  | directReply x => simp [wrapStreamEventV10, decodeRpcResult, JsonFields.get, Binding.payload,
      v10ToV03Wire, modelValidate_dump hP.lossless10.message, Except.map]
  | terminalMarker x => simp [wrapStreamEventV10, decodeRpcResult, JsonFields.get,
      Binding.payload, modelValidate_dump hP.lossless10.statusUpdate, Except.map]

theorem get_of_has_false {fields : JsonFields} {key : String} (h : fields.has key = false) :
    fields.get key = none := by
  simpa [JsonFields.has] using h

theorem decodeV10Object_task (hP : P.Documented) (x : P.v10.task.Value) :
    decodeV10Object P (P.v10.task.dump x) = .ok (.task (P.convertTask x)) := by
  obtain ⟨hstatus, hid⟩ := hP.shapes.task x
  obtain ⟨hupdate, hartifact⟩ := hP.shapes.task_bare x
  simp [decodeV10Object, get_of_has_false hupdate, get_of_has_false hartifact, decodeBare, hstatus,
    hid, modelValidate_dump hP.lossless10.task, Except.map]

theorem decodeV10Object_message (hP : P.Documented) (x : P.v10.message.Value) :
    decodeV10Object P (P.v10.message.dump x) = .ok (.message (P.convertMessage x)) := by
  obtain ⟨hrole, hparts, hstatus⟩ := hP.shapes.message x
  obtain ⟨hupdate, hartifact⟩ := hP.shapes.message_bare x
  simp [decodeV10Object, get_of_has_false hupdate, get_of_has_false hartifact, decodeBare, hstatus,
    hrole, hparts, modelValidate_dump hP.lossless10.message, Except.map]

/-- The data of an event in the stream of REST: tasks and messages are bare. -/
theorem sseDataV10_decoded (hP : P.Documented) (event : StreamEvent P) (cache : TaskCache P) :
    ∃ fields, (sseDataV10 event cache).1 = jsonDumps (.object fields) ∧
      decodeV10Object P fields = .ok (Binding.restV10.payload event) := by
  cases event with
  | task x => exact ⟨_, by simp [sseDataV10, wrapStreamEventV10], decodeV10Object_task hP _⟩
  | message x => exact ⟨_, by simp [sseDataV10, wrapStreamEventV10], decodeV10Object_message hP _⟩
  | directReply x =>
    exact ⟨_, by simp [sseDataV10, wrapStreamEventV10], decodeV10Object_message hP _⟩
  | statusUpdate x =>
    refine ⟨(wrapStreamEventV10 (.statusUpdate x) cache).1,
      by simp [sseDataV10, wrapStreamEventV10], ?_⟩
    simp [wrapStreamEventV10, decodeV10Object, JsonFields.get, Binding.payload, v10ToV03Wire,
      modelValidate_dump hP.lossless10.statusUpdate, Except.map]
  | terminalMarker x =>
    refine ⟨(wrapStreamEventV10 (.terminalMarker x) cache).1,
      by simp [sseDataV10, wrapStreamEventV10], ?_⟩
    simp [wrapStreamEventV10, decodeV10Object, JsonFields.get, Binding.payload,
      modelValidate_dump hP.lossless10.statusUpdate, Except.map]
  | artifactUpdate x =>
    refine ⟨(wrapStreamEventV10 (.artifactUpdate x) cache).1, ?_, ?_⟩
    · cases hindex : artifactIndex cache x <;> simp [sseDataV10, wrapStreamEventV10, hindex]
    · cases hindex : artifactIndex cache x <;>
        simp [wrapStreamEventV10, hindex, decodeV10Object, JsonFields.get, Binding.payload,
          v10ToV03Wire, modelValidate_dump hP.lossless10.artifactUpdate, Except.map]

/-! ### Blocks -/

/-- The id that a block carries. -/
def carried (eventId : Option EventId) : Option (List Char) := eventId.map (·.text.toList)

theorem carried_word (eventId : Option EventId) :
    ∀ e ∈ carried eventId, ∀ c ∈ e, isSpace c = false := by
  cases eventId with
  | none => intro e he; cases he
  | some i =>
    intro e he
    obtain rfl : i.text.toList = e := by simpa [carried] using he
    exact i.word

theorem idOf_carried (eventId : Option EventId) : idOf (carried eventId) = carried eventId := by
  cases eventId with
  | none => rfl
  | some i =>
    have hne : i.text.toList ≠ [] := by
      intro h
      exact i.nonempty (String.toList_eq_nil_iff.1 h)
    simp [carried, idOf, hne]

theorem idOf_getD (eventId : Option EventId) :
    idOf (some ((carried eventId).getD [])) = carried eventId := by
  cases eventId with
  | none => rfl
  | some i => exact idOf_carried (some i)

theorem getD_word (eventId : Option EventId) :
    ∀ e ∈ some ((carried eventId).getD []), ∀ c ∈ e, isSpace c = false := by
  intro e he
  obtain rfl : (carried eventId).getD [] = e := by simpa using he
  cases eventId with
  | none => simp [carried]
  | some i => exact i.word

theorem rpcBlock_eq (payload : Json) (eventId : Option EventId) :
    rpcBlock payload eventId =
      textOf (blockLines true (some ((carried eventId).getD [])) (jsonDumps payload)) := by
  rw [blockLines_true (no_feed (jsonDumps_plain payload))]
  simp [rpcBlock, carried, textOf, idLine, idField, dataLine, dataField]

/-- An object that stands on one line is decoded. -/
theorem parse_object (decode : Option (List Char) → List Char → Decoded (ClientEvent P) ClientError)
    (idFirst : Bool) {ids : Option (List Char)} (hword : ∀ e ∈ ids, ∀ c ∈ e, isSpace c = false)
    (style : JsonStyle) (fields : JsonFields)
    (hplain : ∀ c ∈ Json.write style (.object fields), isLineBreak c = false) (rest : List Char) :
    parse decode .empty
        (splitLines (textOf (blockLines idFirst ids (Json.write style (.object fields))) ++ rest)) =
      parse decode ⟨idOf ids, [Json.write style (.object fields)]⟩ ([] :: splitLines rest) := by
  obtain ⟨l, hl⟩ := Json.write_object_last style fields
  rw [hl] at hplain ⊢
  exact parse_fields decode idFirst hword (by decide) (by decide) hplain rest

theorem payload_ne_nil (style : JsonStyle) (fields : JsonFields) (ids : Option (List Char)) :
    Block.payload ⟨ids, [Json.write style (.object fields)]⟩ ≠ [] := by
  obtain ⟨l, hl⟩ := Json.write_object_last style fields
  simp [Block.payload, hl]

theorem payload_single (line : List Char) (ids : Option (List Char)) :
    Block.payload ⟨ids, [line]⟩ = line := by
  simp [Block.payload]

/-- A block on one line whose object is decoded. -/
theorem receive_yields {b : Binding} {idFirst : Bool} {ids : Option (List Char)}
    {eventId : Option EventId} (hword : ∀ e ∈ ids, ∀ c ∈ e, isSpace c = false)
    (hids : idOf ids = carried eventId) {style : JsonStyle} {fields : JsonFields}
    (hplain : ∀ c ∈ Json.write style (.object fields), isLineBreak c = false) {raw : V03Object P}
    (hdecode : b.decode P (carried eventId) (Json.write style (.object fields)) =
      .yields ⟨raw, carried eventId⟩) (rest : List Char) :
    b.receive P (textOf (blockLines idFirst ids (Json.write style (.object fields))) ++ rest) =
      (⟨raw, carried eventId⟩ :: (b.receive P rest).1, (b.receive P rest).2) := by
  rw [Binding.receive, parse_object _ idFirst hword style fields hplain, hids]
  exact parse_emptyLine _ (by simp) (payload_ne_nil style fields _)
    (by rw [payload_single]; exact hdecode) _

/-- A block on one line whose object is refused. -/
theorem receive_raises {b : Binding} {idFirst : Bool} {ids : Option (List Char)}
    (hword : ∀ e ∈ ids, ∀ c ∈ e, isSpace c = false) {style : JsonStyle} {fields : JsonFields}
    (hplain : ∀ c ∈ Json.write style (.object fields), isLineBreak c = false)
    {error : ClientError}
    (hdecode : b.decode P (idOf ids) (Json.write style (.object fields)) = .raises error)
    (rest : List Char) :
    b.receive P (textOf (blockLines idFirst ids (Json.write style (.object fields))) ++ rest) =
      ([], some error) := by
  rw [Binding.receive, parse_object _ idFirst hword style fields hplain]
  exact parse_emptyLine_raises _ (by simp) (payload_ne_nil style fields _)
    (by rw [payload_single]; exact hdecode) _

/-- A block whose compact text has a line break. -/
theorem receive_broken (idFirst : Bool) (eventId : Option EventId) {obj : V03Object P}
    (h : obj.MentionsBreak) (rest : List Char) :
    ∃ error, Binding.restV03.receive P
      (textOf (blockLines idFirst (carried eventId) (modelDumpJson obj)) ++ rest) =
        ([], some error) := by
  obtain ⟨p, d, q, htext, hplain, hd, hreturn⟩ := modelDumpJson_break h
  have hfeed : '\n' ∉ '{' :: p ++ d :: q := by
    intro hmem
    rw [← htext] at hmem
    have hlow := (Json.write_writes ⟨false, false⟩ (.object obj.dump) _ hmem).1
    exact absurd hlow (by decide)
  rw [Binding.receive, htext]
  refine parse_broken _ idFirst (carried_word eventId) (by decide) hplain hd hreturn hfeed ?_ rest
  intro eventId more
  refine ⟨.invalidJson, ?_⟩
  simp [Binding.decode, decodeV03, parseJsonPayload, read_broken htext hd more, Except.bind,
    decoded]

theorem decodeV03_rest (hP : P.Documented) (eventId : Option (List Char)) {obj : V03Object P}
    (hmessage : ∀ m, obj ≠ .message m) :
    decodeV03 P false eventId (modelDumpJson obj) = .yields ⟨obj, eventId⟩ := by
  simp only [decodeV03, parseJsonPayload_modelDumpJson, Except.bind, decoded,
    deserializeEvent_dump hP hmessage]

theorem decodeV03_rpc (hP : P.Documented) (eventId : Option (List Char)) (reqId : Json)
    {obj : V03Object P} (hmessage : ∀ m, obj ≠ .message m) :
    decodeV03 P true eventId (jsonDumps (rpcEnvelope reqId obj.dump)) =
      .yields ⟨obj, eventId⟩ := by
  simp only [decodeV03, parseJsonPayload_envelope, Except.bind, decoded,
    deserializeEvent_dump hP hmessage]

/-- An exception when a message was sent, or the text has a line break, and the event when not. -/
theorem receive_restV03 (hP : P.Documented) (reqId : Json) (cache : TaskCache P)
    (eventId : Option EventId) (event : StreamEvent P) (rest : List Char) :
    (Binding.restV03.Readable event →
      Binding.restV03.receive P ((Binding.restV03.block reqId cache eventId event).1 ++ rest) =
        (Binding.restV03.decodedEvent (eventId, event) :: (Binding.restV03.receive P rest).1,
          (Binding.restV03.receive P rest).2)) ∧
    (¬Binding.restV03.Readable event →
      ∃ error, Binding.restV03.receive P
        ((Binding.restV03.block reqId cache eventId event).1 ++ rest) = ([], some error)) := by
  have hblock : (Binding.restV03.block reqId cache eventId event).1 = textOf (blockLines P.idFirst
      (carried eventId) (modelDumpJson (v10ToV03Wire event).1.sanitized)) := by
    simp only [Binding.block, serverSentEvent, wrapStreamEvent_eq]
    rfl
  rw [hblock]
  constructor
  · rintro ⟨hmessage, hbreak⟩
    have hdecode := decodeV03_rest hP (carried eventId) ((wire_message event).1 hmessage)
    exact receive_yields (b := .restV03) (carried_word eventId) (idOf_carried eventId)
      (modelDumpJson_plain hbreak) hdecode rest
  · intro hunreadable
    by_cases hbreak : ((v10ToV03Wire event).1.sanitized).MentionsBreak
    · exact receive_broken P.idFirst eventId hbreak rest
    · have hmessage : ¬event.isMessage = false := fun h => hunreadable ⟨h, hbreak⟩
      rw [wire_message] at hmessage
      push Not at hmessage
      obtain ⟨m, hm⟩ := hmessage
      refine ⟨.unknownKind (some (.string "message")), ?_⟩
      refine receive_raises (carried_word eventId) (modelDumpJson_plain hbreak) ?_ rest
      show decodeV03 P false _ (modelDumpJson (v10ToV03Wire event).1.sanitized) = _
      rw [hm]
      simp only [decodeV03, parseJsonPayload_modelDumpJson, Except.bind, V03Object.dump,
        deserializeEvent_message hP, decoded]

theorem receive_jsonrpcV03 (hP : P.Documented) (reqId : Json) (cache : TaskCache P)
    (eventId : Option EventId) (event : StreamEvent P) (rest : List Char) :
    (Binding.jsonrpcV03.Readable event →
      Binding.jsonrpcV03.receive P
          ((Binding.jsonrpcV03.block reqId cache eventId event).1 ++ rest) =
        (Binding.jsonrpcV03.decodedEvent (eventId, event) ::
          (Binding.jsonrpcV03.receive P rest).1, (Binding.jsonrpcV03.receive P rest).2)) ∧
    (¬Binding.jsonrpcV03.Readable event →
      ∃ error, Binding.jsonrpcV03.receive P
        ((Binding.jsonrpcV03.block reqId cache eventId event).1 ++ rest) = ([], some error)) := by
  have hblock : (Binding.jsonrpcV03.block reqId cache eventId event).1 =
      textOf (blockLines true (some ((carried eventId).getD []))
        (jsonDumps (rpcEnvelope reqId (v10ToV03Wire event).1.sanitized.dump))) := by
    simp only [Binding.block, serialize_eq, rpcBlock_eq]
  have hword : ∀ e ∈ some ((carried eventId).getD []), ∀ c ∈ e, isSpace c = false :=
    getD_word eventId
  rw [hblock]
  constructor
  · intro hmessage
    have hdecode := decodeV03_rpc hP (carried eventId) reqId ((wire_message event).1 hmessage)
    exact receive_yields (b := .jsonrpcV03) hword (idOf_getD eventId) (jsonDumps_plain _) hdecode
      rest
  · intro hmessage
    replace hmessage : ¬event.isMessage = false := hmessage
    rw [wire_message] at hmessage
    push Not at hmessage
    obtain ⟨m, hm⟩ := hmessage
    refine ⟨.unknownKind (some (.string "message")), ?_⟩
    refine receive_raises hword (jsonDumps_plain _) ?_ rest
    show decodeV03 P true _
      (jsonDumps (rpcEnvelope reqId (v10ToV03Wire event).1.sanitized.dump)) = _
    rw [hm]
    simp only [decodeV03, parseJsonPayload_envelope, Except.bind, V03Object.dump,
      deserializeEvent_message hP, decoded]

/-- The clients of version 1.0 read every event. -/
theorem receive_restV10 (hP : P.Documented) (reqId : Json) (cache : TaskCache P)
    (eventId : Option EventId) (event : StreamEvent P) (rest : List Char) :
    Binding.restV10.receive P ((Binding.restV10.block reqId cache eventId event).1 ++ rest) =
      (Binding.restV10.decodedEvent (eventId, event) :: (Binding.restV10.receive P rest).1,
        (Binding.restV10.receive P rest).2) := by
  obtain ⟨fields, hdata, hdecode⟩ := sseDataV10_decoded hP event cache
  have hblock : (Binding.restV10.block reqId cache eventId event).1 =
      textOf (blockLines P.idFirst (carried eventId) (jsonDumps (.object fields))) := by
    rw [← hdata]
    rfl
  rw [hblock]
  refine receive_yields (carried_word eventId) (idOf_carried eventId) (jsonDumps_plain _) ?_ rest
  show decodeV10SsePayload P _ (jsonDumps (.object fields)) = _
  simp only [decodeV10SsePayload, jsonDumps, Json.read_write, hdecode, decoded]

theorem receive_jsonrpcV10 (hP : P.Documented) (reqId : Json) (cache : TaskCache P)
    (eventId : Option EventId) (event : StreamEvent P) (rest : List Char) :
    Binding.jsonrpcV10.receive P
        ((Binding.jsonrpcV10.block reqId cache eventId event).1 ++ rest) =
      (Binding.jsonrpcV10.decodedEvent (eventId, event) ::
        (Binding.jsonrpcV10.receive P rest).1, (Binding.jsonrpcV10.receive P rest).2) := by
  have hblock : (Binding.jsonrpcV10.block reqId cache eventId event).1 =
      textOf (blockLines true (some ((carried eventId).getD []))
        (jsonDumps (rpcEnvelope reqId (wrapStreamEventV10 event cache).1))) := by
    simp only [Binding.block, rpcBlock_eq]
  rw [hblock]
  refine receive_yields (getD_word eventId) (idOf_getD eventId) (jsonDumps_plain _) ?_ rest
  show decodeSsePayload P _ (jsonDumps (rpcEnvelope reqId (wrapStreamEventV10 event cache).1)) = _
  simp [decodeSsePayload, jsonDumps, Json.read_write, rpcEnvelope, JsonFields.get,
    decodeRpcResult_wrapped hP, decoded]

/-- What a client reads of a block: the event when it can read it, and an exception when not. -/
theorem receive_block (hP : P.Documented) (b : Binding) (reqId : Json) (cache : TaskCache P)
    (eventId : Option EventId) (event : StreamEvent P) (rest : List Char) :
    (b.Readable event →
      b.receive P ((b.block reqId cache eventId event).1 ++ rest) =
        (b.decodedEvent (eventId, event) :: (b.receive P rest).1, (b.receive P rest).2)) ∧
    (¬b.Readable event →
      ∃ error, b.receive P ((b.block reqId cache eventId event).1 ++ rest) =
        ([], some error)) := by
  cases b with
  | restV03 => exact receive_restV03 hP reqId cache eventId event rest
  | jsonrpcV03 => exact receive_jsonrpcV03 hP reqId cache eventId event rest
  | restV10 =>
    exact ⟨fun _ => receive_restV10 hP reqId cache eventId event rest,
      fun h => absurd trivial h⟩
  | jsonrpcV10 =>
    exact ⟨fun _ => receive_jsonrpcV10 hP reqId cache eventId event rest,
      fun h => absurd trivial h⟩

/-! ### Streams -/

/-- The blocks of the events that are sent. -/
def Binding.blocks (b : Binding) (reqId : Json) :
    TaskCache P → List (Option EventId × StreamEvent P) → List Char
  | _, [] => []
  | cache, (eventId, event) :: rest =>
    (b.block reqId cache eventId event).1 ++
      b.blocks reqId (b.block reqId cache eventId event).2 rest

theorem streamRest_eq (b : Binding) (operation : Operation) (reqId : Json) (cache : TaskCache P)
    (events : List (Option EventId × StreamEvent P)) :
    b.streamRest operation reqId cache events =
      b.blocks reqId cache (b.sentRest operation events) := by
  induction events generalizing cache with
  | nil => rfl
  | cons p rest ih =>
    obtain ⟨eventId, event⟩ := p
    by_cases hreply : event.isDirectReply = true
    · simp only [Binding.streamRest, Binding.sentRest, hreply, if_true, ih]
    · by_cases hend : event.isTerminalMarker = true ∧ b.breaks operation = true
      · simp [Binding.streamRest, Binding.sentRest, hreply, hend, Binding.blocks]
      · simp only [Binding.streamRest, Binding.sentRest, hreply, Bool.false_eq_true, if_false,
          hend, Binding.blocks, ih]

theorem stream_eq (b : Binding) (operation : Operation) (reqId : Json)
    (events : List (Option EventId × StreamEvent P)) :
    b.stream operation reqId events = b.blocks reqId [] (b.sent operation events) := by
  cases events with
  | nil => rfl
  | cons p rest => simp only [Binding.stream, Binding.sent, Binding.blocks, streamRest_eq]

/-- A client yields every event that was sent exactly when it can read each of them. -/
theorem receive_blocks (hP : P.Documented) (b : Binding) (reqId : Json) (cache : TaskCache P)
    (events : List (Option EventId × StreamEvent P)) :
    b.receive P (b.blocks reqId cache events) = (events.map b.decodedEvent, none) ↔
      ∀ p ∈ events, b.Readable p.2 := by
  induction events generalizing cache with
  | nil => exact iff_of_true rfl (by simp)
  | cons p rest ih =>
    obtain ⟨eventId, event⟩ := p
    obtain ⟨hyields, hraises⟩ := receive_block hP b reqId cache eventId event
      (b.blocks reqId (b.block reqId cache eventId event).2 rest)
    by_cases hread : b.Readable event
    · rw [Binding.blocks, hyields hread, List.forall_mem_cons,
        ← ih (b.block reqId cache eventId event).2]
      constructor
      · intro h
        obtain ⟨hevents, herror⟩ := Prod.mk.inj h
        exact ⟨hread, Prod.ext (List.cons.inj hevents).2 herror⟩
      · rintro ⟨-, h⟩
        rw [h]
        rfl
    · obtain ⟨error, herror⟩ := hraises hread
      rw [Binding.blocks, herror]
      refine iff_of_false ?_ fun h => hread (h (eventId, event) (by simp))
      intro h
      cases (Prod.mk.inj h).2

/-- The streams that the client of a binding reads: all of version 1.0; those of version 0.3 in
which no message was sent and, with REST, no string of what was sent has a line break of
Unicode. -/
def Binding.Decodable (b : Binding) (operation : Operation)
    (events : List (Option EventId × StreamEvent P)) : Prop :=
  ∀ p ∈ b.sent operation events, b.Readable p.2

/-- A client yields exactly one event for each that was sent, in order, with its id and its
payload, and no exception, exactly when the stream is one that it reads. -/
theorem streams_decoded_iff (hP : P.Documented) (b : Binding) (operation : Operation)
    (reqId : Json) (events : List (Option EventId × StreamEvent P)) :
    b.receive P (b.stream operation reqId events) =
        ((b.sent operation events).map b.decodedEvent, none) ↔
      b.Decodable operation events := by
  rw [stream_eq]
  exact receive_blocks hP b reqId [] _

/-! ### Models of one text -/

/-- The members of an object. -/
def members : List (String × Json) → JsonFields
  | [] => .nil
  | (key, j) :: rest => .cons key j (members rest)

def onePart (part : List (String × Json)) : Json := .array (.cons (.object (members part)) .nil)

def textOfParts : Json → Option String
  | .array (.cons (.object part) .nil) =>
    match part.get "text" with
    | some (.string s) => some s
    | _ => none
  | _ => none

def memberObject (j : Json) (key : String) : Option JsonFields :=
  match j with
  | .object fields =>
    match fields.get key with
    | some (.object inner) => some inner
    | _ => none
  | _ => none

def memberText (key : String) : Json → Option String
  | .object fields =>
    match fields.get key with
    | some (.string s) => some s
    | _ => none
  | _ => none

def partsText : Json → Option String
  | .object fields => (fields.get "parts").bind textOfParts
  | _ => none

def textMessage (part : String → List (String × Json)) (head : List (String × Json)) : Model where
  Value := String
  dump s := members (head ++ [("messageId", .string "m1"), ("parts", onePart (part s)),
    ("role", .string "agent")])
  validate := partsText

def textTask (head : List (String × Json)) : Model where
  Value := String
  dump id := members (head ++ [("contextId", .string "c1"), ("id", .string id),
    ("status", .object (members [("state", .string "working")]))])
  validate := memberText "id"

def textArtifactUpdate (part : String → List (String × Json)) (head : List (String × Json)) :
    Model where
  Value := String
  dump s := members (head ++ [("taskId", .string "t1"), ("contextId", .string "c1"),
    ("artifact", .object (members [("artifactId", .string "a1"), ("parts", onePart (part s))]))])
  validate j := (memberObject j "artifact").bind fun a => partsText (.object a)

def finalOf (fields : JsonFields) : Bool :=
  match fields.get "final" with
  | some (.bool true) => true
  | _ => false

def statusUpdate03 : Model where
  Value := String × Bool
  dump e := members [("kind", .string "status-update"), ("taskId", .string "t1"),
    ("contextId", .string "c1"), ("status", .object (members [("state", .string e.1)])),
    ("final", .bool e.2)]
  validate j :=
    match j with
    | .object fields =>
      (memberObject j "status").bind fun s =>
        (memberText "state" (.object s)).map fun state => (state, finalOf fields)
    | _ => none

def statusUpdate10 : Model where
  Value := String
  dump state := members [("taskId", .string "t1"), ("contextId", .string "c1"),
    ("status", .object (members [("state", .string state)]))]
  validate j := (memberObject j "status").bind fun s => memberText "state" (.object s)

/-- The protocol for tasks without metadata, messages and artifacts of one text, and statuses
without messages. -/
def textProtocol : Protocol where
  v03 := {
    task := textTask [("kind", .string "task")]
    message := textMessage (fun s => [("kind", .string "text"), ("text", .string s)])
      [("kind", .string "message")]
    statusUpdate := statusUpdate03
    artifactUpdate := textArtifactUpdate
      (fun s => [("kind", .string "text"), ("text", .string s)])
      [("kind", .string "artifact-update")]
    metadata := fun _ => none
    withMetadata := fun t _ => t }
  v10 := {
    task := textTask []
    message := textMessage (fun s => [("text", .string s)]) []
    statusUpdate := statusUpdate10
    artifactUpdate := textArtifactUpdate (fun s => [("text", .string s)]) []
    metadata := fun _ => none
    withMetadata := fun t _ => t }
  taskId := fun id => id
  artifactIds := fun _ => []
  updateTaskId := fun _ => "t1"
  updateArtifactId := fun _ => "a1"
  convertTask := fun id => id
  convertMessage := fun s => s
  convertStatusUpdate := fun state => (state, false)
  convertArtifactUpdate := fun s => s
  setFinal := fun e => (e.1, true)
  idFirst := false

theorem textProtocol_documented : textProtocol.Documented where
  lossless03 := ⟨fun _ => rfl, fun _ => rfl, fun e => by obtain ⟨s, _ | _⟩ := e <;> rfl,
    fun _ => rfl⟩
  lossless10 := ⟨fun _ => rfl, fun _ => rfl, fun _ => rfl, fun _ => rfl⟩
  kinds := ⟨fun _ => rfl, fun _ => rfl, fun _ => rfl, fun _ => rfl⟩
  shapes := ⟨fun _ => ⟨rfl, rfl⟩, fun _ => ⟨rfl, rfl, rfl⟩, fun _ => ⟨rfl, rfl⟩,
    fun _ => ⟨rfl, rfl⟩⟩

/-- How many events a client yields of a stream, and whether it ends with a `ProtocolError`. -/
def outcome (b : Binding) (events : List (Option EventId × StreamEvent textProtocol)) :
    Nat × Option Bool :=
  let r := b.receive textProtocol (b.stream .messageStream .null events)
  (r.1.length, r.2.map ClientError.isProtocolError)

/-- A text with a line separator, and a direct reply: neither is read. -/
theorem separator_and_reply_refused :
    outcome .restV03 [(some ⟨"7", by decide, by decide⟩, .artifactUpdate "one\u2028two")] =
        (0, some true) ∧
      outcome .restV03 [(some ⟨"7", by decide, by decide⟩, .directReply "done")] =
        (0, some true) ∧
      outcome .jsonrpcV03 [(some ⟨"7", by decide, by decide⟩, .directReply "done")] =
        (0, some true) := by
  decide +kernel

/-- A turn with REST of version 0.3. -/
def turnEvents : List (Option EventId × StreamEvent textProtocol) :=
  [(none, .task "t1"), (some ⟨"7", by decide, by decide⟩, .artifactUpdate "one\ntwo"),
    (some ⟨"8", by decide, by decide⟩, .terminalMarker "completed")]

theorem turn_decoded :
    Binding.restV03.receive textProtocol
        (Binding.restV03.stream .messageStream .null turnEvents) =
      (turnEvents.map Binding.restV03.decodedEvent, none) := by
  refine (streams_decoded_iff textProtocol_documented .restV03 .messageStream .null
    turnEvents).2 ?_
  intro p hp
  replace hp : p ∈ turnEvents := hp
  simp only [turnEvents, List.mem_cons, List.not_mem_nil, or_false] at hp
  rcases hp with rfl | rfl | rfl
  · exact ⟨rfl, not_mentionsBreak (by decide +kernel)⟩
  · exact ⟨rfl, not_mentionsBreak (by decide +kernel)⟩
  · exact ⟨rfl, not_mentionsBreak (by decide +kernel)⟩

end A2AKit.Sse
