import DbApi.Http.Response
import DbApi.Library.Json

namespace DbApi.Http

open DbApi.Library

/-- A block written up to the cursor. -/
def Writer.after (filled : Bytes) (free : Block) : Writer :=
  { escaped := filled.map some ++ free, writeCursor := filled.length }

theorem put_after (filled : Bytes) {free : Block} (hf : 0 < free.length) (b : UInt8) :
    (Writer.after filled free).put b = .ok (.after (filled ++ [b]) (free.drop 1)) := by
  obtain ⟨old, free, rfl⟩ := List.exists_cons_of_length_pos hf
  have hstore := store_next (filled.map some) free old (some b)
  rw [List.length_map] at hstore
  rw [Writer.put, Writer.after]
  dsimp only
  rw [hstore]
  change Except.ok _ = Except.ok _
  simp [Writer.after]

theorem puts_after (filled : Bytes) {free : Block} {text : Bytes} (hf : text.length ≤ free.length) :
    (Writer.after filled free).puts text =
      .ok (.after (filled ++ text) (free.drop text.length)) := by
  induction text generalizing filled free with
  | nil => simp [Writer.puts, pure, Except.pure]
  | cons b text ih =>
    rw [List.length_cons] at hf
    have hrest := @ih (filled ++ [b]) (free.drop 1) (by simp; omega)
    rw [Writer.puts, List.foldlM_cons, put_after filled (by omega)]
    change (Writer.after (filled ++ [b]) (free.drop 1)).puts text = _
    rw [hrest, List.append_assoc, List.drop_drop, List.length_cons, Nat.add_comm]
    rfl

theorem code_escape {b : UInt8} (hs : b ∉ shortEscapes) (hb : b < 32) :
    ascii "\\u" ++ ((Nat.toDigits 16 b.toNat).map fun c => c.toNat.toUInt8).leftpad 4 48 =
      Json.escapeByte b := by
  revert b
  decide +kernel

theorem escapeByte_length (b : UInt8) : (Json.escapeByte b).length =
    if b ∈ shortEscapes then 2 else if b < 0x20 then 6 else 1 := by
  revert b
  decide +kernel

theorem escapeByte_self {b : UInt8} (hs : b ∉ shortEscapes) (hb : ¬ b < 32) :
    Json.escapeByte b = [b] := by
  revert b
  decide +kernel

/-- What is written for a byte is its escape. -/
theorem writeEscaped_after (filled : Bytes) {free : Block} {b : UInt8}
    (hf : (Json.escapeByte b).length < free.length) :
    ∃ rest : Block, rest.length + (Json.escapeByte b).length = free.length ∧
      writeEscaped (.after filled free) b = .ok (.after (filled ++ Json.escapeByte b) rest) := by
  have hputs : ∀ w : Writer, b ∈ shortEscapes → writeEscaped w b = w.puts (Json.escapeByte b) := by
    intro w hb
    simp only [shortEscapes, List.mem_cons, List.not_mem_nil, or_false] at hb
    rcases hb with rfl | rfl | rfl | rfl | rfl | rfl | rfl <;> rfl
  by_cases hs : b ∈ shortEscapes
  · refine ⟨free.drop (Json.escapeByte b).length, by simp; omega, ?_⟩
    rw [hputs _ hs]
    exact puts_after filled hf.le
  · have hbranch : ∀ w : Writer, writeEscaped w b = if b < 0x20 then w.putCode b else w.put b := by
      intro w
      simp only [shortEscapes, List.mem_cons, List.not_mem_nil, or_false, not_or] at hs
      obtain ⟨h34, h92, h8, h12, h10, h13, h9⟩ := hs
      rw [writeEscaped, if_neg h34, if_neg h92, if_neg h8, if_neg h12, if_neg h10, if_neg h13,
        if_neg h9]
    rw [hbranch]
    by_cases hb : b < 0x20
    · -- The NUL behind the code lies in a slot that the next write overwrites.
      have hlength : (Json.escapeByte b).length = 6 := by
        rw [escapeByte_length, if_neg hs, if_pos hb]
      have hroom : (Json.escapeByte b ++ [nul]).length ≤ free.length := by simpa using hf
      have hputs := puts_after filled hroom
      refine ⟨some nul :: free.drop 7, by simp; omega, ?_⟩
      rw [if_pos hb, Writer.putCode]
      rw [code_escape hs hb, hputs]
      change Except.ok _ = Except.ok _
      simp [Writer.after, hlength]
    · have hlength : (Json.escapeByte b).length = 1 := by
        rw [escapeByte_length, if_neg hs, if_neg hb]
      refine ⟨free.drop 1, by simp; omega, ?_⟩
      rw [if_neg hb, escapeByte_self hs hb]
      exact put_after filled (by omega) b

theorem escape_cons (b : UInt8) (text : Bytes) :
    Json.escape (b :: text) = Json.escapeByte b ++ Json.escape text := rfl

theorem escapedLength_eq (input : Bytes) : escapedLength input = (Json.escape input).length := by
  induction input with
  | nil => rfl
  | cons b input ih =>
    rw [escape_cons, List.length_append, escapeByte_length, ← ih]
    rfl

theorem writeEscaped_all (filled : Bytes) {free : Block} {input : Bytes}
    (hf : (Json.escape input).length < free.length) :
    ∃ rest : Block, rest.length + (Json.escape input).length = free.length ∧
      input.foldlM writeEscaped (.after filled free) =
        .ok (.after (filled ++ Json.escape input) rest) := by
  induction input generalizing filled free with
  | nil => exact ⟨free, rfl, by simp [Json.escape, pure, Except.pure]⟩
  | cons b input ih =>
    rw [escape_cons, List.length_append] at hf
    obtain ⟨next, hnext, hwrite⟩ := @writeEscaped_after filled free b (by omega)
    obtain ⟨rest, hrest, hall⟩ := @ih (filled ++ Json.escapeByte b) next (by omega)
    refine ⟨rest, by rw [escape_cons, List.length_append]; omega, ?_⟩
    rw [List.foldlM_cons, hwrite]
    change input.foldlM writeEscaped (.after (filled ++ Json.escapeByte b) next) = _
    rw [hall, escape_cons, List.append_assoc]

/-- The second pass fills the block that the first one measured. -/
theorem httpJsonEscape_fills (input : CString) :
    httpJsonEscape input = .ok ((Json.escape input.bytes).map some ++ [some nul]) := by
  have hsize : (Json.escape input.bytes).length <
      (malloc (escapedLength input.bytes + 1)).length := by
    rw [malloc, List.length_replicate, escapedLength_eq]
    exact Nat.lt_succ_self _
  obtain ⟨rest, hrest, hall⟩ := writeEscaped_all [] hsize
  rw [malloc, List.length_replicate, escapedLength_eq] at hrest
  obtain ⟨last, rfl⟩ := List.length_eq_one_iff.mp (by omega : rest.length = 1)
  have hput := @put_after (Json.escape input.bytes) [last] Nat.one_pos nul
  rw [httpJsonEscape]
  change (input.bytes.foldlM writeEscaped (.after [] (malloc (escapedLength input.bytes + 1)))
    >>= fun w => w.put nul >>= fun w => pure w.escaped) = _
  rw [hall]
  change ((Writer.after (Json.escape input.bytes) [last]).put nul >>= fun w => pure w.escaped) = _
  rw [hput]
  change Except.ok _ = Except.ok _
  simp [Writer.after]

theorem string_written {text : Bytes} (ht : nul ∉ text) :
    Block.string (text.map some ++ [some nul]) = some text := by
  induction text with
  | nil => rfl
  | cons b text ih =>
    rw [List.mem_cons, not_or] at ht
    rw [List.map_cons, List.cons_append, Block.string, if_neg (Ne.symm ht.1), ih ht.2]
    rfl

theorem plain_no_nul {text : Bytes} (h : Json.isPlain text = true) : nul ∉ text := by
  intro hmem
  have := List.all_eq_true.mp h nul hmem
  cases this

@[simp] theorem escapedText_eq (input : CString) :
    escapedText input = .ok (Json.escape input.bytes) := by
  rw [escapedText, httpJsonEscape_fills]
  dsimp only
  rw [string_written (plain_no_nul (Json.escape_plain _))]

theorem printed_eq_ok {text error out : Bytes} :
    printed text error = .ok out ↔ text.length ≤ INT_MAX ∧ out = text := by
  by_cases h : text.length ≤ INT_MAX
  · rw [printed, formatLength, if_pos h]
    dsimp only
    rw [clip, Nat.add_sub_cancel, List.take_length, Except.ok.injEq]
    exact ⟨fun heq => ⟨h, heq.symm⟩, fun heq => heq.2.symm⟩
  · rw [printed, formatLength, if_neg h]
    exact ⟨(fun heq => by cases heq), fun heq => absurd heq.1 h⟩

/-- The fields of a query response. -/
def queryMembers (ok : Bool) (statusCode : Int) (path errorCode message : CString)
    (affectedRows : Int) (outputText : CString) : Json.Members :=
  let code : Json.Members := if ok then [] else [(ascii "error_code", .text errorCode.bytes)]
  let result : Json.Members :=
    [(ascii "message", .text message.bytes), (ascii "affected_rows", .number affectedRows),
      (ascii "output_text", .text outputText.bytes)]
  (ascii "ok", .boolean ok) :: (ascii "path", .text path.bytes) ::
    (ascii "status_code", .number statusCode) :: (code ++ result)

/-- The fields of an error response. -/
def errorMembers (statusCode : Int) (path errorCode message : CString) : Json.Members :=
  [(ascii "ok", .boolean false), (ascii "path", .text path.bytes),
    (ascii "status_code", .number statusCode), (ascii "error_code", .text errorCode.bytes),
    (ascii "message", .text message.bytes)]

theorem errorFormat_eq (statusCode : Int) (path errorCode message : CString) :
    errorFormat (Json.escape path.bytes) statusCode (Json.escape errorCode.bytes)
        (Json.escape message.bytes) =
      Json.printObject (errorMembers statusCode path errorCode message) := by
  simp [errorFormat, errorMembers, Json.printObject, Json.printMembers, Json.printMember,
    Json.printScalar, ascii, Json.escape, Json.escapeByte, Json.escapeLetter]

theorem queryJson_eq (ok : Bool) (statusCode : Int) (path message : CString)
    (errorCode : Option CString) (affectedRows : Int) (outputText : CString) :
    queryJson ok statusCode errorCode (Json.escape path.bytes) (Json.escape message.bytes)
        affectedRows (Json.escape outputText.bytes) =
      .ok (Json.printObject (queryMembers ok statusCode path (orDefault errorCode queryFailed) message
        affectedRows outputText)) := by
  cases ok with
  | true =>
    change Except.ok _ = Except.ok _
    simp [queryFormat, queryMembers, Json.printObject, Json.printMembers, Json.printMember,
      Json.printScalar, ascii, Json.escape, Json.escapeByte, Json.escapeLetter]
  | false =>
    rw [queryJson, escapedText_eq]
    change Except.ok _ = Except.ok _
    simp [queryErrorFormat, queryMembers, Json.printObject, Json.printMembers, Json.printMember,
      Json.printScalar, ascii, Json.escape, Json.escapeByte, Json.escapeLetter]

/-- A message of a head and a body, which the head's length field counts. -/
def Framed (message body : Bytes) : Prop :=
  ∃ n, findFirst blankLine message = some n ∧ message.drop (n + blankLine.length) = body ∧
    contentLength (message.take n) = some body.length

/-- The body of a message is one object with just these fields, in printable characters. -/
def Carries (message : Bytes) (members : Json.Members) : Prop :=
  ∃ body, Framed message body ∧ Json.readObject body = some members ∧ ∀ b ∈ body, 32 ≤ b

def statusLine (statusCode : Int) : Bytes :=
  ascii "HTTP/1.1 " ++ decimal statusCode ++ ascii " " ++ httpReasonPhrase statusCode

def headFields (size : Nat) : List Bytes :=
  [ascii "Content-Type: application/json", ascii "Content-Length: " ++ decimalNat size,
    ascii "Connection: close"]

theorem responseFormat_eq (statusCode : Int) (jsonBody : Bytes) :
    responseFormat statusCode jsonBody =
      joinLines (statusLine statusCode) (headFields jsonBody.length) ++ blankLine ++ jsonBody := by
  simp only [responseFormat, joinLines, statusLine, headFields, blankLine, List.flatMap_cons,
    List.flatMap_nil, List.append_assoc, List.append_nil]

theorem plain_no_return {text : Bytes} (h : Json.isPlain text = true) : carriageReturn ∉ text := by
  intro hmem
  have := List.all_eq_true.mp h carriageReturn hmem
  cases this

theorem httpReasonPhrase_plain (statusCode : Int) :
    Json.isPlain (httpReasonPhrase statusCode) = true := by
  unfold httpReasonPhrase
  split_ifs <;> rfl

theorem statusLine_plain (statusCode : Int) : Json.isPlain (statusLine statusCode) = true := by
  rw [statusLine, Json.isPlain_append, Json.isPlain_append, Json.isPlain_append,
    httpReasonPhrase_plain, Json.decimal_plain]
  rfl

theorem headFields_lines (size : Nat) : ∀ line ∈ headFields size, IsLine line := by
  have hlength : IsLine (ascii "Content-Length: " ++ decimalNat size) := by
    refine ⟨by simp [ascii], plain_no_return ?_⟩
    rw [Json.isPlain_append, Json.decimalNat_plain]
    rfl
  intro line hline
  simp only [headFields, List.mem_cons, List.not_mem_nil, or_false] at hline
  rcases hline with rfl | rfl | rfl
  · decide
  · exact hlength
  · decide

theorem contentLength_head (statusCode : Int) (size : Nat) :
    contentLength (joinLines (statusLine statusCode) (headFields size)) = some size := by
  have hname : ascii "Content-Length: " = ascii "Content-Length" ++ ascii ": " := rfl
  have htype : ¬ (ascii "Content-Length" ++ ascii ": ").isPrefixOf
      (ascii "Content-Type: application/json") = true := by decide
  have hlength : (ascii "Content-Length" ++ ascii ": ").isPrefixOf
      (ascii "Content-Length: " ++ decimalNat size) = true := by
    rw [hname]
    exact List.isPrefixOf_iff_prefix.mpr (List.prefix_append _ _)
  have hsize : (ascii "Content-Length").length + 2 = (ascii "Content-Length: ").length := rfl
  rw [contentLength, fieldValue, splitLines_join (plain_no_return (statusLine_plain statusCode))
    (headFields_lines size), List.tail_cons, headFields, List.findSome?_cons, if_neg htype,
    List.findSome?_cons, if_pos hlength, hsize, List.drop_left]
  exact number_decimalNat size

theorem response_framed (statusCode : Int) (jsonBody : Bytes) :
    Framed (responseFormat statusCode jsonBody) jsonBody := by
  rw [responseFormat_eq]
  refine ⟨_, findFirst_blankLine
    (unbroken_of_no_return (plain_no_return (statusLine_plain statusCode)))
    (fun line hl => (headFields_lines _ line hl).unbroken) jsonBody, ?_, ?_⟩
  · rw [← List.length_append, List.drop_left]
  · rw [List.append_assoc, List.take_left]
    exact contentLength_head statusCode jsonBody.length

theorem response_carries (statusCode : Int) (members : Json.Members) :
    Carries (responseFormat statusCode (Json.printObject members)) members := by
  refine ⟨_, response_framed statusCode _, Json.readObject_print members, fun b hb => ?_⟩
  exact of_decide_eq_true (List.all_eq_true.mp (Json.printObject_plain members) b hb)

theorem body_le_response (statusCode : Int) (jsonBody : Bytes) :
    jsonBody.length ≤ (responseFormat statusCode jsonBody).length := by
  rw [responseFormat, List.length_append]
  exact Nat.le_add_left _ _

/-- The text of a response to a query. -/
def queryResponse (ok : Bool) (statusCode : Int) (path errorCode message : Option CString)
    (affectedRows : Int) (outputText : Option CString) : Bytes :=
  responseFormat statusCode (Json.printObject (queryMembers ok statusCode (orDefault path emptyText)
    (orDefault errorCode queryFailed) (orDefault message emptyText) affectedRows
    (orDefault outputText emptyText)))

/-- The text of a response to a rejected request. -/
def errorResponse (statusCode : Int) (path errorCode message : Option CString) : Bytes :=
  responseFormat statusCode (Json.printObject (errorMembers statusCode (orDefault path emptyText)
    (orDefault errorCode internalError) (orDefault message emptyText)))

theorem of_bytes (text : CString) : CString.of text.bytes = text :=
  CString.ext (cString_of_no_nul text.no_nul)

/-- A body is measured and printed, then the response around it. -/
theorem wrapped_eq_ok {statusCode : Int} {jsonBody : CString} {error out : Bytes} :
    (printed jsonBody.bytes error >>= fun text => httpWrapJsonResponse statusCode (.of text)) =
        .ok out ↔
      (responseFormat statusCode jsonBody.bytes).length ≤ INT_MAX ∧
        out = responseFormat statusCode jsonBody.bytes := by
  have hbody := body_le_response statusCode jsonBody.bytes
  rw [except_bind_ok]
  constructor
  · rintro ⟨text, htext, hwrap⟩
    obtain ⟨-, rfl⟩ := printed_eq_ok.mp htext
    rw [of_bytes] at hwrap
    exact printed_eq_ok.mp hwrap
  · rintro ⟨hfits, rfl⟩
    refine ⟨_, printed_eq_ok.mpr ⟨hbody.trans hfits, rfl⟩, ?_⟩
    rw [of_bytes]
    exact printed_eq_ok.mpr ⟨hfits, rfl⟩

/-- The object that a response carries, as its body. -/
def objectBody (members : Json.Members) : CString :=
  ⟨Json.printObject members, plain_no_nul (Json.printObject_plain members)⟩

theorem httpBuildQueryResponse_eq_ok {ok : Bool} {statusCode : Int}
    {path errorCode message : Option CString} {affectedRows : Int} {outputText : Option CString}
    {out : Bytes} :
    httpBuildQueryResponse ok statusCode path errorCode message affectedRows outputText = .ok out ↔
      (queryResponse ok statusCode path errorCode message affectedRows outputText).length ≤
          INT_MAX ∧
        out = queryResponse ok statusCode path errorCode message affectedRows outputText := by
  simp only [httpBuildQueryResponse, escapedText_eq, except_ok_bind, queryJson_eq]
  exact @wrapped_eq_ok statusCode (objectBody _) _ out

theorem httpBuildErrorResponse_eq_ok {statusCode : Int} {path errorCode message : Option CString}
    {out : Bytes} :
    httpBuildErrorResponse statusCode path errorCode message = .ok out ↔
      (errorResponse statusCode path errorCode message).length ≤ INT_MAX ∧
        out = errorResponse statusCode path errorCode message := by
  simp only [httpBuildErrorResponse, escapedText_eq, except_ok_bind, errorFormat_eq]
  exact @wrapped_eq_ok statusCode (objectBody _) _ out

/-- No slot of a block is left unwritten. -/
def Block.full (block : Block) : Prop := ∀ slot ∈ block, slot ≠ none

theorem full_written (text : Bytes) : Block.full (text.map some ++ [some nul]) := by
  intro slot hslot
  rcases List.mem_append.mp hslot with hslot | hslot
  · obtain ⟨b, -, rfl⟩ := List.mem_map.mp hslot
    exact Option.some_ne_none b
  · rw [List.mem_singleton.mp hslot]
    exact Option.some_ne_none nul

/-- A response frames its body by the length of it, and a reader gets back from the body
the fields that went in, nothing else; the escapes fill just what was allocated. -/
theorem responses_faithful (ok : Bool) (statusCode : Int) (path errorCode message : Option CString)
    (affectedRows : Int) (outputText : Option CString) :
    (∀ input : CString, ∃ block, httpJsonEscape input = .ok block ∧
      block.length = escapedLength input.bytes + 1 ∧ Block.full block) ∧
    ((queryResponse ok statusCode path errorCode message affectedRows outputText).length <
        INT_MAX →
      ∃ response,
        httpBuildQueryResponse ok statusCode path errorCode message affectedRows outputText =
          .ok response ∧
        Carries response (queryMembers ok statusCode (orDefault path emptyText)
          (orDefault errorCode queryFailed) (orDefault message emptyText) affectedRows
          (orDefault outputText emptyText))) ∧
    ((errorResponse statusCode path errorCode message).length < INT_MAX →
      ∃ response, httpBuildErrorResponse statusCode path errorCode message = .ok response ∧
        Carries response (errorMembers statusCode (orDefault path emptyText)
          (orDefault errorCode internalError) (orDefault message emptyText))) := by
  refine ⟨fun input => ?_, fun h => ?_, fun h => ?_⟩
  · refine ⟨_, httpJsonEscape_fills input, ?_, full_written _⟩
    rw [escapedLength_eq, List.length_append, List.length_map]
    rfl
  · exact ⟨_, httpBuildQueryResponse_eq_ok.mpr ⟨h.le, rfl⟩, response_carries statusCode _⟩
  · exact ⟨_, httpBuildErrorResponse_eq_ok.mpr ⟨h.le, rfl⟩, response_carries statusCode _⟩

theorem responses_faithful_failed :
    ∃ response, httpBuildQueryResponse false 400 none none (some (.of (ascii "no \"id\"\n"))) 0 none =
        .ok response ∧
      Carries response (queryMembers false 400 emptyText queryFailed (.of (ascii "no \"id\"\n")) 0
        emptyText) :=
  (responses_faithful false 400 none none (some (.of (ascii "no \"id\"\n"))) 0 none).2.1
    (by decide +kernel)

end DbApi.Http
