import DbApi.Proofs.DeclaredHead

namespace DbApi.Http

open DbApi.Library

/-- A request as a client means it: the names and values of the headers are as they are
spelled. -/
structure Message where
  method : Bytes
  path : Bytes
  version : Bytes
  headers : List (Bytes × Bytes)
  body : Bytes
deriving DecidableEq

def headerLine (header : Bytes × Bytes) : Bytes := header.1 ++ 58 :: header.2

/-- The header goes by that name, whatever its letter case and the blanks around it. -/
def named (name : Bytes) (header : Bytes × Bytes) : Bool :=
  httpAsciiEqualsIgnoreCase (httpTrimSpan header.1) name

def contentLengthName : Bytes := ascii "Content-Length"

def contentTypeName : Bytes := ascii "Content-Type"

namespace Message

variable (m : Message)

def requestLine : Bytes := m.method ++ space :: (m.path ++ space :: m.version)

def serialise : Bytes :=
  joinLines m.requestLine (m.headers.map headerLine) ++ blankLine ++ m.body

/-- The value of the Content-Type header without the blanks around it. -/
def contentType : Bytes :=
  ((m.headers.find? (named contentTypeName)).map fun header => httpTrimSpan header.2).getD []

end Message

/-- A name and a value that are no part of the framing. -/
structure IsHeader (header : Bytes × Bytes) : Prop where
  name : httpTrimSpan header.1 ≠ []
  separable : 58 ∉ header.1 ∧ carriageReturn ∉ header.1 ∧ lineFeed ∉ header.1
  value : carriageReturn ∉ header.2 ∧ lineFeed ∉ header.2
  recognised : named (ascii "X-Debug-Sleep-Ms") header = false ∧
    named (ascii "Transfer-Encoding") header = false

/-- A token of the request line. -/
def IsToken (token : Bytes) : Prop := space ∉ token ∧ carriageReturn ∉ token ∧ lineFeed ∉ token

structure Message.WellFormed (m : Message) : Prop where
  method : IsToken m.method ∧ m.method ≠ [] ∧ m.method.length ≤ 15
  path : IsToken m.path ∧ m.path.head? = some 47 ∧ m.path.length ≤ 127
  version : m.version = ascii "HTTP/1.0" ∨ m.version = ascii "HTTP/1.1"
  headers : ∀ header ∈ m.headers, IsHeader header
  one_type : m.headers.countP (named contentTypeName) ≤ 1
  one_length : m.headers.countP (named contentLengthName) ≤ 1
  type_fits : ∀ header ∈ m.headers, named contentTypeName header = true →
    (httpTrimSpan header.2).length ≤ 63
  /-- The length of the body in decimal digits, between blanks. -/
  length_states : ∀ header ∈ m.headers, named contentLengthName header = true →
    number (httpTrimSpan header.2) = some m.body.length
  /-- Only a request without a body can leave it out. -/
  length_missing : m.headers.countP (named contentLengthName) = 0 → m.body = []

theorem memchr_first {c : UInt8} {front : Bytes} (h : c ∉ front) (rest : Bytes) :
    memchr c (front ++ c :: rest) = some front.length := by
  induction front with
  | nil => simp [memchr, List.findIdx?_cons]
  | cons b front ih =>
    rw [List.mem_cons, not_or] at h
    have hb : (b == c) = false := by simp [Ne.symm h.1]
    rw [memchr] at ih ⊢
    rw [List.cons_append, List.findIdx?_cons, hb, if_neg (by decide), ih h.2]
    rfl

theorem memchr_none {c : UInt8} {span : Bytes} (h : c ∉ span) : memchr c span = none := by
  rw [memchr, List.findIdx?_eq_none_iff]
  intro b hb
  simp only [beq_eq_false_iff_ne, ne_eq]
  rintro rfl
  exact h hb

theorem requestTokens_line {method path version : Bytes} (hm : space ∉ method) (hp : space ∉ path)
    (hv : space ∉ version) :
    requestTokens (method ++ space :: (path ++ space :: version)) = .ok (method, path, version) := by
  have hrest : (method ++ space :: (path ++ space :: version)).drop (method.length + 1) =
      path ++ space :: version := by simp
  have hlast : (path ++ space :: version).drop (path.length + 1) = version := by simp
  rw [requestTokens, memchr_first hm]
  dsimp only
  rw [hrest, memchr_first hp]
  dsimp only
  rw [hlast, memchr_none hv, if_neg (by decide), List.take_left, List.take_left]

theorem copySpan_fits {size : Nat} {span : Bytes} (hne : span ≠ []) (h : span.length < size)
    (fieldName : Bytes) : httpCopySpan size span fieldName = .ok span := by
  rw [httpCopySpan, if_neg (by simpa using hne), if_neg (Nat.not_le.mpr h)]

theorem requestLine_read {m : Message} (h : m.WellFormed) (request : HttpRequest) :
    httpParseRequestLine m.requestLine request =
      .ok { request with method := m.method, path := m.path, version := m.version } := by
  obtain ⟨⟨hm, -⟩, hmethod, hmethod16⟩ := h.method
  obtain ⟨⟨hp, -⟩, hslash, hpath128⟩ := h.path
  have hpath : m.path ≠ [] := by
    intro hnil
    rw [hnil] at hslash
    cases hslash
  have hversion : space ∉ m.version ∧ m.version ≠ [] ∧ m.version.length < 16 ∧
      cString m.version = m.version ∧
      ¬ (m.version ≠ ascii "HTTP/1.1" ∧ m.version ≠ ascii "HTTP/1.0") := by
    rcases h.version with hv | hv
    · rw [hv]
      decide
    · rw [hv]
      decide
  obtain ⟨hv, hne, hversion16, hstring, hknown⟩ := hversion
  rw [httpParseRequestLine, Message.requestLine, requestTokens_line hm hp hv, except_ok_bind]
  dsimp only
  rw [copySpan_fits hmethod (Nat.lt_succ_of_le hmethod16), except_ok_bind,
    copySpan_fits hpath (Nat.lt_succ_of_le hpath128), except_ok_bind,
    copySpan_fits hne hversion16, except_ok_bind, hstring, if_neg hknown, if_neg (by simp [hslash])]

theorem parseHeaderLine_line {header : Bytes × Bytes} (h : 58 ∉ header.1) (state : HeaderState) :
    parseHeaderLine state (headerLine header) =
      parseHeader state (httpTrimSpan header.1) (httpTrimSpan header.2) := by
  have hvalue : (header.1 ++ 58 :: header.2).drop (header.1.length + 1) = header.2 := by simp
  rw [parseHeaderLine, headerLine, if_neg (by simp), memchr_first h]
  dsimp only
  rw [List.take_left, hvalue]

/-- A header is told from others by its name. -/
theorem parseHeaderLine_named {header : Bytes × Bytes} (h : IsHeader header) (state : HeaderState) :
    parseHeaderLine state (headerLine header) =
      if named contentLengthName header = true then
        parseContentLengthHeader state (httpTrimSpan header.2)
      else if named contentTypeName header = true then
        parseContentTypeHeader state (httpTrimSpan header.2)
      else .ok state := by
  have hname : (httpTrimSpan header.1).length ≠ 0 := by simpa using h.name
  obtain ⟨hdebug, htransfer⟩ := h.recognised
  rw [parseHeaderLine_line h.separable.1, parseHeader, if_neg hname]
  change (if named contentLengthName header = true then _
    else if named contentTypeName header = true then _
    else if named (ascii "X-Debug-Sleep-Ms") header = true then _
    else if named (ascii "Transfer-Encoding") header = true then _
    else _) = _
  rw [hdebug, htransfer, if_neg Bool.false_ne_true, if_neg Bool.false_ne_true]

/-- A header goes by one of the recognised names at most. -/
theorem named_one {header : Bytes × Bytes} {name other : Bytes} (h : named name header = true)
    (hne : httpAsciiEqualsIgnoreCase name other = false) : named other header = false := by
  rw [named, httpAsciiEqualsIgnoreCase, beq_iff_eq] at h
  rw [named, httpAsciiEqualsIgnoreCase, h]
  exact hne

theorem trim_digits {text : Bytes} (h : text.all isDigit = true) : httpTrimSpan text = text := by
  have hdigit : ∀ b, isDigit b = true → isSpace b = false := by decide +kernel
  rw [List.all_eq_true] at h
  refine trimBoth_eq_self.mpr ⟨fun b hb => hdigit b (h b ?_), fun b hb => hdigit b (h b ?_)⟩
  · exact List.mem_of_mem_head? hb
  · exact List.mem_of_mem_getLast? hb

theorem number_some {text : Bytes} {n : Nat} (h : number text = some n) :
    text ≠ [] ∧ text.all isDigit = true ∧ digitsValue text = n := by
  rw [number] at h
  split at h
  · rename_i htext
    exact ⟨htext.1, htext.2, Option.some.inj h⟩
  · cases h

theorem contentLength_read {value : Bytes} {n : Nat} (h : number (httpTrimSpan value) = some n)
    (hsize : n ≤ SIZE_MAX) : httpParseContentLength (httpTrimSpan value) = .ok n := by
  obtain ⟨hne, hdigits, hvalue⟩ := number_some h
  rw [httpParseContentLength, trim_digits hdigits]
  split
  · rename_i hnil
    exact absurd hnil hne
  · rename_i digits _
    rw [parseDigits_limit (List.all_eq_true.mp hdigits) (Nat.zero_le _)]
    change (if digitsValue _ ≤ SIZE_MAX then Except.ok (digitsValue _) else _) = _
    rw [hvalue, if_pos hsize]

/-- What a header leads to, by its name. -/
inductive HeaderRead (header : Bytes × Bytes) (state : HeaderState) (n : Nat) : HeaderState → Prop where
  | length (name : named contentLengthName header = true)
      (other : named contentTypeName header = false) :
      HeaderRead header state n
        { state with
          request := { state.request with contentLength := n }
          sawContentLength := true }
  | type (name : named contentTypeName header = true)
      (other : named contentLengthName header = false) :
      HeaderRead header state n
        { state with
          request := { state.request with contentType := httpTrimSpan header.2 }
          sawContentType := true }
  | other (noLength : named contentLengthName header = false)
      (noType : named contentTypeName header = false) : HeaderRead header state n state

theorem header_read {header : Bytes × Bytes} {state : HeaderState} {n : Nat} (hsize : n ≤ SIZE_MAX)
    (h : IsHeader header)
    (htype : named contentTypeName header = true → (httpTrimSpan header.2).length ≤ 63)
    (hlength : named contentLengthName header = true → number (httpTrimSpan header.2) = some n)
    (hfirstType : named contentTypeName header = true →
      state.sawContentType = false ∧ state.request.contentType = [])
    (hfirstLength : named contentLengthName header = true → state.sawContentLength = false) :
    ∃ next, parseHeaderLine state (headerLine header) = .ok next ∧
      HeaderRead header state n next := by
  rw [parseHeaderLine_named h]
  by_cases hl : named contentLengthName header = true
  · refine ⟨_, ?_, .length hl (named_one hl (by decide))⟩
    rw [if_pos hl, parseContentLengthHeader, hfirstLength hl, if_neg (by decide),
      contentLength_read (hlength hl) hsize]
    rfl
  · rw [if_neg hl]
    by_cases ht : named contentTypeName header = true
    · obtain ⟨hsaw, hempty⟩ := hfirstType ht
      refine ⟨_, ?_, .type ht (Bool.eq_false_iff.mpr hl)⟩
      rw [if_pos ht, parseContentTypeHeader, hsaw, if_neg (by decide)]
      split
      · rename_i hzero
        rw [List.length_eq_zero_iff.mp hzero, ← hempty]
        rfl
      · rename_i hne
        rw [copySpan_fits (by simpa using hne) (Nat.lt_succ_of_le (htype ht)), except_ok_bind]
        rfl
    · rw [if_neg ht]
      exact ⟨state, rfl, .other (Bool.eq_false_iff.mpr hl) (Bool.eq_false_iff.mpr ht)⟩

/-- Headers that can be read on after those that the state has seen. -/
structure Readable (n : Nat) (headers : List (Bytes × Bytes)) (state : HeaderState) : Prop where
  all : ∀ header ∈ headers, IsHeader header
  type_fits : ∀ header ∈ headers, named contentTypeName header = true →
    (httpTrimSpan header.2).length ≤ 63
  length_states : ∀ header ∈ headers, named contentLengthName header = true →
    number (httpTrimSpan header.2) = some n
  one_type : headers.countP (named contentTypeName) + state.sawContentType.toNat ≤ 1
  one_length : headers.countP (named contentLengthName) + state.sawContentLength.toNat ≤ 1
  fresh : state.sawContentType = false → state.request.contentType = []

theorem Readable.first {n : Nat} {header : Bytes × Bytes} {headers : List (Bytes × Bytes)}
    {state : HeaderState} (hsize : n ≤ SIZE_MAX) (h : Readable n (header :: headers) state) :
    ∃ next, parseHeaderLine state (headerLine header) = .ok next ∧
      HeaderRead header state n next := by
  have hone_type := h.one_type
  have hone_length := h.one_length
  rw [List.countP_cons] at hone_type hone_length
  refine header_read hsize (h.all _ List.mem_cons_self) (h.type_fits _ List.mem_cons_self)
    (h.length_states _ List.mem_cons_self) (fun hname => ?_) (fun hname => ?_)
  · rw [if_pos hname] at hone_type
    have hsaw : state.sawContentType = false := by
      cases hs : state.sawContentType with
      | false => rfl
      | true =>
        rw [hs, Bool.toNat_true] at hone_type
        omega
    exact ⟨hsaw, h.fresh hsaw⟩
  · rw [if_pos hname] at hone_length
    cases hs : state.sawContentLength with
    | false => rfl
    | true =>
      rw [hs, Bool.toNat_true] at hone_length
      omega

theorem Readable.rest {n : Nat} {header : Bytes × Bytes} {headers : List (Bytes × Bytes)}
    {state next : HeaderState} (h : Readable n (header :: headers) state)
    (hread : HeaderRead header state n next) : Readable n headers next := by
  have hone_type := h.one_type
  have hone_length := h.one_length
  rw [List.countP_cons] at hone_type hone_length
  have hrest : ∀ other ∈ headers, other ∈ header :: headers :=
    fun _ hmem => List.mem_cons_of_mem _ hmem
  refine ⟨fun other hmem => h.all _ (hrest other hmem),
    fun other hmem => h.type_fits _ (hrest other hmem),
    fun other hmem => h.length_states _ (hrest other hmem), ?_, ?_, ?_⟩
  · cases hread with
    | length hname hother =>
      rw [if_neg (by rw [hother]; decide)] at hone_type
      exact hone_type
    | type hname hother =>
      rw [if_pos hname] at hone_type
      change _ + 1 ≤ 1
      omega
    | other hlength htype =>
      rw [if_neg (by rw [htype]; decide)] at hone_type
      exact hone_type
  · cases hread with
    | length hname hother =>
      rw [if_pos hname] at hone_length
      change _ + 1 ≤ 1
      omega
    | type hname hother =>
      rw [if_neg (by rw [hother]; decide)] at hone_length
      exact hone_length
    | other hlength htype =>
      rw [if_neg (by rw [hlength]; decide)] at hone_length
      exact hone_length
  · cases hread with
    | length hname hother => exact h.fresh
    | type hname hother => exact fun hsaw => by cases hsaw
    | other hlength htype => exact h.fresh

theorem parseHeaderLines_cons {state : HeaderState} {line : Bytes} {lines : List Bytes}
    (h : lines ≠ []) : parseHeaderLines state (line :: lines) =
      parseHeaderLine state line >>= fun state => parseHeaderLines state lines := by
  cases lines with
  | nil => contradiction
  | cons next lines => rfl

/-- The headers in any order lead to a content type and a length. -/
theorem headers_read {n : Nat} {headers : List (Bytes × Bytes)} {state : HeaderState}
    (hsize : n ≤ SIZE_MAX) (h : Readable n headers state) :
    ∃ final, parseHeaderLines state (headers.map headerLine ++ [[]]) = .ok final ∧
      final.request = { state.request with
        contentType := ((headers.find? (named contentTypeName)).map
          fun header => httpTrimSpan header.2).getD state.request.contentType
        contentLength :=
          if headers.countP (named contentLengthName) = 0 then state.request.contentLength
          else n } := by
  induction headers generalizing state with
  | nil => exact ⟨state, rfl, rfl⟩
  | cons header headers ih =>
    obtain ⟨next, hline, hread⟩ := h.first hsize
    have hrest := h.rest hread
    obtain ⟨final, hlines, hfinal⟩ := ih hrest
    refine ⟨final, ?_, hfinal.trans ?_⟩
    · rw [List.map_cons, List.cons_append, parseHeaderLines_cons (by simp), hline, except_ok_bind]
      exact hlines
    · rw [List.find?_cons, List.countP_cons]
      have hone_type := hrest.one_type
      have hone_length := hrest.one_length
      cases hread with
      | length hname hother =>
        change _ + 1 ≤ 1 at hone_length
        rw [hother, if_pos hname, if_pos (by omega), if_neg (by omega)]
      | type hname hother =>
        change _ + 1 ≤ 1 at hone_type
        have hnone : headers.find? (named contentTypeName) = none := by
          rw [List.find?_eq_none]
          exact List.countP_eq_zero.mp (by omega)
        rw [hname, hother, hnone, if_neg Bool.false_ne_true]
        rfl
      | other hlength htype =>
        rw [hlength, htype, if_neg Bool.false_ne_true]
        rfl

section Whole

variable {m : Message}

theorem Message.WellFormed.requestLine_return (h : m.WellFormed) :
    carriageReturn ∉ m.requestLine := by
  have hversion : carriageReturn ∉ m.version := by
    rcases h.version with hv | hv
    · rw [hv]
      decide
    · rw [hv]
      decide
  have hspace : carriageReturn ≠ space := by decide
  simp only [Message.requestLine, List.mem_append, List.mem_cons, not_or]
  exact ⟨h.method.1.2.1, hspace, h.path.1.2.1, hspace, hversion⟩

theorem headerLine_isLine {header : Bytes × Bytes} (h : IsHeader header) :
    IsLine (headerLine header) := by
  have hcolon : carriageReturn ≠ 58 := by decide
  refine ⟨by simp [headerLine], ?_⟩
  simp only [headerLine, List.mem_append, List.mem_cons, not_or]
  exact ⟨h.separable.2.1, hcolon, h.value.1⟩

theorem Message.WellFormed.lines (h : m.WellFormed) : ∀ line ∈ m.headers.map headerLine, IsLine line := by
  intro line hline
  obtain ⟨header, hheader, rfl⟩ := List.mem_map.mp hline
  exact headerLine_isLine (h.headers header hheader)

/-- The length of the head with its blank line. -/
def Message.headLength (m : Message) : Nat :=
  (joinLines m.requestLine (m.headers.map headerLine)).length + 4

theorem serialise_length : m.serialise.length = m.headLength + m.body.length := by
  rw [Message.serialise, Message.headLength, List.length_append, List.length_append]
  rfl

theorem serialise_headerEnd (h : m.WellFormed) :
    httpFindHeaderEnd m.serialise = some m.headLength := by
  rw [httpFindHeaderEnd, Message.serialise,
    findFirst_blankLine (unbroken_of_no_return h.requestLine_return)
      fun line hl => (h.lines line hl).unbroken]
  rfl

/-- The request that the message stands for, without its body. -/
def Message.request (m : Message) : HttpRequest :=
  { emptyRequest with
    method := m.method
    path := m.path
    version := m.version
    contentType := m.contentType
    contentLength := m.body.length }

/-- The head as its lines, each with its end. -/
theorem serialise_take (m : Message) :
    m.serialise.take m.headLength =
      m.requestLine ++ crlf ++ (m.headers.map headerLine).flatMap (· ++ crlf) ++ crlf := by
  have hlength : (joinLines m.requestLine (m.headers.map headerLine) ++ blankLine).length =
      m.headLength := by
    rw [Message.headLength, List.length_append]
    rfl
  rw [Message.serialise, List.take_left' hlength, joinLines, blankLine, ← List.append_assoc,
    List.append_assoc m.requestLine, flatMap_crlf, ← List.append_assoc]

theorem serialise_headers (m : Message) :
    (m.serialise.take (m.headLength - 2)).drop (m.requestLine.length + 2) =
      (m.headers.map headerLine).flatMap (· ++ crlf) := by
  have htake : m.serialise.take (m.headLength - 2) =
      (m.serialise.take m.headLength).take (m.headLength - 2) := by
    rw [List.take_take, Nat.min_eq_left (Nat.sub_le _ _)]
  have hlength := congrArg List.length (serialise_take m)
  rw [List.length_take, serialise_length, Nat.min_eq_left (Nat.le_add_right _ _),
    List.length_append] at hlength
  have hcrlf : crlf.length = 2 := rfl
  rw [htake, serialise_take, List.take_left' (by omega), List.drop_left' (by simp [crlf])]

theorem Message.WellFormed.readable (h : m.WellFormed) (request : HttpRequest)
    (hrequest : request.contentType = []) :
    Readable m.body.length m.headers
      { request
        sawContentLength := false
        sawContentType := false
        sawDebugSleepMs := false } where
  all := h.headers
  type_fits := h.type_fits
  length_states := h.length_states
  one_type := h.one_type
  one_length := h.one_length
  fresh _ := hrequest

theorem serialise_head (h : m.WellFormed) (hsize : m.body.length ≤ SIZE_MAX) :
    parseHead m.serialise = .ok (m.request, m.headLength) := by
  have hline : httpFindCrlf (m.serialise.take m.headLength) = some m.requestLine.length := by
    rw [httpFindCrlf, serialise_take, List.append_assoc, List.append_assoc]
    exact findFirst_crlf (unbroken_of_no_return h.requestLine_return) _
  have hfirst : m.serialise.take m.requestLine.length = m.requestLine := by
    rw [Message.serialise, joinLines, List.append_assoc, List.append_assoc, List.take_left]
  obtain ⟨final, hfinal, hrequest⟩ := headers_read hsize (h.readable
    { emptyRequest with method := m.method, path := m.path, version := m.version } rfl)
  rw [parseHead, serialise_headerEnd h]
  dsimp only
  rw [hline]
  dsimp only
  rw [hfirst, requestLine_read h, except_ok_bind, httpParseHeaders, serialise_headers,
    splitLines_ended fun line hmem => (h.lines line hmem).unbroken.2, hfinal]
  have hsame : final.request = m.request := by
    rw [hrequest, Message.request, Message.contentType]
    split
    · rename_i hmissing
      rw [h.length_missing hmissing]
      rfl
    · rfl
  rw [← hsame]
  rfl

/-- What a server makes of a message: nothing before it is whole, and then the message. -/
theorem decode_encode {maxRequestBytes : Nat} (hmax : maxRequestBytes ≤ SIZE_MAX)
    (h : m.WellFormed) (hlimit : m.serialise.length ≤ effectiveMax maxRequestBytes) :
    (∀ front, front <+: m.serialise → front ≠ m.serialise →
      (httpRequestProbe front maxRequestBytes).result = .incomplete) ∧
    httpRequestProbe m.serialise maxRequestBytes =
      { result := .complete, requestLength := m.serialise.length } ∧
    ∃ request, httpParseRequest m.serialise = .ok request ∧ request.method = m.method ∧
      request.path = m.path ∧ request.version = m.version ∧
      request.contentType = m.contentType ∧ request.contentLength = m.body.length ∧
      request.body = m.body := by
  have hsize : m.serialise.length ≤ SIZE_MAX := by
    refine hlimit.trans ?_
    rw [effectiveMax]
    split
    · decide
    · exact hmax
  have hlength := @serialise_length m
  have hhead := serialise_head h (by omega)
  have hend := serialise_headerEnd h
  have hmeta : httpExtractHeadMetadata m.serialise =
      .ok { headerLength := m.headLength, contentLength := m.body.length } := by
    rw [httpExtractHeadMetadata, hhead]
    rfl
  refine ⟨?_, ?_, ?_⟩
  · rintro front ⟨more, hmore⟩ hne
    have hshort : front.length < m.serialise.length := by
      rw [← hmore, List.length_append]
      refine Nat.lt_add_of_pos_right (List.length_pos_of_ne_nil ?_)
      rintro rfl
      exact hne (by rw [← hmore, List.append_nil])
    cases hfront : httpFindHeaderEnd front with
    | none => rw [probe_none (hshort.le.trans hlimit) hfront]
    | some found =>
      have hsame := metadata_append hfront more
      rw [hmore, hmeta] at hsame
      rw [probe_some (hshort.le.trans hlimit) hfront, ← hsame, probeHead,
        if_neg (by dsimp only; omega)]
      dsimp only
      rw [if_neg (by omega), if_neg (by omega)]
  · rw [probe_some hlimit hend, hmeta, hlength]
    exact probeHead_complete.mpr ⟨_, rfl, rfl, by dsimp only; omega, by omega, le_rfl⟩
  · have hbody : (m.serialise.drop m.headLength).take m.body.length = m.body := by
      rw [Message.serialise, List.drop_left' (by simp [Message.headLength, blankLine, crlf]),
        List.take_length]
    refine ⟨{ m.request with body := m.body }, ?_, rfl, rfl, rfl, rfl, rfl, rfl⟩
    rw [httpParseRequest, hhead, except_ok_bind]
    dsimp only
    rw [if_neg (by rw [Message.request]; dsimp only; omega)]
    change Except.ok { m.request with
      body := (m.serialise.drop m.headLength).take m.body.length } = _
    rw [hbody]

end Whole

/-- A message whose body looks like the end of a head. -/
def posted : Message where
  method := ascii "POST"
  path := ascii "/query"
  version := ascii "HTTP/1.1"
  headers := [(ascii "Host", ascii " localhost:8080"), (ascii " content-LENGTH", ascii " 04 "),
    (ascii "Content-Type", ascii " text/plain ")]
  body := blankLine

theorem posted_wellFormed : posted.WellFormed where
  method := ⟨⟨by decide, by decide, by decide⟩, by decide, by decide⟩
  path := ⟨⟨by decide, by decide, by decide⟩, rfl, by decide⟩
  version := .inr rfl
  headers := by
    have hfields : ∀ header ∈ posted.headers,
        httpTrimSpan header.1 ≠ [] ∧ 58 ∉ header.1 ∧ carriageReturn ∉ header.1 ∧
        lineFeed ∉ header.1 ∧ carriageReturn ∉ header.2 ∧ lineFeed ∉ header.2 ∧
        named (ascii "X-Debug-Sleep-Ms") header = false ∧
        named (ascii "Transfer-Encoding") header = false := by decide +kernel
    intro header hheader
    obtain ⟨hname, hcolon, hreturn, hfeed, hvalue, hvalueFeed, hdebug, htransfer⟩ :=
      hfields header hheader
    exact ⟨hname, ⟨hcolon, hreturn, hfeed⟩, ⟨hvalue, hvalueFeed⟩, ⟨hdebug, htransfer⟩⟩
  one_type := by decide +kernel
  one_length := by decide +kernel
  type_fits := by decide +kernel
  length_states := by decide +kernel
  length_missing := by decide +kernel

theorem decode_encode_posted :
    httpRequestProbe posted.serialise 0 =
        { result := .complete, requestLength := posted.serialise.length } ∧
      ∃ request, httpParseRequest posted.serialise = .ok request ∧
        request.contentType = ascii "text/plain" ∧ request.body = blankLine := by
  obtain ⟨-, hcomplete, request, hparse, -, -, -, htype, -, hbody⟩ :=
    decode_encode (Nat.zero_le SIZE_MAX) posted_wellFormed (by decide +kernel)
  exact ⟨hcomplete, request, hparse, htype, hbody⟩

end DbApi.Http
