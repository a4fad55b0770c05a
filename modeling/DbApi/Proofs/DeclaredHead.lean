import DbApi.Proofs.RequestEffects

namespace DbApi.Http

open DbApi.Library

/-- The value of a Content-Length field, a number of any size. -/
def declaredLength (value : Bytes) : Except Bytes Nat :=
  match httpTrimSpan value with
  | [] => .error (ascii "Content-Length header is empty")
  | digits =>
    if digits.all isDigit = true then .ok (digitsValue digits)
    else .error (ascii "Content-Length must be a decimal number")

def declaredHeader (state : HeaderState) (name value : Bytes) : Except Bytes HeaderState :=
  if httpAsciiEqualsIgnoreCase name (ascii "Content-Length") then
    if state.sawContentLength then .error (ascii "duplicate Content-Length header")
    else
      (declaredLength value).map fun contentLength =>
        { state with
          request := { state.request with contentLength }
          sawContentLength := true }
  else parseHeader state name value

def declaredHeaderLine (state : HeaderState) (line : Bytes) : Except Bytes HeaderState :=
  if line.length = 0 then .ok state
  else
    match memchr 58 line with
    | none => .error (ascii "header is missing ':' separator")
    | some colon =>
      declaredHeader state (httpTrimSpan (line.take colon)) (httpTrimSpan (line.drop (colon + 1)))

def declaredHeaderLines (state : HeaderState) : List Bytes → Except Bytes HeaderState
  | [] => .ok state
  | [rest] =>
    if rest.length = 0 then .ok state
    else .error (ascii "header line is not terminated with CRLF")
  | line :: lines => do
    let state ← declaredHeaderLine state line
    declaredHeaderLines state lines

/-- The reading of a well-formed head, with the length that it declares as a number of
any size. -/
def declaredHead (buffer : Bytes) : Except Bytes (HttpRequest × Nat) :=
  match httpFindHeaderEnd buffer with
  | none => .error (ascii "request headers are incomplete")
  | some headerLength =>
    match httpFindCrlf (buffer.take headerLength) with
    | none => .error (ascii "request line is missing CRLF")
    | some requestLineEnd => do
      let request ← httpParseRequestLine (buffer.take requestLineEnd) emptyRequest
      let headers := (buffer.take (headerLength - 2)).drop (requestLineEnd + 2)
      let state ← declaredHeaderLines
        { request
          sawContentLength := false
          sawContentType := false
          sawDebugSleepMs := false } (splitLines headers)
      return (state.request, headerLength)

theorem parseDigits_limit {parsedValue : Nat} {digits : Bytes}
    (hdigits : ∀ b ∈ digits, isDigit b = true) (hvalue : parsedValue ≤ SIZE_MAX) :
    parseDigits parsedValue digits =
      if digits.foldl (fun n d => 10 * n + (d.toNat - 48)) parsedValue ≤ SIZE_MAX then
        .ok (digits.foldl (fun n d => 10 * n + (d.toNat - 48)) parsedValue)
      else .error (ascii "Content-Length is too large") := by
  induction digits generalizing parsedValue with
  | nil => rw [parseDigits, List.foldl_nil, if_pos hvalue]
  | cons d digits ih =>
    obtain ⟨hdigit, hdigits⟩ := List.forall_mem_cons.mp hdigits
    have hgrows := value_grows digits (10 * parsedValue + (d.toNat - 48))
    have hsmall := digit_value hdigit
    rw [parseDigits, if_neg (by simp [hdigit]), List.foldl_cons]
    by_cases hlarge : (SIZE_MAX - (d.toNat - 48)) / 10 < parsedValue
    · rw [if_pos hlarge, if_neg]
      rw [SIZE_MAX] at hlarge ⊢
      omega
    · rw [if_neg hlarge, Nat.mul_comm parsedValue 10]
      refine ih hdigits ?_
      rw [SIZE_MAX] at hlarge ⊢
      omega

theorem contentLength_limit {value : Bytes} {n : Nat} (h : declaredLength value = .ok n) :
    httpParseContentLength value =
      if n ≤ SIZE_MAX then .ok n else .error (ascii "Content-Length is too large") := by
  rw [declaredLength] at h
  rw [httpParseContentLength]
  cases hdigits : httpTrimSpan value with
  | nil =>
    rw [hdigits] at h
    cases h
  | cons d digits =>
    rw [hdigits] at h
    dsimp only at h ⊢
    split at h
    · rename_i hall
      cases h
      exact parseDigits_limit (List.all_eq_true.mp hall) (Nat.zero_le _)
    · cases h

/-- The other headers have no part in the length. -/
theorem parseHeader_length {state next : HeaderState} {name value : Bytes}
    (hname : ¬ httpAsciiEqualsIgnoreCase name (ascii "Content-Length") = true)
    (h : parseHeader state name value = .ok next) :
    next.request.contentLength = state.request.contentLength ∧
      next.sawContentLength = state.sawContentLength := by
  rw [parseHeader, if_neg hname] at h
  split_ifs at h
  · rw [parseContentTypeHeader] at h
    split at h
    · cases h
    · split at h
      · cases h
        exact ⟨rfl, rfl⟩
      · obtain ⟨_, -, h⟩ := except_bind_ok.mp h
        cases h
        exact ⟨rfl, rfl⟩
  · rw [parseDebugSleepMsHeader] at h
    split at h
    · cases h
    · obtain ⟨_, -, h⟩ := except_bind_ok.mp h
      cases h
      exact ⟨rfl, rfl⟩
  · cases h
    exact ⟨rfl, rfl⟩

/-- What the platform's limit makes of a declared reading. -/
def limited {α : Type} (length : Nat) (declared : α) : Except Bytes α :=
  if length ≤ SIZE_MAX then .ok declared else .error (ascii "Content-Length is too large")

/-- A line leaves the length alone, or sets it for the only time. -/
theorem declaredHeader_cases {state next : HeaderState} {name value : Bytes}
    (h : declaredHeader state name value = .ok next) :
    (parseHeader state name value = .ok next ∧
      next.request.contentLength = state.request.contentLength ∧
      next.sawContentLength = state.sawContentLength) ∨
    (parseHeader state name value = limited next.request.contentLength next ∧
      state.sawContentLength = false ∧ next.sawContentLength = true) := by
  rw [declaredHeader] at h
  split at h
  · rename_i hname
    have hne : name.length ≠ 0 := by
      intro hzero
      rw [List.length_eq_zero_iff.mp hzero] at hname
      exact absurd hname (by decide)
    split at h
    · cases h
    · rename_i hsaw
      obtain ⟨n, hn, rfl⟩ := except_map_ok.mp h
      right
      refine ⟨?_, Bool.eq_false_iff.mpr hsaw, rfl⟩
      rw [parseHeader, if_neg hne, if_pos hname, parseContentLengthHeader, if_neg hsaw,
        contentLength_limit hn]
      dsimp only
      rw [limited]
      split
      · rfl
      · rfl
  · rename_i hname
    exact .inl ⟨h, parseHeader_length hname h⟩

theorem declaredHeaderLine_cases {state next : HeaderState} {line : Bytes}
    (h : declaredHeaderLine state line = .ok next) :
    (parseHeaderLine state line = .ok next ∧
      next.request.contentLength = state.request.contentLength ∧
      next.sawContentLength = state.sawContentLength) ∨
    (parseHeaderLine state line = limited next.request.contentLength next ∧
      state.sawContentLength = false ∧ next.sawContentLength = true) := by
  rw [declaredHeaderLine] at h
  rw [parseHeaderLine]
  split at h
  · rename_i hzero
    cases h
    rw [if_pos hzero]
    exact .inl ⟨rfl, rfl, rfl⟩
  · rename_i hne
    rw [if_neg hne]
    cases hcolon : memchr 58 line with
    | none =>
      rw [hcolon] at h
      cases h
    | some colon =>
      rw [hcolon] at h
      exact declaredHeader_cases h

theorem declared_set {state final : HeaderState} {lines : List Bytes}
    (h : declaredHeaderLines state lines = .ok final) (hsaw : state.sawContentLength = true) :
    final.request.contentLength = state.request.contentLength := by
  induction lines generalizing state with
  | nil =>
    cases h
    rfl
  | cons line lines ih =>
    cases lines with
    | nil =>
      rw [declaredHeaderLines] at h
      split at h <;> cases h
      rfl
    | cons following lines =>
      obtain ⟨middle, hline, hrest⟩ := except_bind_ok.mp h
      rcases declaredHeaderLine_cases hline with ⟨-, hlength, hkept⟩ | ⟨-, hfirst, -⟩
      · rw [ih hrest (hkept.trans hsaw), hlength]
      · rw [hsaw] at hfirst
        cases hfirst

theorem declared_lines {state final : HeaderState} {lines : List Bytes}
    (h : declaredHeaderLines state lines = .ok final)
    (hsize : state.request.contentLength ≤ SIZE_MAX) :
    parseHeaderLines state lines = limited final.request.contentLength final := by
  induction lines generalizing state with
  | nil =>
    cases h
    rw [limited, if_pos hsize]
    rfl
  | cons line lines ih =>
    cases lines with
    | nil =>
      rw [declaredHeaderLines] at h
      split at h
      · rename_i hzero
        cases h
        rw [parseHeaderLines, if_pos hzero, limited, if_pos hsize]
      · cases h
    | cons following lines =>
      obtain ⟨middle, hline, hrest⟩ := except_bind_ok.mp h
      have hread : parseHeaderLines state (line :: following :: lines) =
          parseHeaderLine state line >>= fun state => parseHeaderLines state (following :: lines) :=
        rfl
      rw [hread]
      rcases declaredHeaderLine_cases hline with ⟨hparse, hlength, -⟩ | ⟨hparse, -, hset⟩
      · rw [hparse, except_ok_bind]
        exact ih hrest (hlength.trans_le hsize)
      · rw [hparse]
        by_cases hmiddle : middle.request.contentLength ≤ SIZE_MAX
        · rw [limited, if_pos hmiddle, except_ok_bind]
          exact ih hrest hmiddle
        · rw [limited, limited, declared_set hrest hset, if_neg hmiddle, if_neg hmiddle]
          rfl

theorem requestLine_length {line : Bytes} {request parsed : HttpRequest}
    (h : httpParseRequestLine line request = .ok parsed) :
    parsed.contentLength = request.contentLength := by
  obtain ⟨⟨methodSpan, pathSpan, versionSpan⟩, -, h⟩ := except_bind_ok.mp h
  obtain ⟨method, -, h⟩ := except_bind_ok.mp h
  obtain ⟨path, -, h⟩ := except_bind_ok.mp h
  obtain ⟨version, -, h⟩ := except_bind_ok.mp h
  split at h
  · cases h
  · split at h
    · cases h
    · cases h
      rfl

/-- The code reads a well-formed head, unless its length is beyond the platform's limit. -/
theorem declared_parsed {buffer : Bytes} {request : HttpRequest} {headerLength : Nat}
    (h : declaredHead buffer = .ok (request, headerLength)) :
    parseHead buffer = limited request.contentLength (request, headerLength) := by
  rw [declaredHead] at h
  rw [parseHead]
  cases hend : httpFindHeaderEnd buffer with
  | none =>
    rw [hend] at h
    cases h
  | some headEnd =>
    rw [hend] at h
    dsimp only at h ⊢
    cases hcrlf : httpFindCrlf (buffer.take headEnd) with
    | none =>
      rw [hcrlf] at h
      cases h
    | some lineEnd =>
      rw [hcrlf] at h
      dsimp only at h ⊢
      obtain ⟨first, hline, h⟩ := except_bind_ok.mp h
      obtain ⟨final, hlines, h⟩ := except_bind_ok.mp h
      cases h
      rw [hline, except_ok_bind, httpParseHeaders, declared_lines hlines]
      · rw [limited, limited]
        split
        · rfl
        · rfl
      · rw [show HttpRequest.contentLength _ = _ from requestLine_length hline]
        exact Nat.zero_le _

theorem declaredHead_length {buffer : Bytes} {request : HttpRequest} {headerLength : Nat}
    (h : declaredHead buffer = .ok (request, headerLength)) :
    httpFindHeaderEnd buffer = some headerLength := by
  rw [declaredHead] at h
  split at h
  · cases h
  · rename_i heq
    split at h
    · cases h
    · obtain ⟨_, -, h⟩ := except_bind_ok.mp h
      obtain ⟨_, -, h⟩ := except_bind_ok.mp h
      cases h
      exact heq

/-- A declared head, too, is read from its own bytes alone. -/
theorem declaredHead_append {buffer : Bytes} {headerLength : Nat}
    (h : httpFindHeaderEnd buffer = some headerLength) (more : Bytes) :
    declaredHead (buffer ++ more) = declaredHead buffer := by
  have hfits := (findHeaderEnd_fits h).2
  have htake : ∀ k ≤ headerLength, (buffer ++ more).take k = buffer.take k := fun k hk =>
    List.take_append_of_le_length (hk.trans hfits)
  rw [declaredHead, declaredHead, findHeaderEnd_append h, h]
  dsimp only
  rw [htake headerLength le_rfl, htake (headerLength - 2) (Nat.sub_le _ _)]
  cases hcrlf : httpFindCrlf (buffer.take headerLength) with
  | none => rfl
  | some requestLineEnd =>
    have hline : requestLineEnd ≤ headerLength := by
      have := findFirst_fits hcrlf
      rw [List.length_take] at this
      omega
    dsimp only
    rw [htake requestLineEnd hline]

end DbApi.Http
