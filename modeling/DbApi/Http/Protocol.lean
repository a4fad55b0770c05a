import DbApi.Library.Crlf
import DbApi.Library.Except

namespace DbApi.Http

open DbApi.Library

def HTTP_DEFAULT_MAX_REQUEST_BYTES : Nat := 65536

def SIZE_MAX : Nat := 18446744073709551615

/-- The character arrays of the request hold what was copied; the string functions see
them up to the first NUL. -/
structure HttpRequest where
  method : Bytes
  path : Bytes
  version : Bytes
  contentType : Bytes
  debugSleepMs : Bytes
  debugSleepMsPresent : Bool
  contentLength : Nat
  body : Bytes
deriving DecidableEq

/-- The request after `memset`. -/
def emptyRequest : HttpRequest where
  method := []
  path := []
  version := []
  contentType := []
  debugSleepMs := []
  debugSleepMsPresent := false
  contentLength := 0
  body := []

/-- The length of the head, its blank line included. -/
def httpFindHeaderEnd (buffer : Bytes) : Option Nat :=
  (findFirst blankLine buffer).map (· + blankLine.length)

def httpFindCrlf (span : Bytes) : Option Nat := findFirst crlf span

def memchr (c : UInt8) (span : Bytes) : Option Nat := span.findIdx? (· == c)

def httpAsciiEqualsIgnoreCase (left right : Bytes) : Bool := left.map toLower == right.map toLower

def httpTrimSpan (span : Bytes) : Bytes := trimBoth isSpace span

def httpCopySpan (destinationSize : Nat) (span fieldName : Bytes) : Except Bytes Bytes :=
  if span.length = 0 then .error (ascii "missing " ++ fieldName)
  else if destinationSize ≤ span.length then .error (fieldName ++ ascii " is too long")
  else .ok span

/-- The two tokens that the spaces of a request line set apart, and the rest. -/
def requestTokens (line : Bytes) : Except Bytes (Bytes × Bytes × Bytes) :=
  match memchr space line with
  | none => .error (ascii "request line is missing the path token")
  | some firstSpace =>
    let pathStart := line.drop (firstSpace + 1)
    match memchr space pathStart with
    | none => .error (ascii "request line is missing the HTTP version")
    | some secondSpace =>
      let versionStart := pathStart.drop (secondSpace + 1)
      if (memchr space versionStart).isSome then .error (ascii "request line has too many tokens")
      else .ok (line.take firstSpace, pathStart.take secondSpace, versionStart)

def httpParseRequestLine (line : Bytes) (request : HttpRequest) : Except Bytes HttpRequest := do
  let (methodSpan, pathSpan, versionSpan) ← requestTokens line
  let method ← httpCopySpan 16 methodSpan (ascii "HTTP method")
  let path ← httpCopySpan 128 pathSpan (ascii "request path")
  let version ← httpCopySpan 16 versionSpan (ascii "HTTP version")
  if cString version ≠ ascii "HTTP/1.1" ∧ cString version ≠ ascii "HTTP/1.0" then
    .error (ascii "unsupported HTTP version: " ++ cString version)
  else if path.head? ≠ some 47 then .error (ascii "request path must start with '/'")
  else .ok { request with method, path, version }

def parseDigits (parsedValue : Nat) : Bytes → Except Bytes Nat
  | [] => .ok parsedValue
  | character :: rest =>
    if isDigit character = false then .error (ascii "Content-Length must be a decimal number")
    else if (SIZE_MAX - (character.toNat - 48)) / 10 < parsedValue then
      .error (ascii "Content-Length is too large")
    else parseDigits (parsedValue * 10 + (character.toNat - 48)) rest

def httpParseContentLength (value : Bytes) : Except Bytes Nat :=
  match httpTrimSpan value with
  | [] => .error (ascii "Content-Length header is empty")
  | digits => parseDigits 0 digits

structure HeaderState where
  request : HttpRequest
  sawContentLength : Bool
  sawContentType : Bool
  sawDebugSleepMs : Bool
deriving DecidableEq

def parseContentLengthHeader (state : HeaderState) (value : Bytes) : Except Bytes HeaderState := do
  if state.sawContentLength then .error (ascii "duplicate Content-Length header")
  else
    let contentLength ← httpParseContentLength value
    return { state with
      request := { state.request with contentLength }
      sawContentLength := true }

def parseContentTypeHeader (state : HeaderState) (value : Bytes) : Except Bytes HeaderState := do
  if state.sawContentType then .error (ascii "duplicate Content-Type header")
  else if value.length = 0 then return { state with sawContentType := true }
  else
    let contentType ← httpCopySpan 64 value (ascii "Content-Type")
    return { state with
      request := { state.request with contentType }
      sawContentType := true }

def parseDebugSleepMsHeader (state : HeaderState) (value : Bytes) : Except Bytes HeaderState := do
  if state.sawDebugSleepMs then .error (ascii "duplicate X-Debug-Sleep-Ms header")
  else
    let debugSleepMs ← httpCopySpan 16 value (ascii "X-Debug-Sleep-Ms")
    return { state with
      request := { state.request with debugSleepMs, debugSleepMsPresent := true }
      sawDebugSleepMs := true }

def parseHeader (state : HeaderState) (name value : Bytes) : Except Bytes HeaderState :=
  if name.length = 0 then .error (ascii "header name is empty")
  else if httpAsciiEqualsIgnoreCase name (ascii "Content-Length") then
    parseContentLengthHeader state value
  else if httpAsciiEqualsIgnoreCase name (ascii "Content-Type") then
    parseContentTypeHeader state value
  else if httpAsciiEqualsIgnoreCase name (ascii "X-Debug-Sleep-Ms") then
    parseDebugSleepMsHeader state value
  else if httpAsciiEqualsIgnoreCase name (ascii "Transfer-Encoding") then
    .error (ascii "Transfer-Encoding is not supported")
  else .ok state

def parseHeaderLine (state : HeaderState) (line : Bytes) : Except Bytes HeaderState :=
  if line.length = 0 then .ok state
  else
    match memchr 58 line with
    | none => .error (ascii "header is missing ':' separator")
    | some colon =>
      parseHeader state (httpTrimSpan (line.take colon)) (httpTrimSpan (line.drop (colon + 1)))

/-- The loop over the lines; the last one is what no CRLF ends. -/
def parseHeaderLines (state : HeaderState) : List Bytes → Except Bytes HeaderState
  | [] => .ok state
  | [rest] =>
    if rest.length = 0 then .ok state
    else .error (ascii "header line is not terminated with CRLF")
  | line :: lines => do
    let state ← parseHeaderLine state line
    parseHeaderLines state lines

def httpParseHeaders (headers : Bytes) (request : HttpRequest) : Except Bytes HttpRequest :=
  (parseHeaderLines
    { request
      sawContentLength := false
      sawContentType := false
      sawDebugSleepMs := false } (splitLines headers)).map HeaderState.request

/-- The head of the buffer read into a fresh request, with the length of the head. -/
def parseHead (buffer : Bytes) : Except Bytes (HttpRequest × Nat) :=
  match httpFindHeaderEnd buffer with
  | none => .error (ascii "request headers are incomplete")
  | some headerLength =>
    match httpFindCrlf (buffer.take headerLength) with
    | none => .error (ascii "request line is missing CRLF")
    | some requestLineEnd => do
      let request ← httpParseRequestLine (buffer.take requestLineEnd) emptyRequest
      let headers := (buffer.take (headerLength - 2)).drop (requestLineEnd + 2)
      let request ← httpParseHeaders headers request
      return (request, headerLength)

structure HttpHeadMetadata where
  headerLength : Nat
  contentLength : Nat
deriving DecidableEq

def httpExtractHeadMetadata (buffer : Bytes) : Except Bytes HttpHeadMetadata := do
  let (request, headerLength) ← parseHead buffer
  return { headerLength, contentLength := request.contentLength }

inductive HttpProbeResult where
  | invalid (error : Bytes)
  | incomplete
  | complete
deriving DecidableEq

/-- The verdict of a probe, and the request length it sets. -/
structure HttpProbe where
  result : HttpProbeResult
  requestLength : Nat
deriving DecidableEq

def effectiveMax (maxRequestBytes : Nat) : Nat :=
  if maxRequestBytes = 0 then HTTP_DEFAULT_MAX_REQUEST_BYTES else maxRequestBytes

/-- The verdict on a head that has come. -/
def probeHead (maxBytes bufferLength : Nat) : Except Bytes HttpHeadMetadata → HttpProbe
  | .error error => { result := .invalid error, requestLength := 0 }
  | .ok metadata =>
    if SIZE_MAX - metadata.contentLength < metadata.headerLength then
      { result := .invalid (ascii "request size overflows the platform limit"), requestLength := 0 }
    else
      let requestLength := metadata.headerLength + metadata.contentLength
      if maxBytes < requestLength then { result := .incomplete, requestLength }
      else if requestLength ≤ bufferLength then { result := .complete, requestLength }
      else { result := .incomplete, requestLength }

def httpRequestProbe (buffer : Bytes) (maxRequestBytes : Nat) : HttpProbe :=
  if effectiveMax maxRequestBytes < buffer.length then
    { result := .invalid (ascii "request exceeds configured size limit"), requestLength := 0 }
  else
    match httpFindHeaderEnd buffer with
    | none => { result := .incomplete, requestLength := 0 }
    | some _ =>
      probeHead (effectiveMax maxRequestBytes) buffer.length (httpExtractHeadMetadata buffer)

def httpParseRequest (buffer : Bytes) : Except Bytes HttpRequest := do
  let (request, headerLength) ← parseHead buffer
  if buffer.length - headerLength < request.contentLength then
    .error (ascii "request body is incomplete")
  else return { request with body := (buffer.drop headerLength).take request.contentLength }

def httpContentTypeIsSql (contentType : Bytes) : Bool :=
  match cString contentType with
  | [] => true
  | text =>
    match httpTrimSpan (text.takeWhile (· != 59)) with
    | [] => true
    | value =>
      httpAsciiEqualsIgnoreCase value (ascii "text/plain") ||
        httpAsciiEqualsIgnoreCase value (ascii "application/sql")

end DbApi.Http
