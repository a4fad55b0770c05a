import DbApi.Http.Server
import DbApi.Library.Unsigned

namespace DbApi.Http.Sized

open DbApi.Library

/-! The request lengths in a `size_t` of `w` bits. An outer `none` stands for a computation
that wraps around. -/

def parseDigits (w parsedValue : Nat) : Bytes → Option (Except Bytes Nat)
  | [] => some (.ok parsedValue)
  | character :: rest =>
    if isDigit character = false then
      some (.error (ascii "Content-Length must be a decimal number"))
    else do
      let left ← subUnsigned (maxUnsigned w) (character.toNat - 48)
      if left / 10 < parsedValue then some (.error (ascii "Content-Length is too large"))
      else
        let shifted ← mulUnsigned w parsedValue 10
        let parsedValue ← addUnsigned w shifted (character.toNat - 48)
        parseDigits w parsedValue rest

def httpParseContentLength (w : Nat) (value : Bytes) : Option (Except Bytes Nat) :=
  match httpTrimSpan value with
  | [] => some (.error (ascii "Content-Length header is empty"))
  | digits => parseDigits w 0 digits

def parseContentLengthHeader (w : Nat) (state : HeaderState) (value : Bytes) :
    Option (Except Bytes HeaderState) :=
  if state.sawContentLength then some (.error (ascii "duplicate Content-Length header"))
  else
    (httpParseContentLength w value).map fun read =>
      read.map fun contentLength =>
        { state with
          request := { state.request with contentLength }
          sawContentLength := true }

/-- The other headers take no part in the arithmetic. -/
def parseHeader (w : Nat) (state : HeaderState) (name value : Bytes) :
    Option (Except Bytes HeaderState) :=
  if httpAsciiEqualsIgnoreCase name (ascii "Content-Length") then
    parseContentLengthHeader w state value
  else some (Http.parseHeader state name value)

def parseHeaderLine (w : Nat) (state : HeaderState) (line : Bytes) :
    Option (Except Bytes HeaderState) :=
  if line.length = 0 then some (.ok state)
  else
    match memchr 58 line with
    | none => some (.error (ascii "header is missing ':' separator"))
    | some colon =>
      parseHeader w state (httpTrimSpan (line.take colon)) (httpTrimSpan (line.drop (colon + 1)))

/-- The next part of a reading, after one that did not fail. -/
def andThen {α β : Type} (read : Option (Except Bytes α)) (next : α → Option (Except Bytes β)) :
    Option (Except Bytes β) :=
  read.bind fun
    | .error error => some (.error error)
    | .ok a => next a

def parseHeaderLines (w : Nat) (state : HeaderState) : List Bytes → Option (Except Bytes HeaderState)
  | [] => some (.ok state)
  | [rest] =>
    if rest.length = 0 then some (.ok state)
    else some (.error (ascii "header line is not terminated with CRLF"))
  | line :: lines =>
    andThen (parseHeaderLine w state line) fun state => parseHeaderLines w state lines

def parseHead (w : Nat) (buffer : Bytes) : Option (Except Bytes (HttpRequest × Nat)) :=
  match httpFindHeaderEnd buffer with
  | none => some (.error (ascii "request headers are incomplete"))
  | some headerLength =>
    match httpFindCrlf (buffer.take headerLength) with
    | none => some (.error (ascii "request line is missing CRLF"))
    | some requestLineEnd =>
      andThen (some (httpParseRequestLine (buffer.take requestLineEnd) emptyRequest)) fun request =>
        let headers := (buffer.take (headerLength - 2)).drop (requestLineEnd + 2)
        andThen (parseHeaderLines w
          { request
            sawContentLength := false
            sawContentType := false
            sawDebugSleepMs := false } (splitLines headers)) fun state =>
          some (.ok (state.request, headerLength))

/-- The constants are converted to a `size_t`. -/
def effectiveMax (w maxRequestBytes : Nat) : Nat :=
  if maxRequestBytes = 0 then HTTP_DEFAULT_MAX_REQUEST_BYTES % 2 ^ w else maxRequestBytes

def probeHead (w maxBytes bufferLength : Nat) :
    Except Bytes (HttpRequest × Nat) → Option HttpProbe
  | .error error => some { result := .invalid error, requestLength := 0 }
  | .ok (request, headerLength) => do
    let left ← subUnsigned (maxUnsigned w) request.contentLength
    if left < headerLength then
      some
        { result := .invalid (ascii "request size overflows the platform limit")
          requestLength := 0 }
    else
      let requestLength ← addUnsigned w headerLength request.contentLength
      if maxBytes < requestLength then some { result := .incomplete, requestLength }
      else if requestLength ≤ bufferLength then some { result := .complete, requestLength }
      else some { result := .incomplete, requestLength }

def httpRequestProbe (w : Nat) (buffer : Bytes) (maxRequestBytes : Nat) : Option HttpProbe :=
  if effectiveMax w maxRequestBytes < buffer.length then
    some { result := .invalid (ascii "request exceeds configured size limit"), requestLength := 0 }
  else
    match httpFindHeaderEnd buffer with
    | none => some { result := .incomplete, requestLength := 0 }
    | some _ => (parseHead w buffer).bind (probeHead w (effectiveMax w maxRequestBytes) buffer.length)

/-- The size of the allocation for the body is computed, too. -/
def httpParseRequest (w : Nat) (buffer : Bytes) : Option (Except Bytes HttpRequest) :=
  andThen (parseHead w buffer) fun (request, headerLength) => do
    let left ← subUnsigned buffer.length headerLength
    if left < request.contentLength then some (.error (ascii "request body is incomplete"))
    else
      let _size ← addUnsigned w request.contentLength 1
      some (.ok { request with body := (buffer.drop headerLength).take request.contentLength })

/-- The doubling of the capacity; `none`, too, where it does not stop within `rounds`. -/
def growCapacity (w : Nat) : Nat → Nat → Nat → Nat → Option Nat
  | 0, _, _, _ => none
  | rounds + 1, newCapacity, minimumCapacity, maximumCapacity =>
    if newCapacity < minimumCapacity then
      if maximumCapacity ≤ newCapacity then some maximumCapacity
      else if maximumCapacity / 2 < newCapacity then
        growCapacity w rounds maximumCapacity minimumCapacity maximumCapacity
      else do
        let newCapacity ← mulUnsigned w newCapacity 2
        growCapacity w rounds newCapacity minimumCapacity maximumCapacity
    else some newCapacity

/-- The capacity that `realloc` gets, if any. -/
def httpGrowBuffer (w rounds capacity minimumCapacity maximumCapacity : Nat) :
    Option (Option Nat) :=
  let newCapacity := if capacity = 0 then HTTP_RECEIVE_CHUNK_BYTES % 2 ^ w else capacity
  (growCapacity w rounds newCapacity minimumCapacity maximumCapacity).map fun newCapacity =>
    if newCapacity < minimumCapacity then none else some newCapacity

end DbApi.Http.Sized
