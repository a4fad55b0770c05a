import DbApi.Library.Slots
import DbApi.Library.Except
import DbApi.Library.Decimal
import DbApi.Library.Crlf

namespace DbApi.Http

open DbApi.Library

/-- A string of the program: its bytes before the NUL. -/
@[ext] structure CString where
  bytes : Bytes
  no_nul : nul ∉ bytes
deriving DecidableEq

def CString.of (buffer : Bytes) : CString := ⟨cString buffer, cString_no_nul buffer⟩

/-- The characters of an allocated block, `none` where none is written yet. -/
abbrev Block := List (Option UInt8)

def malloc (size : Nat) : Block := List.replicate size none

/-- What `%s` prints of a block. -/
def Block.string : Block → Option Bytes
  | [] => none
  | none :: _ => none
  | some b :: rest => if b = nul then some [] else (Block.string rest).map (b :: ·)

structure Writer where
  escaped : Block
  writeCursor : Nat
deriving DecidableEq

def Writer.put (w : Writer) (b : UInt8) : Except BoundsFault Writer := do
  let escaped ← store w.escaped w.writeCursor (some b)
  return { escaped, writeCursor := w.writeCursor + 1 }

def Writer.puts (w : Writer) (text : Bytes) : Except BoundsFault Writer := text.foldlM Writer.put w

/-- The `snprintf` of a control character ends in a NUL behind the moved cursor. -/
def Writer.putCode (w : Writer) (b : UInt8) : Except BoundsFault Writer := do
  let digits := (Nat.toDigits 16 b.toNat).map fun c => c.toNat.toUInt8
  let written ← w.puts (ascii "\\u" ++ digits.leftpad 4 48 ++ [nul])
  return { written with writeCursor := w.writeCursor + 6 }

/-- The bytes of `"`, `\`, BS, FF, LF, CR and TAB, which are written behind a backslash. -/
def shortEscapes : Bytes := [34, 92, 8, 12, 10, 13, 9]

def escapedLength (input : Bytes) : Nat :=
  (input.map fun b => if b ∈ shortEscapes then 2 else if b < 0x20 then 6 else 1).sum

def writeEscaped (w : Writer) (b : UInt8) : Except BoundsFault Writer :=
  if b = 34 then w.puts (ascii "\\\"")
  else if b = 92 then w.puts (ascii "\\\\")
  else if b = 8 then w.puts (ascii "\\b")
  else if b = 12 then w.puts (ascii "\\f")
  else if b = 10 then w.puts (ascii "\\n")
  else if b = 13 then w.puts (ascii "\\r")
  else if b = 9 then w.puts (ascii "\\t")
  else if b < 0x20 then w.putCode b
  else w.put b

def httpJsonEscape (input : CString) : Except BoundsFault Block := do
  let escaped := malloc (escapedLength input.bytes + 1)
  let w ← input.bytes.foldlM writeEscaped { escaped, writeCursor := 0 }
  let w ← w.put nul
  return w.escaped

/-- Why there is no response: a write outside its block, a block without a string, or an
error that is reported. -/
inductive BuildFailure where
  | outside (fault : BoundsFault)
  | unwritten
  | reported (error : Bytes)
deriving DecidableEq

def INT_MAX : Nat := 2147483647

/-- `snprintf` into no buffer: how long the text is, where an `int` can say so. -/
def formatLength (text : Bytes) : Option Nat := if text.length ≤ INT_MAX then some text.length else none

/-- A text measured, allocated for, and printed again. -/
def printed (text error : Bytes) : Except BuildFailure Bytes :=
  match formatLength text with
  | none => .error (.reported error)
  | some size => .ok (clip (size + 1) text)

def escapedText (input : CString) : Except BuildFailure Bytes :=
  match httpJsonEscape input with
  | .error fault => .error (.outside fault)
  | .ok block =>
    match block.string with
    | some text => .ok text
    | none => .error .unwritten

def httpReasonPhrase (statusCode : Int) : Bytes :=
  if statusCode = 200 then ascii "OK"
  else if statusCode = 400 then ascii "Bad Request"
  else if statusCode = 404 then ascii "Not Found"
  else if statusCode = 405 then ascii "Method Not Allowed"
  else if statusCode = 413 then ascii "Payload Too Large"
  else if statusCode = 415 then ascii "Unsupported Media Type"
  else ascii "Internal Server Error"

def responseFormat (statusCode : Int) (jsonBody : Bytes) : Bytes :=
  ascii "HTTP/1.1 " ++ decimal statusCode ++ ascii " " ++ httpReasonPhrase statusCode ++ crlf ++
  ascii "Content-Type: application/json" ++ crlf ++
  ascii "Content-Length: " ++ decimalNat jsonBody.length ++ crlf ++
  ascii "Connection: close" ++ crlf ++
  crlf ++
  jsonBody

def httpWrapJsonResponse (statusCode : Int) (jsonBody : CString) : Except BuildFailure Bytes :=
  printed (responseFormat statusCode jsonBody.bytes) (ascii "failed to calculate HTTP response size")

def healthBody : CString := .of <|
  ascii "\x7b\"ok\":true,\"path\":\"/health\",\"status_code\":200,\"message\":\"server is healthy\"\x7d"

def httpBuildHealthResponse : Except BuildFailure Bytes := httpWrapJsonResponse 200 healthBody

def queryErrorFormat (path : Bytes) (statusCode : Int) (errorCode message : Bytes)
    (affectedRows : Int) (outputText : Bytes) : Bytes :=
  ascii "\x7b\"ok\":false,\"path\":\"" ++ path ++ ascii "\",\"status_code\":" ++
  decimal statusCode ++ ascii ",\"error_code\":\"" ++ errorCode ++ ascii "\",\"message\":\"" ++
  message ++ ascii "\",\"affected_rows\":" ++ decimal affectedRows ++
  ascii ",\"output_text\":\"" ++ outputText ++ ascii "\"\x7d"

def queryFormat (path : Bytes) (statusCode : Int) (message : Bytes) (affectedRows : Int)
    (outputText : Bytes) : Bytes :=
  ascii "\x7b\"ok\":true,\"path\":\"" ++ path ++ ascii "\",\"status_code\":" ++
  decimal statusCode ++ ascii ",\"message\":\"" ++ message ++ ascii "\",\"affected_rows\":" ++
  decimal affectedRows ++ ascii ",\"output_text\":\"" ++ outputText ++ ascii "\"\x7d"

def errorFormat (path : Bytes) (statusCode : Int) (errorCode message : Bytes) : Bytes :=
  ascii "\x7b\"ok\":false,\"path\":\"" ++ path ++ ascii "\",\"status_code\":" ++
  decimal statusCode ++ ascii ",\"error_code\":\"" ++ errorCode ++ ascii "\",\"message\":\"" ++
  message ++ ascii "\"\x7d"

/-- An argument that may be `NULL`. -/
def orDefault (text : Option CString) (default : CString) : CString := text.getD default

def emptyText : CString := ⟨[], List.not_mem_nil⟩

def queryFailed : CString := ⟨ascii "query_failed", by decide⟩

def internalError : CString := ⟨ascii "internal_error", by decide⟩

def queryJson (ok : Bool) (statusCode : Int) (errorCode : Option CString)
    (escapedPath escapedMessage : Bytes) (affectedRows : Int) (escapedOutput : Bytes) :
    Except BuildFailure Bytes := do
  if ok then
    return queryFormat escapedPath statusCode escapedMessage affectedRows escapedOutput
  else
    let escapedErrorCode ← escapedText (orDefault errorCode queryFailed)
    return queryErrorFormat escapedPath statusCode escapedErrorCode escapedMessage affectedRows
      escapedOutput

def httpBuildQueryResponse (ok : Bool) (statusCode : Int) (path errorCode message : Option CString)
    (affectedRows : Int) (outputText : Option CString) : Except BuildFailure Bytes := do
  let escapedPath ← escapedText (orDefault path emptyText)
  let escapedMessage ← escapedText (orDefault message emptyText)
  let escapedOutput ← escapedText (orDefault outputText emptyText)
  let text ← queryJson ok statusCode errorCode escapedPath escapedMessage affectedRows escapedOutput
  let jsonBody ← printed text (ascii "failed to calculate query JSON payload size")
  httpWrapJsonResponse statusCode (.of jsonBody)

def httpBuildErrorResponse (statusCode : Int) (path errorCode message : Option CString) :
    Except BuildFailure Bytes := do
  let escapedPath ← escapedText (orDefault path emptyText)
  let escapedErrorCode ← escapedText (orDefault errorCode internalError)
  let escapedMessage ← escapedText (orDefault message emptyText)
  let text := errorFormat escapedPath statusCode escapedErrorCode escapedMessage
  let jsonBody ← printed text (ascii "failed to calculate error JSON payload size")
  httpWrapJsonResponse statusCode (.of jsonBody)

end DbApi.Http
