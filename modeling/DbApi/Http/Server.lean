import DbApi.Http.Protocol
import DbApi.Http.Response

namespace DbApi.Http

open DbApi.Library

def HTTP_RECEIVE_CHUNK_BYTES : Nat := 4096

def HTTP_DEBUG_SLEEP_MAX_MS : Nat := 10000

/-- What comes over the connection: bytes that arrive together, a signal that interrupts
the wait for them, or a failure. -/
inductive Arrival where
  | bytes (first : UInt8) (more : Bytes)
  | interrupted
  | failed
deriving DecidableEq

/-- A client, which after its arrivals closes the connection or stays silent. -/
structure Client where
  arrivals : List Arrival
  closes : Bool
deriving DecidableEq

inductive Received where
  | bytes (chunk : Bytes)
  | interrupted
  | failed
deriving DecidableEq

/-- `recv` into `room` bytes; `none` where it waits for a silent client. -/
def recv (room : Nat) (client : Client) : Option (Received × Client) :=
  if room = 0 then some (.bytes [], client)
  else
    match client.arrivals with
    | [] => if client.closes then some (.bytes [], client) else none
    | .interrupted :: arrivals => some (.interrupted, { client with arrivals })
    | .failed :: arrivals => some (.failed, { client with arrivals })
    | .bytes first more :: arrivals =>
      let chunk := first :: more.take (room - 1)
      match more.drop (room - 1) with
      | [] => some (.bytes chunk, { client with arrivals })
      | next :: rest => some (.bytes chunk, { client with arrivals := .bytes next rest :: arrivals })

/-- The doubling of the capacity, at most `rounds` times. -/
def growCapacity : Nat → Nat → Nat → Nat → Nat
  | 0, newCapacity, _, _ => newCapacity
  | rounds + 1, newCapacity, minimumCapacity, maximumCapacity =>
    if newCapacity < minimumCapacity then
      if maximumCapacity ≤ newCapacity then maximumCapacity
      else if maximumCapacity / 2 < newCapacity then
        growCapacity rounds maximumCapacity minimumCapacity maximumCapacity
      else growCapacity rounds (newCapacity * 2) minimumCapacity maximumCapacity
    else newCapacity

/-- The capacity that `realloc` gets; `none` where the limit forbids it. -/
def httpGrowBuffer (capacity minimumCapacity maximumCapacity : Nat) : Option Nat :=
  let newCapacity := if capacity = 0 then HTTP_RECEIVE_CHUNK_BYTES else capacity
  let newCapacity := growCapacity (minimumCapacity + 1) newCapacity minimumCapacity maximumCapacity
  if newCapacity < minimumCapacity then none else some newCapacity

/-- Addition in `size_t`. -/
def sizeAdd (a b : Nat) : Nat := (a + b) % (SIZE_MAX + 1)

structure Reception where
  requestBuffer : Bytes
  bufferCapacity : Nat
  client : Client
deriving DecidableEq

/-- How the reading of a request ends. -/
inductive ReceiveEnd (α : Type) where
  | waiting
  | closed
  | rejected (statusCode : Int) (errorCode message : CString)
  | complete (request : α)
deriving DecidableEq

def text (s : String) : CString := .of (ascii s)

/-- The 256 characters of an error buffer. -/
def errorText (error : Bytes) : CString := .of (clip 256 error)

def payloadTooLarge {α : Type} : ReceiveEnd α :=
  .rejected 413 (text "payload_too_large") (text "request exceeds the configured size limit")

def invalidRequest {α : Type} (error : Bytes) : ReceiveEnd α :=
  .rejected 400 (text "invalid_request") (errorText error)

/-- What the receive loop makes of a probe: an end, or another round. -/
def judgeProbe (maxRequestBytes : Nat) (probe : HttpProbe) : Option (ReceiveEnd Nat) :=
  if maxRequestBytes < probe.requestLength then some payloadTooLarge
  else
    match probe.result with
    | .invalid error => some (invalidRequest error)
    | .complete => some (.complete probe.requestLength)
    | .incomplete => none

/-- One round of the receive loop. -/
def receiveRound (maxRequestBytes : Nat) (reception : Reception) :
    Reception × Option (ReceiveEnd Nat) :=
  let bufferLength := reception.requestBuffer.length
  match httpGrowBuffer reception.bufferCapacity (sizeAdd bufferLength 1) maxRequestBytes with
  | none =>
    if maxRequestBytes ≤ bufferLength then (reception, some payloadTooLarge)
    else
      (reception, some (.rejected 500 (text "allocation_failed")
        (text "failed to allocate the request buffer")))
  | some bufferCapacity =>
    match recv (bufferCapacity - bufferLength) reception.client with
    | none => ({ reception with bufferCapacity }, some .waiting)
    | some (.interrupted, client) => ({ reception with bufferCapacity, client }, none)
    | some (.failed, client) =>
      ({ reception with bufferCapacity, client }, some (.rejected 500 (text "read_failed")
        (text "failed to read the client request")))
    | some (.bytes [], client) =>
      ({ reception with bufferCapacity, client }, some <|
        if bufferLength = 0 then .closed
        else .rejected 400 (text "incomplete_request")
          (text "client closed the connection before the request completed"))
    | some (.bytes chunk, client) =>
      let requestBuffer := reception.requestBuffer ++ chunk
      ({ requestBuffer, bufferCapacity, client },
        judgeProbe maxRequestBytes (httpRequestProbe requestBuffer maxRequestBytes))

def Arrival.weight : Arrival → Nat
  | .bytes _ more => more.length + 1
  | .interrupted => 1
  | .failed => 1

/-- What is still to come from a client. -/
def Client.weight (client : Client) : Nat := (client.arrivals.map Arrival.weight).sum

/-- A read that goes on takes something from what is to come. -/
theorem recv_weight {room : Nat} {client next : Client} {received : Received}
    (h : recv room client = some (received, next)) (hb : received ≠ .bytes []) :
    next.weight < client.weight := by
  obtain ⟨arrivals, closes⟩ := client
  rw [recv] at h
  split at h
  · cases h
    exact absurd rfl hb
  · split at h
    · split at h <;> cases h
      exact absurd rfl hb
    · cases h
      simp_all [Client.weight, Arrival.weight]
    · cases h
      simp_all [Client.weight, Arrival.weight]
    · rename_i first more arrivals heq
      subst heq
      dsimp only at h
      split at h
      · cases h
        simp [Client.weight, Arrival.weight]
      · rename_i b rest hrest
        cases h
        have := congrArg List.length hrest
        simp only [List.length_drop, List.length_cons] at this
        simp only [Client.weight, Arrival.weight, List.map_cons, List.sum_cons]
        omega

theorem receiveRound_weight {maxRequestBytes : Nat} {reception next : Reception}
    (h : receiveRound maxRequestBytes reception = (next, none)) :
    next.client.weight < reception.client.weight := by
  rw [receiveRound] at h
  split at h
  · split at h <;> cases h
  · split at h
    · cases h
    · rename_i hrecv
      cases h
      exact recv_weight hrecv (by simp)
    · cases h
    · cases h
    · rename_i hchunk hrecv
      obtain ⟨rfl, -⟩ := Prod.mk.inj h
      exact recv_weight hrecv (by simpa using hchunk)

/-- The receive loop, with what it leaves in the buffer. -/
def receiveLoop (maxRequestBytes : Nat) (reception : Reception) : Reception × ReceiveEnd Nat :=
  match h : receiveRound maxRequestBytes reception with
  | (next, none) => receiveLoop maxRequestBytes next
  | (next, some ending) => (next, ending)
termination_by reception.client.weight
decreasing_by exact receiveRound_weight h

def freshReception (client : Client) : Reception :=
  { requestBuffer := [], bufferCapacity := 0, client }

/-- A complete request is parsed once more. -/
def parseReceived (requestBuffer : Bytes) : ReceiveEnd Nat → ReceiveEnd HttpRequest
  | .waiting => .waiting
  | .closed => .closed
  | .rejected statusCode errorCode message => .rejected statusCode errorCode message
  | .complete requestLength =>
    match httpParseRequest (requestBuffer.take requestLength) with
    | .error error => invalidRequest error
    | .ok request => .complete request

/-- The request read from a client. -/
def receiveRequest (maxRequestBytes : Nat) (client : Client) : ReceiveEnd HttpRequest :=
  let (reception, ending) := receiveLoop maxRequestBytes (freshReception client)
  parseReceived reception.requestBuffer ending

/-- One call of `send` that does not take all of the rest. -/
inductive Sending where
  | took (count : Nat)
  | interrupted
  | failed
deriving DecidableEq

/-- What of the buffer is sent, and whether all of it; after the listed calls, the rest
goes out at once. -/
def httpSendAll : List Sending → Bytes → Bytes × Bool
  | _, [] => ([], true)
  | [], buffer => (buffer, true)
  | .interrupted :: sendings, buffer => httpSendAll sendings buffer
  | .failed :: _, _ => ([], false)
  | .took count :: sendings, buffer =>
    if count = 0 then ([], false)
    else
      let (sent, success) := httpSendAll sendings (buffer.drop count)
      (buffer.take count ++ sent, success)

/-- The calls that write a response. -/
inductive Answer where
  | health
  | error (statusCode : Int) (path errorCode message : CString)
  | query (ok : Bool) (statusCode : Int) (path : CString) (errorCode : Option CString)
      (message : CString) (affectedRows : Int) (outputText : Option CString)
deriving DecidableEq

def Answer.build : Answer → Except BuildFailure Bytes
  | .health => httpBuildHealthResponse
  | .error statusCode path errorCode message =>
    httpBuildErrorResponse statusCode (some path) (some errorCode) (some message)
  | .query ok statusCode path errorCode message affectedRows outputText =>
    httpBuildQueryResponse ok statusCode (some path) errorCode (some message) affectedRows outputText

structure HttpQueryResult where
  ok : Bool
  affectedRows : Int
  message : Option CString
  outputText : Option CString
deriving DecidableEq

/-- What a call of `execute_query` returns and leaves in its buffers. -/
structure Execution where
  returned : Bool
  result : HttpQueryResult
  error : Bytes
deriving DecidableEq

/-- The callbacks, over the states of the engine behind them; `none` where one is `NULL`. -/
structure HttpServerDependencies (σ : Type) where
  executeQuery : Option (CString → σ → Execution × σ)
  cleanupQueryResult : Option (HttpQueryResult → σ → σ)

/-- What the handling of a connection does. -/
inductive Effect where
  | executed (sql : CString) (execution : Execution)
  | answered (answer : Answer) (response sent : Bytes)
  | cleaned (result : HttpQueryResult)
  | closed
deriving DecidableEq

/-- A response is built and sent; nothing is sent of one that cannot be built. -/
def sendAnswer (sendings : List Sending) (answer : Answer) : List Effect × Bool :=
  match answer.build with
  | .error _ => ([], false)
  | .ok response =>
    let (sent, success) := httpSendAll sendings response
    ([.answered answer response sent], success)

def httpTextIsBlank (text : CString) : Bool := text.bytes.all isSpace

def parseSleep (parsedValue : Nat) : Bytes → Except Bytes Nat
  | [] => .ok parsedValue
  | character :: rest =>
    if isDigit character = false then
      .error (ascii "X-Debug-Sleep-Ms must be an integer between 0 and 10000")
    else if (HTTP_DEBUG_SLEEP_MAX_MS - (character.toNat - 48)) / 10 < parsedValue then
      .error (ascii "X-Debug-Sleep-Ms must be between 0 and 10000 milliseconds")
    else parseSleep (parsedValue * 10 + (character.toNat - 48)) rest

def httpParseDebugSleepMs (request : HttpRequest) : Except Bytes Nat :=
  if request.debugSleepMsPresent = false then .ok 0
  else
    match cString request.debugSleepMs with
    | [] => .error (ascii "X-Debug-Sleep-Ms must be an integer between 0 and 10000")
    | digits => parseSleep 0 digits

/-- The answer to an executed query. -/
def executionAnswer (path : CString) (execution : Execution) : Answer :=
  let result := execution.result
  if execution.returned = false then
    .error 500 path (text "query_execution_failed")
      (if (errorText execution.error).bytes = [] then text "query execution callback failed"
        else errorText execution.error)
  else if result.ok = false then
    .query false 400 path (some (text "query_failed"))
      (result.message.getD (text "query execution failed")) result.affectedRows result.outputText
  else
    .query true 200 path none (result.message.getD (text "query completed")) result.affectedRows
      result.outputText

/-- What a routed request leads to: an answer, or a statement to execute. -/
inductive Route (σ : Type) where
  | answer (answer : Answer)
  | execute (call : CString → σ → Execution × σ) (sql : CString)

variable {σ : Type}

/-- The callbacks as the router finds them. -/
def queryExecutor (dependencies : Option (HttpServerDependencies σ)) :
    Option (CString → σ → Execution × σ) :=
  dependencies.bind HttpServerDependencies.executeQuery

def routeHealth (request : HttpRequest) : Answer :=
  let path := CString.of request.path
  if cString request.method ≠ ascii "GET" then
    .error 405 path (text "method_not_allowed") (text "GET is required for /health")
  else if request.contentLength ≠ 0 then
    .error 400 path (text "invalid_body") (text "/health does not accept a request body")
  else .health

def routeQuery (request : HttpRequest) (dependencies : Option (HttpServerDependencies σ)) : Route σ :=
  let path := CString.of request.path
  let sql := CString.of request.body
  if cString request.method ≠ ascii "POST" then
    .answer (.error 405 path (text "method_not_allowed") (text "POST is required for /query"))
  else if httpContentTypeIsSql request.contentType = false then
    .answer (.error 415 path (text "unsupported_media_type") (text "/query expects a raw SQL body"))
  else if request.contentLength = 0 ∨ httpTextIsBlank sql = true then
    .answer (.error 400 path (text "invalid_body") (text "request body must contain a SQL statement"))
  else
    match queryExecutor dependencies with
    | none =>
      .answer (.error 500 path (text "missing_dependency")
        (text "query executor callback is not configured"))
    | some call =>
      match httpParseDebugSleepMs request with
      | .error error => .answer (.error 400 path (text "invalid_header") (errorText error))
      | .ok _ => .execute call sql

/-- The branches of the router on the path. -/
def route (request : HttpRequest) (dependencies : Option (HttpServerDependencies σ)) : Route σ :=
  if cString request.path = ascii "/health" then .answer (routeHealth request)
  else if cString request.path = ascii "/query" then routeQuery request dependencies
  else
    .answer (.error 404 (.of request.path) (text "path_not_found") (text "unsupported endpoint"))

/-- The handling of a request: what it does, whether it sends all of its response, and
the engine after it. -/
structure Handled (σ : Type) where
  effects : List Effect
  success : Bool
  engine : σ

def httpRouteRequest (request : HttpRequest) (dependencies : Option (HttpServerDependencies σ))
    (sendings : List Sending) (engine : σ) : Handled σ :=
  match route request dependencies with
  | .answer answer =>
    let (effects, success) := sendAnswer sendings answer
    { effects, success, engine }
  | .execute call sql =>
    let (execution, engine) := call sql engine
    let (answered, success) := sendAnswer sendings (executionAnswer (.of request.path) execution)
    match dependencies.bind HttpServerDependencies.cleanupQueryResult with
    | none => { effects := .executed sql execution :: answered, success, engine }
    | some cleanup =>
      { effects := .executed sql execution :: answered ++ [.cleaned execution.result]
        success
        engine := cleanup execution.result engine }

/-- `none` while the server waits for the rest of a request. -/
def httpServerHandleClient (config : Option Nat) (dependencies : Option (HttpServerDependencies σ))
    (client : Client) (sendings : List Sending) (engine : σ) : Option (Handled σ) :=
  match receiveRequest (effectiveMax (config.getD 0)) client with
  | .waiting => none
  | .closed => some { effects := [.closed], success := true, engine }
  | .rejected statusCode errorCode message =>
    some {
      effects := (sendAnswer sendings (.error statusCode (text "") errorCode message)).1 ++ [.closed]
      success := false
      engine }
  | .complete request =>
    let handled := httpRouteRequest request dependencies sendings engine
    some { handled with effects := handled.effects ++ [.closed] }

end DbApi.Http
