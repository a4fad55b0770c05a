import DbApi.Http.Protocol

namespace DbApi.Http

open DbApi.Library

structure HttpRequestTrace where
  reqId : Nat
  workerIndex : Int
  statusCode : Int
  contentLength : Nat
  method : Bytes
  path : Bytes
  debugSleepMs : Bytes
deriving DecidableEq

def httpRequestTraceInit : HttpRequestTrace where
  reqId := 0
  workerIndex := -1
  statusCode := 0
  contentLength := 0
  method := []
  path := []
  debugSleepMs := []

def httpTraceSetWorkerIndex (trace : HttpRequestTrace) (workerIndex : Int) : HttpRequestTrace :=
  if workerIndex < 0 then trace else { trace with workerIndex }

def httpTraceSetStatus (trace : HttpRequestTrace) (statusCode : Int) : HttpRequestTrace :=
  { trace with statusCode }

def httpTraceCopyRequest (trace : HttpRequestTrace) (request : HttpRequest) : HttpRequestTrace :=
  { trace with
    contentLength := request.contentLength
    method := clip 16 (cString request.method)
    path := clip 128 (cString request.path)
    debugSleepMs := if request.debugSleepMsPresent then clip 16 (cString request.debugSleepMs) else [] }

/-- A text in a log line, a dash where there is none. -/
def shown (buffer : Bytes) : Bytes :=
  match cString buffer with
  | [] => ascii "-"
  | text => text

inductive RequestEvent where
  | received
  | answered
deriving DecidableEq

def RequestEvent.name : RequestEvent → Bytes
  | .received => "요청 수신".toList.flatMap String.utf8EncodeChar
  | .answered => "응답 완료".toList.flatMap String.utf8EncodeChar

/-- `currentWorkerIndex` is the index of the thread, asked for where there is no trace. -/
def httpLogRequestEvent (reqId : Nat) (event : RequestEvent) (request : HttpRequest)
    (trace : Option HttpRequestTrace) (currentWorkerIndex statusCode : Int) : Bytes :=
  let workerIndex := match trace with
    | some trace => if 0 ≤ trace.workerIndex then trace.workerIndex else -1
    | none => currentWorkerIndex
  let statusText := if 0 < statusCode then clip 16 (decimal statusCode) else ascii "-"
  let workerText := if 0 ≤ workerIndex then clip 16 (decimal workerIndex) else ascii "-"
  let debugSleepMs := if request.debugSleepMsPresent then shown request.debugSleepMs else ascii "-"
  ascii "[HTTP] | req_id=" ++ decimalNat reqId ++ ascii " | event=" ++ event.name ++
    ascii " | thread=" ++ workerText ++ ascii " | method=" ++ shown request.method ++
    ascii " | path=" ++ shown request.path ++ ascii " | status=" ++ statusText ++
    ascii " | bytes=" ++ decimalNat request.contentLength ++
    ascii " | debug_sleep_ms=" ++ debugSleepMs ++ ascii " |\n"

/-- The trace before the request comes. -/
def startTrace (trace : HttpRequestTrace) (nextRequestId : Nat) (currentWorkerIndex : Int) :
    HttpRequestTrace :=
  let trace :=
    if trace.workerIndex < 0 then httpTraceSetWorkerIndex trace currentWorkerIndex else trace
  if trace.reqId = 0 then { trace with reqId := nextRequestId } else trace

/-- The lines that the handling of a parsed request writes, and the trace it leaves. -/
def handledRequestLog (nextRequestId : Nat) (currentWorkerIndex : Int)
    (trace : Option HttpRequestTrace) (request : HttpRequest) (responseStatusCode : Int) :
    List Bytes × Option HttpRequestTrace :=
  let trace := trace.map fun trace =>
    httpTraceCopyRequest (startTrace trace nextRequestId currentWorkerIndex) request
  let reqId := (trace.map HttpRequestTrace.reqId).getD nextRequestId
  let received := httpLogRequestEvent reqId .received request trace currentWorkerIndex 0
  let trace := trace.map fun trace => httpTraceSetStatus trace responseStatusCode
  let answered :=
    httpLogRequestEvent reqId .answered request trace currentWorkerIndex responseStatusCode
  ([received, answered], trace)

end DbApi.Http
