import DbApi.Http.RequestLog
import DbApi.Concurrency.JobQueue

namespace DbApi.Runtime
open Library Http Concurrency

inductive RuntimeEvent where
  | assigned
  | finished
deriving DecidableEq

def RuntimeEvent.name : RuntimeEvent → Bytes
  | .assigned => "스레드 할당".toList.flatMap String.utf8EncodeChar
  | .finished => "작업 종료".toList.flatMap String.utf8EncodeChar

def concurrencyJobResultName : ConcurrencyJobResult → Bytes
  | .ok => ascii "ok"
  | .failed => ascii "failed"
  | .cancelled => ascii "cancelled"
  | .rejected => ascii "rejected"

def runtimeLogEvent (trace : HttpRequestTrace) (event : RuntimeEvent) (workerIndex : Int)
    (result : Option ConcurrencyJobResult) (runStatus : Int) : Bytes :=
  let statusText := if 0 < trace.statusCode then clip 16 (decimal trace.statusCode) else ascii "-"
  let resultText := (result.map concurrencyJobResultName).getD (ascii "-")
  ascii "[RUNTIME] | req_id=" ++ decimalNat trace.reqId ++ ascii " | event=" ++ event.name ++
    ascii " | thread=" ++ decimal workerIndex ++ ascii " | method=" ++ shown trace.method ++
    ascii " | path=" ++ shown trace.path ++ ascii " | status=" ++ statusText ++
    ascii " | result=" ++ resultText ++ ascii " | run_status=" ++ decimal runStatus ++
    ascii " |\n"

def assignClientJob (trace : HttpRequestTrace) (workerIndex : Int) : Bytes × HttpRequestTrace :=
  let trace := { trace with workerIndex }
  (runtimeLogEvent trace .assigned workerIndex none 0, trace)

def notifyClientJob (trace : HttpRequestTrace) (result : ConcurrencyJobResult)
    (workerIndex runStatus : Int) : Bytes :=
  runtimeLogEvent trace .finished workerIndex (some result) runStatus

/-- The lines of the job that serves a request, on the worker that takes it. -/
def clientJobLog (reqId nextRequestId : Nat) (workerIndex : Int) (request : HttpRequest)
    (responseStatusCode : Int) (result : ConcurrencyJobResult) (runStatus : Int) : List Bytes :=
  let (assigned, trace) := assignClientJob { httpRequestTraceInit with reqId } workerIndex
  let (lines, handled) :=
    handledRequestLog nextRequestId workerIndex (some trace) request responseStatusCode
  assigned :: lines ++
    [notifyClientJob (handled.getD trace) result workerIndex runStatus]

end DbApi.Runtime
