import DbApi.Execution.ResultTable
import DbApi.Http.Response
import DbApi.Sql.Parser

namespace DbApi.Core
open Library Storage Index Sql Execution Http

def serverCoreMessageCapacity : Nat := 512

def serverCoreAffectedRowsUnknown : Int := -1

/-- The two paths stand for the directories they name. -/
structure ServerCoreRequest where
  sql : CString
  dirs : Directories

/-- What a run of the engine returns, leaves in `affected_rows` and in the
message buffer, and writes to `out`. -/
structure EngineRun where
  ok : Bool
  affectedRows : Int
  messageBuffer : Bytes
  output : Bytes
deriving DecidableEq

def engineFailure (error : Bytes) : EngineRun :=
  { ok := false
    affectedRows := 0
    messageBuffer := clip serverCoreMessageCapacity error
    output := [] }

def serverCoreWeek8EngineRun (request : ServerCoreRequest) : Program Database EngineRun :=
  match lexSql request.sql.bytes with
  | .error error => return engineFailure error
  | .ok tokens =>
    match parseStatement tokens with
    | .error message => return engineFailure message
    | .ok statement => do
      let result ← executeStatement statement request.dirs
      return {
        ok := result.ok
        affectedRows := result.affectedRows
        messageBuffer := clip serverCoreMessageCapacity result.message
        output := (result.table.map printResultTable).getD [] }

/-- The statuses that do not report a failed allocation or a failed stream. -/
inductive ServerCoreStatus where
  | ok
  | invalidArgument
  | engineNotConfigured
deriving DecidableEq

def serverCoreStatusString : ServerCoreStatus → Bytes
  | .ok => ascii "ok"
  | .invalidArgument => ascii "invalid argument"
  | .engineNotConfigured => ascii "engine not configured"

structure ServerCoreResult where
  ok : Bool
  affectedRows : Int
  message : Option CString
  outputText : Option CString
deriving DecidableEq

def serverCorePopulateSystemError (status : ServerCoreStatus) (message : Bytes) :
    ServerCoreStatus × ServerCoreResult :=
  (status,
    { ok := false
      affectedRows := serverCoreAffectedRowsUnknown
      message := some (.of message)
      outputText := some (.of []) })

/-- The text that stands in for an empty message buffer. -/
def messageText (run : EngineRun) : Bytes :=
  if cString run.messageBuffer ≠ [] then run.messageBuffer
  else if run.ok then ascii "ok"
  else ascii "engine execution failed"

def serverCoreExecute (engine : Option (ServerCoreRequest → Program Database EngineRun))
    (request : ServerCoreRequest) : Program Database (ServerCoreStatus × ServerCoreResult) :=
  match engine with
  | none =>
    return serverCorePopulateSystemError .engineNotConfigured
      (ascii "engine callback is not configured")
  | some run =>
    if request.sql.bytes = [] then
      return serverCorePopulateSystemError .invalidArgument (ascii "request.sql must not be empty")
    else do
      let run ← run request
      return (.ok,
        { ok := run.ok
          affectedRows := run.affectedRows
          message := some (.of (messageText run))
          outputText := some (.of run.output) })

end DbApi.Core
