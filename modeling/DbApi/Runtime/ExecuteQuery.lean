import DbApi.Core.EngineApi
import DbApi.Http.Server

namespace DbApi.Runtime
open Library Common Storage Index Http DbApi.Core

def clampAffectedRows (affectedRows : Int) : Int :=
  if intMax < affectedRows then intMax
  else if affectedRows < intMin then intMin
  else affectedRows

def coreRequest (dirs : Directories) (sql : CString) : ServerCoreRequest := { sql, dirs }

/-- The program runs between the acquire and the release of the lock. -/
def runtimeExecuteQuery (dirs : Directories) (sql : CString) : Program Database Execution := do
  let (status, coreResult) ←
    serverCoreExecute (some serverCoreWeek8EngineRun) (coreRequest dirs sql)
  if status ≠ .ok then
    return {
      returned := false
      result := { ok := false, affectedRows := 0, message := none, outputText := none }
      error := (coreResult.message.map CString.bytes).getD (serverCoreStatusString status) }
  else
    return {
      returned := true
      result := {
        ok := coreResult.ok
        affectedRows := clampAffectedRows coreResult.affectedRows
        message := coreResult.message
        outputText := coreResult.outputText }
      error := [] }

/-- The callbacks that the runtime gives to the server; a cleanup frees two texts. -/
def runtimeDependencies (dirs : Directories) : HttpServerDependencies Database :=
  { executeQuery := some fun sql db => (runtimeExecuteQuery dirs sql).run db
    cleanupQueryResult := some fun _ db => db }

end DbApi.Runtime
