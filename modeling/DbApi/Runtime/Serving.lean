import DbApi.Concurrency.LockMode
import DbApi.Runtime.Connections
import DbApi.Runtime.ExecuteQuery

/-! The whole server: the runtime with its workers inside of `http_server_handle_client`, which
share the engine behind the lock manager of the pool. -/

namespace DbApi.Runtime
open Library Concurrency Http Storage Index

/-- The configuration, and what comes and goes over each connection. -/
structure Service where
  dirs : Directories
  maxRequestBytes : Nat
  clients : Nat → Client
  sendings : Nat → List Sending

namespace Service

variable (service : Service)

def received (client : Nat) : ReceiveEnd HttpRequest :=
  receiveRequest (effectiveMax service.maxRequestBytes) (service.clients client)

def routed (request : HttpRequest) : Route Database :=
  route request (some (runtimeDependencies service.dirs))

/-- What a handling does that executes nothing; `none` where it waits or executes. -/
def unexecuted (client : Nat) : Option (List Effect) :=
  match service.received client with
  | .waiting => none
  | .closed => some [.closed]
  | .rejected statusCode errorCode message =>
    some ((sendAnswer (service.sendings client) (.error statusCode (text "") errorCode message)).1 ++
      [.closed])
  | .complete request =>
    match service.routed request with
    | .answer answer => some ((sendAnswer (service.sendings client) answer).1 ++ [.closed])
    | .execute _ _ => none

/-- What a handling does that executes a statement. -/
def executed (client : Nat) (request : HttpRequest) (sql : CString) (execution : Execution) :
    List Effect :=
  .executed sql execution ::
    (sendAnswer (service.sendings client) (executionAnswer (.of request.path) execution)).1 ++
    [.cleaned execution.result, .closed]

/-- The handling of a connection by itself. -/
def handle (client : Nat) (db : Database) : Option (List Effect × Database) :=
  (httpServerHandleClient (some service.maxRequestBytes) (some (runtimeDependencies service.dirs))
    (service.clients client) (service.sendings client) db).map fun handled =>
    (handled.effects, handled.engine)

end Service

/-- Where a worker stands in `http_server_handle_client`. -/
inductive HandlerState where
  | idle
  /-- In the acquire of `runtime_execute_query`. -/
  | acquiring (request : HttpRequest) (sql : CString)
  /-- Inside of the lock, with the rest of `server_core_execute`. -/
  | executing (request : HttpRequest) (sql : CString) (rest : Program Database Execution)
  | answering (effects : List Effect)

/-- `history` has the handlings in the order in which they took effect. -/
structure ServerState (n capacity : Nat) where
  runtime : RuntimeState n capacity
  handler : Fin n → HandlerState
  db : Database
  history : List (Nat × List Effect)

namespace ServerState

variable {n capacity : Nat}

def init (n : Nat) (hc : 0 < capacity) (db : Database) : ServerState n capacity where
  runtime := .init n .serialAll hc
  handler _ := .idle
  db
  history := []

def locks (s : ServerState n capacity) : LockState (Fin n) := s.runtime.pool.lockManager

def setRuntime (s : ServerState n capacity) (runtime : RuntimeState n capacity) :
    ServerState n capacity :=
  { s with runtime }

def setHandler (s : ServerState n capacity) (w : Fin n) (state : HandlerState) :
    ServerState n capacity :=
  { s with handler := Function.update s.handler w state }

def took (s : ServerState n capacity) (client : Nat) (effects : List Effect) :
    ServerState n capacity :=
  { s with history := s.history ++ [(client, effects)] }

end ServerState

/-- The steps of the runtime that are no steps of a handling. -/
def besideHandling {n : Nat} : ServingEvent n → Bool
  | .close _ | .pool (.callback _) => false
  | _ => true

inductive ServerEvent (n : Nat) where
  | runtime (event : ServingEvent n)
  | answer (w : Fin n)
  | acquire (w : Fin n)
  | resume (w : Fin n)
  | wake (w : Fin n)
  | access (w : Fin n)
  | release (w : Fin n)
  | close (w : Fin n)

inductive ServerStep (service : Service) {n capacity : Nat} :
    ServerState n capacity → ServerEvent n → ServerState n capacity → Prop where
  | runtime {s event runtime} (beside : besideHandling event = true)
      (step : RuntimeStep s.runtime event runtime) :
    ServerStep service s (.runtime event) (s.setRuntime runtime)
  | answer {s w client effects} (call : s.runtime.callback w = .handling client)
      (at_ : s.handler w = .idle) (result : service.unexecuted client = some effects) :
    ServerStep service s (.answer w) ((s.setHandler w (.answering effects)).took client effects)
  | acquire {s w client request executor sql runtime}
      (call : s.runtime.callback w = .handling client) (at_ : s.handler w = .idle)
      (received : service.received client = .complete request)
      (routed : service.routed request = .execute executor sql)
      (step : RuntimeStep s.runtime (.pool (.callback w)) runtime)
      (lock : LockStep s.locks (.acquire w (concurrencyLockModeFromSql (some sql.bytes)))
        runtime.pool.lockManager) :
    ServerStep service s (.acquire w) ((s.setRuntime runtime).setHandler w
      (if runtime.pool.lockManager.call w = .outside then
        .executing request sql (runtimeExecuteQuery service.dirs sql)
      else .acquiring request sql))
  | resume {s w request sql runtime} (at_ : s.handler w = .acquiring request sql)
      (step : RuntimeStep s.runtime (.pool (.callback w)) runtime)
      (lock : LockStep s.locks (.resume w) runtime.pool.lockManager) :
    ServerStep service s (.resume w) ((s.setRuntime runtime).setHandler w
      (if runtime.pool.lockManager.call w = .outside then
        .executing request sql (runtimeExecuteQuery service.dirs sql)
      else .acquiring request sql))
  | wake {s w request sql runtime} (at_ : s.handler w = .acquiring request sql)
      (step : RuntimeStep s.runtime (.pool (.callback w)) runtime)
      (lock : LockStep s.locks (.wake w) runtime.pool.lockManager) :
    ServerStep service s (.wake w) (s.setRuntime runtime)
  | access {s w request sql update next}
      (at_ : s.handler w = .executing request sql (.access update next)) :
    ServerStep service s (.access w)
      { s.setHandler w (.executing request sql (next s.db)) with db := update s.db }
  | release {s w client request sql execution runtime}
      (call : s.runtime.callback w = .handling client)
      (at_ : s.handler w = .executing request sql (.done execution))
      (step : RuntimeStep s.runtime (.pool (.callback w)) runtime)
      (lock : LockStep s.locks (.release w (concurrencyLockModeFromSql (some sql.bytes)))
        runtime.pool.lockManager) :
    ServerStep service s (.release w) (((s.setRuntime runtime).setHandler w
      (.answering (service.executed client request sql execution))).took client
      (service.executed client request sql execution))
  | close {s w effects runtime} (at_ : s.handler w = .answering effects)
      (step : RuntimeStep s.runtime (.close w) runtime) :
    ServerStep service s (.close w) ((s.setRuntime runtime).setHandler w .idle)

end DbApi.Runtime
