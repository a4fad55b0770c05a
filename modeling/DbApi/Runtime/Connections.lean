import DbApi.Concurrency.ThreadPool
import DbApi.Library.Bytes

/-! The accepted connections of a runtime: the thread that accepts them, the jobs that it
submits to the pool, and the callbacks of these jobs. -/

namespace DbApi.Runtime
open Library Concurrency

/-- The descriptor field of a job context; `none` is -1. -/
structure DbServerClientJob where
  clientFd : Option Nat
deriving DecidableEq

/-- What happens to a connection or to the job context that is made for it. -/
inductive ConnectionEvent where
  | accepted
  | allocated
  | answered (statusCode : Nat) (errorCode message : Bytes)
  | closed
  /-- The call of `http_server_handle_client`. -/
  | handled
  /-- A read from the connection or a write to it, inside of that call. -/
  | used
  | notified (result : ConcurrencyJobResult)
  | freed
  /-- An access to a context that is not allocated. -/
  | stale
deriving DecidableEq

/-- Where the accept loop stands. -/
inductive AcceptState where
  | accepting
  | accepted (client : Nat)
  /-- In try_submit, with the context allocated. -/
  | submitting (client : Nat)
  | refused (client : Nat) (status : ConcurrencyJobQueueStatus)
  /-- The connection is answered and closed, and the context still has its descriptor. -/
  | rejected (client : Nat)
  /-- The field `client_fd` of the context is set to -1. -/
  | disowned (client : Nat)

/-- Where a worker stands in `run_client_job`. -/
inductive CallbackState where
  | outside
  | entered (client : Nat)
  | handling (client : Nat)
  /-- From the close of the descriptor until the worker is done with the job. -/
  | finished (client : Nat)

/-- The answer of `reject_client_with_status`. -/
def rejectClientWithStatus : ConcurrencyJobQueueStatus → ConnectionEvent
  | .full => .answered 503 (ascii "server_busy") (ascii "server queue is full")
  | .closed => .answered 503 (ascii "server_stopping") (ascii "server is shutting down")
  | .ok | .empty | .invalid =>
    .answered 500 (ascii "queue_submit_failed") (ascii "failed to schedule the request")

def allocationFailed : ConnectionEvent :=
  .answered 500 (ascii "allocation_failed") (ascii "failed to allocate request context")

/-- A connection is named by its turn, which also names the context that is allocated for it;
`context` is the context field of the jobs, by the number of the submission. -/
structure RuntimeState (n capacity : Nat) where
  pool : ConcurrencyThreadPool Unit n capacity
  acceptor : AcceptState
  callback : Fin n → CallbackState
  context : Nat → Nat
  clientJob : Nat → Option DbServerClientJob
  nextClient : Nat
  log : List (Nat × ConnectionEvent)

namespace RuntimeState

variable {n capacity : Nat}

def init (n : Nat) (policy : ConcurrencyLockPolicy) (hc : 0 < capacity) :
    RuntimeState n capacity where
  pool := .init Unit n policy hc
  acceptor := .accepting
  callback _ := .outside
  context _ := 0
  clientJob _ := none
  nextClient := 0
  log := []

def logged (s : RuntimeState n capacity) (client : Nat) (events : List ConnectionEvent) :
    RuntimeState n capacity :=
  { s with log := s.log ++ events.map fun event => (client, event) }

def setPool (s : RuntimeState n capacity) (pool : ConcurrencyThreadPool Unit n capacity) :
    RuntimeState n capacity :=
  { s with pool }

def setAcceptor (s : RuntimeState n capacity) (state : AcceptState) : RuntimeState n capacity :=
  { s with acceptor := state }

def setCallback (s : RuntimeState n capacity) (w : Fin n) (state : CallbackState) :
    RuntimeState n capacity :=
  { s with callback := Function.update s.callback w state }

def setClientJob (s : RuntimeState n capacity) (client : Nat) (job : Option DbServerClientJob) :
    RuntimeState n capacity :=
  { s with clientJob := Function.update s.clientJob client job }

/-- `calloc` of the context and the submission of its job, up to the accepting check. -/
def submit (s : RuntimeState n capacity) (client : Nat) : RuntimeState n capacity :=
  { (s.setClientJob client (some { clientFd := some client })).logged client [.allocated] with
    context := Function.update s.context s.pool.nextId client
    pool := s.pool.submit () false .none true
    acceptor :=
      if s.pool.ready && s.pool.acceptingJobs then .submitting client else .refused client .closed }

/-- The first lines of `run_client_job`. -/
def runClientJob (s : RuntimeState n capacity) (w : Fin n) (client : Nat) :
    RuntimeState n capacity :=
  match s.clientJob client with
  | none => (s.logged client [.stale]).setCallback w (.finished client)
  | some { clientFd := none } => s.setCallback w (.finished client)
  | some { clientFd := some _ } =>
    ((s.setClientJob client (some { clientFd := none })).logged client [.handled]).setCallback w
      (.handling client)

def cleanupClientJob (s : RuntimeState n capacity) (client : Nat) : RuntimeState n capacity :=
  match s.clientJob client with
  | none => s.logged client [.stale]
  | some { clientFd := none } => (s.setClientJob client none).logged client [.freed]
  | some { clientFd := some _ } => (s.setClientJob client none).logged client [.closed, .freed]

def notifyClientJob (s : RuntimeState n capacity) (client : Nat) (result : ConcurrencyJobResult) :
    RuntimeState n capacity :=
  match s.clientJob client with
  | none => s.logged client [.stale]
  | some _ => s.logged client [.notified result]

/-- With the notify and the cleanup of a client job. -/
def concurrencyJobFinish (s : RuntimeState n capacity) (client : Nat)
    (result : ConcurrencyJobResult) : RuntimeState n capacity :=
  (s.notifyClientJob client result).cleanupClientJob client

end RuntimeState

/-- The steps of the pool in which no callback of the runtime is called, and in which the
accepting thread has no part. -/
def internalEvent {T : Type} {n : Nat} : PoolEvent T n → Bool
  | .submit _ | .push _ | .wakeSubmitter _ | .run _ | .runReturns _ | .finish _
  | .cancelFinish => false
  | .pop _ | .wakeWorker _ | .acquire _ | .resume _ | .wakeLock _ | .callback _ | .release _
  | .shutdown | .destroy | .close | .cancelNext | .join => true

inductive ServingEvent (n : Nat) where
  | accept
  | allocationFails
  | submit
  | push
  | reject
  | disown
  | finishRejected
  | run (w : Fin n)
  | enter (w : Fin n)
  | use (w : Fin n)
  | close (w : Fin n)
  | runReturns (w : Fin n)
  | finish (w : Fin n)
  | cancelFinish
  | pool (event : PoolEvent Unit n)

inductive RuntimeStep {n capacity : Nat} :
    RuntimeState n capacity → ServingEvent n → RuntimeState n capacity → Prop where
  | accept {s} (at_ : s.acceptor = .accepting) :
    RuntimeStep s .accept
      { (s.setAcceptor (.accepted s.nextClient)).logged s.nextClient [.accepted] with
        nextClient := s.nextClient + 1 }
  | allocationFails {s client} (at_ : s.acceptor = .accepted client) :
    RuntimeStep s .allocationFails
      ((s.setAcceptor .accepting).logged client [allocationFailed, .closed])
  | submit {s client} (at_ : s.acceptor = .accepted client) (alone : ¬ s.pool.Destroying) :
    RuntimeStep s .submit (s.submit client)
  | push {s client job status pool} (at_ : s.acceptor = .submitting client)
      (step : PoolStep s.pool (.push ()) pool)
      (answer : pool.log = s.pool.log ++ [.submitted job status]) :
    RuntimeStep s .push ((s.setPool pool).setAcceptor
      (if status = .ok then .accepting else .refused client status))
  | reject {s client status} (at_ : s.acceptor = .refused client status) :
    RuntimeStep s .reject ((s.setAcceptor (.rejected client)).logged client
      [rejectClientWithStatus status, .closed])
  | disown {s client} (at_ : s.acceptor = .rejected client) :
    RuntimeStep s .disown ((s.setClientJob client
      ((s.clientJob client).map fun _ => { clientFd := none })).setAcceptor (.disowned client))
  | finishRejected {s client} (at_ : s.acceptor = .disowned client) :
    RuntimeStep s .finishRejected ((s.concurrencyJobFinish client .rejected).setAcceptor .accepting)
  | run {s w job pool} (at_ : s.pool.worker w = .locked job)
      (step : PoolStep s.pool (.run w) pool) :
    RuntimeStep s (.run w) ((s.setPool pool).setCallback w (.entered (s.context job.id)))
  | enter {s w client} (at_ : s.callback w = .entered client) :
    RuntimeStep s (.enter w) (s.runClientJob w client)
  | use {s w client} (at_ : s.callback w = .handling client) :
    RuntimeStep s (.use w) (s.logged client [.used])
  | close {s w client} (at_ : s.callback w = .handling client) :
    RuntimeStep s (.close w) ((s.logged client [.closed]).setCallback w (.finished client))
  | runReturns {s w client pool} (at_ : s.callback w = .finished client)
      (step : PoolStep s.pool (.runReturns w) pool) :
    RuntimeStep s (.runReturns w) (s.setPool pool)
  | finish {s w job runStatus pool} (at_ : s.pool.worker w = .released job runStatus)
      (step : PoolStep s.pool (.finish w) pool) :
    RuntimeStep s (.finish w)
      (((s.setPool pool).concurrencyJobFinish (s.context job.id)
        (if runStatus = 0 then .ok else .failed)).setCallback w .outside)
  | cancelFinish {s job phase pool} (at_ : s.pool.controller = .holding job phase)
      (step : PoolStep s.pool .cancelFinish pool) :
    RuntimeStep s .cancelFinish ((s.setPool pool).concurrencyJobFinish (s.context job.id) .cancelled)
  | pool {s event pool} (internal : internalEvent event = true) (step : PoolStep s.pool event pool) :
    RuntimeStep s (.pool event) (s.setPool pool)

end DbApi.Runtime
