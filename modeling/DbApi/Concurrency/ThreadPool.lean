import DbApi.Concurrency.JobQueue

namespace DbApi.Concurrency
open Library

inductive ConcurrencyThreadPoolShutdownMode where
  | drain
  | cancelPending
deriving DecidableEq

/-- A thread in a call of submit or try_submit. -/
inductive SubmitState where
  | idle
  /-- Past the accepting check, on the way to the queue's mutex. -/
  | pushing (job : ConcurrencyJob) (blocking : Bool)
  /-- In the wait on `not_full`. -/
  | asleep (job : ConcurrencyJob)

/-- Where `worker_main` stands. -/
inductive WorkerState where
  | popping
  /-- In the wait on `not_empty`. -/
  | asleep
  | taken (job : ConcurrencyJob)
  /-- In the wait of the lock manager. -/
  | locking (job : ConcurrencyJob)
  | locked (job : ConcurrencyJob)
  /-- Inside the run callback. -/
  | running (job : ConcurrencyJob)
  | returned (job : ConcurrencyJob) (runStatus : Int)
  | released (job : ConcurrencyJob) (runStatus : Int)
  | exited

/-- The call that a step of the controlling thread belongs to: shutdown, the
shutdown inside of destroy, the destroy of the queue. -/
inductive Phase where
  | shutdown
  | destroy
  | queueDestroy
deriving DecidableEq

inductive ControlState where
  | outside
  | closing (mode : ConcurrencyThreadPoolShutdownMode) (phase : Phase)
  /-- In the loop of cancel_pending, on the way to the queue's mutex. -/
  | cancelling (phase : Phase)
  | holding (job : ConcurrencyJob) (phase : Phase)
  | joining (index : Nat) (phase : Phase)
  | destroyed

/-- What can be seen of the pool from outside, in the order of time. -/
inductive LogEntry where
  | submitted (job : Nat) (status : ConcurrencyJobQueueStatus)
  | ran (job : Nat) (worker : Nat)
  | finished (job : Nat) (result : ConcurrencyJobResult) (workerIndex runStatus : Int)
  | shutdown (mode : ConcurrencyThreadPoolShutdownMode)
deriving DecidableEq

def LogEntry.job : LogEntry → Option Nat
  | submitted job _ => some job
  | ran job _ => some job
  | finished job _ _ _ => some job
  | shutdown _ => none

/-- A pool of `n` workers with the threads `T` that submit to it. `ready` stands
for the flags that destroy clears, `nextId` numbers the submissions. -/
structure ConcurrencyThreadPool (T : Type) (n capacity : Nat) where
  queue : ConcurrencyJobQueue capacity
  lockManager : LockState (Fin n)
  acceptingJobs : Bool
  shutdownStarted : Bool
  joined : Bool
  ready : Bool
  submitter : T → SubmitState
  worker : Fin n → WorkerState
  controller : ControlState
  nextId : Nat
  log : List LogEntry

/-- The mode stays as the job was submitted with. -/
def SubmitState.wake : SubmitState → SubmitState
  | asleep job => pushing job true
  | state => state

def WorkerState.wake : WorkerState → WorkerState
  | asleep => popping
  | state => state

def SubmitState.Asleep (state : SubmitState) : Prop := ∃ job, state = .asleep job

namespace ConcurrencyThreadPool

variable {T : Type} {n capacity : Nat}

/-- After a successful init. -/
def init (T : Type) (n : Nat) (policy : ConcurrencyLockPolicy) (hc : 0 < capacity) :
    ConcurrencyThreadPool T n capacity where
  queue := .init hc
  lockManager := .init policy
  acceptingJobs := true
  shutdownStarted := false
  joined := false
  ready := true
  submitter _ := .idle
  worker _ := .popping
  controller := .outside
  nextId := 0
  log := []

/-- Destroy has been called and has not returned. -/
def Destroying (s : ConcurrencyThreadPool T n capacity) : Prop :=
  match s.controller with
  | .closing _ phase | .cancelling phase | .holding _ phase | .joining _ phase =>
    phase ≠ .shutdown
  | .outside | .destroyed => False

/-- Where shutdown goes on when it returns. -/
def afterShutdown : Phase → ControlState
  | .shutdown => .outside
  | .destroy | .queueDestroy => .closing .cancelPending .queueDestroy

/-- The join of shutdown, which a second one leaves out. -/
def beforeJoin (s : ConcurrencyThreadPool T n capacity) (phase : Phase) : ControlState :=
  if s.joined then afterShutdown phase else .joining 0 phase

def wakeWorkers (s : ConcurrencyThreadPool T n capacity) (woken : Fin n → Bool) :
    ConcurrencyThreadPool T n capacity :=
  { s with worker := fun w => if woken w then (s.worker w).wake else s.worker w }

def wakeSubmitters (s : ConcurrencyThreadPool T n capacity) (woken : T → Bool) :
    ConcurrencyThreadPool T n capacity :=
  { s with submitter := fun t => if woken t then (s.submitter t).wake else s.submitter t }

def logged (s : ConcurrencyThreadPool T n capacity) (entry : LogEntry) :
    ConcurrencyThreadPool T n capacity :=
  { s with log := s.log ++ [entry] }

def setWorker (s : ConcurrencyThreadPool T n capacity) (w : Fin n) (state : WorkerState) :
    ConcurrencyThreadPool T n capacity :=
  { s with worker := Function.update s.worker w state }

def setSubmitter [DecidableEq T] (s : ConcurrencyThreadPool T n capacity) (t : T)
    (state : SubmitState) : ConcurrencyThreadPool T n capacity :=
  { s with submitter := Function.update s.submitter t state }

def setController (s : ConcurrencyThreadPool T n capacity) (state : ControlState) :
    ConcurrencyThreadPool T n capacity :=
  { s with controller := state }

def setQueue (s : ConcurrencyThreadPool T n capacity) (queue : ConcurrencyJobQueue capacity) :
    ConcurrencyThreadPool T n capacity :=
  { s with queue }

def setLocks (s : ConcurrencyThreadPool T n capacity) (lockManager : LockState (Fin n)) :
    ConcurrencyThreadPool T n capacity :=
  { s with lockManager }

/-- A submission up to the accepting check. -/
def submit [DecidableEq T] (s : ConcurrencyThreadPool T n capacity) (t : T) (blocking : Bool)
    (lockMode : ConcurrencyLockMode) (hasRun : Bool) : ConcurrencyThreadPool T n capacity :=
  let job : ConcurrencyJob := { id := s.nextId, lockMode, hasRun }
  if s.ready && s.acceptingJobs then
    { s.setSubmitter t (.pushing job blocking) with nextId := s.nextId + 1 }
  else { s.logged (.submitted job.id .closed) with nextId := s.nextId + 1 }

/-- The first section of shutdown, when none has started before. -/
def startShutdown (s : ConcurrencyThreadPool T n capacity)
    (mode : ConcurrencyThreadPoolShutdownMode) (phase : Phase) :
    ConcurrencyThreadPool T n capacity :=
  { s.logged (.shutdown mode) with
    shutdownStarted := true
    acceptingJobs := false
    controller := .closing mode phase }

def closeQueue (s : ConcurrencyThreadPool T n capacity) (mode : ConcurrencyThreadPoolShutdownMode)
    (phase : Phase) : ConcurrencyThreadPool T n capacity :=
  (((s.setQueue s.queue.close).wakeSubmitters fun _ => true).wakeWorkers fun _ => true).setController
    (if mode = .cancelPending then .cancelling phase else s.beforeJoin phase)

/-- What follows cancel_pending when it finds the queue empty. -/
def afterCancel (s : ConcurrencyThreadPool T n capacity) :
    Phase → ConcurrencyThreadPool T n capacity
  | .queueDestroy =>
    { s with
      acceptingJobs := false
      shutdownStarted := false
      joined := false
      ready := false
      controller := .destroyed }
  | phase => s.setController (s.beforeJoin phase)

end ConcurrencyThreadPool

inductive PoolEvent (T : Type) (n : Nat) where
  | submit (t : T)
  | push (t : T)
  | wakeSubmitter (t : T)
  | pop (w : Fin n)
  | wakeWorker (w : Fin n)
  | acquire (w : Fin n)
  | resume (w : Fin n)
  | wakeLock (w : Fin n)
  | run (w : Fin n)
  | callback (w : Fin n)
  | runReturns (w : Fin n)
  | release (w : Fin n)
  | finish (w : Fin n)
  | shutdown
  | destroy
  | close
  | cancelNext
  | cancelFinish
  | join

open ConcurrencyThreadPool in
inductive PoolStep {T : Type} {n capacity : Nat} [DecidableEq T] :
    ConcurrencyThreadPool T n capacity → PoolEvent T n → ConcurrencyThreadPool T n capacity → Prop where
  /-- No submission runs along with destroy. -/
  | submit {s t blocking lockMode hasRun} (idle : s.submitter t = .idle) (alone : ¬ s.Destroying) :
    PoolStep s (.submit t) (s.submit t blocking lockMode hasRun)
  | pushRefused {s t job blocking status} (call : s.submitter t = .pushing job blocking)
      (push : (if blocking then s.queue.push job else s.queue.tryPush job) = .refuse status) :
    PoolStep s (.push t) ((s.setSubmitter t .idle).logged (.submitted job.id status))
  | pushWaits {s t job blocking} (call : s.submitter t = .pushing job blocking)
      (push : (if blocking then s.queue.push job else s.queue.tryPush job) = .wait) :
    PoolStep s (.push t) (s.setSubmitter t (.asleep job))
  | pushAccepted {s t job blocking queue woken} (call : s.submitter t = .pushing job blocking)
      (push : (if blocking then s.queue.push job else s.queue.tryPush job) = .accept queue)
      (wakes : Signals (fun w => s.worker w = .asleep) woken) :
    PoolStep s (.push t) ((((s.setSubmitter t .idle).setQueue queue).wakeWorkers woken).logged
      (.submitted job.id .ok))
  | wakeSubmitter {s t job} (call : s.submitter t = .asleep job) :
    PoolStep s (.wakeSubmitter t) (s.setSubmitter t (.pushing job true))
  | popWaits {s w} (at_ : s.worker w = .popping) (pop : s.queue.pop = .wait) :
    PoolStep s (.pop w) (s.setWorker w .asleep)
  | popClosed {s w} (at_ : s.worker w = .popping) (pop : s.queue.pop = .closed) :
    PoolStep s (.pop w) (s.setWorker w .exited)
  | popJob {s w job queue woken} (at_ : s.worker w = .popping) (pop : s.queue.pop = .job job queue)
      (wakes : Signals (fun t => (s.submitter t).Asleep) woken) :
    PoolStep s (.pop w) (((s.setWorker w (.taken job)).setQueue queue).wakeSubmitters woken)
  | wakeWorker {s w} (at_ : s.worker w = .asleep) :
    PoolStep s (.wakeWorker w) (s.setWorker w .popping)
  | acquire {s w job locks} (at_ : s.worker w = .taken job)
      (lock : LockStep s.lockManager (.acquire w job.lockMode) locks) :
    PoolStep s (.acquire w) ((s.setLocks locks).setWorker w
      (if locks.call w = .outside then .locked job else .locking job))
  | resume {s w job locks} (at_ : s.worker w = .locking job)
      (lock : LockStep s.lockManager (.resume w) locks) :
    PoolStep s (.resume w) ((s.setLocks locks).setWorker w
      (if locks.call w = .outside then .locked job else .locking job))
  | wakeLock {s w job locks} (at_ : s.worker w = .locking job)
      (lock : LockStep s.lockManager (.wake w) locks) :
    PoolStep s (.wakeLock w) (s.setLocks locks)
  | run {s w job} (at_ : s.worker w = .locked job) :
    PoolStep s (.run w) ((s.setWorker w (.running job)).logged (.ran job.id w))
  /-- A callback may use the lock manager too. -/
  | callback {s w job locks event} (at_ : s.worker w = .running job) (thread : event.thread = w)
      (lock : LockStep s.lockManager event locks) :
    PoolStep s (.callback w) (s.setLocks locks)
  | runReturns {s w job runStatus} (at_ : s.worker w = .running job)
      (call : s.lockManager.call w = .outside) (held : s.lockManager.held w = [job.lockMode]) :
    PoolStep s (.runReturns w) (s.setWorker w (.returned job runStatus))
  | release {s w job runStatus locks} (at_ : s.worker w = .returned job runStatus)
      (lock : LockStep s.lockManager (.release w job.lockMode) locks) :
    PoolStep s (.release w) ((s.setLocks locks).setWorker w (.released job runStatus))
  | finish {s w job runStatus} (at_ : s.worker w = .released job runStatus) :
    PoolStep s (.finish w) ((s.setWorker w .popping).logged
      (.finished job.id (if runStatus = 0 then .ok else .failed) w runStatus))
  | shutdown {s mode} (outside : s.controller = .outside) (ready : s.ready = true) :
    PoolStep s .shutdown (if s.shutdownStarted then s else s.startShutdown mode .shutdown)
  | destroy {s} (outside : s.controller = .outside) (ready : s.ready = true)
      (alone : ∀ t, s.submitter t = .idle) :
    PoolStep s .destroy
      (if s.shutdownStarted then s.setController (.closing .cancelPending .queueDestroy)
      else s.startShutdown .cancelPending .destroy)
  | close {s mode phase} (at_ : s.controller = .closing mode phase) :
    PoolStep s .close (s.closeQueue mode phase)
  | cancelNext {s phase job queue woken} (at_ : s.controller = .cancelling phase)
      (pop : s.queue.popPending = some (job, queue))
      (wakes : Signals (fun t => (s.submitter t).Asleep) woken) :
    PoolStep s .cancelNext (((s.setController (.holding job phase)).setQueue queue).wakeSubmitters woken)
  | cancelDone {s phase} (at_ : s.controller = .cancelling phase) (pop : s.queue.popPending = none) :
    PoolStep s .cancelNext (s.afterCancel phase)
  | cancelFinish {s job phase} (at_ : s.controller = .holding job phase) :
    PoolStep s .cancelFinish ((s.setController (.cancelling phase)).logged
      (.finished job.id .cancelled (-1) 0))
  | join {s phase} {w : Fin n} (at_ : s.controller = .joining w phase) (exited : s.worker w = .exited) :
    PoolStep s .join (s.setController (.joining (w + 1) phase))
  | joined {s phase} (at_ : s.controller = .joining n phase) :
    PoolStep s .join { s.setController (afterShutdown phase) with joined := true }

end DbApi.Concurrency
