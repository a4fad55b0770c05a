import DbApi.Concurrency.JobQueue
import DbApi.Library.Condition

namespace DbApi.Concurrency
open Library

/-- The condition variables of the queue. -/
inductive QueueCondition where
  | notEmpty
  | notFull
deriving DecidableEq

/-- Where a thread stands in the calls of the queue. -/
inductive QueueCall where
  | outside
  | pushing (job : ConcurrencyJob) (wait : Wait)
  | popping (wait : Wait)
  /-- In the loop of cancel_pending, outside of the mutex. -/
  | cancelling

namespace QueueCall

def on : QueueCondition → QueueCall → Option Wait
  | .notFull, .pushing _ wait => some wait
  | .notEmpty, .popping wait => some wait
  | _, _ => none

def signal : QueueCall → QueueCall
  | .pushing job wait => .pushing job wait.signal
  | .popping wait => .popping wait.signal
  | call => call

/-- A wait ends without a signal. -/
def wake : QueueCall → QueueCall
  | .pushing job _ => .pushing job .awake
  | .popping _ => .popping .awake
  | call => call

/-- At the test of the loop in a push of the job, which a call comes to at once. -/
def AtPush (job : ConcurrencyJob) : QueueCall → Prop
  | .outside => True
  | .pushing own wait => own = job ∧ wait ≠ .asleep
  | _ => False

def AtPop : QueueCall → Prop
  | .outside => True
  | .popping wait => wait ≠ .asleep
  | _ => False

def AtCancel : QueueCall → Prop
  | .outside => True
  | .cancelling => True
  | _ => False

end QueueCall

structure QueueState (T : Type) (capacity : Nat) where
  queue : ConcurrencyJobQueue capacity
  call : T → QueueCall

namespace QueueState

variable {T : Type} {capacity : Nat}

def init (T : Type) (hc : 0 < capacity) : QueueState T capacity where
  queue := .init hc
  call _ := .outside

def waits (s : QueueState T capacity) (condition : QueueCondition) (t : T) : Option Wait :=
  (s.call t).on condition

def Asleep (s : QueueState T capacity) (condition : QueueCondition) (t : T) : Prop :=
  s.waits condition t = some .asleep

def go [DecidableEq T] (s : QueueState T capacity) (t : T) (call : QueueCall) :
    QueueState T capacity :=
  { s with call := Function.update s.call t call }

def setQueue (s : QueueState T capacity) (queue : ConcurrencyJobQueue capacity) :
    QueueState T capacity :=
  { s with queue }

def signal (s : QueueState T capacity) (woken : T → Bool) : QueueState T capacity :=
  { s with call := fun t => if woken t then (s.call t).signal else s.call t }

end QueueState

/-- A section of a thread under the mutex with what it comes to, or the end of
a wait without a signal. -/
inductive QueueEvent (T : Type) where
  | pushWaits (t : T)
  | push (t : T) (job : ConcurrencyJob) (status : ConcurrencyJobQueueStatus)
  | tryPush (t : T) (job : ConcurrencyJob) (status : ConcurrencyJobQueueStatus)
  | popWaits (t : T)
  | popClosed (t : T)
  | pop (t : T) (job : ConcurrencyJob)
  | close (t : T)
  | cancel (t : T) (job : ConcurrencyJob)
  | cancelDone (t : T)
  | wake (t : T)

inductive QueueStep {T : Type} {capacity : Nat} [DecidableEq T] :
    QueueState T capacity → QueueEvent T → QueueState T capacity → Prop where
  | pushRefused {s t job status} (call : (s.call t).AtPush job)
      (push : s.queue.push job = .refuse status) :
    QueueStep s (.push t job status) (s.go t .outside)
  | pushWaits {s t job} (call : (s.call t).AtPush job) (push : s.queue.push job = .wait) :
    QueueStep s (.pushWaits t) (s.go t (.pushing job .asleep))
  | pushAccepted {s t job queue woken} (call : (s.call t).AtPush job)
      (push : s.queue.push job = .accept queue) (wakes : Signals (s.Asleep .notEmpty) woken) :
    QueueStep s (.push t job .ok) (((s.go t .outside).setQueue queue).signal woken)
  | tryPushRefused {s t job status} (call : s.call t = .outside)
      (push : s.queue.tryPush job = .refuse status) :
    QueueStep s (.tryPush t job status) (s.go t .outside)
  | tryPushAccepted {s t job queue woken} (call : s.call t = .outside)
      (push : s.queue.tryPush job = .accept queue) (wakes : Signals (s.Asleep .notEmpty) woken) :
    QueueStep s (.tryPush t job .ok) (((s.go t .outside).setQueue queue).signal woken)
  | popWaits {s t} (call : (s.call t).AtPop) (pop : s.queue.pop = .wait) :
    QueueStep s (.popWaits t) (s.go t (.popping .asleep))
  | popClosed {s t} (call : (s.call t).AtPop) (pop : s.queue.pop = .closed) :
    QueueStep s (.popClosed t) (s.go t .outside)
  | popJob {s t job queue woken} (call : (s.call t).AtPop) (pop : s.queue.pop = .job job queue)
      (wakes : Signals (s.Asleep .notFull) woken) :
    QueueStep s (.pop t job) (((s.go t .outside).setQueue queue).signal woken)
  /-- Both broadcasts wake everybody. -/
  | close {s t} (call : s.call t = .outside) :
    QueueStep s (.close t) ((s.setQueue s.queue.close).signal fun _ => true)
  | cancelNext {s t job queue woken} (call : (s.call t).AtCancel)
      (pop : s.queue.popPending = some (job, queue)) (wakes : Signals (s.Asleep .notFull) woken) :
    QueueStep s (.cancel t job) (((s.go t .cancelling).setQueue queue).signal woken)
  | cancelDone {s t} (call : (s.call t).AtCancel) (pop : s.queue.popPending = none) :
    QueueStep s (.cancelDone t) (s.go t .outside)
  | wake {s t condition} (call : s.Asleep condition t) :
    QueueStep s (.wake t) (s.go t (s.call t).wake)

def queueSystem (T : Type) [DecidableEq T] {capacity : Nat} (hc : 0 < capacity) :
    System (QueueState T capacity) (QueueEvent T) where
  initial s := s = .init T hc
  step := QueueStep

end DbApi.Concurrency
