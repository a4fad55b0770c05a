import DbApi.Concurrency.QueueThreads
import DbApi.Library.Fifo

namespace DbApi.Proofs.QueueFifo
open Library Concurrency

variable {T : Type} {capacity : Nat} {s s' : QueueState T capacity}
variable {event : QueueEvent T} {events : List (QueueEvent T)}

/-- What an event is for the list of the jobs. -/
def effect : QueueEvent T → FifoEvent ConcurrencyJob
  | .push _ job .ok => .accept job
  | .tryPush _ job .ok => .accept job
  | .pop _ job => .remove job
  | .cancel _ job => .remove job
  | .close _ => .close
  | _ => .quiet

def accepted (events : List (QueueEvent T)) : List ConcurrencyJob :=
  (events.map effect).filterMap FifoEvent.accepted

variable [DecidableEq T]

theorem pop_closed {t : T} (h : QueueStep s (.popClosed t) s') :
    s.queue.closed = true ∧ s.queue.jobs = [] := by
  cases h with
  | popClosed call pop => exact ConcurrencyJobQueue.pop_closed pop

def runnable : ConcurrencyJob := { id := 0, lockMode := .read, hasRun := true }

/-- The queue of one slot with a job in it. -/
def filled : QueueState (Fin 1) 1 :=
  (((QueueState.init (Fin 1) Nat.one_pos).go 0 .outside).setQueue
    ((ConcurrencyJobQueue.init Nat.one_pos).add runnable (by decide))).signal fun _ => false

end DbApi.Proofs.QueueFifo
