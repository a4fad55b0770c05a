import DbApi.Concurrency.LockManager
import DbApi.Library.Ring

namespace DbApi.Concurrency
open Library

inductive ConcurrencyJobResult where
  | ok
  | failed
  | cancelled
  | rejected
deriving DecidableEq

/-- `id` tells one submission from another, `hasRun` a `run` pointer from NULL. -/
structure ConcurrencyJob where
  id : Nat
  lockMode : ConcurrencyLockMode
  hasRun : Bool
deriving DecidableEq, Inhabited

inductive ConcurrencyJobQueueStatus where
  | ok
  | full
  | empty
  | closed
  | invalid
deriving DecidableEq

structure ConcurrencyJobQueue (capacity : Nat) where
  ring : Ring ConcurrencyJob capacity
  closed : Bool

/-- What a push comes to under the mutex. -/
inductive PushOutcome (capacity : Nat) where
  | refuse (status : ConcurrencyJobQueueStatus)
  | wait
  | accept (queue : ConcurrencyJobQueue capacity)

inductive PopOutcome (capacity : Nat) where
  | wait
  | closed
  | job (job : ConcurrencyJob) (queue : ConcurrencyJobQueue capacity)

namespace ConcurrencyJobQueue

variable {capacity : Nat} {queue queue' : ConcurrencyJobQueue capacity} {job : ConcurrencyJob}

def init (hc : 0 < capacity) : ConcurrencyJobQueue capacity where
  ring := .empty hc
  closed := false

def close (queue : ConcurrencyJobQueue capacity) : ConcurrencyJobQueue capacity :=
  { queue with closed := true }

def jobs (queue : ConcurrencyJobQueue capacity) : List ConcurrencyJob := queue.ring.contents

def add (queue : ConcurrencyJobQueue capacity) (job : ConcurrencyJob)
    (h : queue.ring.size ≠ capacity) : ConcurrencyJobQueue capacity :=
  { queue with ring := queue.ring.push job (lt_of_le_of_ne queue.ring.size_le h) }

def popFrontLocked (queue : ConcurrencyJobQueue capacity) (h : queue.ring.size ≠ 0) :
    ConcurrencyJob × ConcurrencyJobQueue capacity :=
  let (job, ring) := queue.ring.pop (Nat.pos_of_ne_zero h)
  (job, { queue with ring })

/-- One turn of the loop of `concurrency_job_queue_push`. -/
def push (queue : ConcurrencyJobQueue capacity) (job : ConcurrencyJob) : PushOutcome capacity :=
  if job.hasRun = false then .refuse .invalid
  else if wait : queue.ring.size = capacity ∧ queue.closed = false then .wait
  else if closed : queue.closed = true then .refuse .closed
  else .accept (queue.add job fun full => wait ⟨full, Bool.eq_false_iff.mpr closed⟩)

def tryPush (queue : ConcurrencyJobQueue capacity) (job : ConcurrencyJob) : PushOutcome capacity :=
  if job.hasRun = false then .refuse .invalid
  else if queue.closed = true then .refuse .closed
  else if full : queue.ring.size = capacity then .refuse .full
  else .accept (queue.add job full)

/-- One turn of the loop of `concurrency_job_queue_pop`. -/
def pop (queue : ConcurrencyJobQueue capacity) : PopOutcome capacity :=
  if queue.ring.size = 0 ∧ queue.closed = false then .wait
  else if empty : queue.ring.size = 0 then .closed
  else
    let (job, rest) := queue.popFrontLocked empty
    .job job rest

/-- One turn of the loop of `concurrency_job_queue_cancel_pending`. -/
def popPending (queue : ConcurrencyJobQueue capacity) :
    Option (ConcurrencyJob × ConcurrencyJobQueue capacity) :=
  if empty : queue.ring.size = 0 then none else some (queue.popFrontLocked empty)

theorem jobs_eq_nil : queue.jobs = [] ↔ queue.ring.size = 0 := Ring.contents_eq_nil

theorem length_jobs : queue.jobs.length = queue.ring.size := Ring.length_contents queue.ring

theorem jobs_add (h : queue.ring.size ≠ capacity) :
    (queue.add job h).jobs = queue.jobs ++ [job] := by
  simp [add, jobs]

theorem jobs_popFrontLocked (h : queue.ring.size ≠ 0) :
    queue.jobs = (queue.popFrontLocked h).1 :: (queue.popFrontLocked h).2.jobs :=
  Ring.contents_pop queue.ring (Nat.pos_of_ne_zero h)

theorem push_accept (h : queue.push job = .accept queue') :
    queue.closed = false ∧ queue'.closed = false ∧ queue'.jobs = queue.jobs ++ [job] := by
  unfold push at h
  split at h
  · cases h
  · split at h
    · cases h
    · split at h
      · cases h
      · rename_i closed
        cases h
        have hopen := Bool.eq_false_iff.mpr closed
        exact ⟨hopen, hopen, jobs_add _⟩

theorem tryPush_accept (h : queue.tryPush job = .accept queue') :
    queue.closed = false ∧ queue'.closed = false ∧ queue'.jobs = queue.jobs ++ [job] := by
  unfold tryPush at h
  split at h
  · cases h
  · split at h
    · cases h
    · rename_i closed
      split at h
      · cases h
      · cases h
        have hopen := Bool.eq_false_iff.mpr closed
        exact ⟨hopen, hopen, jobs_add _⟩

theorem push_refuse {status : ConcurrencyJobQueueStatus} (h : queue.push job = .refuse status) :
    status ≠ .ok := by
  unfold push at h
  split at h
  · cases h
    decide
  · split at h
    · cases h
    · split at h
      · cases h
        decide
      · cases h

theorem tryPush_refuse {status : ConcurrencyJobQueueStatus}
    (h : queue.tryPush job = .refuse status) : status ≠ .ok := by
  unfold tryPush at h
  split at h
  · cases h
    decide
  · split at h
    · cases h
      decide
    · split at h
      · cases h
        decide
      · cases h

theorem push_wait (h : queue.push job = .wait) : queue.closed = false := by
  unfold push at h
  split at h
  · cases h
  · split at h
    · rename_i wait
      exact wait.2
    · split at h
      · cases h
      · cases h

theorem push_wait_full (h : queue.push job = .wait) : queue.ring.size = capacity := by
  unfold push at h
  split at h
  · cases h
  · split at h
    · rename_i wait
      exact wait.1
    · split at h
      · cases h
      · cases h

theorem tryPush_no_wait : queue.tryPush job ≠ .wait := by
  unfold tryPush
  split
  · exact fun h => nomatch h
  · split
    · exact fun h => nomatch h
    · split
      · exact fun h => nomatch h
      · exact fun h => nomatch h

theorem pop_wait (h : queue.pop = .wait) : queue.closed = false := by
  unfold pop at h
  split at h
  · rename_i wait
    exact wait.2
  · split at h
    · cases h
    · cases h

theorem pop_wait_empty (h : queue.pop = .wait) : queue.ring.size = 0 := by
  unfold pop at h
  split at h
  · rename_i wait
    exact wait.1
  · split at h
    · cases h
    · cases h

theorem pop_closed (h : queue.pop = .closed) : queue.closed = true ∧ queue.jobs = [] := by
  unfold pop at h
  split at h
  · cases h
  · rename_i wait
    split at h
    · rename_i empty
      refine ⟨?_, jobs_eq_nil.mpr empty⟩
      exact Bool.eq_true_of_not_eq_false fun open' => wait ⟨empty, open'⟩
    · cases h

theorem pop_job (h : queue.pop = .job job queue') :
    queue'.closed = queue.closed ∧ queue.jobs = job :: queue'.jobs := by
  unfold pop at h
  split at h
  · cases h
  · split at h
    · cases h
    · rename_i empty
      cases h
      exact ⟨rfl, jobs_popFrontLocked empty⟩

theorem popPending_none (h : queue.popPending = none) : queue.jobs = [] := by
  unfold popPending at h
  split at h
  · rename_i empty
    exact jobs_eq_nil.mpr empty
  · cases h

theorem popPending_some (h : queue.popPending = some (job, queue')) :
    queue'.closed = queue.closed ∧ queue.jobs = job :: queue'.jobs := by
  unfold popPending at h
  split at h
  · cases h
  · rename_i empty
    obtain ⟨rfl, rfl⟩ := Prod.mk.inj (Option.some.inj h)
    exact ⟨rfl, jobs_popFrontLocked empty⟩

end ConcurrencyJobQueue

end DbApi.Concurrency
