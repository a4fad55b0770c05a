import DbApi.Library.System

namespace DbApi.Concurrency
open Library

inductive ConcurrencyLockMode where
  | none
  | read
  | write
deriving DecidableEq, Inhabited

inductive ConcurrencyLockPolicy where
  | readersParallel
  | serialAll
deriving DecidableEq

/-- The counters are `size_t` in the source. Here they are integers, so that a
decrement of zero shows. -/
structure ConcurrencyLockManager where
  policy : ConcurrencyLockPolicy
  activeReaders : Int
  waitingWriters : Int
  writerActive : Bool
deriving DecidableEq

def effectiveLockMode (policy : ConcurrencyLockPolicy) : ConcurrencyLockMode → ConcurrencyLockMode
  | .none => .none
  | mode => if policy = .serialAll then .write else mode

namespace ConcurrencyLockManager

def init (policy : ConcurrencyLockPolicy) : ConcurrencyLockManager where
  policy
  activeReaders := 0
  waitingWriters := 0
  writerActive := false

/-- What an acquire does before its loop. -/
def arrive (manager : ConcurrencyLockManager) : ConcurrencyLockMode → ConcurrencyLockManager
  | .write => { manager with waitingWriters := manager.waitingWriters + 1 }
  | _ => manager

/-- The condition of the loop. -/
def mustWait (manager : ConcurrencyLockManager) : ConcurrencyLockMode → Bool
  | .read => manager.writerActive || 0 < manager.waitingWriters
  | .write => manager.writerActive || 0 < manager.activeReaders
  | .none => false

/-- What an acquire does after its loop. -/
def enter (manager : ConcurrencyLockManager) : ConcurrencyLockMode → ConcurrencyLockManager
  | .read => { manager with activeReaders := manager.activeReaders + 1 }
  | .write =>
    { manager with waitingWriters := manager.waitingWriters - 1, writerActive := true }
  | .none => manager

/-- What a release does to the counters. -/
def leave (manager : ConcurrencyLockManager) : ConcurrencyLockMode → ConcurrencyLockManager
  | .read =>
    if 0 < manager.activeReaders then
      { manager with activeReaders := manager.activeReaders - 1 }
    else manager
  | .write => { manager with writerActive := false }
  | .none => manager

end ConcurrencyLockManager

/-- The call on a condition variable that a release ends with. -/
inductive Wakeup where
  | nobody
  | signalWriters
  | broadcastReaders
deriving DecidableEq

/-- The wake-up after the counters have changed. -/
def ConcurrencyLockManager.wakeup (manager : ConcurrencyLockManager) :
    ConcurrencyLockMode → Wakeup
  | .read =>
    if manager.activeReaders = 0 then
      if 0 < manager.waitingWriters then .signalWriters else .broadcastReaders
    else .nobody
  | .write => if 0 < manager.waitingWriters then .signalWriters else .broadcastReaders
  | .none => .nobody

/-- Where a thread is: outside of the two calls, or in the wait of an acquire of
`mode`, asleep or on its way back to the mutex. -/
inductive CallState where
  | outside
  | waiting (mode : ConcurrencyLockMode) (asleep : Bool)
deriving DecidableEq

/-- The manager, and each thread with the modes it has acquired and not released. -/
structure LockState (T : Type) where
  manager : ConcurrencyLockManager
  call : T → CallState
  held : T → List ConcurrencyLockMode

namespace LockState

variable {T : Type} [DecidableEq T]

def init (policy : ConcurrencyLockPolicy) : LockState T where
  manager := .init policy
  call _ := .outside
  held _ := []

/-- The mode that a request for `mode` comes to. -/
def effective (s : LockState T) (mode : ConcurrencyLockMode) : ConcurrencyLockMode :=
  effectiveLockMode s.manager.policy mode

/-- One turn of the loop: back into the wait, or out of the call with the lock. -/
def test (s : LockState T) (t : T) (mode : ConcurrencyLockMode) : LockState T :=
  if s.manager.mustWait (s.effective mode) then
    { s with call := Function.update s.call t (.waiting mode true) }
  else
    { manager := s.manager.enter (s.effective mode)
      call := Function.update s.call t .outside
      held := Function.update s.held t (mode :: s.held t) }

def arrive (s : LockState T) (t : T) (mode : ConcurrencyLockMode) : LockState T :=
  { s with
    manager := s.manager.arrive (s.effective mode)
    call := Function.update s.call t (.waiting mode false) }

/-- The first section of `concurrency_lock_manager_acquire`. -/
def acquire (s : LockState T) (t : T) (mode : ConcurrencyLockMode) : LockState T :=
  (s.arrive t mode).test t mode

/-- `concurrency_lock_manager_release`, up to whom it wakes. -/
def release (s : LockState T) (t : T) (mode : ConcurrencyLockMode) : LockState T :=
  { s with
    manager := s.manager.leave (s.effective mode)
    held := Function.update s.held t ((s.held t).erase mode) }

def awaken (s : LockState T) (woken : T → Bool) : LockState T :=
  { s with call := fun t =>
      match s.call t with
      | .waiting mode asleep => .waiting mode (asleep && !woken t)
      | .outside => .outside }

/-- The thread sleeps on the condition variable of this effective mode. -/
def Asleep (s : LockState T) (mode : ConcurrencyLockMode) (t : T) : Prop :=
  ∃ requested, s.call t = .waiting requested true ∧ s.effective requested = mode

/-- The sets of threads that a wake-up may wake. -/
def Wakes (s : LockState T) (woken : T → Bool) : Wakeup → Prop
  | .nobody => ∀ t, woken t = false
  | .signalWriters => Signals (s.Asleep .write) woken
  | .broadcastReaders => Broadcasts (s.Asleep .read) woken

end LockState

/-- What the threads do. An event is what one thread does under the mutex, or
without it where the mode is none. -/
inductive LockEvent (T : Type) where
  | acquire (t : T) (mode : ConcurrencyLockMode)
  | wake (t : T)
  | resume (t : T)
  | release (t : T) (mode : ConcurrencyLockMode)

def LockEvent.thread {T : Type} : LockEvent T → T
  | .acquire t _ => t
  | .wake t => t
  | .resume t => t
  | .release t _ => t

inductive LockStep {T : Type} [DecidableEq T] : LockState T → LockEvent T → LockState T → Prop where
  | acquire {s : LockState T} {t : T} {mode : ConcurrencyLockMode} (call : s.call t = .outside) :
    LockStep s (.acquire t mode) (s.acquire t mode)
  /-- A sleeper may wake up on its own. -/
  | wake {s : LockState T} {t : T} {mode : ConcurrencyLockMode}
      (call : s.call t = .waiting mode true) :
    LockStep s (.wake t) { s with call := Function.update s.call t (.waiting mode false) }
  | resume {s : LockState T} {t : T} {mode : ConcurrencyLockMode}
      (call : s.call t = .waiting mode false) :
    LockStep s (.resume t) (s.test t mode)
  /-- A thread releases a mode that it has acquired. -/
  | release {s : LockState T} {t : T} {mode : ConcurrencyLockMode} {woken : T → Bool}
      (call : s.call t = .outside) (held : mode ∈ s.held t)
      (wakes : s.Wakes woken ((s.manager.leave (s.effective mode)).wakeup (s.effective mode))) :
    LockStep s (.release t mode) ((s.release t mode).awaken woken)

section Steps

variable {T : Type} [DecidableEq T] {s s' : LockState T} {event : LockEvent T} {t u : T}
variable {mode : ConcurrencyLockMode}

@[simp] theorem policy_arrive (s : LockState T) (t : T) (mode : ConcurrencyLockMode) :
    (s.arrive t mode).manager.policy = s.manager.policy := by
  unfold LockState.arrive ConcurrencyLockManager.arrive
  dsimp only
  split
  · rfl
  · rfl

/-- A turn of the loop puts the thread to sleep or lets it out with the lock. -/
theorem test_cases (s : LockState T) (t : T) (mode : ConcurrencyLockMode) :
    (s.manager.mustWait (s.effective mode) = true ∧
      s.test t mode = { s with call := Function.update s.call t (.waiting mode true) }) ∨
    (s.manager.mustWait (s.effective mode) = false ∧
      s.test t mode =
        { manager := s.manager.enter (s.effective mode)
          call := Function.update s.call t .outside
          held := Function.update s.held t (mode :: s.held t) }) := by
  unfold LockState.test
  cases s.manager.mustWait (s.effective mode) with
  | true => exact .inl ⟨rfl, rfl⟩
  | false => exact .inr ⟨rfl, rfl⟩

@[simp] theorem policy_test (s : LockState T) (t : T) (mode : ConcurrencyLockMode) :
    (s.test t mode).manager.policy = s.manager.policy := by
  rcases test_cases s t mode with ⟨-, ht⟩ | ⟨-, ht⟩
  · rw [ht]
  · rw [ht]
    unfold ConcurrencyLockManager.enter
    dsimp only
    split
    · rfl
    · rfl
    · rfl

@[simp] theorem policy_release (s : LockState T) (t : T) (mode : ConcurrencyLockMode) :
    (s.release t mode).manager.policy = s.manager.policy := by
  unfold LockState.release ConcurrencyLockManager.leave
  dsimp only
  split
  · split
    · rfl
    · rfl
  · rfl
  · rfl

theorem policy_step (hs : LockStep s event s') : s'.manager.policy = s.manager.policy := by
  cases hs with
  | @acquire t mode call =>
    change ((s.arrive t mode).test t mode).manager.policy = _
    rw [policy_test, policy_arrive]
  | wake call => rfl
  | resume call => exact policy_test ..
  | @release t mode woken call held wakes => exact policy_release s t mode

/-- The thread has the lock, or sleeps in the wait for it. -/
def Tested (s s' : LockState T) (t : T) (mode : ConcurrencyLockMode) : Prop :=
  (s'.call t = .outside ∧ s'.held t = mode :: s.held t) ∨
    (s'.call t = .waiting mode true ∧ s'.held t = s.held t)

theorem test_own (s : LockState T) (t : T) (mode : ConcurrencyLockMode) :
    Tested s (s.test t mode) t mode := by
  rcases test_cases s t mode with ⟨-, ht⟩ | ⟨-, ht⟩
  · right
    rw [ht]
    exact ⟨Function.update_self .., rfl⟩
  · left
    rw [ht]
    exact ⟨Function.update_self .., Function.update_self ..⟩

theorem test_other (hu : u ≠ t) (mode : ConcurrencyLockMode) :
    (s.test t mode).call u = s.call u ∧ (s.test t mode).held u = s.held u := by
  rcases test_cases s t mode with ⟨-, ht⟩ | ⟨-, ht⟩
  · rw [ht]
    exact ⟨Function.update_of_ne hu .., rfl⟩
  · rw [ht]
    exact ⟨Function.update_of_ne hu .., Function.update_of_ne hu ..⟩

theorem acquire_own (hs : LockStep s (.acquire t mode) s') : Tested s s' t mode := by
  cases hs with
  | acquire call => exact test_own (s.arrive t mode) t mode

theorem resume_own (hs : LockStep s (.resume t) s') {asleep : Bool}
    (hc : s.call t = .waiting mode asleep) : Tested s s' t mode := by
  cases hs with
  | resume call =>
    rw [hc] at call
    cases call
    exact test_own s t mode

theorem release_own (hs : LockStep s (.release t mode) s') :
    s'.call t = .outside ∧ s'.held t = (s.held t).erase mode := by
  cases hs with
  | release call held wakes =>
    refine ⟨?_, Function.update_self ..⟩
    simp [LockState.awaken, LockState.release, call]

/-- Another thread keeps its modes and its call, and may be woken. -/
theorem step_other (hs : LockStep s event s') (hu : u ≠ event.thread) :
    s'.held u = s.held u ∧
      (s'.call u = s.call u ∨
        ∃ mode, s.call u = .waiting mode true ∧ s'.call u = .waiting mode false) := by
  cases hs with
  | @acquire t mode call =>
    obtain ⟨hcall, hheld⟩ := test_other (s := s.arrive t mode) hu mode
    refine ⟨hheld, .inl (hcall.trans ?_)⟩
    exact Function.update_of_ne hu ..
  | wake call => exact ⟨rfl, .inl (Function.update_of_ne hu ..)⟩
  | resume call =>
    obtain ⟨hcall, hheld⟩ := test_other (s := s) hu _
    exact ⟨hheld, .inl hcall⟩
  | @release t mode woken call held wakes =>
    refine ⟨Function.update_of_ne hu .., ?_⟩
    change (match s.call u with
      | .waiting mode asleep => .waiting mode (asleep && !woken u)
      | .outside => .outside) = s.call u ∨ _
    cases hc : s.call u with
    | outside => exact .inl rfl
    | waiting requested asleep =>
      cases asleep with
      | false => exact .inl rfl
      | true =>
        cases hw : woken u with
        | false => exact .inl rfl
        | true => exact .inr ⟨requested, rfl, by simp [LockState.awaken, LockState.release, hc, hw]⟩

end Steps

def lockSystem (T : Type) [DecidableEq T] (policy : ConcurrencyLockPolicy) :
    System (LockState T) (LockEvent T) where
  initial s := s = .init policy
  step := LockStep

end DbApi.Concurrency
