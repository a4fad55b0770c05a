import DbApi.Concurrency.ThreadPool
import DbApi.Library.Condition

/-! Nobody has to wake a worker that sleeps in a pop: the jobs in the queue are left to those
that are awake. -/

namespace DbApi.Proofs.PoolWaits
open Library Concurrency ConcurrencyThreadPool

variable {T : Type} {n capacity : Nat} {s s' : ConcurrencyThreadPool T n capacity}
variable {w : Fin n} {state : WorkerState}

/-- Where a worker stands on `not_empty`; one on its way to a pop sees what there is. -/
def waitOf : WorkerState → Option Wait
  | .asleep => some .asleep
  | .popping => some .signalled
  | _ => none

/-- The controlling thread has closed the queue and is not done yet. -/
def Closed : ControlState → Prop
  | .cancelling _ | .holding _ _ | .joining _ _ => True
  | .outside | .closing _ _ | .destroyed => False

structure Attended (s : ConcurrencyThreadPool T n capacity) : Prop where
  served : Served s.queue.jobs.length fun w => waitOf (s.worker w)
  closed : s.queue.closed = true → ∀ w, s.worker w ≠ .asleep
  shut : Closed s.controller → s.queue.closed = true
  within : ∀ index phase, s.controller = .joining index phase → index ≤ n

section Waits

theorem waitOf_asleep : waitOf state = some .asleep ↔ state = .asleep := by
  cases state with
  | asleep => simp [waitOf]
  | popping | taken | locking | locked | running | returned | released | exited => simp [waitOf]

theorem waitOf_signalled : waitOf state = some .signalled ↔ state = .popping := by
  cases state with
  | popping => simp [waitOf]
  | asleep | taken | locking | locked | running | returned | released | exited => simp [waitOf]

theorem waitOf_wake (state : WorkerState) : waitOf state.wake = (waitOf state).map Wait.signal := by
  cases state with
  | popping | asleep | taken | locking | locked | running | returned | released | exited => rfl

theorem waits_update (worker : Fin n → WorkerState) (w : Fin n) (state : WorkerState) :
    (fun u => waitOf (Function.update worker w state u)) =
      Function.update (fun u => waitOf (worker u)) w (waitOf state) := by
  funext u
  by_cases hu : u = w
  · rw [hu, Function.update_self, Function.update_self]
  · rw [Function.update_of_ne hu, Function.update_of_ne hu]

theorem waits_wakeWorkers (woken : Fin n → Bool) :
    (fun u => waitOf ((s.wakeWorkers woken).worker u)) =
      signal (fun u => waitOf (s.worker u)) woken := by
  funext u
  change waitOf (if woken u then (s.worker u).wake else s.worker u) = _
  unfold signal
  split
  · exact waitOf_wake _
  · rfl

theorem asleep_wakeWorkers {woken : Fin n → Bool} {u : Fin n}
    (h : (s.wakeWorkers woken).worker u = .asleep) : s.worker u = .asleep ∧ woken u = false := by
  have hasleep : signal (fun u => waitOf (s.worker u)) woken u = some .asleep := by
    rw [← waits_wakeWorkers]
    exact waitOf_asleep.mpr h
  obtain ⟨hbefore, hwoken⟩ := signal_asleep.mp hasleep
  exact ⟨waitOf_asleep.mp hbefore, hwoken⟩

theorem asleep_update {u : Fin n} (hstate : state ≠ .asleep)
    (h : Function.update s.worker w state u = .asleep) : s.worker u = .asleep := by
  by_cases hu : u = w
  · rw [hu, Function.update_self] at h
    exact absurd h hstate
  · rwa [Function.update_of_ne hu] at h

end Waits

section Turns

/-- The workers, the queue and the controlling thread stay. -/
theorem Attended.still (h : Attended s) (hworker : s'.worker = s.worker)
    (hqueue : s'.queue = s.queue) (hcontroller : s'.controller = s.controller) : Attended s' := by
  refine ⟨?_, ?_, ?_, ?_⟩
  · rw [hworker, hqueue]
    exact h.served
  · rw [hworker, hqueue]
    exact h.closed
  · rw [hcontroller, hqueue]
    exact h.shut
  · rw [hcontroller]
    exact h.within

/-- A worker goes on, and takes a job along if it was on its way to a pop. -/
theorem Attended.turn (h : Attended s) (hstate : state ≠ .asleep)
    (hworker : s'.worker = Function.update s.worker w state)
    (hjobs : s'.queue.jobs.length + (if waitOf (s.worker w) = some .signalled then 1 else 0) ≤
      s.queue.jobs.length)
    (hclosed : s'.queue.closed = s.queue.closed) (hcontroller : s'.controller = s.controller) :
    Attended s' := by
  refine ⟨?_, ?_, ?_, ?_⟩
  · rw [hworker, waits_update]
    refine h.served.leave ?_ hjobs
    intro hasleep
    exact hstate (waitOf_asleep.mp hasleep)
  · intro hshut u hu
    rw [hworker] at hu
    exact h.closed (hclosed.symm.trans hshut) u (asleep_update hstate hu)
  · rw [hcontroller, hclosed]
    exact h.shut
  · rw [hcontroller]
    exact h.within

theorem Attended.moves (h : Attended s) (hbefore : s.worker w ≠ .popping)
    (hstate : state ≠ .asleep) (hworker : s'.worker = Function.update s.worker w state)
    (hqueue : s'.queue = s.queue) (hcontroller : s'.controller = s.controller) : Attended s' := by
  refine h.turn hstate hworker ?_ (congrArg _ hqueue) hcontroller
  rw [hqueue, if_neg fun hsignalled => hbefore (waitOf_signalled.mp hsignalled)]
  exact Nat.le_refl _

theorem Attended.sleeps (h : Attended s) (pop : s.queue.pop = .wait) :
    Attended (s.setWorker w .asleep) where
  served := by
    have hempty : s.queue.jobs.length = 0 :=
      ConcurrencyJobQueue.length_jobs.trans (ConcurrencyJobQueue.pop_wait_empty pop)
    change Served s.queue.jobs.length _
    rw [hempty]
    exact .none_left _
  closed := fun hclosed => by
    have hopen := ConcurrencyJobQueue.pop_wait pop
    exact absurd (hopen.symm.trans hclosed) Bool.false_ne_true
  shut := h.shut
  within := h.within

/-- Nobody sleeps before a queue that is closed. -/
theorem Attended.leaves (h : Attended s) (hclosed : s.queue.closed = true) :
    Attended (s.setWorker w .exited) := by
  have hnobody : ∀ u, (s.setWorker w .exited).worker u ≠ .asleep := by
    intro u hu
    exact h.closed hclosed u (asleep_update (fun hexited => by cases hexited) hu)
  refine ⟨.of_nobody ?_, fun _ => hnobody, h.shut, h.within⟩
  intro u hu
  exact hnobody u (waitOf_asleep.mp hu)

theorem Attended.push [DecidableEq T] (h : Attended s) {t : T} {job : ConcurrencyJob} {entry : LogEntry}
    {queue : ConcurrencyJobQueue capacity} {woken : Fin n → Bool}
    (hq : s.queue.closed = false ∧ queue.closed = false ∧ queue.jobs = s.queue.jobs ++ [job])
    (wakes : Signals (fun w => s.worker w = .asleep) woken) :
    Attended ((((s.setSubmitter t .idle).setQueue queue).wakeWorkers woken).logged entry) := by
  obtain ⟨hopen, hopen', hjobs⟩ := hq
  refine ⟨?_, ?_, ?_, h.within⟩
  · change Served queue.jobs.length fun u =>
      waitOf ((((s.setSubmitter t .idle).setQueue queue).wakeWorkers woken).worker u)
    rw [waits_wakeWorkers, hjobs, List.length_append, List.length_singleton]
    apply h.served.signal
    simp only [waitOf_asleep]
    exact wakes
  · intro hclosed
    exact absurd (hopen'.symm.trans hclosed) Bool.false_ne_true
  · intro hpast
    exact absurd (hopen.symm.trans (h.shut hpast)) Bool.false_ne_true

end Turns

section Controller

/-- The controlling thread goes on, and nothing else changes. -/
theorem Attended.steer (h : Attended s) {point : ControlState}
    (hclosed : Closed point → s.queue.closed = true)
    (hwithin : ∀ index phase, point = .joining index phase → index ≤ n) :
    Attended (s.setController point) where
  served := h.served
  closed := h.closed
  shut := hclosed
  within := hwithin

theorem Attended.free (h : Attended s) {point : ControlState} (hpoint : ¬ Closed point) :
    Attended (s.setController point) := by
  refine h.steer (fun hclosed => absurd hclosed hpoint) ?_
  intro index phase hjoining
  rw [hjoining] at hpoint
  exact absurd trivial hpoint

theorem not_closed_afterShutdown (phase : Phase) : ¬ Closed (afterShutdown phase) := by
  cases phase with
  | shutdown | destroy | queueDestroy => exact id

theorem Attended.beforeJoin (h : Attended s) (hclosed : s.queue.closed = true) (phase : Phase) :
    Attended (s.setController (s.beforeJoin phase)) := by
  unfold ConcurrencyThreadPool.beforeJoin
  split
  · exact h.free (not_closed_afterShutdown phase)
  · refine h.steer (fun _ => hclosed) ?_
    intro index other hjoining
    injection hjoining with hindex
    rw [← hindex]
    exact Nat.zero_le n

theorem Attended.close (h : Attended s) {mode : ConcurrencyThreadPoolShutdownMode} (phase : Phase) :
    Attended (s.closeQueue mode phase) := by
  have hnobody : ∀ u, (((s.setQueue s.queue.close).wakeSubmitters fun _ => true).wakeWorkers
      fun _ => true).worker u ≠ .asleep := by
    intro u hu
    cases (asleep_wakeWorkers hu).2
  have hshut : Attended (((s.setQueue s.queue.close).wakeSubmitters fun _ => true).wakeWorkers
      fun _ => true) :=
    ⟨.of_nobody (fun u hu => hnobody u (waitOf_asleep.mp hu)), fun _ => hnobody, fun _ => rfl,
      h.within⟩
  unfold ConcurrencyThreadPool.closeQueue
  split
  · exact hshut.steer (fun _ => rfl) (fun _ _ hjoining => by cases hjoining)
  · exact hshut.beforeJoin rfl phase

theorem Attended.cancels (h : Attended s) {phase : Phase} {job : ConcurrencyJob}
    {queue : ConcurrencyJobQueue capacity} {woken : T → Bool} (at_ : s.controller = .cancelling phase)
    (hq : queue.closed = s.queue.closed ∧ s.queue.jobs = job :: queue.jobs) :
    Attended (((s.setController (.holding job phase)).setQueue queue).wakeSubmitters woken) := by
  have hclosed : s.queue.closed = true := by
    apply h.shut
    rw [at_]
    trivial
  refine ⟨.of_nobody ?_, fun _ => h.closed hclosed, fun _ => hq.1.trans hclosed, ?_⟩
  · intro u hu
    exact h.closed hclosed u (waitOf_asleep.mp hu)
  · intro index other hjoining
    cases hjoining

theorem Attended.cancelled (h : Attended s) {phase : Phase} (at_ : s.controller = .cancelling phase) :
    Attended (s.afterCancel phase) := by
  have hclosed : s.queue.closed = true := by
    apply h.shut
    rw [at_]
    trivial
  cases phase with
  | queueDestroy =>
    exact ⟨h.served, h.closed, fun hpast => hpast.elim, fun _ _ hjoining => by cases hjoining⟩
  | shutdown | destroy => exact h.beforeJoin hclosed _

end Controller

variable [DecidableEq T]

theorem Attended.step (h : Attended s) {event : PoolEvent T n} (hs : PoolStep s event s') :
    Attended s' := by
  have goes : ∀ {w : Fin n} {before state : WorkerState}
      {s' : ConcurrencyThreadPool T n capacity}, s.worker w = before → before ≠ .popping →
      state ≠ .asleep → s'.worker = Function.update s.worker w state → s'.queue = s.queue →
      s'.controller = s.controller → Attended s' := by
    intro w before state s' at_ hbefore hstate hworker hqueue hcontroller
    refine h.moves ?_ hstate hworker hqueue hcontroller
    rw [at_]
    exact hbefore
  cases hs with
  | submit idle alone =>
    unfold ConcurrencyThreadPool.submit
    dsimp only
    split
    · exact h.still rfl rfl rfl
    · exact h.still rfl rfl rfl
  | pushRefused | pushWaits | wakeSubmitter | wakeLock | callback => exact h.still rfl rfl rfl
  | pushAccepted call push wakes =>
    split at push
    · exact h.push (ConcurrencyJobQueue.push_accept push) wakes
    · exact h.push (ConcurrencyJobQueue.tryPush_accept push) wakes
  | popWaits at_ pop => exact h.sleeps pop
  | popClosed at_ pop => exact h.leaves (ConcurrencyJobQueue.pop_closed pop).1
  | @popJob w job queue woken at_ pop wakes =>
    obtain ⟨hclosed, hjobs⟩ := ConcurrencyJobQueue.pop_job pop
    have hleaves : WorkerState.taken job ≠ .asleep := fun h => by cases h
    refine h.turn hleaves rfl ?_ hclosed rfl
    change queue.jobs.length + _ ≤ _
    rw [at_, if_pos (waitOf_signalled.mpr rfl), hjobs, List.length_cons]
  | wakeWorker at_ =>
    exact goes at_ (fun h => by cases h) (fun h => by cases h) rfl rfl rfl
  | acquire at_ lock =>
    refine goes at_ (fun h => by cases h) ?_ rfl rfl rfl
    split
    · exact fun h => by cases h
    · exact fun h => by cases h
  | resume at_ lock =>
    refine goes at_ (fun h => by cases h) ?_ rfl rfl rfl
    split
    · exact fun h => by cases h
    · exact fun h => by cases h
  | run at_ => exact goes at_ (fun h => by cases h) (fun h => by cases h) rfl rfl rfl
  | runReturns at_ call held =>
    exact goes at_ (fun h => by cases h) (fun h => by cases h) rfl rfl rfl
  | release at_ lock => exact goes at_ (fun h => by cases h) (fun h => by cases h) rfl rfl rfl
  | finish at_ => exact goes at_ (fun h => by cases h) (fun h => by cases h) rfl rfl rfl
  | shutdown outside ready =>
    split
    · exact h
    · exact ⟨h.served, h.closed, fun hpast => hpast.elim, fun _ _ hjoining => by cases hjoining⟩
  | destroy outside ready alone =>
    split
    · exact h.free id
    · exact ⟨h.served, h.closed, fun hpast => hpast.elim, fun _ _ hjoining => by cases hjoining⟩
  | close at_ => exact h.close _
  | cancelNext at_ pop wakes => exact h.cancels at_ (ConcurrencyJobQueue.popPending_some pop)
  | cancelDone at_ pop => exact h.cancelled at_
  | cancelFinish at_ =>
    have hclosed : s.queue.closed = true := by
      apply h.shut
      rw [at_]
      trivial
    exact ⟨h.served, h.closed, fun _ => hclosed, fun _ _ hjoining => by cases hjoining⟩
  | @join phase w at_ exited =>
    have hclosed : s.queue.closed = true := by
      apply h.shut
      rw [at_]
      trivial
    refine h.steer (fun _ => hclosed) ?_
    intro index other hjoining
    injection hjoining with hindex
    rw [← hindex]
    exact w.isLt
  | @joined phase at_ =>
    have hfree := h.free (not_closed_afterShutdown phase)
    exact ⟨hfree.served, hfree.closed, hfree.shut, hfree.within⟩

end DbApi.Proofs.PoolWaits
