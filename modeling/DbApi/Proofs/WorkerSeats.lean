import DbApi.Proofs.LockProgress
import DbApi.Proofs.PoolWaits
import DbApi.Proofs.Serializability

/-! What each worker of the server holds of the lock, wherever it stands. -/

namespace DbApi.Proofs.WorkerSeats
open Library Concurrency Http Index DbApi.Runtime ConnectionOwnership Serializability

variable {n capacity : Nat}

section Jobs

variable {T : Type} {p p' : ConcurrencyThreadPool T n capacity} {job : ConcurrencyJob}

def submission : SubmitState → Option ConcurrencyJob
  | .pushing job _ | .asleep job => some job
  | .idle => none

def jobOf : WorkerState → Option ConcurrencyJob
  | .taken job | .locking job | .locked job | .running job | .returned job _
  | .released job _ => some job
  | .popping | .asleep | .exited => none

/-- A submitter, the queue or a worker has the job. -/
inductive InPool (p : ConcurrencyThreadPool T n capacity) (job : ConcurrencyJob) : Prop where
  | queued (h : job ∈ p.queue.jobs)
  | submitted (t : T) (h : submission (p.submitter t) = some job)
  | worked (w : Fin n) (h : jobOf (p.worker w) = some job)

theorem jobOf_wake (state : WorkerState) : jobOf state.wake = jobOf state := by
  cases state with
  | popping | asleep | taken | locking | locked | running | returned | released | exited => rfl

theorem submission_wake (state : SubmitState) : submission state.wake = submission state := by
  cases state with
  | idle | pushing | asleep => rfl

theorem jobOf_wakeWorkers (woken : Fin n → Bool) (u : Fin n) :
    jobOf ((p.wakeWorkers woken).worker u) = jobOf (p.worker u) := by
  change jobOf (if woken u then (p.worker u).wake else p.worker u) = _
  split
  · exact jobOf_wake _
  · rfl

theorem submission_wakeSubmitters (woken : T → Bool) (t : T) :
    submission ((p.wakeSubmitters woken).submitter t) = submission (p.submitter t) := by
  change submission (if woken t then (p.submitter t).wake else p.submitter t) = _
  split
  · exact submission_wake _
  · rfl

theorem InPool.parts (h : InPool p' job) (hqueue : ∀ job ∈ p'.queue.jobs, InPool p job)
    (hsubmitter : ∀ t job, submission (p'.submitter t) = some job → InPool p job)
    (hworker : ∀ u job, jobOf (p'.worker u) = some job → InPool p job) : InPool p job := by
  cases h with
  | queued h => exact hqueue job h
  | submitted t h => exact hsubmitter t job h
  | worked u h => exact hworker u job h

theorem InPool.still (h : InPool p' job) (hqueue : p'.queue = p.queue)
    (hsubmitter : p'.submitter = p.submitter) (hworker : p'.worker = p.worker) : InPool p job := by
  refine h.parts ?_ ?_ ?_
  · rw [hqueue]
    exact fun _ hjob => .queued hjob
  · rw [hsubmitter]
    exact fun t _ hjob => .submitted t hjob
  · rw [hworker]
    exact fun u _ hjob => .worked u hjob

/-- A worker goes on with the job it has, with one from the queue, or without. -/
theorem InPool.update {w u : Fin n} {state : WorkerState}
    (hstate : ∀ job, jobOf state = some job → InPool p job)
    (h : jobOf (Function.update p.worker w state u) = some job) : InPool p job := by
  by_cases hu : u = w
  · rw [hu, Function.update_self] at h
    exact hstate job h
  · rw [Function.update_of_ne hu] at h
    exact .worked u h

theorem InPool.moves {w : Fin n} {before state : WorkerState} (h : InPool p' job)
    (at_ : p.worker w = before) (hqueue : p'.queue = p.queue)
    (hsubmitter : p'.submitter = p.submitter)
    (hworker : p'.worker = Function.update p.worker w state)
    (hstate : jobOf state = none ∨ jobOf state = jobOf before) : InPool p job := by
  refine h.parts ?_ ?_ ?_
  · rw [hqueue]
    exact fun _ hjob => .queued hjob
  · rw [hsubmitter]
    exact fun t _ hjob => .submitted t hjob
  · intro u other hjob
    rw [hworker] at hjob
    refine InPool.update ?_ hjob
    intro own hown
    rcases hstate with hnone | hsame
    · rw [hnone] at hown
      cases hown
    · refine .worked w ?_
      rw [at_, ← hsame]
      exact hown

theorem InPool.pop {w : Fin n} {own : ConcurrencyJob} {queue : ConcurrencyJobQueue capacity}
    {woken : T → Bool} (hjobs : p.queue.jobs = own :: queue.jobs)
    (h : InPool (((p.setWorker w (.taken own)).setQueue queue).wakeSubmitters woken) job) :
    InPool p job := by
  have hfirst : InPool p own := .queued (hjobs ▸ List.mem_cons_self)
  refine h.parts ?_ ?_ ?_
  · intro other hother
    exact .queued (hjobs ▸ List.mem_cons_of_mem _ hother)
  · intro t other hjob
    have hsame := submission_wakeSubmitters (p := (p.setWorker w (.taken own)).setQueue queue) woken t
    exact .submitted t (hsame.symm.trans hjob)
  · intro u other hjob
    refine InPool.update ?_ hjob
    intro _ hown
    injection hown with hown
    rw [← hown]
    exact hfirst

theorem InPool.cancel {own : ConcurrencyJob} {queue : ConcurrencyJobQueue capacity}
    {point : ControlState} {woken : T → Bool} (hjobs : p.queue.jobs = own :: queue.jobs)
    (h : InPool (((p.setController point).setQueue queue).wakeSubmitters woken) job) :
    InPool p job := by
  refine h.parts ?_ ?_ ?_
  · intro other hother
    exact .queued (hjobs ▸ List.mem_cons_of_mem _ hother)
  · intro t other hjob
    have hsame := submission_wakeSubmitters (p := (p.setController point).setQueue queue) woken t
    exact .submitted t (hsame.symm.trans hjob)
  · exact fun u _ hjob => .worked u hjob

theorem InPool.close {mode : ConcurrencyThreadPoolShutdownMode} {phase : Phase}
    (h : InPool (p.closeQueue mode phase) job) : InPool p job := by
  refine h.parts ?_ ?_ ?_
  · exact fun _ hjob => .queued hjob
  · intro t other hjob
    have hsame := submission_wakeSubmitters (p := p.setQueue p.queue.close) (fun _ => true) t
    exact .submitted t (hsame.symm.trans hjob)
  · intro u other hjob
    have hsame := jobOf_wakeWorkers
      (p := (p.setQueue p.queue.close).wakeSubmitters fun _ => true) (fun _ => true) u
    exact .worked u (hsame.symm.trans hjob)

variable [DecidableEq T]

/-- A submitter goes on with the job it has, or is done. -/
theorem InPool.submitter {t u : T} {state : SubmitState}
    (hstate : submission state = none ∨ submission state = submission (p.submitter t))
    (h : submission (Function.update p.submitter t state u) = some job) : InPool p job := by
  by_cases hu : u = t
  · rw [hu, Function.update_self] at h
    rcases hstate with hnone | hsame
    · rw [hnone] at h
      cases h
    · exact .submitted t (hsame.symm.trans h)
  · rw [Function.update_of_ne hu] at h
    exact .submitted u h

theorem InPool.push {t : T} {own : ConcurrencyJob} {blocking : Bool}
    {queue : ConcurrencyJobQueue capacity} {woken : Fin n → Bool} {entry : LogEntry}
    (call : p.submitter t = .pushing own blocking) (hjobs : queue.jobs = p.queue.jobs ++ [own])
    (h : InPool ((((p.setSubmitter t .idle).setQueue queue).wakeWorkers woken).logged entry) job) :
    InPool p job := by
  refine h.parts ?_ ?_ ?_
  · intro other hother
    change other ∈ queue.jobs at hother
    rw [hjobs] at hother
    rcases List.mem_append.mp hother with hold | hnew
    · exact .queued hold
    · refine .submitted t ?_
      rw [call, List.mem_singleton.mp hnew]
      rfl
  · exact fun _ _ hjob => .submitter (.inl rfl) hjob
  · intro u other hjob
    have hsame := jobOf_wakeWorkers (p := (p.setSubmitter t .idle).setQueue queue) woken u
    exact .worked u (hsame.symm.trans hjob)

/-- Only a submission brings a job. -/
theorem InPool.before {event : PoolEvent T n} (hs : PoolStep p event p')
    (hother : ∀ t, event ≠ .submit t) (h : InPool p' job) : InPool p job := by
  have submits : ∀ {t : T} {state : SubmitState} {q : ConcurrencyThreadPool T n capacity},
      InPool q job → q.queue = p.queue → q.submitter = Function.update p.submitter t state →
      q.worker = p.worker →
      submission state = none ∨ submission state = submission (p.submitter t) → InPool p job := by
    intro t state q hin hqueue hsubmitter hworker hstate
    refine hin.parts ?_ ?_ ?_
    · rw [hqueue]
      exact fun _ hjob => .queued hjob
    · rw [hsubmitter]
      exact fun _ _ hjob => .submitter hstate hjob
    · rw [hworker]
      exact fun u _ hjob => .worked u hjob
  cases hs with
  | submit idle alone => exact absurd rfl (hother _)
  | pushRefused call push => exact submits h rfl rfl rfl (.inl rfl)
  | pushWaits call push => exact submits h rfl rfl rfl (.inr (congrArg submission call).symm)
  | pushAccepted call push wakes =>
    split at push
    · exact h.push call (ConcurrencyJobQueue.push_accept push).2.2
    · exact h.push call (ConcurrencyJobQueue.tryPush_accept push).2.2
  | wakeSubmitter call => exact submits h rfl rfl rfl (.inr (congrArg submission call).symm)
  | popWaits at_ pop => exact h.moves at_ rfl rfl rfl (.inl rfl)
  | popClosed at_ pop => exact h.moves at_ rfl rfl rfl (.inl rfl)
  | popJob at_ pop wakes => exact h.pop (ConcurrencyJobQueue.pop_job pop).2
  | wakeWorker at_ => exact h.moves at_ rfl rfl rfl (.inl rfl)
  | acquire at_ lock =>
    refine h.moves at_ rfl rfl rfl (.inr ?_)
    split
    · rfl
    · rfl
  | resume at_ lock =>
    refine h.moves at_ rfl rfl rfl (.inr ?_)
    split
    · rfl
    · rfl
  | run at_ => exact h.moves at_ rfl rfl rfl (.inr rfl)
  | runReturns at_ call held => exact h.moves at_ rfl rfl rfl (.inr rfl)
  | release at_ lock => exact h.moves at_ rfl rfl rfl (.inr rfl)
  | finish at_ => exact h.moves at_ rfl rfl rfl (.inl rfl)
  | shutdown outside ready =>
    split at h
    · exact h
    · exact h.still rfl rfl rfl
  | destroy outside ready alone =>
    split at h
    · exact h.still rfl rfl rfl
    · exact h.still rfl rfl rfl
  | close at_ => exact h.close
  | cancelNext at_ pop wakes => exact h.cancel (ConcurrencyJobQueue.popPending_some pop).2
  | @cancelDone phase at_ pop =>
    cases phase with
    | shutdown | destroy | queueDestroy => exact h.still rfl rfl rfl
  | wakeLock | callback | cancelFinish | join | joined => exact h.still rfl rfl rfl

end Jobs

section Turns

variable {T : Type} {p p' : ConcurrencyThreadPool T n capacity} {u w : Fin n}

/-- Outside of what a job is locked for. -/
def Outer : WorkerState → Prop
  | .popping | .asleep | .taken _ | .released _ _ | .exited => True
  | .locking _ | .locked _ | .running _ | .returned _ _ => False

/-- Between the acquire and the release for a job. -/
def Inner : WorkerState → Prop
  | .locked _ | .running _ | .returned _ _ => True
  | .popping | .asleep | .taken _ | .locking _ | .released _ _ | .exited => False

/-- What another thread's step leaves of a thread in the lock manager. -/
structure Aside (locks locks' : LockState (Fin n)) (u : Fin n) : Prop where
  held : locks'.held u = locks.held u
  call : locks'.call u = locks.call u ∨
    ∃ mode, locks.call u = .waiting mode true ∧ locks'.call u = .waiting mode false

theorem aside_refl (locks : LockState (Fin n)) (u : Fin n) : Aside locks locks u := ⟨rfl, .inl rfl⟩

theorem aside_step {locks locks' : LockState (Fin n)} {event : LockEvent (Fin n)}
    (hs : LockStep locks event locks') (hu : u ≠ event.thread) : Aside locks locks' u :=
  ⟨(step_other hs hu).1, (step_other hs hu).2⟩

/-- What a step of the pool outside of the callbacks is to one worker. -/
inductive Turn (p p' : ConcurrencyThreadPool T n capacity) (u : Fin n) : Prop where
  | stays (worker : p'.worker u = p.worker u) (aside : Aside p.lockManager p'.lockManager u)
  | outer (before : Outer (p.worker u)) (after : Outer (p'.worker u))
    (aside : Aside p.lockManager p'.lockManager u)
  | takes (job : ConcurrencyJob) (before : p.worker u = .taken job)
    (after : p'.worker u = if p'.lockManager.call u = .outside then .locked job else .locking job)
    (lock : LockStep p.lockManager (.acquire u job.lockMode) p'.lockManager)
  | locking (job : ConcurrencyJob) (before : p.worker u = .locking job)
  | inner (before : Inner (p.worker u)) (after : Inner (p'.worker u))
    (outside : ∀ job, p.worker u = .running job → p.lockManager.call u = .outside ∧
      p.lockManager.held u = [job.lockMode])
    (aside : Aside p.lockManager p'.lockManager u)
  | leaves (job : ConcurrencyJob) (runStatus : Int) (before : p.worker u = .returned job runStatus)
    (after : p'.worker u = .released job runStatus)
    (lock : LockStep p.lockManager (.release u job.lockMode) p'.lockManager)

/-- A turn is about the workers and the locks. -/
theorem Turn.same {q : ConcurrencyThreadPool T n capacity} (h : Turn p p' u)
    (hworker : q.worker = p'.worker) (hlocks : q.lockManager = p'.lockManager) : Turn p q u := by
  cases h with
  | stays worker aside => exact .stays (hworker ▸ worker) (hlocks ▸ aside)
  | outer before after aside => exact .outer before (hworker ▸ after) (hlocks ▸ aside)
  | takes job before after lock =>
    refine .takes job before ?_ (hlocks ▸ lock)
    rw [hworker, hlocks]
    exact after
  | locking job before => exact .locking job before
  | inner before after outside aside =>
    exact .inner before (hworker ▸ after) outside (hlocks ▸ aside)
  | leaves job runStatus before after lock =>
    exact .leaves job runStatus before (hworker ▸ after) (hlocks ▸ lock)

theorem turn_setWorker {state : WorkerState} {locks : LockState (Fin n)}
    (haside : u ≠ w → Aside p.lockManager locks u)
    (hown : u = w → Turn p ((p.setLocks locks).setWorker w state) u) :
    Turn p ((p.setLocks locks).setWorker w state) u := by
  by_cases hu : u = w
  · exact hown hu
  · exact .stays (Function.update_of_ne hu ..) (haside hu)

/-- The workers that wake up were outside of everything and are so again. -/
theorem turn_wakeWorkers {q : ConcurrencyThreadPool T n capacity} {woken : Fin n → Bool}
    (hworker : q.worker = p.worker) (hlocks : q.lockManager = p.lockManager) :
    Turn p (q.wakeWorkers woken) u := by
  have haside : Aside p.lockManager (q.wakeWorkers woken).lockManager u := by
    change Aside _ q.lockManager u
    rw [hlocks]
    exact aside_refl _ u
  have hwake : (q.wakeWorkers woken).worker u =
      if woken u then (p.worker u).wake else p.worker u := by
    rw [← hworker]
    rfl
  cases hwoken : woken u with
  | false =>
    rw [hwoken] at hwake
    exact .stays hwake haside
  | true =>
    rw [hwoken] at hwake
    cases hstate : p.worker u with
    | asleep =>
      rw [hstate] at hwake
      refine .outer ?_ ?_ haside
      · rw [hstate]
        trivial
      · rw [hwake]
        trivial
    | popping | taken | locking | locked | running | returned | released | exited =>
      rw [hstate] at hwake
      exact .stays (hwake.trans hstate.symm) haside

theorem pool_turn [DecidableEq T] {event : PoolEvent T n} (hs : PoolStep p event p')
    (hother : ∀ w, event ≠ .callback w) (u : Fin n) : Turn p p' u := by
  have still : ∀ {q : ConcurrencyThreadPool T n capacity}, q.worker = p.worker →
      q.lockManager = p.lockManager → Turn p q u := by
    intro q hworker hlocks
    refine .stays (congrFun hworker u) ?_
    rw [hlocks]
    exact aside_refl _ u
  have own : ∀ {q : ConcurrencyThreadPool T n capacity} {w : Fin n} {before state : WorkerState},
      p.worker w = before → q.worker = Function.update p.worker w state →
      q.lockManager = p.lockManager → (Outer before ∧ Outer state) ∨ (Inner before ∧ Inner state ∧
        ∀ job, before = .running job → p.lockManager.call w = .outside ∧
          p.lockManager.held w = [job.lockMode]) → Turn p q u := by
    intro q w before state at_ hworker hlocks hstate
    have haside : Aside p.lockManager q.lockManager u := by
      rw [hlocks]
      exact aside_refl _ u
    by_cases hu : u = w
    · have hafter : q.worker u = state := by
        rw [hworker, hu, Function.update_self]
      subst hu
      rw [← at_] at hstate
      rcases hstate with ⟨hbefore, hstate⟩ | ⟨hbefore, hstate, hrunning⟩
      · exact .outer hbefore (hafter ▸ hstate) haside
      · exact .inner hbefore (hafter ▸ hstate) hrunning haside
    · refine .stays ?_ haside
      rw [hworker, Function.update_of_ne hu]
  cases hs with
  | submit idle alone =>
    unfold ConcurrencyThreadPool.submit
    dsimp only
    split
    · exact still rfl rfl
    · exact still rfl rfl
  | pushRefused | pushWaits | wakeSubmitter => exact still rfl rfl
  | @pushAccepted t job blocking queue woken call push wakes =>
    have hturn : Turn p (((p.setSubmitter t .idle).setQueue queue).wakeWorkers woken) u :=
      turn_wakeWorkers rfl rfl
    exact hturn.same rfl rfl
  | popWaits at_ pop => exact own at_ rfl rfl (.inl ⟨trivial, trivial⟩)
  | popClosed at_ pop => exact own at_ rfl rfl (.inl ⟨trivial, trivial⟩)
  | popJob at_ pop wakes => exact own at_ rfl rfl (.inl ⟨trivial, trivial⟩)
  | wakeWorker at_ => exact own at_ rfl rfl (.inl ⟨trivial, trivial⟩)
  | @acquire w job locks at_ lock =>
    refine turn_setWorker (aside_step lock) ?_
    rintro rfl
    exact .takes job at_ (Function.update_self ..) lock
  | @resume w job locks at_ lock =>
    refine turn_setWorker (aside_step lock) ?_
    rintro rfl
    exact .locking job at_
  | @wakeLock w job locks at_ lock =>
    by_cases hu : u = w
    · subst hu
      exact .locking job at_
    · exact .stays rfl (aside_step lock hu)
  | run at_ =>
    exact own at_ rfl rfl (.inr ⟨trivial, trivial, fun _ hrunning => by cases hrunning⟩)
  | callback => exact absurd rfl (hother _)
  | runReturns at_ call held =>
    refine own at_ rfl rfl (.inr ⟨trivial, trivial, ?_⟩)
    intro job hrunning
    injection hrunning with hjob
    rw [← hjob]
    exact ⟨call, held⟩
  | @release w job runStatus locks at_ lock =>
    refine turn_setWorker (aside_step lock) ?_
    rintro rfl
    exact .leaves job runStatus at_ (Function.update_self ..) lock
  | finish at_ => exact own at_ rfl rfl (.inl ⟨trivial, trivial⟩)
  | shutdown outside ready =>
    split
    · exact still rfl rfl
    · exact still rfl rfl
  | destroy outside ready alone =>
    split
    · exact still rfl rfl
    · exact still rfl rfl
  | @close mode phase at_ =>
    have hturn : Turn p (((p.setQueue p.queue.close).wakeSubmitters fun _ => true).wakeWorkers
        fun _ => true) u := turn_wakeWorkers rfl rfl
    exact hturn.same rfl rfl
  | @cancelDone phase at_ pop =>
    cases phase with
    | shutdown | destroy | queueDestroy => exact still rfl rfl
  | cancelNext | cancelFinish | join | joined => exact still rfl rfl

end Turns

/-- What a worker has of the lock, by where it stands and by its handling. -/
inductive Seat : WorkerState → HandlerState → CallState → List ConcurrencyLockMode → Prop where
  | outer {worker : WorkerState} (h : Outer worker) : Seat worker .idle .outside []
  | idle {worker : WorkerState} (h : Inner worker) : Seat worker .idle .outside [.none]
  | acquiring (job : ConcurrencyJob) (request : HttpRequest) (sql : CString) (asleep : Bool) :
    Seat (.running job) (.acquiring request sql)
      (.waiting (concurrencyLockModeFromSql (some sql.bytes)) asleep) [.none]
  | executing (job : ConcurrencyJob) (request : HttpRequest) (sql : CString)
    (rest : Program Database Execution) : Seat (.running job) (.executing request sql rest) .outside
      [concurrencyLockModeFromSql (some sql.bytes), .none]
  | answering {worker : WorkerState} (h : Inner worker) (effects : List Effect) :
    Seat worker (.answering effects) .outside [.none]

section Seats

variable {worker : WorkerState} {handler : HandlerState} {call call' : CallState}
  {held held' : List ConcurrencyLockMode} {job : ConcurrencyJob} {runStatus : Int}

theorem worker_cases (worker : WorkerState) :
    Outer worker ∨ Inner worker ∨ ∃ job, worker = .locking job := by
  cases worker with
  | locking job => exact .inr (.inr ⟨job, rfl⟩)
  | popping | asleep | taken | released | exited => exact .inl trivial
  | locked | running | returned => exact .inr (.inl trivial)

theorem outer_inner (houter : Outer worker) (hinner : Inner worker) : False := by
  cases worker with
  | popping | asleep | taken | released | exited => exact hinner
  | locking | locked | running | returned => exact houter

theorem Seat.aside (h : Seat worker handler call held) (hheld : held' = held)
    (hcall : call' = call ∨ ∃ mode, call = .waiting mode true ∧ call' = .waiting mode false) :
    Seat worker handler call' held' := by
  subst hheld
  rcases hcall with hsame | ⟨mode, hbefore, hafter⟩
  · rw [hsame]
    exact h
  · rw [hbefore] at h
    rw [hafter]
    cases h with
    | acquiring job request sql => exact .acquiring job request sql false

theorem Seat.of_outer (h : Seat worker handler call held) (houter : Outer worker) :
    handler = .idle ∧ call = .outside ∧ held = [] := by
  cases h with
  | outer => exact ⟨rfl, rfl, rfl⟩
  | idle hinner | answering hinner => exact (outer_inner houter hinner).elim
  | acquiring | executing => exact houter.elim

/-- A job takes no lock, so whoever has nothing but its lock is not in a statement. -/
theorem Seat.of_inner (h : Seat worker handler call held) (hinner : Inner worker)
    (houtside : ∀ job, worker = .running job → call = .outside ∧ held = [.none]) :
    call = .outside ∧ held = [.none] ∧
      (handler = .idle ∨ ∃ effects, handler = .answering effects) := by
  cases h with
  | outer houter => exact (outer_inner houter hinner).elim
  | idle => exact ⟨rfl, rfl, .inl rfl⟩
  | answering _ effects => exact ⟨rfl, rfl, .inr ⟨effects, rfl⟩⟩
  | acquiring job =>
    obtain ⟨hcall, -⟩ := houtside job rfl
    cases hcall
  | executing job =>
    obtain ⟨-, hheld⟩ := houtside job rfl
    cases congrArg List.length hheld

theorem Seat.not_locking (h : Seat (.locking job) handler call held) : False := by
  cases h with
  | outer houter => exact houter
  | idle hinner | answering hinner => exact hinner

theorem Seat.turn {p p' : ConcurrencyThreadPool Unit n capacity} {u : Fin n}
    (h : Seat (p.worker u) handler (p.lockManager.call u) (p.lockManager.held u))
    (hturn : Turn p p' u) (hplain : ∀ job, InPool p job → job.lockMode = .none)
    (hrequests : LockProgress.Requests p'.lockManager)
    (hanswers : ∀ effects, handler = .answering effects → ∃ job, p'.worker u = .running job) :
    Seat (p'.worker u) handler (p'.lockManager.call u) (p'.lockManager.held u) := by
  have hmode : ∀ {job}, jobOf (p.worker u) = some job → job.lockMode = .none := fun hjob =>
    hplain _ (.worked u hjob)
  cases hturn with
  | stays hworker aside =>
    rw [hworker]
    exact h.aside aside.held aside.call
  | outer before after aside =>
    obtain ⟨hhandler, hcall, hheld⟩ := h.of_outer before
    have hseat : Seat (p'.worker u) handler (p.lockManager.call u) (p.lockManager.held u) := by
      rw [hhandler, hcall, hheld]
      exact .outer after
    exact hseat.aside aside.held aside.call
  | takes job before after lock =>
    have hnone := hmode (congrArg jobOf before)
    obtain ⟨hhandler, -, hheld⟩ := h.of_outer (by rw [before]; trivial)
    rw [hnone] at lock
    rcases acquire_own lock with ⟨hcall, hown⟩ | ⟨hcall, -⟩
    · rw [hcall, if_pos rfl] at after
      rw [after, hcall, hown, hheld, hhandler]
      exact .idle trivial
    · exact absurd rfl (hrequests u .none true hcall)
  | locking job before =>
    rw [before] at h
    exact h.not_locking.elim
  | inner before after outside aside =>
    obtain ⟨hcall, hheld, hhandler⟩ := h.of_inner before (by
      intro job hrunning
      obtain ⟨hcall, hheld⟩ := outside job hrunning
      rw [hmode (congrArg jobOf hrunning)] at hheld
      exact ⟨hcall, hheld⟩)
    have hseat : Seat (p'.worker u) handler (p.lockManager.call u) (p.lockManager.held u) := by
      rw [hcall, hheld]
      rcases hhandler with hidle | ⟨effects, heffects⟩
      · rw [hidle]
        exact .idle after
      · rw [heffects]
        exact .answering after effects
    exact hseat.aside aside.held aside.call
  | leaves job runStatus before after lock =>
    have hnone := hmode (congrArg jobOf before)
    rw [hnone] at lock
    obtain ⟨hcall, hheld⟩ := release_own lock
    obtain ⟨-, hbefore, hhandler⟩ := h.of_inner (by rw [before]; trivial) (by
      intro other hrunning
      rw [before] at hrunning
      cases hrunning)
    rw [hbefore] at hheld
    rcases hhandler with hidle | ⟨effects, heffects⟩
    · rw [after, hcall, hheld, hidle]
      exact .outer trivial
    · obtain ⟨other, hrunning⟩ := hanswers effects heffects
      rw [after] at hrunning
      cases hrunning

end Seats

section Pool

variable {s s' : RuntimeState n capacity} {event : ServingEvent n}

/-- What a step of the runtime is to the pool. -/
inductive PoolPart (s s' : RuntimeState n capacity) (event : ServingEvent n) : Prop where
  | same (pool : s'.pool = s.pool)
  | submits (step : PoolStep s.pool (.submit ()) s'.pool)
    (pool : s'.pool = s.pool.submit () false .none true)
  | takes (inner : PoolEvent Unit n) (step : PoolStep s.pool inner s'.pool)
    (other : ∀ t, inner ≠ .submit t) (inside : ∀ w, inner = .callback w → event = .pool (.callback w))

theorem pool_part (h : Threads s) (hs : RuntimeStep s event s') : PoolPart s s' event := by
  have takes : ∀ {inner : PoolEvent Unit n}, PoolStep s.pool inner s'.pool →
      (∀ t, inner ≠ .submit t) → (∀ w, inner ≠ .callback w) → PoolPart s s' event :=
    fun step hother hinside => .takes _ step hother fun w heq => absurd heq (hinside w)
  cases hs with
  | @submit client at_ alone =>
    have hidle : s.pool.submitter () = .idle := h.idle fun other heq => by
      rw [at_] at heq
      cases heq
    exact .submits (.submit hidle alone) rfl
  | push at_ step answer => exact takes step (fun _ h => by cases h) (fun _ h => by cases h)
  | run at_ step => exact takes step (fun _ h => by cases h) (fun _ h => by cases h)
  | runReturns at_ step => exact takes step (fun _ h => by cases h) (fun _ h => by cases h)
  | @finish w job runStatus pool at_ step =>
    refine @takes (.finish w) ?_ (fun _ h => by cases h) (fun _ h => by cases h)
    change PoolStep s.pool _ (RuntimeState.concurrencyJobFinish _ _ _).pool
    rw [(finish_frame ..).1]
    exact step
  | @cancelFinish job phase pool at_ step =>
    refine @takes .cancelFinish ?_ (fun _ h => by cases h) (fun _ h => by cases h)
    rw [(finish_frame ..).1]
    exact step
  | @pool event pool internal step =>
    refine .takes event step ?_ fun w heq => by rw [heq]
    rintro t rfl
    cases internal
  | @enter w client at_ => exact .same (runClientJob_frame s w client).1
  | @finishRejected client at_ => exact .same (finish_frame s client .rejected).1
  | accept | allocationFails | reject | disown | use | close => exact .same rfl

theorem inPool_submit {p : ConcurrencyThreadPool Unit n capacity} {job : ConcurrencyJob}
    (h : InPool (p.submit () false .none true) job) : InPool p job ∨ job.lockMode = .none := by
  unfold ConcurrencyThreadPool.submit at h
  dsimp only at h
  split at h
  · cases h with
    | queued hjob => exact .inl (.queued hjob)
    | worked w hjob => exact .inl (.worked w hjob)
    | submitted t hjob =>
      right
      change submission (Function.update p.submitter () _ t) = _ at hjob
      cases t
      rw [Function.update_self] at hjob
      injection hjob with hjob
      rw [← hjob]
  · exact .inl (h.still rfl rfl rfl)

end Pool

section Server

variable {service : Service} {s s' : ServerState n capacity} {runtime : RuntimeState n capacity}
  {w : Fin n} {request : HttpRequest} {sql : CString}

/-- No job of the pool takes a lock, and every worker has its seat. -/
structure Seated (s : ServerState n capacity) : Prop where
  plain : ∀ job, InPool s.runtime.pool job → job.lockMode = .none
  seats : ∀ w, Seat (s.runtime.pool.worker w) (s.handler w) (s.locks.call w) (s.locks.held w)

theorem plain_step (h : Seated s) (hthreads : Threads s.runtime) {event : ServingEvent n}
    (hs : RuntimeStep s.runtime event runtime) {job : ConcurrencyJob}
    (hjob : InPool runtime.pool job) : job.lockMode = .none := by
  cases pool_part hthreads hs with
  | same pool =>
    rw [pool] at hjob
    exact h.plain job hjob
  | submits step pool =>
    rw [pool] at hjob
    rcases inPool_submit hjob with hold | hnone
    · exact h.plain job hold
    · exact hnone
  | takes inner step other inside => exact h.plain job (hjob.before step other)

/-- The call of the lock manager inside of a callback, with the workers where they were. -/
theorem callback_worker (step : RuntimeStep s.runtime (.pool (.callback w)) runtime) :
    runtime.pool.worker = s.runtime.pool.worker := by
  cases step with
  | pool internal step =>
    cases step
    rfl

/-- A worker takes a step of the lock manager in its handling. -/
theorem Seated.calls (h : Seated s) (hthreads : Threads s.runtime)
    (step : RuntimeStep s.runtime (.pool (.callback w)) runtime) {event : LockEvent (Fin n)}
    (lock : LockStep s.locks event runtime.pool.lockManager) (hthread : event.thread = w)
    {handler : Fin n → HandlerState} (hothers : ∀ u, u ≠ w → handler u = s.handler u)
    (hown : Seat (s.runtime.pool.worker w) (handler w) (runtime.pool.lockManager.call w)
      (runtime.pool.lockManager.held w)) :
    Seated { s.setRuntime runtime with handler } := by
  refine ⟨fun job hjob => plain_step h hthreads step hjob, ?_⟩
  intro u
  change Seat (runtime.pool.worker u) (handler u) (runtime.pool.lockManager.call u)
    (runtime.pool.lockManager.held u)
  rw [callback_worker step]
  by_cases hu : u = w
  · rw [hu]
    exact hown
  · have haside := aside_step lock (by rw [hthread]; exact hu)
    rw [hothers u hu]
    exact (h.seats u).aside haside.held haside.call

/-- A handling goes on without the lock manager. -/
theorem Seated.goes (h : Seated s) {state : HandlerState}
    (hown : Seat (s.runtime.pool.worker w) state (s.locks.call w) (s.locks.held w)) :
    Seated (s.setHandler w state) := by
  refine ⟨h.plain, ?_⟩
  intro u
  change Seat _ (Function.update s.handler w state u) _ _
  by_cases hu : u = w
  · rw [hu, Function.update_self]
    exact hown
  · rw [Function.update_of_ne hu]
    exact h.seats u

theorem Seat.of_idle {worker : WorkerState} {call : CallState} {held : List ConcurrencyLockMode}
    (h : Seat worker .idle call held) (hinner : Inner worker) :
    call = .outside ∧ held = [.none] := by
  cases h with
  | outer houter => exact (outer_inner houter hinner).elim
  | idle => exact ⟨rfl, rfl⟩

/-- A turn of the acquire of a statement. -/
theorem Seat.tested {locks locks' : LockState (Fin n)} {job : ConcurrencyJob}
    (h : Tested locks locks' w (concurrencyLockModeFromSql (some sql.bytes)))
    (hheld : locks.held w = [.none]) (rest : Program Database Execution) :
    Seat (.running job) (if locks'.call w = .outside then .executing request sql rest
      else .acquiring request sql) (locks'.call w) (locks'.held w) := by
  rcases h with ⟨hcall, hown⟩ | ⟨hcall, hown⟩
  · rw [hcall, if_pos rfl, hown, hheld]
    exact .executing job request sql rest
  · rw [hcall, if_neg (fun heq => by cases heq), hown, hheld]
    exact .acquiring job request sql true

theorem wake_own {locks locks' : LockState (Fin n)} (hs : LockStep locks (.wake w) locks') :
    ∃ mode, locks.call w = .waiting mode true ∧ locks'.call w = .waiting mode false ∧
      locks'.held w = locks.held w := by
  cases hs with
  | @wake _ mode call => exact ⟨mode, call, Function.update_self .., rfl⟩

theorem Seated.step {place place' : Nat → Option (Hand n)} {db : Database} {event : ServerEvent n}
    (h : Seated s) (howned : Owned s.runtime place) (hs : ServerStep service s event s')
    (hnext : Owned s'.runtime place') (hserves : Serves service db s')
    (hrequests : LockProgress.Requests s'.locks) : Seated s' := by
  cases hs with
  | @runtime event runtime beside step =>
    refine ⟨fun job hjob => plain_step h howned.threads step hjob, ?_⟩
    intro u
    have hanswers : ∀ effects, s.handler u = .answering effects →
        ∃ job, runtime.pool.worker u = .running job := by
      intro effects heffects
      have hstands := hserves.stands u
      change Stands _ _ _ _ (runtime.callback u) (s.handler u) at hstands
      rw [heffects] at hstands
      generalize hcallback : runtime.callback u = callback at hstands
      cases hstands with
      | answering took => exact (handled_of hnext hcallback).running
    have turns : ∀ {inner : PoolEvent Unit n}, PoolStep s.runtime.pool inner runtime.pool →
        (∀ w, inner ≠ .callback w) → Seat (runtime.pool.worker u) (s.handler u)
          (runtime.pool.lockManager.call u) (runtime.pool.lockManager.held u) :=
      fun step hinner => (h.seats u).turn (pool_turn step hinner u) h.plain hrequests hanswers
    change Seat (runtime.pool.worker u) (s.handler u) (runtime.pool.lockManager.call u)
      (runtime.pool.lockManager.held u)
    cases pool_part howned.threads step with
    | same pool =>
      rw [pool]
      exact h.seats u
    | submits step pool => exact turns step (fun _ heq => by cases heq)
    | takes inner step other inside =>
      refine turns step ?_
      rintro w rfl
      rw [inside w rfl] at beside
      cases beside
  | @answer w client effects call at_ result =>
    obtain ⟨job, hrunning⟩ := (handled_of howned call).running
    have hseat := h.seats w
    rw [at_, hrunning] at hseat
    obtain ⟨hcall, hheld⟩ := hseat.of_idle trivial
    have hnew : Seated (s.setHandler w (.answering effects)) := by
      apply h.goes
      rw [hrunning, hcall, hheld]
      exact .answering (show Inner (.running job) from trivial) effects
    exact ⟨hnew.plain, hnew.seats⟩
  | @acquire w client request executor sql runtime call at_ received routed step lock =>
    obtain ⟨job, hrunning⟩ := (handled_of howned call).running
    have hseat := h.seats w
    rw [at_, hrunning] at hseat
    refine h.calls howned.threads step lock rfl (fun u hu => Function.update_of_ne hu ..) ?_
    rw [Function.update_self, hrunning]
    exact Seat.tested (acquire_own lock) (hseat.of_idle trivial).2 _
  | @resume w request sql runtime at_ step lock =>
    have hseat := h.seats w
    rw [at_] at hseat
    refine h.calls howned.threads step lock rfl (fun u hu => Function.update_of_ne hu ..) ?_
    rw [Function.update_self]
    generalize s.runtime.pool.worker w = worker at hseat
    generalize hcall : s.locks.call w = call at hseat
    generalize hheld : s.locks.held w = held at hseat
    cases hseat with
    | acquiring job _ _ asleep => exact Seat.tested (resume_own lock hcall) hheld _
  | @wake w request sql runtime at_ step lock =>
    have hseat := h.seats w
    refine h.calls howned.threads step lock rfl (fun _ _ => rfl) ?_
    obtain ⟨mode, hbefore, hafter, hheld⟩ := wake_own lock
    exact hseat.aside hheld (.inr ⟨mode, hbefore, hafter⟩)
  | @access w request sql update next at_ =>
    have hseat := h.seats w
    rw [at_] at hseat
    have hnew : Seated (s.setHandler w (.executing request sql (next s.db))) := by
      apply h.goes
      generalize s.runtime.pool.worker w = worker at hseat ⊢
      generalize s.locks.call w = call at hseat ⊢
      generalize s.locks.held w = held at hseat ⊢
      cases hseat with
      | executing job => exact .executing job request sql _
    exact ⟨hnew.plain, hnew.seats⟩
  | @release w client request sql execution runtime call at_ step lock =>
    have hseat := h.seats w
    rw [at_] at hseat
    obtain ⟨hcall, hheld⟩ := release_own lock
    have hnew : Seated ((s.setRuntime runtime).setHandler w
        (.answering (service.executed client request sql execution))) := by
      refine h.calls howned.threads step lock rfl (fun u hu => Function.update_of_ne hu ..) ?_
      rw [Function.update_self, hcall, hheld]
      generalize s.runtime.pool.worker w = worker at hseat
      generalize s.locks.call w = own at hseat
      generalize s.locks.held w = held at hseat
      cases hseat with
      | executing job =>
        rw [List.erase_cons_head]
        exact .answering (show Inner (.running job) from trivial) _
    exact ⟨hnew.plain, hnew.seats⟩
  | @close w effects runtime at_ step =>
    have hpool : runtime.pool = s.runtime.pool := by
      cases step
      rfl
    have hseat := h.seats w
    rw [at_] at hseat
    have hnew : Seated (s.setHandler w .idle) := by
      apply h.goes
      generalize s.runtime.pool.worker w = worker at hseat ⊢
      generalize s.locks.call w = call at hseat ⊢
      generalize s.locks.held w = held at hseat ⊢
      cases hseat with
      | answering hinner => exact .idle hinner
    refine ⟨fun job hjob => plain_step h howned.threads step hjob, ?_⟩
    intro u
    change Seat (runtime.pool.worker u) _ (runtime.pool.lockManager.call u)
      (runtime.pool.lockManager.held u)
    rw [hpool]
    exact hnew.seats u

end Server

end DbApi.Proofs.WorkerSeats
