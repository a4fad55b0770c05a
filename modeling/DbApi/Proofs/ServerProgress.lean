import DbApi.Proofs.WorkerSeats

/-! The server does not come to a halt before its work is done: where only something from outside
can happen, nobody is left in front of the lock, of the queue or of a join but for clients that
do not send their request. -/

namespace DbApi.Proofs.ServerProgress
open Library Concurrency Http Index DbApi.Runtime PoolJobs ConnectionOwnership Serializability
  WorkerSeats PoolWaits

variable {n capacity : Nat}

/-- What may happen at any time and need not: a connection, a failure, a shutdown, and the
wake-ups that nobody asked for. -/
def Spontaneous : ServerEvent n → Prop
  | .runtime .accept | .runtime .allocationFails | .runtime (.use _)
  | .runtime (.pool .shutdown) | .runtime (.pool .destroy)
  | .runtime (.pool (.wakeWorker _)) | .runtime (.pool (.wakeLock _)) | .wake _ => True
  | _ => False

/-- No thread of the server has a step of its own. -/
def Still (service : Service) (s : ServerState n capacity) : Prop :=
  ∀ event s', ServerStep service s event s' → Spontaneous event

/-- The worker reads from a client that does not complete its request. -/
structure WaitsForClient (service : Service) (s : ServerState n capacity) (w : Fin n) (client : Nat) :
    Prop where
  call : s.runtime.callback w = .handling client
  idle : s.handler w = .idle
  received : service.received client = .waiting

section Wakes

variable {T : Type}

theorem signals_exist (asleep : T → Prop) : ∃ woken, Signals asleep woken := by
  classical
  refine ⟨fun t => decide (asleep t), fun t ht => of_decide_eq_true ht, ?_⟩
  rintro ⟨t, ht⟩
  exact ⟨t, decide_eq_true ht⟩

theorem wakes_exist [DecidableEq T] (locks : LockState T) (wakeup : Wakeup) :
    ∃ woken, locks.Wakes woken wakeup := by
  classical
  cases wakeup with
  | nobody => exact ⟨fun _ => false, fun _ => rfl⟩
  | signalWriters => exact signals_exist _
  | broadcastReaders =>
    exact ⟨fun t => decide (locks.Asleep .read t), fun t => decide_eq_true_iff⟩

theorem release_exists [DecidableEq T] {locks : LockState T} {t : T} {mode : ConcurrencyLockMode}
    (call : locks.call t = .outside) (held : mode ∈ locks.held t) :
    ∃ locks', LockStep locks (.release t mode) locks' := by
  obtain ⟨woken, hwoken⟩ := wakes_exist locks
    ((locks.manager.leave (locks.effective mode)).wakeup (locks.effective mode))
  exact ⟨_, .release call held hwoken⟩

open LockProgress MutualExclusion in
/-- Behind a waiter stands a holder of the lock, or a waiter that has been woken. -/
theorem waiter_served [Fintype T] [DecidableEq T] {locks : LockState T} {t : T}
    {mode : ConcurrencyLockMode} {asleep : Bool}
    (h : (lockSystem T .serialAll).Reachable locks) (hwaits : locks.call t = .waiting mode asleep) :
    (∃ u, Runnable locks u) ∨ ∃ u, ∃ mode ∈ locks.held u, mode ≠ .none := by
  obtain ⟨hcounts, hpolicy⟩ := counts_reachable h
  have hnone : ∀ {mode}, locks.effective mode ≠ .none → mode ≠ .none := by
    rintro mode heff rfl
    exact heff rfl
  by_cases hfree : Free locks.manager
  · left
    have hmode := hnone (requests_reachable h t mode asleep hwaits)
    have hpos := waits_iff.mp ⟨mode, asleep, hwaits, effective_serialAll hpolicy hmode⟩
    have hle := share_le_sum (waits locks) t
    have hwaiting := hcounts.waitingWriters
    obtain ⟨u, requested, hcall, -⟩ := (awake_reachable h).writers hfree (by omega)
    exact ⟨u, requested, hcall⟩
  · right
    have hholder : ∀ {u mode}, mode ≠ .none → Holds locks u mode →
        ∃ u, ∃ mode ∈ locks.held u, mode ≠ .none := by
      rintro u mode hne ⟨requested, hmem, heff⟩
      exact ⟨u, requested, hmem, hnone (by rw [heff]; exact hne)⟩
    by_cases hwriter : locks.manager.writerActive = true
    · obtain ⟨u, hu⟩ := (hcounts.excludes hpolicy).writerActive.mp hwriter
      exact hholder (fun heq => by cases heq) hu
    · have hreaders : locks.manager.activeReaders ≠ 0 := fun hzero =>
        hfree ⟨Bool.eq_false_iff.mpr hwriter, hzero⟩
      rw [hcounts.activeReaders] at hreaders
      obtain ⟨u, -, hu⟩ := Finset.exists_ne_zero_of_sum_ne_zero
        (by omega : ∑ u, holds locks u .read ≠ 0)
      exact hholder (fun heq => by cases heq) (holds_iff.mpr (Nat.pos_of_ne_zero hu))

end Wakes

section Workers

variable {service : Service} {db : Database} {s : ServerState n capacity}
  {place : Nat → Option (Hand n)} {w : Fin n} {client : Nat}

/-- What is known of every state of a run. -/
structure Known (service : Service) (db : Database) (s : ServerState n capacity)
    (place : Nat → Option (Hand n)) : Prop where
  owned : Owned s.runtime place
  serves : Serves service db s
  seated : Seated s
  attended : Attended s.runtime.pool
  locks : (lockSystem (Fin n) .serialAll).Reachable s.locks

theorem Still.runtime (h : Still service s) {event : ServingEvent n}
    {runtime : RuntimeState n capacity} (beside : besideHandling event = true)
    (step : RuntimeStep s.runtime event runtime) : Spontaneous (.runtime event) :=
  h _ _ (.runtime beside step)

/-- No step of the pool is left that is not a wake-up or a shutdown. -/
theorem Still.pool (h : Still service s) {event : PoolEvent Unit n}
    {pool : ConcurrencyThreadPool Unit n capacity} (internal : internalEvent event = true)
    (hother : ∀ w, event ≠ .callback w) (step : PoolStep s.runtime.pool event pool) :
    Spontaneous (.runtime (.pool event)) := by
  refine h.runtime ?_ (.pool internal step)
  cases event with
  | callback w => exact absurd rfl (hother w)
  | submit | push | wakeSubmitter | pop | wakeWorker | acquire | resume | wakeLock | run | runReturns
    | release | finish | shutdown | destroy | close | cancelNext | cancelFinish | join => rfl

/-- The step of the runtime in which a handling takes a step of the lock manager. -/
theorem calls_exist {job : ConcurrencyJob} {event : LockEvent (Fin n)} {locks : LockState (Fin n)}
    (hrunning : s.runtime.pool.worker w = .running job) (hthread : event.thread = w)
    (lock : LockStep s.locks event locks) : ∃ runtime : RuntimeState n capacity,
      RuntimeStep s.runtime (.pool (.callback w)) runtime ∧ runtime.pool.lockManager = locks :=
  ⟨_, .pool rfl (.callback hrunning hthread lock), rfl⟩

/-- A worker does not stop in front of the queue while there are jobs, nor with a job in hand. -/
theorem Still.outside (h : Still service s) (hknown : Known service db s place)
    (houter : Outer (s.runtime.pool.worker w)) :
    s.runtime.pool.worker w = .asleep ∨ s.runtime.pool.worker w = .exited := by
  have hseat := hknown.seated.seats w
  obtain ⟨-, hcall, hheld⟩ := hseat.of_outer houter
  cases hstate : s.runtime.pool.worker w with
  | asleep => exact .inl rfl
  | exited => exact .inr rfl
  | popping =>
    exfalso
    cases hpop : s.runtime.pool.queue.pop with
    | wait => exact h.pool rfl (fun _ heq => by cases heq) (.popWaits hstate hpop)
    | closed => exact h.pool rfl (fun _ heq => by cases heq) (.popClosed hstate hpop)
    | job job queue =>
      obtain ⟨woken, hwoken⟩ := signals_exist fun t => (s.runtime.pool.submitter t).Asleep
      exact h.pool rfl (fun _ heq => by cases heq) (.popJob hstate hpop hwoken)
  | taken job =>
    exact (h.pool rfl (fun _ heq => by cases heq) (.acquire hstate (.acquire hcall))).elim
  | released job runStatus => exact (h.runtime rfl (.finish hstate (.finish hstate))).elim
  | locking | locked | running | returned =>
    rw [hstate] at houter
    exact houter.elim

/-- A worker does not stop between the locks of its job but inside of its callback. -/
theorem Still.inside (h : Still service s) (hknown : Known service db s place)
    (hinner : Inner (s.runtime.pool.worker w)) : ∃ job, s.runtime.pool.worker w = .running job := by
  have hseat := hknown.seated.seats w
  cases hstate : s.runtime.pool.worker w with
  | running job => exact ⟨job, rfl⟩
  | locked job => exact (h.runtime rfl (.run hstate (.run hstate))).elim
  | returned job runStatus =>
    exfalso
    obtain ⟨hcall, hheld, -⟩ := hseat.of_inner hinner (by
      intro other hrunning
      rw [hstate] at hrunning
      cases hrunning)
    have hmode := hknown.seated.plain job (.worked w (by rw [hstate]; rfl))
    have hmem : job.lockMode ∈ s.locks.held w := by
      rw [hmode, hheld]
      exact List.mem_cons_self
    obtain ⟨locks, lock⟩ := release_exists hcall hmem
    exact h.pool rfl (fun _ heq => by cases heq) (.release hstate lock)
  | popping | asleep | taken | locking | released | exited =>
    rw [hstate] at hinner
    exact hinner.elim

/-- A handling that has not begun goes on as soon as its request is there. -/
theorem Still.receiving (h : Still service s) (hknown : Known service db s place)
    (call : s.runtime.callback w = .handling client) (at_ : s.handler w = .idle) :
    WaitsForClient service s w client := by
  obtain ⟨job, hrunning⟩ := (handled_of hknown.owned call).running
  have hseat := hknown.seated.seats w
  rw [at_, hrunning] at hseat
  obtain ⟨hcall, -⟩ := hseat.of_idle trivial
  refine ⟨call, at_, ?_⟩
  cases hunexecuted : service.unexecuted client with
  | some effects => exact (h _ _ (.answer call at_ hunexecuted)).elim
  | none =>
    unfold Service.unexecuted at hunexecuted
    cases hreceived : service.received client with
    | waiting => rfl
    | closed =>
      rw [hreceived] at hunexecuted
      cases hunexecuted
    | rejected statusCode errorCode message =>
      rw [hreceived] at hunexecuted
      cases hunexecuted
    | complete request =>
      exfalso
      rw [hreceived] at hunexecuted
      dsimp only at hunexecuted
      cases hrouted : service.routed request with
      | answer answer =>
        rw [hrouted] at hunexecuted
        cases hunexecuted
      | execute executor sql =>
        have hlock : LockStep s.locks (.acquire w (concurrencyLockModeFromSql (some sql.bytes))) _ :=
          .acquire hcall
        obtain ⟨runtime, step, hlocks⟩ := calls_exist hrunning rfl hlock
        rw [← hlocks] at hlock
        exact h _ _ (.acquire call at_ hreceived hrouted step hlock)

/-- A handling is left only for its client or in front of the lock. -/
theorem Still.handling (h : Still service s) (hknown : Known service db s place)
    (call : s.runtime.callback w = .handling client) :
    WaitsForClient service s w client ∨ ∃ mode, s.locks.call w = .waiting mode true := by
  obtain ⟨job, hrunning⟩ := (handled_of hknown.owned call).running
  have hseat := hknown.seated.seats w
  cases at_ : s.handler w with
  | idle => exact .inl (h.receiving hknown call at_)
  | answering effects => exact (h _ _ (.close at_ (.close call))).elim
  | acquiring request sql =>
    right
    rw [at_, hrunning] at hseat
    generalize hcall : s.locks.call w = state at hseat
    generalize s.locks.held w = held at hseat
    cases hseat with
    | acquiring _ _ _ asleep =>
      cases asleep with
      | true => exact ⟨_, rfl⟩
      | false =>
        exfalso
        have hlock : LockStep s.locks (.resume w) _ := .resume hcall
        obtain ⟨runtime, step, hlocks⟩ := calls_exist hrunning rfl hlock
        rw [← hlocks] at hlock
        exact h _ _ (.resume at_ step hlock)
  | executing request sql rest =>
    exfalso
    cases rest with
    | access update next => exact h _ _ (.access at_)
    | done execution =>
      rw [at_, hrunning] at hseat
      generalize hcall : s.locks.call w = state at hseat
      generalize hheld : s.locks.held w = held at hseat
      cases hseat with
      | executing =>
        have hmem : concurrencyLockModeFromSql (some sql.bytes) ∈ s.locks.held w := by
          rw [hheld]
          exact List.mem_cons_self
        obtain ⟨locks, hlock⟩ := release_exists hcall hmem
        obtain ⟨runtime, step, hlocks⟩ := calls_exist hrunning rfl hlock
        rw [← hlocks] at hlock
        exact h _ _ (.release call at_ step hlock)

/-- A callback is left only inside of a handling. -/
theorem Still.running (h : Still service s) (hknown : Known service db s place)
    {job : ConcurrencyJob} (hrunning : s.runtime.pool.worker w = .running job) :
    ∃ client, s.runtime.callback w = .handling client := by
  have hworks := hknown.owned.threads.works w
  rw [hrunning] at hworks
  cases hcallback : s.runtime.callback w with
  | handling client => exact ⟨client, rfl⟩
  | entered client => exact (h.runtime rfl (.enter hcallback)).elim
  | outside =>
    rw [hcallback] at hworks
    cases hworks
  | finished client =>
    exfalso
    have hidle : s.handler w = .idle := by
      have hstands := hknown.serves.stands w
      rw [hcallback] at hstands
      generalize s.handler w = handler at hstands
      cases hstands
      rfl
    have hseat := hknown.seated.seats w
    rw [hrunning, hidle] at hseat
    obtain ⟨hcall, hheld⟩ := hseat.of_idle trivial
    have hmode := hknown.seated.plain job (.worked w (by rw [hrunning]; rfl))
    rw [← hmode] at hheld
    have hstep : PoolStep s.runtime.pool (.runReturns w)
        (s.runtime.pool.setWorker w (.returned job 0)) := .runReturns hrunning hcall hheld
    exact h.runtime rfl (.runReturns hcallback hstep)

/-- A worker that has to do with the lock sleeps in front of it. -/
theorem Still.contending (h : Still service s) (hknown : Known service db s place)
    (hbusy : s.locks.call w ≠ .outside ∨ ∃ mode ∈ s.locks.held w, mode ≠ .none) :
    (∃ mode, s.locks.call w = .waiting mode true) ∧ ∀ mode ∈ s.locks.held w, mode = .none := by
  have hseat := hknown.seated.seats w
  have hfree : ∀ {held}, s.locks.call w = .outside → s.locks.held w = held →
      (∀ mode ∈ held, mode = .none) → False := by
    rintro held hcall rfl hnone
    rcases hbusy with hwaits | ⟨mode, hmem, hne⟩
    · exact hwaits hcall
    · exact hne (hnone mode hmem)
  rcases worker_cases (s.runtime.pool.worker w) with houter | hinner | ⟨job, hlocking⟩
  · obtain ⟨-, hcall, hheld⟩ := hseat.of_outer houter
    exact (hfree hcall hheld fun _ hmem => by cases hmem).elim
  · obtain ⟨job, hrunning⟩ := h.inside hknown hinner
    obtain ⟨client, call⟩ := h.running hknown hrunning
    rcases h.handling hknown call with hwaits | ⟨mode, hwaits⟩
    · rw [hwaits.idle] at hseat
      obtain ⟨hcall, hheld⟩ := hseat.of_idle hinner
      exact (hfree hcall hheld fun _ hmem => List.mem_singleton.mp hmem).elim
    · refine ⟨⟨mode, hwaits⟩, ?_⟩
      rw [hwaits] at hseat
      generalize s.runtime.pool.worker w = worker at hseat
      generalize s.handler w = handler at hseat
      generalize s.locks.held w = held at hseat
      cases hseat with
      | acquiring => exact fun _ hmem => List.mem_singleton.mp hmem
  · rw [hlocking] at hseat
    exact hseat.not_locking.elim

/-- Nobody has to do with the lock. -/
theorem Still.unlocked (h : Still service s) (hknown : Known service db s place) (w : Fin n) :
    s.locks.call w = .outside ∧ ∀ mode ∈ s.locks.held w, mode = .none := by
  by_contra hnot
  have hbusy : s.locks.call w ≠ .outside ∨ ∃ mode ∈ s.locks.held w, mode ≠ .none := by
    by_contra hidle
    push Not at hidle
    exact hnot hidle
  obtain ⟨⟨mode, hwaits⟩, -⟩ := h.contending hknown hbusy
  rcases waiter_served hknown.locks hwaits with ⟨u, requested, hruns⟩ | ⟨u, held, hmem, hne⟩
  · have hcall : s.locks.call u ≠ .outside := by
      rw [hruns]
      exact fun heq => by cases heq
    obtain ⟨⟨other, hasleep⟩, -⟩ := h.contending hknown (.inl hcall)
    rw [hruns] at hasleep
    cases hasleep
  · obtain ⟨-, hnone⟩ := h.contending hknown (.inr ⟨held, hmem, hne⟩)
    exact hne (hnone held hmem)

/-- The places where a worker can be left. -/
theorem Still.left (h : Still service s) (hknown : Known service db s place) (w : Fin n) :
    s.runtime.pool.worker w = .asleep ∨ s.runtime.pool.worker w = .exited ∨
      ∃ client, WaitsForClient service s w client := by
  rcases worker_cases (s.runtime.pool.worker w) with houter | hinner | ⟨job, hlocking⟩
  · rcases h.outside hknown houter with hasleep | hexited
    · exact .inl hasleep
    · exact .inr (.inl hexited)
  · obtain ⟨job, hrunning⟩ := h.inside hknown hinner
    obtain ⟨client, call⟩ := h.running hknown hrunning
    rcases h.handling hknown call with hwaits | ⟨mode, hwaits⟩
    · exact .inr (.inr ⟨client, hwaits⟩)
    · rw [(h.unlocked hknown w).1] at hwaits
      cases hwaits
  · have hseat := hknown.seated.seats w
    rw [hlocking] at hseat
    exact hseat.not_locking.elim

/-- A worker sleeps in front of an open queue that is empty. -/
theorem Still.asleep (h : Still service s) (hknown : Known service db s place)
    (hasleep : s.runtime.pool.worker w = .asleep) :
    s.runtime.pool.queue.jobs = [] ∧ s.runtime.pool.queue.closed = false := by
  have hnobody : signalled (fun u => waitOf (s.runtime.pool.worker u)) = 0 := by
    apply Finset.card_eq_zero.mpr
    apply Finset.filter_eq_empty_iff.mpr
    intro u _ hsignalled
    have hpopping := waitOf_signalled.mp hsignalled
    rcases h.left hknown u with hstate | hstate | ⟨client, hwaits⟩
    · rw [hpopping] at hstate
      cases hstate
    · rw [hpopping] at hstate
      cases hstate
    · obtain ⟨job, hrunning⟩ := (handled_of hknown.owned hwaits.call).running
      rw [hpopping] at hrunning
      cases hrunning
  refine ⟨?_, ?_⟩
  · have hserved := hknown.attended.served ⟨w, waitOf_asleep.mpr hasleep⟩
    rw [hnobody] at hserved
    exact List.length_eq_zero_iff.mp (Nat.le_zero.mp hserved)
  · apply Bool.eq_false_iff.mpr
    intro hclosed
    exact hknown.attended.closed hclosed w hasleep

/-- A worker is in a callback for a client that keeps it waiting, or in none. -/
theorem Still.callback (h : Still service s) (hknown : Known service db s place) (w : Fin n) :
    s.runtime.callback w = .outside ∨ ∃ client, WaitsForClient service s w client := by
  have hworks := hknown.owned.threads.works w
  rcases h.left hknown w with hstate | hstate | hwaits
  · left
    rw [hstate] at hworks
    generalize s.runtime.callback w = callback at hworks
    cases hworks
    rfl
  · left
    rw [hstate] at hworks
    generalize s.runtime.callback w = callback at hworks
    cases hworks
    rfl
  · exact .inr hwaits

end Workers

section Threads

variable {service : Service} {db : Database} {s : ServerState n capacity}
  {place : Nat → Option (Hand n)} {client : Nat}

/-- A try_submit comes back. -/
theorem try_submit_returns {p : ConcurrencyThreadPool Unit n capacity} {job : ConcurrencyJob}
    (call : p.submitter () = .pushing job false) : ∃ pool status,
      PoolStep p (.push ()) pool ∧ pool.log = p.log ++ [.submitted job.id status] := by
  cases hpush : p.queue.tryPush job with
  | refuse status => exact ⟨_, status, .pushRefused call hpush, rfl⟩
  | wait => exact absurd hpush ConcurrencyJobQueue.tryPush_no_wait
  | accept queue =>
    obtain ⟨woken, hwoken⟩ := signals_exist fun w => p.worker w = .asleep
    exact ⟨_, .ok, .pushAccepted call hpush hwoken, rfl⟩

/-- The accepting thread is left in its accept, or in a submission that a destroy forbids. -/
theorem Still.acceptor (h : Still service s) (hknown : Known service db s place) :
    s.runtime.acceptor = .accepting ∨
      (∃ client, s.runtime.acceptor = .accepted client) ∧ s.runtime.pool.Destroying := by
  cases hacceptor : s.runtime.acceptor with
  | accepting => exact .inl rfl
  | accepted client =>
    right
    refine ⟨⟨client, rfl⟩, ?_⟩
    by_contra halone
    exact h.runtime rfl (.submit hacceptor halone)
  | submitting client =>
    exfalso
    have hsubmits := hknown.owned.threads.submits
    rw [hacceptor] at hsubmits
    generalize hcall : s.runtime.pool.submitter () = submitter at hsubmits
    generalize hcontext : s.runtime.context = context at hsubmits
    cases hsubmits with
    | submitting job =>
      obtain ⟨pool, status, step, answer⟩ := try_submit_returns hcall
      exact h.runtime rfl (.push hacceptor step answer)
  | refused client status => exact (h.runtime rfl (.reject hacceptor)).elim
  | rejected client => exact (h.runtime rfl (.disown hacceptor)).elim
  | disowned client => exact (h.runtime rfl (.finishRejected hacceptor)).elim

/-- The controlling thread is left outside of its calls, or in the join of a worker that waits for
a client. -/
theorem Still.controller (h : Still service s) (hknown : Known service db s place) :
    s.runtime.pool.controller = .outside ∨ s.runtime.pool.controller = .destroyed ∨
      ∃ (w : Fin n) (phase : Phase) (client : Nat),
        s.runtime.pool.controller = .joining w phase ∧ WaitsForClient service s w client := by
  cases hpoint : s.runtime.pool.controller with
  | outside => exact .inl rfl
  | destroyed => exact .inr (.inl rfl)
  | closing mode phase => exact (h.pool rfl (fun _ heq => by cases heq) (.close hpoint)).elim
  | cancelling phase =>
    exfalso
    cases hpop : s.runtime.pool.queue.popPending with
    | none => exact h.pool rfl (fun _ heq => by cases heq) (.cancelDone hpoint hpop)
    | some popped =>
      obtain ⟨job, queue⟩ := popped
      obtain ⟨woken, hwoken⟩ := signals_exist fun t => (s.runtime.pool.submitter t).Asleep
      exact h.pool rfl (fun _ heq => by cases heq) (.cancelNext hpoint hpop hwoken)
  | holding job phase =>
    exact (h.runtime rfl (.cancelFinish hpoint (.cancelFinish hpoint))).elim
  | joining index phase =>
    right
    right
    rcases Nat.lt_or_eq_of_le (hknown.attended.within index phase hpoint) with hlt | heq
    · rcases h.left hknown ⟨index, hlt⟩ with hasleep | hexited | ⟨client, hwaits⟩
      · exfalso
        obtain ⟨-, hopen⟩ := h.asleep hknown hasleep
        have hclosed : s.runtime.pool.queue.closed = true := by
          apply hknown.attended.shut
          rw [hpoint]
          trivial
        rw [hopen] at hclosed
        cases hclosed
      · exact (h.pool rfl (fun _ heq => by cases heq) (.join (w := ⟨index, hlt⟩) hpoint hexited)).elim
      · exact ⟨⟨index, hlt⟩, phase, client, rfl, hwaits⟩
    · subst heq
      exact (h.pool rfl (fun _ heq => by cases heq) (.joined hpoint)).elim

/-- The pool has connections in its queue at most. -/
theorem Still.waiting (h : Still service s) (hknown : Known service db s place)
    {holder : Holder Unit n} (hmem : client ∈ waiting s.runtime holder) :
    client ∈ s.runtime.pool.queue.jobs.map fun job => s.runtime.context job.id := by
  cases holder with
  | runner w => cases hmem
  | queue =>
    change client ∈ (s.runtime.pool.queue.jobs.map (·.id)).map s.runtime.context at hmem
    rw [List.map_map] at hmem
    exact hmem
  | submitter t =>
    have hidle : s.runtime.pool.submitter () = .idle := by
      apply hknown.owned.threads.idle
      intro other heq
      rcases h.acceptor hknown with hacceptor | ⟨⟨_, hacceptor⟩, -⟩
      · rw [hacceptor] at heq
        cases heq
      · rw [hacceptor] at heq
        cases heq
    change client ∈ (submitting (s.runtime.pool.submitter t)).map _ at hmem
    rw [hidle] at hmem
    cases hmem
  | taker w =>
    change client ∈ (taken (s.runtime.pool.worker w)).map _ at hmem
    rcases h.left hknown w with hstate | hstate | ⟨other, hwaits⟩
    · rw [hstate] at hmem
      cases hmem
    · rw [hstate] at hmem
      cases hmem
    · obtain ⟨job, hrunning⟩ := (handled_of hknown.owned hwaits.call).running
      rw [hrunning] at hmem
      cases hmem
  | controller =>
    change client ∈ (cancelling s.runtime.pool.controller).map _ at hmem
    rcases h.controller hknown with hpoint | hpoint | ⟨_, _, _, hpoint, -⟩
    · rw [hpoint] at hmem
      cases hmem
    · rw [hpoint] at hmem
      cases hmem
    · rw [hpoint] at hmem
      cases hmem

/-- A connection that is not settled is left with the accepting thread, in the queue or with a
worker that waits for it. -/
theorem Still.connection (h : Still service s) (hknown : Known service db s place)
    (haccepted : (client, .accepted) ∈ s.runtime.log) :
    (Whole (record s.runtime client).2 ∧ s.runtime.clientJob client = none) ∨
      s.runtime.acceptor = .accepted client ∨ (∃ w, WaitsForClient service s w client) ∨
      client ∈ s.runtime.pool.queue.jobs.map fun job => s.runtime.context job.id := by
  have hstory := hknown.owned.ledger.fits client
  cases hplace : place client with
  | none =>
    rw [hplace] at hstory
    exact .inl (story_settled hstory (mem_record.mpr haccepted))
  | some hand =>
    right
    have hheld := (hknown.owned.ledger.custody.holds hand client).mpr hplace
    cases hand with
    | pool holder => exact .inr (.inr (h.waiting hknown hheld))
    | acceptor at_ =>
      left
      change client ∈ having (acceptorHas s.runtime.acceptor) at_ at hheld
      rcases h.acceptor hknown with hacceptor | ⟨⟨other, hacceptor⟩, -⟩
      · rw [hacceptor] at hheld
        cases hheld
      · rw [hacceptor] at hheld ⊢
        cases at_ with
        | accepted => rw [List.mem_singleton.mp hheld]
        | refused | rejected | disowned => cases hheld
    | callback w at_ =>
      right
      left
      refine ⟨w, ?_⟩
      change client ∈ having (callbackHas (s.runtime.callback w)) at_ at hheld
      rcases h.callback hknown w with hcallback | ⟨other, hwaits⟩
      · rw [hcallback] at hheld
        cases hheld
      · rw [hwaits.call] at hheld
        cases at_ with
        | handling => rwa [List.mem_singleton.mp hheld]
        | entered | finished => cases hheld

end Threads

/-- What a server can be left with that has no step of its own. -/
structure Quiet (service : Service) (s : ServerState n capacity) : Prop where
  workers : ∀ w, (s.runtime.pool.worker w = .asleep ∧ s.runtime.pool.queue.jobs = [] ∧
      s.runtime.pool.queue.closed = false) ∨ s.runtime.pool.worker w = .exited ∨
    ∃ client, WaitsForClient service s w client
  lock : ∀ w, s.locks.call w = .outside ∧ ∀ mode ∈ s.locks.held w, mode = .none
  acceptor : s.runtime.acceptor = .accepting ∨
    (∃ client, s.runtime.acceptor = .accepted client) ∧ s.runtime.pool.Destroying
  controller : s.runtime.pool.controller = .outside ∨ s.runtime.pool.controller = .destroyed ∨
    ∃ (w : Fin n) (phase : Phase) (client : Nat), s.runtime.pool.controller = .joining w phase ∧
      WaitsForClient service s w client
  /-- A connection is left in the queue only while every worker waits for a client. -/
  connections : ∀ client, (client, .accepted) ∈ s.runtime.log →
    (Whole (record s.runtime client).2 ∧ s.runtime.clientJob client = none) ∨
      s.runtime.acceptor = .accepted client ∨ (∃ w, WaitsForClient service s w client) ∨
      (client ∈ s.runtime.pool.queue.jobs.map fun job => s.runtime.context job.id) ∧
        ∀ w, ∃ other, WaitsForClient service s w other

theorem Still.quiet {service : Service} {db : Database} {s : ServerState n capacity}
    {place : Nat → Option (Hand n)} (h : Still service s) (hknown : Known service db s place) :
    Quiet service s := by
  refine ⟨?_, h.unlocked hknown, h.acceptor hknown, h.controller hknown, ?_⟩
  · intro w
    rcases h.left hknown w with hasleep | hexited | hwaits
    · exact .inl ⟨hasleep, h.asleep hknown hasleep⟩
    · exact .inr (.inl hexited)
    · exact .inr (.inr hwaits)
  · intro client haccepted
    rcases h.connection hknown haccepted with hwhole | hacceptor | hwaits | hqueued
    · exact .inl hwhole
    · exact .inr (.inl hacceptor)
    · exact .inr (.inr (.inl hwaits))
    · refine .inr (.inr (.inr ⟨hqueued, ?_⟩))
      have hjobs : s.runtime.pool.queue.jobs ≠ [] := by
        intro hnone
        rw [hnone] at hqueued
        cases hqueued
      intro w
      rcases h.left hknown w with hasleep | hexited | hwaits
      · exact absurd (h.asleep hknown hasleep).1 hjobs
      · exact absurd (hknown.owned.threads.controlled.exited w hexited).2 hjobs
      · exact hwaits

end DbApi.Proofs.ServerProgress
