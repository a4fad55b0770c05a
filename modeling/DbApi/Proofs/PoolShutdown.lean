import DbApi.Proofs.PoolJobs

/-! What a shutdown of the pool leaves behind. -/

namespace DbApi.Proofs.PoolShutdown
open Library Concurrency ConcurrencyThreadPool PoolJobs

variable {T : Type} {n capacity : Nat} {s s' : ConcurrencyThreadPool T n capacity}

/-- An entry that neither starts a shutdown nor cancels a job. -/
structure Ordinary (entry : LogEntry) : Prop where
  started : ∀ mode, entry ≠ .shutdown mode
  kept : ∀ job worker status, entry ≠ .finished job .cancelled worker status

/-- What the steps of submitters and workers leave to the controlling thread. -/
structure Frame (s s' : ConcurrencyThreadPool T n capacity) : Prop where
  controller : s'.controller = s.controller
  started : s'.shutdownStarted = s.shutdownStarted
  joined : s'.joined = s.joined
  closed : s'.queue.closed = s.queue.closed
  empty : s.queue.closed = true → s.queue.jobs = [] → s'.queue.jobs = []
  exits : ∀ w, s'.worker w = .exited →
    s.worker w = .exited ∨ s.queue.closed = true ∧ s.queue.jobs = []
  stays : ∀ w, s.worker w = .exited → s'.worker w = .exited
  logged : ∃ entries, s'.log = s.log ++ entries ∧ ∀ entry ∈ entries, Ordinary entry

/-- The steps of the controlling thread. -/
inductive Control : PoolEvent T n → Prop where
  | shutdown : Control .shutdown
  | destroy : Control .destroy
  | close : Control .close
  | cancelNext : Control .cancelNext
  | cancelFinish : Control .cancelFinish
  | join : Control .join

section Frames

theorem ordinary_submitted (job : Nat) (status : ConcurrencyJobQueueStatus) :
    Ordinary (.submitted job status) where
  started := fun _ h => by cases h
  kept := fun _ _ _ h => by cases h

theorem ordinary_ran (job worker : Nat) : Ordinary (.ran job worker) where
  started := fun _ h => by cases h
  kept := fun _ _ _ h => by cases h

theorem ordinary_finished (job : Nat) (worker runStatus : Int) :
    Ordinary (.finished job (if runStatus = 0 then .ok else .failed) worker runStatus) := by
  refine ⟨fun _ h => (by cases h), ?_⟩
  intro other at_ status h
  injection h with _ hresult
  split at hresult
  · cases hresult
  · cases hresult

theorem exited_wake {state : WorkerState} : state.wake = .exited ↔ state = .exited := by
  cases state <;> simp [WorkerState.wake]

theorem exited_setWorker {w : Fin n} {before state : WorkerState} (h : s.worker w = before)
    (hbefore : before ≠ .exited) (hstate : state ≠ .exited) (u : Fin n) :
    (s.setWorker w state).worker u = .exited ↔ s.worker u = .exited := by
  by_cases hu : u = w
  · subst hu
    simp [setWorker, h, hbefore, hstate]
  · simp [setWorker, hu]

theorem exited_wakeWorkers (woken : Fin n → Bool) (u : Fin n) :
    (s.wakeWorkers woken).worker u = .exited ↔ s.worker u = .exited := by
  change (if woken u then (s.worker u).wake else s.worker u) = .exited ↔ _
  split
  · exact exited_wake
  · rfl

/-- A step that leaves the queue alone and ends no worker. -/
theorem frame_of {entries : List LogEntry} (hcontroller : s'.controller = s.controller)
    (hstarted : s'.shutdownStarted = s.shutdownStarted) (hjoined : s'.joined = s.joined)
    (hqueue : s'.queue = s.queue) (hworker : ∀ w, s'.worker w = .exited ↔ s.worker w = .exited)
    (hlog : s'.log = s.log ++ entries) (hentries : ∀ entry ∈ entries, Ordinary entry) :
    Frame s s' where
  controller := hcontroller
  started := hstarted
  joined := hjoined
  closed := by rw [hqueue]
  empty := fun _ h => by rw [hqueue, h]
  exits := fun w h => .inl ((hworker w).mp h)
  stays := fun w h => (hworker w).mpr h
  logged := ⟨entries, hlog, hentries⟩

theorem frame_pop {w : Fin n} {job : ConcurrencyJob} {queue : ConcurrencyJobQueue capacity}
    (popping : s.worker w = .popping) (hclosed : queue.closed = s.queue.closed)
    (hjobs : s.queue.jobs = job :: queue.jobs) (woken : T → Bool) :
    Frame s (((s.setWorker w (.taken job)).setQueue queue).wakeSubmitters woken) where
  controller := rfl
  started := rfl
  joined := rfl
  closed := hclosed
  empty := fun _ h => by
    rw [hjobs] at h
    cases h
  exits := fun u h =>
    .inl ((exited_setWorker popping (fun h => by cases h) (fun h => by cases h) u).mp h)
  stays := fun u h =>
    (exited_setWorker popping (fun h => by cases h) (fun h => by cases h) u).mpr h
  logged := ⟨[], (List.append_nil _).symm, fun _ h => by cases h⟩

/-- A worker leaves an empty queue that is closed. -/
theorem frame_exit {w : Fin n} (h : s.queue.closed = true ∧ s.queue.jobs = []) :
    Frame s (s.setWorker w .exited) where
  controller := rfl
  started := rfl
  joined := rfl
  closed := rfl
  empty := fun _ h => h
  exits := fun _ _ => .inr h
  stays := fun u hu => by
    by_cases huw : u = w
    · rw [huw]
      exact Function.update_self ..
    · exact (Function.update_of_ne huw ..).trans hu
  logged := ⟨[], (List.append_nil _).symm, fun _ h => by cases h⟩

variable [DecidableEq T]

theorem frame_submit (t : T) (blocking : Bool) (lockMode : ConcurrencyLockMode) (hasRun : Bool) :
    Frame s (s.submit t blocking lockMode hasRun) := by
  unfold ConcurrencyThreadPool.submit
  dsimp only
  split
  · exact frame_of rfl rfl rfl rfl (fun _ => Iff.rfl) (List.append_nil _).symm
      fun _ h => by cases h
  · refine frame_of rfl rfl rfl rfl (fun _ => Iff.rfl) rfl ?_
    intro entry hentry
    rw [List.mem_singleton.mp hentry]
    exact ordinary_submitted _ _

/-- A job is added to an open queue only. -/
theorem frame_push {t : T} {job : ConcurrencyJob} {queue : ConcurrencyJobQueue capacity}
    (hopen : s.queue.closed = false) (hclosed : queue.closed = false) (woken : Fin n → Bool) :
    Frame s ((((s.setSubmitter t .idle).setQueue queue).wakeWorkers woken).logged
      (.submitted job.id .ok)) where
  controller := rfl
  started := rfl
  joined := rfl
  closed := hclosed.trans hopen.symm
  empty := fun h => absurd (hopen.symm.trans h) (by decide)
  exits := fun w h => .inl ((exited_wakeWorkers woken w).mp h)
  stays := fun w h => (exited_wakeWorkers woken w).mpr h
  logged := ⟨_, rfl, fun entry h => by
    rw [List.mem_singleton.mp h]
    exact ordinary_submitted _ _⟩

/-- A step is one of the controlling thread, or it keeps this frame. -/
theorem step_frame {event : PoolEvent T n} (hs : PoolStep s event s') (hc : ¬ Control event) :
    Frame s s' := by
  have still : ∀ {s' : ConcurrencyThreadPool T n capacity}, s'.controller = s.controller →
      s'.shutdownStarted = s.shutdownStarted → s'.joined = s.joined → s'.queue = s.queue →
      (∀ w, s'.worker w = .exited ↔ s.worker w = .exited) → s'.log = s.log → Frame s s' := by
    intro s' hcontroller hstarted hjoined hqueue hworker hlog
    exact frame_of hcontroller hstarted hjoined hqueue hworker
      (hlog.trans (List.append_nil _).symm) fun _ h => by cases h
  have moves : ∀ {w : Fin n} {before state : WorkerState}, s.worker w = before →
      before ≠ .exited → state ≠ .exited → ∀ u,
      (s.setWorker w state).worker u = .exited ↔ s.worker u = .exited :=
    fun h hbefore hstate u => exited_setWorker h hbefore hstate u
  cases hs with
  | submit idle alone => exact frame_submit _ _ _ _
  | pushRefused call push =>
    refine frame_of rfl rfl rfl rfl (fun _ => Iff.rfl) rfl ?_
    intro entry hentry
    rw [List.mem_singleton.mp hentry]
    exact ordinary_submitted _ _
  | pushWaits call push => exact still rfl rfl rfl rfl (fun _ => Iff.rfl) rfl
  | pushAccepted call push wakes =>
    split at push
    · obtain ⟨hopen, hclosed, -⟩ := ConcurrencyJobQueue.push_accept push
      exact frame_push hopen hclosed _
    · obtain ⟨hopen, hclosed, -⟩ := ConcurrencyJobQueue.tryPush_accept push
      exact frame_push hopen hclosed _
  | wakeSubmitter call => exact still rfl rfl rfl rfl (fun _ => Iff.rfl) rfl
  | popWaits at_ pop =>
    exact still rfl rfl rfl rfl (moves at_ (fun h => by cases h) (fun h => by cases h)) rfl
  | popClosed at_ pop => exact frame_exit (ConcurrencyJobQueue.pop_closed pop)
  | popJob at_ pop wakes =>
    obtain ⟨hclosed, hjobs⟩ := ConcurrencyJobQueue.pop_job pop
    exact frame_pop at_ hclosed hjobs _
  | wakeWorker at_ =>
    exact still rfl rfl rfl rfl (moves at_ (fun h => by cases h) (fun h => by cases h)) rfl
  | acquire at_ lock =>
    refine still rfl rfl rfl rfl ?_ rfl
    apply moves at_ (fun h => by cases h)
    split
    · exact fun h => by cases h
    · exact fun h => by cases h
  | resume at_ lock =>
    refine still rfl rfl rfl rfl ?_ rfl
    apply moves at_ (fun h => by cases h)
    split
    · exact fun h => by cases h
    · exact fun h => by cases h
  | wakeLock at_ lock => exact still rfl rfl rfl rfl (fun _ => Iff.rfl) rfl
  | run at_ =>
    refine frame_of rfl rfl rfl rfl (moves at_ (fun h => by cases h) (fun h => by cases h)) rfl ?_
    intro entry hentry
    rw [List.mem_singleton.mp hentry]
    exact ordinary_ran _ _
  | callback at_ thread lock => exact still rfl rfl rfl rfl (fun _ => Iff.rfl) rfl
  | runReturns at_ call held =>
    exact still rfl rfl rfl rfl (moves at_ (fun h => by cases h) (fun h => by cases h)) rfl
  | release at_ lock =>
    exact still rfl rfl rfl rfl (moves at_ (fun h => by cases h) (fun h => by cases h)) rfl
  | finish at_ =>
    refine frame_of rfl rfl rfl rfl (moves at_ (fun h => by cases h) (fun h => by cases h)) rfl ?_
    intro entry hentry
    rw [List.mem_singleton.mp hentry]
    exact ordinary_finished _ _ _
  | shutdown outside ready => exact absurd .shutdown hc
  | destroy outside ready alone => exact absurd .destroy hc
  | close at_ => exact absurd .close hc
  | cancelNext at_ pop wakes => exact absurd .cancelNext hc
  | cancelDone at_ pop => exact absurd .cancelNext hc
  | cancelFinish at_ => exact absurd .cancelFinish hc
  | join at_ exited => exact absurd .join hc
  | joined at_ => exact absurd .join hc

end Frames

/-- The call that the controlling thread is in. -/
def phaseOf : ControlState → Option Phase
  | .closing _ phase | .cancelling phase | .holding _ phase | .joining _ phase => some phase
  | .outside | .destroyed => none

def Cancelled (log : List LogEntry) : Prop :=
  ∃ job worker status, .finished job .cancelled worker status ∈ log

/-- What holds of the pool while the controlling thread is at this point. -/
structure Stands (s : ConcurrencyThreadPool T n capacity) (point : ControlState) : Prop where
  returned : point = .outside → s.shutdownStarted = true → s.joined = true
  within : phaseOf point ≠ none → s.shutdownStarted = true
  rejoined : phaseOf point = some .queueDestroy → s.joined = true
  destroyed : point = .destroyed → ∀ w, s.worker w = .exited
  gathered : ∀ index phase, point = .joining index phase →
    ∀ w : Fin n, w.val < index → s.worker w = .exited
  keeps : ∀ job, point ≠ .holding job .queueDestroy
  /-- A shutdown that drains cancels nothing; the cancel of destroy comes after the join. -/
  drains : .shutdown .drain ∈ s.log →
    (∀ mode phase, point = .closing mode phase → mode = .drain ∨ phase = .queueDestroy) ∧
      (∀ phase, point = .cancelling phase → phase = .queueDestroy) ∧
      ∀ job phase, point ≠ .holding job phase

structure Controlled (s : ConcurrencyThreadPool T n capacity) : Prop where
  exited : ∀ w, s.worker w = .exited → s.queue.closed = true ∧ s.queue.jobs = []
  stopped : s.joined = true → ∀ w, s.worker w = .exited
  stands : Stands s s.controller
  unstarted : s.shutdownStarted = false → s.controller ≠ .destroyed →
    (∀ mode, .shutdown mode ∉ s.log) ∧ ¬ Cancelled s.log
  uncancelled : .shutdown .drain ∈ s.log → ¬ Cancelled s.log

section Invariant

variable {entries : List LogEntry}

theorem shutdown_mem {log : List LogEntry} (h : ∀ entry ∈ entries, Ordinary entry)
    {mode : ConcurrencyThreadPoolShutdownMode} (hm : .shutdown mode ∈ log ++ entries) :
    .shutdown mode ∈ log := by
  rcases List.mem_append.mp hm with hm | hm
  · exact hm
  · exact absurd rfl ((h _ hm).started mode)

theorem cancelled_mem {log : List LogEntry} (h : ∀ entry ∈ entries, Ordinary entry)
    (hc : Cancelled (log ++ entries)) : Cancelled log := by
  obtain ⟨job, worker, status, hm⟩ := hc
  rcases List.mem_append.mp hm with hm | hm
  · exact ⟨job, worker, status, hm⟩
  · exact absurd rfl ((h _ hm).kept job worker status)

theorem Controlled.frame (h : Controlled s) (hf : Frame s s') : Controlled s' := by
  obtain ⟨entries, hlog, hentries⟩ := hf.logged
  have hshutdown : ∀ {mode}, .shutdown mode ∈ s'.log → .shutdown mode ∈ s.log := by
    intro mode hm
    rw [hlog] at hm
    exact shutdown_mem hentries hm
  have hcancelled : Cancelled s'.log → Cancelled s.log := by
    intro hm
    rw [hlog] at hm
    exact cancelled_mem hentries hm
  refine ⟨?_, ?_, ?_, ?_, ?_⟩
  · intro w hw
    have hempty : s.queue.closed = true ∧ s.queue.jobs = [] := by
      rcases hf.exits w hw with hbefore | hempty
      · exact h.exited w hbefore
      · exact hempty
    exact ⟨hf.closed.trans hempty.1, hf.empty hempty.1 hempty.2⟩
  · intro hjoined w
    exact hf.stays w (h.stopped (hf.joined.symm.trans hjoined) w)
  · obtain ⟨hreturned, hwithin, hrejoined, hdestroyed, hgathered, hkeeps, hdrains⟩ := h.stands
    rw [hf.controller]
    refine ⟨?_, ?_, ?_, ?_, ?_, hkeeps, fun hm => hdrains (hshutdown hm)⟩
    · rw [hf.started, hf.joined]
      exact hreturned
    · rw [hf.started]
      exact hwithin
    · rw [hf.joined]
      exact hrejoined
    · intro hpoint w
      exact hf.stays w (hdestroyed hpoint w)
    · intro index phase hpoint w hw
      exact hf.stays w (hgathered index phase hpoint w hw)
  · intro hstarted hpoint
    rw [hf.started] at hstarted
    rw [hf.controller] at hpoint
    obtain ⟨hmodes, hkept⟩ := h.unstarted hstarted hpoint
    exact ⟨fun mode hm => hmodes mode (hshutdown hm), fun hm => hkept (hcancelled hm)⟩
  · intro hm hc
    exact h.uncancelled (hshutdown hm) (hcancelled hc)

/-- The controlling thread goes on to another point, before the pool is gone. -/
theorem Controlled.steer (h : Controlled s) {point : ControlState} (hpoint : Stands s point)
    (hbefore : s.controller ≠ .destroyed) : Controlled (s.setController point) where
  exited := h.exited
  stopped := h.stopped
  stands := ⟨hpoint.returned, hpoint.within, hpoint.rejoined, hpoint.destroyed, hpoint.gathered,
    hpoint.keeps, hpoint.drains⟩
  unstarted := fun hstarted _ => h.unstarted hstarted hbefore
  uncancelled := h.uncancelled

theorem Controlled.startShutdown (h : Controlled s) (outside : s.controller = .outside)
    (hstarted : s.shutdownStarted = false) (mode : ConcurrencyThreadPoolShutdownMode)
    {phase : Phase} (hphase : phase ≠ .queueDestroy) :
    Controlled (s.startShutdown mode phase) := by
  have hpoint : s.controller ≠ .destroyed := by
    rw [outside]
    exact fun h => by cases h
  obtain ⟨hmodes, hkept⟩ := h.unstarted hstarted hpoint
  have hcancelled : ¬ Cancelled (s.log ++ [.shutdown mode]) := by
    intro hc
    obtain ⟨job, worker, status, hm⟩ := hc
    rcases List.mem_append.mp hm with hm | hm
    · exact hkept ⟨job, worker, status, hm⟩
    · cases List.mem_singleton.mp hm
  refine ⟨h.exited, h.stopped, ⟨?_, fun _ => rfl, ?_, ?_, ?_, ?_, ?_⟩, ?_, fun _ => hcancelled⟩
  · intro hpoint
    cases hpoint
  · intro hpoint
    exact absurd (Option.some.inj hpoint) hphase
  · intro hpoint
    cases hpoint
  · intro index other hpoint
    cases hpoint
  · intro job hpoint
    cases hpoint
  · intro hm
    have hmode : mode = .drain := by
      rcases List.mem_append.mp hm with hm | hm
      · exact absurd hm (hmodes _)
      · injection List.mem_singleton.mp hm with hsame
        exact hsame.symm
    refine ⟨?_, ?_, ?_⟩
    · intro other at_ hpoint
      injection hpoint with hother _
      exact .inl (hother.symm.trans hmode)
    · intro at_ hpoint
      cases hpoint
    · intro job at_ hpoint
      cases hpoint
  · intro hfalse
    cases hfalse

/-- The queue is closed and everybody woken. -/
def closeAndWake (s : ConcurrencyThreadPool T n capacity) : ConcurrencyThreadPool T n capacity :=
  ((s.setQueue s.queue.close).wakeSubmitters fun _ => true).wakeWorkers fun _ => true

theorem exited_closeAndWake (w : Fin n) :
    (closeAndWake s).worker w = .exited ↔ s.worker w = .exited :=
  exited_wakeWorkers (s := (s.setQueue s.queue.close).wakeSubmitters fun _ => true) _ w

theorem Controlled.close (h : Controlled s) : Controlled (closeAndWake s) where
  exited := fun w hw => ⟨rfl, (h.exited w ((exited_closeAndWake w).mp hw)).2⟩
  stopped := fun hjoined w => (exited_closeAndWake w).mpr (h.stopped hjoined w)
  stands := {
    returned := h.stands.returned
    within := h.stands.within
    rejoined := h.stands.rejoined
    destroyed := fun hpoint w => (exited_closeAndWake w).mpr (h.stands.destroyed hpoint w)
    gathered := fun index phase hpoint w hw =>
      (exited_closeAndWake w).mpr (h.stands.gathered index phase hpoint w hw)
    keeps := h.stands.keeps
    drains := h.stands.drains }
  unstarted := h.unstarted
  uncancelled := h.uncancelled

theorem stands_afterShutdown (hjoined : s.joined = true) (hstarted : s.shutdownStarted = true)
    (phase : Phase) : Stands s (afterShutdown phase) := by
  have hdestroy : Stands s (.closing .cancelPending .queueDestroy) := by
    refine ⟨?_, fun _ => hstarted, fun _ => hjoined, ?_, ?_, ?_, ?_⟩
    · intro hpoint
      cases hpoint
    · intro hpoint
      cases hpoint
    · intro index phase hpoint
      cases hpoint
    · intro job hpoint
      cases hpoint
    · intro _
      refine ⟨?_, ?_, ?_⟩
      · intro mode phase hpoint
        injection hpoint with _ hphase
        exact .inr hphase.symm
      · intro phase hpoint
        cases hpoint
      · intro job phase hpoint
        cases hpoint
  cases phase with
  | shutdown =>
    refine ⟨fun _ _ => hjoined, fun hpoint => absurd rfl hpoint, ?_, ?_, ?_, ?_, ?_⟩
    · intro hpoint
      cases hpoint
    · intro hpoint
      cases hpoint
    · intro index phase hpoint
      cases hpoint
    · intro job hpoint
      cases hpoint
    · intro _
      refine ⟨?_, ?_, ?_⟩
      · intro mode phase hpoint
        cases hpoint
      · intro phase hpoint
        cases hpoint
      · intro job phase hpoint
        cases hpoint
  | destroy => exact hdestroy
  | queueDestroy => exact hdestroy

theorem stands_joining (hstarted : s.shutdownStarted = true) {index : Nat} {phase : Phase}
    (hphase : phase = .queueDestroy → s.joined = true)
    (hgathered : ∀ w : Fin n, w.val < index → s.worker w = .exited) :
    Stands s (.joining index phase) := by
  refine ⟨?_, fun _ => hstarted, ?_, ?_, ?_, ?_, ?_⟩
  · intro hpoint
    cases hpoint
  · intro hpoint
    exact hphase (Option.some.inj hpoint)
  · intro hpoint
    cases hpoint
  · intro other at_ hpoint
    injection hpoint with hindex _
    rw [← hindex]
    exact hgathered
  · intro job hpoint
    cases hpoint
  · intro _
    refine ⟨?_, ?_, ?_⟩
    · intro mode at_ hpoint
      cases hpoint
    · intro at_ hpoint
      cases hpoint
    · intro job at_ hpoint
      cases hpoint

theorem stands_beforeJoin (hstarted : s.shutdownStarted = true) {phase : Phase}
    (hphase : phase = .queueDestroy → s.joined = true) : Stands s (s.beforeJoin phase) := by
  unfold beforeJoin
  split
  · rename_i hjoined
    exact stands_afterShutdown hjoined hstarted phase
  · apply stands_joining hstarted hphase
    intro w hw
    exact absurd hw (Nat.not_lt_zero _)

theorem stands_cancelling (hstarted : s.shutdownStarted = true) {phase : Phase}
    (hphase : phase = .queueDestroy → s.joined = true)
    (hdrains : .shutdown .drain ∈ s.log → phase = .queueDestroy) :
    Stands s (.cancelling phase) := by
  refine ⟨?_, fun _ => hstarted, ?_, ?_, ?_, ?_, ?_⟩
  · intro hpoint
    cases hpoint
  · intro hpoint
    exact hphase (Option.some.inj hpoint)
  · intro hpoint
    cases hpoint
  · intro index at_ hpoint
    cases hpoint
  · intro job hpoint
    cases hpoint
  · intro hm
    refine ⟨?_, ?_, ?_⟩
    · intro mode at_ hpoint
      cases hpoint
    · intro at_ hpoint
      injection hpoint with hsame
      exact hsame.symm.trans (hdrains hm)
    · intro job at_ hpoint
      cases hpoint

theorem stands_holding (hstarted : s.shutdownStarted = true) {job : ConcurrencyJob}
    {phase : Phase} (hphase : phase ≠ .queueDestroy) (hdrains : .shutdown .drain ∉ s.log) :
    Stands s (.holding job phase) := by
  refine ⟨?_, fun _ => hstarted, ?_, ?_, ?_, ?_, ?_⟩
  · intro hpoint
    cases hpoint
  · intro hpoint
    exact absurd (Option.some.inj hpoint) hphase
  · intro hpoint
    cases hpoint
  · intro index at_ hpoint
    cases hpoint
  · intro other hpoint
    injection hpoint with _ hsame
    exact hphase hsame
  · intro hm
    exact absurd hm hdrains

/-- With no worker left, a queue that nobody can pop from any more is empty. -/
theorem Controlled.emptied (h : Controlled s) (hn : 0 < n) (hjoined : s.joined = true) :
    s.queue.closed = true ∧ s.queue.jobs = [] :=
  h.exited ⟨0, hn⟩ (h.stopped hjoined _)

theorem Controlled.cancelNext (h : Controlled s) (hn : 0 < n) {phase : Phase}
    {job : ConcurrencyJob} {queue : ConcurrencyJobQueue capacity}
    (at_ : s.controller = .cancelling phase) (pop : s.queue.popPending = some (job, queue))
    (woken : T → Bool) :
    Controlled (((s.setController (.holding job phase)).setQueue queue).wakeSubmitters woken) := by
  obtain ⟨hclosed, hjobs⟩ := ConcurrencyJobQueue.popPending_some pop
  have hwithin : s.shutdownStarted = true := h.stands.within (by rw [at_]; exact fun h => by cases h)
  have hphase : phase ≠ .queueDestroy := by
    intro hphase
    have hjoined := h.stands.rejoined (by rw [at_, hphase]; rfl)
    rw [(h.emptied hn hjoined).2] at hjobs
    cases hjobs
  have hdrains : .shutdown .drain ∉ s.log :=
    fun hm => hphase ((h.stands.drains hm).2.1 phase at_)
  have hpoint : s.controller ≠ .destroyed := by
    rw [at_]
    exact fun h => by cases h
  have hholding : Stands s (.holding job phase) := stands_holding hwithin hphase hdrains
  obtain ⟨hexited, hstopped, hstands, hunstarted, huncancelled⟩ := h.steer hholding hpoint
  refine ⟨?_, hstopped, ?_, hunstarted, huncancelled⟩
  · intro w hw
    have hempty := (hexited w hw).2
    change s.queue.jobs = [] at hempty
    rw [hjobs] at hempty
    cases hempty
  · exact ⟨hstands.returned, hstands.within, hstands.rejoined, hstands.destroyed,
      hstands.gathered, hstands.keeps, hstands.drains⟩

theorem Controlled.cancelDone (h : Controlled s) {phase : Phase}
    (at_ : s.controller = .cancelling phase) : Controlled (s.afterCancel phase) := by
  have hwithin : s.shutdownStarted = true := h.stands.within (by rw [at_]; exact fun h => by cases h)
  have hpoint : s.controller ≠ .destroyed := by
    rw [at_]
    exact fun h => by cases h
  cases phase with
  | queueDestroy =>
    have hjoined := h.stands.rejoined (by rw [at_]; rfl)
    refine ⟨h.exited, fun h => (by cases h), ?_, ?_, h.uncancelled⟩
    · refine ⟨?_, ?_, ?_, fun _ => h.stopped hjoined, ?_, ?_, ?_⟩
      · intro hpoint
        cases hpoint
      · intro hpoint
        exact absurd rfl hpoint
      · intro hpoint
        cases hpoint
      · intro index phase hpoint
        cases hpoint
      · intro job hpoint
        cases hpoint
      · intro _
        refine ⟨?_, ?_, ?_⟩
        · intro mode phase hpoint
          cases hpoint
        · intro phase hpoint
          cases hpoint
        · intro job phase hpoint
          cases hpoint
    · intro _ hpoint
      exact absurd rfl hpoint
  | shutdown => exact h.steer (stands_beforeJoin hwithin fun h => by cases h) hpoint
  | destroy => exact h.steer (stands_beforeJoin hwithin fun h => by cases h) hpoint

theorem Controlled.cancelFinish (h : Controlled s) {phase : Phase} {job : ConcurrencyJob}
    (at_ : s.controller = .holding job phase) :
    Controlled ((s.setController (.cancelling phase)).logged
      (.finished job.id .cancelled (-1) 0)) := by
  have hwithin : s.shutdownStarted = true := h.stands.within (by rw [at_]; exact fun h => by cases h)
  have hphase : phase ≠ .queueDestroy := by
    intro hphase
    exact h.stands.keeps job (by rw [at_, hphase])
  have hdrains : .shutdown .drain ∉ s.log :=
    fun hm => (h.stands.drains hm).2.2 job phase at_
  have hmem : ∀ {mode}, .shutdown mode ∈ s.log ++ [.finished job.id .cancelled (-1) 0] →
      .shutdown mode ∈ s.log := by
    intro mode hm
    rcases List.mem_append.mp hm with hm | hm
    · exact hm
    · cases List.mem_singleton.mp hm
  have hstands := stands_cancelling hwithin (fun hp => absurd hp hphase)
    fun hm => absurd hm hdrains
  refine ⟨h.exited, h.stopped, ?_, ?_, ?_⟩
  · exact ⟨hstands.returned, hstands.within, hstands.rejoined, hstands.destroyed,
      hstands.gathered, hstands.keeps, fun hm => hstands.drains (hmem hm)⟩
  · intro hfalse _
    exact absurd (hwithin.symm.trans hfalse) (by decide)
  · intro hm
    exact absurd (hmem hm) hdrains

variable [DecidableEq T]

theorem Controlled.step (h : Controlled s) (hn : 0 < n) {event : PoolEvent T n}
    (hs : PoolStep s event s') : Controlled s' := by
  by_cases hcontrol : Control event
  · have hwithin (phase : Phase) (hp : phaseOf s.controller = some phase) :
        s.shutdownStarted = true ∧ s.controller ≠ .destroyed := by
      constructor
      · apply h.stands.within
        rw [hp]
        exact fun h => by cases h
      · intro hgone
        rw [hgone] at hp
        cases hp
    cases hs with
    | shutdown outside ready =>
      split
      · exact h
      · rename_i hstarted
        exact h.startShutdown outside (Bool.eq_false_iff.mpr hstarted) _ fun h => by cases h
    | destroy outside ready alone =>
      split
      · rename_i hstarted
        have hjoined := h.stands.returned outside hstarted
        refine h.steer (stands_afterShutdown hjoined hstarted .destroy) ?_
        rw [outside]
        exact fun h => by cases h
      · rename_i hstarted
        exact h.startShutdown outside (Bool.eq_false_iff.mpr hstarted) _ fun h => by cases h
    | @close mode phase at_ =>
      obtain ⟨hstarted, hpoint⟩ := hwithin phase (by rw [at_]; rfl)
      have hrejoined : phase = .queueDestroy → s.joined = true := by
        intro hphase
        apply h.stands.rejoined
        rw [at_, hphase]
        rfl
      have hclosed : Controlled (closeAndWake s) := h.close
      unfold closeQueue
      split
      · rename_i hmode
        refine hclosed.steer (stands_cancelling (s := closeAndWake s) hstarted hrejoined ?_) hpoint
        intro hm
        rcases (h.stands.drains hm).1 mode phase at_ with hdrain | hphase
        · rw [hmode] at hdrain
          cases hdrain
        · exact hphase
      · exact hclosed.steer (stands_beforeJoin (s := closeAndWake s) hstarted hrejoined) hpoint
    | cancelNext at_ pop wakes => exact h.cancelNext hn at_ pop _
    | cancelDone at_ pop => exact h.cancelDone at_
    | cancelFinish at_ => exact h.cancelFinish at_
    | @join phase w at_ exited =>
      obtain ⟨hstarted, hpoint⟩ := hwithin phase (by rw [at_]; rfl)
      refine h.steer (stands_joining hstarted ?_ ?_) hpoint
      · intro hphase
        apply h.stands.rejoined
        rw [at_, hphase]
        rfl
      · intro u hu
        rcases Nat.lt_succ_iff_lt_or_eq.mp hu with hlt | heq
        · exact h.stands.gathered w phase at_ u hlt
        · rw [Fin.ext heq]
          exact exited
    | @joined phase at_ =>
      obtain ⟨hstarted, hpoint⟩ := hwithin phase (by rw [at_]; rfl)
      have hall : ∀ w, s.worker w = .exited := fun w => h.stands.gathered n phase at_ w w.isLt
      have hstands := stands_afterShutdown (s := { s with joined := true }) rfl hstarted phase
      have hafter : Controlled { s with joined := true } := by
        refine ⟨h.exited, fun _ => hall, ?_, h.unstarted, h.uncancelled⟩
        refine ⟨fun _ _ => rfl, h.stands.within, fun _ => rfl, h.stands.destroyed,
          h.stands.gathered, h.stands.keeps, h.stands.drains⟩
      exact hafter.steer hstands hpoint
    | submit | pushRefused | pushWaits | pushAccepted | wakeSubmitter | popWaits | popClosed
      | popJob | wakeWorker | acquire | resume | wakeLock | run | callback | runReturns | release
      | finish => cases hcontrol
  · exact h.frame (step_frame hs hcontrol)

end Invariant

/-- A shutdown has returned, and destroy has not been called or has returned as well. -/
def Returned (s : ConcurrencyThreadPool T n capacity) : Prop :=
  s.controller = .outside ∧ s.shutdownStarted = true ∨ s.controller = .destroyed

section Jobs

variable {place : Nat → Option (Holder T n)}

/-- When a shutdown has returned the workers are gone. -/
theorem Controlled.exits (h : Controlled s) (hreturned : Returned s) (w : Fin n) :
    s.worker w = .exited := by
  rcases hreturned with ⟨houtside, hstarted⟩ | hdestroyed
  · exact h.stopped (h.stands.returned houtside hstarted) w
  · exact h.stands.destroyed hdestroyed w

end Jobs

/-- A pool of one worker and one slot, with a submission on its way and a shutdown begun. -/
def closing : ConcurrencyThreadPool Unit 1 1 :=
  ((ConcurrencyThreadPool.init Unit 1 .serialAll Nat.one_pos).submit () false .none
    true).startShutdown .drain .shutdown

end DbApi.Proofs.PoolShutdown
