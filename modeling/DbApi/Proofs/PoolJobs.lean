import DbApi.Concurrency.ThreadPool
import DbApi.Library.Custody

namespace DbApi.Proofs.PoolJobs
open Library Concurrency ConcurrencyThreadPool

/-- Who can have a job in hand. A worker takes a job and then runs it. -/
inductive Holder (T : Type) (n : Nat) where
  | queue
  | submitter (t : T)
  | taker (w : Fin n)
  | runner (w : Fin n)
  | controller
deriving DecidableEq

def submitting : SubmitState → List Nat
  | .pushing job _ | .asleep job => [job.id]
  | .idle => []

def taken : WorkerState → List Nat
  | .taken job | .locking job | .locked job => [job.id]
  | _ => []

def run : WorkerState → List Nat
  | .running job | .returned job _ | .released job _ => [job.id]
  | _ => []

def cancelling : ControlState → List Nat
  | .holding job _ => [job.id]
  | _ => []

variable {T : Type} {n capacity : Nat} {s s' : ConcurrencyThreadPool T n capacity}

def holding (s : ConcurrencyThreadPool T n capacity) : Holder T n → List Nat
  | .queue => s.queue.jobs.map (·.id)
  | .submitter t => submitting (s.submitter t)
  | .taker w => taken (s.worker w)
  | .runner w => run (s.worker w)
  | .controller => cancelling s.controller

/-- What the log says about one job. -/
def history (log : List LogEntry) (j : Nat) : List LogEntry := log.filter (·.job = some j)

/-- What has happened to a job in the hands of a holder, or of nobody. -/
inductive Trace (j : Nat) : Option (Holder T n) → List LogEntry → Prop where
  | unknown : Trace j none []
  | submitting (t : T) : Trace j (some (.submitter t)) []
  | refused {status : ConcurrencyJobQueueStatus} (h : status ≠ .ok) :
    Trace j none [.submitted j status]
  | queued : Trace j (some .queue) [.submitted j .ok]
  | taken (w : Fin n) : Trace j (some (.taker w)) [.submitted j .ok]
  | cancelling : Trace j (some .controller) [.submitted j .ok]
  | running (w : Fin n) : Trace j (some (.runner w)) [.submitted j .ok, .ran j w]
  | finished (w : Fin n) (runStatus : Int) :
    Trace j none [.submitted j .ok, .ran j w,
      .finished j (if runStatus = 0 then .ok else .failed) w runStatus]
  | cancelled : Trace j none [.submitted j .ok, .finished j .cancelled (-1) 0]

/-- Every job is in one place, and its history fits the place. -/
structure Accounts (s : ConcurrencyThreadPool T n capacity) (place : Nat → Option (Holder T n)) :
    Prop where
  custody : Custody (holding s) place
  trace : ∀ j, Trace j (place j) (history s.log j)
  fresh : ∀ j, s.nextId ≤ j → place j = none ∧ history s.log j = []

variable {place : Nat → Option (Holder T n)}

theorem history_append (log entries : List LogEntry) (j : Nat) :
    history (log ++ entries) j = history log j ++ history entries j := List.filter_append ..

theorem history_own {entries : List LogEntry} {j : Nat} (h : ∀ e ∈ entries, e.job = some j) :
    history entries j = entries := by
  apply List.filter_eq_self.mpr
  intro e he
  simpa using h e he

theorem history_other {entries : List LogEntry} {i : Nat} (h : ∀ e ∈ entries, e.job ≠ some i) :
    history entries i = [] := by
  apply List.filter_eq_nil_iff.mpr
  intro e he
  simpa using h e he

theorem Accounts.stay (h : Accounts s place) {entries : List LogEntry}
    (hheld : holding s' = holding s) (hlog : s'.log = s.log ++ entries)
    (hentries : ∀ e ∈ entries, e.job = none) (hid : s'.nextId = s.nextId) : Accounts s' place := by
  have hsame : ∀ j, history s'.log j = history s.log j := by
    intro j
    have hnone : history entries j = [] := history_other fun e he => by simp [hentries e he]
    rw [hlog, history_append, hnone, List.append_nil]
  refine ⟨hheld ▸ h.custody, fun j => hsame j ▸ h.trace j, fun j hj => ?_⟩
  rw [hsame]
  exact h.fresh j (hid ▸ hj)

theorem Accounts.move (h : Accounts s place) {j : Nat} {source target : Option (Holder T n)}
    {entries : List LogEntry} (hplace : place j = source)
    (hp : Passes j source target (holding s) (holding s')) (hlog : s'.log = s.log ++ entries)
    (hentries : ∀ e ∈ entries, e.job = some j)
    (ht : Trace j target (history s.log j ++ entries)) (hid : s.nextId ≤ s'.nextId)
    (hj : j < s'.nextId) : Accounts s' (Function.update place j target) := by
  have hother : ∀ i, i ≠ j → history s'.log i = history s.log i := by
    intro i hi
    have hne : ∀ e ∈ entries, e.job ≠ some i := fun e he => by simp [hentries e he, Ne.symm hi]
    rw [hlog, history_append, history_other hne, List.append_nil]
  refine ⟨h.custody.passes hp hplace, fun i => ?_, fun i hi => ?_⟩
  · by_cases hij : i = j
    · subst hij
      rw [Function.update_self, hlog, history_append, history_own hentries]
      exact ht
    · rw [Function.update_of_ne hij, hother i hij]
      exact h.trace i
  · have hij : i ≠ j := by omega
    rw [Function.update_of_ne hij, hother i hij]
    exact h.fresh i (hid.trans hi)

/-- Someone has the job, so its history is that of the place. -/
theorem Accounts.held (h : Accounts s place) {j : Nat} {holder : Holder T n}
    (hj : j ∈ holding s holder) :
    place j = some holder ∧ Trace j (some holder) (history s.log j) ∧ j < s.nextId := by
  have hplace := (h.custody.holds holder j).mp hj
  refine ⟨hplace, hplace ▸ h.trace j, ?_⟩
  by_contra hn
  have hnone := (h.fresh j (Nat.le_of_not_lt hn)).1
  rw [hplace] at hnone
  cases hnone

section Holding

@[simp] theorem taken_wake (state : WorkerState) : taken state.wake = taken state := by
  cases state <;> rfl

@[simp] theorem run_wake (state : WorkerState) : run state.wake = run state := by
  cases state <;> rfl

@[simp] theorem submitting_wake (state : SubmitState) : submitting state.wake = submitting state := by
  cases state <;> rfl

@[simp] theorem holding_logged (s : ConcurrencyThreadPool T n capacity) (entry : LogEntry) :
    holding (s.logged entry) = holding s := by
  funext h
  cases h <;> rfl

@[simp] theorem holding_setLocks (s : ConcurrencyThreadPool T n capacity)
    (locks : LockState (Fin n)) : holding (s.setLocks locks) = holding s := by
  funext h
  cases h <;> rfl

@[simp] theorem holding_wakeWorkers (s : ConcurrencyThreadPool T n capacity) (woken : Fin n → Bool) :
    holding (s.wakeWorkers woken) = holding s := by
  funext h
  cases h with
  | taker w =>
    change taken (if woken w then (s.worker w).wake else s.worker w) = taken (s.worker w)
    split
    · exact taken_wake _
    · rfl
  | runner w =>
    change run (if woken w then (s.worker w).wake else s.worker w) = run (s.worker w)
    split
    · exact run_wake _
    · rfl
  | queue => rfl
  | submitter t => rfl
  | controller => rfl

@[simp] theorem holding_wakeSubmitters (s : ConcurrencyThreadPool T n capacity) (woken : T → Bool) :
    holding (s.wakeSubmitters woken) = holding s := by
  funext h
  cases h with
  | submitter t =>
    change submitting (if woken t then (s.submitter t).wake else s.submitter t) =
      submitting (s.submitter t)
    split
    · exact submitting_wake _
    · rfl
  | queue => rfl
  | taker w => rfl
  | runner w => rfl
  | controller => rfl

variable [DecidableEq T]

@[simp] theorem holding_setSubmitter (s : ConcurrencyThreadPool T n capacity) (t : T)
    (state : SubmitState) :
    holding (s.setSubmitter t state) =
      Function.update (holding s) (.submitter t) (submitting state) := by
  funext h
  cases h with
  | submitter u =>
    by_cases hu : u = t
    · subst hu
      simp [holding, setSubmitter]
    · rw [Function.update_of_ne (by simpa using hu)]
      simp [holding, setSubmitter, hu]
  | queue => rfl
  | taker w => rfl
  | runner w => rfl
  | controller => rfl

@[simp] theorem holding_setController (s : ConcurrencyThreadPool T n capacity)
    (state : ControlState) :
    holding (s.setController state) =
      Function.update (holding s) .controller (cancelling state) := by
  funext h
  cases h <;> rfl

@[simp] theorem holding_setQueue (s : ConcurrencyThreadPool T n capacity)
    (queue : ConcurrencyJobQueue capacity) :
    holding (s.setQueue queue) =
      Function.update (holding s) .queue (queue.jobs.map (·.id)) := by
  funext h
  cases h <;> rfl

@[simp] theorem holding_setWorker (s : ConcurrencyThreadPool T n capacity) (w : Fin n)
    (state : WorkerState) :
    holding (s.setWorker w state) =
      Function.update (Function.update (holding s) (.taker w) (taken state)) (.runner w)
        (run state) := by
  funext h
  cases h with
  | taker u =>
    rw [Function.update_of_ne (by simp)]
    by_cases hu : u = w
    · subst hu
      simp [holding, setWorker]
    · rw [Function.update_of_ne (by simpa using hu)]
      simp [holding, setWorker, hu]
  | runner u =>
    by_cases hu : u = w
    · subst hu
      simp [holding, setWorker]
    · rw [Function.update_of_ne (by simpa using hu), Function.update_of_ne (by simp)]
      simp [holding, setWorker, hu]
  | queue => rfl
  | submitter t => rfl
  | controller => rfl

/-- A worker that keeps its job moves nothing. -/
theorem holding_worker_same {w : Fin n} {before state : WorkerState} (h : s.worker w = before)
    (ht : taken state = taken before) (hr : run state = run before) :
    holding (s.setWorker w state) = holding s := by
  subst h
  have htaker : Function.update (holding s) (.taker w) (taken state) = holding s :=
    Function.update_eq_self_iff.mpr ht
  rw [holding_setWorker, htaker]
  exact Function.update_eq_self_iff.mpr hr

theorem holding_submitter_same {t : T} {before state : SubmitState} (h : s.submitter t = before)
    (hs : submitting state = submitting before) :
    holding (s.setSubmitter t state) = holding s := by
  subst h
  rw [holding_setSubmitter]
  exact Function.update_eq_self_iff.mpr hs

theorem holding_controller_same {before state : ControlState} (h : s.controller = before)
    (hc : cancelling state = cancelling before) : holding (s.setController state) = holding s := by
  subst h
  rw [holding_setController]
  exact Function.update_eq_self_iff.mpr hc

end Holding

section Steps

variable {j : Nat} {rest : List Nat} {entries : List LogEntry}

variable [DecidableEq T]

/-- A holder lets the job go. -/
theorem Accounts.out (h : Accounts s place) {a : Holder T n} (ha : holding s a = j :: rest)
    (hheld : holding s' = Function.update (holding s) a rest)
    (hlog : s'.log = s.log ++ entries) (hentries : ∀ e ∈ entries, e.job = some j)
    (ht : ∀ log, Trace j (some a) log → Trace (n := n) (T := T) j none (log ++ entries))
    (hid : s'.nextId = s.nextId) : ∃ place', Accounts s' place' := by
  obtain ⟨hplace, htrace, hlt⟩ := h.held (ha ▸ List.mem_cons_self)
  have hpass := passes_out ha
  rw [← hheld] at hpass
  exact ⟨_, h.move hplace hpass hlog hentries (ht _ htrace) hid.ge (hid ▸ hlt)⟩

/-- A holder hands the job on. -/
theorem Accounts.on (h : Accounts s place) {a b : Holder T n} (hab : a ≠ b)
    (ha : holding s a = j :: rest)
    (hheld : holding s' = Function.update (Function.update (holding s) a rest) b
      (holding s b ++ [j]))
    (hlog : s'.log = s.log ++ entries) (hentries : ∀ e ∈ entries, e.job = some j)
    (ht : ∀ log, Trace j (some a) log → Trace j (some b) (log ++ entries))
    (hid : s'.nextId = s.nextId) : ∃ place', Accounts s' place' := by
  obtain ⟨hplace, htrace, hlt⟩ := h.held (ha ▸ List.mem_cons_self)
  have hpass := passes_on hab ha
  rw [← hheld] at hpass
  exact ⟨_, h.move hplace hpass hlog hentries (ht _ htrace) hid.ge (hid ▸ hlt)⟩

theorem Accounts.submit (h : Accounts s place) {t : T} (idle : s.submitter t = .idle)
    (blocking : Bool) (lockMode : ConcurrencyLockMode) (hasRun : Bool) :
    ∃ place', Accounts (s.submit t blocking lockMode hasRun) place' := by
  obtain ⟨hplace, hhistory⟩ := h.fresh s.nextId (Nat.le_refl _)
  have hnext : s.nextId ≤ s.nextId + 1 := Nat.le_succ _
  have hlt : s.nextId < s.nextId + 1 := Nat.lt_succ_self _
  unfold ConcurrencyThreadPool.submit
  dsimp only
  split
  · have hidle : holding s (.submitter t) = [] := congrArg submitting idle
    have hpass := passes_in s.nextId (Holder.submitter t) (holding s)
    have hheld := holding_setSubmitter s t
      (.pushing { id := s.nextId, lockMode, hasRun } blocking)
    rw [hidle] at hpass
    refine ⟨_, h.move hplace (hheld ▸ hpass) (List.append_nil _).symm
      (fun e he => by cases he) ?_ hnext hlt⟩
    rw [hhistory]
    exact .submitting t
  · refine ⟨_, h.move hplace (passes_none s.nextId (holding s)) rfl ?_ ?_ hnext hlt⟩
    · exact fun e he => List.mem_singleton.mp he ▸ rfl
    · rw [hhistory]
      exact .refused (by decide)

theorem Accounts.push (h : Accounts s place) {t : T} {job : ConcurrencyJob} {blocking : Bool}
    (call : s.submitter t = .pushing job blocking) {queue : ConcurrencyJobQueue capacity}
    (hjobs : queue.jobs = s.queue.jobs ++ [job]) (woken : Fin n → Bool) :
    ∃ place', Accounts ((((s.setSubmitter t .idle).setQueue queue).wakeWorkers woken).logged
      (.submitted job.id .ok)) place' := by
  have ha : holding s (.submitter t) = job.id :: [] := congrArg submitting call
  refine h.on (b := .queue) (by simp) ha ?_ rfl (fun e he => List.mem_singleton.mp he ▸ rfl) ?_ rfl
  · rw [holding_logged, holding_wakeWorkers, holding_setQueue, holding_setSubmitter, hjobs,
      List.map_append]
    rfl
  · intro log ht
    cases ht
    exact .queued

theorem Accounts.pop (h : Accounts s place) {w : Fin n} {job : ConcurrencyJob}
    (popping : s.worker w = .popping) {queue : ConcurrencyJobQueue capacity}
    (hjobs : s.queue.jobs = job :: queue.jobs) (woken : T → Bool) :
    ∃ place', Accounts (((s.setWorker w (.taken job)).setQueue queue).wakeSubmitters woken)
      place' := by
  have ha : holding s .queue = job.id :: queue.jobs.map (·.id) := by
    change s.queue.jobs.map (·.id) = _
    rw [hjobs, List.map_cons]
  have hnone : holding s (.taker w) = [] := congrArg taken popping
  have hrun : Function.update (holding s) (.runner w) [] = holding s :=
    Function.update_eq_self_iff.mpr (congrArg run popping).symm
  refine h.on (b := .taker w) (by simp) ha ?_ (List.append_nil _).symm
    (fun e he => by cases he) ?_ rfl
  · have hworker : holding (s.setWorker w (.taken job)) =
        Function.update (holding s) (.taker w) [job.id] := by
      rw [holding_setWorker, Function.update_comm (by simp)]
      exact congrArg (Function.update · _ _) hrun
    rw [holding_wakeSubmitters, holding_setQueue, hworker, Function.update_comm (by simp), hnone]
    rfl
  · intro log ht
    cases ht
    exact .taken w

theorem Accounts.run (h : Accounts s place) {w : Fin n} {job : ConcurrencyJob}
    (locked : s.worker w = .locked job) :
    ∃ place', Accounts ((s.setWorker w (.running job)).logged (.ran job.id w)) place' := by
  have ha : holding s (.taker w) = job.id :: [] := congrArg taken locked
  have hnone : holding s (.runner w) = [] := congrArg PoolJobs.run locked
  refine h.on (b := .runner w) (by simp) ha ?_ rfl (fun e he => List.mem_singleton.mp he ▸ rfl) ?_
    rfl
  · rw [holding_logged, holding_setWorker, hnone]
    rfl
  · intro log ht
    cases ht
    exact .running w

theorem Accounts.finish (h : Accounts s place) {w : Fin n} {job : ConcurrencyJob} {runStatus : Int}
    (released : s.worker w = .released job runStatus) :
    ∃ place', Accounts ((s.setWorker w .popping).logged
      (.finished job.id (if runStatus = 0 then .ok else .failed) w runStatus)) place' := by
  have ha : holding s (.runner w) = job.id :: [] := congrArg PoolJobs.run released
  have htaken : Function.update (holding s) (.taker w) [] = holding s :=
    Function.update_eq_self_iff.mpr (congrArg taken released).symm
  refine h.out ha ?_ rfl (fun e he => List.mem_singleton.mp he ▸ rfl) ?_ rfl
  · rw [holding_logged, holding_setWorker]
    exact congrArg (Function.update · _ _) htaken
  · intro log ht
    cases ht
    exact .finished w runStatus

theorem Accounts.cancel (h : Accounts s place) {job : ConcurrencyJob} {phase : Phase}
    {queue : ConcurrencyJobQueue capacity} (cancelling : s.controller = .cancelling phase)
    (hjobs : s.queue.jobs = job :: queue.jobs) (woken : T → Bool) :
    ∃ place', Accounts
      (((s.setController (.holding job phase)).setQueue queue).wakeSubmitters woken) place' := by
  have ha : holding s .queue = job.id :: queue.jobs.map (·.id) := by
    change s.queue.jobs.map (·.id) = _
    rw [hjobs, List.map_cons]
  have hnone : holding s .controller = [] := congrArg PoolJobs.cancelling cancelling
  refine h.on (b := .controller) (by simp) ha ?_ (List.append_nil _).symm
    (fun e he => by cases he) ?_ rfl
  · rw [holding_wakeSubmitters, holding_setQueue, holding_setController,
      Function.update_comm (by simp), hnone]
    rfl
  · intro log ht
    cases ht
    exact .cancelling

theorem Accounts.cancelFinish (h : Accounts s place) {job : ConcurrencyJob} {phase : Phase}
    (hold : s.controller = .holding job phase) :
    ∃ place', Accounts ((s.setController (.cancelling phase)).logged
      (.finished job.id .cancelled (-1) 0)) place' := by
  have ha : holding s .controller = job.id :: [] := congrArg PoolJobs.cancelling hold
  refine h.out ha ?_ rfl (fun e he => List.mem_singleton.mp he ▸ rfl) ?_ rfl
  · rw [holding_logged, holding_setController]
    rfl
  · intro log ht
    cases ht
    exact .cancelled

theorem cancelling_afterShutdown (phase : Phase) : cancelling (afterShutdown phase) = [] := by
  cases phase <;> rfl

omit [DecidableEq T] in
theorem cancelling_beforeJoin (s : ConcurrencyThreadPool T n capacity) (phase : Phase) :
    cancelling (s.beforeJoin phase) = [] := by
  unfold beforeJoin
  split
  · exact cancelling_afterShutdown phase
  · rfl

theorem Accounts.startShutdown (h : Accounts s place) (outside : s.controller = .outside)
    (mode : ConcurrencyThreadPoolShutdownMode) (phase : Phase) :
    Accounts (s.startShutdown mode phase) place := by
  have hlog : (s.startShutdown mode phase).log = s.log ++ [.shutdown mode] := rfl
  refine h.stay ?_ hlog (fun e he => List.mem_singleton.mp he ▸ rfl) rfl
  have hheld : holding (s.setController (.closing mode phase)) = holding s :=
    holding_controller_same outside rfl
  exact hheld

/-- Every step keeps the accounts: one job moves on by one place, or none does. -/
theorem Accounts.step {event : PoolEvent T n} (h : Accounts s place) (hs : PoolStep s event s') :
    ∃ place', Accounts s' place' := by
  have still : ∀ {s' : ConcurrencyThreadPool T n capacity}, holding s' = holding s →
      s'.log = s.log → s'.nextId = s.nextId → ∃ place', Accounts s' place' := by
    intro s' hheld hlog hid
    exact ⟨place, h.stay hheld (hlog.trans (List.append_nil _).symm) (fun e he => by cases he) hid⟩
  cases hs with
  | submit idle alone => exact h.submit idle _ _ _
  | @pushRefused t job blocking status call push =>
    have ha : holding s (.submitter t) = job.id :: [] := congrArg submitting call
    refine h.out ha ?_ rfl (fun e he => List.mem_singleton.mp he ▸ rfl) ?_ rfl
    · rw [holding_logged, holding_setSubmitter]
      rfl
    · intro log ht
      cases ht
      refine .refused ?_
      split at push
      · exact ConcurrencyJobQueue.push_refuse push
      · exact ConcurrencyJobQueue.tryPush_refuse push
  | pushWaits call push => exact still (holding_submitter_same call rfl) rfl rfl
  | pushAccepted call push wakes =>
    apply h.push call
    split at push
    · exact (ConcurrencyJobQueue.push_accept push).2.2
    · exact (ConcurrencyJobQueue.tryPush_accept push).2.2
  | wakeSubmitter call => exact still (holding_submitter_same call rfl) rfl rfl
  | popWaits at_ pop => exact still (holding_worker_same at_ rfl rfl) rfl rfl
  | popClosed at_ pop => exact still (holding_worker_same at_ rfl rfl) rfl rfl
  | popJob at_ pop wakes => exact h.pop at_ (ConcurrencyJobQueue.pop_job pop).2 _
  | wakeWorker at_ => exact still (holding_worker_same at_ rfl rfl) rfl rfl
  | acquire at_ lock | resume at_ lock =>
    refine still ?_ rfl rfl
    rw [← holding_setLocks s _]
    apply holding_worker_same at_
    · split
      · rfl
      · rfl
    · split
      · rfl
      · rfl
  | wakeLock at_ lock => exact still (holding_setLocks s _) rfl rfl
  | run at_ => exact h.run at_
  | callback at_ thread lock => exact still (holding_setLocks s _) rfl rfl
  | runReturns at_ call held => exact still (holding_worker_same at_ rfl rfl) rfl rfl
  | release at_ lock =>
    refine still ?_ rfl rfl
    rw [← holding_setLocks s _]
    exact holding_worker_same at_ rfl rfl
  | finish at_ => exact h.finish at_
  | shutdown outside ready =>
    split
    · exact ⟨place, h⟩
    · exact ⟨place, h.startShutdown outside _ _⟩
  | destroy outside ready alone =>
    split
    · exact still (holding_controller_same outside rfl) rfl rfl
    · exact ⟨place, h.startShutdown outside _ _⟩
  | @close mode phase at_ =>
    refine still ?_ rfl rfl
    have hjobs : s.queue.close.jobs = s.queue.jobs := rfl
    have hqueue : holding (s.setQueue s.queue.close) = holding s := by
      rw [holding_setQueue, hjobs]
      exact Function.update_eq_self _ _
    unfold closeQueue
    rw [holding_setController, holding_wakeWorkers, holding_wakeSubmitters, hqueue]
    apply Function.update_eq_self_iff.mpr
    change _ = cancelling s.controller
    rw [at_]
    split
    · rfl
    · exact cancelling_beforeJoin s phase
  | cancelNext at_ pop wakes => exact h.cancel at_ (ConcurrencyJobQueue.popPending_some pop).2 _
  | @cancelDone phase at_ pop =>
    cases phase with
    | queueDestroy =>
      have hheld : holding (s.setController .destroyed) = holding s :=
        holding_controller_same at_ rfl
      exact still hheld rfl rfl
    | shutdown => exact still (holding_controller_same at_ (cancelling_beforeJoin s _)) rfl rfl
    | destroy => exact still (holding_controller_same at_ (cancelling_beforeJoin s _)) rfl rfl
  | cancelFinish at_ => exact h.cancelFinish at_
  | join at_ exited => exact still (holding_controller_same at_ rfl) rfl rfl
  | @joined phase at_ =>
    have hheld : holding (s.setController (afterShutdown phase)) = holding s :=
      holding_controller_same at_ (cancelling_afterShutdown phase)
    exact still hheld rfl rfl

end Steps

end DbApi.Proofs.PoolJobs
