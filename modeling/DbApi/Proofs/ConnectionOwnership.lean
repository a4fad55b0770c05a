import DbApi.Proofs.PoolShutdown
import DbApi.Runtime.Connections

/-! Each accepted connection is in one hand at a time, from its accept to its close. -/

namespace DbApi.Proofs.ConnectionOwnership
open Library Concurrency ConcurrencyThreadPool PoolJobs PoolShutdown DbApi.Runtime

variable {n capacity : Nat}

/-- The job that a worker runs or has run, and whether it is inside of the callback. -/
def callOf : WorkerState → Option (ConcurrencyJob × Bool)
  | .running job => some (job, true)
  | .returned job _ | .released job _ => some (job, false)
  | .popping | .asleep | .taken _ | .locking _ | .locked _ | .exited => none

section Inward

variable {p p' : ConcurrencyThreadPool Unit n capacity}

/-- What an internal step of the pool does to the jobs and to the threads that the runtime
follows: it moves the first job of the queue at most. -/
structure Inward (p p' : ConcurrencyThreadPool Unit n capacity) : Prop where
  nextId : p'.nextId = p.nextId
  submitter : ∀ t, ¬ (p.submitter t).Asleep → p'.submitter t = p.submitter t
  calls : ∀ w, callOf (p'.worker w) = callOf (p.worker w)
  moves : holding p' = holding p ∨ ∃ j rest target,
    (target = .controller ∨ ∃ w, target = .taker w) ∧ holding p .queue = j :: rest ∧
      holding p target = [] ∧
      holding p' = Function.update (Function.update (holding p) .queue rest) target [j]

theorem callOf_wake (state : WorkerState) : callOf state.wake = callOf state := by
  cases state <;> rfl

theorem calls_setWorker {w : Fin n} {before state : WorkerState} (h : p.worker w = before)
    (hcall : callOf state = callOf before) (u : Fin n) :
    callOf ((p.setWorker w state).worker u) = callOf (p.worker u) := by
  by_cases hu : u = w
  · subst hu
    rw [h, ← hcall]
    exact congrArg callOf (Function.update_self ..)
  · exact congrArg callOf (Function.update_of_ne hu ..)

theorem calls_wakeWorkers (woken : Fin n → Bool) (u : Fin n) :
    callOf ((p.wakeWorkers woken).worker u) = callOf (p.worker u) := by
  change callOf (if woken u then (p.worker u).wake else p.worker u) = _
  split
  · exact callOf_wake _
  · rfl

theorem submitter_wake (woken : Unit → Bool) (t : Unit) (h : ¬ (p.submitter t).Asleep) :
    (p.wakeSubmitters woken).submitter t = p.submitter t := by
  change (if woken t then (p.submitter t).wake else p.submitter t) = _
  split
  · cases hstate : p.submitter t with
    | idle => rfl
    | pushing job blocking => rfl
    | asleep job => exact absurd ⟨job, hstate⟩ h
  · rfl

theorem inward_pop {w : Fin n} {job : ConcurrencyJob} {queue : ConcurrencyJobQueue capacity}
    (popping : p.worker w = .popping) (hjobs : p.queue.jobs = job :: queue.jobs)
    (woken : Unit → Bool) :
    Inward p (((p.setWorker w (.taken job)).setQueue queue).wakeSubmitters woken) where
  nextId := rfl
  submitter := fun t h =>
    submitter_wake (p := (p.setWorker w (.taken job)).setQueue queue) woken t h
  calls := calls_setWorker popping rfl
  moves := by
    have hnone : holding p (.taker w) = [] := congrArg taken popping
    have hrun : Function.update (holding p) (.runner w) [] = holding p :=
      Function.update_eq_self_iff.mpr (congrArg run popping).symm
    refine .inr ⟨job.id, queue.jobs.map (·.id), .taker w, .inr ⟨w, rfl⟩, ?_, hnone, ?_⟩
    · change p.queue.jobs.map (·.id) = _
      rw [hjobs, List.map_cons]
    · have hworker : holding (p.setWorker w (.taken job)) =
          Function.update (holding p) (.taker w) [job.id] := by
        rw [holding_setWorker, Function.update_comm (by simp)]
        exact congrArg (Function.update · _ _) hrun
      rw [holding_wakeSubmitters, holding_setQueue, hworker, Function.update_comm (by simp)]

theorem inward_cancel {phase : Phase} {job : ConcurrencyJob}
    {queue : ConcurrencyJobQueue capacity} (at_ : p.controller = .cancelling phase)
    (hjobs : p.queue.jobs = job :: queue.jobs) (woken : Unit → Bool) :
    Inward p (((p.setController (.holding job phase)).setQueue queue).wakeSubmitters
      woken) where
  nextId := rfl
  submitter := fun t h => submitter_wake
    (p := (p.setController (.holding job phase)).setQueue queue) woken t h
  calls := fun _ => rfl
  moves := by
    have hnone : holding p .controller = [] := congrArg cancelling at_
    refine .inr ⟨job.id, queue.jobs.map (·.id), .controller, .inl rfl, ?_, hnone, ?_⟩
    · change p.queue.jobs.map (·.id) = _
      rw [hjobs, List.map_cons]
    · rw [holding_wakeSubmitters, holding_setQueue, holding_setController,
        Function.update_comm (by simp)]
      rfl

theorem inward_startShutdown (outside : p.controller = .outside)
    (mode : ConcurrencyThreadPoolShutdownMode) (phase : Phase) :
    Inward p (p.startShutdown mode phase) where
  nextId := rfl
  submitter := fun _ _ => rfl
  calls := fun _ => rfl
  moves := .inl <| by
    have hheld : holding (p.setController (.closing mode phase)) = holding p :=
      holding_controller_same outside rfl
    exact hheld

theorem inward_close {mode : ConcurrencyThreadPoolShutdownMode} {phase : Phase}
    (at_ : p.controller = .closing mode phase) : Inward p (p.closeQueue mode phase) where
  nextId := rfl
  submitter := fun t h => submitter_wake (p := p.setQueue p.queue.close) (fun _ => true) t h
  calls := fun w => calls_wakeWorkers
    (p := (p.setQueue p.queue.close).wakeSubmitters fun _ => true) (fun _ => true) w
  moves := .inl <| by
    have hqueue : holding (p.setQueue p.queue.close) = holding p := by
      rw [holding_setQueue]
      exact Function.update_eq_self _ _
    unfold closeQueue
    rw [holding_setController, holding_wakeWorkers, holding_wakeSubmitters, hqueue]
    apply Function.update_eq_self_iff.mpr
    change _ = cancelling p.controller
    rw [at_]
    split
    · rfl
    · exact cancelling_beforeJoin p phase

theorem inward_step {event : PoolEvent Unit n} (hi : internalEvent event = true)
    (hs : PoolStep p event p') : Inward p p' := by
  have still : ∀ {p' : ConcurrencyThreadPool Unit n capacity}, p'.nextId = p.nextId →
      p'.submitter = p.submitter → (∀ w, callOf (p'.worker w) = callOf (p.worker w)) →
      holding p' = holding p → Inward p p' := by
    intro p' hid hsubmitter hcalls hheld
    exact ⟨hid, fun t _ => congrFun hsubmitter t, hcalls, .inl hheld⟩
  cases hs with
  | submit | pushRefused | pushWaits | pushAccepted | wakeSubmitter | run | runReturns | finish
    | cancelFinish => cases hi
  | popWaits at_ pop =>
    exact still rfl rfl (calls_setWorker at_ rfl) (holding_worker_same at_ rfl rfl)
  | popClosed at_ pop =>
    exact still rfl rfl (calls_setWorker at_ rfl) (holding_worker_same at_ rfl rfl)
  | popJob at_ pop wakes => exact inward_pop at_ (ConcurrencyJobQueue.pop_job pop).2 _
  | wakeWorker at_ =>
    exact still rfl rfl (calls_setWorker at_ rfl) (holding_worker_same at_ rfl rfl)
  | acquire at_ lock | resume at_ lock =>
    refine still rfl rfl (calls_setWorker (p := p.setLocks _) at_ ?_) ?_
    · split
      · rfl
      · rfl
    · rw [← holding_setLocks p _]
      apply holding_worker_same at_
      · split
        · rfl
        · rfl
      · split
        · rfl
        · rfl
  | wakeLock at_ lock => exact still rfl rfl (fun _ => rfl) (holding_setLocks p _)
  | callback at_ thread lock => exact still rfl rfl (fun _ => rfl) (holding_setLocks p _)
  | release at_ lock =>
    refine still rfl rfl (calls_setWorker (p := p.setLocks _) at_ rfl) ?_
    rw [← holding_setLocks p _]
    exact holding_worker_same at_ rfl rfl
  | shutdown outside ready =>
    split
    · exact still rfl rfl (fun _ => rfl) rfl
    · exact inward_startShutdown outside _ _
  | destroy outside ready alone =>
    split
    · exact still rfl rfl (fun _ => rfl) (holding_controller_same outside rfl)
    · exact inward_startShutdown outside _ _
  | close at_ => exact inward_close at_
  | cancelNext at_ pop wakes =>
    exact inward_cancel at_ (ConcurrencyJobQueue.popPending_some pop).2 _
  | @cancelDone phase at_ pop =>
    cases phase with
    | queueDestroy =>
      have hheld : holding (p.setController .destroyed) = holding p :=
        holding_controller_same at_ rfl
      exact still rfl rfl (fun _ => rfl) hheld
    | shutdown =>
      exact still rfl rfl (fun _ => rfl)
        (holding_controller_same at_ (cancelling_beforeJoin p _))
    | destroy =>
      exact still rfl rfl (fun _ => rfl)
        (holding_controller_same at_ (cancelling_beforeJoin p _))
  | join at_ exited =>
    exact still rfl rfl (fun _ => rfl) (holding_controller_same at_ rfl)
  | @joined phase at_ =>
    have hheld : holding (p.setController (afterShutdown phase)) = holding p :=
      holding_controller_same at_ (cancelling_afterShutdown phase)
    exact still rfl rfl (fun _ => rfl) hheld

end Inward

/-- Where the accepting thread has a connection, outside of try_submit. -/
inductive AcceptPlace where
  | accepted
  | refused
  | rejected
  | disowned
deriving DecidableEq

inductive CallbackPlace where
  | entered
  | handling
  | finished
deriving DecidableEq

/-- The hands that a connection can be in; what a worker runs is in the hands of the callback. -/
inductive Hand (n : Nat) where
  | acceptor (place : AcceptPlace)
  | pool (holder : Holder Unit n)
  | callback (w : Fin n) (place : CallbackPlace)
deriving DecidableEq

def acceptorHas : AcceptState → Option (AcceptPlace × Nat)
  | .accepting | .submitting _ => none
  | .accepted client => some (.accepted, client)
  | .refused client _ => some (.refused, client)
  | .rejected client => some (.rejected, client)
  | .disowned client => some (.disowned, client)

def callbackHas : CallbackState → Option (CallbackPlace × Nat)
  | .outside => none
  | .entered client => some (.entered, client)
  | .handling client => some (.handling, client)
  | .finished client => some (.finished, client)

def having {P : Type} [DecidableEq P] (has : Option (P × Nat)) (place : P) : List Nat :=
  match has with
  | none => []
  | some (own, client) => if own = place then [client] else []

/-- The holders of the pool that the callbacks do not stand for. -/
def Waits (holder : Holder Unit n) : Prop := ∀ w, holder ≠ .runner w

def waiting (s : RuntimeState n capacity) : Holder Unit n → List Nat
  | .runner _ => []
  | holder => (holding s.pool holder).map s.context

def hands (s : RuntimeState n capacity) : Hand n → List Nat
  | .acceptor place => having (acceptorHas s.acceptor) place
  | .pool holder => waiting s holder
  | .callback w place => having (callbackHas (s.callback w)) place

section Hands

variable {s : RuntimeState n capacity} {client : Nat}

theorem hands_of_eq {s s' : RuntimeState n capacity} (hpool : s'.pool = s.pool)
    (hcontext : s'.context = s.context) (hacceptor : s'.acceptor = s.acceptor)
    (hcallback : s'.callback = s.callback) : hands s' = hands s := by
  have hwaiting : waiting s' = waiting s := by
    funext holder
    cases holder with
    | runner w => rfl
    | queue | submitter t | taker w | controller =>
      simp only [waiting, hpool, hcontext]
  funext hand
  cases hand with
  | acceptor place => exact congrArg (fun state => having (acceptorHas state) place) hacceptor
  | pool holder => exact congrFun hwaiting holder
  | callback w place =>
    exact congrArg (fun callback => having (callbackHas (callback w)) place) hcallback

@[simp] theorem hands_logged (client : Nat) (events : List ConnectionEvent) :
    hands (s.logged client events) = hands s := hands_of_eq rfl rfl rfl rfl

@[simp] theorem hands_setClientJob (client : Nat) (job : Option DbServerClientJob) :
    hands (s.setClientJob client job) = hands s := hands_of_eq rfl rfl rfl rfl

theorem having_self {P : Type} [DecidableEq P] (place : P) (client : Nat) :
    having (some (place, client)) place = [client] := if_pos rfl

theorem having_other {P : Type} [DecidableEq P] {place other : P} (h : place ≠ other)
    (client : Nat) : having (some (place, client)) other = [] := if_neg h

theorem acceptor_out {place : AcceptPlace} {state : AcceptState}
    (h : acceptorHas s.acceptor = some (place, client)) (hstate : acceptorHas state = none) :
    Passes client (some (.acceptor place)) none (hands s) (hands (s.setAcceptor state)) where
  apart := fun _ _ h => by cases h
  taken := by
    intro hand hhand
    cases hhand
    change having (acceptorHas s.acceptor) place = client :: having (acceptorHas state) place
    rw [h, hstate, having_self]
    rfl
  given := fun _ h => by cases h
  others := by
    intro hand hne _
    cases hand with
    | acceptor other =>
      have hother : place ≠ other := by
        intro heq
        exact hne (by rw [heq])
      change having (acceptorHas state) other = having (acceptorHas s.acceptor) other
      rw [h, hstate, having_other hother]
      rfl
    | pool holder => cases holder <;> rfl
    | callback w other => rfl

theorem acceptor_in {place : AcceptPlace} {state : AcceptState}
    (h : acceptorHas s.acceptor = none) (hstate : acceptorHas state = some (place, client)) :
    Passes client none (some (.acceptor place)) (hands s) (hands (s.setAcceptor state)) where
  apart := fun _ h => by cases h
  taken := fun _ h => by cases h
  given := by
    intro hand hhand
    cases hhand
    change having (acceptorHas state) place = having (acceptorHas s.acceptor) place ++ [client]
    rw [h, hstate, having_self]
    rfl
  others := by
    intro hand _ hne
    cases hand with
    | acceptor other =>
      have hother : place ≠ other := by
        intro heq
        exact hne (by rw [heq])
      change having (acceptorHas state) other = having (acceptorHas s.acceptor) other
      rw [h, hstate, having_other hother]
      rfl
    | pool holder => cases holder <;> rfl
    | callback w other => rfl

/-- The accepting thread goes on with the same connection. -/
theorem acceptor_on {place target : AcceptPlace} {state : AcceptState}
    (h : acceptorHas s.acceptor = some (place, client))
    (hstate : acceptorHas state = some (target, client)) (hne : place ≠ target) :
    Passes client (some (.acceptor place)) (some (.acceptor target)) (hands s)
      (hands (s.setAcceptor state)) := by
  have hout : Passes client _ none (hands s) (hands (s.setAcceptor .accepting)) :=
    acceptor_out h rfl
  have hin : Passes client none _ (hands (s.setAcceptor .accepting))
      (hands ((s.setAcceptor .accepting).setAcceptor state)) := acceptor_in rfl hstate
  refine hout.through hin ?_
  intro hand hhand htarget
  cases hhand
  injection htarget with heq
  injection heq with heq
  exact hne heq.symm

theorem callback_out {w : Fin n} {place : CallbackPlace} {state : CallbackState}
    (h : callbackHas (s.callback w) = some (place, client)) (hstate : callbackHas state = none) :
    Passes client (some (.callback w place)) none (hands s) (hands (s.setCallback w state)) where
  apart := fun _ _ h => by cases h
  taken := by
    intro hand hhand
    cases hhand
    change having (callbackHas (s.callback w)) place =
      client :: having (callbackHas (Function.update s.callback w state w)) place
    rw [Function.update_self, h, hstate, having_self]
    rfl
  given := fun _ h => by cases h
  others := by
    intro hand hne _
    cases hand with
    | acceptor other => rfl
    | pool holder => cases holder <;> rfl
    | callback u other =>
      change having (callbackHas (Function.update s.callback w state u)) other =
        having (callbackHas (s.callback u)) other
      by_cases hu : u = w
      · subst hu
        have hother : place ≠ other := by
          intro heq
          exact hne (by rw [heq])
        rw [Function.update_self, h, hstate, having_other hother]
        rfl
      · rw [Function.update_of_ne hu]

theorem callback_in {w : Fin n} {place : CallbackPlace} {state : CallbackState}
    (h : callbackHas (s.callback w) = none) (hstate : callbackHas state = some (place, client)) :
    Passes client none (some (.callback w place)) (hands s) (hands (s.setCallback w state)) where
  apart := fun _ h => by cases h
  taken := fun _ h => by cases h
  given := by
    intro hand hhand
    cases hhand
    change having (callbackHas (Function.update s.callback w state w)) place =
      having (callbackHas (s.callback w)) place ++ [client]
    rw [Function.update_self, h, hstate, having_self]
    rfl
  others := by
    intro hand _ hne
    cases hand with
    | acceptor other => rfl
    | pool holder => cases holder <;> rfl
    | callback u other =>
      change having (callbackHas (Function.update s.callback w state u)) other =
        having (callbackHas (s.callback u)) other
      by_cases hu : u = w
      · subst hu
        have hother : place ≠ other := by
          intro heq
          exact hne (by rw [heq])
        rw [Function.update_self, h, hstate, having_other hother]
        rfl
      · rw [Function.update_of_ne hu]

theorem callback_on {w : Fin n} {place target : CallbackPlace} {state : CallbackState}
    (h : callbackHas (s.callback w) = some (place, client))
    (hstate : callbackHas state = some (target, client)) (hne : place ≠ target) :
    Passes client (some (.callback w place)) (some (.callback w target)) (hands s)
      (hands (s.setCallback w state)) := by
  have hout : Passes client _ none (hands s) (hands (s.setCallback w .outside)) :=
    callback_out h rfl
  have houtside : callbackHas ((s.setCallback w .outside).callback w) = none := by
    change callbackHas (Function.update s.callback w .outside w) = none
    rw [Function.update_self]
    rfl
  have hin := callback_in houtside hstate
  have hsame : (s.setCallback w .outside).setCallback w state = s.setCallback w state := by
    unfold RuntimeState.setCallback
    rw [Function.update_idem]
  rw [hsame] at hin
  refine hout.through hin ?_
  intro hand hhand htarget
  cases hhand
  injection htarget with heq
  injection heq with _ heq
  exact hne heq.symm

variable {pool : ConcurrencyThreadPool Unit n capacity} {holder : Holder Unit n} {j : Nat}

theorem waiting_of (h : Waits holder) :
    waiting s holder = (holding s.pool holder).map s.context := by
  cases holder with
  | runner w => exact absurd rfl (h w)
  | queue => rfl
  | submitter t => rfl
  | taker w => rfl
  | controller => rfl

/-- A job goes on between the holders of the pool; what its workers run is none of these hands. -/
theorem passes_pool {source target : Option (Holder Unit n)} {after : Holder Unit n → List Nat}
    (hp : Passes j source target (holding s.pool) after)
    (hheld : ∀ other, Waits other → holding pool other = after other)
    (hsource : ∀ holder, source = some holder → Waits holder)
    (htarget : ∀ holder, target = some holder → Waits holder) :
    Passes (s.context j) (source.map .pool) (target.map .pool) (hands s)
      (hands (s.setPool pool)) where
  apart := by
    intro hand hs ht
    obtain ⟨holder, hholder, rfl⟩ := Option.map_eq_some_iff.mp hs
    obtain ⟨other, hother, heq⟩ := Option.map_eq_some_iff.mp ht
    injection heq with heq
    exact hp.apart holder hholder (heq ▸ hother)
  taken := by
    intro hand hs
    obtain ⟨holder, hholder, rfl⟩ := Option.map_eq_some_iff.mp hs
    have hw := hsource holder hholder
    change waiting s holder = _ :: waiting (s.setPool pool) holder
    rw [waiting_of hw, waiting_of hw, hp.taken holder hholder, ← hheld holder hw]
    rfl
  given := by
    intro hand ht
    obtain ⟨holder, hholder, rfl⟩ := Option.map_eq_some_iff.mp ht
    have hw := htarget holder hholder
    change waiting (s.setPool pool) holder = waiting s holder ++ _
    rw [waiting_of hw, waiting_of hw]
    change (holding pool holder).map s.context = _
    rw [hheld holder hw, hp.given holder hholder, List.map_append]
    rfl
  others := by
    intro hand hs ht
    cases hand with
    | acceptor place => rfl
    | callback w place => rfl
    | pool other =>
      change waiting (s.setPool pool) other = waiting s other
      by_cases hw : Waits other
      · rw [waiting_of hw, waiting_of hw]
        change (holding pool other).map s.context = _
        rw [hheld other hw, hp.others other]
        · exact fun h => hs (by rw [h]; rfl)
        · exact fun h => ht (by rw [h]; rfl)
      · cases other with
        | runner w => rfl
        | queue | submitter t | taker w | controller => exact absurd (fun _ h => by cases h) hw

/-- The context field of a job that nobody has is of no account. -/
theorem hands_context {context : Nat → Nat}
    (h : ∀ holder, ∀ j ∈ holding s.pool holder, context j = s.context j) :
    hands { s with context } = hands s := by
  funext hand
  cases hand with
  | acceptor place => rfl
  | callback w place => rfl
  | pool other =>
    change waiting { s with context } other = waiting s other
    by_cases hw : Waits other
    · rw [waiting_of hw, waiting_of hw]
      exact List.map_congr_left (h other)
    · cases other with
      | runner w => rfl
      | queue | submitter t | taker w | controller => exact absurd (fun _ h => by cases h) hw

/-- try_submit is no hand of the accepting thread. -/
theorem hands_setAcceptor {state : AcceptState} (h : acceptorHas s.acceptor = none)
    (hstate : acceptorHas state = none) : hands (s.setAcceptor state) = hands s := by
  funext hand
  cases hand with
  | acceptor place =>
    change having (acceptorHas state) place = having (acceptorHas s.acceptor) place
    rw [h, hstate]
  | pool holder => cases holder <;> rfl
  | callback w place => rfl

theorem hands_setPool (hheld : ∀ other, Waits other → holding pool other = holding s.pool other) :
    hands (s.setPool pool) = hands s := by
  funext hand
  cases hand with
  | acceptor place => rfl
  | callback w place => rfl
  | pool other =>
    change waiting (s.setPool pool) other = waiting s other
    by_cases hwaits : Waits other
    · rw [waiting_of hwaits, waiting_of hwaits]
      exact congrArg (List.map s.context) (hheld other hwaits)
    · cases other with
      | runner w => rfl
      | queue | submitter t | taker w | controller => exact absurd (fun _ h => by cases h) hwaits

end Hands

/-- The context of a connection, and the events of both. -/
def record (s : RuntimeState n capacity) (client : Nat) :
    Option DbServerClientJob × List ConnectionEvent :=
  (s.clientJob client, (s.log.filter (·.1 = client)).map Prod.snd)

/-- The events of a connection that a worker handles, up to the close. -/
def handledFor (uses : Nat) : List ConnectionEvent :=
  [.accepted, .allocated, .handled] ++ List.replicate uses .used

/-- What has happened to a connection in these hands, or in nobody's. -/
inductive Story (client : Nat) :
    Option (Hand n) → Option DbServerClientJob × List ConnectionEvent → Prop where
  | unknown : Story client none (none, [])
  | accepted : Story client (some (.acceptor .accepted)) (none, [.accepted])
  | unallocated : Story client none (none, [.accepted, allocationFailed, .closed])
  | waiting {holder : Holder Unit n} (h : Waits holder) :
    Story client (some (.pool holder)) (some { clientFd := some client }, [.accepted, .allocated])
  | refused : Story client (some (.acceptor .refused))
      (some { clientFd := some client }, [.accepted, .allocated])
  | rejected {status : ConcurrencyJobQueueStatus} (h : status ≠ .ok) :
    Story client (some (.acceptor .rejected)) (some { clientFd := some client },
      [.accepted, .allocated, rejectClientWithStatus status, .closed])
  | disowned {status : ConcurrencyJobQueueStatus} (h : status ≠ .ok) :
    Story client (some (.acceptor .disowned)) (some { clientFd := none },
      [.accepted, .allocated, rejectClientWithStatus status, .closed])
  | turnedAway {status : ConcurrencyJobQueueStatus} (h : status ≠ .ok) :
    Story client none
      (none, [.accepted, .allocated, rejectClientWithStatus status, .closed, .notified .rejected,
        .freed])
  | entered (w : Fin n) : Story client (some (.callback w .entered))
      (some { clientFd := some client }, [.accepted, .allocated])
  | handling (w : Fin n) (uses : Nat) : Story client (some (.callback w .handling))
      (some { clientFd := none }, handledFor uses)
  | finished (w : Fin n) (uses : Nat) : Story client (some (.callback w .finished))
      (some { clientFd := none }, handledFor uses ++ [.closed])
  | served (uses : Nat) (runStatus : Int) : Story client none (none, handledFor uses ++
      [.closed, .notified (if runStatus = 0 then .ok else .failed), .freed])
  | cancelled : Story client none
      (none, [.accepted, .allocated, .notified .cancelled, .closed, .freed])

/-- The accepting thread is in try_submit exactly when the pool has its submission. -/
inductive Submits (context : Nat → Nat) : AcceptState → SubmitState → Prop where
  | accepting : Submits context .accepting .idle
  | accepted (client : Nat) : Submits context (.accepted client) .idle
  | submitting (job : ConcurrencyJob) :
    Submits context (.submitting (context job.id)) (.pushing job false)
  | refused (client : Nat) {status : ConcurrencyJobQueueStatus} (h : status ≠ .ok) :
    Submits context (.refused client status) .idle
  | rejected (client : Nat) : Submits context (.rejected client) .idle
  | disowned (client : Nat) : Submits context (.disowned client) .idle

/-- A callback works for the job that its worker runs. -/
inductive WorksFor (context : Nat → Nat) : Option (ConcurrencyJob × Bool) → CallbackState → Prop where
  | outside : WorksFor context none .outside
  | entered (job : ConcurrencyJob) :
    WorksFor context (some (job, true)) (.entered (context job.id))
  | handling (job : ConcurrencyJob) :
    WorksFor context (some (job, true)) (.handling (context job.id))
  | finished (job : ConcurrencyJob) (inside : Bool) :
    WorksFor context (some (job, inside)) (.finished (context job.id))

/-- What the points of the threads tell of each other. -/
structure Threads (s : RuntimeState n capacity) : Prop where
  accounts : ∃ place, Accounts s.pool place
  controlled : Controlled s.pool
  submits : Submits s.context s.acceptor (s.pool.submitter ())
  works : ∀ w, WorksFor s.context (callOf (s.pool.worker w)) (s.callback w)

/-- Every connection is in one hand at most, and its story fits the hand. -/
structure Owned (s : RuntimeState n capacity) (place : Nat → Option (Hand n)) : Prop where
  threads : Threads s
  ledger : Ledger Story (hands s) (record s) place
  fresh : ∀ client, s.nextClient ≤ client → place client = none ∧ record s client = (none, [])

section Records

variable {s : RuntimeState n capacity} {client other : Nat} {events : List ConnectionEvent}

theorem record_logged : record (s.logged client events) client =
    ((record s client).1, (record s client).2 ++ events) := by
  have hown : (events.map fun event => (client, event)).filter (·.1 = client) =
      events.map fun event => (client, event) := by
    apply List.filter_eq_self.mpr
    intro entry hentry
    obtain ⟨event, -, rfl⟩ := List.mem_map.mp hentry
    exact decide_eq_true rfl
  have hevents : (events.map fun event => (client, event)).map Prod.snd = events := by
    rw [List.map_map]
    exact List.map_id _
  simp only [record, RuntimeState.logged, List.filter_append, List.map_append, hown, hevents]

theorem record_logged_ne (h : other ≠ client) :
    record (s.logged client events) other = record s other := by
  have hnone : (events.map fun event => (client, event)).filter (·.1 = other) = [] := by
    apply List.filter_eq_nil_iff.mpr
    intro entry hentry
    obtain ⟨event, -, rfl⟩ := List.mem_map.mp hentry
    simpa using h.symm
  simp only [record, RuntimeState.logged, List.filter_append, hnone, List.append_nil]

theorem record_setClientJob (job : Option DbServerClientJob) :
    record (s.setClientJob client job) client = (job, (record s client).2) := by
  simp [record, RuntimeState.setClientJob]

theorem record_setClientJob_ne (job : Option DbServerClientJob) (h : other ≠ client) :
    record (s.setClientJob client job) other = record s other := by
  simp [record, RuntimeState.setClientJob, h]

theorem logged_setClientJob_logged (job : Option DbServerClientJob) (later : List ConnectionEvent) :
    ((s.logged client events).setClientJob client job).logged client later =
      (s.setClientJob client job).logged client (events ++ later) := by
  simp [RuntimeState.logged, RuntimeState.setClientJob]

theorem finish_disowned (result : ConcurrencyJobResult)
    (h : (record s client).1 = some { clientFd := none }) :
    s.concurrencyJobFinish client result =
      (s.setClientJob client none).logged client [.notified result, .freed] := by
  have hjob : s.clientJob client = some { clientFd := none } := h
  have hlogged : (s.logged client [.notified result]).clientJob client =
      some { clientFd := none } := hjob
  unfold RuntimeState.concurrencyJobFinish RuntimeState.notifyClientJob
  simp only [hjob]
  unfold RuntimeState.cleanupClientJob
  simp only [hlogged]
  exact logged_setClientJob_logged none [.freed]

theorem finish_owner {fd : Nat} (result : ConcurrencyJobResult)
    (h : (record s client).1 = some { clientFd := some fd }) :
    s.concurrencyJobFinish client result =
      (s.setClientJob client none).logged client [.notified result, .closed, .freed] := by
  have hjob : s.clientJob client = some { clientFd := some fd } := h
  have hlogged : (s.logged client [.notified result]).clientJob client =
      some { clientFd := some fd } := hjob
  unfold RuntimeState.concurrencyJobFinish RuntimeState.notifyClientJob
  simp only [hjob]
  unfold RuntimeState.cleanupClientJob
  simp only [hlogged]
  exact logged_setClientJob_logged none [.closed, .freed]

end Records

section Moves

variable {s s' : RuntimeState n capacity} {place : Nat → Option (Hand n)} {client : Nat}
  {source target : Option (Hand n)}

theorem Owned.move (h : Owned s place) (hthreads : Threads s')
    (hp : Passes client source target (hands s) (hands s')) (hplace : place client = source)
    (hothers : ∀ other, other ≠ client → record s' other = record s other)
    (hstory : Story client target (record s' client)) (hnext : s.nextClient ≤ s'.nextClient)
    (hclient : client < s'.nextClient) : ∃ place', Owned s' place' := by
  refine ⟨_, hthreads, h.ledger.move hp hplace hothers hstory, ?_⟩
  intro other hother
  have hne : other ≠ client := by omega
  rw [Function.update_of_ne hne, hothers other hne]
  exact h.fresh other (hnext.trans hother)

/-- A connection in somebody's hands is where the ledger says, and was accepted. -/
theorem Owned.held (h : Owned s place) {hand : Hand n} (hmem : client ∈ hands s hand) :
    place client = some hand ∧ Story client (some hand) (record s client) ∧
      client < s.nextClient := by
  obtain ⟨hplace, hstory⟩ := h.ledger.held hmem
  refine ⟨hplace, hstory, ?_⟩
  by_contra hlt
  have hnone := (h.fresh client (Nat.le_of_not_lt hlt)).1
  rw [hplace] at hnone
  cases hnone

theorem acceptor_held {accept : AcceptPlace} (h : acceptorHas s.acceptor = some (accept, client)) :
    client ∈ hands s (.acceptor accept) := by
  change client ∈ having (acceptorHas s.acceptor) accept
  rw [h, having_self]
  exact List.mem_singleton.mpr rfl

theorem callback_held {w : Fin n} {at_ : CallbackPlace}
    (h : callbackHas (s.callback w) = some (at_, client)) :
    client ∈ hands s (.callback w at_) := by
  change client ∈ having (callbackHas (s.callback w)) at_
  rw [h, having_self]
  exact List.mem_singleton.mpr rfl

theorem pool_held {holder : Holder Unit n} {j : Nat} (hw : Waits holder)
    (h : j ∈ holding s.pool holder) : s.context j ∈ hands s (.pool holder) := by
  change s.context j ∈ waiting s holder
  rw [waiting_of hw]
  exact List.mem_map_of_mem h

end Moves

section Acceptor

variable {s s' : RuntimeState n capacity} {place : Nat → Option (Hand n)} {client : Nat}

theorem Threads.of_eq (h : Threads s) (hpool : s'.pool = s.pool) (hcontext : s'.context = s.context)
    (hacceptor : s'.acceptor = s.acceptor) (hcallback : s'.callback = s.callback) :
    Threads s' := by
  obtain ⟨haccounts, hcontrolled, hsubmits, hworks⟩ := h
  constructor
  · rw [hpool]
    exact haccounts
  · rw [hpool]
    exact hcontrolled
  · rw [hpool, hcontext, hacceptor]
    exact hsubmits
  · rw [hpool, hcontext, hcallback]
    exact hworks

theorem Threads.idle (h : Threads s) (hat : ∀ client, s.acceptor ≠ .submitting client) :
    s.pool.submitter () = .idle := by
  obtain ⟨-, -, hsubmits, -⟩ := h
  generalize s.acceptor = accept at hat hsubmits
  generalize s.pool.submitter () = submit at hsubmits
  cases hsubmits with
  | submitting job => exact absurd rfl (hat _)
  | accepting | accepted | refused | rejected | disowned => rfl

theorem Threads.acceptor (h : Threads s) (hat : ∀ client, s.acceptor ≠ .submitting client)
    {state : AcceptState} (hstate : Submits s.context state .idle) :
    Threads (s.setAcceptor state) := by
  have hidle := h.idle hat
  refine ⟨h.accounts, h.controlled, ?_, h.works⟩
  change Submits s.context state (s.pool.submitter ())
  rw [hidle]
  exact hstate

theorem Owned.accept (h : Owned s place) (at_ : s.acceptor = .accepting) :
    ∃ place', Owned { (s.setAcceptor (.accepted s.nextClient)).logged s.nextClient [.accepted] with
      nextClient := s.nextClient + 1 } place' := by
  obtain ⟨hplace, hrecord⟩ := h.fresh s.nextClient (Nat.le_refl _)
  have hin : Passes s.nextClient none (some (.acceptor .accepted)) (hands s)
      (hands (s.setAcceptor (.accepted s.nextClient))) := acceptor_in (by rw [at_]; rfl) rfl
  have hthreads : Threads (s.setAcceptor (.accepted s.nextClient)) :=
    h.threads.acceptor (fun c hc => by rw [at_] at hc; cases hc) (.accepted _)
  have hhands := hands_logged (s := s.setAcceptor (.accepted s.nextClient)) s.nextClient [.accepted]
  rw [← hhands] at hin
  have hsame : record (s.setAcceptor (.accepted s.nextClient)) s.nextClient = (none, []) := hrecord
  have hlogged : record ((s.setAcceptor (.accepted s.nextClient)).logged s.nextClient [.accepted])
      s.nextClient = (none, [.accepted]) := by
    rw [record_logged, hsame]
    rfl
  refine h.move (hthreads.of_eq rfl rfl rfl rfl) hin hplace ?_ ?_ (Nat.le_succ _)
    (Nat.lt_succ_self _)
  · intro other hother
    have hkept : record ((s.setAcceptor (.accepted s.nextClient)).logged s.nextClient [.accepted])
        other = record s other := record_logged_ne hother
    exact hkept
  · change Story s.nextClient _ (record ((s.setAcceptor (.accepted s.nextClient)).logged
      s.nextClient [.accepted]) s.nextClient)
    rw [hlogged]
    exact .accepted

theorem Owned.allocationFails (h : Owned s place) (at_ : s.acceptor = .accepted client) :
    ∃ place', Owned ((s.setAcceptor .accepting).logged client [allocationFailed, .closed])
      place' := by
  have hhas : acceptorHas s.acceptor = some (.accepted, client) := by
    rw [at_]
    rfl
  obtain ⟨hplace, hstory, hclient⟩ := h.held (acceptor_held hhas)
  have hout : Passes client (some (.acceptor .accepted)) none (hands s)
      (hands (s.setAcceptor .accepting)) := acceptor_out hhas rfl
  have hthreads : Threads (s.setAcceptor .accepting) :=
    h.threads.acceptor (fun c hc => by rw [at_] at hc; cases hc) .accepting
  rw [← hands_logged client [allocationFailed, .closed]] at hout
  refine h.move (hthreads.of_eq rfl rfl rfl rfl) hout hplace ?_ ?_ (Nat.le_refl _) hclient
  · intro other hother
    exact record_logged_ne hother
  · rw [record_logged]
    change Story client none ((record s client).1, (record s client).2 ++ _)
    generalize record s client = r at hstory
    cases hstory
    exact .unallocated

theorem Owned.reject (h : Owned s place) {status : ConcurrencyJobQueueStatus}
    (at_ : s.acceptor = .refused client status) :
    ∃ place', Owned ((s.setAcceptor (.rejected client)).logged client
      [rejectClientWithStatus status, .closed]) place' := by
  have hhas : acceptorHas s.acceptor = some (.refused, client) := by
    rw [at_]
    rfl
  have hstatus : status ≠ .ok := by
    have hsubmits := h.threads.submits
    rw [at_] at hsubmits
    generalize s.pool.submitter () = submit at hsubmits
    cases hsubmits with
    | refused _ hstatus => exact hstatus
  obtain ⟨hplace, hstory, hclient⟩ := h.held (acceptor_held hhas)
  have hon : Passes client (some (.acceptor .refused)) (some (.acceptor .rejected)) (hands s)
      (hands (s.setAcceptor (.rejected client))) :=
    acceptor_on hhas rfl (fun heq => by cases heq)
  have hthreads : Threads (s.setAcceptor (.rejected client)) :=
    h.threads.acceptor (fun c hc => by rw [at_] at hc; cases hc) (.rejected _)
  rw [← hands_logged client [rejectClientWithStatus status, .closed]] at hon
  refine h.move (hthreads.of_eq rfl rfl rfl rfl) hon hplace ?_ ?_ (Nat.le_refl _) hclient
  · intro other hother
    exact record_logged_ne hother
  · rw [record_logged]
    change Story client _ ((record s client).1, (record s client).2 ++ _)
    generalize record s client = r at hstory
    cases hstory
    exact .rejected hstatus

theorem Owned.disown (h : Owned s place) (at_ : s.acceptor = .rejected client) :
    ∃ place', Owned ((s.setClientJob client
      ((s.clientJob client).map fun _ => { clientFd := none })).setAcceptor (.disowned client))
      place' := by
  have hhas : acceptorHas s.acceptor = some (.rejected, client) := by
    rw [at_]
    rfl
  obtain ⟨hplace, hstory, hclient⟩ := h.held (acceptor_held hhas)
  have hon : Passes client (some (.acceptor .rejected)) (some (.acceptor .disowned)) (hands s)
      (hands (s.setAcceptor (.disowned client))) :=
    acceptor_on hhas rfl (fun heq => by cases heq)
  have hthreads : Threads (s.setAcceptor (.disowned client)) :=
    h.threads.acceptor (fun c hc => by rw [at_] at hc; cases hc) (.disowned _)
  rw [← hands_setClientJob client
    ((s.clientJob client).map fun _ => { clientFd := none })] at hon
  refine h.move (hthreads.of_eq rfl rfl rfl rfl) hon hplace ?_ ?_ (Nat.le_refl _) hclient
  · intro other hother
    exact record_setClientJob_ne (s := s) _ hother
  · change Story client _ (record (s.setClientJob client _) client)
    rw [record_setClientJob]
    change Story client _ ((record s client).1.map _, (record s client).2)
    generalize record s client = r at hstory
    cases hstory with
    | rejected hstatus => exact .disowned hstatus

theorem Owned.finishRejected (h : Owned s place) (at_ : s.acceptor = .disowned client) :
    ∃ place', Owned ((s.concurrencyJobFinish client .rejected).setAcceptor .accepting) place' := by
  have hhas : acceptorHas s.acceptor = some (.disowned, client) := by
    rw [at_]
    rfl
  obtain ⟨hplace, hstory, hclient⟩ := h.held (acceptor_held hhas)
  have hjob : (record s client).1 = some { clientFd := none } := by
    generalize record s client = r at hstory
    cases hstory
    rfl
  have hout : Passes client (some (.acceptor .disowned)) none (hands s)
      (hands (s.setAcceptor .accepting)) := acceptor_out hhas rfl
  have hthreads : Threads (s.setAcceptor .accepting) :=
    h.threads.acceptor (fun c hc => by rw [at_] at hc; cases hc) .accepting
  rw [finish_disowned _ hjob]
  have hhands : Passes client (some (.acceptor .disowned)) none (hands s)
      (hands (((s.setClientJob client none).logged client [.notified .rejected,
        .freed]).setAcceptor .accepting)) := hout
  refine h.move (hthreads.of_eq rfl rfl rfl rfl) hhands hplace ?_ ?_ (Nat.le_refl _) hclient
  · intro other hother
    change record ((s.setClientJob client none).logged client [.notified .rejected, .freed]) other =
      record s other
    rw [record_logged_ne hother, record_setClientJob_ne _ hother]
  · change Story client none (record ((s.setClientJob client none).logged client
      [.notified .rejected, .freed]) client)
    rw [record_logged, record_setClientJob]
    generalize record s client = r at hstory
    cases hstory with
    | disowned hstatus => exact .turnedAway hstatus

end Acceptor

section Callback

variable {s s' : RuntimeState n capacity} {place : Nat → Option (Hand n)} {client : Nat} {w : Fin n}

theorem Threads.callback (h : Threads s) {state : CallbackState}
    (hstate : WorksFor s.context (callOf (s.pool.worker w)) state) :
    Threads (s.setCallback w state) := by
  refine ⟨h.accounts, h.controlled, h.submits, ?_⟩
  intro u
  change WorksFor s.context (callOf (s.pool.worker u)) (Function.update s.callback w state u)
  by_cases hu : u = w
  · subst hu
    rw [Function.update_self]
    exact hstate
  · rw [Function.update_of_ne hu]
    exact h.works u

theorem WorksFor.handle {context : Nat → Nat} {call : Option (ConcurrencyJob × Bool)}
    (h : WorksFor context call (.entered client)) : WorksFor context call (.handling client) := by
  cases h with
  | entered job => exact .handling job

theorem WorksFor.finish {context : Nat → Nat} {call : Option (ConcurrencyJob × Bool)}
    (h : WorksFor context call (.handling client)) : WorksFor context call (.finished client) := by
  cases h with
  | handling job => exact .finished job true

/-- The callback finds the descriptor in the context, and takes it. -/
theorem Owned.enter (h : Owned s place) (at_ : s.callback w = .entered client) :
    ∃ place', Owned (s.runClientJob w client) place' := by
  have hhas : callbackHas (s.callback w) = some (.entered, client) := by
    rw [at_]
    rfl
  obtain ⟨hplace, hstory, hclient⟩ := h.held (callback_held hhas)
  have hjob : s.clientJob client = some { clientFd := some client } := by
    have hfirst : (record s client).1 = some { clientFd := some client } := by
      generalize record s client = r at hstory
      cases hstory
      rfl
    exact hfirst
  have hrun : s.runClientJob w client = ((s.setClientJob client
      (some { clientFd := none })).logged client [.handled]).setCallback w (.handling client) := by
    unfold RuntimeState.runClientJob
    rw [hjob]
  have hon : Passes client (some (.callback w .entered)) (some (.callback w .handling)) (hands s)
      (hands (s.setCallback w (.handling client))) :=
    callback_on hhas rfl (fun heq => by cases heq)
  have hthreads : Threads (s.setCallback w (.handling client)) :=
    h.threads.callback (at_ ▸ h.threads.works w).handle
  rw [hrun]
  have hhands : Passes client (some (.callback w .entered)) (some (.callback w .handling)) (hands s)
      (hands (((s.setClientJob client (some { clientFd := none })).logged client
        [.handled]).setCallback w (.handling client))) := hon
  refine h.move (hthreads.of_eq rfl rfl rfl rfl) hhands hplace ?_ ?_ (Nat.le_refl _) hclient
  · intro other hother
    change record ((s.setClientJob client _).logged client [.handled]) other = record s other
    rw [record_logged_ne hother, record_setClientJob_ne _ hother]
  · change Story client _ (record ((s.setClientJob client _).logged client [.handled]) client)
    rw [record_logged, record_setClientJob]
    generalize record s client = r at hstory
    cases hstory
    exact .handling w 0

theorem handledFor_succ (uses : Nat) : handledFor uses ++ [.used] = handledFor (uses + 1) := by
  rw [handledFor, List.append_assoc, ← List.replicate_succ']
  rfl

theorem Owned.use (h : Owned s place) (at_ : s.callback w = .handling client) :
    ∃ place', Owned (s.logged client [.used]) place' := by
  have hhas : callbackHas (s.callback w) = some (.handling, client) := by
    rw [at_]
    rfl
  obtain ⟨hplace, hstory, hclient⟩ := h.held (callback_held hhas)
  refine ⟨place, h.threads.of_eq rfl rfl rfl rfl, ?_, ?_⟩
  · rw [hands_logged]
    refine h.ledger.note (j := client) (fun other hother => record_logged_ne hother) ?_
    rw [hplace, record_logged]
    generalize record s client = r at hstory
    cases hstory with
    | handling _ uses =>
      rw [handledFor_succ]
      exact .handling w (uses + 1)
  · intro other hother
    have hne : other ≠ client := by
      have hle : s.nextClient ≤ other := hother
      omega
    rw [record_logged_ne hne]
    exact h.fresh other hother

theorem Owned.close (h : Owned s place) (at_ : s.callback w = .handling client) :
    ∃ place', Owned ((s.logged client [.closed]).setCallback w (.finished client)) place' := by
  have hhas : callbackHas (s.callback w) = some (.handling, client) := by
    rw [at_]
    rfl
  obtain ⟨hplace, hstory, hclient⟩ := h.held (callback_held hhas)
  have hon : Passes client (some (.callback w .handling)) (some (.callback w .finished)) (hands s)
      (hands (s.setCallback w (.finished client))) :=
    callback_on hhas rfl (fun heq => by cases heq)
  have hthreads : Threads (s.setCallback w (.finished client)) :=
    h.threads.callback (at_ ▸ h.threads.works w).finish
  have hhands : Passes client (some (.callback w .handling)) (some (.callback w .finished)) (hands s)
      (hands ((s.logged client [.closed]).setCallback w (.finished client))) := hon
  refine h.move (hthreads.of_eq rfl rfl rfl rfl) hhands hplace ?_ ?_ (Nat.le_refl _) hclient
  · intro other hother
    exact record_logged_ne (s := s) hother
  · change Story client _ (record (s.logged client [.closed]) client)
    rw [record_logged]
    generalize record s client = r at hstory
    cases hstory with
    | handling _ uses => exact .finished w uses

end Callback

section Pool

variable {s s' : RuntimeState n capacity} {place : Nat → Option (Hand n)} {client : Nat} {w : Fin n}
  {pool : ConcurrencyThreadPool Unit n capacity} {event : PoolEvent Unit n} {job : ConcurrencyJob}

/-- A step of the pool, and of the threads that follow it. -/
theorem Threads.step (h : Threads s) (hn : 0 < n) (step : PoolStep s.pool event pool)
    (hpool : s'.pool = pool) (hsubmits : Submits s'.context s'.acceptor (pool.submitter ()))
    (hworks : ∀ w, WorksFor s'.context (callOf (pool.worker w)) (s'.callback w)) : Threads s' := by
  obtain ⟨⟨holder, haccounts⟩, hcontrolled, -, -⟩ := h
  subst hpool
  exact ⟨haccounts.step step, hcontrolled.step hn step, hsubmits, hworks⟩

theorem waits_taker (w : Fin n) : Waits (.taker w) := fun _ h => by cases h

theorem waits_queue : Waits (n := n) .queue := fun _ h => by cases h

theorem waits_controller : Waits (n := n) .controller := fun _ h => by cases h

theorem waits_submitter : Waits (n := n) (.submitter ()) := fun _ h => by cases h

/-- What a worker does to its own callback shows in no other hand of the pool. -/
theorem holding_setWorker_waits (p : ConcurrencyThreadPool Unit n capacity) (state : WorkerState)
    {other : Holder Unit n} (h : Waits other) :
    holding (p.setWorker w state) other =
      Function.update (holding p) (.taker w) (taken state) other := by
  rw [holding_setWorker, Function.update_of_ne (h w)]

theorem works_setWorker {state : WorkerState} {callback : CallbackState}
    (h : ∀ u, WorksFor s.context (callOf (s.pool.worker u)) (s.callback u))
    (hown : WorksFor s.context (callOf state) callback) (u : Fin n) :
    WorksFor s.context (callOf ((s.pool.setWorker w state).worker u))
      (Function.update s.callback w callback u) := by
  change WorksFor s.context (callOf (Function.update s.pool.worker w state u)) _
  by_cases hu : u = w
  · subst hu
    rw [Function.update_self, Function.update_self]
    exact hown
  · rw [Function.update_of_ne hu, Function.update_of_ne hu]
    exact h u

theorem Owned.run (h : Owned s place) (hn : 0 < n) (at_ : s.pool.worker w = .locked job)
    (step : PoolStep s.pool (.run w) pool) :
    ∃ place', Owned ((s.setPool pool).setCallback w (.entered (s.context job.id))) place' := by
  have hpool : pool = (s.pool.setWorker w (.running job)).logged (.ran job.id w) := by
    cases step with
    | run own =>
      injection at_.symm.trans own with heq
      rw [heq]
  have hholds : holding s.pool (.taker w) = [job.id] := congrArg taken at_
  have hoff : s.callback w = .outside := by
    have hworks := h.threads.works w
    rw [at_] at hworks
    generalize s.callback w = state at hworks
    cases hworks
    rfl
  obtain ⟨hplace, hstory, hclient⟩ := h.held
    (pool_held (waits_taker w) (hholds ▸ List.mem_singleton.mpr rfl))
  have hout : Passes (s.context job.id) (some (.pool (.taker w))) none (hands s)
      (hands (s.setPool pool)) := by
    refine passes_pool (passes_out hholds) ?_ ?_ ?_
    · intro other hother
      rw [hpool, holding_logged, holding_setWorker_waits _ _ hother]
      rfl
    · rintro _ ⟨⟩
      exact waits_taker w
    · intro holder hholder
      cases hholder
  have hin : Passes (s.context job.id) none (some (.callback w .entered)) (hands (s.setPool pool))
      (hands ((s.setPool pool).setCallback w (.entered (s.context job.id)))) :=
    callback_in (congrArg callbackHas hoff) rfl
  have hthreads : Threads ((s.setPool pool).setCallback w (.entered (s.context job.id))) := by
    refine h.threads.step hn step rfl ?_ ?_
    · rw [hpool]
      exact h.threads.submits
    · rw [hpool]
      exact works_setWorker h.threads.works (.entered job)
  refine h.move hthreads (hout.through hin ?_) hplace (fun _ _ => rfl) ?_ (Nat.le_refl _) hclient
  · intro hand hhand htarget
    cases hhand
    cases htarget
  · change Story _ _ (record s (s.context job.id))
    generalize record s (s.context job.id) = r at hstory
    cases hstory
    exact .entered w

theorem Owned.runReturns (h : Owned s place) (hn : 0 < n) (at_ : s.callback w = .finished client)
    (step : PoolStep s.pool (.runReturns w) pool) : ∃ place', Owned (s.setPool pool) place' := by
  cases step with
  | @runReturns _ job runStatus own call held =>
    have hhands : hands (s.setPool (s.pool.setWorker w (.returned job runStatus))) = hands s := by
      apply hands_setPool
      intro other hother
      have htaker : Function.update (holding s.pool) (.taker w) [] = holding s.pool :=
        Function.update_eq_self_iff.mpr (congrArg taken own).symm
      rw [holding_setWorker_waits _ _ hother]
      exact congrFun htaker other
    have hworks := h.threads.works w
    rw [own, at_] at hworks
    have hown : WorksFor s.context (callOf (.returned job runStatus)) (.finished client) := by
      cases hworks
      exact .finished job false
    have hall := works_setWorker (w := w) h.threads.works hown
    rw [← at_, Function.update_eq_self] at hall
    refine ⟨place, h.threads.step hn (.runReturns own call held) rfl h.threads.submits hall, ?_,
      h.fresh⟩
    rw [hhands]
    exact h.ledger

theorem Owned.finish (h : Owned s place) (hn : 0 < n) {runStatus : Int}
    (at_ : s.pool.worker w = .released job runStatus) (step : PoolStep s.pool (.finish w) pool) :
    ∃ place', Owned (((s.setPool pool).concurrencyJobFinish (s.context job.id)
      (if runStatus = 0 then .ok else .failed)).setCallback w .outside) place' := by
  have hpool : pool = (s.pool.setWorker w .popping).logged
      (.finished job.id (if runStatus = 0 then .ok else .failed) w runStatus) := by
    cases step with
    | finish own =>
      injection at_.symm.trans own with hjob hstatus
      rw [hjob, hstatus]
  have hcallback : s.callback w = .finished (s.context job.id) := by
    have hworks := h.threads.works w
    rw [at_] at hworks
    generalize s.callback w = state at hworks
    cases hworks
    rfl
  have hhas : callbackHas (s.callback w) = some (.finished, s.context job.id) := by
    rw [hcallback]
    rfl
  obtain ⟨hplace, hstory, hclient⟩ := h.held (callback_held hhas)
  have hjob : (record (s.setPool pool) (s.context job.id)).1 = some { clientFd := none } := by
    change (record s (s.context job.id)).1 = _
    generalize record s (s.context job.id) = r at hstory
    cases hstory
    rfl
  have hsame : hands (s.setPool pool) = hands s := by
    apply hands_setPool
    intro other hother
    have htaker : Function.update (holding s.pool) (.taker w) [] = holding s.pool :=
      Function.update_eq_self_iff.mpr (congrArg taken at_).symm
    rw [hpool, holding_logged, holding_setWorker_waits _ _ hother]
    exact congrFun htaker other
  have hout : Passes (s.context job.id) (some (.callback w .finished)) none
      (hands (s.setPool pool)) (hands ((s.setPool pool).setCallback w .outside)) :=
    callback_out hhas rfl
  rw [hsame] at hout
  have hthreads : Threads ((s.setPool pool).setCallback w .outside) := by
    refine h.threads.step hn step rfl ?_ ?_
    · rw [hpool]
      exact h.threads.submits
    · rw [hpool]
      exact works_setWorker h.threads.works .outside
  rw [finish_disowned _ hjob]
  have hhands : Passes (s.context job.id) (some (.callback w .finished)) none (hands s)
      (hands ((((s.setPool pool).setClientJob (s.context job.id) none).logged (s.context job.id)
        [.notified (if runStatus = 0 then .ok else .failed), .freed]).setCallback w .outside)) := hout
  refine h.move (hthreads.of_eq rfl rfl rfl rfl) hhands hplace ?_ ?_ (Nat.le_refl _) hclient
  · intro other hother
    change record ((s.setClientJob _ none).logged _ [_, .freed]) other = record s other
    rw [record_logged_ne hother, record_setClientJob_ne _ hother]
  · change Story _ none (record ((s.setClientJob _ none).logged _ [_, .freed]) _)
    rw [record_logged, record_setClientJob]
    generalize record s (s.context job.id) = r at hstory
    cases hstory with
    | finished _ uses =>
      rw [List.append_assoc]
      exact .served uses runStatus

theorem Owned.cancelFinish (h : Owned s place) (hn : 0 < n) {phase : Phase}
    (at_ : s.pool.controller = .holding job phase) (step : PoolStep s.pool .cancelFinish pool) :
    ∃ place', Owned ((s.setPool pool).concurrencyJobFinish (s.context job.id) .cancelled) place' := by
  have hpool : pool = (s.pool.setController (.cancelling phase)).logged
      (.finished job.id .cancelled (-1) 0) := by
    cases step with
    | cancelFinish own =>
      injection at_.symm.trans own with hjob hphase
      rw [hjob, hphase]
  have hholds : holding s.pool .controller = [job.id] := congrArg cancelling at_
  obtain ⟨hplace, hstory, hclient⟩ := h.held
    (pool_held waits_controller (hholds ▸ List.mem_singleton.mpr rfl))
  have hjob : (record (s.setPool pool) (s.context job.id)).1 =
      some { clientFd := some (s.context job.id) } := by
    change (record s (s.context job.id)).1 = _
    generalize record s (s.context job.id) = r at hstory
    cases hstory
    rfl
  have hout : Passes (s.context job.id) (some (.pool .controller)) none (hands s)
      (hands (s.setPool pool)) := by
    refine passes_pool (passes_out hholds) ?_ ?_ ?_
    · intro other hother
      rw [hpool, holding_logged, holding_setController]
      rfl
    · rintro _ ⟨⟩
      exact waits_controller
    · intro holder hholder
      cases hholder
  have hthreads : Threads (s.setPool pool) := by
    refine h.threads.step hn step rfl ?_ ?_
    · rw [hpool]
      exact h.threads.submits
    · rw [hpool]
      exact h.threads.works
  rw [finish_owner _ hjob]
  have hhands : Passes (s.context job.id) (some (.pool .controller)) none (hands s)
      (hands (((s.setPool pool).setClientJob (s.context job.id) none).logged (s.context job.id)
        [.notified .cancelled, .closed, .freed])) := by
    rw [hands_logged, hands_setClientJob]
    exact hout
  refine h.move (hthreads.of_eq rfl rfl rfl rfl) hhands hplace ?_ ?_ (Nat.le_refl _) hclient
  · intro other hother
    rw [record_logged_ne hother, record_setClientJob_ne _ hother]
    rfl
  · rw [record_logged, record_setClientJob]
    change Story _ none (none, (record s _).2 ++ _)
    generalize record s (s.context job.id) = r at hstory
    cases hstory
    exact .cancelled

/-- The jobs that are held are older than the next one. -/
theorem Threads.older (h : Threads s) {holder : Holder Unit n} {j : Nat}
    (hj : j ∈ holding s.pool holder) : j ≠ s.pool.nextId := by
  obtain ⟨_, haccounts⟩ := h.accounts
  exact Nat.ne_of_lt (haccounts.held hj).2.2

theorem mem_run_callOf {state : WorkerState} {inside : Bool} (h : callOf state = some (job, inside)) :
    job.id ∈ run state := by
  cases state with
  | running own | returned own _ | released own _ =>
    cases h
    exact List.mem_singleton.mpr rfl
  | popping | asleep | taken _ | locking _ | locked _ | exited => cases h

theorem WorksFor.context {context context' : Nat → Nat} {call : Option (ConcurrencyJob × Bool)}
    {callback : CallbackState} (h : WorksFor context call callback)
    (hsame : ∀ job inside, call = some (job, inside) → context' job.id = context job.id) :
    WorksFor context' call callback := by
  cases h with
  | outside => exact .outside
  | entered job =>
    rw [← hsame job true rfl]
    exact .entered job
  | handling job =>
    rw [← hsame job true rfl]
    exact .handling job
  | finished job inside =>
    rw [← hsame job inside rfl]
    exact .finished job inside

/-- The job of the next submission gets the new context, and no other job. -/
theorem Threads.works_context (h : Threads s) (client : Nat) (w : Fin n) :
    WorksFor (Function.update s.context s.pool.nextId client) (callOf (s.pool.worker w))
      (s.callback w) := by
  refine (h.works w).context ?_
  intro job inside hcall
  have hheld : job.id ∈ holding s.pool (.runner w) := mem_run_callOf hcall
  exact Function.update_of_ne (h.older hheld) ..

theorem Threads.hands_context (h : Threads s) (client : Nat) :
    hands { s with context := Function.update s.context s.pool.nextId client } = hands s := by
  apply ConnectionOwnership.hands_context
  intro holder j hj
  exact Function.update_of_ne (h.older hj) ..

theorem submit_open (hopen : (s.pool.ready && s.pool.acceptingJobs) = true) :
    s.pool.submit () false .none true =
      { s.pool.setSubmitter () (.pushing { id := s.pool.nextId, lockMode := .none, hasRun := true }
          false) with nextId := s.pool.nextId + 1 } := by
  unfold ConcurrencyThreadPool.submit
  dsimp only
  rw [hopen]
  rfl

theorem submit_shut (hshut : (s.pool.ready && s.pool.acceptingJobs) = false) :
    s.pool.submit () false .none true =
      { s.pool.logged (.submitted s.pool.nextId .closed) with nextId := s.pool.nextId + 1 } := by
  unfold ConcurrencyThreadPool.submit
  dsimp only
  rw [hshut]
  rfl

/-- The connection goes to the pool when the accepting check lets its job pass. -/
theorem Threads.hands_submit_open (h : Threads s) (at_ : s.acceptor = .accepted client)
    (hopen : (s.pool.ready && s.pool.acceptingJobs) = true)
    (hacceptor : (s.submit client).acceptor = .submitting client) :
    Passes client (some (.acceptor .accepted)) (some (.pool (.submitter ()))) (hands s)
      (hands (s.submit client)) := by
  have hidle : s.pool.submitter () = .idle :=
    h.idle fun other hother => by rw [at_] at hother; cases hother
  let named : RuntimeState n capacity :=
    { s with context := Function.update s.context s.pool.nextId client }
  have hnamed : hands named = hands s := h.hands_context client
  have hout : Passes client (some (.acceptor .accepted)) none (hands named)
      (hands (named.setAcceptor (.submitting client))) :=
    acceptor_out (congrArg acceptorHas at_) rfl
  have hin : Passes ((named.setAcceptor (.submitting client)).context s.pool.nextId) none
      (some (.pool (.submitter ()))) (hands (named.setAcceptor (.submitting client)))
      (hands ((named.setAcceptor (.submitting client)).setPool
        (s.pool.submit () false .none true))) := by
    refine passes_pool (s := named.setAcceptor (.submitting client))
      (passes_in s.pool.nextId (Holder.submitter ()) (holding s.pool)) ?_ ?_ ?_
    · intro other _
      have hnone : holding s.pool (.submitter ()) = [] := congrArg submitting hidle
      rw [submit_open hopen, hnone]
      exact congrFun (holding_setSubmitter s.pool () _) other
    · intro holder hholder
      cases hholder
    · rintro _ ⟨⟩
      exact waits_submitter
  have hcontext : (named.setAcceptor (.submitting client)).context s.pool.nextId = client :=
    Function.update_self ..
  have hsubmit : hands (s.submit client) = hands ((named.setAcceptor (.submitting client)).setPool
      (s.pool.submit () false .none true)) := hands_of_eq rfl rfl hacceptor rfl
  rw [hcontext] at hin
  rw [hsubmit, ← hnamed]
  refine hout.through hin ?_
  intro hand hhand htarget
  cases hhand
  cases htarget

theorem Threads.hands_submit_shut (h : Threads s) (at_ : s.acceptor = .accepted client)
    (hshut : (s.pool.ready && s.pool.acceptingJobs) = false)
    (hacceptor : (s.submit client).acceptor = .refused client .closed) :
    Passes client (some (.acceptor .accepted)) (some (.acceptor .refused)) (hands s)
      (hands (s.submit client)) := by
  let named : RuntimeState n capacity :=
    { s with context := Function.update s.context s.pool.nextId client }
  have hnamed : hands named = hands s := h.hands_context client
  have hon : Passes client (some (.acceptor .accepted)) (some (.acceptor .refused)) (hands named)
      (hands (named.setAcceptor (.refused client .closed))) :=
    acceptor_on (congrArg acceptorHas at_) rfl (fun heq => by cases heq)
  have hsame : hands ((named.setAcceptor (.refused client .closed)).setPool
      (s.pool.submit () false .none true)) = hands (named.setAcceptor (.refused client .closed)) := by
    apply hands_setPool
    intro other _
    rw [submit_shut hshut]
    exact congrFun (holding_logged s.pool (.submitted s.pool.nextId .closed)) other
  have hsubmit : hands (s.submit client) = hands ((named.setAcceptor (.refused client
      .closed)).setPool (s.pool.submit () false .none true)) := hands_of_eq rfl rfl hacceptor rfl
  rw [hsubmit, hsame, ← hnamed]
  exact hon

theorem Owned.submit (h : Owned s place) (hn : 0 < n) (at_ : s.acceptor = .accepted client)
    (alone : ¬ s.pool.Destroying) : ∃ place', Owned (s.submit client) place' := by
  have hhas : acceptorHas s.acceptor = some (.accepted, client) := congrArg acceptorHas at_
  obtain ⟨hplace, hstory, hclient⟩ := h.held (acceptor_held hhas)
  have hidle : s.pool.submitter () = .idle :=
    h.threads.idle fun other hother => by rw [at_] at hother; cases hother
  have hstep : PoolStep s.pool (.submit ()) (s.pool.submit () false .none true) :=
    .submit hidle alone
  have hothers : ∀ other, other ≠ client → record (s.submit client) other = record s other := by
    intro other hother
    change record ((s.setClientJob client _).logged client [.allocated]) other = record s other
    rw [record_logged_ne hother, record_setClientJob_ne _ hother]
  have hrecord : record (s.submit client) client =
      (some { clientFd := some client }, [.accepted, .allocated]) := by
    change record ((s.setClientJob client _).logged client [.allocated]) client = _
    rw [record_logged, record_setClientJob]
    generalize record s client = r at hstory
    cases hstory
    rfl
  have hcontext : (s.submit client).context s.pool.nextId = client := Function.update_self ..
  have hacceptor : (s.submit client).acceptor = if s.pool.ready && s.pool.acceptingJobs then
      .submitting client else .refused client .closed := rfl
  cases hopen : s.pool.ready && s.pool.acceptingJobs with
  | true =>
    rw [if_pos hopen] at hacceptor
    have hthreads : Threads (s.submit client) := by
      refine h.threads.step hn hstep rfl ?_ ?_
      · let job : ConcurrencyJob := { id := s.pool.nextId, lockMode := .none, hasRun := true }
        have hsubmits : Submits (s.submit client).context
            (.submitting ((s.submit client).context s.pool.nextId)) (.pushing job false) :=
          .submitting job
        rw [hcontext] at hsubmits
        rw [hacceptor, submit_open hopen]
        exact hsubmits
      · rw [submit_open hopen]
        exact h.threads.works_context client
    refine h.move hthreads (h.threads.hands_submit_open at_ hopen hacceptor) hplace hothers ?_
      (Nat.le_refl _) hclient
    rw [hrecord]
    exact .waiting waits_submitter
  | false =>
    rw [hopen] at hacceptor
    have hthreads : Threads (s.submit client) := by
      refine h.threads.step hn hstep rfl ?_ ?_
      · rw [hacceptor, submit_shut hopen]
        change Submits _ _ (s.pool.submitter ())
        rw [hidle]
        exact .refused client (fun heq => by cases heq)
      · rw [submit_shut hopen]
        exact h.threads.works_context client
    refine h.move hthreads (h.threads.hands_submit_shut at_ hopen hacceptor) hplace hothers ?_
      (Nat.le_refl _) hclient
    rw [hrecord]
    exact .refused

theorem Threads.submission (h : Threads s) (at_ : s.acceptor = .submitting client) :
    ∃ job, s.pool.submitter () = .pushing job false ∧ s.context job.id = client := by
  have hsubmits := h.submits
  generalize s.pool.submitter () = submit at hsubmits
  rw [at_] at hsubmits
  cases hsubmits with
  | submitting job => exact ⟨job, rfl, rfl⟩

/-- try_submit takes the connection into the queue, or gives it back with another answer
than OK. -/
theorem push_outcome {number : Nat} {status : ConcurrencyJobQueueStatus}
    (call : s.pool.submitter () = .pushing job false) (step : PoolStep s.pool (.push ()) pool)
    (answer : pool.log = s.pool.log ++ [.submitted number status]) :
    (status ≠ .ok ∧ pool = (s.pool.setSubmitter () .idle).logged (.submitted job.id status)) ∨
      (status = .ok ∧ ∃ queue woken, queue.jobs = s.pool.queue.jobs ++ [job] ∧
        pool = (((s.pool.setSubmitter () .idle).setQueue queue).wakeWorkers woken).logged
          (.submitted job.id .ok)) := by
  cases step with
  | pushRefused own push =>
    injection call.symm.trans own with hjob hblocking
    subst hjob hblocking
    injection List.singleton_inj.mp (List.append_cancel_left answer) with _ hstatus
    subst hstatus
    exact .inl ⟨ConcurrencyJobQueue.tryPush_refuse push, rfl⟩
  | pushWaits own push =>
    injection call.symm.trans own with hjob hblocking
    subst hblocking
    exact absurd push ConcurrencyJobQueue.tryPush_no_wait
  | @pushAccepted _ _ _ queue woken own push _ =>
    injection call.symm.trans own with hjob hblocking
    subst hjob hblocking
    injection List.singleton_inj.mp (List.append_cancel_left answer) with _ hstatus
    exact .inr ⟨hstatus.symm, queue, woken, (ConcurrencyJobQueue.tryPush_accept push).2.2, rfl⟩

theorem Owned.push (h : Owned s place) (hn : 0 < n) {number : Nat}
    {status : ConcurrencyJobQueueStatus} (at_ : s.acceptor = .submitting client)
    (step : PoolStep s.pool (.push ()) pool)
    (answer : pool.log = s.pool.log ++ [.submitted number status]) :
    ∃ place', Owned ((s.setPool pool).setAcceptor
      (if status = .ok then .accepting else .refused client status)) place' := by
  obtain ⟨job, call, rfl⟩ := h.threads.submission at_
  have hholds : holding s.pool (.submitter ()) = [job.id] := congrArg submitting call
  obtain ⟨hplace, hstory, hclient⟩ := h.held
    (pool_held waits_submitter (hholds ▸ List.mem_singleton.mpr rfl))
  have hnone : acceptorHas s.acceptor = none := congrArg acceptorHas at_
  have hwaits : record s (s.context job.id) =
      (some { clientFd := some (s.context job.id) }, [.accepted, .allocated]) := by
    generalize record s (s.context job.id) = r at hstory
    cases hstory
    rfl
  rcases push_outcome call step answer with ⟨hstatus, hpool⟩ | ⟨rfl, queue, woken, hjobs, hpool⟩
  · rw [if_neg hstatus]
    have hout : Passes (s.context job.id) (some (.pool (.submitter ()))) none (hands s)
        (hands (s.setPool pool)) := by
      refine passes_pool (passes_out hholds) ?_ ?_ ?_
      · intro other _
        rw [hpool, holding_logged, holding_setSubmitter]
        rfl
      · rintro _ ⟨⟩
        exact waits_submitter
      · intro holder hholder
        cases hholder
    have hin : Passes (s.context job.id) none (some (.acceptor .refused)) (hands (s.setPool pool))
        (hands ((s.setPool pool).setAcceptor (.refused (s.context job.id) status))) :=
      acceptor_in hnone rfl
    have hthreads : Threads ((s.setPool pool).setAcceptor (.refused (s.context job.id) status)) := by
      refine h.threads.step hn step rfl ?_ ?_
      · rw [hpool]
        exact .refused _ hstatus
      · rw [hpool]
        exact h.threads.works
    refine h.move hthreads (hout.through hin ?_) hplace (fun _ _ => rfl) ?_ (Nat.le_refl _) hclient
    · intro hand hhand htarget
      cases hhand
      cases htarget
    · change Story _ _ (record s (s.context job.id))
      rw [hwaits]
      exact .refused
  · rw [if_pos rfl]
    have hheld : holding pool = Function.update (Function.update (holding s.pool) (.submitter ()) [])
        .queue (holding s.pool .queue ++ [job.id]) := by
      rw [hpool, holding_logged, holding_wakeWorkers, holding_setQueue, holding_setSubmitter, hjobs,
        List.map_append]
      rfl
    have hon : Passes (s.context job.id) (some (.pool (.submitter ()))) (some (.pool .queue)) (hands s)
        (hands (s.setPool pool)) := by
      refine passes_pool (passes_on (by simp) hholds) ?_ ?_ ?_
      · intro other _
        rw [hheld]
      · rintro _ ⟨⟩
        exact waits_submitter
      · rintro _ ⟨⟩
        exact waits_queue
    have hthreads : Threads ((s.setPool pool).setAcceptor .accepting) := by
      refine h.threads.step hn step rfl ?_ ?_
      · rw [hpool]
        exact .accepting
      · intro w
        have hcalls : callOf (pool.worker w) = callOf (s.pool.worker w) := by
          rw [hpool]
          exact calls_wakeWorkers (p := (s.pool.setSubmitter () .idle).setQueue queue) woken w
        rw [hcalls]
        exact h.threads.works w
    have hsame : hands ((s.setPool pool).setAcceptor .accepting) = hands (s.setPool pool) :=
      hands_setAcceptor hnone rfl
    rw [← hsame] at hon
    refine h.move hthreads hon hplace (fun _ _ => rfl) ?_ (Nat.le_refl _) hclient
    change Story _ _ (record s (s.context job.id))
    rw [hwaits]
    exact .waiting waits_queue

/-- Inside of the pool a connection goes from the queue to a worker or to cancel_pending, with
nothing of it recorded. -/
theorem Owned.internal (h : Owned s place) (hn : 0 < n) (hi : internalEvent event = true)
    (step : PoolStep s.pool event pool) : ∃ place', Owned (s.setPool pool) place' := by
  obtain ⟨hid, hsubmitter, hcalls, hmoves⟩ := inward_step hi step
  have hawake : ¬ (s.pool.submitter ()).Asleep := by
    rintro ⟨job, hasleep⟩
    have hsubmits := h.threads.submits
    rw [hasleep] at hsubmits
    generalize s.acceptor = accept at hsubmits
    cases hsubmits
  have hthreads : Threads (s.setPool pool) := by
    refine h.threads.step hn step rfl ?_ ?_
    · rw [hsubmitter () hawake]
      exact h.threads.submits
    · intro w
      rw [hcalls w]
      exact h.threads.works w
  rcases hmoves with hheld | ⟨j, rest, target, htarget, hqueue, hnone, hheld⟩
  · have hhands : hands (s.setPool pool) = hands s := hands_setPool fun _ _ => by rw [hheld]
    refine ⟨place, hthreads, ?_, h.fresh⟩
    rw [hhands]
    exact h.ledger
  · have hwaits : Waits target := by
      rcases htarget with rfl | ⟨w, rfl⟩
      · exact waits_controller
      · exact waits_taker w
    have hne : Holder.queue ≠ target := by
      rcases htarget with rfl | ⟨w, rfl⟩
      · simp
      · simp
    have hon : Passes (s.context j) (some (.pool .queue)) (some (.pool target)) (hands s)
        (hands (s.setPool pool)) := by
      refine passes_pool (passes_on hne hqueue) ?_ ?_ ?_
      · intro other _
        rw [hheld, hnone]
        rfl
      · rintro _ ⟨⟩
        exact waits_queue
      · rintro _ ⟨⟩
        exact hwaits
    obtain ⟨hplace, hstory, hclient⟩ := h.held
      (pool_held waits_queue (hqueue ▸ List.mem_cons_self))
    refine h.move hthreads hon hplace (fun _ _ => rfl) ?_ (Nat.le_refl _) hclient
    change Story _ _ (record s (s.context j))
    generalize record s (s.context j) = r at hstory
    cases hstory
    exact .waiting hwaits

end Pool

/-- All that ever happens to an accepted connection: it is rejected with one answer, or handled,
or closed with its cancelled job; its context is freed once, if there is one. -/
inductive Whole : List ConnectionEvent → Prop where
  | unallocated : Whole [.accepted, allocationFailed, .closed]
  | rejected {status : ConcurrencyJobQueueStatus} (h : status ≠ .ok) :
    Whole [.accepted, .allocated, rejectClientWithStatus status, .closed, .notified .rejected, .freed]
  | handled (uses : Nat) (runStatus : Int) : Whole (handledFor uses ++
      [.closed, .notified (if runStatus = 0 then .ok else .failed), .freed])
  | cancelled : Whole [.accepted, .allocated, .notified .cancelled, .closed, .freed]

section Runs

variable {s s' : RuntimeState n capacity} {place : Nat → Option (Hand n)} {client : Nat}
  {events : List ConnectionEvent}

theorem mem_record {event : ConnectionEvent} :
    event ∈ (record s client).2 ↔ (client, event) ∈ s.log := by
  simp [record]

theorem story_settled {job : Option DbServerClientJob} (h : Story (n := n) client none (job, events))
    (haccepted : .accepted ∈ events) : Whole events ∧ job = none := by
  cases h with
  | unknown => cases haccepted
  | unallocated => exact ⟨.unallocated, rfl⟩
  | turnedAway hstatus => exact ⟨.rejected hstatus, rfl⟩
  | served uses runStatus => exact ⟨.handled uses runStatus, rfl⟩
  | cancelled => exact ⟨.cancelled, rfl⟩

theorem Owned.step (h : Owned s place) (hn : 0 < n) {event : ServingEvent n}
    (hs : RuntimeStep s event s') : ∃ place', Owned s' place' := by
  cases hs with
  | accept at_ => exact h.accept at_
  | allocationFails at_ => exact h.allocationFails at_
  | submit at_ alone => exact h.submit hn at_ alone
  | push at_ step answer => exact h.push hn at_ step answer
  | reject at_ => exact h.reject at_
  | disown at_ => exact h.disown at_
  | finishRejected at_ => exact h.finishRejected at_
  | run at_ step => exact h.run hn at_ step
  | enter at_ => exact h.enter at_
  | use at_ => exact h.use at_
  | close at_ => exact h.close at_
  | runReturns at_ step => exact h.runReturns hn at_ step
  | finish at_ step => exact h.finish hn at_ step
  | cancelFinish at_ step => exact h.cancelFinish hn at_ step
  | pool internal step => exact h.internal hn internal step

end Runs

end DbApi.Proofs.ConnectionOwnership
