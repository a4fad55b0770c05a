import DbApi.Library.Serial
import DbApi.Proofs.ConnectionOwnership
import DbApi.Proofs.MutualExclusion
import DbApi.Proofs.RequestEffects
import DbApi.Runtime.Serving

/-! Whatever the order of their steps, the handlings of the connections do to the engine, and
answer, what they do and answer one at a time. -/

namespace DbApi.Proofs.Serializability
open Library Concurrency Http Storage Index DbApi.Runtime PoolJobs ConnectionOwnership

variable {n capacity : Nat}

section Handlings

variable {service : Service} {client : Nat} {effects : List Effect} {request : HttpRequest}
  {executor : CString → Database → Execution × Database} {sql : CString}

theorem handle_unexecuted (h : service.unexecuted client = some effects) (db : Database) :
    service.handle client db = some (effects, db) := by
  unfold Service.unexecuted Service.received at h
  unfold Service.handle httpServerHandleClient
  simp only [Option.getD_some]
  cases hreceived : receiveRequest (effectiveMax service.maxRequestBytes) (service.clients client) with
  | waiting =>
    rw [hreceived] at h
    cases h
  | closed =>
    rw [hreceived] at h
    cases h
    rfl
  | rejected statusCode errorCode message =>
    rw [hreceived] at h
    cases h
    rfl
  | complete request =>
    rw [hreceived] at h
    dsimp only at h ⊢
    unfold Service.routed at h
    unfold httpRouteRequest
    cases hroute : route request (some (runtimeDependencies service.dirs)) with
    | answer answer =>
      rw [hroute] at h
      cases h
      rfl
    | execute call sql =>
      rw [hroute] at h
      cases h

theorem handle_executed (hreceived : service.received client = .complete request)
    (hrouted : service.routed request = .execute executor sql) (db : Database) :
    service.handle client db =
      some (service.executed client request sql ((runtimeExecuteQuery service.dirs sql).run db).1,
        ((runtimeExecuteQuery service.dirs sql).run db).2) := by
  have hexecutor : executor = fun sql db => (runtimeExecuteQuery service.dirs sql).run db := by
    have hcall := (route_execute.mp hrouted).2.1
    exact (Option.some.inj hcall).symm
  unfold Service.received at hreceived
  unfold Service.routed at hrouted
  unfold Service.handle httpServerHandleClient httpRouteRequest
  simp only [Option.getD_some, hreceived, hrouted, hexecutor]
  simp [runtimeDependencies, Service.executed]

end Handlings

/-- A text is never taken for a statement without a lock. -/
theorem sql_locks (sql : Bytes) : concurrencyLockModeFromSql (some sql) ≠ .none := by
  unfold concurrencyLockModeFromSql
  dsimp only
  split
  · simp
  · split
    · simp
    · simp

section Locks

variable {s s' : RuntimeState n capacity} {event : ServingEvent n}
  {p p' : ConcurrencyThreadPool Unit n capacity} {w u : Fin n}

/-- A step of the pool does nothing to the locks, or takes a step of another thread than one
that runs a callback. -/
theorem pool_locks {event : PoolEvent Unit n} (hs : PoolStep p event p') :
    p'.lockManager = p.lockManager ∨ ∃ e, LockStep p.lockManager e p'.lockManager ∧
      ∀ u job, p.worker u = .running job → event ≠ .callback u → e.thread ≠ u := by
  have waits : ∀ {w : Fin n} {state : WorkerState}, p.worker w = state →
      (∀ job, state ≠ .running job) →
      ∀ u job, p.worker u = .running job → event ≠ .callback u → w ≠ u := by
    intro w state at_ hstate u job hrun _ heq
    subst heq
    exact hstate job (at_.symm.trans hrun)
  cases hs with
  | acquire at_ lock => exact .inr ⟨_, lock, waits at_ (fun _ h => by cases h)⟩
  | resume at_ lock => exact .inr ⟨_, lock, waits at_ (fun _ h => by cases h)⟩
  | wakeLock at_ lock => exact .inr ⟨_, lock, waits at_ (fun _ h => by cases h)⟩
  | release at_ lock => exact .inr ⟨_, lock, waits at_ (fun _ h => by cases h)⟩
  | callback at_ thread lock =>
    refine .inr ⟨_, lock, ?_⟩
    intro u job hrun hne heq
    rw [thread] at heq
    exact hne (by rw [heq])
  | submit =>
    left
    unfold ConcurrencyThreadPool.submit
    dsimp only
    split
    · rfl
    · rfl
  | shutdown =>
    left
    split
    · rfl
    · rfl
  | destroy =>
    left
    split
    · rfl
    · rfl
  | @cancelDone phase =>
    left
    cases phase with
    | shutdown | destroy | queueDestroy => rfl
  | pushRefused | pushWaits | pushAccepted | wakeSubmitter | popWaits | popClosed | popJob
    | wakeWorker | run | runReturns | finish | close | cancelNext | cancelFinish | join | joined =>
    exact .inl rfl

theorem cleanup_frame (s : RuntimeState n capacity) (client : Nat) :
    (s.cleanupClientJob client).pool = s.pool ∧ (s.cleanupClientJob client).callback = s.callback := by
  unfold RuntimeState.cleanupClientJob
  split
  · exact ⟨rfl, rfl⟩
  · exact ⟨rfl, rfl⟩
  · exact ⟨rfl, rfl⟩

theorem notify_frame (s : RuntimeState n capacity) (client : Nat) (result : ConcurrencyJobResult) :
    (s.notifyClientJob client result).pool = s.pool ∧
      (s.notifyClientJob client result).callback = s.callback := by
  unfold RuntimeState.notifyClientJob
  split
  · exact ⟨rfl, rfl⟩
  · exact ⟨rfl, rfl⟩

theorem finish_frame (s : RuntimeState n capacity) (client : Nat) (result : ConcurrencyJobResult) :
    (s.concurrencyJobFinish client result).pool = s.pool ∧
      (s.concurrencyJobFinish client result).callback = s.callback := by
  obtain ⟨hpool, hcallback⟩ := notify_frame s client result
  obtain ⟨hpool', hcallback'⟩ := cleanup_frame (s.notifyClientJob client result) client
  exact ⟨hpool'.trans hpool, hcallback'.trans hcallback⟩

/-- The callback that is entered goes on with a handling, or ends at once. -/
theorem runClientJob_frame (s : RuntimeState n capacity) (w : Fin n) (client : Nat) :
    (s.runClientJob w client).pool = s.pool ∧ ∃ state,
      (s.runClientJob w client).callback = Function.update s.callback w state := by
  unfold RuntimeState.runClientJob
  split
  · exact ⟨rfl, _, rfl⟩
  · exact ⟨rfl, _, rfl⟩
  · exact ⟨rfl, _, rfl⟩

/-- A step of the runtime does nothing to the locks, or takes a step of the pool. -/
theorem runtime_locks (hs : RuntimeStep s event s') :
    s'.pool.lockManager = s.pool.lockManager ∨
      ∃ inner, PoolStep s.pool inner s'.pool ∧
        ∀ u, inner = .callback u → event = .pool (.callback u) := by
  have outer : ∀ {inner : PoolEvent Unit n}, (∀ u, inner ≠ .callback u) →
      ∀ u, inner = .callback u → event = .pool (.callback u) :=
    fun hne u heq => absurd heq (hne u)
  cases hs with
  | submit at_ alone =>
    left
    change (s.pool.submit () false .none true).lockManager = _
    unfold ConcurrencyThreadPool.submit
    dsimp only
    split
    · rfl
    · rfl
  | push at_ step answer => exact .inr ⟨_, step, outer (fun _ h => by cases h)⟩
  | run at_ step => exact .inr ⟨_, step, outer (fun _ h => by cases h)⟩
  | runReturns at_ step => exact .inr ⟨_, step, outer (fun _ h => by cases h)⟩
  | @finish w job runStatus pool at_ step =>
    have hpool : PoolStep s.pool (.finish w) ((s.setPool pool).concurrencyJobFinish
        (s.context job.id) (if runStatus = 0 then .ok else .failed)).pool := by
      rw [(finish_frame ..).1]
      exact step
    exact .inr ⟨_, hpool, outer (fun _ h => by cases h)⟩
  | @cancelFinish job phase pool at_ step =>
    have hpool : PoolStep s.pool .cancelFinish ((s.setPool pool).concurrencyJobFinish
        (s.context job.id) .cancelled).pool := by
      rw [(finish_frame ..).1]
      exact step
    exact .inr ⟨_, hpool, outer (fun _ h => by cases h)⟩
  | pool internal step => exact .inr ⟨_, step, fun u heq => by rw [heq]⟩
  | @enter w client at_ => exact .inl (congrArg _ (runClientJob_frame s w client).1)
  | @finishRejected client at_ => exact .inl (congrArg _ (finish_frame s client .rejected).1)
  | accept | allocationFails | reject | disown | use | close => exact .inl rfl

end Locks

section Workers

variable {s s' : RuntimeState n capacity} {event : ServingEvent n} {place : Nat → Option (Hand n)}
  {client : Nat} {w u : Fin n}

/-- What is known of a connection while it is handled. -/
structure InHandling (s : RuntimeState n capacity) (w : Fin n) (client : Nat) : Prop where
  running : ∃ job, s.pool.worker w = .running job
  handled : (client, .handled) ∈ s.log
  open_ : (client, .closed) ∉ s.log
  own : ∀ u, s.callback u = .handling client → u = w

theorem handled_of (h : Owned s place) (at_ : s.callback w = .handling client) :
    InHandling s w client := by
  have hhas : callbackHas (s.callback w) = some (.handling, client) := congrArg callbackHas at_
  obtain ⟨hplace, hstory, -⟩ := h.held (callback_held hhas)
  have hevents : ∃ uses, (record s client).2 = handledFor uses := by
    generalize record s client = r at hstory
    cases hstory with
    | handling _ uses => exact ⟨uses, rfl⟩
  obtain ⟨uses, hevents⟩ := hevents
  refine ⟨?_, ?_, ?_, ?_⟩
  · have hworks := h.threads.works w
    rw [at_] at hworks
    generalize hworker : s.pool.worker w = worker at hworks
    cases worker with
    | running job => exact ⟨job, rfl⟩
    | popping | asleep | taken | locking | locked | returned | released | exited => cases hworks
  · apply mem_record.mp
    rw [hevents]
    simp [handledFor]
  · intro hclosed
    have hmem := mem_record.mpr hclosed
    rw [hevents] at hmem
    simp [handledFor] at hmem
  · intro u hu
    have hother : callbackHas (s.callback u) = some (.handling, client) := congrArg callbackHas hu
    have hplaceOther := (h.held (callback_held hother)).1
    rw [hplace] at hplaceOther
    injection hplaceOther with heq
    injection heq with heq
    exact heq.symm

/-- A handling goes on until its close. -/
theorem callback_stays (h : Owned s place) (hs : RuntimeStep s event s')
    (at_ : s.callback w = .handling client) (hne : event ≠ .close w) :
    s'.callback w = .handling client := by
  obtain ⟨job, hrunning⟩ := (handled_of h at_).running
  have apart : ∀ {v : Fin n} {state : CallbackState}, v ≠ w →
      Function.update s.callback v state w = .handling client := by
    intro v state hv
    rw [Function.update_of_ne (Ne.symm hv)]
    exact at_
  cases hs with
  | run own step =>
    apply apart
    rintro rfl
    rw [own] at hrunning
    cases hrunning
  | @enter v other own =>
    obtain ⟨-, state, hcallback⟩ := runClientJob_frame s v other
    rw [hcallback]
    apply apart
    rintro rfl
    rw [own] at at_
    cases at_
  | close own =>
    apply apart
    rintro rfl
    exact hne rfl
  | finish own step =>
    change Function.update (RuntimeState.concurrencyJobFinish _ _ _).callback _ _ w = _
    rw [(finish_frame _ _ _).2]
    apply apart
    rintro rfl
    rw [own] at hrunning
    cases hrunning
  | finishRejected =>
    change (RuntimeState.concurrencyJobFinish _ _ _).callback w = _
    rw [(finish_frame _ _ _).2]
    exact at_
  | cancelFinish =>
    rw [(finish_frame _ _ _).2]
    exact at_
  | accept | allocationFails | submit | push | reject | disown | use | runReturns | pool =>
    exact at_

end Workers

section Logs

variable {s s' : RuntimeState n capacity} {event : ServingEvent n} {client : Nat} {w : Fin n}

theorem cleanup_log (s : RuntimeState n capacity) (client : Nat) :
    ∃ events, (s.cleanupClientJob client).log = (s.logged client events).log ∧ .handled ∉ events := by
  unfold RuntimeState.cleanupClientJob
  split
  · exact ⟨_, rfl, by simp⟩
  · exact ⟨_, rfl, by simp⟩
  · exact ⟨_, rfl, by simp⟩

theorem notify_log (s : RuntimeState n capacity) (client : Nat) (result : ConcurrencyJobResult) :
    ∃ events, (s.notifyClientJob client result).log = (s.logged client events).log ∧
      .handled ∉ events := by
  unfold RuntimeState.notifyClientJob
  split
  · exact ⟨_, rfl, by simp⟩
  · exact ⟨_, rfl, by simp⟩

theorem finish_log (s : RuntimeState n capacity) (client : Nat) (result : ConcurrencyJobResult) :
    ∃ events, (s.concurrencyJobFinish client result).log = (s.logged client events).log ∧
      .handled ∉ events := by
  obtain ⟨notified, hnotified, hnone⟩ := notify_log s client result
  obtain ⟨cleaned, hcleaned, hnone'⟩ := cleanup_log (s.notifyClientJob client result) client
  refine ⟨notified ++ cleaned, ?_, ?_⟩
  · have hlog : (s.concurrencyJobFinish client result).log =
        (s.notifyClientJob client result).log ++ cleaned.map fun event => (client, event) := hcleaned
    rw [hlog, hnotified]
    simp [RuntimeState.logged]
  · intro hmem
    rcases List.mem_append.mp hmem with hmem | hmem
    · exact hnone hmem
    · exact hnone' hmem

theorem runClientJob_log (s : RuntimeState n capacity) (w : Fin n) (client : Nat) :
    ∃ events, (s.runClientJob w client).log = (s.logged client events).log ∧
      (.handled ∈ events → (s.runClientJob w client).callback w = .handling client) := by
  unfold RuntimeState.runClientJob
  split
  · exact ⟨[.stale], rfl, fun h => by simp at h⟩
  · exact ⟨[], (List.append_nil _).symm, fun h => by cases h⟩
  · exact ⟨[.handled], rfl, fun _ => Function.update_self ..⟩

/-- What a step adds to the log is about one connection, and only the call of a callback hands
one to the server. -/
theorem step_log (hs : RuntimeStep s event s') :
    ∃ client events, s'.log = (s.logged client events).log ∧
      (.handled ∈ events → ∃ w, event = .enter w ∧ s.callback w = .entered client ∧
        s'.callback w = .handling client) := by
  have nothing : s.log = (s.logged 0 []).log := (List.append_nil _).symm
  cases hs with
  | accept => exact ⟨_, [.accepted], rfl, fun h => by simp at h⟩
  | @allocationFails client => exact ⟨client, [allocationFailed, .closed], rfl, fun h => by
      simp [allocationFailed] at h⟩
  | @submit client => exact ⟨client, [.allocated], rfl, fun h => by simp at h⟩
  | @reject client status =>
    refine ⟨client, [rejectClientWithStatus status, .closed], rfl, fun h => ?_⟩
    cases status with
    | ok | full | empty | closed | invalid => simp [rejectClientWithStatus] at h
  | @use w client => exact ⟨client, [.used], rfl, fun h => by simp at h⟩
  | @close w client => exact ⟨client, [.closed], rfl, fun h => by simp at h⟩
  | @finishRejected client =>
    obtain ⟨events, hlog, hnone⟩ := finish_log s client .rejected
    exact ⟨client, events, hlog, fun h => absurd h hnone⟩
  | @finish w job runStatus pool =>
    obtain ⟨events, hlog, hnone⟩ := finish_log (s.setPool pool) (s.context job.id)
      (if runStatus = 0 then .ok else .failed)
    exact ⟨_, events, hlog, fun h => absurd h hnone⟩
  | @cancelFinish job phase pool =>
    obtain ⟨events, hlog, hnone⟩ := finish_log (s.setPool pool) (s.context job.id) .cancelled
    exact ⟨_, events, hlog, fun h => absurd h hnone⟩
  | @enter w client at_ =>
    obtain ⟨events, hlog, hhandled⟩ := runClientJob_log s w client
    exact ⟨client, events, hlog, fun h => ⟨w, rfl, at_, hhandled h⟩⟩
  | push | disown | run | runReturns | pool => exact ⟨0, [], nothing, fun h => by cases h⟩

theorem log_kept (hs : RuntimeStep s event s') {entry : Nat × ConnectionEvent}
    (h : entry ∈ s.log) : entry ∈ s'.log := by
  obtain ⟨client, events, hlog, -⟩ := step_log hs
  rw [hlog]
  exact List.mem_append_left _ h

theorem handled_entered (hs : RuntimeStep s event s') (h : (client, .handled) ∈ s'.log) :
    (client, .handled) ∈ s.log ∨ ∃ w, event = .enter w ∧ s.callback w = .entered client ∧
      s'.callback w = .handling client := by
  obtain ⟨own, events, hlog, hhandled⟩ := step_log hs
  rw [hlog] at h
  rcases List.mem_append.mp h with h | h
  · exact .inl h
  · obtain ⟨event, hmem, heq⟩ := List.mem_map.mp h
    obtain ⟨rfl, rfl⟩ := Prod.mk.inj heq
    exact .inr (hhandled hmem)

end Logs

/-- What a lock step of another thread leaves to a thread. -/
structure LockFrame (locks locks' : LockState (Fin n)) (w : Fin n) : Prop where
  held : locks'.held w = locks.held w
  call : ∀ mode asleep, locks.call w = .waiting mode asleep →
    ∃ asleep', locks'.call w = .waiting mode asleep'

/-- Where a worker stands in a handling fits the callback, the locks and the history. -/
inductive Stands (service : Service) (locks : LockState (Fin n))
    (history : List (Nat × List Effect)) (w : Fin n) : CallbackState → HandlerState → Prop where
  | idle (callback : CallbackState) : Stands service locks history w callback .idle
  | acquiring {client : Nat} {request : HttpRequest} {sql : CString}
    {executor : CString → Database → Execution × Database} {asleep : Bool}
    (received : service.received client = .complete request)
    (routed : service.routed request = .execute executor sql)
    (call : locks.call w = .waiting (concurrencyLockModeFromSql (some sql.bytes)) asleep) :
    Stands service locks history w (.handling client) (.acquiring request sql)
  | executing {client : Nat} {request : HttpRequest} {sql : CString}
    {rest : Program Database Execution}
    (held : concurrencyLockModeFromSql (some sql.bytes) ∈ locks.held w) :
    Stands service locks history w (.handling client) (.executing request sql rest)
  | answering {client : Nat} {effects : List Effect} (took : (client, effects) ∈ history) :
    Stands service locks history w (.handling client) (.answering effects)

/-- What is left to do of a handling that is inside of the lock. -/
def remaining (service : Service) (client : Nat) (request : HttpRequest) (sql : CString)
    (rest : Program Database Execution) (db : Database) : Option (List Effect × Database) :=
  some (service.executed client request sql (rest.run db).1, (rest.run db).2)

def insideOf (service : Service) : HandlerState → CallbackState →
    Option (Nat × (Database → Option (List Effect × Database)))
  | .executing request sql rest, .handling client =>
    some (client, remaining service client request sql rest)
  | _, _ => none

def inside (service : Service) (s : ServerState n capacity) (w : Fin n) :
    Option (Nat × (Database → Option (List Effect × Database))) :=
  insideOf service (s.handler w) (s.runtime.callback w)

/-- The history has the handled connections once each, but for those that a worker is still at. -/
structure Counted (callback : Fin n → CallbackState) (handler : Fin n → HandlerState)
    (log : List (Nat × ConnectionEvent)) (history : List (Nat × List Effect)) : Prop where
  distinct : (history.map Prod.fst).Nodup
  came : ∀ client ∈ history.map Prod.fst, (client, .handled) ∈ log
  served : ∀ client ∈ history.map Prod.fst, (client, .closed) ∈ log ∨
    ∃ w effects, callback w = .handling client ∧ handler w = .answering effects
  handled : ∀ client, (client, .handled) ∈ log → client ∈ history.map Prod.fst ∨
    ∃ w, callback w = .handling client ∧ ∀ effects, handler w ≠ .answering effects

/-- The invariant of the serving. -/
structure Serves (service : Service) (db : Database) (s : ServerState n capacity) : Prop where
  stands : ∀ w, Stands service s.locks s.history w (s.runtime.callback w) (s.handler w)
  serialized : Serialized service.handle db (inside service s) s.history s.db
  counted : Counted s.runtime.callback s.handler s.runtime.log s.history

section Standing

variable {service : Service} {locks locks' : LockState (Fin n)} {history history' : List (Nat × List Effect)}
  {w u : Fin n} {callback callback' : CallbackState} {state : HandlerState}
  {s : ServerState n capacity}

theorem lockFrame_other {event : LockEvent (Fin n)} (hs : LockStep locks event locks')
    (hu : u ≠ event.thread) : LockFrame locks locks' u := by
  obtain ⟨hheld, hcall⟩ := step_other hs hu
  refine ⟨hheld, ?_⟩
  intro mode asleep hwaits
  rcases hcall with hsame | ⟨other, hasleep, hwoken⟩
  · exact ⟨asleep, hsame.trans hwaits⟩
  · rw [hwaits] at hasleep
    cases hasleep
    exact ⟨false, hwoken⟩

theorem lockFrame_same (h : locks' = locks) : LockFrame locks locks' w := by
  rw [h]
  exact ⟨rfl, fun _ asleep hwaits => ⟨asleep, hwaits⟩⟩

theorem Stands.frame (h : Stands service locks history w callback state)
    (hcallback : ∀ client, callback = .handling client → callback' = .handling client)
    (hlocks : ∀ client, callback = .handling client → LockFrame locks locks' w)
    (hhistory : ∀ entry ∈ history, entry ∈ history') :
    Stands service locks' history' w callback' state := by
  cases h with
  | idle => exact .idle _
  | acquiring received routed call =>
    obtain ⟨asleep, hcall⟩ := (hlocks _ rfl).call _ _ call
    rw [hcallback _ rfl]
    exact .acquiring received routed hcall
  | executing held =>
    rw [hcallback _ rfl]
    exact .executing ((hlocks _ rfl).held ▸ held)
  | answering took =>
    rw [hcallback _ rfl]
    exact .answering (hhistory _ took)

theorem inside_setHandler (s : ServerState n capacity) (w : Fin n) (state : HandlerState) :
    inside service (s.setHandler w state) =
      Function.update (inside service s) w (insideOf service state (s.runtime.callback w)) := by
  funext u
  change insideOf service (Function.update s.handler w state u) (s.runtime.callback u) = _
  by_cases hu : u = w
  · rw [hu, Function.update_self, Function.update_self]
  · rw [Function.update_of_ne hu, Function.update_of_ne hu]
    rfl

theorem insideOf_none {state : HandlerState} (h : ∀ request sql rest, state ≠ .executing request sql rest)
    (callback : CallbackState) : insideOf service state callback = none := by
  cases state with
  | executing request sql rest => exact absurd rfl (h request sql rest)
  | idle | acquiring | answering => rfl

end Standing

section Counting

variable {callback : Fin n → CallbackState} {handler : Fin n → HandlerState}
  {log : List (Nat × ConnectionEvent)} {history : List (Nat × List Effect)} {w : Fin n}
  {client : Nat} {effects : List Effect} {state : HandlerState}

theorem Counted.keep (h : Counted callback handler log history)
    (hbefore : ∀ effects, handler w ≠ .answering effects) (hafter : ∀ effects, state ≠ .answering effects) :
    Counted callback (Function.update handler w state) log history := by
  refine ⟨h.distinct, h.came, ?_, ?_⟩
  · intro client hclient
    rcases h.served client hclient with hclosed | ⟨u, effects, hcallback, hhandler⟩
    · exact .inl hclosed
    · have hu : u ≠ w := by
        rintro rfl
        exact hbefore effects hhandler
      exact .inr ⟨u, effects, hcallback, (Function.update_of_ne hu ..).trans hhandler⟩
  · intro client hclient
    rcases h.handled client hclient with hmem | ⟨u, hcallback, hhandler⟩
    · exact .inl hmem
    · refine .inr ⟨u, hcallback, ?_⟩
      by_cases hu : u = w
      · rw [hu, Function.update_self]
        exact hafter
      · rw [Function.update_of_ne hu]
        exact hhandler

/-- A handling takes effect. -/
theorem Counted.took (h : Counted callback handler log history)
    (call : callback w = .handling client) (hcame : (client, .handled) ∈ log)
    (hopen : (client, .closed) ∉ log)
    (hown : ∀ u, callback u = .handling client → u = w)
    (hbefore : ∀ effects, handler w ≠ .answering effects) :
    Counted callback (Function.update handler w (.answering effects)) log
      (history ++ [(client, effects)]) := by
  have hnew : client ∉ history.map Prod.fst := by
    intro hmem
    rcases h.served client hmem with hclosed | ⟨u, effects, hcallback, hhandler⟩
    · exact hopen hclosed
    · rw [hown u hcallback] at hhandler
      exact hbefore effects hhandler
  have hmap : (history ++ [(client, effects)]).map Prod.fst = history.map Prod.fst ++ [client] :=
    List.map_append
  refine ⟨?_, ?_, ?_, ?_⟩
  · rw [hmap]
    exact List.nodup_append.mpr ⟨h.distinct, List.nodup_singleton _, by
      intro other hother one hone heq
      rw [List.mem_singleton.mp hone] at heq
      exact hnew (heq ▸ hother)⟩
  · intro other hother
    rw [hmap] at hother
    rcases List.mem_append.mp hother with hold | hone
    · exact h.came other hold
    · rw [List.mem_singleton.mp hone]
      exact hcame
  · intro other hother
    rw [hmap] at hother
    rcases List.mem_append.mp hother with hold | hone
    · rcases h.served other hold with hclosed | ⟨u, own, hcallback, hhandler⟩
      · exact .inl hclosed
      · have hu : u ≠ w := by
          rintro rfl
          exact hbefore own hhandler
        exact .inr ⟨u, own, hcallback, (Function.update_of_ne hu ..).trans hhandler⟩
    · rw [List.mem_singleton.mp hone]
      exact .inr ⟨w, effects, call, Function.update_self ..⟩
  · intro other hother
    rw [hmap]
    rcases h.handled other hother with hmem | ⟨u, hcallback, hhandler⟩
    · exact .inl (List.mem_append_left _ hmem)
    · by_cases hu : u = w
      · rw [hu, call] at hcallback
        injection hcallback with heq
        exact .inl (List.mem_append_right _ (heq ▸ List.mem_singleton.mpr rfl))
      · refine .inr ⟨u, hcallback, ?_⟩
        rw [Function.update_of_ne hu]
        exact hhandler

theorem Counted.close (h : Counted callback handler log history)
    (call : callback w = .handling client) (at_ : handler w = .answering effects) :
    Counted (Function.update callback w (.finished client)) (Function.update handler w .idle)
      (log ++ [(client, .closed)]) history := by
  refine ⟨h.distinct, fun other hother => List.mem_append_left _ (h.came other hother), ?_, ?_⟩
  · intro other hother
    rcases h.served other hother with hclosed | ⟨u, own, hcallback, hhandler⟩
    · exact .inl (List.mem_append_left _ hclosed)
    · by_cases hu : u = w
      · rw [hu, call] at hcallback
        injection hcallback with heq
        exact .inl (List.mem_append_right _ (heq ▸ List.mem_singleton.mpr rfl))
      · exact .inr ⟨u, own, (Function.update_of_ne hu ..).trans hcallback,
          (Function.update_of_ne hu ..).trans hhandler⟩
  · intro other hother
    have hlog : (other, .handled) ∈ log := by
      rcases List.mem_append.mp hother with hmem | hone
      · exact hmem
      · cases List.mem_singleton.mp hone
    rcases h.handled other hlog with hmem | ⟨u, hcallback, hhandler⟩
    · exact .inl hmem
    · have hu : u ≠ w := by
        rintro rfl
        exact hhandler effects at_
      refine .inr ⟨u, (Function.update_of_ne hu ..).trans hcallback, ?_⟩
      rw [Function.update_of_ne hu]
      exact hhandler

end Counting

section Serving

variable {service : Service} {db : Database} {s : ServerState n capacity}
  {runtime : RuntimeState n capacity} {place : Nat → Option (Hand n)} {w : Fin n} {client : Nat}
  {effects : List Effect} {request : HttpRequest} {sql : CString}

theorem stands_update {locks' : LockState (Fin n)} {history' : List (Nat × List Effect)}
    {state : HandlerState} (h : Serves service db s)
    (hown : Stands service locks' history' w (s.runtime.callback w) state)
    (hothers : ∀ u, u ≠ w → LockFrame s.locks locks' u)
    (hhistory : ∀ entry ∈ s.history, entry ∈ history') (u : Fin n) :
    Stands service locks' history' u (s.runtime.callback u) (Function.update s.handler w state u) := by
  by_cases hu : u = w
  · rw [hu, Function.update_self]
    exact hown
  · rw [Function.update_of_ne hu]
    exact (h.stands u).frame (fun _ hcallback => hcallback) (fun _ _ => hothers u hu) hhistory

theorem Serves.besides (h : Serves service db s) (howned : Owned s.runtime place)
    {event : ServingEvent n} (beside : besideHandling event = true)
    (step : RuntimeStep s.runtime event runtime) : Serves service db (s.setRuntime runtime) := by
  have hstays : ∀ w client, s.runtime.callback w = .handling client →
      runtime.callback w = .handling client := by
    intro w client hcallback
    apply callback_stays howned step hcallback
    rintro rfl
    cases beside
  have hlocks : ∀ w client, s.runtime.callback w = .handling client →
      LockFrame s.locks runtime.pool.lockManager w := by
    intro w client hcallback
    obtain ⟨job, hrunning⟩ := (handled_of howned hcallback).running
    rcases runtime_locks step with hsame | ⟨inner, hinner, hevent⟩
    · exact lockFrame_same hsame
    · rcases pool_locks hinner with hsame | ⟨e, lock, hthread⟩
      · exact lockFrame_same hsame
      · refine lockFrame_other lock (Ne.symm (hthread w job hrunning ?_))
        rintro rfl
        rw [hevent w rfl] at beside
        cases beside
  have hinside : inside service (s.setRuntime runtime) = inside service s := by
    funext w
    change insideOf service (s.handler w) (runtime.callback w) =
      insideOf service (s.handler w) (s.runtime.callback w)
    have hstands := h.stands w
    have hcallback := hstays w
    generalize s.handler w = state at hstands
    generalize s.runtime.callback w = callback at hstands hcallback
    cases hstands with
    | executing => rw [hcallback _ rfl]
    | idle | acquiring | answering => rfl
  refine ⟨?_, ?_, h.counted.distinct, ?_, ?_, ?_⟩
  · intro w
    exact (h.stands w).frame (hstays w) (hlocks w) fun _ hentry => hentry
  · rw [hinside]
    exact h.serialized
  · exact fun client hclient => log_kept step (h.counted.came client hclient)
  · intro client hclient
    rcases h.counted.served client hclient with hclosed | ⟨u, effects, hcallback, hhandler⟩
    · exact .inl (log_kept step hclosed)
    · exact .inr ⟨u, effects, hstays u client hcallback, hhandler⟩
  · intro client hclient
    rcases handled_entered step hclient with hold | ⟨w, -, hentered, hhandling⟩
    · rcases h.counted.handled client hold with hmem | ⟨u, hcallback, hhandler⟩
      · exact .inl hmem
      · exact .inr ⟨u, hstays u client hcallback, hhandler⟩
    · refine .inr ⟨w, hhandling, ?_⟩
      intro effects hanswering
      have hstands := h.stands w
      change s.handler w = _ at hanswering
      rw [hentered, hanswering] at hstands
      cases hstands

theorem Serves.answer (h : Serves service db s) (howned : Owned s.runtime place)
    (call : s.runtime.callback w = .handling client) (at_ : s.handler w = .idle)
    (result : service.unexecuted client = some effects) :
    Serves service db ((s.setHandler w (.answering effects)).took client effects) := by
  have hhandled := handled_of howned call
  have hbefore : ∀ effects, s.handler w ≠ .answering effects := by
    intro effects heq
    rw [at_] at heq
    cases heq
  have hentry : (client, effects) ∈ s.history ++ [(client, effects)] :=
    List.mem_append_right _ (List.mem_singleton.mpr rfl)
  have hothers : ∀ u, u ≠ w → LockFrame s.locks s.locks u := fun _ _ => lockFrame_same rfl
  have hinside : inside service (s.setHandler w (.answering effects)) = inside service s := by
    rw [inside_setHandler]
    apply Function.update_eq_self_iff.mpr
    change _ = insideOf service (s.handler w) _
    rw [at_]
    rfl
  refine ⟨?_, ?_, ?_⟩
  · intro u
    refine stands_update h ?_ hothers (fun _ hold => List.mem_append_left _ hold) u
    rw [call]
    exact .answering hentry
  · change Serialized service.handle db (inside service (s.setHandler w _)) _ s.db
    rw [hinside]
    exact h.serialized.aside (handle_unexecuted result)
  · exact h.counted.took call hhandled.handled hhandled.open_ hhandled.own hbefore

/-- The step of the runtime that a call of the lock manager is. -/
theorem callback_event (step : RuntimeStep s.runtime (.pool (.callback w)) runtime) :
    runtime.callback = s.runtime.callback ∧ runtime.log = s.runtime.log := by
  cases step with
  | pool => exact ⟨rfl, rfl⟩

/-- The lock lets a statement in only when nobody is inside. -/
theorem Serves.nobody_inside (h : Serves service db s) {locks : LockState (Fin n)}
    (hreach : (lockSystem (Fin n) .serialAll).Reachable locks) {mode : ConcurrencyLockMode}
    (hheld : mode ∈ locks.held w) (hmode : mode ≠ .none)
    (hothers : ∀ u, u ≠ w → LockFrame s.locks locks u)
    (hout : ∀ request sql rest, s.handler w ≠ .executing request sql rest) (u : Fin n) :
    inside service s u = none := by
  apply insideOf_none
  intro request sql rest hexecuting
  have hu : u ≠ w := by
    rintro rfl
    exact hout _ _ _ hexecuting
  have hstands := h.stands u
  rw [hexecuting] at hstands
  generalize s.runtime.callback u = callback at hstands
  cases hstands with
  | executing held =>
    rw [← (hothers u hu).held] at held
    obtain ⟨hcounts, hpolicy⟩ := MutualExclusion.counts_reachable hreach
    have hexcludes := hcounts.excludes hpolicy
    exact hu (hexcludes.serial rfl u w _ held mode hheld (sql_locks _) hmode)

/-- An acquire comes out with the lock, or waits for it. -/
theorem Serves.acquires (h : Serves service db s)
    (hreach : (lockSystem (Fin n) .serialAll).Reachable runtime.pool.lockManager)
    (call : s.runtime.callback w = .handling client)
    (hout : ∀ request sql rest, s.handler w ≠ .executing request sql rest)
    (hbefore : ∀ effects, s.handler w ≠ .answering effects)
    {executor : CString → Database → Execution × Database}
    (received : service.received client = .complete request)
    (routed : service.routed request = .execute executor sql)
    (step : RuntimeStep s.runtime (.pool (.callback w)) runtime)
    (htested : Tested s.locks runtime.pool.lockManager w (concurrencyLockModeFromSql (some sql.bytes)))
    (hothers : ∀ u, u ≠ w → LockFrame s.locks runtime.pool.lockManager u) :
    Serves service db ((s.setRuntime runtime).setHandler w
      (if runtime.pool.lockManager.call w = .outside then
        .executing request sql (runtimeExecuteQuery service.dirs sql)
      else .acquiring request sql)) := by
  obtain ⟨hcallback, hlog⟩ := callback_event step
  have hsame : inside service (s.setRuntime runtime) = inside service s := by
    funext u
    change insideOf service (s.handler u) (runtime.callback u) = _
    rw [hcallback]
    rfl
  rcases htested with ⟨hcall, hheld⟩ | ⟨hcall, -⟩
  · rw [if_pos hcall]
    have hmem : concurrencyLockModeFromSql (some sql.bytes) ∈ runtime.pool.lockManager.held w := by
      rw [hheld]
      exact List.mem_cons_self
    have hnobody := h.nobody_inside hreach hmem (sql_locks _) hothers hout
    have hwhole : remaining service client request sql (runtimeExecuteQuery service.dirs sql) =
        service.handle client := by
      funext db
      exact (handle_executed received routed db).symm
    refine ⟨?_, ?_, ?_⟩
    · intro u
      change Stands _ _ _ u (runtime.callback u) (Function.update s.handler w _ u)
      rw [hcallback]
      refine stands_update h ?_ hothers (fun _ hold => hold) u
      rw [call]
      exact .executing hmem
    · rw [inside_setHandler, hsame]
      change Serialized _ _ (Function.update _ w (insideOf service _ (runtime.callback w))) _ _
      rw [hcallback, call]
      change Serialized _ _ (Function.update _ w (some (client, remaining service client request sql
        (runtimeExecuteQuery service.dirs sql)))) _ _
      rw [hwhole]
      exact h.serialized.enter hnobody w client
    · change Counted runtime.callback (Function.update s.handler w _) runtime.log s.history
      rw [hcallback, hlog]
      exact h.counted.keep hbefore (fun _ heq => by cases heq)
  · have hwaits : ¬ runtime.pool.lockManager.call w = .outside := by
      rw [hcall]
      exact fun heq => by cases heq
    rw [if_neg hwaits]
    refine ⟨?_, ?_, ?_⟩
    · intro u
      change Stands _ _ _ u (runtime.callback u) (Function.update s.handler w _ u)
      rw [hcallback]
      refine stands_update h ?_ hothers (fun _ hold => hold) u
      rw [call]
      exact .acquiring received routed hcall
    · rw [inside_setHandler, hsame]
      have hnone : inside service s w = none := insideOf_none hout _
      have hkept : Function.update (inside service s) w
          (insideOf service (.acquiring request sql) ((s.setRuntime runtime).runtime.callback w)) =
            inside service s := Function.update_eq_self_iff.mpr hnone.symm
      rw [hkept]
      exact h.serialized
    · change Counted runtime.callback (Function.update s.handler w _) runtime.log s.history
      rw [hcallback, hlog]
      exact h.counted.keep hbefore (fun _ heq => by cases heq)

/-- A worker in the wait of an acquire may wake up on its own. -/
theorem Serves.wake (h : Serves service db s) (at_ : s.handler w = .acquiring request sql)
    (step : RuntimeStep s.runtime (.pool (.callback w)) runtime)
    (lock : LockStep s.locks (.wake w) runtime.pool.lockManager) :
    Serves service db (s.setRuntime runtime) := by
  obtain ⟨hcallback, hlog⟩ := callback_event step
  have hown := h.stands w
  rw [at_] at hown
  refine ⟨?_, ?_, ?_⟩
  · intro u
    change Stands _ _ _ u (runtime.callback u) (s.handler u)
    rw [hcallback]
    by_cases hu : u = w
    · rw [hu, at_]
      generalize s.runtime.callback w = callback at hown
      cases hown with
      | acquiring received routed call =>
        have hwoken : runtime.pool.lockManager.call w =
            .waiting (concurrencyLockModeFromSql (some sql.bytes)) false := by
          generalize runtime.pool.lockManager = locks at lock
          cases lock with
          | @wake _ mode own =>
            rw [call] at own
            cases own
            exact Function.update_self ..
        exact .acquiring received routed hwoken
    · exact (h.stands u).frame (fun _ hcb => hcb) (fun _ _ => lockFrame_other lock hu)
        fun _ hold => hold
  · have hsame : inside service (s.setRuntime runtime) = inside service s := by
      funext u
      change insideOf service (s.handler u) (runtime.callback u) = _
      rw [hcallback]
      rfl
    rw [hsame]
    exact h.serialized
  · change Counted runtime.callback s.handler runtime.log s.history
    rw [hcallback, hlog]
    exact h.counted

theorem Serves.access (h : Serves service db s) {update : Database → Database}
    {next : Database → Program Database Execution}
    (at_ : s.handler w = .executing request sql (.access update next)) :
    Serves service db { s.setHandler w (.executing request sql (next s.db)) with
      db := update s.db } := by
  have hown := h.stands w
  rw [at_] at hown
  obtain ⟨client, call, held⟩ : ∃ client, s.runtime.callback w = .handling client ∧
      concurrencyLockModeFromSql (some sql.bytes) ∈ s.locks.held w := by
    generalize s.runtime.callback w = callback at hown
    cases hown with
    | executing held => exact ⟨_, rfl, held⟩
  have hothers : ∀ u, u ≠ w → LockFrame s.locks s.locks u := fun _ _ => lockFrame_same rfl
  refine ⟨?_, ?_, ?_⟩
  · intro u
    refine stands_update h ?_ hothers (fun _ hold => hold) u
    rw [call]
    exact .executing held
  · change Serialized _ _ (inside service (s.setHandler w _)) _ (update s.db)
    have hinside : inside service s w =
        some (client, remaining service client request sql (.access update next)) := by
      unfold inside
      rw [at_, call]
      rfl
    rw [inside_setHandler, call]
    exact h.serialized.access hinside rfl
  · exact h.counted.keep (fun _ heq => by rw [at_] at heq; cases heq) (fun _ heq => by cases heq)

theorem Serves.release (h : Serves service db s) (howned : Owned s.runtime place)
    {execution : Execution} (call : s.runtime.callback w = .handling client)
    (at_ : s.handler w = .executing request sql (.done execution))
    (step : RuntimeStep s.runtime (.pool (.callback w)) runtime)
    (lock : LockStep s.locks (.release w (concurrencyLockModeFromSql (some sql.bytes)))
      runtime.pool.lockManager) :
    Serves service db (((s.setRuntime runtime).setHandler w
      (.answering (service.executed client request sql execution))).took client
      (service.executed client request sql execution)) := by
  obtain ⟨hcallback, hlog⟩ := callback_event step
  have hhandled := handled_of howned call
  have hothers : ∀ u, u ≠ w → LockFrame s.locks runtime.pool.lockManager u :=
    fun _ hu => lockFrame_other lock hu
  refine ⟨?_, ?_, ?_⟩
  · intro u
    change Stands _ _ _ u (runtime.callback u) (Function.update s.handler w _ u)
    rw [hcallback]
    refine stands_update h ?_ hothers
      (fun _ hold => List.mem_append_left _ hold) u
    rw [call]
    exact .answering (List.mem_append_right _ (List.mem_singleton.mpr rfl))
  · have hinside : inside service s w =
        some (client, remaining service client request sql (.done execution)) := by
      unfold inside
      rw [at_, call]
      rfl
    have hsame : inside service (s.setRuntime runtime) = inside service s := by
      funext u
      change insideOf service (s.handler u) (runtime.callback u) = _
      rw [hcallback]
      rfl
    change Serialized _ _ (inside service ((s.setRuntime runtime).setHandler w _)) _ s.db
    rw [inside_setHandler, hsame]
    exact h.serialized.leave hinside rfl
  · change Counted runtime.callback (Function.update s.handler w _) runtime.log (s.history ++ _)
    rw [hcallback, hlog]
    exact h.counted.took call hhandled.handled hhandled.open_ hhandled.own
      (fun _ heq => by rw [at_] at heq; cases heq)

theorem Serves.close (h : Serves service db s) (at_ : s.handler w = .answering effects)
    (step : RuntimeStep s.runtime (.close w) runtime) :
    Serves service db ((s.setRuntime runtime).setHandler w .idle) := by
  cases step with
  | @close _ client call =>
    refine ⟨?_, ?_, ?_⟩
    · intro u
      change Stands _ _ _ u (Function.update s.runtime.callback w _ u)
        (Function.update s.handler w .idle u)
      by_cases hu : u = w
      · rw [hu, Function.update_self, Function.update_self]
        exact .idle _
      · rw [Function.update_of_ne hu, Function.update_of_ne hu]
        exact h.stands u
    · have hsame : inside service (((s.setRuntime ((s.runtime.logged client [.closed]).setCallback w
          (.finished client))).setHandler w .idle)) = inside service s := by
        funext u
        change insideOf service (Function.update s.handler w .idle u)
          (Function.update s.runtime.callback w _ u) = insideOf service (s.handler u) _
        by_cases hu : u = w
        · rw [hu, Function.update_self, at_]
          rfl
        · rw [Function.update_of_ne hu, Function.update_of_ne hu]
      rw [hsame]
      exact h.serialized
    · exact h.counted.close call at_

theorem Serves.step (h : Serves service db s) (howned : Owned s.runtime place)
    {event : ServerEvent n} {s' : ServerState n capacity} (hs : ServerStep service s event s')
    (hreach : (lockSystem (Fin n) .serialAll).Reachable s'.locks) : Serves service db s' := by
  cases hs with
  | runtime beside step => exact h.besides howned beside step
  | answer call at_ result => exact h.answer howned call at_ result
  | acquire call at_ received routed step lock =>
    refine h.acquires hreach call ?_ ?_ received routed step (acquire_own lock)
      fun _ hu => lockFrame_other lock hu
    · intro _ _ _ heq
      rw [at_] at heq
      cases heq
    · intro _ heq
      rw [at_] at heq
      cases heq
  | @resume w request sql runtime at_ step lock =>
    obtain ⟨client, executor, asleep, call, received, routed, hwaits⟩ : ∃ client executor asleep,
        s.runtime.callback w = .handling client ∧ service.received client = .complete request ∧
          service.routed request = .execute executor sql ∧
          s.locks.call w = .waiting (concurrencyLockModeFromSql (some sql.bytes)) asleep := by
      have hown := h.stands w
      rw [at_] at hown
      generalize s.runtime.callback w = callback at hown
      cases hown with
      | acquiring received routed call => exact ⟨_, _, _, rfl, received, routed, call⟩
    refine h.acquires hreach call ?_ ?_ received routed step (resume_own lock hwaits)
      fun _ hu => lockFrame_other lock hu
    · intro _ _ _ heq
      rw [at_] at heq
      cases heq
    · intro _ heq
      rw [at_] at heq
      cases heq
  | wake at_ step lock => exact h.wake at_ step lock
  | access at_ => exact h.access at_
  | release call at_ step lock => exact h.release howned call at_ step lock
  | close at_ step => exact h.close at_ step

end Serving

def Executing (s : ServerState n capacity) (w : Fin n) : Prop :=
  ∃ request sql rest, s.handler w = .executing request sql rest

theorem Serves.executing {service : Service} {db : Database} {s : ServerState n capacity}
    (h : Serves service db s) {w : Fin n} : Executing s w ↔ inside service s w ≠ none := by
  constructor
  · intro hexecuting hnone
    obtain ⟨request, sql, rest, hstate⟩ := hexecuting
    have hstands := h.stands w
    unfold inside at hnone
    rw [hstate] at hstands hnone
    generalize s.runtime.callback w = callback at hstands hnone
    cases hstands with
    | executing => cases hnone
  · intro hinside
    by_contra hnot
    apply hinside
    apply insideOf_none
    intro request sql rest hstate
    exact hnot ⟨request, sql, rest, hstate⟩

end DbApi.Proofs.Serializability
