import DbApi.Concurrency.QueueThreads

namespace DbApi.Proofs.QueueProgress
open Library Concurrency

variable {T : Type} {capacity : Nat} {s s' : QueueState T capacity} {t u : T}
variable {event : QueueEvent T} {condition other : QueueCondition} {woken : T → Bool}
variable {call : QueueCall} {queue : ConcurrencyJobQueue capacity} {job : ConcurrencyJob}

section Waits

theorem on_signal : call.signal.on condition = (call.on condition).map Wait.signal := by
  cases condition with
  | notEmpty => cases call <;> rfl
  | notFull => cases call <;> rfl

theorem on_one (h : call.on condition ≠ none) (hne : other ≠ condition) : call.on other = none := by
  cases condition with
  | notEmpty =>
    cases other with
    | notEmpty => contradiction
    | notFull =>
      cases call with
      | popping wait => rfl
      | outside => rfl
      | pushing job wait => exact absurd rfl h
      | cancelling => rfl
  | notFull =>
    cases other with
    | notFull => contradiction
    | notEmpty =>
      cases call with
      | pushing job wait => rfl
      | outside => rfl
      | popping wait => exact absurd rfl h
      | cancelling => rfl

theorem on_wake (call : QueueCall) (condition : QueueCondition) :
    call.wake.on condition ≠ some .asleep := by
  cases condition with
  | notEmpty =>
    cases call with
    | outside => exact fun h => by cases h
    | pushing job wait => exact fun h => by cases h
    | popping wait => exact fun h => by cases h
    | cancelling => exact fun h => by cases h
  | notFull =>
    cases call with
    | outside => exact fun h => by cases h
    | pushing job wait => exact fun h => by cases h
    | popping wait => exact fun h => by cases h
    | cancelling => exact fun h => by cases h

theorem waits_signal (s : QueueState T capacity) (woken : T → Bool) (condition : QueueCondition) :
    (s.signal woken).waits condition = signal (s.waits condition) woken := by
  funext t
  change (if woken t then (s.call t).signal else s.call t).on condition =
    if woken t then ((s.call t).on condition).map Wait.signal else (s.call t).on condition
  split
  · exact on_signal
  · rfl

/-- A signal on one condition variable leaves the other one alone. -/
theorem waits_signal_other (hw : Signals (s.Asleep condition) woken) (hne : other ≠ condition) :
    (s.signal woken).waits other = s.waits other := by
  rw [waits_signal]
  funext t
  unfold signal
  cases hwoken : woken t with
  | false => rfl
  | true =>
    have hasleep : (s.call t).on condition = some .asleep := hw.1 t hwoken
    have hnone : s.waits other t = none := on_one (by rw [hasleep]; exact Option.some_ne_none _) hne
    rw [hnone]
    rfl

@[simp] theorem on_outside (condition : QueueCondition) :
    QueueCall.outside.on condition = none := by
  cases condition <;> rfl

@[simp] theorem on_cancelling (condition : QueueCondition) :
    QueueCall.cancelling.on condition = none := by
  cases condition <;> rfl

theorem waits_of_outside (h : s.call t = .outside) (condition : QueueCondition) :
    s.waits condition t = none := by
  unfold QueueState.waits
  rw [h, on_outside]

theorem waits_of_atPush (h : (s.call t).AtPush job) : s.waits .notEmpty t = none := by
  unfold QueueState.waits
  cases hc : s.call t with
  | outside => rfl
  | pushing own wait => rfl
  | popping wait =>
    rw [hc] at h
    exact h.elim
  | cancelling => rfl

theorem waits_of_atPop (h : (s.call t).AtPop) : s.waits .notFull t = none := by
  unfold QueueState.waits
  cases hc : s.call t with
  | outside => rfl
  | pushing own wait =>
    rw [hc] at h
    exact h.elim
  | popping wait => rfl
  | cancelling => rfl

theorem waits_of_atCancel (h : (s.call t).AtCancel) (condition : QueueCondition) :
    s.waits condition t = none := by
  unfold QueueState.waits
  cases hc : s.call t with
  | outside => exact on_outside condition
  | pushing own wait =>
    rw [hc] at h
    exact h.elim
  | popping wait =>
    rw [hc] at h
    exact h.elim
  | cancelling => exact on_cancelling condition

variable [DecidableEq T]

theorem waits_go (s : QueueState T capacity) (t : T) (call : QueueCall)
    (condition : QueueCondition) :
    (s.go t call).waits condition = Function.update (s.waits condition) t (call.on condition) := by
  funext u
  unfold QueueState.waits QueueState.go
  by_cases hu : u = t
  · subst hu
    simp only [Function.update_self]
  · simp only [Function.update_of_ne hu]

end Waits

/-- How much there is to wait for. -/
def supply (queue : ConcurrencyJobQueue capacity) : QueueCondition → Nat
  | .notEmpty => queue.ring.size
  | .notFull => capacity - queue.ring.size

theorem supply_accept {queue' : ConcurrencyJobQueue capacity}
    (h : queue'.jobs = queue.jobs ++ [job]) :
    supply queue' .notEmpty = supply queue .notEmpty + 1 ∧
      supply queue' .notFull + 1 = supply queue .notFull := by
  have hlength := congrArg List.length h
  rw [List.length_append, List.length_singleton, ConcurrencyJobQueue.length_jobs,
    ConcurrencyJobQueue.length_jobs] at hlength
  have hle := queue'.ring.size_le
  simp only [supply]
  omega

theorem supply_remove {queue' : ConcurrencyJobQueue capacity}
    (h : queue.jobs = job :: queue'.jobs) :
    supply queue' .notEmpty + 1 = supply queue .notEmpty ∧
      supply queue' .notFull = supply queue .notFull + 1 := by
  have hlength := congrArg List.length h
  rw [List.length_cons, ConcurrencyJobQueue.length_jobs, ConcurrencyJobQueue.length_jobs] at hlength
  have hle := queue.ring.size_le
  simp only [supply]
  omega

/-- Who waits to push has a job that can run. -/
def Runs (s : QueueState T capacity) : Prop :=
  ∀ t job wait, s.call t = .pushing job wait → job.hasRun = true

theorem Runs.signal (h : Runs s) (woken : T → Bool) : Runs (s.signal woken) := by
  intro t job wait hcall
  change (if woken t then (s.call t).signal else s.call t) = _ at hcall
  split at hcall
  · cases hc : s.call t with
    | pushing own before =>
      rw [hc] at hcall
      cases hcall
      exact h t job before hc
    | outside =>
      rw [hc] at hcall
      cases hcall
    | popping before =>
      rw [hc] at hcall
      cases hcall
    | cancelling =>
      rw [hc] at hcall
      cases hcall
  · exact h t job wait hcall

theorem Runs.go [DecidableEq T] (h : Runs s)
    (hcall : ∀ job wait, call = .pushing job wait → job.hasRun = true) : Runs (s.go t call) := by
  intro u job wait hu
  change Function.update s.call t call u = _ at hu
  by_cases he : u = t
  · subst he
    rw [Function.update_self] at hu
    exact hcall job wait hu
  · rw [Function.update_of_ne he] at hu
    exact h u job wait hu

theorem push_wait_runs (h : queue.push job = .wait) : job.hasRun = true := by
  unfold ConcurrencyJobQueue.push at h
  split at h
  · cases h
  · rename_i hasRun
    exact Bool.eq_true_of_not_eq_false hasRun

theorem push_refuse_cause {status : ConcurrencyJobQueueStatus} (h : queue.push job = .refuse status) :
    job.hasRun = false ∨ queue.closed = true := by
  unfold ConcurrencyJobQueue.push at h
  split at h
  · rename_i hasRun
    exact .inl hasRun
  · split at h
    · cases h
    · split at h
      · rename_i closed
        exact .inr closed
      · cases h

/-- A push with a job that cannot run has not waited. -/
theorem Runs.outside (h : Runs s) (call : (s.call t).AtPush job) (hjob : job.hasRun = false) :
    s.call t = .outside := by
  cases hc : s.call t with
  | outside => rfl
  | pushing own wait =>
    rw [hc] at call
    have hrun := h t own wait hc
    rw [call.1, hjob] at hrun
    cases hrun
  | popping wait =>
    rw [hc] at call
    exact call.elim
  | cancelling =>
    rw [hc] at call
    exact call.elim

theorem Runs.step [DecidableEq T] (h : Runs s) (hs : QueueStep s event s') : Runs s' := by
  cases hs with
  | pushRefused call push => exact h.go fun _ _ hc => by cases hc
  | pushWaits call push =>
    refine h.go fun _ _ hc => ?_
    cases hc
    exact push_wait_runs push
  | @pushAccepted t job queue woken call push wakes =>
    exact Runs.signal (s := (s.go t .outside).setQueue queue)
      (h.go (t := t) fun _ _ hc => by cases hc) woken
  | tryPushRefused call push => exact h.go fun _ _ hc => by cases hc
  | @tryPushAccepted t job queue woken call push wakes =>
    exact Runs.signal (s := (s.go t .outside).setQueue queue)
      (h.go (t := t) fun _ _ hc => by cases hc) woken
  | popWaits call pop => exact h.go fun _ _ hc => by cases hc
  | popClosed call pop => exact h.go fun _ _ hc => by cases hc
  | @popJob t job queue woken call pop wakes =>
    exact Runs.signal (s := (s.go t .outside).setQueue queue)
      (h.go (t := t) fun _ _ hc => by cases hc) woken
  | close call => exact Runs.signal (s := s.setQueue s.queue.close) h _
  | @cancelNext t job queue woken call pop wakes =>
    exact Runs.signal (s := (s.go t .cancelling).setQueue queue)
      (h.go (t := t) fun _ _ hc => by cases hc) woken
  | cancelDone call pop => exact h.go fun _ _ hc => by cases hc
  | @wake t condition call =>
    refine h.go fun job wait hc => ?_
    cases hbefore : s.call t with
    | pushing own before =>
      rw [hbefore] at hc
      cases hc
      exact h t _ before hbefore
    | outside =>
      rw [hbefore] at hc
      cases hc
    | popping before =>
      rw [hbefore] at hc
      cases hc
    | cancelling =>
      rw [hbefore] at hc
      cases hc

theorem init_waits (hc : 0 < capacity) (condition : QueueCondition) (t : T) :
    (QueueState.init T hc).waits condition t = none := by
  cases condition with
  | notEmpty => rfl
  | notFull => rfl

theorem asleep_go [DecidableEq T] (h : (s.go t call).Asleep condition u) (hnew : call.on condition ≠ some .asleep) :
    s.Asleep condition u := by
  unfold QueueState.Asleep at h
  rw [waits_go] at h
  by_cases hu : u = t
  · subst hu
    rw [Function.update_self] at h
    exact absurd h hnew
  · rwa [Function.update_of_ne hu] at h

section Threads

variable [Fintype T]

/-- The sleepers of an open queue have been answered, and a closed one has none. -/
structure Answered (s : QueueState T capacity) : Prop where
  served : ∀ condition, Served (supply s.queue condition) (s.waits condition)
  closed : s.queue.closed = true → ∀ condition t, ¬ s.Asleep condition t

theorem answered_init (hc : 0 < capacity) : Answered (.init T hc) where
  served condition := .of_nobody fun t h => by
    rw [init_waits] at h
    cases h
  closed h := by cases h

theorem Answered.of_nobody (h : ∀ condition t, ¬ s.Asleep condition t) : Answered s where
  served condition := .of_nobody (h condition)
  closed _ := h

theorem answered_close (s : QueueState T capacity) :
    Answered ((s.setQueue s.queue.close).signal fun _ => true) := by
  refine .of_nobody fun condition u hu => ?_
  unfold QueueState.Asleep at hu
  rw [waits_signal, signal_asleep] at hu
  cases hu.2

variable [DecidableEq T]

/-- A thread moves on without a job, and has no signal that another one needs. -/
theorem Answered.go (h : Answered s) (hnew : ∀ condition, call.on condition ≠ some .asleep)
    (hidle : s.queue.closed = true ∨ ∀ condition, s.waits condition t ≠ some .signalled) :
    Answered (s.go t call) := by
  rcases hidle with hclosed | hidle
  · exact .of_nobody fun condition u hu => h.closed hclosed condition u (asleep_go hu (hnew _))
  · refine ⟨fun condition => ?_, fun hclosed condition u hu =>
      h.closed hclosed condition u (asleep_go hu (hnew _))⟩
    rw [waits_go]
    refine (h.served condition).leave (hnew condition) ?_
    rw [if_neg (hidle condition)]
    exact Nat.le_refl _

/-- A thread goes to sleep where there is nothing to wait for. -/
theorem Answered.sleep (h : Answered s) (hnew : call.on condition = some .asleep)
    (hzero : supply s.queue condition = 0) (hopen : s.queue.closed = false)
    (hidle : ∀ other, other ≠ condition → s.waits other t ≠ some .signalled) :
    Answered (s.go t call) := by
  refine ⟨fun other => ?_, fun hclosed => ?_⟩
  · by_cases hother : other = condition
    · subst hother
      change Served (supply s.queue other) _
      rw [hzero]
      exact .none_left _
    · have hnone : call.on other = none := on_one (by rw [hnew]; exact Option.some_ne_none _) hother
      rw [waits_go]
      refine (h.served other).leave (by rw [hnone]; exact (Option.some_ne_none _).symm) ?_
      rw [if_neg (hidle other hother)]
      exact Nat.le_refl _
  · change s.queue.closed = true at hclosed
    rw [hopen] at hclosed
    cases hclosed

/-- A thread takes one from what `taken` is about and signals that there is one more
of what `given` is about. -/
theorem Answered.transfer (h : Answered s) {taken given : QueueCondition} (hne : taken ≠ given)
    (hidle : s.waits given t = none) (hnew : ∀ condition, call.on condition = none)
    (htaken : supply queue taken + 1 = supply s.queue taken)
    (hgiven : supply queue given = supply s.queue given + 1)
    (hclosed : queue.closed = s.queue.closed) (hw : Signals (s.Asleep given) woken) :
    Answered (((s.go t call).setQueue queue).signal woken) := by
  have hawake : ∀ condition, call.on condition ≠ some .asleep := fun condition => by
    rw [hnew]
    exact (Option.some_ne_none _).symm
  have hgo : s.waits given = (s.go t call).waits given := by
    rw [waits_go, hnew, ← hidle, Function.update_eq_self]
  have hsignals : Signals (((s.go t call).setQueue queue).Asleep given) woken := by
    have hsame : ((s.go t call).setQueue queue).Asleep given = s.Asleep given := by
      funext u
      change ((s.go t call).waits given u = _) = _
      rw [← hgo]
      rfl
    rwa [hsame]
  refine ⟨fun condition => ?_, fun hq condition u hu => ?_⟩
  · change Served (supply queue condition) _
    by_cases hcondition : condition = given
    · subst hcondition
      rw [hgiven, waits_signal]
      refine Served.signal ?_ hsignals
      change Served _ ((s.go t call).waits condition)
      rw [← hgo]
      exact h.served condition
    · have htake : condition = taken := by
        cases condition <;> cases taken <;> cases given <;> first | rfl | contradiction
      subst htake
      rw [waits_signal_other hsignals hcondition]
      change Served _ ((s.go t call).waits condition)
      rw [waits_go]
      refine (h.served condition).leave (hawake condition) ?_
      split
      · exact htaken.le
      · omega
  · refine h.closed (hclosed.symm.trans hq) condition u ?_
    unfold QueueState.Asleep at hu
    rw [waits_signal, signal_asleep] at hu
    exact asleep_go hu.1 (hawake condition)

theorem Answered.accept (h : Answered s) (call : (s.call t).AtPush job)
    (hq : s.queue.closed = false ∧ queue.closed = false ∧ queue.jobs = s.queue.jobs ++ [job])
    (hw : Signals (s.Asleep .notEmpty) woken) :
    Answered (((s.go t .outside).setQueue queue).signal woken) := by
  obtain ⟨hopen, hopen', hjobs⟩ := hq
  obtain ⟨hgiven, htaken⟩ := supply_accept hjobs
  exact h.transfer (by decide) (waits_of_atPush call) on_outside htaken hgiven
    (hopen'.trans hopen.symm) hw

theorem Answered.remove {new : QueueCall} (h : Answered s) (hidle : s.waits .notFull t = none)
    (hnew : ∀ condition, new.on condition = none)
    (hq : queue.closed = s.queue.closed ∧ s.queue.jobs = job :: queue.jobs)
    (hw : Signals (s.Asleep .notFull) woken) :
    Answered (((s.go t new).setQueue queue).signal woken) := by
  obtain ⟨htaken, hgiven⟩ := supply_remove hq.2
  exact h.transfer (by decide) hidle hnew htaken hgiven hq.1 hw

theorem Answered.step (h : Answered s) (hruns : Runs s) (hs : QueueStep s event s') :
    Answered s' := by
  have houtside : ∀ condition, QueueCall.outside.on condition ≠ some .asleep := fun condition => by
    rw [on_outside]
    exact (Option.some_ne_none _).symm
  have hnone : ∀ {t condition}, s.waits condition t = none → s.waits condition t ≠ some .signalled :=
    fun hw => by
      rw [hw]
      exact (Option.some_ne_none _).symm
  cases hs with
  | pushRefused call push =>
    refine h.go houtside ?_
    rcases push_refuse_cause push with hjob | hclosed
    · exact .inr fun condition => hnone (waits_of_outside (hruns.outside call hjob) condition)
    · exact .inl hclosed
  | pushWaits call push =>
    have hzero : supply s.queue .notFull = 0 := by
      simp only [supply, ConcurrencyJobQueue.push_wait_full push, Nat.sub_self]
    refine h.sleep rfl hzero (ConcurrencyJobQueue.push_wait push) fun other hother => ?_
    cases other with
    | notEmpty => exact hnone (waits_of_atPush call)
    | notFull => contradiction
  | pushAccepted call push wakes =>
    exact h.accept call (ConcurrencyJobQueue.push_accept push) wakes
  | tryPushRefused call push =>
    exact h.go houtside (.inr fun condition => hnone (waits_of_outside call condition))
  | tryPushAccepted call push wakes =>
    refine h.accept ?_ (ConcurrencyJobQueue.tryPush_accept push) wakes
    rw [call]
    trivial
  | popWaits call pop =>
    have hzero : supply s.queue .notEmpty = 0 := ConcurrencyJobQueue.pop_wait_empty pop
    refine h.sleep rfl hzero (ConcurrencyJobQueue.pop_wait pop) fun other hother => ?_
    cases other with
    | notEmpty => contradiction
    | notFull => exact hnone (waits_of_atPop call)
  | popClosed call pop => exact h.go houtside (.inl (ConcurrencyJobQueue.pop_closed pop).1)
  | popJob call pop wakes =>
    exact h.remove (waits_of_atPop call) on_outside (ConcurrencyJobQueue.pop_job pop) wakes
  | close call => exact answered_close s
  | cancelNext call pop wakes =>
    exact h.remove (waits_of_atCancel call .notFull) on_cancelling
      (ConcurrencyJobQueue.popPending_some pop) wakes
  | cancelDone call pop =>
    exact h.go houtside (.inr fun condition => hnone (waits_of_atCancel call condition))
  | @wake t condition call =>
    refine h.go (on_wake _) (.inr fun other => ?_)
    by_cases hother : other = condition
    · subst hother
      intro hs
      cases call.symm.trans hs
    · have hasleep : (s.call t).on condition = some .asleep := call
      refine hnone (on_one ?_ hother)
      rw [hasleep]
      exact Option.some_ne_none _

/-- Whoever sleeps in a pop or a push needs no signal: those on their way have been
signalled for all that there is. -/
theorem no_lost_signal {hc : 0 < capacity} (h : (queueSystem T hc).Reachable s) :
    (0 < s.queue.ring.size → (∃ t, s.Asleep .notEmpty t) →
      s.queue.ring.size ≤ signalled (s.waits .notEmpty)) ∧
    (s.queue.closed = false → s.queue.ring.size < capacity → (∃ t, s.Asleep .notFull t) →
      capacity - s.queue.ring.size ≤ signalled (s.waits .notFull)) ∧
    (s.queue.closed = true → ∀ condition t, ¬ s.Asleep condition t) := by
  have hboth : Answered s ∧ Runs s := by
    refine h.invariant (P := fun s => Answered s ∧ Runs s) ?_ ?_
    · rintro _ rfl
      exact ⟨answered_init hc, fun _ _ _ hcall => by cases hcall⟩
    · rintro s event s' - ⟨hanswered, hruns⟩ hs
      exact ⟨hanswered.step hruns hs, hruns.step hs⟩
  have hserved := hboth.1.served
  exact ⟨fun _ => hserved .notEmpty, fun _ _ => hserved .notFull, hboth.1.closed⟩

end Threads

def queued : ConcurrencyJob := { id := 0, lockMode := .read, hasRun := true }

/-- Two threads sleep in a pop. -/
def waiting : QueueState (Fin 3) 2 :=
  ((QueueState.init (Fin 3) Nat.two_pos).go 0 (.popping .asleep)).go 1 (.popping .asleep)

/-- A push has woken one of them. -/
def pushed : QueueState (Fin 3) 2 :=
  ((waiting.go 2 .outside).setQueue
    ((ConcurrencyJobQueue.init Nat.two_pos).add queued (by decide))).signal (· == 0)

theorem no_lost_signal_pushed :
    (0 < pushed.queue.ring.size → (∃ t, pushed.Asleep .notEmpty t) →
      pushed.queue.ring.size ≤ signalled (pushed.waits .notEmpty)) ∧
    (pushed.queue.closed = false → pushed.queue.ring.size < 2 → (∃ t, pushed.Asleep .notFull t) →
      2 - pushed.queue.ring.size ≤ signalled (pushed.waits .notFull)) ∧
    (pushed.queue.closed = true → ∀ condition t, ¬ pushed.Asleep condition t) := by
  have hstart : (queueSystem (Fin 3) Nat.two_pos).Reachable (.init (Fin 3) Nat.two_pos) := .start rfl
  have hfirst := hstart.next (@QueueStep.popWaits _ _ _ _ 0 trivial rfl)
  have hsecond := hfirst.next (@QueueStep.popWaits _ _ _ _ 1 trivial rfl)
  have hpush : QueueStep waiting (.push 2 queued .ok) pushed := by
    refine .pushAccepted trivial rfl ⟨?_, fun _ => ⟨0, rfl⟩⟩
    intro t ht
    cases beq_iff_eq.mp ht
    rfl
  exact no_lost_signal (hsecond.next hpush)

end DbApi.Proofs.QueueProgress
