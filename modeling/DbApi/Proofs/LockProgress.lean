import DbApi.Proofs.MutualExclusion

namespace DbApi.Proofs.LockProgress
open Library Concurrency MutualExclusion

variable {T : Type} {policy : ConcurrencyLockPolicy} {s s' : LockState T} {t : T}
variable {mode requested : ConcurrencyLockMode} {event : LockEvent T}

/-- The thread is in the wait of an acquire and does not sleep. -/
def Runnable (s : LockState T) (t : T) : Prop := ∃ requested, s.call t = .waiting requested false

/-- The thread waits to write and does not sleep. -/
def WriterRuns (s : LockState T) (t : T) : Prop :=
  ∃ requested, s.call t = .waiting requested false ∧ s.effective requested = .write

def Free (manager : ConcurrencyLockManager) : Prop :=
  manager.writerActive = false ∧ manager.activeReaders = 0

/-- While the lock is free, somebody who waits for it has been woken. -/
structure Awake (s : LockState T) : Prop where
  writers : Free s.manager → 0 < s.manager.waitingWriters → ∃ t, WriterRuns s t
  readers : Free s.manager → s.manager.waitingWriters = 0 → ∀ t, ¬ s.Asleep .read t

theorem Awake.of_busy (h : ¬ Free s.manager) : Awake s :=
  ⟨fun hfree => absurd hfree h, fun hfree => absurd hfree h⟩

theorem awake_init : Awake (.init policy : LockState T) := by
  refine ⟨fun _ h => absurd h (lt_irrefl 0), ?_⟩
  rintro - - t ⟨requested, hcall, -⟩
  cases hcall

section Turns

variable [DecidableEq T]

/-- Only a writer that does not sleep can be missed from the runnable writers. -/
theorem WriterRuns.update {u : T} (h : WriterRuns s u) {state : CallState}
    (ht : ¬ WriterRuns s t) :
    WriterRuns { s with call := Function.update s.call t state } u := by
  obtain ⟨requested, hcall, hwrite⟩ := h
  refine ⟨requested, ?_, hwrite⟩
  change Function.update s.call t state u = _
  rw [Function.update_of_ne, hcall]
  rintro rfl
  exact ht ⟨requested, hcall, hwrite⟩

theorem mustWait_free {manager : ConcurrencyLockManager} (h : Free manager) :
    (manager.mustWait .read = true ↔ 0 < manager.waitingWriters) ∧
      manager.mustWait .write = false := by
  obtain ⟨hwriter, hreaders⟩ := h
  simp [ConcurrencyLockManager.mustWait, hwriter, hreaders]

/-- Who comes in has the lock. -/
theorem enter_busy {manager : ConcurrencyLockManager} (hnonneg : 0 ≤ manager.activeReaders)
    (hmode : mode ≠ .none) : ¬ Free (manager.enter mode) := by
  rintro ⟨hwriter, hreaders⟩
  cases mode with
  | none => exact hmode rfl
  | read =>
    change manager.activeReaders + 1 = 0 at hreaders
    omega
  | write => cases hwriter

/-- A turn of the loop, by a thread that stands before it and is a writer only if it
waits to write. -/
theorem Awake.test (h : Awake s) (hnonneg : 0 ≤ s.manager.activeReaders)
    (ht : WriterRuns s t → s.effective mode = .write) : Awake (s.test t mode) := by
  rcases test_cases s t mode with ⟨hwait, htest⟩ | ⟨hgo, htest⟩
  · rw [htest]
    by_cases hfree : Free s.manager
    · have hread : s.effective mode = .read := by
        cases heff : s.effective mode with
        | none =>
          rw [heff] at hwait
          cases hwait
        | read => rfl
        | write =>
          rw [heff, (mustWait_free hfree).2] at hwait
          cases hwait
      rw [hread] at hwait ht
      have hwaiting := (mustWait_free hfree).1.mp hwait
      refine ⟨fun _ _ => ?_, fun _ hzero => absurd hzero hwaiting.ne'⟩
      obtain ⟨u, hu⟩ := h.writers hfree hwaiting
      exact ⟨u, hu.update fun hruns => by cases ht hruns⟩
    · exact .of_busy hfree
  · rw [htest]
    by_cases hmode : s.effective mode = .none
    · -- A request for no lock leaves the manager as it is.
      have hmanager : s.manager.enter (s.effective mode) = s.manager := by rw [hmode]; rfl
      rw [hmanager]
      refine ⟨fun hfree hwaiting => ?_, fun hfree hzero u hu => ?_⟩
      · obtain ⟨u, hu⟩ := h.writers hfree hwaiting
        refine ⟨u, hu.update fun hruns => ?_⟩
        rw [hmode] at ht
        cases ht hruns
      · obtain ⟨requested, hcall, hread⟩ := hu
        refine h.readers hfree hzero u ⟨requested, ?_, hread⟩
        by_cases he : u = t
        · subst he
          change Function.update s.call u .outside u = _ at hcall
          rw [Function.update_self] at hcall
          cases hcall
        · rwa [← Function.update_of_ne he .outside s.call]
    · exact .of_busy (enter_busy hnonneg hmode)

theorem arrive_manager (hmode : s.effective mode ≠ .write) :
    (s.arrive t mode).manager = s.manager := by
  change s.manager.arrive (s.effective mode) = s.manager
  cases heff : s.effective mode with
  | none => rfl
  | read => rfl
  | write => exact absurd heff hmode

theorem effective_arrive (requested : ConcurrencyLockMode) :
    (s.arrive t mode).effective requested = s.effective requested := by
  unfold LockState.effective
  rw [policy_arrive]

theorem Awake.arrive (h : Awake s) (hnonneg : 0 ≤ s.manager.waitingWriters)
    (hc : s.call t = .outside) (mode : ConcurrencyLockMode) : Awake (s.arrive t mode) := by
  by_cases hmode : s.effective mode = .write
  · refine ⟨fun _ _ => ?_, fun _ hzero => ?_⟩
    · refine ⟨t, mode, ?_, (effective_arrive mode).trans hmode⟩
      exact Function.update_self ..
    · change (s.manager.arrive (s.effective mode)).waitingWriters = 0 at hzero
      rw [hmode] at hzero
      change s.manager.waitingWriters + 1 = 0 at hzero
      omega
  · have hmanager := arrive_manager (t := t) hmode
    refine ⟨fun hfree hwaiting => ?_, fun hfree hzero u hu => ?_⟩
    · rw [hmanager] at hfree hwaiting
      obtain ⟨u, requested, hcall, hwrite⟩ := h.writers hfree hwaiting
      refine ⟨u, requested, ?_, (effective_arrive requested).trans hwrite⟩
      change Function.update s.call t _ u = _
      rw [Function.update_of_ne, hcall]
      rintro rfl
      rw [hc] at hcall
      cases hcall
    · rw [hmanager] at hfree hzero
      obtain ⟨requested, hcall, hread⟩ := hu
      refine h.readers hfree hzero u ⟨requested, ?_, (effective_arrive requested).symm.trans hread⟩
      change Function.update s.call t _ u = _ at hcall
      by_cases he : u = t
      · subst he
        rw [Function.update_self] at hcall
        cases hcall
      · rwa [Function.update_of_ne he] at hcall

theorem arrive_runs (h : WriterRuns (s.arrive t mode) t) :
    (s.arrive t mode).effective mode = .write := by
  obtain ⟨requested, hcall, hwrite⟩ := h
  change Function.update s.call t _ t = _ at hcall
  rw [Function.update_self] at hcall
  cases hcall
  exact hwrite

theorem Awake.wake (h : Awake s) (hc : s.call t = .waiting mode true) :
    Awake { s with call := Function.update s.call t (.waiting mode false) } := by
  refine ⟨fun hfree hwaiting => ?_, fun hfree hzero u hu => ?_⟩
  · obtain ⟨u, hu⟩ := h.writers hfree hwaiting
    refine ⟨u, hu.update ?_⟩
    rintro ⟨requested, hcall, -⟩
    rw [hc] at hcall
    cases hcall
  · obtain ⟨requested, hcall, hread⟩ := hu
    refine h.readers hfree hzero u ⟨requested, ?_, hread⟩
    change Function.update s.call t _ u = _ at hcall
    by_cases he : u = t
    · subst he
      rw [Function.update_self] at hcall
      cases hcall
    · rwa [Function.update_of_ne he] at hcall

end Turns

/-- A woken thread does not sleep, and one that sleeps was not woken. -/
theorem awaken_call {woken : T → Bool} {u : T} {asleep : Bool} :
    (s.awaken woken).call u = .waiting requested asleep ↔
      ∃ before, s.call u = .waiting requested before ∧ asleep = (before && !woken u) := by
  unfold LockState.awaken
  dsimp only
  cases s.call u with
  | outside => exact ⟨(fun h => by cases h), fun h => by rcases h with ⟨_, h, _⟩; cases h⟩
  | waiting mode before =>
    simp only [CallState.waiting.injEq]
    constructor
    · rintro ⟨rfl, rfl⟩
      exact ⟨before, ⟨rfl, rfl⟩, rfl⟩
    · rintro ⟨_, ⟨rfl, rfl⟩, rfl⟩
      exact ⟨rfl, rfl⟩

/-- The wake-up that a release ends with, when it leaves the lock free. -/
theorem awake_awaken {woken : T → Bool}
    (hwaits : 0 < s.manager.waitingWriters → ∃ t, WaitsToWrite s t)
    (hwakes : Free s.manager →
      s.Wakes woken (if 0 < s.manager.waitingWriters then .signalWriters else .broadcastReaders)) :
    Awake (s.awaken woken) := by
  refine ⟨fun hfree hwaiting => ?_, fun hfree hzero u hu => ?_⟩
  · change 0 < s.manager.waitingWriters at hwaiting
    have hsignals := hwakes hfree
    rw [if_pos hwaiting] at hsignals
    obtain ⟨u, requested, asleep, hcall, hwrite⟩ := hwaits hwaiting
    cases asleep with
    | false => exact ⟨u, requested, awaken_call.mpr ⟨false, hcall, rfl⟩, hwrite⟩
    | true =>
      obtain ⟨v, hv⟩ := hsignals.2 ⟨u, requested, hcall, hwrite⟩
      obtain ⟨other, hother, hwrite⟩ := hsignals.1 v hv
      exact ⟨v, other, awaken_call.mpr ⟨true, hother, by rw [hv]; rfl⟩, hwrite⟩
  · change s.manager.waitingWriters = 0 at hzero
    have hbroadcasts := hwakes hfree
    rw [if_neg (by omega)] at hbroadcasts
    obtain ⟨requested, hcall, hread⟩ := hu
    obtain ⟨before, hbefore, hsleeps⟩ := awaken_call.mp hcall
    cases before with
    | false => cases hsleeps
    | true =>
      rw [(hbroadcasts u).mpr ⟨requested, hbefore, hread⟩] at hsleeps
      cases hsleeps

theorem Awake.awaken (h : Awake s) (woken : T → Bool) : Awake (s.awaken woken) := by
  refine ⟨fun hfree hwaiting => ?_, fun hfree hzero u hu => ?_⟩
  · obtain ⟨u, requested, hcall, hwrite⟩ := h.writers hfree hwaiting
    exact ⟨u, requested, awaken_call.mpr ⟨false, hcall, rfl⟩, hwrite⟩
  · obtain ⟨requested, hcall, hread⟩ := hu
    obtain ⟨before, hbefore, hsleeps⟩ := awaken_call.mp hcall
    cases before with
    | false => cases hsleeps
    | true => exact h.readers hfree hzero u ⟨requested, hbefore, hread⟩

section Releases

variable [DecidableEq T]

theorem effective_release (requested : ConcurrencyLockMode) :
    (s.release t mode).effective requested = s.effective requested := by
  unfold LockState.effective
  rw [policy_release]

theorem wakes_release {woken : T → Bool} {wakeup : Wakeup} :
    (s.release t mode).Wakes woken wakeup ↔ s.Wakes woken wakeup := by
  have hasleep : ∀ m, (s.release t mode).Asleep m = s.Asleep m := by
    intro m
    funext u
    unfold LockState.Asleep
    simp only [effective_release]
    rfl
  cases wakeup with
  | nobody => exact Iff.rfl
  | signalWriters =>
    change Signals ((s.release t mode).Asleep .write) woken ↔ _
    rw [hasleep]
    rfl
  | broadcastReaders =>
    change Broadcasts ((s.release t mode).Asleep .read) woken ↔ _
    rw [hasleep]
    rfl

/-- A wait is for a lock. -/
def Requests (s : LockState T) : Prop :=
  ∀ t requested asleep, s.call t = .waiting requested asleep → s.effective requested ≠ .none

theorem test_requests (h : ∀ u, u ≠ t → ∀ requested asleep, s.call u = .waiting requested asleep →
      s.effective requested ≠ .none) : Requests (s.test t mode) := by
  intro u requested asleep hcall
  have heff : (s.test t mode).effective requested = s.effective requested := by
    unfold LockState.effective
    rw [policy_test]
  rw [heff]
  by_cases hu : u = t
  · subst hu
    rcases test_cases s u mode with ⟨hwait, htest⟩ | ⟨-, htest⟩
    · rw [htest] at hcall
      change Function.update s.call u _ u = _ at hcall
      rw [Function.update_self] at hcall
      cases hcall
      intro hnone
      rw [hnone] at hwait
      cases hwait
    · rw [htest] at hcall
      change Function.update s.call u _ u = _ at hcall
      rw [Function.update_self] at hcall
      cases hcall
  · rw [(test_other hu mode).1] at hcall
    exact h u hu requested asleep hcall

theorem Requests.step (h : Requests s) (hs : LockStep s event s') : Requests s' := by
  cases hs with
  | @acquire t mode call =>
    refine test_requests fun u hu requested asleep hcall => ?_
    rw [effective_arrive]
    refine h u requested asleep ?_
    rwa [← Function.update_of_ne hu (.waiting mode false) s.call]
  | @wake t mode call =>
    intro u requested asleep hcall
    by_cases hu : u = t
    · subst hu
      change Function.update s.call u _ u = _ at hcall
      rw [Function.update_self] at hcall
      cases hcall
      exact h u mode true call
    · refine h u requested asleep ?_
      rwa [← Function.update_of_ne hu (.waiting mode false) s.call]
  | resume call => exact test_requests fun u _ => h u
  | @release t mode woken call held wakes =>
    intro u requested asleep hcall
    obtain ⟨before, hbefore, -⟩ := awaken_call.mp hcall
    change (s.release t mode).effective requested ≠ .none
    rw [effective_release]
    exact h u requested before hbefore

theorem requests_reachable (h : (lockSystem T policy).Reachable s) : Requests s := by
  refine h.invariant (P := Requests) ?_ ?_
  · rintro _ rfl
    exact fun _ _ _ hcall => by cases hcall
  · rintro s event s' - hrequests hs
    exact hrequests.step hs

end Releases

section Threads

variable [Fintype T]

theorem waits_to_write (h : Counts s) (hwaiting : 0 < s.manager.waitingWriters) :
    ∃ t, WaitsToWrite s t := by
  have hsum := h.waitingWriters
  have hne : ∑ u, waits s u ≠ 0 := by omega
  obtain ⟨t, -, ht⟩ := Finset.exists_ne_zero_of_sum_ne_zero hne
  exact ⟨t, waits_iff.mpr (Nat.pos_of_ne_zero ht)⟩

variable [DecidableEq T]

/-- A manager that is left free by a release wakes up the ones it should. -/
theorem leave_wakeup {manager : ConcurrencyLockManager} (hmode : mode ≠ .none)
    (hfree : Free (manager.leave mode)) :
    (manager.leave mode).wakeup mode =
      if 0 < (manager.leave mode).waitingWriters then .signalWriters else .broadcastReaders := by
  cases mode with
  | none => exact absurd rfl hmode
  | write => rfl
  | read =>
    rw [ConcurrencyLockManager.wakeup, if_pos hfree.2]

theorem Awake.release {woken : T → Bool} (h : Awake s) (hcounts : Counts s)
    (held : mode ∈ s.held t)
    (hwakes : s.Wakes woken ((s.manager.leave (s.effective mode)).wakeup (s.effective mode))) :
    Awake ((s.release t mode).awaken woken) := by
  have hmanager : (s.release t mode).manager = s.manager.leave (s.effective mode) := rfl
  by_cases hmode : s.effective mode = .none
  · have hsame : (s.release t mode).manager = s.manager := by rw [hmanager, hmode]; rfl
    refine Awake.awaken ⟨fun hfree hwaiting => ?_, fun hfree hzero u hu => ?_⟩ woken
    · rw [hsame] at hfree hwaiting
      obtain ⟨u, requested, hcall, hwrite⟩ := h.writers hfree hwaiting
      exact ⟨u, requested, hcall, (effective_release requested).trans hwrite⟩
    · rw [hsame] at hfree hzero
      obtain ⟨requested, hcall, hread⟩ := hu
      exact h.readers hfree hzero u
        ⟨requested, hcall, (effective_release requested).symm.trans hread⟩
  · refine awake_awaken (waits_to_write (hcounts.release held)) fun hfree => wakes_release.mpr ?_
    rw [hmanager] at hfree ⊢
    rwa [← leave_wakeup hmode hfree]

theorem Awake.step (h : Awake s) (hcounts : Counts s) (hs : LockStep s event s') : Awake s' := by
  have hreaders : 0 ≤ s.manager.activeReaders := by
    rw [hcounts.activeReaders]
    exact Int.natCast_nonneg _
  have hwriters : 0 ≤ s.manager.waitingWriters := by
    rw [hcounts.waitingWriters]
    exact Int.natCast_nonneg _
  cases hs with
  | @acquire t mode call =>
    refine (h.arrive hwriters call mode).test ?_ arrive_runs
    rw [(hcounts.arrive call mode).activeReaders]
    exact Int.natCast_nonneg _
  | wake call => exact h.wake call
  | @resume t mode call =>
    refine h.test hreaders ?_
    rintro ⟨requested, hcall, hwrite⟩
    rw [call] at hcall
    cases hcall
    exact hwrite
  | release call held wakes => exact h.release hcounts held wakes

theorem awake_reachable (h : (lockSystem T policy).Reachable s) : Awake s := by
  refine h.invariant (P := Awake) ?_ ?_
  · rintro _ rfl
    exact awake_init
  · rintro s event s' hreach hawake hs
    exact hawake.step (counts_reachable hreach).1 hs

/-- A free lock is on its way to somebody: to a writer if one waits, else to every reader
in its wait; so nobody waits for it alone. -/
theorem no_lost_wakeup (h : (lockSystem T policy).Reachable s) (hfree : Free s.manager) :
    (0 < s.manager.waitingWriters → ∃ t, WriterRuns s t) ∧
    (s.manager.waitingWriters = 0 → ∀ t, ¬ s.Asleep .read t) ∧
    ((∀ t, s.call t = .outside) ∨ ∃ t, Runnable s t) := by
  have hawake := awake_reachable h
  have hcounts := (counts_reachable h).1
  refine ⟨hawake.writers hfree, hawake.readers hfree, ?_⟩
  by_cases hwaiting : 0 < s.manager.waitingWriters
  · obtain ⟨t, requested, hcall, -⟩ := hawake.writers hfree hwaiting
    exact .inr ⟨t, requested, hcall⟩
  · have hsum := hcounts.waitingWriters
    have hzero : s.manager.waitingWriters = 0 := by omega
    by_cases houtside : ∀ t, s.call t = .outside
    · exact .inl houtside
    · obtain ⟨t, ht⟩ := not_forall.mp houtside
      cases hcall : s.call t with
      | outside => exact absurd hcall ht
      | waiting requested asleep =>
        cases asleep with
        | false => exact .inr ⟨t, requested, hcall⟩
        | true =>
          exfalso
          cases heff : s.effective requested with
          | none => exact requests_reachable h t requested true hcall heff
          | read => exact hawake.readers hfree hzero t ⟨requested, hcall, heff⟩
          | write =>
            have hpos := waits_iff.mp ⟨requested, true, hcall, heff⟩
            have hle := share_le_sum (waits s) t
            omega

end Threads

/-- The writer, thread `false`, is inside, and the reader sleeps. -/
def contended : LockState Bool :=
  ((LockState.init .readersParallel).acquire false .write).acquire true .read

def handed : LockState Bool := (contended.release false .write).awaken id

theorem contended_asleep (t : Bool) : id t = true ↔ contended.Asleep .read t := by
  cases t with
  | false =>
    constructor
    · intro h
      cases h
    · rintro ⟨requested, hcall, -⟩
      cases hcall
  | true => exact ⟨fun _ => ⟨.read, rfl, rfl⟩, fun _ => rfl⟩

theorem no_lost_wakeup_handed :
    (0 < handed.manager.waitingWriters → ∃ t, WriterRuns handed t) ∧
    (handed.manager.waitingWriters = 0 → ∀ t, ¬ handed.Asleep .read t) ∧
    ((∀ t, handed.call t = .outside) ∨ ∃ t, Runnable handed t) :=
  have hstart : (lockSystem Bool .readersParallel).Reachable (.init .readersParallel) := .start rfl
  have hwrite := hstart.next (@LockStep.acquire _ _ _ false .write rfl)
  have hread := hwrite.next (@LockStep.acquire _ _ _ true .read rfl)
  have hrelease : LockStep contended (.release false .write) handed :=
    .release rfl (List.mem_cons_self ..) contended_asleep
  no_lost_wakeup (hread.next hrelease) ⟨rfl, rfl⟩

end DbApi.Proofs.LockProgress
