import DbApi.Concurrency.LockManager

namespace DbApi.Proofs.MutualExclusion
open Library Concurrency

/-- How many of the modes held come to `mode`. -/
def holdsOf (policy : ConcurrencyLockPolicy) (modes : List ConcurrencyLockMode)
    (mode : ConcurrencyLockMode) : Nat :=
  modes.countP (effectiveLockMode policy · == mode)

/-- One for a thread inside the wait of the writers. -/
def waitOf (policy : ConcurrencyLockPolicy) : CallState → Nat
  | .waiting mode _ => if effectiveLockMode policy mode = .write then 1 else 0
  | .outside => 0

variable {T : Type} {policy : ConcurrencyLockPolicy} {s : LockState T} {t : T}
variable {mode requested : ConcurrencyLockMode}

def holds (s : LockState T) (t : T) (mode : ConcurrencyLockMode) : Nat :=
  holdsOf s.manager.policy (s.held t) mode

def waits (s : LockState T) (t : T) : Nat := waitOf s.manager.policy (s.call t)

def Holds (s : LockState T) (t : T) (mode : ConcurrencyLockMode) : Prop :=
  ∃ requested ∈ s.held t, s.effective requested = mode

def WaitsToWrite (s : LockState T) (t : T) : Prop :=
  ∃ requested asleep, s.call t = .waiting requested asleep ∧ s.effective requested = .write

theorem holds_iff : Holds s t mode ↔ 0 < holds s t mode := by
  simp [Holds, holds, holdsOf, List.countP_pos_iff, LockState.effective]

theorem waits_iff : WaitsToWrite s t ↔ 0 < waits s t := by
  unfold WaitsToWrite waits LockState.effective
  cases s.call t with
  | outside => simp [waitOf]
  | waiting requested asleep =>
    by_cases he : effectiveLockMode s.manager.policy requested = .write
    · simp [waitOf, he]
    · simp [waitOf, he]

instance : Decidable (Holds s t mode) := decidable_of_iff _ holds_iff.symm

instance : Decidable (WaitsToWrite s t) := decidable_of_iff _ waits_iff.symm

theorem waits_le_one (s : LockState T) (t : T) : waits s t ≤ 1 := by
  unfold waits
  cases s.call t with
  | outside => simp [waitOf]
  | waiting requested asleep =>
    simp only [waitOf]
    split
    · exact Nat.le_refl 1
    · exact Nat.zero_le 1

theorem holdsOf_cons (requested mode : ConcurrencyLockMode) (modes : List ConcurrencyLockMode) :
    holdsOf policy (requested :: modes) mode =
      holdsOf policy modes mode + if effectiveLockMode policy requested = mode then 1 else 0 := by
  simp [holdsOf, List.countP_cons]

theorem holdsOf_erase {modes : List ConcurrencyLockMode} (h : requested ∈ modes)
    (mode : ConcurrencyLockMode) :
    holdsOf policy (modes.erase requested) mode +
      (if effectiveLockMode policy requested = mode then 1 else 0) = holdsOf policy modes mode := by
  rw [← holdsOf_cons]
  exact (List.perm_cons_erase h).symm.countP_eq _

theorem effective_serialAll (hp : s.manager.policy = .serialAll) (hm : mode ≠ .none) :
    s.effective mode = .write := by
  unfold LockState.effective
  rw [hp]
  cases mode with
  | none => contradiction
  | read => rfl
  | write => rfl

/-- One if this is the mode. -/
def one (effective mode : ConcurrencyLockMode) : Nat := if effective = mode then 1 else 0

/-- The counters against the numbers of readers and writers inside and of
waiting writers. -/
structure Tallies (manager : ConcurrencyLockManager) (reading writing waiting : Nat) : Prop where
  activeReaders : manager.activeReaders = reading
  waitingWriters : manager.waitingWriters = waiting
  writerActive : writing = if manager.writerActive then 1 else 0
  apart : manager.writerActive = true → reading = 0

section Tally

variable {manager : ConcurrencyLockManager} {reading writing waiting : Nat}

theorem Tallies.arrive (h : Tallies manager reading writing waiting)
    (effective : ConcurrencyLockMode) :
    Tallies (manager.arrive effective) reading writing (waiting + one effective .write) := by
  obtain ⟨hr, hq, hw, ha⟩ := h
  cases effective with
  | none => exact ⟨hr, hq, hw, ha⟩
  | read => exact ⟨hr, hq, hw, ha⟩
  | write => exact ⟨hr, congrArg (· + 1) hq, hw, ha⟩

/-- Whoever passes the test of the loop finds the lock free for its mode. -/
theorem Tallies.enter (h : Tallies manager reading writing waiting)
    {effective : ConcurrencyLockMode} (htest : manager.mustWait effective = false)
    (hwait : effective = .write → 0 < waiting) :
    Tallies (manager.enter effective) (reading + one effective .read)
      (writing + one effective .write) (waiting - one effective .write) := by
  obtain ⟨hr, hq, hw, ha⟩ := h
  cases effective with
  | none => exact ⟨hr, hq, hw, ha⟩
  | read =>
    obtain ⟨hwriter, -⟩ : manager.writerActive = false ∧ manager.waitingWriters ≤ 0 := by
      simpa [ConcurrencyLockManager.mustWait] using htest
    exact ⟨congrArg (· + 1) hr, hq, hw, fun h => absurd (hwriter.symm.trans h) (by decide)⟩
  | write =>
    obtain ⟨hwriter, hreaders⟩ : manager.writerActive = false ∧ manager.activeReaders ≤ 0 := by
      simpa [ConcurrencyLockManager.mustWait] using htest
    have hpos := hwait rfl
    have hone : one ConcurrencyLockMode.write .write = 1 := rfl
    have hzero : one ConcurrencyLockMode.write .read = 0 := rfl
    rw [hwriter] at hw
    refine ⟨hr, ?_, ?_, fun _ => ?_⟩
    · change manager.waitingWriters - 1 = _
      omega
    · change _ = 1
      rw [hw, hone]
      rfl
    · omega

theorem Tallies.leave (h : Tallies manager reading writing waiting)
    {effective : ConcurrencyLockMode} (hread : one effective .read ≤ reading)
    (hwrite : one effective .write ≤ writing) :
    Tallies (manager.leave effective) (reading - one effective .read)
      (writing - one effective .write) waiting := by
  obtain ⟨hr, hq, hw, ha⟩ := h
  cases effective with
  | none => exact ⟨hr, hq, hw, ha⟩
  | read =>
    have hone : one ConcurrencyLockMode.read .read = 1 := rfl
    have hpos : 0 < manager.activeReaders := by omega
    unfold ConcurrencyLockManager.leave
    rw [if_pos hpos]
    refine ⟨?_, hq, hw, fun h => ?_⟩
    · change manager.activeReaders - 1 = _
      omega
    · have := ha h
      omega
  | write =>
    have hone : one ConcurrencyLockMode.write .write = 1 := rfl
    refine ⟨hr, hq, ?_, fun h => by cases h⟩
    change _ = 0
    split at hw
    · omega
    · omega

end Tally

section Admission

variable [DecidableEq T]

theorem reading_test {u : T} (h : holds s u .read < holds (s.test t mode) u .read) :
    s.effective mode = .read ∧ s.manager.mustWait .read = false := by
  unfold holds at h
  rw [policy_test] at h
  rcases test_cases s t mode with ⟨-, hstate⟩ | ⟨htest, hstate⟩
  · rw [hstate] at h
    exact absurd h (Nat.lt_irrefl _)
  · rw [hstate] at h
    by_cases hu : u = t
    · subst hu
      dsimp only at h
      rw [Function.update_self, holdsOf_cons] at h
      have he : effectiveLockMode s.manager.policy mode = .read := by
        by_contra hne
        rw [if_neg hne] at h
        omega
      exact ⟨he, he ▸ htest⟩
    · dsimp only at h
      rw [Function.update_of_ne hu] at h
      exact absurd h (Nat.lt_irrefl _)

/-- A reader gets in only past a test that no writer inside or waiting lets it pass. -/
theorem reader_admitted {s' : LockState T} {event : LockEvent T} {u : T}
    (hs : LockStep s event s') (h : holds s u .read < holds s' u .read) :
    s.manager.mustWait .read = false := by
  cases hs with
  | @acquire t mode call =>
    have hsame : holds (s.arrive t mode) u .read = holds s u .read := by
      unfold holds
      rw [policy_arrive]
      rfl
    rw [← hsame] at h
    obtain ⟨he, htest⟩ := reading_test h
    have heffective : s.effective mode = .read := by
      rw [← he]
      unfold LockState.effective
      rw [policy_arrive]
    have hmanager : (s.arrive t mode).manager = s.manager := by
      unfold LockState.arrive
      rw [heffective]
      rfl
    rwa [hmanager] at htest
  | wake call => exact absurd h (Nat.lt_irrefl _)
  | resume call => exact (reading_test h).2
  | @release t mode woken call held wakes =>
    have hle : holds ((s.release t mode).awaken woken) u .read ≤ holds s u .read := by
      have hpolicy : ((s.release t mode).awaken woken).manager.policy = s.manager.policy :=
        policy_release s t mode
      unfold holds
      rw [hpolicy]
      change holdsOf _ (Function.update s.held t ((s.held t).erase mode) u) _ ≤ _
      by_cases hu : u = t
      · subst hu
        rw [Function.update_self]
        exact List.Sublist.countP_le List.erase_sublist
      · rw [Function.update_of_ne hu]
    omega

end Admission

section Threads

variable [Fintype T]

/-- The counters of the manager are what the threads hold and wait for. -/
def Counts (s : LockState T) : Prop :=
  Tallies s.manager (∑ t, holds s t .read) (∑ t, holds s t .write) (∑ t, waits s t)

theorem counts_init : Counts (.init policy : LockState T) := by
  have hholds : ∀ mode, ∑ t, holds (.init policy : LockState T) t mode = 0 := fun mode =>
    Finset.sum_eq_zero fun t _ => rfl
  have hwaits : ∑ t, waits (.init policy : LockState T) t = 0 :=
    Finset.sum_eq_zero fun t _ => rfl
  unfold Counts
  rw [hholds, hholds, hwaits]
  exact ⟨rfl, rfl, rfl, fun _ => rfl⟩

/-- The counters see of a call only whether it waits to write. -/
theorem Counts.of_waits (h : Counts s) {call : T → CallState}
    (hw : ∀ u, waitOf s.manager.policy (call u) = waits s u) : Counts { s with call } := by
  have hsum : ∑ u, waits { s with call } u = ∑ u, waits s u := Finset.sum_congr rfl fun u _ => hw u
  unfold Counts
  rw [hsum]
  exact h

theorem Counts.awaken (h : Counts s) (woken : T → Bool) : Counts (s.awaken woken) := by
  apply h.of_waits
  intro u
  unfold waits
  cases s.call u with
  | outside => rfl
  | waiting mode asleep => rfl

theorem card_of_shares {f : T → Nat} {P : T → Prop} [DecidablePred P] (hle : ∀ t, f t ≤ 1)
    (hP : ∀ t, P t ↔ 0 < f t) : ∑ t, f t = (Finset.univ.filter P).card := by
  rw [Finset.card_filter]
  apply Finset.sum_congr rfl
  intro t _
  by_cases ht : P t
  · rw [if_pos ht]
    exact Nat.le_antisymm (hle t) ((hP t).mp ht)
  · rw [if_neg ht]
    exact Nat.eq_zero_of_not_pos fun hpos => ht ((hP t).mpr hpos)

variable [DecidableEq T]

theorem sum_holds_update (policy : ConcurrencyLockPolicy)
    (held : T → List ConcurrencyLockMode) (t : T) (modes : List ConcurrencyLockMode) (mode : ConcurrencyLockMode) :
    (∑ u, holdsOf policy (Function.update held t modes u) mode) + holdsOf policy (held t) mode =
      (∑ u, holdsOf policy (held u) mode) + holdsOf policy modes mode := by
  have h := sum_shares (t := t) (f := fun u => holdsOf policy (held u) mode)
    (g := fun u => holdsOf policy (Function.update held t modes u) mode)
    (fun u hu => by rw [Function.update_of_ne hu])
  rwa [Function.update_self] at h

theorem sum_waits_update (policy : ConcurrencyLockPolicy) (call : T → CallState) (t : T) (state : CallState) :
    (∑ u, waitOf policy (Function.update call t state u)) + waitOf policy (call t) =
      (∑ u, waitOf policy (call u)) + waitOf policy state := by
  have h := sum_shares (t := t) (f := fun u => waitOf policy (call u))
    (g := fun u => waitOf policy (Function.update call t state u))
    (fun u hu => by rw [Function.update_of_ne hu])
  rwa [Function.update_self] at h

theorem Counts.arrive (h : Counts s) (hc : s.call t = .outside) (mode : ConcurrencyLockMode) :
    Counts (s.arrive t mode) := by
  have hsum := sum_waits_update s.manager.policy s.call t (.waiting mode false)
  rw [hc] at hsum
  have hwaits : ∑ u, waits (s.arrive t mode) u =
      (∑ u, waits s u) + one (s.effective mode) .write := by
    unfold waits
    rw [policy_arrive]
    exact hsum
  have hholds : ∀ mode', ∑ u, holds (s.arrive t mode) u mode' = ∑ u, holds s u mode' := by
    unfold holds
    rw [policy_arrive]
    exact fun _ => rfl
  unfold Counts
  rw [hwaits, hholds, hholds]
  exact Tallies.arrive h _

theorem Counts.test (h : Counts s) {asleep : Bool} (hc : s.call t = .waiting mode asleep) :
    Counts (s.test t mode) := by
  have hshare : waits s t = one (s.effective mode) .write := by
    unfold waits
    rw [hc]
    rfl
  rcases test_cases s t mode with ⟨-, hstate⟩ | ⟨htest, hstate⟩
  · rw [hstate]
    apply h.of_waits
    intro u
    by_cases hu : u = t
    · subst hu
      rw [Function.update_self, hshare]
      rfl
    · rw [Function.update_of_ne hu]
      rfl
  · have hle : one (s.effective mode) .write ≤ ∑ u, waits s u := hshare ▸ share_le_sum (waits s) t
    have hwaits : ∑ u, waits (s.test t mode) u =
        (∑ u, waits s u) - one (s.effective mode) .write := by
      have hsum := sum_waits_update s.manager.policy s.call t .outside
      have hupdate : ∑ u, waits (s.test t mode) u =
          ∑ u, waitOf s.manager.policy (Function.update s.call t .outside u) := by
        unfold waits
        rw [policy_test, hstate]
      change _ + waits s t = (∑ u, waits s u) + 0 at hsum
      omega
    have hholds : ∀ mode', ∑ u, holds (s.test t mode) u mode' =
        (∑ u, holds s u mode') + one (s.effective mode) mode' := by
      intro mode'
      have hsum := sum_holds_update s.manager.policy s.held t (mode :: s.held t) mode'
      have hupdate : ∑ u, holds (s.test t mode) u mode' =
          ∑ u, holdsOf s.manager.policy (Function.update s.held t (mode :: s.held t) u) mode' := by
        unfold holds
        rw [policy_test, hstate]
      rw [holdsOf_cons] at hsum
      change _ = (∑ u, holds s u mode') + (_ + one (s.effective mode) mode') at hsum
      omega
    unfold Counts
    rw [hwaits, hholds, hholds, hstate]
    apply Tallies.enter h htest
    intro hw
    rw [hw] at hle
    exact hle

theorem Counts.release (h : Counts s) (hm : mode ∈ s.held t) : Counts (s.release t mode) := by
  have hshare : ∀ mode', holdsOf s.manager.policy ((s.held t).erase mode) mode' +
      one (s.effective mode) mode' = holds s t mode' := fun mode' => holdsOf_erase hm mode'
  have hle : ∀ mode', one (s.effective mode) mode' ≤ ∑ u, holds s u mode' := by
    intro mode'
    have := hshare mode'
    have := share_le_sum (holds s · mode') t
    omega
  have hholds : ∀ mode', ∑ u, holds (s.release t mode) u mode' =
      (∑ u, holds s u mode') - one (s.effective mode) mode' := by
    intro mode'
    have hsum := sum_holds_update s.manager.policy s.held t ((s.held t).erase mode) mode'
    have hupdate : ∑ u, holds (s.release t mode) u mode' =
        ∑ u, holdsOf s.manager.policy (Function.update s.held t ((s.held t).erase mode) u) mode' := by
      unfold holds
      rw [policy_release]
      rfl
    have := hshare mode'
    change _ + holds s t mode' = (∑ u, holds s u mode') + _ at hsum
    omega
  have hwaits : ∑ u, waits (s.release t mode) u = ∑ u, waits s u := by
    unfold waits
    rw [policy_release]
    rfl
  unfold Counts
  rw [hwaits, hholds, hholds]
  exact Tallies.leave h (hle .read) (hle .write)

theorem Counts.step {s' : LockState T} {event : LockEvent T} (h : Counts s)
    (hs : LockStep s event s') : Counts s' := by
  cases hs with
  | acquire call => exact (h.arrive call _).test (Function.update_self ..)
  | @wake t mode call =>
    apply h.of_waits
    intro u
    by_cases hu : u = t
    · subst hu
      rw [Function.update_self, waits, call]
      rfl
    · rw [Function.update_of_ne hu]
      rfl
  | resume call => exact h.test call
  | release call held wakes => exact (h.release held).awaken _

theorem counts_reachable (h : (lockSystem T policy).Reachable s) :
    Counts s ∧ s.manager.policy = policy := by
  refine h.invariant (P := fun s => Counts s ∧ s.manager.policy = policy) ?_ ?_
  · rintro _ rfl
    exact ⟨counts_init, rfl⟩
  · rintro s event s' - ⟨hcounts, hpolicy⟩ hs
    exact ⟨hcounts.step hs, (policy_step hs).trans hpolicy⟩

/-- What the lock manager promises of a state. -/
structure Excludes (policy : ConcurrencyLockPolicy) (s : LockState T) : Prop where
  one_writer : ∀ t u, Holds s t .write → Holds s u .write → t = u
  no_reader_beside : ∀ t u, Holds s t .write → ¬ Holds s u .read
  activeReaders : s.manager.activeReaders = ∑ t, holds s t .read
  /-- Where no thread holds READ twice, the readers are counted by thread. -/
  reading_threads : (∀ t, holds s t .read ≤ 1) →
    s.manager.activeReaders = (Finset.univ.filter (Holds s · .read)).card
  waitingWriters : s.manager.waitingWriters = (Finset.univ.filter (WaitsToWrite s)).card
  writerActive : s.manager.writerActive = true ↔ ∃ t, Holds s t .write
  nonnegative : 0 ≤ s.manager.activeReaders ∧ 0 ≤ s.manager.waitingWriters
  serial : policy = .serialAll → ∀ t u, ∀ m ∈ s.held t, ∀ n ∈ s.held u,
    m ≠ .none → n ≠ .none → t = u

theorem Counts.excludes (h : Counts s) (hpolicy : s.manager.policy = policy) :
    Excludes policy s := by
  obtain ⟨hreaders, hwaiting, hwriter, hapart⟩ := h
  have hone : ∑ t, holds s t .write ≤ 1 := by
    split at hwriter
    · omega
    · omega
  have hwriters : ∀ t u, Holds s t .write → Holds s u .write → t = u := fun t u ht hu =>
    sole_owner hone (holds_iff.mp ht) (holds_iff.mp hu)
  have hactive : ∀ t, Holds s t .write → s.manager.writerActive = true := by
    intro t ht
    have hpos := holds_iff.mp ht
    have := share_le_sum (holds s · .write) t
    by_contra hn
    rw [if_neg hn] at hwriter
    omega
  refine ⟨hwriters, ?_, hreaders, ?_, ?_, ⟨?_, ?_⟩, ⟨by omega, by omega⟩, ?_⟩
  · intro t u ht hu
    have hzero := hapart (hactive t ht)
    have hpos := holds_iff.mp hu
    have := share_le_sum (holds s · .read) u
    omega
  · intro hle
    rw [hreaders, card_of_shares hle fun t => holds_iff]
  · rw [hwaiting, card_of_shares (waits_le_one s) fun t => waits_iff]
  · intro ha
    rw [if_pos ha] at hwriter
    obtain ⟨t, -, ht⟩ := Finset.exists_ne_zero_of_sum_ne_zero (by omega : ∑ t, holds s t .write ≠ 0)
    exact ⟨t, holds_iff.mpr (Nat.pos_of_ne_zero ht)⟩
  · rintro ⟨t, ht⟩
    exact hactive t ht
  · intro hp t u m hm n hn hm0 hn0
    rw [hp] at hpolicy
    exact hwriters t u ⟨m, hm, effective_serialAll hpolicy hm0⟩
      ⟨n, hn, effective_serialAll hpolicy hn0⟩

/-- In every reachable state the manager's counters tell who is inside, writers
are alone, and the next step lets no reader past a waiting writer. -/
theorem mutual_exclusion (h : (lockSystem T policy).Reachable s) :
    Excludes policy s ∧
      ∀ event s', LockStep s event s' → ∀ t, holds s t .read < holds s' t .read →
        (∀ u, ¬ Holds s u .write) ∧ ∀ u, ¬ WaitsToWrite s u := by
  obtain ⟨hcounts, hpolicy⟩ := counts_reachable h
  refine ⟨hcounts.excludes hpolicy, ?_⟩
  intro event s' hs t ht
  have htest := reader_admitted hs ht
  obtain ⟨hactive, hwaiting⟩ : s.manager.writerActive = false ∧ s.manager.waitingWriters ≤ 0 := by
    simpa [ConcurrencyLockManager.mustWait] using htest
  refine ⟨fun u hu => ?_, fun u hu => ?_⟩
  · have := ((hcounts.excludes hpolicy).writerActive).mpr ⟨u, hu⟩
    rw [hactive] at this
    contradiction
  · have hpos := waits_iff.mp hu
    have hle := share_le_sum (waits s) u
    have hsum := hcounts.waitingWriters
    omega

end Threads

/-- One thread reads inside of a NONE call, the other has come to write. -/
def nested : LockState (Fin 2) :=
  (((LockState.init .serialAll).acquire 0 .none).acquire 0 .read).acquire 1 .write

theorem mutual_exclusion_nested :
    Excludes .serialAll nested ∧
      ∀ event s', LockStep nested event s' → ∀ t, holds nested t .read < holds s' t .read →
        (∀ u, ¬ Holds nested u .write) ∧ ∀ u, ¬ WaitsToWrite nested u :=
  have hstart : (lockSystem (Fin 2) .serialAll).Reachable (.init .serialAll) := .start rfl
  have hnone := hstart.next (@LockStep.acquire _ _ _ 0 .none rfl)
  have hread := hnone.next (@LockStep.acquire _ _ _ 0 .read rfl)
  mutual_exclusion (hread.next (@LockStep.acquire _ _ _ 1 .write rfl))

end DbApi.Proofs.MutualExclusion
