import DbApi.Library.System

namespace DbApi.Library

/-- Where a thread stands that waits on a condition variable. -/
inductive Wait where
  | asleep
  /-- Woken by a signal or a broadcast, on its way back to the mutex. -/
  | signalled
  /-- At its test without a signal. -/
  | awake
deriving DecidableEq

def Wait.signal : Wait → Wait
  | .asleep => .signalled
  | wait => wait

variable {T : Type} {wait : T → Option Wait} {woken : T → Bool} {t : T} {new : Option Wait}
variable {items rest : Nat}

def signal (wait : T → Option Wait) (woken : T → Bool) (t : T) : Option Wait :=
  if woken t then (wait t).map Wait.signal else wait t

theorem signal_asleep : signal wait woken t = some .asleep ↔
    wait t = some .asleep ∧ woken t = false := by
  unfold signal
  cases woken t with
  | false => simp
  | true =>
    cases wait t with
    | none => simp
    | some w => cases w <;> simp [Wait.signal]

theorem signal_signalled : signal wait woken t = some .signalled ↔
    wait t = some .signalled ∨ (wait t = some .asleep ∧ woken t = true) := by
  unfold signal
  cases woken t with
  | false => simp
  | true =>
    cases wait t with
    | none => simp
    | some w => cases w <;> simp [Wait.signal]

variable [Fintype T]

def signalled (wait : T → Option Wait) : Nat :=
  (Finset.univ.filter fun t => wait t = some .signalled).card

/-- While somebody sleeps, as many threads as there are items have been
signalled. -/
def Served (items : Nat) (wait : T → Option Wait) : Prop :=
  (∃ t, wait t = some .asleep) → items ≤ signalled wait

theorem Served.none_left (wait : T → Option Wait) : Served 0 wait := fun _ => Nat.zero_le _

theorem Served.of_nobody (h : ∀ t, wait t ≠ some .asleep) : Served items wait :=
  fun ⟨t, ht⟩ => absurd ht (h t)

/-- A signal answers for one more item. -/
theorem Served.signal (h : Served items wait)
    (hw : Signals (fun t => wait t = some .asleep) woken) :
    Served (items + 1) (signal wait woken) := by
  rintro ⟨t, ht⟩
  have hasleep := (signal_asleep.mp ht).1
  obtain ⟨v, hv⟩ := hw.2 ⟨t, hasleep⟩
  have hv_asleep := hw.1 v hv
  refine (Nat.succ_le_succ (h ⟨t, hasleep⟩)).trans ?_
  apply Finset.card_lt_card
  rw [Finset.ssubset_iff_of_subset]
  · refine ⟨v, ?_, ?_⟩
    · rw [Finset.mem_filter]
      exact ⟨Finset.mem_univ v, signal_signalled.mpr (.inr ⟨hv_asleep, hv⟩)⟩
    · rw [Finset.mem_filter]
      rintro ⟨-, hs⟩
      rw [hv_asleep] at hs
      cases hs
  · intro u hu
    rw [Finset.mem_filter] at hu ⊢
    exact ⟨Finset.mem_univ u, signal_signalled.mpr (.inl hu.2)⟩

theorem signalled_le_update [DecidableEq T] (t : T) (new : Option Wait) :
    signalled wait ≤ signalled (Function.update wait t new) +
      if wait t = some .signalled then 1 else 0 := by
  have hstay : ∀ u, u ≠ t → wait u = some .signalled →
      u ∈ Finset.univ.filter fun u => Function.update wait t new u = some .signalled := by
    intro u hu hs
    rw [Finset.mem_filter, Function.update_of_ne hu]
    exact ⟨Finset.mem_univ u, hs⟩
  unfold signalled
  by_cases ht : wait t = some .signalled
  · rw [if_pos ht]
    refine (Finset.card_le_card ?_).trans (Finset.card_insert_le t _)
    intro u hu
    by_cases hut : u = t
    · exact Finset.mem_insert.mpr (.inl hut)
    · exact Finset.mem_insert.mpr (.inr (hstay u hut (Finset.mem_filter.mp hu).2))
  · rw [if_neg ht]
    apply Finset.card_le_card
    intro u hu
    have hs := (Finset.mem_filter.mp hu).2
    refine hstay u ?_ hs
    rintro rfl
    exact ht hs

/-- A thread goes on, and takes an item along if it was signalled and there is one. -/
theorem Served.leave [DecidableEq T] (h : Served items wait) (hnew : new ≠ some .asleep)
    (hrest : rest + (if wait t = some .signalled then 1 else 0) ≤ items) :
    Served rest (Function.update wait t new) := by
  rintro ⟨u, hu⟩
  have hne : u ≠ t := by
    rintro rfl
    rw [Function.update_self] at hu
    exact hnew hu
  rw [Function.update_of_ne hne] at hu
  have hitems := h ⟨u, hu⟩
  have hle := @signalled_le_update T wait _ _ t new
  omega

end DbApi.Library
