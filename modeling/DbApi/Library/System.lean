import Mathlib

namespace DbApi.Library

/-- States, and the steps between them with their events. -/
structure System (σ ε : Type) where
  initial : σ → Prop
  step : σ → ε → σ → Prop

namespace System

variable {σ ε : Type} {system : System σ ε}

/-- The states after the events, the latest of them last. -/
inductive Run (system : System σ ε) : List ε → σ → Prop where
  | start {s : σ} (initial : system.initial s) : Run system [] s
  | next {events : List ε} {s s' : σ} {event : ε} (run : Run system events s)
      (step : system.step s event s') : Run system (events ++ [event]) s'

def Reachable (system : System σ ε) (s : σ) : Prop := ∃ events, system.Run events s

theorem Reachable.start {s : σ} (h : system.initial s) : system.Reachable s := ⟨[], .start h⟩

theorem Reachable.next {s s' : σ} {event : ε} (h : system.Reachable s)
    (hs : system.step s event s') : system.Reachable s' := by
  obtain ⟨events, run⟩ := h
  exact ⟨_, run.next hs⟩

/-- What holds at the start and over every step from a reachable state holds in
every reachable state. -/
theorem Reachable.invariant {P : σ → Prop} {s : σ} (h : system.Reachable s)
    (hstart : ∀ s, system.initial s → P s)
    (hstep : ∀ s event s', system.Reachable s → P s → system.step s event s' → P s') : P s := by
  obtain ⟨events, run⟩ := h
  induction run with
  | start initial => exact hstart _ initial
  | next run step ih => exact hstep _ _ _ ⟨_, run⟩ ih step

end System

section Conditions

variable {T : Type}

/-- Whom a signal on a condition variable may wake: some of the sleepers, and
at least one if there is one. -/
def Signals (asleep : T → Prop) (woken : T → Bool) : Prop :=
  (∀ t, woken t = true → asleep t) ∧ ((∃ t, asleep t) → ∃ t, woken t = true)

def Broadcasts (asleep : T → Prop) (woken : T → Bool) : Prop := ∀ t, woken t = true ↔ asleep t

end Conditions

section Shares

variable {T : Type} [Fintype T] {f g : T → Nat} {t : T}

/-- A sum over the threads moves with the share of the one that moves. -/
theorem sum_shares [DecidableEq T] (h : ∀ u, u ≠ t → g u = f u) :
    (∑ u, g u) + f t = (∑ u, f u) + g t := by
  have hrest : ∑ u ∈ Finset.univ.erase t, g u = ∑ u ∈ Finset.univ.erase t, f u :=
    Finset.sum_congr rfl fun u hu => h u (Finset.ne_of_mem_erase hu)
  rw [← Finset.add_sum_erase _ g (Finset.mem_univ t), ← Finset.add_sum_erase _ f (Finset.mem_univ t),
    hrest]
  omega

theorem share_le_sum (f : T → Nat) (t : T) : f t ≤ ∑ u, f u :=
  Finset.single_le_sum (fun _ _ => Nat.zero_le _) (Finset.mem_univ t)

/-- A total of one has no two owners. -/
theorem sole_owner [DecidableEq T] (h : ∑ u, f u ≤ 1) {u : T} (ht : 0 < f t) (hu : 0 < f u) :
    t = u := by
  by_contra hne
  have hpair : ∑ v ∈ {t, u}, f v ≤ ∑ v, f v :=
    Finset.sum_le_sum_of_subset (Finset.subset_univ _)
  rw [Finset.sum_pair hne] at hpair
  omega

end Shares

end DbApi.Library
