import Mathlib

namespace DbApi.Library

variable {σ O R T : Type} {apply : O → σ → Option (R × σ)} {start s s' base : σ}
variable {history : List (O × R)}

/-- The operations of the history, run one at a time, come to these results. -/
inductive Sequential (apply : O → σ → Option (R × σ)) (start : σ) : List (O × R) → σ → Prop where
  | start : Sequential apply start [] start
  | next {history : List (O × R)} {s s' : σ} {o : O} {r : R} (run : Sequential apply start history s)
    (result : apply o s = some (r, s')) : Sequential apply start (history ++ [(o, r)]) s'

/-- Threads with one of them inside of an operation at most. What is left of it comes to what
the whole operation comes to in the state that the history ends in. -/
structure Serialized (apply : O → σ → Option (R × σ)) (start : σ)
    (inside : T → Option (O × (σ → Option (R × σ)))) (history : List (O × R)) (s : σ) : Prop where
  sole : ∀ t u, inside t ≠ none → inside u ≠ none → t = u
  serial : ∃ base, Sequential apply start history base ∧
    (∀ t o rest, inside t = some (o, rest) → rest s = apply o base) ∧
    ((∀ t, inside t = none) → s = base)

section Serialized

variable {inside : T → Option (O × (σ → Option (R × σ)))} {t u : T} {o : O} {r : R}
  {rest rest' : σ → Option (R × σ)}

theorem Serialized.others (h : Serialized apply start inside history s)
    (ht : inside t = some (o, rest)) (hu : u ≠ t) : inside u = none := by
  by_contra hinside
  exact hu (h.sole u t hinside (by rw [ht]; exact Option.some_ne_none _))

/-- An operation that neither needs nor changes the state runs beside the others. -/
theorem Serialized.aside (h : Serialized apply start inside history s)
    (hresult : ∀ s, apply o s = some (r, s)) :
    Serialized apply start inside (history ++ [(o, r)]) s := by
  obtain ⟨hsole, base, hrun, hinside, hbase⟩ := h
  exact ⟨hsole, base, hrun.next (hresult base), hinside, hbase⟩

variable [DecidableEq T]

theorem Serialized.enter (h : Serialized apply start inside history s)
    (hnone : ∀ u, inside u = none) (t : T) (o : O) :
    Serialized apply start (Function.update inside t (some (o, apply o))) history s := by
  obtain ⟨-, base, hrun, -, hbase⟩ := h
  have hinside : ∀ u, Function.update inside t (some (o, apply o)) u ≠ none → u = t := by
    intro u hu
    by_contra hne
    rw [Function.update_of_ne hne] at hu
    exact hu (hnone u)
  refine ⟨?_, base, hrun, ?_, ?_⟩
  · intro u v hu hv
    rw [hinside u hu, hinside v hv]
  · intro u p rest hu
    have heq := hinside u (by rw [hu]; exact Option.some_ne_none _)
    subst heq
    rw [Function.update_self] at hu
    cases hu
    rw [hbase hnone]
  · intro hall
    have hself := hall t
    rw [Function.update_self] at hself
    cases hself

theorem Serialized.access (h : Serialized apply start inside history s)
    (ht : inside t = some (o, rest)) (hrest : rest' s' = rest s) :
    Serialized apply start (Function.update inside t (some (o, rest'))) history s' := by
  have hothers := fun u hu => h.others (u := u) ht hu
  obtain ⟨-, base, hrun, hinside, -⟩ := h
  have honly : ∀ u, Function.update inside t (some (o, rest')) u ≠ none → u = t := by
    intro u hu
    by_contra hne
    rw [Function.update_of_ne hne] at hu
    exact hu (hothers u hne)
  refine ⟨?_, base, hrun, ?_, ?_⟩
  · intro u v hu hv
    rw [honly u hu, honly v hv]
  · intro u p own hu
    have heq := honly u (by rw [hu]; exact Option.some_ne_none _)
    subst heq
    rw [Function.update_self] at hu
    cases hu
    rw [hrest]
    exact hinside u o rest ht
  · intro hall
    have hself := hall t
    rw [Function.update_self] at hself
    cases hself

theorem Serialized.leave (h : Serialized apply start inside history s)
    (ht : inside t = some (o, rest)) (hrest : rest s = some (r, s)) :
    Serialized apply start (Function.update inside t none) (history ++ [(o, r)]) s := by
  have hothers := fun u hu => h.others (u := u) ht hu
  obtain ⟨-, base, hrun, hinside, -⟩ := h
  have hnone : ∀ u, Function.update inside t none u = none := by
    intro u
    by_cases hu : u = t
    · rw [hu, Function.update_self]
    · rw [Function.update_of_ne hu, hothers u hu]
  refine ⟨fun u _ hu => absurd (hnone u) hu, s, ?_, ?_, fun _ => rfl⟩
  · exact hrun.next ((hinside t o rest ht).symm.trans hrest)
  · intro u p own hu
    rw [hnone u] at hu
    cases hu

end Serialized

end DbApi.Library
