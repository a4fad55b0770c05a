import Mathlib

namespace DbApi.Library

variable {α : Type} [DecidableEq α]

/-- The first place where `pattern` stands in `text`. -/
def findFirst (pattern text : List α) : Option Nat :=
  (List.range (text.length + 1 - pattern.length)).find? fun i => pattern.isPrefixOf (text.drop i)

variable {pattern text : List α} {n : Nat}

theorem findFirst_eq_some :
    findFirst pattern text = some n ↔
      n + pattern.length ≤ text.length ∧ pattern <+: text.drop n ∧
        ∀ m < n, ¬ pattern <+: text.drop m := by
  rw [findFirst, List.find?_range_eq_some]
  constructor
  · rintro ⟨hp, hmem, hfirst⟩
    rw [List.mem_range] at hmem
    refine ⟨by omega, List.isPrefixOf_iff_prefix.mp hp, fun m hm hp => ?_⟩
    have := hfirst m hm
    rw [List.isPrefixOf_iff_prefix.mpr hp] at this
    cases this
  · rintro ⟨hfit, hp, hfirst⟩
    refine ⟨List.isPrefixOf_iff_prefix.mpr hp, List.mem_range.mpr (by omega), fun m hm => ?_⟩
    rw [Bool.not_eq_true', Bool.eq_false_iff]
    intro h
    exact hfirst m hm (List.isPrefixOf_iff_prefix.mp h)

theorem findFirst_eq_none :
    findFirst pattern text = none ↔
      ∀ m, m + pattern.length ≤ text.length → ¬ pattern <+: text.drop m := by
  rw [findFirst, List.find?_range_eq_none]
  constructor
  · intro h m hm hp
    have := h m (by omega)
    rw [List.isPrefixOf_iff_prefix.mpr hp] at this
    cases this
  · intro h m hm
    rw [Bool.not_eq_true', Bool.eq_false_iff]
    intro hp
    exact h m (by omega) (List.isPrefixOf_iff_prefix.mp hp)

theorem findFirst_fits (h : findFirst pattern text = some n) :
    n + pattern.length ≤ text.length :=
  (findFirst_eq_some.mp h).1

/-- Behind the first place, the text does not matter. -/
theorem findFirst_append (h : findFirst pattern text = some n) (more : List α) :
    findFirst pattern (text ++ more) = some n := by
  obtain ⟨hfit, hp, hfirst⟩ := findFirst_eq_some.mp h
  refine findFirst_eq_some.mpr ⟨by simp; omega, ?_, ?_⟩
  · rw [List.drop_append_of_le_length (by omega)]
    exact hp.trans (List.prefix_append _ _)
  · intro m hm hp
    rw [List.drop_append_of_le_length (by omega)] at hp
    exact hfirst m hm (List.prefix_of_prefix_length_le hp (List.prefix_append _ _)
      (by simp; omega))

/-- What a text starts with holds no place that the text does not. -/
theorem findFirst_take {k : Nat} (h : findFirst pattern (text.take k) = some n) :
    findFirst pattern text = some n := by
  have := findFirst_append h (text.drop k)
  rwa [List.take_append_drop] at this

theorem findFirst_take_of_le {k : Nat} (h : findFirst pattern text = some n)
    (hk : n + pattern.length ≤ k) : findFirst pattern (text.take k) = some n := by
  obtain ⟨hfit, hp, hfirst⟩ := findFirst_eq_some.mp h
  refine findFirst_eq_some.mpr ⟨by simp; omega, ?_, ?_⟩
  · rw [List.drop_take]
    exact List.prefix_take_iff.mpr ⟨hp, by omega⟩
  · intro m hm hp
    rw [List.drop_take] at hp
    exact hfirst m hm (List.prefix_take_iff.mp hp).1

/-- A front in which no place begins is passed over. -/
theorem findFirst_skip {front rest : List α}
    (h : ∀ m < front.length, ¬ pattern <+: (front ++ rest).drop m)
    (hn : findFirst pattern rest = some n) :
    findFirst pattern (front ++ rest) = some (front.length + n) := by
  obtain ⟨hfit, hp, hfirst⟩ := findFirst_eq_some.mp hn
  refine findFirst_eq_some.mpr ⟨by simp; omega, ?_, ?_⟩
  · rwa [← List.drop_drop, List.drop_left]
  · intro m hm hp
    by_cases hlt : m < front.length
    · exact h m hlt hp
    · obtain ⟨k, rfl⟩ : ∃ k, m = front.length + k := ⟨m - front.length, by omega⟩
      rw [← List.drop_drop, List.drop_left] at hp
      exact hfirst k (by omega) hp

theorem findFirst_start (rest : List α) : findFirst pattern (pattern ++ rest) = some 0 :=
  findFirst_eq_some.mpr ⟨by simp, by simp, by simp⟩

theorem findFirst_split (h : findFirst pattern text = some n) :
    text = text.take n ++ pattern ++ text.drop (n + pattern.length) := by
  obtain ⟨rest, hrest⟩ := (findFirst_eq_some.mp h).2.1
  have htail : text.drop (n + pattern.length) = rest := by
    rw [← List.drop_drop, ← hrest, List.drop_left]
  rw [htail, List.append_assoc, hrest, List.take_append_drop]

end DbApi.Library
