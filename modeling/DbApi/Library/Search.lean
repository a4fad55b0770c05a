import Mathlib

namespace DbApi.Library

variable {α : Type}

/-- The end of a search: what it looked at, in order, and what it took. -/
structure Search (α : Type) where
  visited : List α
  result : Option α
deriving DecidableEq

/-- A search from `current` along `next` for the first accepted point, given up
without an end after so many points. -/
def search (next : α → Option α) (accepts : α → Bool) : Nat → α → Option (Search α)
  | 0, _ => none
  | fuel + 1, current =>
    if accepts current then some { visited := [current], result := some current }
    else
      match next current with
      | none => some { visited := [current], result := none }
      | some following =>
        (search next accepts fuel following).map fun s => { s with visited := current :: s.visited }

/-- The search through a list, up to the first accepted point. -/
def Search.through (accepts : α → Bool) : List α → Search α
  | [] => { visited := [], result := none }
  | point :: rest =>
    if accepts point then { visited := [point], result := some point }
    else
      { visited := point :: (through accepts rest).visited, result := (through accepts rest).result }

/-- The search ends, and it went through `chain`. -/
def Finds (next : α → Option α) (accepts : α → Bool) (chain : List α) (current : α) : Prop :=
  ∃ fuel, search next accepts fuel current = some (Search.through accepts chain)

variable {next : α → Option α} {accepts : α → Bool} {current following : α} {chain : List α}

theorem through_visited_nil (h : (Search.through accepts chain).visited = []) : chain = [] := by
  cases chain with
  | nil => rfl
  | cons point rest =>
    rw [Search.through] at h
    split at h <;> cases h

theorem finds_accepted (ha : accepts current = true) :
    Finds next accepts (current :: chain) current :=
  ⟨1, by rw [search, if_pos ha, Search.through, if_pos ha]⟩

/-- What a search takes is accepted. -/
theorem search_accepted {fuel : Nat} {s : Search α} {point : α}
    (h : search next accepts fuel current = some s) (hr : s.result = some point) :
    accepts point = true := by
  induction fuel generalizing current s with
  | zero => cases h
  | succ fuel ih =>
    rw [search] at h
    by_cases ha : accepts current = true
    · rw [if_pos ha] at h
      cases h
      cases hr
      exact ha
    · rw [if_neg ha] at h
      cases hn : next current with
      | none =>
        rw [hn] at h
        cases h
        cases hr
      | some following =>
        rw [hn] at h
        obtain ⟨rest, hrest, rfl⟩ := Option.map_eq_some_iff.mp h
        exact ih hrest hr

theorem finds_last (hn : next current = none) :
    Finds next accepts (current :: chain) current ↔ accepts current = true ∨ chain = [] := by
  constructor
  · rintro ⟨fuel, h⟩
    cases fuel with
    | zero => cases h
    | succ fuel =>
      rw [search, Search.through] at h
      by_cases ha : accepts current = true
      · exact .inl ha
      · rw [if_neg ha, if_neg ha, hn] at h
        have hvisited := congrArg Search.visited (Option.some.inj h)
        exact .inr (through_visited_nil (List.cons.inj hvisited).2.symm)
  · rintro (ha | rfl)
    · exact finds_accepted ha
    · by_cases ha : accepts current = true
      · exact finds_accepted ha
      · refine ⟨1, ?_⟩
        rw [search, Search.through, if_neg ha, if_neg ha, hn]
        rfl

theorem finds_next (hn : next current = some following) :
    Finds next accepts (current :: chain) current ↔
      accepts current = true ∨ Finds next accepts chain following := by
  constructor
  · rintro ⟨fuel, h⟩
    cases fuel with
    | zero => cases h
    | succ fuel =>
      rw [search, Search.through] at h
      by_cases ha : accepts current = true
      · exact .inl ha
      · rw [if_neg ha, if_neg ha, hn] at h
        obtain ⟨s, hs, heq⟩ := Option.map_eq_some_iff.mp h
        refine .inr ⟨fuel, ?_⟩
        rw [hs, Option.some_inj]
        obtain ⟨visited, result⟩ := s
        simp only [Search.mk.injEq, List.cons.injEq, true_and] at heq
        obtain ⟨rfl, rfl⟩ := heq
        rfl
  · rintro (ha | ⟨fuel, h⟩)
    · exact finds_accepted ha
    · by_cases ha : accepts current = true
      · exact finds_accepted ha
      · refine ⟨fuel + 1, ?_⟩
        rw [search, Search.through, if_neg ha, if_neg ha, hn]
        dsimp only
        rw [h]
        rfl

/-- A point that leads back to itself is left only when it is accepted. -/
theorem search_loop (hn : next current = some current) (ha : accepts current = false) (fuel : Nat) :
    search next accepts fuel current = none := by
  induction fuel with
  | zero => rfl
  | succ fuel ih =>
    rw [search, if_neg (by simp [ha]), hn]
    dsimp only
    rw [ih]
    rfl

theorem finds_loop (hn : next current = some current) :
    Finds next accepts (current :: chain) current ↔ accepts current = true := by
  refine ⟨?_, finds_accepted⟩
  rintro ⟨fuel, h⟩
  by_contra ha
  rw [search_loop hn (by simpa using ha)] at h
  cases h

end DbApi.Library
