import Mathlib

namespace DbApi.Library

variable {H J : Type} {before after : H → List J} {place : J → Option H} {j : J}
variable {source target : Option H}

/-- Every item is where `place` says and nowhere else, and nobody has it twice. -/
structure Custody (holding : H → List J) (place : J → Option H) : Prop where
  nodup : ∀ h, (holding h).Nodup
  holds : ∀ h j, j ∈ holding h ↔ place j = some h

/-- One item goes from one holder to another, or from or to the outside. -/
structure Passes (j : J) (source target : Option H) (before after : H → List J) : Prop where
  apart : ∀ h, source = some h → target ≠ some h
  taken : ∀ h, source = some h → before h = j :: after h
  given : ∀ h, target = some h → after h = before h ++ [j]
  others : ∀ h, source ≠ some h → target ≠ some h → after h = before h

theorem Custody.passes [DecidableEq J] (hc : Custody before place)
    (hp : Passes j source target before after) (hj : place j = source) :
    Custody after (Function.update place j target) := by
  have holds : ∀ h i, i ∈ after h ↔ Function.update place j target i = some h := by
    intro h i
    have hbefore := hc.holds h i
    by_cases hs : source = some h
    · have ht := hp.apart h hs
      have htaken := hp.taken h hs
      have hnodup := htaken ▸ hc.nodup h
      by_cases hi : i = j
      · subst hi
        rw [Function.update_self]
        exact ⟨fun hm => absurd hm (List.nodup_cons.mp hnodup).1, fun he => absurd he ht⟩
      · rw [Function.update_of_ne hi, ← hbefore, htaken, List.mem_cons]
        exact ⟨.inr, fun hm => hm.resolve_left hi⟩
    · by_cases ht : target = some h
      · rw [hp.given h ht, List.mem_append, List.mem_singleton]
        by_cases hi : i = j
        · subst hi
          rw [Function.update_self]
          exact ⟨fun _ => ht, fun _ => .inr rfl⟩
        · rw [Function.update_of_ne hi, ← hbefore]
          exact ⟨fun hm => hm.resolve_right hi, .inl⟩
      · rw [hp.others h hs ht]
        by_cases hi : i = j
        · subst hi
          rw [Function.update_self, hbefore, hj]
          exact ⟨fun h => absurd h hs, fun h => absurd h ht⟩
        · rw [Function.update_of_ne hi, hbefore]
  refine ⟨fun h => ?_, holds⟩
  by_cases hs : source = some h
  · have hnodup := hc.nodup h
    rw [hp.taken h hs] at hnodup
    exact (List.nodup_cons.mp hnodup).2
  · by_cases ht : target = some h
    · rw [hp.given h ht]
      have hnot : j ∉ before h := fun hm => hs (hj ▸ (hc.holds h j).mp hm)
      simpa [List.nodup_append] using ⟨hc.nodup h, fun i hi he => hnot (he ▸ hi)⟩
    · rw [hp.others h hs ht]
      exact hc.nodup h

theorem passes_none (j : J) (before : H → List J) : Passes j none none before before where
  apart := fun _ h => nomatch h
  taken := fun _ h => nomatch h
  given := fun _ h => nomatch h
  others := fun _ _ _ => rfl

/-- Let go by one, and taken by another. -/
theorem Passes.through {middle : H → List J} (hout : Passes j source none before middle)
    (hin : Passes j none target middle after) (hne : ∀ h, source = some h → target ≠ some h) :
    Passes j source target before after where
  apart := hne
  taken := by
    intro h hs
    rw [hin.others h (fun h => by cases h) (hne h hs)]
    exact hout.taken h hs
  given := by
    intro h ht
    rw [hin.given h ht, hout.others h (fun hs => hne h hs ht) fun h => by cases h]
  others := by
    intro h hs ht
    rw [hin.others h (fun h => by cases h) ht, hout.others h hs fun h => by cases h]

section Updates

variable [DecidableEq H] {a b : H} {rest : List J}

theorem passes_in (j : J) (b : H) (before : H → List J) :
    Passes j none (some b) before (Function.update before b (before b ++ [j])) where
  apart := fun _ h => nomatch h
  taken := fun _ h => nomatch h
  given := by
    rintro _ ⟨⟩
    exact Function.update_self ..
  others := fun h _ hb => Function.update_of_ne (fun e => hb (congrArg some e.symm)) ..

theorem passes_out (h : before a = j :: rest) :
    Passes j (some a) none before (Function.update before a rest) where
  apart := fun _ _ h => nomatch h
  taken := by
    rintro _ ⟨⟩
    rw [Function.update_self, h]
  given := fun _ h => nomatch h
  others := fun h ha _ => Function.update_of_ne (fun e => ha (congrArg some e.symm)) ..

theorem passes_on (hab : a ≠ b) (h : before a = j :: rest) :
    Passes j (some a) (some b) before
      (Function.update (Function.update before a rest) b (before b ++ [j])) where
  apart := by
    rintro _ ⟨⟩ hb
    exact hab (Option.some.inj hb).symm
  taken := by
    rintro _ ⟨⟩
    rw [Function.update_of_ne hab, Function.update_self, h]
  given := by
    rintro _ ⟨⟩
    exact Function.update_self ..
  others := fun h ha hb => by
    rw [Function.update_of_ne (fun e => hb (congrArg some e.symm)),
      Function.update_of_ne (fun e => ha (congrArg some e.symm))]

end Updates

section Ledger

variable {R : Type} {holding holding' : H → List J} {record record' : J → R}
variable {Fits : J → Option H → R → Prop}

/-- Every item is in one place, and what is recorded of it fits the place. -/
structure Ledger (Fits : J → Option H → R → Prop) (holding : H → List J) (record : J → R)
    (place : J → Option H) : Prop where
  custody : Custody holding place
  fits : ∀ j, Fits j (place j) (record j)

theorem Ledger.held (h : Ledger Fits holding record place) {a : H} (hj : j ∈ holding a) :
    place j = some a ∧ Fits j (some a) (record j) := by
  have hplace := (h.custody.holds a j).mp hj
  exact ⟨hplace, hplace ▸ h.fits j⟩

/-- One item moves on, and nothing is recorded of the others. -/
theorem Ledger.move [DecidableEq J] (h : Ledger Fits holding record place)
    (hp : Passes j source target holding holding') (hj : place j = source)
    (hothers : ∀ i, i ≠ j → record' i = record i) (hfits : Fits j target (record' j)) :
    Ledger Fits holding' record' (Function.update place j target) := by
  refine ⟨h.custody.passes hp hj, ?_⟩
  intro i
  by_cases hi : i = j
  · subst hi
    rw [Function.update_self]
    exact hfits
  · rw [Function.update_of_ne hi, hothers i hi]
    exact h.fits i

/-- Something is recorded of one item, which stays where it is. -/
theorem Ledger.note (h : Ledger Fits holding record place)
    (hothers : ∀ i, i ≠ j → record' i = record i) (hfits : Fits j (place j) (record' j)) :
    Ledger Fits holding record' place := by
  refine ⟨h.custody, ?_⟩
  intro i
  by_cases hi : i = j
  · rw [hi]
    exact hfits
  · rw [hothers i hi]
    exact h.fits i

end Ledger

end DbApi.Library
