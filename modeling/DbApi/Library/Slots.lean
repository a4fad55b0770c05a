import Mathlib

namespace DbApi.Library

/-- An access at `index` to an array of `size` slots that has no such slot. -/
structure BoundsFault where
  index : Int
  size : Nat
deriving DecidableEq

variable {α : Type}

def store (slots : List α) (index : Nat) (value : α) : Except BoundsFault (List α) :=
  if index < slots.length then .ok (slots.set index value)
  else .error { index, size := slots.length }

def fetch (slots : List α) (index : Int) : Except BoundsFault α :=
  match index with
  | .ofNat n =>
    match slots[n]? with
    | some value => .ok value
    | none => .error { index, size := slots.length }
  | .negSucc _ => .error { index, size := slots.length }

theorem store_error {slots : List α} {index : Nat} (h : slots.length ≤ index) (value : α) :
    store slots index value = .error { index, size := slots.length } :=
  if_neg (Nat.not_lt.mpr h)

/-- The next of the slots that a loop fills in order. -/
theorem store_next (filled free : List α) (old value : α) :
    store (filled ++ old :: free) filled.length value = .ok (filled ++ value :: free) := by
  rw [store, if_pos (by simp), List.set_append_right _ _ le_rfl, Nat.sub_self, List.set_cons_zero]

theorem fetch_ok {slots : List α} {n : Nat} {value : α} (h : slots[n]? = some value) :
    fetch slots n = .ok value := by
  change fetch slots (Int.ofNat n) = .ok value
  simp only [fetch, h]

/-- `count` slots from `first` on, each moved to the next, the last one first. -/
def shiftSlots (slots : List α) (first : Nat) : Nat → Except BoundsFault (List α)
  | 0 => .ok slots
  | count + 1 => do
    let value ← fetch slots (first + count : Nat)
    let slots ← store slots (first + count + 1) value
    shiftSlots slots first count

/-- `count` slots from `offset` on, copied to the slots from `index` on. -/
def copySlots (source : List α) (offset : Nat) :
    Nat → Nat → List α → Except BoundsFault (List α)
  | 0, _, slots => .ok slots
  | count + 1, index, slots => do
    let value ← fetch source (offset + index : Nat)
    let slots ← store slots index value
    copySlots source offset count (index + 1) slots

/-- The first of `count` slots from `index` on at which a scan stops, or the end of them. -/
def scanSlots (stop : α → Bool) (slots : List α) : Nat → Nat → Except BoundsFault Nat
  | 0, index => .ok index
  | count + 1, index => do
    let value ← fetch slots index
    if stop value then .ok index else scanSlots stop slots count (index + 1)

/-- An array of `size` slots of which the first are in use. -/
structure Holds (slots : List α) (used : List α) (size : Nat) : Prop where
  front : used <+: slots
  size : slots.length = size

theorem shiftSlots_spec (before moved rest : List α) (free : α) :
    ∃ vacated, shiftSlots (before ++ moved ++ free :: rest) before.length moved.length =
      .ok (before ++ vacated :: moved ++ rest) := by
  induction moved using List.reverseRecOn generalizing free rest with
  | nil => exact ⟨free, by simp [shiftSlots]⟩
  | append_singleton moved last ih =>
    obtain ⟨vacated, hshift⟩ := ih (last :: rest) last
    refine ⟨vacated, ?_⟩
    rw [List.length_append, List.length_singleton, shiftSlots]
    have hfetch : fetch (before ++ (moved ++ [last]) ++ free :: rest)
        (before.length + moved.length : Nat) = .ok last := by
      apply fetch_ok
      simp
    have hstore : store (before ++ (moved ++ [last]) ++ free :: rest)
        (before.length + moved.length + 1) last =
          .ok (before ++ moved ++ last :: last :: rest) := by
      have hnext := store_next (before ++ moved ++ [last]) rest free last
      simpa [Nat.add_assoc] using hnext
    rw [hfetch]
    change (store _ _ last >>= fun slots => shiftSlots slots before.length moved.length) = _
    rw [hstore]
    change shiftSlots _ _ _ = _
    rw [hshift]
    simp

theorem insertIdx_between {β : Type} (before after : List β) (x : β) :
    (before ++ after).insertIdx before.length x = before ++ x :: after := by
  induction before with
  | nil => simp
  | cons b before ih => simpa using ih

/-- A slot in the midst of those in use is made free and filled. -/
theorem Holds.insert {slots used : List α} {size : Nat} (h : Holds slots used size) (index : Nat)
    (hindex : index ≤ used.length) (hroom : used.length < size) :
    ∃ shifted, shiftSlots slots index (used.length - index) = .ok shifted ∧
      ∀ value, ∃ filled, store shifted index value = .ok filled ∧
        Holds filled (used.insertIdx index value) size := by
  obtain ⟨⟨rest, rfl⟩, hsize⟩ := h
  rw [List.length_append] at hsize
  cases rest with
  | nil =>
    rw [List.length_nil] at hsize
    omega
  | cons free rest =>
    have hlength : (used.take index).length = index := by simpa using hindex
    have hmoved : (used.drop index).length = used.length - index := List.length_drop
    obtain ⟨vacated, hshift⟩ := shiftSlots_spec (used.take index) (used.drop index) rest free
    rw [hlength, hmoved, List.take_append_drop] at hshift
    refine ⟨_, hshift, fun value => ⟨used.take index ++ value :: (used.drop index ++ rest), ?_, ?_⟩⟩
    · have hnext := store_next (used.take index) (used.drop index ++ rest) vacated value
      rw [hlength] at hnext
      simpa using hnext
    · have hinsert := insertIdx_between (used.take index) (used.drop index) value
      rw [hlength, List.take_append_drop] at hinsert
      rw [hinsert]
      refine ⟨⟨rest, by simp⟩, ?_⟩
      rw [List.length_cons] at hsize
      simp only [List.length_append, List.length_cons, hlength, List.length_drop]
      omega

/-- Slots in use are copied to the front of an array that is large enough. -/
theorem copySlots_spec (source : List α) (offset count : Nat) (copied rest : List α)
    (hfits : count ≤ rest.length) (hsource : offset + copied.length + count ≤ source.length) :
    copySlots source offset count copied.length (copied ++ rest) =
      .ok (copied ++ (source.drop (offset + copied.length)).take count ++ rest.drop count) := by
  induction count generalizing copied rest with
  | zero => simp [copySlots]
  | succ count ih =>
    cases rest with
    | nil => cases hfits
    | cons free rest =>
      have hlt : offset + copied.length < source.length := by omega
      have hfetch : fetch source (offset + copied.length : Nat) =
          .ok source[offset + copied.length] := fetch_ok (List.getElem?_eq_getElem hlt)
      rw [copySlots, hfetch]
      change (store _ _ _ >>= fun slots => copySlots source offset count (copied.length + 1) slots) = _
      rw [store_next]
      change copySlots source offset count (copied.length + 1) _ = _
      have hnext := ih (copied ++ [source[offset + copied.length]]) rest
        (Nat.le_of_succ_le_succ hfits) (by simp; omega)
      rw [List.length_append, List.length_singleton] at hnext
      have htake : (source.drop (offset + copied.length)).take (count + 1) =
          source[offset + copied.length] ::
            (source.drop (offset + copied.length + 1)).take count := by
        rw [List.drop_eq_getElem_cons hlt, List.take_succ_cons]
      rw [List.append_cons, hnext, ← Nat.add_assoc, htake]
      simp

theorem Holds.copy {source used slots : List α} {size : Nat} (h : Holds source used size)
    (offset count : Nat) (hcount : offset + count = used.length)
    (hslots : slots.length = size) :
    ∃ copied, copySlots source offset count 0 slots = .ok copied ∧
      Holds copied (used.drop offset) size := by
  obtain ⟨⟨rest, rfl⟩, hsize⟩ := h
  rw [List.length_append] at hsize
  have hspec := copySlots_spec (used ++ rest) offset count [] slots (by omega)
    (by simp; omega)
  refine ⟨_, hspec, ?_, ?_⟩
  · have hdrop : ((used ++ rest).drop (offset + 0)).take count = used.drop offset := by
      rw [Nat.add_zero, List.drop_append_of_le_length (by omega),
        List.take_append_of_le_length (by simp; omega), List.take_of_length_le (by simp; omega)]
    rw [List.nil_append, List.length_nil, hdrop]
    exact List.prefix_append _ _
  · simp
    omega

theorem Holds.take {slots used : List α} {size : Nat} (h : Holds slots used size) (n : Nat) :
    Holds slots (used.take n) size :=
  ⟨(List.take_prefix n used).trans h.front, h.size⟩

theorem Holds.fetch {slots used : List α} {size n : Nat} {value : α} (h : Holds slots used size)
    (hn : used[n]? = some value) : fetch slots n = .ok value := by
  obtain ⟨⟨rest, rfl⟩, -⟩ := h
  apply fetch_ok
  rw [List.getElem?_append_left (List.getElem?_eq_some_iff.mp hn).1]
  exact hn

theorem scanSlots_spec (stop : α → Bool) (before ahead rest : List α) :
    scanSlots stop (before ++ ahead ++ rest) ahead.length before.length =
      .ok (before.length + (ahead.takeWhile fun value => !stop value).length) := by
  induction ahead generalizing before with
  | nil => simp [scanSlots]
  | cons value ahead ih =>
    have hfetch : fetch (before ++ value :: ahead ++ rest) before.length = .ok value :=
      fetch_ok (by simp)
    rw [List.length_cons, scanSlots, hfetch]
    change (if stop value = true then _ else _) = _
    cases hstop : stop value with
    | true => simp [hstop]
    | false =>
      have hnext := ih (before ++ [value])
      rw [List.length_append, List.length_singleton, ← List.append_cons] at hnext
      rw [if_neg (by simp), hnext]
      simp only [hstop, List.takeWhile_cons, Bool.not_false, ↓reduceIte, List.length_cons]
      rw [Nat.add_assoc, Nat.add_comm 1]

theorem Holds.scan {slots used : List α} {size : Nat} (h : Holds slots used size)
    (stop : α → Bool) :
    scanSlots stop slots used.length 0 =
      .ok (used.takeWhile fun value => !stop value).length := by
  obtain ⟨⟨rest, rfl⟩, -⟩ := h
  have hscan := scanSlots_spec stop [] used rest
  simpa using hscan

end DbApi.Library
