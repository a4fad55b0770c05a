import Mathlib

namespace DbApi.Library

/-- A bounded queue in a ring of slots: `size` items from `head` on, the next
one goes to `tail`. -/
structure Ring (α : Type) (capacity : Nat) where
  items : Fin capacity → α
  head : Fin capacity
  tail : Fin capacity
  size : Nat
  size_le : size ≤ capacity
  tail_eq : tail.val = (head.val + size) % capacity

namespace Ring

variable {α : Type} {capacity : Nat}

/-- The slot `k` places after `slot`. -/
def after (slot : Fin capacity) (k : Nat) : Fin capacity :=
  ⟨(slot.val + k) % capacity, Nat.mod_lt _ slot.pos⟩

theorem after_inj {slot : Fin capacity} {i j : Nat} (hi : i < capacity) (hj : j < capacity)
    (h : after slot i = after slot j) : i = j := by
  have hmod : (slot.val + i) ≡ (slot.val + j) [MOD capacity] := congrArg Fin.val h
  exact (Nat.ModEq.add_left_cancel' slot.val hmod).eq_of_lt_of_lt hi hj

theorem after_after (slot : Fin capacity) (i j : Nat) :
    after (after slot i) j = after slot (i + j) := by
  apply Fin.ext
  simp [after, Nat.add_assoc]

def empty [Inhabited α] (hc : 0 < capacity) : Ring α capacity where
  items _ := default
  head := ⟨0, hc⟩
  tail := ⟨0, hc⟩
  size := 0
  size_le := Nat.zero_le _
  tail_eq := by simp

def push (ring : Ring α capacity) (a : α) (h : ring.size < capacity) : Ring α capacity where
  items := Function.update ring.items ring.tail a
  head := ring.head
  tail := after ring.tail 1
  size := ring.size + 1
  size_le := h
  tail_eq := by simp [after, ring.tail_eq, Nat.add_assoc]

def pop (ring : Ring α capacity) (h : 0 < ring.size) : α × Ring α capacity :=
  (ring.items ring.head,
    { items := ring.items
      head := after ring.head 1
      tail := ring.tail
      size := ring.size - 1
      size_le := (Nat.sub_le _ _).trans ring.size_le
      tail_eq := by
        have hs : 1 + (ring.size - 1) = ring.size := by omega
        simp [after, ring.tail_eq, Nat.add_assoc, hs] })

/-- The items from the oldest to the newest. -/
def contents (ring : Ring α capacity) : List α :=
  (List.range ring.size).map fun i => ring.items (after ring.head i)

@[simp] theorem length_contents (ring : Ring α capacity) : ring.contents.length = ring.size := by
  simp [contents]

theorem contents_eq_nil {ring : Ring α capacity} : ring.contents = [] ↔ ring.size = 0 := by
  rw [← List.length_eq_zero_iff, length_contents]

@[simp] theorem contents_push (ring : Ring α capacity) (a : α) (h : ring.size < capacity) :
    (ring.push a h).contents = ring.contents ++ [a] := by
  have htail : ring.tail = after ring.head ring.size := Fin.ext ring.tail_eq
  have hold : ∀ i ∈ List.range ring.size,
      Function.update ring.items ring.tail a (after ring.head i) =
        ring.items (after ring.head i) := by
    intro i hi
    have hlt := List.mem_range.mp hi
    apply Function.update_of_ne
    rw [htail]
    intro he
    exact hlt.ne (after_inj (hlt.trans h) h he)
  have hnew : Function.update ring.items ring.tail a (after ring.head ring.size) = a := by
    rw [← htail, Function.update_self]
  simp only [contents, push, List.range_succ, List.map_append, List.map_cons, List.map_nil, hnew,
    List.map_congr_left hold]

/-- The pop takes the oldest item. -/
@[simp] theorem contents_pop (ring : Ring α capacity) (h : 0 < ring.size) :
    ring.contents = (ring.pop h).1 :: (ring.pop h).2.contents := by
  have hs : ring.size = (ring.size - 1) + 1 := by omega
  have hhead : after ring.head 0 = ring.head := Fin.ext (by simp [after, Nat.mod_eq_of_lt])
  unfold contents
  rw [hs, List.range_succ_eq_map, List.map_cons, List.map_map, hhead]
  simp only [pop, after_after, Function.comp_def, Nat.succ_eq_one_add]

end Ring

end DbApi.Library
