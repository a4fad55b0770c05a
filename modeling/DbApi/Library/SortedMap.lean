import Mathlib

namespace DbApi.Library.SortedMap

variable {κ α : Type} [LinearOrder κ]

/-- Key-value pairs in strictly increasing key order. -/
def Sorted (l : List (κ × α)) : Prop := l.Pairwise (fun a b => a.1 < b.1)

/-- The pair goes in front of the first key that is not smaller. -/
def insertKey (k : κ) (v : α) (l : List (κ × α)) : List (κ × α) :=
  l.takeWhile (fun e => e.1 < k) ++ (k, v) :: l.dropWhile (fun e => e.1 < k)

theorem Sorted.append {a b : List (κ × α)} (ha : Sorted a) (hb : Sorted b)
    (h : ∀ x ∈ a, ∀ y ∈ b, x.1 < y.1) : Sorted (a ++ b) :=
  List.pairwise_append.mpr ⟨ha, hb, h⟩

@[simp] theorem insert_nil (k : κ) (v : α) : insertKey k v [] = [(k, v)] := rfl

/-- Insertion passes over a prefix whose keys are all smaller. -/
theorem insert_append_left {a : List (κ × α)} (b : List (κ × α)) {k : κ} {v : α}
    (h : ∀ e ∈ a, e.1 < k) : insertKey k v (a ++ b) = a ++ insertKey k v b := by
  induction a with
  | nil => rfl
  | cons e a ih =>
    have he : e.1 < k := h e (by simp)
    have ht := ih (fun x hx => h x (by simp [hx]))
    simp only [insertKey, List.cons_append] at ht ⊢
    simp [he, ht]

/-- Insertion does not reach a suffix whose keys are all larger. -/
theorem insert_append_right (a : List (κ × α)) {b : List (κ × α)} {k : κ} {v : α}
    (h : ∀ e ∈ b, k < e.1) : insertKey k v (a ++ b) = insertKey k v a ++ b := by
  induction a with
  | nil =>
    cases b with
    | nil => rfl
    | cons e b => simp [insertKey, not_lt.mpr (h e (by simp)).le]
  | cons e a ih =>
    simp only [insertKey, List.cons_append, List.append_assoc] at ih ⊢
    by_cases he : e.1 < k
    · simp [he, ih]
    · simp [he]

theorem insert_length (k : κ) (v : α) (l : List (κ × α)) :
    (insertKey k v l).length = l.length + 1 := by
  have h := congrArg List.length
    (List.takeWhile_append_dropWhile (p := fun e : κ × α => e.1 < k) (l := l))
  simp only [List.length_append] at h
  simp only [insertKey, List.length_append, List.length_cons]
  omega

theorem mem_insert {k : κ} {v : α} {l : List (κ × α)} {e : κ × α} :
    e ∈ insertKey k v l ↔ e = (k, v) ∨ e ∈ l := by
  have h : e ∈ l ↔ e ∈ l.takeWhile (fun e => e.1 < k) ∨ e ∈ l.dropWhile (fun e => e.1 < k) := by
    rw [← List.mem_append, List.takeWhile_append_dropWhile]
  rw [h]
  simp only [insertKey, List.mem_append, List.mem_cons]
  tauto

theorem lookup_none {k : κ} {l : List (κ × α)} :
    l.lookup k = none ↔ ∀ e ∈ l, e.1 ≠ k := by
  rw [List.lookup_eq_none_iff]
  exact forall₂_congr fun e _ => bne_iff_ne.trans ne_comm

theorem lookup_bound {k : κ} {l : List (κ × α)} :
    (∃ e ∈ l, e.1 = k) ↔ l.lookup k ≠ none := by
  rw [ne_eq, lookup_none, not_forall]
  simp

theorem insert_sorted {k : κ} (v : α) {l : List (κ × α)} (hs : Sorted l)
    (hk : ∀ e ∈ l, e.1 ≠ k) : Sorted (insertKey k v l) := by
  induction l with
  | nil => exact List.pairwise_singleton _ _
  | cons e l ih =>
    obtain ⟨he, hl⟩ := List.pairwise_cons.mp hs
    by_cases hlt : e.1 < k
    · have hi := insert_append_left (a := [e]) l (k := k) (v := v) (by simpa using hlt)
      simp only [List.singleton_append] at hi
      rw [hi]
      refine List.pairwise_cons.mpr ⟨?_, ih hl (fun x hx => hk x (by simp [hx]))⟩
      intro x hx
      rcases mem_insert.mp hx with rfl | hx
      · exact hlt
      · exact he x hx
    · have hgt : k < e.1 := lt_of_le_of_ne (not_lt.mp hlt) (hk e (by simp)).symm
      have hi : insertKey k v (e :: l) = (k, v) :: e :: l := by simp [insertKey, hlt]
      rw [hi]
      refine List.pairwise_cons.mpr ⟨?_, hs⟩
      intro x hx
      rcases List.mem_cons.mp hx with rfl | hx
      · exact hgt
      · exact hgt.trans (he x hx)

/-- Insertion of a new key is a map update. -/
theorem lookup_insert {k j : κ} (v : α) {l : List (κ × α)} (hk : ∀ e ∈ l, e.1 ≠ k) :
    (insertKey k v l).lookup j = if j = k then some v else l.lookup j := by
  have hl : l.lookup j = ((l.takeWhile (fun e => e.1 < k)).lookup j).or
      ((l.dropWhile (fun e => e.1 < k)).lookup j) := by
    rw [← List.lookup_append, List.takeWhile_append_dropWhile]
  rw [insertKey, List.lookup_append, hl]
  by_cases hj : j = k
  · subst hj
    have hn : (l.takeWhile (fun e => e.1 < j)).lookup j = none :=
      lookup_none.mpr fun e he => hk e (List.takeWhile_subset _ he)
    simp [hn]
  · have hb : (j == k) = false := by simp [hj]
    simp [List.lookup_cons, hj, hb]

end DbApi.Library.SortedMap
