import DbApi.Index.Bptree
import DbApi.Library.Separators

namespace DbApi.Proofs.BptreeShape
open Library SortedMap Separators Index

variable {α : Type}

mutual

/-- All pairs below a node, from left to right. -/
def entriesOf : BPlusTreeNode α → List (Int × α)
  | .leaf _ entries _ => entries
  | .internal _ children => entriesOfAll children

def entriesOfAll : List (BPlusTreeNode α) → List (Int × α)
  | [] => []
  | child :: rest => entriesOf child ++ entriesOfAll rest

end

theorem entriesOfAll_eq (cs : List (BPlusTreeNode α)) : entriesOfAll cs = cs.flatMap entriesOf := by
  induction cs with
  | nil => rfl
  | cons c cs ih => simp [entriesOfAll, ih]

@[simp] theorem entries_leaf (a : Nat) (es : List (Int × α)) (next : Option Nat) :
    entriesOf (.leaf a es next) = es := rfl

@[simp] theorem entries_internal (ks : List Int) (cs : List (BPlusTreeNode α)) :
    entriesOf (.internal ks cs) = cs.flatMap entriesOf := entriesOfAll_eq cs

/-- A node at height `h` whose keys all lie in the half-open interval, between
one and three to a node and strictly increasing, with every leaf at height 0. -/
def Shaped : Nat → Option Int → Option Int → BPlusTreeNode α → Prop
  | 0, lo, hi, .leaf _ es _ =>
    es ≠ [] ∧ es.length ≤ bptreeMaxKeys ∧ Sorted es ∧ ∀ e ∈ es, Above lo e.1 ∧ Below hi e.1
  | h + 1, lo, hi, .internal ks cs =>
    ks ≠ [] ∧ ks.length ≤ bptreeMaxKeys ∧ Between (Shaped h) lo ks cs hi
  | 0, _, _, .internal _ _ => False
  | _ + 1, _, _, .leaf _ _ _ => False

theorem Shaped.contents {h : Nat} {lo hi : Option Int} {n : BPlusTreeNode α}
    (hn : Shaped h lo hi n) :
    Sorted (entriesOf n) ∧ ∀ e ∈ entriesOf n, Above lo e.1 ∧ Below hi e.1 := by
  induction h generalizing lo hi n with
  | zero =>
    cases n with
    | leaf a es next => exact hn.2.2
    | internal ks cs => exact hn.elim
  | succ h ih =>
    cases n with
    | leaf a es next => exact hn.elim
    | internal ks cs =>
      rw [entries_internal]
      exact hn.2.2.contents entriesOf (fun _ _ _ hc => ih hc)

/-- A node has more keys below it than levels. -/
theorem Shaped.height {h : Nat} {lo hi : Option Int} {n : BPlusTreeNode α} (hn : Shaped h lo hi n) :
    h < (entriesOf n).length := by
  induction h generalizing lo hi n with
  | zero =>
    cases n with
    | leaf a es next => exact List.length_pos_of_ne_nil hn.1
    | internal ks cs => exact hn.elim
  | succ h ih =>
    cases n with
    | leaf a es next => exact hn.elim
    | internal ks cs =>
      obtain ⟨hne, -, hb⟩ := hn
      rw [entries_internal]
      cases hb with
      | last child => exact absurd rfl hne
      | cons _ _ first rest =>
        have hfirst := ih first
        cases rest with
        | last second =>
          have hsecond := ih second
          simp only [List.flatMap_cons, List.length_append]
          omega
        | cons _ _ second _ =>
          have hsecond := ih second
          simp only [List.flatMap_cons, List.length_append]
          omega

theorem findChildIndex_rank (ks : List Int) (key : Int) : findChildIndex ks key = rank ks key := by
  induction ks with
  | nil => rfl
  | cons k ks ih => simp only [findChildIndex, rank_cons, ih, ge_iff_le]

theorem search_child (before after : List (BPlusTreeNode α)) (c : BPlusTreeNode α) (key : Int) :
    searchChild (before ++ c :: after) before.length key = searchNode c key := by
  induction before with
  | nil => rfl
  | cons b before ih => simpa [searchChild] using ih

theorem insert_child (calloc : Nat → Bool) (used : Nat) (before after : List (BPlusTreeNode α))
    (c : BPlusTreeNode α) (key : Int) (value : α) :
    insertIntoChild calloc used (before ++ c :: after) before.length key value =
      let (c', state, used') := insertIntoNode calloc used c key value
      (before ++ c' :: after, state, used') := by
  induction before with
  | nil => rfl
  | cons b before ih => simp [insertIntoChild, ih]

/-- Everything left of the routed child is smaller than the key. -/
theorem route_before {h : Nat} {lo hi : Option Int} {ks : List Int}
    {cs : List (BPlusTreeNode α)} {key : Int} (r : Route (Shaped h) lo ks cs hi key) :
    ∀ e ∈ r.before.flatMap entriesOf, e.1 < key := by
  intro e he
  obtain ⟨c, hc, he⟩ := List.mem_flatMap.mp he
  obtain ⟨a, b, hs, hb⟩ := r.smaller c hc
  have hk := (hs.contents.2 e he).2
  exact lt_of_lt_of_le (by simpa using hk) hb

theorem route_after {h : Nat} {lo hi : Option Int} {ks : List Int}
    {cs : List (BPlusTreeNode α)} {key : Int} (r : Route (Shaped h) lo ks cs hi key) :
    ∀ e ∈ r.after.flatMap entriesOf, key < e.1 := by
  intro e he
  obtain ⟨c, hc, he⟩ := List.mem_flatMap.mp he
  obtain ⟨a, b, hs, ha⟩ := r.larger c hc
  have hk := (hs.contents.2 e he).1
  exact lt_of_lt_of_le ha (by simpa using hk)

/-- The descent finds exactly what the node holds. -/
theorem Shaped.search {h : Nat} {lo hi : Option Int} {n : BPlusTreeNode α} {key : Int}
    (hn : Shaped h lo hi n) (hlo : Above lo key) (hhi : Below hi key) :
    searchNode n key = (entriesOf n).lookup key := by
  induction h generalizing lo hi n with
  | zero =>
    cases n with
    | leaf a es next => rfl
    | internal ks cs => exact hn.elim
  | succ h ih =>
    cases n with
    | leaf a es next => exact hn.elim
    | internal ks cs =>
      obtain ⟨r⟩ := hn.2.2.route hlo hhi
      have hbefore : (r.before.flatMap entriesOf).lookup key = none :=
        lookup_none.mpr fun e he => (route_before r e he).ne
      have hafter : (r.after.flatMap entriesOf).lookup key = none :=
        lookup_none.mpr fun e he => (route_after r e he).ne'
      have hcs : cs.flatMap entriesOf = _ := congrArg (List.flatMap entriesOf) r.children_eq
      calc searchNode (.internal ks cs) key
          = searchChild cs r.before.length key := by
            rw [searchNode, findChildIndex_rank, r.rank_before]
        _ = searchChild (r.before ++ r.child :: r.after) r.before.length key :=
            congrArg (searchChild · _ key) r.children_eq
        _ = (entriesOf r.child).lookup key := by rw [search_child, ih r.holds r.above r.below]
        _ = (entriesOf (.internal ks cs)).lookup key := by
            rw [entries_internal, hcs]
            simp [List.flatMap_append, List.lookup_append, hbefore, hafter]

/-- What inserting below a node of height `h` may do when allocation succeeds:
refuse a key that is there, or add it in place, or split in two. -/
inductive Outcome (h : Nat) (lo hi : Option Int) (n : BPlusTreeNode α) (key : Int) (value : α) :
    BPlusTreeNode α × InsertState α × Nat → Prop
  | duplicate {message : Bytes} {used : Nat} (known : ∃ e ∈ entriesOf n, e.1 = key) :
      Outcome h lo hi n key value (n, ⟨false, none, message⟩, used)
  | inPlace {n' : BPlusTreeNode α} {used : Nat} (fresh : ∀ e ∈ entriesOf n, e.1 ≠ key)
      (shaped : Shaped h lo hi n') (entries : entriesOf n' = insertKey key value (entriesOf n)) :
      Outcome h lo hi n key value (n', ⟨true, none, []⟩, used)
  | split {left right : BPlusTreeNode α} {promoted : Int} {used : Nat}
      (fresh : ∀ e ∈ entriesOf n, e.1 ≠ key) (past : Past lo promoted) (below : Below hi promoted)
      (shapedLeft : Shaped h lo (some promoted) left)
      (shapedRight : Shaped h (some promoted) hi right)
      (entries : entriesOf left ++ entriesOf right = insertKey key value (entriesOf n)) :
      Outcome h lo hi n key value (left, ⟨true, some (promoted, right), []⟩, used)

theorem leaf_index (es : List (Int × α)) (key : Int) :
    leafInsertIndex es key = (es.takeWhile (fun e => e.1 < key)).length := by
  induction es with
  | nil => rfl
  | cons e es ih => by_cases h : e.1 < key <;> simp [leafInsertIndex, h, ih]

/-- Shifting the tail of the arrays is insertion at that index. -/
theorem shifted_eq (es : List (Int × α)) (key : Int) (value : α) :
    es.insertIdx (leafInsertIndex es key) (key, value) = insertKey key value es := by
  induction es with
  | nil => rfl
  | cons e es ih =>
    by_cases h : e.1 < key
    · simpa [leafInsertIndex, insertKey, h] using ih
    · simp [leafInsertIndex, insertKey, h]

/-- The key at the insertion index decides whether the key is there at all. -/
theorem duplicate_iff {es : List (Int × α)} (hs : Sorted es) (key : Int) :
    (es[leafInsertIndex es key]?.map Prod.fst) = some key ↔ ∃ e ∈ es, e.1 = key := by
  induction es with
  | nil => simp [leafInsertIndex]
  | cons e es ih =>
    obtain ⟨he, ht⟩ := List.pairwise_cons.mp hs
    by_cases h : e.1 < key
    · have hne : e.1 ≠ key := h.ne
      simpa [leafInsertIndex, h, hne] using ih ht
    · have hrest : ¬ ∃ x ∈ es, x.1 = key := by
        rintro ⟨x, hx, rfl⟩
        exact h (he x hx)
      simp [leafInsertIndex, h] at hrest ⊢
      intro a ha
      exact absurd ha (hrest a)

end DbApi.Proofs.BptreeShape
