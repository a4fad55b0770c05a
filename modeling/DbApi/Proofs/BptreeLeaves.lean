import DbApi.Proofs.BptreeHeap

namespace DbApi.Proofs.BptreeLeaves
open Library Separators SortedMap Index BptreeShape BptreeInsert

variable {α : Type} {lo hi : Option Int} {key : Int} {value : α}

mutual

/-- The leaves below a node, from left to right, with their `next`. -/
def leavesOf : BPlusTreeNode α → List (Nat × Option Nat)
  | .leaf address _ next => [(address, next)]
  | .internal _ children => leavesOfAll children

def leavesOfAll : List (BPlusTreeNode α) → List (Nat × Option Nat)
  | [] => []
  | child :: rest => leavesOf child ++ leavesOfAll rest

end

theorem leavesOfAll_eq (cs : List (BPlusTreeNode α)) : leavesOfAll cs = cs.flatMap leavesOf := by
  induction cs with
  | nil => rfl
  | cons c cs ih => simp [leavesOfAll, ih]

@[simp] theorem leaves_leaf (a : Nat) (es : List (Int × α)) (next : Option Nat) :
    leavesOf (.leaf a es next) = [(a, next)] := rfl

@[simp] theorem leaves_internal (ks : List Int) (cs : List (BPlusTreeNode α)) :
    leavesOf (.internal ks cs) = cs.flatMap leavesOf := leavesOfAll_eq cs

/-- The address of the first leaf, if any, else where the chain goes on. -/
def start (leaves : List (Nat × Option Nat)) (last : Option Nat) : Option Nat :=
  match leaves with
  | [] => last
  | (address, _) :: _ => some address

/-- Each leaf points to the one after it, and the last one to `last`. -/
def Linked : List (Nat × Option Nat) → Option Nat → Prop
  | [], _ => True
  | (_, next) :: rest, last => next = start rest last ∧ Linked rest last

theorem start_append (front rest : List (Nat × Option Nat)) (last : Option Nat) :
    start (front ++ rest) last = start front (start rest last) := by
  cases front <;> rfl

theorem linked_append (front rest : List (Nat × Option Nat)) (last : Option Nat) :
    Linked (front ++ rest) last ↔ Linked front (start rest last) ∧ Linked rest last := by
  induction front with
  | nil => simp [Linked]
  | cons leaf front ih => simp only [List.cons_append, Linked, ih, start_append, and_assoc]

/-- A stretch of the chain that may take another's place. -/
def Relinked (old new : List (Nat × Option Nat)) : Prop :=
  ∀ last, Linked old last → Linked new last ∧ start new last = start old last

theorem Relinked.around {old new : List (Nat × Option Nat)} (h : Relinked old new)
    (before after : List (Nat × Option Nat)) :
    Relinked (before ++ (old ++ after)) (before ++ (new ++ after)) := by
  intro last hold
  rw [linked_append, linked_append, start_append] at hold
  obtain ⟨hbefore, hmiddle, hafter⟩ := hold
  obtain ⟨hnew, hstart⟩ := h _ hmiddle
  simp only [linked_append, start_append, hstart]
  exact ⟨⟨hbefore, hnew, hafter⟩, trivial⟩

/-- The leaves of a node after an insertion, with those of its right half. -/
def leavesAfter (n : BPlusTreeNode α) (split : Option (Int × BPlusTreeNode α)) :
    List (Nat × Option Nat) :=
  leavesOf n ++ (split.elim [] fun half => leavesOf half.2)

theorem leaf_relinked (used a : Nat) (es : List (Int × α)) (next : Option Nat) (key : Int)
    (value : α) :
    Relinked [(a, next)] (leavesAfter (insertIntoLeaf allocates used a es next key value).1
      (insertIntoLeaf allocates used a es next key value).2.1.split) := by
  intro last hlinked
  obtain ⟨hnext, -⟩ := hlinked
  unfold insertIntoLeaf
  dsimp only
  split
  · exact ⟨⟨hnext, trivial⟩, rfl⟩
  · split
    · exact ⟨⟨hnext, trivial⟩, rfl⟩
    · exact ⟨⟨rfl, hnext, trivial⟩, rfl⟩

theorem internal_relinked {h : Nat} {ks : List Int} {cs : List (BPlusTreeNode α)}
    (r : Route (Shaped h) lo ks cs hi key) {result : BPlusTreeNode α × InsertState α × Nat}
    (hout : Outcome h r.low r.high r.child key value result)
    (hchild : Relinked (leavesOf r.child) (leavesAfter result.1 result.2.1.split)) :
    Relinked (leavesOf (.internal ks cs))
      (leavesAfter
        (insertIntoInternal allocates ks (rank ks key)
          (r.before ++ result.1 :: r.after, result.2.1, result.2.2)).1
        (insertIntoInternal allocates ks (rank ks key)
          (r.before ++ result.1 :: r.after, result.2.1, result.2.2)).2.1.split) := by
  have hcs : cs.flatMap leavesOf = r.before.flatMap leavesOf ++
      (leavesOf r.child ++ r.after.flatMap leavesOf) := by
    simpa using congrArg (List.flatMap leavesOf) r.children_eq
  have haround := hchild.around (r.before.flatMap leavesOf) (r.after.flatMap leavesOf)
  rw [leaves_internal, hcs]
  cases hout with
  | duplicate known => simpa [insertIntoInternal, leavesAfter] using haround
  | inPlace fresh shaped entries => simpa [insertIntoInternal, leavesAfter] using haround
  | @split left right promoted used fresh past below shapedLeft shapedRight entries =>
    have hnodes : (r.before ++ left :: r.after).insertIdx (rank ks key + 1) right =
        r.before ++ [left, right] ++ r.after := by
      have hbetween := insertIdx_between (r.before ++ [left]) r.after right
      rw [List.length_append, List.length_singleton, r.rank_before] at hbetween
      simpa using hbetween
    simp only [insertIntoInternal, Bool.not_true, Bool.false_eq_true, ↓reduceIte, hnodes]
    split
    · simpa [leavesAfter] using haround
    · simp only [createNode, allocates, ↓reduceIte, leavesAfter, Option.elim, leaves_internal]
      rw [← List.flatMap_append, List.take_append_drop]
      simpa [leavesAfter] using haround

/-- An insertion below a node keeps the chain of the leaves, around it and below it. -/
theorem node_relinked {h : Nat} {n : BPlusTreeNode α} (hn : Shaped h lo hi n)
    (hlo : Above lo key) (hhi : Below hi key) (used : Nat) :
    Relinked (leavesOf n) (leavesAfter (insertIntoNode allocates used n key value).1
      (insertIntoNode allocates used n key value).2.1.split) := by
  induction h generalizing lo hi n with
  | zero =>
    cases n with
    | leaf a es next => exact leaf_relinked used a es next key value
    | internal ks cs => exact hn.elim
  | succ h ih =>
    cases n with
    | leaf a es next => exact hn.elim
    | internal ks cs =>
      obtain ⟨r⟩ := hn.2.2.route hlo hhi
      rw [insert_routed allocates used value r]
      exact internal_relinked r
        (node_outcome (fun _ => rfl) r.holds r.above r.below used) (ih r.holds r.above r.below)

/-- The chain of the whole tree ends after its last leaf. -/
def Chained (tree : BPlusTree α) : Prop := ∀ root ∈ tree.root, Linked (leavesOf root) none

theorem Chained.insert {tree : BPlusTree α} (hc : Chained tree)
    (hs : ∀ root ∈ tree.root, ∃ h, Shaped h none none root) (key : Int) (value : α) :
    Chained (bptreeInsert allocates tree key value).1 := by
  obtain ⟨root, used⟩ := tree
  cases root with
  | none =>
    intro root hroot
    cases hroot
    exact ⟨rfl, trivial⟩
  | some root =>
    obtain ⟨h, shaped⟩ := hs root rfl
    obtain ⟨hlinked, -⟩ := @node_relinked α none none key value h root shaped (above_none key)
      (below_none key) used none (hc root rfl)
    have hout : Outcome h none none root key value (insertIntoNode allocates used root key value) :=
      node_outcome (fun _ => rfl) shaped (above_none key) (below_none key) used
    simp only [bptreeInsert]
    generalize insertIntoNode allocates used root key value = result at hlinked hout
    intro root' hroot
    cases hout with
    | duplicate known =>
      cases hroot
      simpa [leavesAfter] using hlinked
    | inPlace fresh shaped' entries =>
      cases hroot
      simpa [leavesAfter] using hlinked
    | split fresh past below shapedLeft shapedRight entries =>
      cases hroot
      simpa [leavesAfter] using hlinked

theorem insertAll_chained (ops : List (Int × α)) :
    Chained (BptreeMap.insertAll allocates ops) := by
  induction ops using List.reverseRecOn with
  | nil =>
    intro root hroot
    cases hroot
  | append_singleton ops op ih =>
    rw [BptreeMap.insertAll_snoc]
    exact ih.insert (BptreeMap.insertAll_represents ops).shaped op.1 op.2

end DbApi.Proofs.BptreeLeaves
