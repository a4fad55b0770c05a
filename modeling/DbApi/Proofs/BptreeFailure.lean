import DbApi.Proofs.BptreeMap

namespace DbApi.Proofs.BptreeFailure
open Library SortedMap Separators Index BptreeShape BptreeInsert BptreeMap

variable {α : Type} {calloc : Nat → Bool} {lo hi : Option Int} {key : Int} {value : α}

mutual

/-- Every node keeps to the limit. -/
def Bounded : BPlusTreeNode α → Prop
  | .leaf _ entries _ => entries.length ≤ bptreeMaxKeys
  | .internal keys children => keys.length ≤ bptreeMaxKeys ∧ BoundedAll children

def BoundedAll : List (BPlusTreeNode α) → Prop
  | [] => True
  | child :: rest => Bounded child ∧ BoundedAll rest

end

mutual

/-- What an insertion below a node has to allocate, and whether it splits the node: the
full nodes in which the path of the key ends. -/
def demand : BPlusTreeNode α → Int → Nat × Bool
  | .leaf _ entries _, _ => if entries.length < bptreeMaxKeys then (0, false) else (1, true)
  | .internal keys children, key =>
    let (count, splits) := demandBelow children (findChildIndex keys key) key
    if splits = true ∧ bptreeMaxKeys ≤ keys.length then (count + 1, true) else (count, false)

def demandBelow : List (BPlusTreeNode α) → Nat → Int → Nat × Bool
  | [], _, _ => (0, false)
  | child :: _, 0, key => demand child key
  | _ :: rest, index + 1, key => demandBelow rest index key

end

/-- A split of the root takes a new root, too. -/
def rootDemand (root : BPlusTreeNode α) (key : Int) : Nat :=
  let (count, splits) := demand root key
  if splits then count + 1 else count

theorem boundedAll_iff (cs : List (BPlusTreeNode α)) : BoundedAll cs ↔ ∀ c ∈ cs, Bounded c := by
  induction cs with
  | nil => simp [BoundedAll]
  | cons c cs ih => simp [BoundedAll, ih]

theorem Shaped.bounded {h : Nat} {n : BPlusTreeNode α} (hn : Shaped h lo hi n) : Bounded n := by
  induction h generalizing lo hi n with
  | zero =>
    cases n with
    | leaf a es next => exact hn.2.1
    | internal ks cs => exact hn.elim
  | succ h ih =>
    cases n with
    | leaf a es next => exact hn.elim
    | internal ks cs =>
      obtain ⟨-, hlen, hb⟩ := hn
      refine ⟨hlen, (boundedAll_iff cs).mpr ?_⟩
      intro c hc
      obtain ⟨a, b, hs⟩ := hb.child c hc
      exact ih hs

theorem demand_child (before after : List (BPlusTreeNode α)) (c : BPlusTreeNode α) (key : Int) :
    demandBelow (before ++ c :: after) before.length key = demand c key := by
  induction before with
  | nil => rfl
  | cons b before ih => simpa [demandBelow] using ih

theorem demand_internal {h : Nat} {ks : List Int} {cs : List (BPlusTreeNode α)}
    (r : Route (Shaped h) lo ks cs hi key) :
    demand (.internal ks cs) key =
      if (demand r.child key).2 = true ∧ bptreeMaxKeys ≤ ks.length then
        ((demand r.child key).1 + 1, true)
      else ((demand r.child key).1, false) := by
  have hbelow : demandBelow cs (findChildIndex ks key) key = demand r.child key := by
    rw [findChildIndex_rank, ← r.rank_before]
    calc demandBelow cs r.before.length key
        = demandBelow (r.before ++ r.child :: r.after) r.before.length key :=
          congrArg (demandBelow · _ key) r.children_eq
      _ = demand r.child key := demand_child _ _ _ _
  rw [demand, hbelow]

/-- What an insertion below a node may do, whatever the allocator does: refuse a key that is
there, or do what it does when every allocation succeeds, or leave a node overfull. -/
inductive Attempt (calloc : Nat → Bool) (used : Nat) (n : BPlusTreeNode α) (key : Int) (value : α) :
    BPlusTreeNode α × InsertState α × Nat → Prop
  | known {message : Bytes} (known : ∃ e ∈ entriesOf n, e.1 = key) :
      Attempt calloc used n key value (n, ⟨false, none, message⟩, used)
  | supplied {n' : BPlusTreeNode α} {state : InsertState α} {used' : Nat}
      (fresh : ∀ e ∈ entriesOf n, e.1 ≠ key)
      (allocated : ∀ i < (demand n key).1, calloc (used + i) = true)
      (same : insertIntoNode allocates used n key value = (n', state, used'))
      (count : used' = used + (demand n key).1)
      (splits : state.split.isSome = (demand n key).2) :
      Attempt calloc used n key value (n', state, used')
  | failed {n' : BPlusTreeNode α} {message : Bytes} {used' : Nat}
      (fresh : ∀ e ∈ entriesOf n, e.1 ≠ key)
      (short : ∃ i < (demand n key).1, calloc (used + i) = false) (overfull : ¬ Bounded n') :
      Attempt calloc used n key value (n', ⟨false, none, message⟩, used')

theorem leaf_attempt {a : Nat} {es : List (Int × α)} {next : Option Nat}
    (hn : Shaped 0 lo hi (.leaf a es next)) (used : Nat) :
    Attempt calloc used (.leaf a es next) key value
      (insertIntoLeaf calloc used a es next key value) := by
  obtain ⟨hne, hlen, hs, hb⟩ := hn
  have hdup := duplicate_iff hs key
  have hlength := insert_length key value es
  have hsame : insertIntoNode allocates used (.leaf a es next) key value =
      insertIntoLeaf allocates used a es next key value := rfl
  unfold insertIntoLeaf at hsame ⊢
  simp only [hdup, shifted_eq] at hsame ⊢
  by_cases hknown : ∃ e ∈ es, e.1 = key
  · rw [if_pos hknown]
    exact .known hknown
  · have fresh : ∀ e ∈ es, e.1 ≠ key := fun e he heq => hknown ⟨e, he, heq⟩
    rw [if_neg hknown] at hsame ⊢
    by_cases hroom : (insertKey key value es).length ≤ bptreeMaxKeys
    · have hdemand : demand (.leaf a es next) key = (0, false) := by
        rw [demand, if_pos (by omega)]
      rw [if_pos hroom] at hsame ⊢
      apply Attempt.supplied fresh ?_ hsame
      · rw [hdemand]
        rfl
      · rw [hdemand]
        rfl
      · rw [hdemand]
        intro i hi
        cases hi
    · have hdemand : demand (.leaf a es next) key = (1, true) := by
        rw [demand, if_neg (by omega)]
      rw [if_neg hroom] at hsame ⊢
      cases hcalloc : calloc used with
      | true =>
        simp only [createNode, hcalloc, allocates, ↓reduceIte] at hsame ⊢
        apply Attempt.supplied fresh ?_ hsame
        · rw [hdemand]
        · rw [hdemand]
          rfl
        · rw [hdemand]
          intro i hi
          obtain rfl := Nat.lt_one_iff.mp hi
          exact hcalloc
      | false =>
        simp only [createNode, hcalloc, Bool.false_eq_true, ↓reduceIte]
        apply Attempt.failed fresh
        · rw [hdemand]
          exact ⟨0, Nat.one_pos, hcalloc⟩
        · exact hroom

/-- The allocations of a node that splits follow those below it. -/
theorem internal_attempt {h : Nat} {ks : List Int} {cs : List (BPlusTreeNode α)} {used : Nat}
    (hn : Shaped (h + 1) lo hi (.internal ks cs)) (r : Route (Shaped h) lo ks cs hi key)
    {result : BPlusTreeNode α × InsertState α × Nat}
    (hchild : Attempt calloc used r.child key value result) :
    Attempt calloc used (.internal ks cs) key value
      (insertIntoInternal calloc ks (rank ks key)
        (r.before ++ result.1 :: r.after, result.2.1, result.2.2)) := by
  obtain ⟨hne, hlen, hb⟩ := hn
  have hdemand := demand_internal r
  have hsame := insert_routed allocates used value r
  cases hchild with
  | known hknown =>
    obtain ⟨e, he, hek⟩ := hknown
    have hsame : r.before ++ r.child :: r.after = cs := r.children_eq.symm
    simp only [insertIntoInternal, hsame]
    apply Attempt.known
    refine ⟨e, ?_, hek⟩
    rw [entries_internal]
    exact List.mem_flatMap.mpr ⟨r.child, r.child_mem, he⟩
  | failed fresh short overfull =>
    simp only [insertIntoInternal]
    apply Attempt.failed (by simpa using fresh_around r fresh)
    · obtain ⟨i, hi, hcalloc⟩ := short
      refine ⟨i, ?_, hcalloc⟩
      rw [hdemand]
      split
      · exact Nat.lt_succ_of_lt hi
      · exact hi
    · intro hbounded
      exact overfull ((boundedAll_iff _).mp hbounded.2 _ (by simp))
  | @supplied child' state used' fresh allocated same count splits =>
    have hfresh : ∀ e ∈ entriesOf (.internal ks cs), e.1 ≠ key := by
      simpa using fresh_around r fresh
    rw [same] at hsame
    have hout : Outcome h r.low r.high r.child key value (child', state, used') := by
      rw [← same]
      exact node_outcome all_allocates r.holds r.above r.below used
    cases hout with
    | duplicate known =>
      obtain ⟨e, he, hek⟩ := known
      exact absurd hek (fresh e he)
    | inPlace _ _ _ =>
      have hnone : (demand r.child key).2 = false := splits.symm
      rw [hnone, if_neg (by simp)] at hdemand
      simp only [insertIntoInternal, Bool.not_true, Bool.false_eq_true, ↓reduceIte] at hsame ⊢
      apply Attempt.supplied hfresh ?_ hsame
      · rw [hdemand]
        exact count
      · rw [hdemand]
        rfl
      · rw [hdemand]
        exact allocated
    | @split left right promoted _ _ _ _ _ _ _ =>
      have hsome : (demand r.child key).2 = true := splits.symm
      have hrank : rank ks key ≤ ks.length := by
        rw [← r.rank_keys, congrArg List.length r.keys_eq]
        simp
      have hlength : (ks.insertIdx (rank ks key) promoted).length = ks.length + 1 :=
        List.length_insertIdx_of_le_length hrank promoted
      simp only [insertIntoInternal, Bool.not_true, Bool.false_eq_true, ↓reduceIte] at hsame ⊢
      by_cases hroom : (ks.insertIdx (rank ks key) promoted).length ≤ bptreeMaxKeys
      · rw [if_neg (by omega)] at hdemand
        rw [if_pos hroom] at hsame ⊢
        apply Attempt.supplied hfresh ?_ hsame
        · rw [hdemand]
          exact count
        · rw [hdemand]
          rfl
        · rw [hdemand]
          exact allocated
      · rw [hsome, if_pos ⟨rfl, by omega⟩] at hdemand
        rw [if_neg hroom] at hsame ⊢
        cases hcalloc : calloc used' with
        | true =>
          simp only [createNode, hcalloc, allocates, ↓reduceIte] at hsame ⊢
          apply Attempt.supplied hfresh ?_ hsame
          · rw [hdemand, count]
            rfl
          · rw [hdemand]
            rfl
          · rw [hdemand]
            intro i hi
            rcases Nat.lt_succ_iff_lt_or_eq.mp hi with hi | rfl
            · exact allocated i hi
            · rw [← count]
              exact hcalloc
        | false =>
          simp only [createNode, hcalloc, Bool.false_eq_true, ↓reduceIte]
          apply Attempt.failed hfresh
          · rw [hdemand]
            refine ⟨_, Nat.lt_succ_self _, ?_⟩
            rw [← count]
            exact hcalloc
          · intro hbounded
            exact hroom hbounded.1

theorem node_attempt (calloc : Nat → Bool) {h : Nat} {n : BPlusTreeNode α} (hn : Shaped h lo hi n)
    (hlo : Above lo key) (hhi : Below hi key) (used : Nat) :
    Attempt calloc used n key value (insertIntoNode calloc used n key value) := by
  induction h generalizing lo hi n with
  | zero =>
    cases n with
    | leaf a es next => exact leaf_attempt hn used
    | internal ks cs => exact hn.elim
  | succ h ih =>
    cases n with
    | leaf a es next => exact hn.elim
    | internal ks cs =>
      obtain ⟨r⟩ := hn.2.2.route hlo hhi
      rw [insert_routed calloc used value r]
      exact internal_attempt hn r (ih r.holds r.above r.below)

/-- Both halves of a split hold keys that were there before. -/
theorem split_right {h : Nat} {n left right : BPlusTreeNode α} {promoted : Int} {used used' : Nat}
    (hn : Shaped h lo hi n) (hright : Shaped h (some promoted) hi right)
    (hsplit : insertIntoNode allocates used n key value =
      (left, ⟨true, some (promoted, right), []⟩, used')) : 2 ≤ (entriesOf right).length := by
  cases h with
  | zero =>
    cases n with
    | leaf a es next =>
      rw [insertIntoNode, insertIntoLeaf] at hsplit
      dsimp only at hsplit
      split at hsplit
      · cases hsplit
      · split at hsplit
        · cases hsplit
        · rename_i hfull
          simp only [createNode, allocates, ↓reduceIte] at hsplit
          cases hsplit
          rw [entries_leaf, List.length_drop]
          rw [bptreeMaxKeys] at hfull
          omega
    | internal ks cs => exact hn.elim
  | succ h => exact (Nat.succ_le_succ (Nat.succ_pos h)).trans hright.height

theorem Shaped.widen {h : Nat} {n : BPlusTreeNode α} (hn : Shaped h lo hi n) :
    Shaped h lo none n := by
  induction h generalizing lo n with
  | zero =>
    cases n with
    | leaf a es next =>
      obtain ⟨hne, hlen, hs, hb⟩ := hn
      exact ⟨hne, hlen, hs, fun e he => ⟨(hb e he).1, below_none _⟩⟩
    | internal ks cs => exact hn.elim
  | succ h ih =>
    cases n with
    | leaf a es next => exact hn.elim
    | internal ks cs => exact ⟨hn.1, hn.2.1, hn.2.2.widen fun _ _ hc => ih hc⟩

/-- A tree whose root is the left half of a split has lost a key. -/
theorem left_loses {h : Nat} {root left right : BPlusTreeNode α} {promoted : Int} {used used' : Nat}
    (hroot : Shaped h none none root) (hleft : Shaped h none (some promoted) left)
    (hright : Shaped h (some promoted) none right) (htwo : 2 ≤ (entriesOf right).length)
    (hentries : entriesOf left ++ entriesOf right = insertKey key value (entriesOf root)) :
    ∃ k, bptreeSearch ⟨some left, used'⟩ k ≠ bptreeSearch ⟨some root, used⟩ k := by
  obtain ⟨e, he, hother⟩ : ∃ e ∈ entriesOf right, e.1 ≠ key := by
    obtain ⟨hsorted, -⟩ := hright.contents
    cases hes : entriesOf right with
    | nil =>
      rw [hes] at htwo
      cases htwo
    | cons first rest =>
      cases rest with
      | nil =>
        rw [hes] at htwo
        cases htwo
        contradiction
      | cons second rest =>
        rw [hes] at hsorted
        have hlt := (List.pairwise_cons.mp hsorted).1 second (by simp)
        by_cases hfirst : first.1 = key
        · exact ⟨second, by simp, fun h => by omega⟩
        · exact ⟨first, by simp, hfirst⟩
  have hold : e ∈ entriesOf root := by
    have hmem : e ∈ insertKey key value (entriesOf root) := by
      rw [← hentries]
      exact List.mem_append_right _ he
    rcases mem_insert.mp hmem with heq | hmem
    · rw [heq] at hother
      exact absurd rfl hother
    · exact hmem
  refine ⟨e.1, ?_⟩
  rw [search_root (Shaped.widen hleft), search_root hroot]
  have hnone : (entriesOf left).lookup e.1 = none := by
    apply lookup_none.mpr
    intro d hd
    have hbelow := (hleft.contents.2 d hd).2
    have habove := (hright.contents.2 e he).1
    rw [below_some] at hbelow
    rw [above_some] at habove
    omega
  rw [hnone]
  intro hsame
  exact lookup_none.mp hsame.symm e hold rfl

/-- A tree whose root is well-formed; the empty one is. -/
def TreeShaped (tree : BPlusTree α) : Prop := ∀ root ∈ tree.root, ∃ h, Shaped h none none root

/-- A refused insertion changes no search and leaves no node overfull. -/
def Atomic (calloc : Nat → Bool) (tree : BPlusTree α) (key : Int) (value : α) : Prop :=
  ∀ error, (bptreeInsert calloc tree key value).2 = .error error →
    (∀ k, bptreeSearch (bptreeInsert calloc tree key value).1 k = bptreeSearch tree k) ∧
    ∀ root ∈ (bptreeInsert calloc tree key value).1.root, Bounded root

/-- The tree is empty, or has the key already, or the splits that the insertion takes all get
their nodes. -/
def Supplied (calloc : Nat → Bool) (tree : BPlusTree α) (key : Int) : Prop :=
  ∀ root ∈ tree.root, (bptreeSearch tree key).isSome = true ∨
    ∀ i < rootDemand root key, calloc (tree.used + i) = true

theorem search_known {h : Nat} {root : BPlusTreeNode α} (hs : Shaped h none none root) (used : Nat) :
    (bptreeSearch ⟨some root, used⟩ key).isSome = true ↔ ∃ e ∈ entriesOf root, e.1 = key := by
  rw [search_root hs, Option.isSome_iff_ne_none, ne_eq, lookup_none]
  simp

theorem shaped_some {h : Nat} {root : BPlusTreeNode α} (hs : Shaped h none none root) (used : Nat) :
    TreeShaped ⟨some root, used⟩ := by
  intro n hn
  cases hn
  exact ⟨h, hs⟩

/-- One insertion. -/
theorem insert_atomic (calloc : Nat → Bool) {tree : BPlusTree α} (ht : TreeShaped tree)
    (key : Int) (value : α) :
    (Atomic calloc tree key value ↔ Supplied calloc tree key) ∧
      (Supplied calloc tree key → TreeShaped (bptreeInsert calloc tree key value).1) := by
  obtain ⟨root, used⟩ := tree
  rw [Atomic]
  cases root with
  | none =>
    have hsupplied : Supplied calloc (⟨none, used⟩ : BPlusTree α) key := by
      intro root hroot
      cases hroot
    have hs : Shaped 0 none none (.leaf used [(key, value)] none) := by
      simp [Shaped, Sorted, bptreeMaxKeys]
    cases hcalloc : calloc used with
    | true =>
      simp only [bptreeInsert, createNode, hcalloc, ↓reduceIte]
      refine ⟨⟨fun _ => hsupplied, ?_⟩, fun _ => shaped_some hs _⟩
      intro _ error h
      cases h
    | false =>
      simp only [bptreeInsert, createNode, hcalloc, Bool.false_eq_true, ↓reduceIte]
      refine ⟨⟨fun _ => hsupplied, ?_⟩, ?_⟩
      · intro _ error _
        refine ⟨fun k => rfl, ?_⟩
        intro root hroot
        cases hroot
      · intro _ root hroot
        cases hroot
  | some root =>
    obtain ⟨h, hs⟩ := ht root rfl
    have hknown : (bptreeSearch ⟨some root, used⟩ key).isSome = true ↔
        ∃ e ∈ entriesOf root, e.1 = key := search_known hs used
    have hsupplied : Supplied calloc ⟨some root, used⟩ key ↔
        (∃ e ∈ entriesOf root, e.1 = key) ∨
          ∀ i < rootDemand root key, calloc (used + i) = true := by
      rw [← hknown]
      constructor
      · intro hall
        exact hall root rfl
      · intro hone other hother
        cases hother
        exact hone
    have hattempt : Attempt calloc used root key value (insertIntoNode calloc used root key value) :=
      node_attempt calloc hs (above_none key) (below_none key) used
    rw [hsupplied, rootDemand]
    simp only [bptreeInsert]
    generalize insertIntoNode calloc used root key value = result at hattempt
    cases hattempt with
    | known hthere =>
      simp only [Bool.not_false, ↓reduceIte]
      refine ⟨⟨fun _ => .inl hthere, ?_⟩, fun _ => shaped_some hs _⟩
      intro _ error _
      refine ⟨fun _ => trivial, ?_⟩
      intro other hother
      cases hother
      exact Shaped.bounded hs
    | failed fresh short overfull =>
      have hunsupplied : ¬ ((∃ e ∈ entriesOf root, e.1 = key) ∨ ∀ i <
          if (demand root key).2 = true then (demand root key).1 + 1 else (demand root key).1,
          calloc (used + i) = true) := by
        intro hor
        rcases hor with ⟨e, he, hek⟩ | hall
        · exact fresh e he hek
        · obtain ⟨i, hi, hcalloc⟩ := short
          have hcalled := hall i (by split <;> omega)
          rw [hcalled] at hcalloc
          cases hcalloc
      simp only [Bool.not_false, ↓reduceIte]
      refine ⟨⟨?_, fun hor => absurd hor hunsupplied⟩, fun hor => absurd hor hunsupplied⟩
      intro hatomic
      exact absurd ((hatomic _ rfl).2 _ rfl) overfull
    | @supplied n' state used' fresh allocated same count splits =>
      have hout : Outcome h none none root key value (n', state, used') := by
        rw [← same]
        exact node_outcome all_allocates hs (above_none key) (below_none key) used
      cases hout with
      | duplicate known =>
        obtain ⟨e, he, hek⟩ := known
        exact absurd hek (fresh e he)
      | inPlace _ shaped _ =>
        have hnone : (demand root key).2 = false := splits.symm
        rw [hnone]
        simp only [Bool.not_true, Bool.false_eq_true, ↓reduceIte]
        refine ⟨⟨fun _ => .inr allocated, ?_⟩, fun _ => shaped_some shaped _⟩
        intro _ error herror
        cases herror
      | split _ past below shapedLeft shapedRight entries =>
        have hsome : (demand root key).2 = true := splits.symm
        rw [hsome]
        simp only [Bool.not_true, Bool.false_eq_true, ↓reduceIte, createNode]
        cases hcalloc : calloc used' with
        | true =>
          simp only [↓reduceIte]
          refine ⟨⟨fun _ => .inr ?_, ?_⟩, fun _ => ?_⟩
          · intro i hi
            rcases Nat.lt_succ_iff_lt_or_eq.mp hi with hi | rfl
            · exact allocated i hi
            · rw [← count]
              exact hcalloc
          · intro _ error herror
            cases herror
          · apply shaped_some (h := h + 1)
            exact ⟨by simp, by simp [bptreeMaxKeys],
              .cons past below shapedLeft (.last shapedRight)⟩
        | false =>
          simp only [Bool.false_eq_true, ↓reduceIte]
          have hunsupplied : ¬ ((∃ e ∈ entriesOf root, e.1 = key) ∨
              ∀ i < (demand root key).1 + 1, calloc (used + i) = true) := by
            intro hor
            rcases hor with ⟨e, he, hek⟩ | hall
            · exact fresh e he hek
            · have hcalled := hall (demand root key).1 (Nat.lt_succ_self _)
              rw [← count, hcalloc] at hcalled
              cases hcalled
          refine ⟨⟨?_, fun hor => absurd hor hunsupplied⟩, fun hor => absurd hor hunsupplied⟩
          intro hatomic
          obtain ⟨k, hk⟩ := left_loses hs shapedLeft shapedRight
            (split_right hs shapedRight same) entries
          exact absurd ((hatomic _ rfl).1 k) hk

/-- Each insertion of a run, in the tree that the earlier ones have left. -/
def Throughout (calloc : Nat → Bool) (ops : List (Int × α))
    (P : BPlusTree α → Int → α → Prop) : Prop :=
  ∀ before op after, ops = before ++ op :: after → P (insertAll calloc before) op.1 op.2

theorem throughout_nil (calloc : Nat → Bool) (P : BPlusTree α → Int → α → Prop) :
    Throughout calloc [] P := by
  intro before op after h
  cases before <;> cases h

theorem throughout_snoc {ops : List (Int × α)} {op : Int × α} {P : BPlusTree α → Int → α → Prop} :
    Throughout calloc (ops ++ [op]) P ↔
      Throughout calloc ops P ∧ P (insertAll calloc ops) op.1 op.2 := by
  constructor
  · intro h
    refine ⟨?_, h ops op [] rfl⟩
    rintro before middle after rfl
    exact h before middle (after ++ [op]) (by simp)
  · intro h before middle after heq
    obtain ⟨hearlier, hlast⟩ := h
    rcases List.eq_nil_or_concat after with rfl | ⟨front, last, rfl⟩
    · obtain ⟨rfl, hop⟩ := List.append_inj' heq rfl
      cases hop
      exact hlast
    · rw [List.concat_eq_append, ← List.cons_append, ← List.append_assoc] at heq
      exact hearlier before middle front (List.append_inj' heq rfl).1

/-- Where every insertion so far got its nodes, the tree is well-formed. -/
theorem run_shaped {ops : List (Int × α)}
    (h : Throughout calloc ops fun tree key _ => Supplied calloc tree key) :
    TreeShaped (insertAll calloc ops) := by
  induction ops using List.reverseRecOn with
  | nil =>
    intro root hroot
    cases hroot
  | append_singleton ops op ih =>
    obtain ⟨hearlier, hlast⟩ := throughout_snoc.mp h
    rw [insertAll_snoc]
    exact (insert_atomic calloc (ih hearlier) op.1 op.2).2 hlast

/-- Refused insertions leave a run's trees alone just where no split wants for a node. -/
theorem refused_atomic_iff (calloc : Nat → Bool) (ops : List (Int × α)) :
    Throughout calloc ops (Atomic calloc) ↔
      Throughout calloc ops fun tree key _ => Supplied calloc tree key := by
  induction ops using List.reverseRecOn with
  | nil => exact ⟨fun _ => throughout_nil _ _, fun _ => throughout_nil _ _⟩
  | append_singleton ops op ih =>
    rw [throughout_snoc, throughout_snoc, ih]
    apply and_congr_right
    intro hearlier
    exact (insert_atomic calloc (run_shaped hearlier) op.1 op.2).1

/-- An allocator that gives out one node. -/
def onlyRoot (n : Nat) : Bool := n == 0

theorem overfull_leaf :
    ¬ ∀ (calloc : Nat → Bool) (ops : List (Int × Int)), Throughout calloc ops (Atomic calloc) := by
  intro h
  have hatomic := h onlyRoot [(1, 10), (2, 20), (3, 30), (4, 40)] [(1, 10), (2, 20), (3, 30)]
    (4, 40) [] rfl
  have hsearch := (hatomic (ascii "out of memory while splitting B+ tree leaf") (by decide)).1 4
  revert hsearch
  decide

end DbApi.Proofs.BptreeFailure
