import DbApi.Proofs.BptreeLeaves

namespace DbApi.Proofs.BptreeInvariant
open Library Separators SortedMap Index Index.BptreeHeap BptreeShape BptreeHeap BptreeLeaves

variable {α : Type} {m : Memory α} {lo hi : Option Int}

def keysOf (cell : Node α) : List Int := cell.keys.take cell.keyCount

/-- The pointers to the children, of which there is one more than keys. -/
def childrenOf (cell : Node α) : List (Option Nat) := cell.children.take (cell.keyCount + 1)

/-- A node's keys, of which there are one to three, increase strictly. -/
structure Ordered (cell : Node α) : Prop where
  some : 1 ≤ cell.keyCount
  few : cell.keyCount ≤ bptreeMaxKeys
  array : cell.keys.length = bptreeMaxKeys + 1
  increasing : (keysOf cell).Pairwise (· < ·)

/-- A subtree of height `h` at an address, in its arrays and pointers: its leaves are all `h`
levels down, and its keys lie between the bounds, as those below each child lie between the
separators around it. -/
def WellFormed (m : Memory α) : Nat → Option Int → Option Int → Nat → Prop
  | 0, lo, hi, a => ∃ cell, m.node a = some cell ∧ cell.isLeaf = true ∧ Ordered cell ∧
      ∀ k ∈ keysOf cell, Above lo k ∧ Below hi k
  | h + 1, lo, hi, a => ∃ cell addresses, m.node a = some cell ∧ cell.isLeaf = false ∧
      Ordered cell ∧ childrenOf cell = addresses.map some ∧
      addresses.length = cell.keyCount + 1 ∧
      Between (WellFormed m h) lo (keysOf cell) addresses hi

/-- The addresses of the leaves below a node, from left to right. -/
def leaves (m : Memory α) : Nat → Nat → List Nat
  | 0, a => [a]
  | h + 1, a => (m.node a).elim [] fun cell =>
    (childrenOf cell).flatMap fun child => child.elim [] (leaves m h)

/-- Following `next`, with the leaves visited and the keys in them. -/
inductive Walk (m : Memory α) : Option Nat → List Nat → List Int → Prop
  | done : Walk m none [] []
  | leaf {a : Nat} {cell : Node α} {addresses : List Nat} {keys : List Int}
      (found : m.node a = some cell) (isLeaf : cell.isLeaf = true)
      (rest : Walk m cell.next addresses keys) :
      Walk m (some a) (a :: addresses) (keysOf cell ++ keys)

/-- The tree is empty where nothing was inserted, and else well-formed; its leaves hang together
from left to right and hold the keys that were inserted, in strictly increasing order. -/
structure Represents (heap : BptreeHeap.Tree α) (ops : List (Int × α)) : Prop where
  empty : heap.root = none → ops = []
  root : ∀ root ∈ heap.root, ∃ h, WellFormed heap.memory h none none root ∧
    ∃ keys, Walk heap.memory (leaves heap.memory h root).head? (leaves heap.memory h root) keys ∧
      keys.Pairwise (· < ·) ∧ ∀ k, k ∈ keys ↔ ∃ op ∈ ops, op.1 = k

theorem holds_take {β : Type} {slots used : List β} {size : Nat} (h : Holds slots used size) :
    slots.take used.length = used := (List.prefix_iff_eq_take.mp h.front).symm

theorem keysOf_leaf {cell : Node α} {es : List (Int × α)} {next : Option Nat}
    (h : LeafCell cell es next) : keysOf cell = es.map Prod.fst := by
  have htake := holds_take h.keys
  rw [List.length_map, ← h.count] at htake
  exact htake

theorem keysOf_internal {cell : Node α} {ks : List Int} {as : List Nat}
    (h : InternalCell cell ks as) : keysOf cell = ks := by
  rw [keysOf, h.count]
  exact holds_take h.keys

theorem childrenOf_internal {cell : Node α} {ks : List Int} {as : List Nat}
    (h : InternalCell cell ks as) (hlength : as.length = ks.length + 1) :
    childrenOf cell = as.map some := by
  have htake := holds_take h.children
  rw [List.length_map, hlength, ← h.count] at htake
  exact htake

/-- What holds of the children between their separators holds at their addresses. -/
theorem between_row {ν : Type} {P : Option Int → Option Int → ν → Prop}
    {Q : ν → Nat → List Nat → Prop} {R : Option Int → Option Int → Nat → Prop} {ks : List Int}
    {cs : List ν} {as foot : List Nat} (hb : Between P lo ks cs hi) (hrow : Row Q cs as foot)
    (hr : ∀ a b c x front, P a b c → Q c x front → R a b x) : Between R lo ks as hi := by
  induction hb generalizing as foot with
  | last child =>
    cases hrow with
    | cons first rest =>
      cases rest
      exact .last (hr _ _ _ _ _ child first)
  | cons past below child _ ih =>
    cases hrow with
    | cons first rest => exact .cons past below (hr _ _ _ _ _ child first) (ih rest)

theorem wellFormed_stored {h : Nat} {n : BPlusTreeNode α} {a : Nat} {foot : List Nat}
    (hn : Shaped h lo hi n) (hs : Stored m h n a foot) : WellFormed m h lo hi a := by
  induction h generalizing lo hi n a foot with
  | zero =>
    cases n with
    | internal ks cs => exact hn.elim
    | leaf address es next =>
      obtain ⟨-, -, cell, hfound, hcell⟩ := hs
      obtain ⟨hne, hlen, hsorted, hbounds⟩ := hn
      have hkeys := keysOf_leaf hcell
      refine ⟨cell, hfound, hcell.isLeaf, ⟨?_, ?_, hcell.keys.size, ?_⟩, ?_⟩
      · rw [hcell.count]
        exact List.length_pos_of_ne_nil hne
      · rw [hcell.count]
        exact hlen
      · rw [hkeys, List.pairwise_map]
        exact hsorted
      · intro k hk
        rw [hkeys] at hk
        obtain ⟨e, he, rfl⟩ := List.mem_map.mp hk
        exact hbounds e he
  | succ h ih =>
    cases n with
    | leaf address es next => exact hn.elim
    | internal ks cs =>
      obtain ⟨cell, as, foots, hfound, hcell, rfl, hrow⟩ := hs
      obtain ⟨hne, hlen, hbetween⟩ := hn
      have hlength : as.length = ks.length + 1 := by rw [hrow.length, hbetween.length]
      have hkeys := keysOf_internal hcell
      refine ⟨cell, as, hfound, hcell.isInternal, ⟨?_, ?_, hcell.keys.size, ?_⟩,
        childrenOf_internal hcell hlength, ?_, ?_⟩
      · rw [hcell.count]
        exact List.length_pos_of_ne_nil hne
      · rw [hcell.count]
        exact hlen
      · rw [hkeys]
        exact hbetween.sorted
      · rw [hcell.count]
        exact hlength
      · rw [hkeys]
        exact between_row hbetween hrow fun _ _ _ _ _ hc hx => ih hc hx

theorem leaves_stored {h : Nat} {n : BPlusTreeNode α} {a : Nat} {foot : List Nat}
    (hn : Shaped h lo hi n) (hs : Stored m h n a foot) : leaves m h a = (leavesOf n).map Prod.fst := by
  induction h generalizing lo hi n a foot with
  | zero =>
    cases n with
    | internal ks cs => exact hn.elim
    | leaf address es next =>
      obtain ⟨rfl, -⟩ := hs
      rfl
  | succ h ih =>
    cases n with
    | leaf address es next => exact hn.elim
    | internal ks cs =>
      obtain ⟨cell, as, foots, hfound, hcell, rfl, hrow⟩ := hs
      obtain ⟨-, -, hbetween⟩ := hn
      have hlength : as.length = ks.length + 1 := by rw [hrow.length, hbetween.length]
      rw [leaves, hfound, Option.elim_some, childrenOf_internal hcell hlength, leaves_internal,
        List.flatMap_map]
      clear hfound hcell hlength
      generalize ks = ks' at hbetween
      induction hbetween generalizing as foots with
      | last child =>
        cases hrow with
        | cons first rest =>
          cases rest
          simp [ih child first]
      | cons past below child _ ihrow =>
        cases hrow with
        | cons first rest =>
          rw [List.flatMap_cons, List.flatMap_cons, List.map_append, ihrow _ _ rest]
          exact congrArg (· ++ _) (ih child first)

/-- The chain through a node, and then what follows it. -/
theorem walk_stored {h : Nat} {n : BPlusTreeNode α} {a : Nat} {foot : List Nat}
    (hs : Stored m h n a foot) {last : Option Nat} {addresses : List Nat} {keys : List Int}
    (hlinked : Linked (leavesOf n) last) (hwalk : Walk m last addresses keys) :
    Walk m (start (leavesOf n) last) ((leavesOf n).map Prod.fst ++ addresses)
      ((entriesOf n).map Prod.fst ++ keys) := by
  induction h generalizing n a foot last addresses keys with
  | zero =>
    cases n with
    | internal ks cs => exact hs.elim
    | leaf address es next =>
      obtain ⟨rfl, -, cell, hfound, hcell⟩ := hs
      obtain ⟨rfl, -⟩ := hlinked
      rw [entries_leaf, ← keysOf_leaf hcell]
      refine .leaf hfound hcell.isLeaf ?_
      rw [hcell.next]
      exact hwalk
  | succ h ih =>
    cases n with
    | leaf address es next => exact hs.elim
    | internal ks cs =>
      obtain ⟨-, as, foots, -, -, -, hrow⟩ := hs
      rw [leaves_internal] at hlinked ⊢
      rw [entries_internal]
      induction hrow with
      | nil => exact hwalk
      | cons first rest ihrow =>
        rw [List.flatMap_cons] at hlinked ⊢
        obtain ⟨hfirst, hrest⟩ := (linked_append _ _ _).mp hlinked
        have hthrough := ih first hfirst (ihrow hrest)
        rw [start_append, List.flatMap_cons, List.map_append, List.map_append, List.append_assoc,
          List.append_assoc]
        exact hthrough

theorem start_head (ls : List (Nat × Option Nat)) : start ls none = (ls.map Prod.fst).head? := by
  cases ls <;> rfl

/-- Every run of insertions keeps within the arrays, and leaves the tree as it should be. -/
theorem representation_invariant [Inhabited α] (ops : List (Int × α)) {depth : Nat}
    (hdepth : ops.length ≤ depth) :
    ∃ heap, BptreeHeap.insertAll allocates depth ops = .ok heap ∧ Represents heap ops := by
  obtain ⟨heap, hheap, hstored⟩ := insertAll_stored ops hdepth
  refine ⟨heap, hheap, ?_⟩
  have hchained := insertAll_chained ops
  have hmap := BptreeMap.insertAll_represents ops
  generalize BptreeMap.insertAll allocates ops = tree at hstored hchained hmap
  cases hstored with
  | empty memory =>
    constructor
    · intro _
      cases ops with
      | nil => rfl
      | cons op ops =>
        have hnone := lookup_none.mp (hmap.agrees op.1).symm op List.mem_cons_self
        exact absurd rfl hnone
    · intro root hroot
      cases hroot
  | @root memory root a h foot few shaped stored nodup bound =>
    refine ⟨?_, ?_⟩
    · intro hroot
      cases hroot
    intro address haddress
    cases haddress
    refine ⟨h, wellFormed_stored shaped stored, (entriesOf root).map Prod.fst, ?_, ?_, ?_⟩
    · rw [leaves_stored shaped stored, ← start_head]
      have hwalk := walk_stored stored (hchained root rfl) .done
      rwa [List.append_nil, List.append_nil] at hwalk
    · rw [List.pairwise_map]
      exact shaped.contents.1
    · intro k
      have hagrees := hmap.agrees k
      rw [BptreeMap.search_root shaped] at hagrees
      rw [List.mem_map, lookup_bound, hagrees, ← lookup_bound]

theorem representation_invariant_five :
    ∃ heap, BptreeHeap.insertAll allocates 5
      [((5 : Int), (50 : Int)), (1, 10), (4, 40), (2, 20), (3, 30)] = .ok heap ∧
      Represents heap [(5, 50), (1, 10), (4, 40), (2, 20), (3, 30)] :=
  representation_invariant [(5, 50), (1, 10), (4, 40), (2, 20), (3, 30)] (by decide)

end DbApi.Proofs.BptreeInvariant
