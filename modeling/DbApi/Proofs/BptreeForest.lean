import DbApi.Proofs.BptreeRelease

namespace DbApi.Proofs.BptreeForest
open Library Separators SortedMap Index Index.BptreeHeap BptreeShape BptreeInsert BptreeHeap
  BptreeMap BptreeRelease

variable {α : Type} {m m' : Memory α} {lo hi : Option Int} {key : Int} {value : α}

mutual

def nodeCount : BPlusTreeNode α → Nat
  | .leaf _ _ _ => 1
  | .internal _ children => 1 + nodeCountAll children

def nodeCountAll : List (BPlusTreeNode α) → Nat
  | [] => 0
  | child :: rest => nodeCount child + nodeCountAll rest

end

theorem nodeCountAll_eq (cs : List (BPlusTreeNode α)) : nodeCountAll cs = (cs.map nodeCount).sum := by
  induction cs with
  | nil => rfl
  | cons c cs ih => simp [nodeCountAll, ih]

@[simp] theorem nodeCount_leaf (a : Nat) (es : List (Int × α)) (next : Option Nat) :
    nodeCount (.leaf a es next) = 1 := rfl

@[simp] theorem nodeCount_internal (ks : List Int) (cs : List (BPlusTreeNode α)) :
    nodeCount (.internal ks cs) = 1 + (cs.map nodeCount).sum := by
  rw [nodeCount, nodeCountAll_eq]

theorem stored_length {h : Nat} {n : BPlusTreeNode α} {a : Nat} {foot : List Nat}
    (hs : Stored m h n a foot) : foot.length = nodeCount n := by
  induction h generalizing n a foot with
  | zero =>
    cases n with
    | leaf address es next =>
      obtain ⟨-, rfl, -⟩ := hs
      rfl
    | internal ks cs => exact hs.elim
  | succ h ih =>
    cases n with
    | leaf address es next => exact hs.elim
    | internal ks cs =>
      obtain ⟨_, _, foots, -, -, rfl, hrow⟩ := hs
      rw [List.length_cons, nodeCount_internal, hrow.total fun c b front hc => ih hc, Nat.add_comm]

def splitCount : Option (Int × BPlusTreeNode α) → Nat
  | none => 0
  | some (_, right) => nodeCount right

/-- Every node that was allocated is one of the tree, and only a key that is there is refused. -/
structure Counted (nodes used : Nat) (result : BPlusTreeNode α × Index.InsertState α × Nat) :
    Prop where
  count : nodeCount result.1 + splitCount result.2.1.split + used = nodes + result.2.2
  message : result.2.1.ok = false → result.2.1.message = ascii "duplicate id key"

theorem leaf_counted (used a : Nat) (es : List (Int × α)) (next : Option Nat) (key : Int)
    (value : α) :
    Counted 1 used (Index.insertIntoLeaf allocates used a es next key value) := by
  simp only [Index.insertIntoLeaf, Index.createNode, allocates, ↓reduceIte]
  split
  · exact ⟨rfl, fun _ => rfl⟩
  · split
    · exact ⟨rfl, fun h => by cases h⟩
    · refine ⟨?_, fun h => by cases h⟩
      simp [splitCount]
      omega

/-- What an internal node does with the answer of a child keeps the count. -/
theorem internal_counted {nodes used rank : Nat} {ks : List Int} {before after : List (BPlusTreeNode α)}
    {child : BPlusTreeNode α × Index.InsertState α × Nat} (hchild : Counted nodes used child)
    (hrank : before.length = rank) :
    Counted (1 + ((before.map nodeCount).sum + nodes + (after.map nodeCount).sum)) used
      (Index.insertIntoInternal allocates ks rank
        (before ++ child.1 :: after, child.2.1, child.2.2)) := by
  obtain ⟨n, ⟨ok, split, message⟩, used'⟩ := child
  obtain ⟨hcount, hmessage⟩ := hchild
  dsimp only at hcount hmessage ⊢
  have hsum : ((before ++ n :: after).map nodeCount).sum =
      (before.map nodeCount).sum + nodeCount n + (after.map nodeCount).sum := by
    simp [Nat.add_assoc]
  cases ok with
  | false =>
    simp only [Index.insertIntoInternal, Bool.not_false, ↓reduceIte]
    refine ⟨?_, hmessage⟩
    dsimp only
    rw [nodeCount_internal, hsum]
    omega
  | true =>
    cases split with
    | none =>
      simp only [Index.insertIntoInternal, Bool.not_true, Bool.false_eq_true, ↓reduceIte]
      refine ⟨?_, fun h => by cases h⟩
      dsimp only [splitCount] at hcount ⊢
      rw [nodeCount_internal, hsum]
      omega
    | some answer =>
      obtain ⟨promoted, right⟩ := answer
      have hinsert : (before ++ n :: after).insertIdx (rank + 1) right =
          before ++ [n, right] ++ after := by
        have hbetween := insertIdx_between (before ++ [n]) after right
        rw [List.length_append, List.length_singleton, hrank] at hbetween
        simpa using hbetween
      have hsum' : ((before ++ [n, right] ++ after).map nodeCount).sum =
          (before.map nodeCount).sum + (nodeCount n + nodeCount right) +
            (after.map nodeCount).sum := by
        simp [Nat.add_assoc]
      simp only [Index.insertIntoInternal, Index.createNode, allocates, Bool.not_true,
        Bool.false_eq_true, ↓reduceIte, hinsert]
      dsimp only [splitCount] at hcount
      split
      · refine ⟨?_, fun h => by cases h⟩
        dsimp only [splitCount]
        rw [nodeCount_internal, hsum']
        omega
      · refine ⟨?_, fun h => by cases h⟩
        rename_i hfull
        generalize hcut : (ks.insertIdx rank promoted).length / 2 + 1 = cut
        have htake : (((before ++ [n, right] ++ after).take cut).map nodeCount).sum +
            (((before ++ [n, right] ++ after).drop cut).map nodeCount).sum =
              ((before ++ [n, right] ++ after).map nodeCount).sum := by
          rw [← List.sum_append, ← List.map_append, List.take_append_drop]
        dsimp only [splitCount]
        rw [nodeCount_internal, nodeCount_internal]
        omega

theorem node_counted {h : Nat} {n : BPlusTreeNode α} (hn : Shaped h lo hi n) (hlo : Above lo key)
    (hhi : Below hi key) (used : Nat) (value : α) :
    Counted (nodeCount n) used (Index.insertIntoNode allocates used n key value) := by
  induction h generalizing lo hi n with
  | zero =>
    cases n with
    | leaf a es next => exact leaf_counted used a es next key value
    | internal ks cs => exact hn.elim
  | succ h ih =>
    cases n with
    | leaf a es next => exact hn.elim
    | internal ks cs =>
      obtain ⟨r⟩ := hn.2.2.route hlo hhi
      rw [insert_routed allocates used value r]
      have hchild := @internal_counted α _ _ _ ks r.before r.after _
        (ih r.holds r.above r.below) r.rank_before
      have hsum : nodeCount (.internal ks cs) = 1 + ((r.before.map nodeCount).sum +
          nodeCount r.child + (r.after.map nodeCount).sum) := by
        have hcs := congrArg (fun cs => (cs.map nodeCount).sum) r.children_eq
        rw [nodeCount_internal]
        simp only [hcs, List.map_append, List.map_cons, List.sum_append, List.sum_cons]
        omega
      rw [hsum]
      exact hchild

/-- A tree of at most `size` keys and the cells that it takes up. -/
inductive Placed (size : Nat) (m : Memory α) :
    Option Nat → Option (BPlusTreeNode α) → List Nat → Prop
  | empty : Placed size m none none []
  | root {root : BPlusTreeNode α} {a h : Nat} {foot : List Nat}
      (few : (entriesOf root).length ≤ size) (shaped : Shaped h none none root)
      (stored : Stored m h root a foot) (nodup : foot.Nodup) (bound : ∀ x ∈ foot, x < m.used) :
      Placed size m (some a) (some root) foot

variable {size depth : Nat} {pointer : Option Nat} {tree : Option (BPlusTreeNode α)}
  {foot foot' : List Nat}

theorem Placed.bound (hs : Placed size m pointer tree foot) : ∀ x ∈ foot, x < m.used := by
  cases hs with
  | empty => simp
  | root few shaped stored nodup bound => exact bound

/-- What happens outside its cells does not matter to a tree. -/
theorem Placed.frame {size' : Nat} (hs : Placed size m pointer tree foot)
    (hsame : ∀ x ∈ foot, m'.node x = m.node x) (hused : m.used ≤ m'.used) (hsize : size ≤ size') :
    Placed size' m' pointer tree foot := by
  cases hs with
  | empty => exact .empty
  | root few shaped stored nodup bound =>
    exact .root (few.trans hsize) shaped (stored.frame hsame) nodup
      fun x hx => (bound x hx).trans_le hused

/-- What a call may do to the cells: it keeps to those of its tree and new ones, and every
such cell that is in use afterwards is the tree's. -/
structure Turned (m m' : Memory α) (foot foot' : List Nat) : Prop where
  grown : Grown m.used m'.used foot foot'
  frame : ∀ x ∉ foot, x < m.used → m'.node x = m.node x
  owned : ∀ x < m'.used, (m'.node x).isSome → x ∈ foot ∨ m.used ≤ x → x ∈ foot'

theorem Turned.same (hnodup : foot.Nodup) : Turned m m foot foot := by
  refine ⟨.same hnodup le_rfl, fun _ _ _ => rfl, ?_⟩
  intro x hx _ hwhere
  exact hwhere.resolve_right (Nat.not_le.mpr hx)

theorem Turned.counted (grown : Grown m.used m'.used foot foot')
    (frame : ∀ x ∉ foot, x < m.used → m'.node x = m.node x)
    (count : foot'.length + m.used = foot.length + m'.used) : Turned m m' foot foot' :=
  ⟨grown, frame, fun _ hx _ hwhere => grown.covers count (hwhere.imp_right fun hle => ⟨hle, hx⟩)⟩

theorem Turned.freed (h : Freed m m' foot) : Turned m m' foot [] := by
  refine ⟨⟨h.used.ge, List.nodup_nil, by simp⟩, fun x hx _ => h.kept x hx, ?_⟩
  intro x hx hsome hwhere
  rcases hwhere with hmem | hle
  · rw [h.gone x hmem] at hsome
    cases hsome
  · rw [h.used] at hx
    exact absurd hle (Nat.not_le.mpr hx)

variable [Inhabited α]

theorem insert_none (m : Memory α) (depth : Nat) (key : Int) (value : α) :
    ∃ m', BptreeHeap.bptreeInsert allocates depth ⟨none, m⟩ key value =
      .ok (⟨some m.used, m'⟩, .ok ()) ∧ Turned m m' [] [m.used] ∧
      Placed 1 m' (some m.used) (some (.leaf m.used [(key, value)] none)) [m.used] := by
  have hread : (allocated m true).read (some m.used) = .ok (blankNode true) := read_allocated m true
  refine ⟨(allocated m true).write m.used { (blankNode true : Node α) with
    keys := [key, 0, 0, 0], values := [value, default, default, default], keyCount := 1 }, ?_, ?_, ?_⟩
  · rw [BptreeHeap.bptreeInsert, createNode_some true rfl]
    dsimp only
    rw [hread]
    rfl
  · refine .counted ?_ ?_ (Nat.add_comm 1 m.used |>.trans (Nat.zero_add _).symm)
    · exact Grown.allocate (.same List.nodup_nil le_rfl) (by simp) (List.Perm.refl _)
    · intro x _ hx
      rw [write_other _ _ hx.ne]
      exact allocated_other _ _ hx
  · refine .root (h := 0) (by simp) ?_ (leaf_stored (write_same _ _ _) ?_)
      (List.nodup_singleton _) ?_
    · simp [Shaped, Sorted, bptreeMaxKeys]
    · exact ⟨rfl, rfl, ⟨⟨[0, 0, 0], rfl⟩, rfl⟩, ⟨⟨[default, default, default], rfl⟩, rfl⟩, rfl⟩
    · intro x hx
      rw [List.mem_singleton.mp hx]
      exact Nat.lt_succ_self _

/-- The memory with a new root above two nodes. -/
def rooted (m : Memory α) (promoted : Int) (a b : Nat) : Memory α :=
  (allocated m false).write m.used { (blankNode false : Node α) with
    keys := [promoted, 0, 0, 0], children := [some a, some b, none, none, none], keyCount := 1 }

theorem rooted_other {promoted : Int} {a b x : Nat} (hx : x < m.used) :
    (rooted m promoted a b).node x = m.node x := by
  rw [rooted, write_other _ _ hx.ne]
  exact allocated_other _ _ hx

theorem rooted_stored {h a b : Nat} {left right : BPlusTreeNode α} (promoted : Int)
    (hleft : Stored m h left a foot) (hright : Stored m h right b foot')
    (hbound : ∀ x ∈ foot ++ foot', x < m.used) :
    Stored (rooted m promoted a b) (h + 1) (.internal [promoted] [left, right]) m.used
      (m.used :: (foot ++ foot')) := by
  have hrow : Row (Stored m h) [left, right] [a, b] (foot ++ foot') :=
    .cons hleft (.singleton hright)
  refine internal_stored (write_same _ _ _) ?_ (row_frame hrow fun x hx => rooted_other (hbound x hx))
  exact ⟨rfl, rfl, ⟨⟨[0, 0, 0], rfl⟩, rfl⟩, ⟨⟨[none, none, none], rfl⟩, rfl⟩⟩

/-- An insertion stays within the cells of its tree, and loses none. -/
theorem Placed.insert (hs : Placed size m pointer tree foot) (hdepth : size ≤ depth) (key : Int)
    (value : α) :
    ∃ heap foot', BptreeHeap.bptreeInsert allocates depth ⟨pointer, m⟩ key value =
        .ok (heap, (Index.bptreeInsert allocates ⟨tree, m.used⟩ key value).2) ∧
      Turned m heap.memory foot foot' ∧
      Placed (size + 1) heap.memory heap.root
        (Index.bptreeInsert allocates ⟨tree, m.used⟩ key value).1.root foot' := by
  cases hs with
  | empty =>
    obtain ⟨m', hinsert, hturned, hplaced⟩ := insert_none m depth key value
    exact ⟨_, _, hinsert, hturned,
      hplaced.frame (fun _ _ => rfl) le_rfl (Nat.succ_le_succ (Nat.zero_le _))⟩
  | @root root a h foot few shaped stored nodup bound =>
    have hheight := shaped.height
    obtain ⟨⟨⟨ok', split', message'⟩, m'⟩, hresult, hsim⟩ := @node_simulates α none none key value _
      allocates m h depth root a foot shaped (above_none key) (below_none key) stored nodup bound
      (by omega)
    have hout : Outcome h none none root key value
        (Index.insertIntoNode allocates m.used root key value) :=
      node_outcome (fun _ => rfl) shaped (above_none key) (below_none key) m.used
    have hcount := (node_counted shaped (above_none key) (below_none key) m.used value).count
    rw [← stored_length stored] at hcount
    simp only [BptreeHeap.bptreeInsert, Index.bptreeInsert]
    rw [hresult, except_ok_bind]
    generalize Index.insertIntoNode allocates m.used root key value = result at hsim hout hcount
    obtain ⟨hok, hmessage, hused, -, ⟨foot', hanswer, hgrown⟩, hframe⟩ := hsim
    have hlater := hgrown.bound bound
    have hinserted := insert_length key value (entriesOf root)
    cases hout with
    | duplicate known =>
      dsimp only [splitCount] at hok hmessage hused hanswer hgrown hframe hcount ⊢
      cases hanswer with
      | whole stored' =>
        rw [← stored_length stored', ← hused] at hcount
        rw [hok, hmessage]
        exact ⟨_, _, rfl, .counted hgrown hframe (by omega),
          .root (by omega) shaped stored' hgrown.nodup hlater⟩
    | inPlace fresh shaped' entries =>
      dsimp only [splitCount] at hok hmessage hused hanswer hgrown hframe hcount ⊢
      cases hanswer with
      | whole stored' =>
        rw [← stored_length stored', ← hused] at hcount
        rw [hok]
        refine ⟨_, _, rfl, .counted hgrown hframe (by omega),
          .root ?_ shaped' stored' hgrown.nodup hlater⟩
        rw [entries, hinserted]
        omega
    | @split left right promoted _ fresh past below shapedLeft shapedRight entries =>
      dsimp only [splitCount] at hok hmessage hused hanswer hgrown hframe hcount ⊢
      cases hanswer with
      | @halves _ _ b first second hleft hright =>
        rw [← stored_length hleft, ← stored_length hright, ← hused] at hcount
        have hnew := hgrown.allocate bound (List.Perm.refl _)
        rw [hok]
        refine ⟨⟨some m'.used, rooted m' promoted a b⟩, m'.used :: (first ++ second), ?_, ?_, ?_⟩
        · simp only [Bool.not_true, Bool.false_eq_true, ↓reduceIte]
          rw [createNode_some false rfl]
          dsimp only
          rw [read_allocated]
          rfl
        · refine .counted hnew ?_ ?_
          · intro x hx hlt
            exact (rooted_other (hlt.trans_le hgrown.le)).trans (hframe x hx hlt)
          · change (first ++ second).length + 1 + m.used = foot.length + (m'.used + 1)
            rw [List.length_append]
            omega
        · refine .root (h := h + 1) ?_ ⟨by simp, by simp [bptreeMaxKeys], ?_⟩
            (rooted_stored _ hleft hright hlater) hnew.nodup (hnew.bound bound)
          · simp only [entries_internal, List.flatMap_cons, List.flatMap_nil, List.append_nil]
            rw [entries, hinserted]
            omega
          · exact .cons past below shapedLeft (.last shapedRight)

/-- The purpose of a tree, call by call. -/
def serve (map : Int → Option α) : TreeCall α → (Int → Option α) × TreeReply α
  | .insert key value =>
    (bindFirst map key value,
      .inserted (if (map key).isSome then .error (ascii "duplicate id key") else .ok ()))
  | .search key => (map, .found (map key))
  | .free => (fun _ => none, .freed)

/-- The purpose of trees that share a heap: a map for each name. -/
def serveAll {ν : Type} [DecidableEq ν] :
    List (ν × TreeCall α) → (ν → Int → Option α) → (ν → Int → Option α) × List (TreeReply α)
  | [], maps => (maps, [])
  | (name, call) :: calls, maps =>
    let (map, reply) := serve (maps name) call
    let (maps, replies) := serveAll calls (Function.update maps name map)
    (maps, reply :: replies)

omit [Inhabited α] in
/-- The answer of an insertion is the map's. -/
theorem insert_answer {map : Int → Option α} {used : Nat} (hr : Represents ⟨tree, used⟩ map)
    (key : Int) (value : α) : (Index.bptreeInsert allocates ⟨tree, used⟩ key value).2 =
      if (map key).isSome then .error (ascii "duplicate id key") else .ok () := by
  have haccepted := (hr.insert all_allocates key value).2
  cases hmap : map key with
  | none => exact haccepted.mpr hmap
  | some old =>
    rw [hmap] at haccepted
    cases tree with
    | none => exact absurd (haccepted.mp rfl) (by simp)
    | some root =>
      obtain ⟨h, hs⟩ := hr.shaped root rfl
      have hcounted := node_counted hs (above_none key) (below_none key) used value
      simp only [Index.bptreeInsert] at haccepted ⊢
      generalize Index.insertIntoNode allocates used root key value = result at haccepted hcounted
      obtain ⟨n, ⟨ok, split, message⟩, used'⟩ := result
      cases ok with
      | false =>
        rw [hcounted.message rfl]
        rfl
      | true =>
        cases split with
        | none => exact absurd (haccepted.mp rfl) (by simp)
        | some answer => exact absurd (haccepted.mp rfl) (by simp)

/-- One call on a tree answers as its map does. -/
theorem call_served {map : Int → Option α} (hs : Placed size m pointer tree foot)
    (hr : Represents ⟨tree, m.used⟩ map) (hdepth : size ≤ depth) (call : TreeCall α) :
    ∃ heap tree' foot', callTree allocates depth ⟨pointer, m⟩ call = .ok (heap, (serve map call).2) ∧
      Turned m heap.memory foot foot' ∧ Placed (size + 1) heap.memory heap.root tree' foot' ∧
      Represents ⟨tree', heap.memory.used⟩ (serve map call).1 := by
  cases call with
  | insert key value =>
    obtain ⟨heap, foot', hinsert, hturned, hplaced⟩ := hs.insert hdepth key value
    obtain ⟨hshaped, hagrees⟩ := (hr.insert all_allocates key value).1
    refine ⟨heap, _, foot', ?_, hturned, hplaced, ⟨hshaped, hagrees⟩⟩
    rw [callTree, hinsert, except_ok_bind, insert_answer hr]
    rfl
  | search key =>
    have hsearch : BptreeHeap.bptreeSearch depth ⟨pointer, m⟩ key = .ok (map key) := by
      rw [← hr.agrees key]
      cases hs with
      | empty => cases depth <;> rfl
      | root few shaped stored nodup bound =>
        have hheight := shaped.height
        exact search_stored shaped stored (by omega) key
    refine ⟨⟨pointer, m⟩, tree, foot, ?_, ?_, hs.frame (fun _ _ => rfl) le_rfl (Nat.le_succ _), hr⟩
    · rw [callTree, hsearch]
      rfl
    · cases hs with
      | empty => exact .same List.nodup_nil
      | root few shaped stored nodup bound => exact .same nodup
  | free =>
    have hfree : ∃ m', freeNode depth m pointer = .ok m' ∧ Freed m m' foot := by
      cases hs with
      | empty =>
        refine ⟨m, ?_, .nothing m⟩
        cases depth <;> rfl
      | root few shaped stored nodup bound =>
        have hheight := shaped.height
        exact freeNode_stored shaped stored nodup (by omega)
    obtain ⟨m', hfreed, hcells⟩ := hfree
    refine ⟨⟨none, m'⟩, none, [], ?_, .freed hcells, .empty, ?_⟩
    · rw [callTree, BptreeHeap.bptreeFree, hfreed]
      rfl
    · obtain ⟨hshaped, hagrees⟩ := @represents_init α
      exact ⟨hshaped, hagrees⟩

omit [Inhabited α] in
/-- A tree without keys takes up no cell. -/
theorem Placed.bare {used : Nat} (hs : Placed size m pointer tree foot)
    (hr : Represents ⟨tree, used⟩ fun _ => none) : foot = [] := by
  cases hs with
  | empty => rfl
  | root few shaped stored nodup bound =>
    obtain ⟨e, he⟩ := List.exists_mem_of_length_pos (Nat.zero_lt_of_lt shaped.height)
    have hnone := (search_root shaped used e.1).symm.trans (hr.agrees e.1)
    exact absurd rfl (lookup_none.mp hnone e he)

variable {ν : Type}

/-- Trees next to each other: no two have a cell in common, and every cell in use is one of
a tree. -/
structure Standing (size : Nat) (forest : Forest ν α) (maps : ν → Int → Option α)
    (trees : ν → Option (BPlusTreeNode α)) (feet : ν → List Nat) : Prop where
  placed : ∀ i, Placed size forest.memory (forest.root i) (trees i) (feet i)
  represents : ∀ i, Represents ⟨trees i, forest.memory.used⟩ (maps i)
  apart : ∀ i j, i ≠ j → ∀ x ∈ feet i, x ∉ feet j
  owned : ∀ x < forest.memory.used, (forest.memory.node x).isSome → ∃ i, x ∈ feet i

omit [Inhabited α] in
theorem standing_init : Standing 0 (Forest.init : Forest ν α) (fun _ _ => none) (fun _ => none)
    fun _ => [] :=
  ⟨fun _ => .empty, fun _ => represents_init, by simp, by simp [Forest.init]⟩

omit [Inhabited α] in
/-- Where no tree holds a key, every node that was allocated is free again. -/
theorem Standing.bare {forest : Forest ν α} {maps : ν → Int → Option α}
    {trees : ν → Option (BPlusTreeNode α)} {feet : ν → List Nat}
    (hs : Standing size forest maps trees feet) (hbare : ∀ i key, maps i key = none) :
    ∀ x < forest.memory.used, forest.memory.node x = none := by
  intro x hx
  by_contra hsome
  obtain ⟨i, hmem⟩ := hs.owned x hx (Option.isSome_iff_ne_none.mpr hsome)
  have hr := hs.represents i
  rw [funext (hbare i)] at hr
  rw [(hs.placed i).bare hr] at hmem
  cases hmem

variable [DecidableEq ν]

section Calls

variable {forest : Forest ν α} {maps : ν → Int → Option α} {trees : ν → Option (BPlusTreeNode α)}
  {feet : ν → List Nat} {name : ν}

omit [Inhabited α] in
/-- The cells of the trees are apart after a call on one of them. -/
theorem Standing.cells_apart (hs : Standing size forest maps trees feet)
    (hgrown : Grown forest.memory.used m'.used (feet name) foot') :
    ∀ i j, i ≠ j → ∀ x ∈ Function.update feet name foot' i, x ∉ Function.update feet name foot' j := by
  have hcells : ∀ i ≠ name, ∀ x ∈ feet i, x ∉ foot' := by
    intro i hi x hx hmem
    rcases hgrown.origin x hmem with hold | hnew
    · exact hs.apart i name hi x hx hold
    · exact Nat.not_le.mpr ((hs.placed i).bound x hx) hnew.1
  intro i j hij x hx
  by_cases hi : i = name
  · subst hi
    rw [Function.update_self] at hx
    rw [Function.update_of_ne (Ne.symm hij)]
    exact fun hmem => hcells j (Ne.symm hij) x hmem hx
  · rw [Function.update_of_ne hi] at hx
    by_cases hj : j = name
    · subst hj
      rw [Function.update_self]
      exact hcells i hi x hx
    · rw [Function.update_of_ne hj]
      exact hs.apart i j hij x hx

omit [Inhabited α] in
/-- Every cell in use is still one of a tree. -/
theorem Standing.cells_owned (hs : Standing size forest maps trees feet)
    (hturned : Turned forest.memory m' (feet name) foot') :
    ∀ x < m'.used, (m'.node x).isSome → ∃ i, x ∈ Function.update feet name foot' i := by
  intro x hx hsome
  by_cases hmine : x ∈ feet name ∨ forest.memory.used ≤ x
  · refine ⟨name, ?_⟩
    rw [Function.update_self]
    exact hturned.owned x hx hsome hmine
  · rw [not_or, Nat.not_le] at hmine
    have hsame : m'.node x = forest.memory.node x := hturned.frame x hmine.1 hmine.2
    rw [hsame] at hsome
    obtain ⟨i, hmem⟩ := hs.owned x hmine.2 hsome
    have hi : i ≠ name := fun heq => hmine.1 (heq ▸ hmem)
    refine ⟨i, ?_⟩
    rw [Function.update_of_ne hi]
    exact hmem

/-- A call on one tree: the others keep their cells and what they hold. -/
theorem Standing.call (hs : Standing size forest maps trees feet) (hdepth : size ≤ depth)
    (name : ν) (call : TreeCall α) :
    ∃ forest' trees' feet',
      forest.call allocates depth name call = .ok (forest', (serve (maps name) call).2) ∧
      Standing (size + 1) forest' (Function.update maps name (serve (maps name) call).1) trees'
        feet' := by
  obtain ⟨⟨root, m'⟩, tree', foot', hcall, hturned, hplaced, hrepresents⟩ :=
    call_served (hs.placed name) (hs.represents name) hdepth call
  refine ⟨⟨Function.update forest.root name root, m'⟩, Function.update trees name tree',
    Function.update feet name foot', ?_, ?_, ?_, hs.cells_apart hturned.grown,
    hs.cells_owned hturned⟩
  · rw [Forest.call, hcall]
    rfl
  · intro i
    by_cases hi : i = name
    · subst hi
      simpa using hplaced
    · simp only [Function.update_of_ne hi]
      refine (hs.placed i).frame (fun x hx => ?_) hturned.grown.le (Nat.le_succ _)
      exact hturned.frame x (hs.apart i name hi x hx) ((hs.placed i).bound x hx)
  · intro i
    by_cases hi : i = name
    · subst hi
      simpa using hrepresents
    · simp only [Function.update_of_ne hi]
      obtain ⟨hshaped, hagrees⟩ := hs.represents i
      exact ⟨hshaped, hagrees⟩

theorem Standing.run (hs : Standing size forest maps trees feet) (calls : List (ν × TreeCall α))
    (hdepth : size + calls.length ≤ depth) :
    ∃ forest' trees' feet',
      Forest.run allocates depth calls forest = .ok (forest', (serveAll calls maps).2) ∧
      Standing (size + calls.length) forest' (serveAll calls maps).1 trees' feet' := by
  induction calls generalizing size forest maps trees feet with
  | nil => exact ⟨forest, trees, feet, rfl, hs⟩
  | cons call calls ih =>
    obtain ⟨name, call⟩ := call
    rw [List.length_cons] at hdepth ⊢
    obtain ⟨forest₁, trees₁, feet₁, hcall, hs₁⟩ :=
      hs.call (by omega : size ≤ depth) name call
    obtain ⟨forest₂, trees₂, feet₂, hrun, hs₂⟩ := ih hs₁ (by omega)
    refine ⟨forest₂, trees₂, feet₂, ?_, ?_⟩
    · rw [Forest.run, hcall, except_ok_bind]
      dsimp only
      rw [hrun]
      rfl
    · rw [Nat.add_right_comm] at hs₂
      exact hs₂

end Calls

/-- Trees that share a heap, called in any order: no call reads or frees a cell that is not
in use or leaves an array, every answer is that of a map of the tree's own, and where no
tree holds a key any more every node that was ever allocated is free again. -/
theorem forest_serves (calls : List (ν × TreeCall α)) {depth : Nat} (hdepth : calls.length ≤ depth) :
    ∃ forest, Forest.run allocates depth calls .init =
        .ok (forest, (serveAll calls fun _ _ => none).2) ∧
      ((∀ name key, (serveAll calls fun _ _ => none).1 name key = none) →
        ∀ a < forest.memory.used, forest.memory.node a = none) := by
  obtain ⟨forest, trees, feet, hrun, hs⟩ :=
    standing_init.run calls (by omega : 0 + calls.length ≤ depth)
  exact ⟨forest, hrun, hs.bare⟩

theorem forest_serves_two :
    let calls : List (Bool × TreeCall Nat) :=
      [(false, .insert 1 10), (false, .insert 2 20), (true, .insert 1 30), (false, .insert 3 40),
        (false, .insert 4 50), (false, .insert 2 60), (true, .search 1), (false, .search 4),
        (false, .free), (false, .search 4), (true, .free)]
    ∃ forest, Forest.run allocates 11 calls .init = .ok (forest,
        [.inserted (.ok ()), .inserted (.ok ()), .inserted (.ok ()), .inserted (.ok ()),
          .inserted (.ok ()), .inserted (.error (ascii "duplicate id key")), .found (some 30),
          .found (some 50), .freed, .found none, .freed]) ∧
      ∀ a < forest.memory.used, forest.memory.node a = none := by
  intro calls
  obtain ⟨forest, hrun, hbare⟩ := @forest_serves Nat _ Bool _ calls 11 (by decide)
  refine ⟨forest, hrun, hbare ?_⟩
  intro name key
  cases name <;> rfl

end DbApi.Proofs.BptreeForest
