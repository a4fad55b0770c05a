import DbApi.Index.BptreeHeap
import DbApi.Library.Footprint
import DbApi.Library.Except
import DbApi.Proofs.BptreeMap

namespace DbApi.Proofs.BptreeHeap
open Library Separators SortedMap Index Index.BptreeHeap BptreeShape BptreeInsert

variable {α : Type} {lo hi : Option Int} {key : Int} {value : α}

/-- The arrays of a leaf. -/
structure LeafCell (cell : Node α) (entries : List (Int × α)) (next : Option Nat) : Prop where
  isLeaf : cell.isLeaf = true
  count : cell.keyCount = entries.length
  keys : Holds cell.keys (entries.map Prod.fst) (bptreeMaxKeys + 1)
  values : Holds cell.values (entries.map Prod.snd) (bptreeMaxKeys + 1)
  next : cell.next = next

/-- The arrays of an internal node; the pointers in use point somewhere. -/
structure InternalCell (cell : Node α) (keys : List Int) (addresses : List Nat) : Prop where
  isInternal : cell.isLeaf = false
  count : cell.keyCount = keys.length
  keys : Holds cell.keys keys (bptreeMaxKeys + 1)
  children : Holds cell.children (addresses.map some) (bptreeMaxKeys + 2)

/-- A node of height `h` lies at an address, and takes up the cells of its footprint. -/
def Stored (m : Memory α) : Nat → BPlusTreeNode α → Nat → List Nat → Prop
  | 0, .leaf address entries next, a, foot =>
    address = a ∧ foot = [a] ∧ ∃ cell, m.node a = some cell ∧ LeafCell cell entries next
  | h + 1, .internal keys children, a, foot =>
    ∃ cell addresses foots, m.node a = some cell ∧ InternalCell cell keys addresses ∧
      foot = a :: foots ∧ Row (Stored m h) children addresses foots
  | 0, .internal _ _, _, _ => False
  | _ + 1, .leaf _ _ _, _, _ => False

theorem Stored.frame {m m' : Memory α} {h : Nat} {n : BPlusTreeNode α} {a : Nat} {foot : List Nat}
    (hs : Stored m h n a foot) (hsame : ∀ x ∈ foot, m'.node x = m.node x) : Stored m' h n a foot := by
  induction h generalizing n a foot with
  | zero =>
    cases n with
    | leaf address es next =>
      obtain ⟨haddress, hfoot, cell, hcell, hleaf⟩ := hs
      refine ⟨haddress, hfoot, cell, ?_, hleaf⟩
      rw [hsame a (by simp [hfoot])]
      exact hcell
    | internal ks cs => exact hs.elim
  | succ h ih =>
    cases n with
    | leaf address es next => exact hs.elim
    | internal ks cs =>
      obtain ⟨cell, addresses, foots, hcell, hinternal, rfl, hrow⟩ := hs
      refine ⟨cell, addresses, foots, ?_, hinternal, rfl, ?_⟩
      · rw [hsame a List.mem_cons_self]
        exact hcell
      · apply hrow.mono
        intro c b front hfront hc
        exact ih hc fun x hx => hsame x (List.mem_cons_of_mem _ (hfront x hx))

theorem Stored.address_mem {m : Memory α} {h : Nat} {n : BPlusTreeNode α} {a : Nat}
    {foot : List Nat} (hs : Stored m h n a foot) : a ∈ foot := by
  cases h with
  | zero =>
    cases n with
    | leaf address es next =>
      obtain ⟨-, rfl, -⟩ := hs
      exact List.mem_cons_self
    | internal ks cs => exact hs.elim
  | succ h =>
    cases n with
    | leaf address es next => exact hs.elim
    | internal ks cs =>
      obtain ⟨-, -, foots, -, -, rfl, -⟩ := hs
      exact List.mem_cons_self

theorem leaf_stored {m : Memory α} {a : Nat} {cell : Node α} {es : List (Int × α)}
    {next : Option Nat} (hfound : m.node a = some cell) (hcell : LeafCell cell es next) :
    Stored m 0 (.leaf a es next) a [a] :=
  ⟨rfl, rfl, cell, hfound, hcell⟩

theorem row_frame {m m' : Memory α} {h : Nat} {cs : List (BPlusTreeNode α)} {as foot : List Nat}
    (hrow : Row (Stored m h) cs as foot) (hsame : ∀ x ∈ foot, m'.node x = m.node x) :
    Row (Stored m' h) cs as foot :=
  hrow.mono fun _ _ _ hfront hc => Stored.frame hc fun x hx => hsame x (hfront x hx)

/-- The node at an address after an insertion below it, and the right half where it was split;
the tree's answer on the left, the one with addresses on the right. -/
inductive Answer (m : Memory α) (h a : Nat) (n : BPlusTreeNode α) :
    Option (Int × BPlusTreeNode α) → Option (Int × Nat) → List Nat → Prop
  | whole {foot : List Nat} (stored : Stored m h n a foot) : Answer m h a n none none foot
  | halves {right : BPlusTreeNode α} {promoted : Int} {b : Nat} {foot foot' : List Nat}
      (first : Stored m h n a foot) (second : Stored m h right b foot') :
      Answer m h a n (some (promoted, right)) (some (promoted, b)) (foot ++ foot')

/-- The arrays and pointers end up as the tree does, and no other cell changes. -/
structure Simulates (m : Memory α) (h a : Nat) (foot : List Nat)
    (tree : BPlusTreeNode α × Index.InsertState α × Nat) (heap : InsertState × Memory α) : Prop where
  ok : heap.1.ok = tree.2.1.ok
  message : heap.1.message = tree.2.1.message
  used : heap.2.used = tree.2.2
  whole : tree.2.1.ok = false → tree.2.1.split = none
  answer : ∃ foot', Answer heap.2 h a tree.1 tree.2.1.split heap.1.split foot' ∧
    Grown m.used heap.2.used foot foot'
  frame : ∀ x ∉ foot, x < m.used → heap.2.node x = m.node x

/-- A write to a cell of the node itself is part of what it does. -/
theorem Simulates.after_write {m : Memory α} {h a : Nat} {foot : List Nat}
    {tree : BPlusTreeNode α × Index.InsertState α × Nat} {heap : InsertState × Memory α}
    {cell : Node α} (hs : Simulates (m.write a cell) h a foot tree heap) (ha : a ∈ foot) :
    Simulates m h a foot tree heap := by
  refine ⟨hs.ok, hs.message, hs.used, hs.whole, hs.answer, ?_⟩
  intro x hx hlt
  rw [hs.frame x hx hlt]
  exact Function.update_of_ne (by rintro rfl; exact hx ha) _ _

/-- A step within the cells of the node, and then another. -/
theorem Simulates.after {m m' : Memory α} {h a : Nat} {foot foot' : List Nat}
    {tree : BPlusTreeNode α × Index.InsertState α × Nat} {heap : InsertState × Memory α}
    (hgrown : Grown m.used m'.used foot foot')
    (hframe : ∀ x ∉ foot, x < m.used → m'.node x = m.node x)
    (hs : Simulates m' h a foot' tree heap) : Simulates m h a foot tree heap := by
  obtain ⟨last, hanswer, hlast⟩ := hs.answer
  refine ⟨hs.ok, hs.message, hs.used, hs.whole, ⟨last, hanswer, hgrown.trans hlast⟩, ?_⟩
  intro x hx hlt
  rw [← hframe x hx hlt]
  refine hs.frame x (fun hmem => ?_) (hlt.trans_le hgrown.le)
  rcases hgrown.origin x hmem with hold | hnew
  · exact hx hold
  · exact Nat.not_le.mpr hlt hnew.1

theorem bounded_ok {β : Type} (x : β) : bounded (.ok x) = .ok x := rfl

theorem read_found {m : Memory α} {a : Nat} {cell : Node α} (h : m.node a = some cell) :
    m.read (some a) = .ok cell := by
  rw [Memory.read, Option.bind_some, h]

@[simp] theorem write_same (m : Memory α) (a : Nat) (cell : Node α) :
    (m.write a cell).node a = some cell := by simp [Memory.write]

theorem write_other (m : Memory α) {a x : Nat} (cell : Node α) (h : x ≠ a) :
    (m.write a cell).node x = m.node x := by simp [Memory.write, h]

@[simp] theorem write_used (m : Memory α) (a : Nat) (cell : Node α) :
    (m.write a cell).used = m.used := rfl

/-- Keys and values move together as each would alone. -/
theorem shiftEntries_ok {keys keys' : List Int} {values values' : List α} {first count : Nat}
    (hkeys : shiftSlots keys first count = .ok keys')
    (hvalues : shiftSlots values first count = .ok values') :
    shiftEntries keys values first count = .ok (keys', values') := by
  induction count generalizing keys values with
  | zero =>
    cases hkeys
    cases hvalues
    rfl
  | succ count ih =>
    obtain ⟨key, hkey, hkeys⟩ := except_bind_ok.mp hkeys
    obtain ⟨moved, hmoved, hkeys⟩ := except_bind_ok.mp hkeys
    obtain ⟨value, hvalue, hvalues⟩ := except_bind_ok.mp hvalues
    obtain ⟨shifted, hshifted, hvalues⟩ := except_bind_ok.mp hvalues
    rw [shiftEntries, hkey, except_ok_bind, hmoved, except_ok_bind, hvalue, except_ok_bind,
      hshifted, except_ok_bind]
    exact ih hkeys hvalues

theorem copyEntries_ok {keys keys' free : List Int} {values values' free' : List α}
    {offset count index : Nat} (hkeys : copySlots keys offset count index free = .ok keys')
    (hvalues : copySlots values offset count index free' = .ok values') :
    copyEntries keys values offset count index free free' = .ok (keys', values') := by
  induction count generalizing index free free' with
  | zero =>
    cases hkeys
    cases hvalues
    rfl
  | succ count ih =>
    obtain ⟨key, hkey, hkeys⟩ := except_bind_ok.mp hkeys
    obtain ⟨stored, hstored, hkeys⟩ := except_bind_ok.mp hkeys
    obtain ⟨value, hvalue, hvalues⟩ := except_bind_ok.mp hvalues
    obtain ⟨stored', hstored', hvalues⟩ := except_bind_ok.mp hvalues
    rw [copyEntries, hkey, except_ok_bind, hstored, except_ok_bind, hvalue, except_ok_bind,
      hstored', except_ok_bind]
    exact ih hkeys hvalues

/-- The memory with one more node. -/
def allocated [Inhabited α] (m : Memory α) (isLeaf : Bool) : Memory α :=
  { m.write m.used (blankNode isLeaf) with used := m.used + 1 }

theorem read_allocated [Inhabited α] (m : Memory α) (isLeaf : Bool) :
    (allocated m isLeaf).read (some m.used) = .ok (blankNode isLeaf) :=
  read_found (write_same _ _ _)

theorem allocated_other [Inhabited α] (m : Memory α) (isLeaf : Bool) {x : Nat} (hx : x < m.used) :
    (allocated m isLeaf).node x = m.node x := write_other _ _ hx.ne

theorem createNode_some [Inhabited α] {calloc : Nat → Bool} {m : Memory α} (isLeaf : Bool)
    (h : calloc m.used = true) : BptreeHeap.createNode calloc m isLeaf =
      (some m.used, allocated m isLeaf) := if_pos h

theorem createNode_none [Inhabited α] {calloc : Nat → Bool} {m : Memory α} (isLeaf : Bool)
    (h : calloc m.used = false) : BptreeHeap.createNode calloc m isLeaf =
      (none, { m with used := m.used + 1 }) := if_neg (by simp [h])

variable [Inhabited α] {calloc : Nat → Bool} {m : Memory α}

/-- The memory after a node was split. -/
def splitMemory (m : Memory α) (right : Nat) (rightNode : Node α) (a : Nat) (node : Node α) :
    Memory α :=
  ((allocated m node.isLeaf).write right rightNode).write a node

theorem split_left {a right : Nat} (rightNode node : Node α) :
    (splitMemory m right rightNode a node).node a = some node := write_same _ _ _

theorem split_right {a : Nat} (rightNode node : Node α) (ha : a < m.used) :
    (splitMemory m m.used rightNode a node).node m.used = some rightNode := by
  rw [splitMemory, write_other _ _ ha.ne', write_same]

theorem split_other {a x : Nat} (rightNode node : Node α) (ha : x ≠ a) (hx : x < m.used) :
    (splitMemory m m.used rightNode a node).node x = m.node x := by
  rw [splitMemory, write_other _ _ ha, write_other _ _ hx.ne]
  exact allocated_other _ _ hx

theorem splitLeaf_halves {cell : Node α} {es : List (Int × α)} {next : Option Nat} {a : Nat}
    (hcell : LeafCell cell es next) (hne : es ≠ []) (hcalloc : calloc m.used = true) :
    ∃ keys values, splitLeaf calloc m a cell =
      .ok (⟨true, some (((es.drop (es.length / 2)).head?.map Prod.fst).getD 0, m.used), []⟩,
        splitMemory m m.used
          { (blankNode cell.isLeaf : Node α) with
            keyCount := cell.keyCount - cell.keyCount / 2, keys, values, next := cell.next }
          a { cell with keyCount := cell.keyCount / 2, next := some m.used }) ∧
      Holds keys ((es.drop (es.length / 2)).map Prod.fst) (bptreeMaxKeys + 1) ∧
      Holds values ((es.drop (es.length / 2)).map Prod.snd) (bptreeMaxKeys + 1) := by
  obtain ⟨hleaf, hcount, hkeys, hvalues, hnext⟩ := hcell
  have hhalf : es.length / 2 + (es.length - es.length / 2) = es.length := by omega
  obtain ⟨keys, hcopied, hright⟩ := hkeys.copy (es.length / 2) (es.length - es.length / 2)
    (by rw [List.length_map]; exact hhalf)
    (List.length_replicate : (List.replicate (bptreeMaxKeys + 1) (0 : Int)).length =
      bptreeMaxKeys + 1)
  obtain ⟨values, hcopied', hright'⟩ := hvalues.copy (es.length / 2)
    (es.length - es.length / 2) (by rw [List.length_map]; exact hhalf)
    (List.length_replicate : (List.replicate (bptreeMaxKeys + 1) default).length = bptreeMaxKeys + 1)
  rw [← List.map_drop] at hright hright'
  obtain ⟨e, rest, hdrop⟩ : ∃ e rest, es.drop (es.length / 2) = e :: rest := by
    cases hdrop : es.drop (es.length / 2) with
    | nil =>
      have hpos := List.length_pos_of_ne_nil hne
      have hover := List.drop_eq_nil_iff.mp hdrop
      omega
    | cons e rest => exact ⟨e, rest, rfl⟩
  have hpromoted : fetch keys (0 : Nat) = .ok e.1 := hright.fetch (by simp [hdrop])
  refine ⟨keys, values, ?_, hright, hright'⟩
  rw [splitLeaf, createNode_some true hcalloc]
  dsimp only
  rw [read_allocated, except_ok_bind, hcount]
  change bounded (copyEntries cell.keys cell.values (es.length / 2) (es.length - es.length / 2) 0
    (List.replicate (bptreeMaxKeys + 1) 0) (List.replicate (bptreeMaxKeys + 1) default)) >>= _ = _
  rw [copyEntries_ok hcopied hcopied', bounded_ok, except_ok_bind]
  change bounded (fetch keys (0 : Nat)) >>= _ = _
  rw [hpromoted, bounded_ok, except_ok_bind, hdrop, splitMemory, hleaf]
  rfl

theorem splitLeaf_fails {cell : Node α} {a : Nat} (hcalloc : calloc m.used = false) :
    splitLeaf calloc m a cell =
      .ok (BptreeHeap.makeError (ascii "out of memory while splitting B+ tree leaf"),
        { m with used := m.used + 1 }) := by
  rw [splitLeaf, createNode_none true hcalloc]

omit [Inhabited α] in
theorem scan_leaf {cell : Node α} {es : List (Int × α)} {next : Option Nat}
    (hcell : LeafCell cell es next) (key : Int) :
    scanSlots (fun k => !decide (k < key)) cell.keys cell.keyCount 0 =
      .ok (leafInsertIndex es key) := by
  have hscan := hcell.keys.scan fun k => !decide (k < key)
  rw [List.length_map, ← hcell.count] at hscan
  rw [hscan, leaf_index, List.takeWhile_map, List.length_map]
  simp [Function.comp_def]

omit [Inhabited α] in
/-- The comparison at the insertion index, which the loop does not pass. -/
theorem compare_leaf {cell : Node α} {es : List (Int × α)} {next : Option Nat}
    (hcell : LeafCell cell es next) (key : Int) (index : Nat) :
    isKeyAt cell index key = .ok (decide ((es[index]?.map Prod.fst) = some key)) := by
  rw [isKeyAt, hcell.count]
  split
  · rename_i hlt
    have hfetch : fetch cell.keys index = .ok es[index].1 :=
      hcell.keys.fetch (by simp [List.getElem?_eq_getElem hlt])
    rw [hfetch, List.getElem?_eq_getElem hlt]
    simp [Except.map]
  · rename_i hge
    rw [List.getElem?_eq_none (Nat.not_lt.mp hge)]
    rfl

theorem splitLeaf_simulates (calloc : Nat → Bool) {cell : Node α} {es : List (Int × α)} {next : Option Nat} {a : Nat}
    (hfound : m.node a = some cell) (hcell : LeafCell cell es next) (hne : es ≠ [])
    (ha : a < m.used) : ∃ result, splitLeaf calloc m a cell = .ok result ∧
      Simulates m 0 a [a]
        (match Index.createNode calloc m.used with
        | (none, used) =>
          (.leaf a es next, Index.makeError (ascii "out of memory while splitting B+ tree leaf"),
            used)
        | (some right, used) =>
          (.leaf a (es.take (es.length / 2)) (some right),
            { ok := true,
              split := some (((es.drop (es.length / 2)).head?.map Prod.fst).getD 0,
                .leaf right (es.drop (es.length / 2)) next),
              message := [] }, used)) result := by
  cases hcalloc : calloc m.used with
  | false =>
    refine ⟨_, splitLeaf_fails hcalloc, ?_⟩
    simp only [Index.createNode, hcalloc, Bool.false_eq_true, ↓reduceIte]
    refine ⟨rfl, rfl, rfl, fun _ => rfl, ⟨[a], .whole (leaf_stored hfound hcell), ?_⟩,
      fun _ _ _ => rfl⟩
    exact .same (List.nodup_singleton a) (Nat.le_succ _)
  | true =>
    obtain ⟨keys, values, hsplit, hkeys, hvalues⟩ := splitLeaf_halves (m := m) (a := a) hcell hne hcalloc
    refine ⟨_, hsplit, ?_⟩
    simp only [Index.createNode, hcalloc, ↓reduceIte]
    have hleft : LeafCell { cell with keyCount := cell.keyCount / 2, next := some m.used }
        (es.take (es.length / 2)) (some m.used) := by
      refine ⟨hcell.isLeaf, ?_, ?_, ?_, rfl⟩
      · change cell.keyCount / 2 = _
        rw [List.length_take, hcell.count]
        omega
      · rw [List.map_take]
        exact hcell.keys.take _
      · rw [List.map_take]
        exact hcell.values.take _
    have hright : LeafCell { (blankNode cell.isLeaf : Node α) with
        keyCount := cell.keyCount - cell.keyCount / 2, keys, values, next := cell.next }
        (es.drop (es.length / 2)) next := by
      refine ⟨hcell.isLeaf, ?_, hkeys, hvalues, hcell.next⟩
      rw [List.length_drop, hcell.count]
    refine ⟨rfl, rfl, rfl, ?_, ⟨[a] ++ [m.used], .halves (leaf_stored (split_left _ _) hleft)
      (leaf_stored (split_right _ _ ha) hright), ?_⟩, ?_⟩
    · intro h
      cases h
    · exact Grown.allocate (.same (List.nodup_singleton a) le_rfl) (by simpa using ha)
        List.perm_append_comm
    · intro x hx hlt
      exact split_other _ _ (by simpa using hx) hlt

theorem leaf_simulates {cell : Node α} {es : List (Int × α)} {next : Option Nat} {a : Nat}
    (hn : Shaped 0 lo hi (.leaf a es next)) (hfound : m.node a = some cell)
    (hcell : LeafCell cell es next) (ha : a < m.used) :
    ∃ result, BptreeHeap.insertIntoLeaf calloc m a cell key value = .ok result ∧
      Simulates m 0 a [a] (Index.insertIntoLeaf calloc m.used a es next key value) result := by
  obtain ⟨-, hlen, -, -⟩ := hn
  rw [BptreeHeap.insertIntoLeaf, scan_leaf hcell, bounded_ok, except_ok_bind,
    compare_leaf hcell, bounded_ok, except_ok_bind, Index.insertIntoLeaf]
  by_cases hknown : (es[leafInsertIndex es key]?.map Prod.fst) = some key
  · rw [if_pos (by simpa using hknown), if_pos hknown]
    refine ⟨_, rfl, rfl, rfl, rfl, fun _ => rfl, ⟨[a], .whole (leaf_stored hfound hcell), ?_⟩,
      fun _ _ _ => rfl⟩
    exact .same (List.nodup_singleton a) le_rfl
  · rw [if_neg (by simpa using hknown), if_neg hknown]
    have hindex : leafInsertIndex es key ≤ es.length := by
      rw [leaf_index]
      exact (List.takeWhile_prefix _).length_le
    obtain ⟨keys, hshifted, hstore⟩ :=
      hcell.keys.insert (leafInsertIndex es key) (by simpa using hindex)
        (by rw [List.length_map]; omega)
    obtain ⟨values, hshifted', hstore'⟩ :=
      hcell.values.insert (leafInsertIndex es key) (by simpa using hindex)
        (by rw [List.length_map]; omega)
    obtain ⟨keys', hkeys, hholds⟩ := hstore key
    obtain ⟨values', hvalues, hholds'⟩ := hstore' value
    rw [List.length_map] at hshifted hshifted'
    rw [hcell.count, shiftEntries_ok hshifted hshifted', bounded_ok, except_ok_bind]
    dsimp only
    rw [hkeys, bounded_ok, except_ok_bind, hvalues, bounded_ok, except_ok_bind]
    have hlength : (es.insertIdx (leafInsertIndex es key) (key, value)).length = es.length + 1 :=
      List.length_insertIdx_of_le_length hindex _
    have hfilled : LeafCell { cell with keyCount := es.length + 1, keys := keys', values := values' }
        (es.insertIdx (leafInsertIndex es key) (key, value)) next := by
      refine ⟨hcell.isLeaf, hlength.symm, ?_, ?_, hcell.next⟩
      · rw [List.map_insertIdx]
        exact hholds
      · rw [List.map_insertIdx]
        exact hholds'
    rw [hlength]
    split
    · refine ⟨_, rfl, rfl, rfl, rfl, fun _ => rfl,
        ⟨[a], .whole (leaf_stored (write_same _ _ _) hfilled), ?_⟩, ?_⟩
      · exact .same (List.nodup_singleton a) le_rfl
      · intro x hx _
        exact write_other _ _ (by simpa using hx)
    · obtain ⟨result, hresult, hsim⟩ := splitLeaf_simulates calloc
        (write_same m a _) hfilled (by rw [← List.length_pos_iff, hlength]; omega) ha
      rw [hlength] at hsim
      exact ⟨result, hresult, hsim.after_write List.mem_cons_self⟩

omit [Inhabited α] in
theorem internal_stored {h a : Nat} {cell : Node α} {ks : List Int} {cs : List (BPlusTreeNode α)}
    {as foots : List Nat} (hfound : m.node a = some cell) (hcell : InternalCell cell ks as)
    (hrow : Row (Stored m h) cs as foots) : Stored m (h + 1) (.internal ks cs) a (a :: foots) :=
  ⟨cell, as, foots, hfound, hcell, rfl, hrow⟩

theorem splitInternal_fails {cell : Node α} {a : Nat} (hcalloc : calloc m.used = false) :
    splitInternal calloc m a cell =
      .ok (BptreeHeap.makeError (ascii "out of memory while splitting B+ tree internal node"),
        { m with used := m.used + 1 }) := by
  rw [splitInternal, createNode_none false hcalloc]

theorem splitInternal_halves {cell : Node α} {ks : List Int} {as : List Nat} {a : Nat}
    (hcell : InternalCell cell ks as) (hne : ks ≠ []) (hlength : as.length = ks.length + 1)
    (hcalloc : calloc m.used = true) :
    ∃ keys children, splitInternal calloc m a cell =
      .ok (⟨true, some (ks[ks.length / 2]?.getD 0, m.used), []⟩,
        splitMemory m m.used
          { (blankNode cell.isLeaf : Node α) with
            keyCount := cell.keyCount - cell.keyCount / 2 - 1, keys, children }
          a { cell with keyCount := cell.keyCount / 2 }) ∧
      Holds keys (ks.drop (ks.length / 2 + 1)) (bptreeMaxKeys + 1) ∧
      Holds children ((as.drop (ks.length / 2 + 1)).map some) (bptreeMaxKeys + 2) := by
  obtain ⟨hinternal, hcount, hkeys, hchildren⟩ := hcell
  have hpos := List.length_pos_of_ne_nil hne
  have hmid : ks.length / 2 < ks.length := by omega
  obtain ⟨keys, hcopied, hright⟩ := hkeys.copy (ks.length / 2 + 1)
    (ks.length - ks.length / 2 - 1) (by omega)
    (List.length_replicate : (List.replicate (bptreeMaxKeys + 1) (0 : Int)).length =
      bptreeMaxKeys + 1)
  obtain ⟨children, hcopied', hright'⟩ := hchildren.copy (ks.length / 2 + 1)
    (ks.length - ks.length / 2 - 1 + 1) (by rw [List.length_map]; omega)
    (List.length_replicate : (List.replicate (bptreeMaxKeys + 2) none).length = bptreeMaxKeys + 2)
  rw [← List.map_drop] at hright'
  have hpromoted : fetch cell.keys (ks.length / 2 : Nat) = .ok ks[ks.length / 2] :=
    hkeys.fetch (List.getElem?_eq_getElem hmid)
  refine ⟨keys, children, ?_, hright, hright'⟩
  rw [splitInternal, createNode_some false hcalloc]
  dsimp only
  rw [read_allocated, except_ok_bind, hcount, hpromoted, bounded_ok, except_ok_bind]
  change bounded (copySlots cell.keys (ks.length / 2 + 1) (ks.length - ks.length / 2 - 1) 0
    (List.replicate (bptreeMaxKeys + 1) 0)) >>= _ = _
  rw [hcopied, bounded_ok, except_ok_bind]
  change bounded (copySlots cell.children (ks.length / 2 + 1) (ks.length - ks.length / 2 - 1 + 1) 0
    (List.replicate (bptreeMaxKeys + 2) none)) >>= _ = _
  rw [hcopied', bounded_ok, except_ok_bind, List.getElem?_eq_getElem hmid, splitMemory, hinternal]
  rfl

theorem splitInternal_simulates (calloc : Nat → Bool) {h a : Nat} {cell : Node α} {ks : List Int}
    {cs : List (BPlusTreeNode α)} {as foots : List Nat} (hfound : m.node a = some cell)
    (hcell : InternalCell cell ks as) (hrow : Row (Stored m h) cs as foots) (hne : ks ≠ [])
    (hlength : cs.length = ks.length + 1) (hnodup : (a :: foots).Nodup)
    (hbound : ∀ x ∈ a :: foots, x < m.used) :
    ∃ result, splitInternal calloc m a cell = .ok result ∧
      Simulates m (h + 1) a (a :: foots)
        (match Index.createNode calloc m.used with
        | (none, used) =>
          (.internal ks cs,
            Index.makeError (ascii "out of memory while splitting B+ tree internal node"), used)
        | (some _, used) =>
          (.internal (ks.take (ks.length / 2)) (cs.take (ks.length / 2 + 1)),
            { ok := true,
              split := some (ks[ks.length / 2]?.getD 0,
                .internal (ks.drop (ks.length / 2 + 1)) (cs.drop (ks.length / 2 + 1))),
              message := [] }, used)) result := by
  have hpos := List.length_pos_of_ne_nil hne
  cases hcalloc : calloc m.used with
  | false =>
    refine ⟨_, splitInternal_fails hcalloc, ?_⟩
    simp only [Index.createNode, hcalloc, Bool.false_eq_true, ↓reduceIte]
    refine ⟨rfl, rfl, rfl, fun _ => rfl,
      ⟨a :: foots, .whole (internal_stored hfound hcell (row_frame hrow fun _ _ => rfl)), ?_⟩,
      fun _ _ _ => rfl⟩
    exact .same hnodup (Nat.le_succ _)
  | true =>
    obtain ⟨keys, children, hsplit, hkeys, hchildren⟩ :=
      splitInternal_halves (m := m) (a := a) hcell hne (hrow.length.trans hlength) hcalloc
    refine ⟨_, hsplit, ?_⟩
    simp only [Index.createNode, hcalloc, ↓reduceIte]
    rw [← List.take_append_drop (ks.length / 2 + 1) cs] at hrow
    obtain ⟨bs, bs', front, rest, rfl, rfl, hfirst, hsecond⟩ := hrow.split
    have hbs : bs.length = ks.length / 2 + 1 := by
      rw [hfirst.length, List.length_take]
      omega
    have hleft : InternalCell { cell with keyCount := cell.keyCount / 2 }
        (ks.take (ks.length / 2)) bs := by
      refine ⟨hcell.isInternal, ?_, hcell.keys.take _, ?_⟩
      · change cell.keyCount / 2 = _
        rw [List.length_take, hcell.count]
        omega
      · have htake := hcell.children.take bs.length
        rw [List.map_append, ← List.length_map (f := some), List.take_left] at htake
        exact htake
    have hright : InternalCell { (blankNode cell.isLeaf : Node α) with
        keyCount := cell.keyCount - cell.keyCount / 2 - 1, keys, children }
        (ks.drop (ks.length / 2 + 1)) bs' := by
      refine ⟨hcell.isInternal, ?_, hkeys, ?_⟩
      · change cell.keyCount - cell.keyCount / 2 - 1 = _
        rw [List.length_drop, hcell.count]
        omega
      · rw [← hbs, List.drop_left] at hchildren
        exact hchildren
    have hsame : ∀ x ∈ front ++ rest,
        (splitMemory m m.used { (blankNode cell.isLeaf : Node α) with
          keyCount := cell.keyCount - cell.keyCount / 2 - 1, keys, children }
          a { cell with keyCount := cell.keyCount / 2 }).node x = m.node x := by
      intro x hx
      apply split_other
      · rintro rfl
        exact (List.nodup_cons.mp hnodup).1 hx
      · exact hbound x (List.mem_cons_of_mem _ hx)
    refine ⟨rfl, rfl, rfl, ?_, ⟨(a :: front) ++ (m.used :: rest), .halves
      (internal_stored (split_left _ _) hleft
        (row_frame hfirst fun x hx => hsame x (List.mem_append_left _ hx)))
      (internal_stored (split_right _ _ (hbound a List.mem_cons_self)) hright
        (row_frame hsecond fun x hx => hsame x (List.mem_append_right _ hx))), ?_⟩, ?_⟩
    · intro h
      cases h
    · exact Grown.allocate (.same hnodup le_rfl) hbound List.perm_middle
    · intro x hx hlt
      exact split_other _ _ (fun hxa => hx (hxa ▸ List.mem_cons_self)) hlt

omit [Inhabited α] in
/-- The row of a node with the child's new cells in place of the old ones. -/
theorem answered_row {m' : Memory α} {h ac : Nat} {n' : BPlusTreeNode α}
    {split : Option (Int × BPlusTreeNode α)} {split' : Option (Int × Nat)}
    {before after : List (BPlusTreeNode α)} {bs bs' front middle rest : List Nat}
    (hbefore : Row (Stored m' h) before bs front) (hafter : Row (Stored m' h) after bs' rest)
    (hanswer : Answer m' h ac n' split split' middle) :
    (split = none ∧ split' = none ∧
      Row (Stored m' h) (before ++ n' :: after) (bs ++ ac :: bs') (front ++ middle ++ rest)) ∨
    ∃ promoted right b, split = some (promoted, right) ∧ split' = some (promoted, b) ∧
      Row (Stored m' h) (before ++ [n', right] ++ after) (bs ++ [ac, b] ++ bs')
        (front ++ middle ++ rest) := by
  cases hanswer with
  | whole stored =>
    left
    refine ⟨rfl, rfl, ?_⟩
    rw [List.append_assoc]
    exact hbefore.append (.cons stored hafter)
  | @halves right promoted b foot foot' first second =>
    right
    refine ⟨promoted, right, b, rfl, rfl, ?_⟩
    exact (hbefore.append (.cons first (.singleton second))).append hafter

/-- The parent of a child that has answered, whose row now lies in the memory. -/
theorem absorb_simulates (calloc : Nat → Bool) {h a : Nat} {cell : Node α} {ks : List Int}
    {before after : List (BPlusTreeNode α)} {n' : BPlusTreeNode α} {as bs bs' : List Nat}
    {foots : List Nat} {ac : Nat} {state : Index.InsertState α} {state' : InsertState}
    (hfound : m.node a = some cell) (hcell : InternalCell cell ks as)
    (has : as = bs ++ ac :: bs') (hbs : bs.length = before.length)
    (hlen : ks.length ≤ bptreeMaxKeys)
    (hlength : as.length = ks.length + 1)
    (hok : state'.ok = state.ok) (hmessage : state'.message = state.message)
    (hwhole : state.ok = false → state.split = none)
    (hrow : (state.split = none ∧ state'.split = none ∧
        Row (Stored m h) (before ++ n' :: after) (bs ++ ac :: bs') foots) ∨
      ∃ promoted right b, state.split = some (promoted, right) ∧ state'.split = some (promoted, b) ∧
        Row (Stored m h) (before ++ [n', right] ++ after) (bs ++ [ac, b] ++ bs') foots)
    (hnodup : (a :: foots).Nodup) (hbound : ∀ x ∈ a :: foots, x < m.used) :
    ∃ result, absorbChild calloc m a before.length state' = .ok result ∧
      Simulates m (h + 1) a (a :: foots)
        (insertIntoInternal calloc ks before.length (before ++ n' :: after, state, m.used))
        result := by
  rw [absorbChild, insertIntoInternal, hok]
  rcases hrow with ⟨hnone, hnone', hrow⟩ | ⟨promoted, right, b, hsome, hsome', hrow⟩
  · rw [← has] at hrow
    have hanswer : Answer m (h + 1) a (.internal ks (before ++ n' :: after)) none none (a :: foots) :=
      .whole (internal_stored hfound hcell hrow)
    cases hstate : state.ok with
    | false =>
      have hfailed : Answer m (h + 1) a (.internal ks (before ++ n' :: after)) state.split
          state'.split (a :: foots) := by
        rw [hnone, hnone']
        exact hanswer
      simp only [Bool.not_false, ↓reduceIte]
      exact ⟨_, rfl, hok, hmessage, rfl, hwhole, ⟨a :: foots, hfailed, .same hnodup le_rfl⟩,
        fun _ _ _ => rfl⟩
    | true =>
      rw [hnone, hnone']
      exact ⟨_, rfl, rfl, rfl, rfl, fun _ => rfl, ⟨a :: foots, hanswer, .same hnodup le_rfl⟩,
        fun _ _ _ => rfl⟩
  · cases hstate : state.ok with
    | false =>
      rw [hwhole hstate] at hsome
      cases hsome
    | true =>
      have hrank : before.length ≤ ks.length := by
        rw [has, List.length_append, List.length_cons, hbs] at hlength
        omega
      obtain ⟨keys, hshifted, hstore⟩ := hcell.keys.insert before.length hrank (by omega)
      obtain ⟨children, hshifted', hstore'⟩ := hcell.children.insert (before.length + 1)
        (by rw [List.length_map]; omega) (by rw [List.length_map]; omega)
      obtain ⟨keys', hkeys, hholds⟩ := hstore promoted
      obtain ⟨children', hchildren, hholds'⟩ := hstore' (some b)
      have hkeysLength : (ks.insertIdx before.length promoted).length = ks.length + 1 :=
        List.length_insertIdx_of_le_length hrank _
      have haddresses : (as.map some).insertIdx (before.length + 1) (some b) =
          (bs ++ [ac, b] ++ bs').map some := by
        have hbetween := insertIdx_between ((bs ++ [ac]).map some) (bs'.map some) (some b)
        rw [List.length_map, List.length_append, List.length_singleton, hbs] at hbetween
        rw [has]
        simpa using hbetween
      have hnodes : (before ++ n' :: after).insertIdx (before.length + 1) right =
          before ++ [n', right] ++ after := by
        have hbetween := insertIdx_between (before ++ [n']) after right
        rw [List.length_append, List.length_singleton] at hbetween
        simpa using hbetween
      have hfilled : InternalCell { cell with keyCount := ks.length + 1, keys := keys', children := children' }
          (ks.insertIdx before.length promoted) (bs ++ [ac, b] ++ bs') := by
        refine ⟨hcell.isInternal, hkeysLength.symm, hholds, ?_⟩
        rw [← haddresses]
        exact hholds'
      rw [List.length_map, hlength] at hshifted'
      rw [hsome, hsome']
      simp only [Bool.not_true, Bool.false_eq_true, ↓reduceIte]
      rw [read_found hfound, except_ok_bind, hcell.count, hshifted, bounded_ok, except_ok_bind,
        hshifted', bounded_ok, except_ok_bind, hkeys, bounded_ok, except_ok_bind, hchildren,
        bounded_ok, except_ok_bind, hkeysLength, hnodes]
      have hsame : ∀ x ∈ foots, (m.write a
          { cell with keyCount := ks.length + 1, keys := keys', children := children' }).node x =
            m.node x := by
        intro x hx
        apply write_other
        rintro rfl
        exact (List.nodup_cons.mp hnodup).1 hx
      have hrow' := row_frame hrow hsame
      split
      · refine ⟨_, rfl, rfl, rfl, rfl, fun _ => rfl,
          ⟨a :: foots, .whole (internal_stored (write_same _ _ _) hfilled hrow'),
            .same hnodup le_rfl⟩, ?_⟩
        intro x hx _
        exact write_other _ _ fun hxa => hx (hxa ▸ List.mem_cons_self)
      · obtain ⟨result, hresult, hsim⟩ := splitInternal_simulates calloc
          (write_same m a _) hfilled hrow' (by rw [← List.length_pos_iff, hkeysLength]; omega)
          (by rw [hkeysLength, ← hrow.length, ← List.length_map (f := some), ← haddresses]
              rw [List.length_insertIdx_of_le_length (by rw [List.length_map]; omega),
                List.length_map, hlength])
          hnodup hbound
        rw [hkeysLength] at hsim
        exact ⟨result, hresult, hsim.after_write List.mem_cons_self⟩

omit [Inhabited α] in
theorem scan_internal {cell : Node α} {ks : List Int} {as : List Nat}
    (hcell : InternalCell cell ks as) (key : Int) :
    scanSlots (fun k => !decide (key ≥ k)) cell.keys cell.keyCount 0 = .ok (rank ks key) := by
  rw [hcell.count, hcell.keys.scan, rank]
  simp

/-- The insertion below a node, over arrays and pointers, does what the one over lists does;
no access fails. -/
theorem node_simulates {h depth : Nat} {n : BPlusTreeNode α} {a : Nat} {foot : List Nat}
    (hn : Shaped h lo hi n) (hlo : Above lo key) (hhi : Below hi key) (hs : Stored m h n a foot)
    (hnodup : foot.Nodup) (hbound : ∀ x ∈ foot, x < m.used) (hdepth : h < depth) :
    ∃ result, BptreeHeap.insertIntoNode calloc depth m (some a) key value = .ok result ∧
      Simulates m h a foot (Index.insertIntoNode calloc m.used n key value) result := by
  induction h generalizing lo hi n a foot depth with
  | zero =>
    cases n with
    | internal ks cs => exact hn.elim
    | leaf address es next =>
      obtain ⟨rfl, rfl, cell, hfound, hcell⟩ := hs
      obtain ⟨depth, rfl⟩ := Nat.exists_eq_succ_of_ne_zero (Nat.ne_zero_of_lt hdepth)
      rw [BptreeHeap.insertIntoNode, read_found hfound, except_ok_bind, if_pos hcell.isLeaf,
        Index.insertIntoNode]
      exact leaf_simulates hn hfound hcell (hbound _ List.mem_cons_self)
  | succ h ih =>
    cases n with
    | leaf address es next => exact hn.elim
    | internal ks cs =>
      obtain ⟨cell, as, foots, hfound, hcell, rfl, hrow⟩ := hs
      obtain ⟨depth, rfl⟩ := Nat.exists_eq_succ_of_ne_zero (Nat.ne_zero_of_lt hdepth)
      obtain ⟨-, hlen, hbetween⟩ := hn
      obtain ⟨r⟩ := hbetween.route hlo hhi
      rw [r.children_eq] at hrow
      obtain ⟨bs, _, front, _, rfl, rfl, hbefore, hrest⟩ := hrow.split
      cases hrest with
      | @cons _ ac middle _ bs' rest hchild hafter =>
        have hbs : bs.length = r.before.length := hbefore.length
        have hlength : (bs ++ ac :: bs').length = ks.length + 1 := by
          rw [hrow.length, ← r.children_eq, hbetween.length]
        rw [← List.append_assoc] at hnodup hbound
        obtain ⟨hahead, hfoots⟩ := List.nodup_cons.mp hnodup
        have hfoot : ∀ x ∈ front ++ middle ++ rest, x < m.used := fun x hx =>
          hbound x (List.mem_cons_of_mem _ hx)
        obtain ⟨hfrontMiddle, -, hapart⟩ := List.nodup_append.mp hfoots
        obtain ⟨-, hmiddle, happart'⟩ := List.nodup_append.mp hfrontMiddle
        obtain ⟨⟨state', m'⟩, hanswered, hsim⟩ := @ih r.low r.high depth r.child ac middle
          r.holds r.above r.below hchild hmiddle (fun x hx => hfoot x (by simp [hx])) (by omega)
        have hfetch : fetch cell.children (rank ks key : Nat) = .ok (some ac) := by
          apply hcell.children.fetch
          rw [← r.rank_before, ← hbs]
          simp
        have hgrown : ∃ middle', Answer m' h ac (Index.insertIntoNode calloc m.used r.child key value).1
            (Index.insertIntoNode calloc m.used r.child key value).2.1.split state'.split middle' ∧
            Grown m.used m'.used middle middle' := hsim.answer
        obtain ⟨middle', hanswer, hgrown⟩ := hgrown
        have hfoundLater : m'.node a = some cell := by
          rw [← hfound]
          exact hsim.frame a (fun hmem => hahead (by simp [hmem])) (hbound a List.mem_cons_self)
        have hbeforeLater : Row (Stored m' h) r.before bs front :=
          row_frame hbefore fun x hx =>
            hsim.frame x (fun hmem => happart' x hx x hmem rfl) (hfoot x (by simp [hx]))
        have hafterLater : Row (Stored m' h) r.after bs' rest :=
          row_frame hafter fun x hx =>
            hsim.frame x (fun hmem => hapart x (by simp [hmem]) x hx rfl) (hfoot x (by simp [hx]))
        have hwhole : Grown m.used m'.used (a :: (front ++ middle ++ rest))
            (a :: (front ++ middle' ++ rest)) :=
          @Grown.around _ _ _ _ hgrown (a :: front) rest hnodup hbound
        obtain ⟨result, hresult, habsorbed⟩ := absorb_simulates calloc hfoundLater hcell rfl
          hbs hlen hlength hsim.ok hsim.message hsim.whole
          (answered_row hbeforeLater hafterLater hanswer) hwhole.nodup (hwhole.bound hbound)
        refine ⟨result, ?_, ?_⟩
        · rw [BptreeHeap.insertIntoNode, read_found hfound, except_ok_bind,
            if_neg (by rw [hcell.isInternal]; simp), scan_internal hcell, bounded_ok, except_ok_bind,
            hfetch, bounded_ok, except_ok_bind, hanswered, except_ok_bind, ← r.rank_before]
          exact hresult
        · rw [insert_routed calloc m.used value r, ← r.rank_before, ← List.append_assoc]
          have hused : (Index.insertIntoNode calloc m.used r.child key value).2.2 = m'.used :=
            hsim.used.symm
          rw [hused]
          refine habsorbed.after hwhole fun x hx hlt => ?_
          exact hsim.frame x (fun hmem => hx (by simp [hmem])) hlt

/-- A well-formed tree of at most `size` keys, with its root where the pointer points. -/
inductive RootStored (size : Nat) : BptreeHeap.Tree α → BPlusTree α → Prop
  | empty (memory : Memory α) : RootStored size ⟨none, memory⟩ ⟨none, memory.used⟩
  | root {memory : Memory α} {root : BPlusTreeNode α} {a h : Nat} {foot : List Nat}
      (few : (entriesOf root).length ≤ size) (shaped : Shaped h none none root)
      (stored : Stored memory h root a foot) (nodup : foot.Nodup)
      (bound : ∀ x ∈ foot, x < memory.used) :
      RootStored size ⟨some a, memory⟩ ⟨some root, memory.used⟩

theorem insert_empty (m : Memory α) (depth : Nat) (key : Int) (value : α) :
    ∃ heap, BptreeHeap.bptreeInsert allocates depth ⟨none, m⟩ key value =
      .ok (heap, (Index.bptreeInsert allocates ⟨none, m.used⟩ key value).2) ∧
      RootStored 1 heap (Index.bptreeInsert allocates ⟨none, m.used⟩ key value).1 := by
  have hread : (allocated m true).read (some m.used) = .ok (blankNode true) := read_allocated m true
  refine ⟨⟨some m.used, (allocated m true).write m.used { (blankNode true : Node α) with
    keys := [key, 0, 0, 0], values := [value, default, default, default], keyCount := 1 }⟩, ?_, ?_⟩
  · rw [BptreeHeap.bptreeInsert, createNode_some true rfl]
    dsimp only
    rw [hread]
    rfl
  · refine .root (h := 0) (by simp) ?_ (leaf_stored (write_same _ _ _) ?_)
      (List.nodup_singleton _) ?_
    · simp [Shaped, Sorted, bptreeMaxKeys]
    · exact ⟨rfl, rfl, ⟨⟨[0, 0, 0], rfl⟩, rfl⟩, ⟨⟨[default, default, default], rfl⟩, rfl⟩, rfl⟩
    · intro x hx
      rw [List.mem_singleton.mp hx]
      exact Nat.lt_succ_self _

omit [Inhabited α] in
theorem RootStored.mono {size size' : Nat} {heap : BptreeHeap.Tree α} {tree : BPlusTree α}
    (hs : RootStored size heap tree) (hle : size ≤ size') : RootStored size' heap tree := by
  cases hs with
  | empty memory => exact .empty memory
  | root few shaped stored nodup bound =>
    exact .root (few.trans hle) shaped stored nodup bound

/-- A root that was split becomes the first child of a new one. -/
theorem grow_root {m : Memory α} {h a b : Nat} (size : Nat) {left right : BPlusTreeNode α} {promoted : Int}
    {foot foot' : List Nat} (hleft : Stored m h left a foot) (hright : Stored m h right b foot')
    (hshaped : Shaped h none (some promoted) left) (hshaped' : Shaped h (some promoted) none right)
    (hnodup : (foot ++ foot').Nodup) (hbound : ∀ x ∈ foot ++ foot', x < m.used)
    (hfew : (entriesOf left ++ entriesOf right).length ≤ size) :
    RootStored size
      ⟨some m.used, (allocated m false).write m.used { (blankNode false : Node α) with
        keys := [promoted, 0, 0, 0], children := [some a, some b, none, none, none], keyCount := 1 }⟩
      ⟨some (.internal [promoted] [left, right]), m.used + 1⟩ := by
  have hsame : ∀ x ∈ foot ++ foot', ((allocated m false).write m.used
      { (blankNode false : Node α) with
        keys := [promoted, 0, 0, 0], children := [some a, some b, none, none, none],
        keyCount := 1 }).node x = m.node x := by
    intro x hx
    rw [write_other _ _ (hbound x hx).ne]
    exact allocated_other _ _ (hbound x hx)
  have hrow : Row (Stored m h) [left, right] [a, b] (foot ++ foot') :=
    .cons hleft (.singleton hright)
  refine .root (h := h + 1) (by simpa using hfew) ⟨by simp, by simp [bptreeMaxKeys], ?_⟩
    (internal_stored (write_same _ _ _) ?_ (row_frame hrow hsame)) ?_ ?_
  · exact .cons (past_none _) (below_none _) hshaped (.last hshaped')
  · exact ⟨rfl, rfl, ⟨⟨[0, 0, 0], rfl⟩, rfl⟩, ⟨⟨[none, none, none], rfl⟩, rfl⟩⟩
  · rw [List.nodup_cons]
    exact ⟨fun hmem => Nat.lt_irrefl _ (hbound _ hmem), hnodup⟩
  · intro x hx
    rcases List.mem_cons.mp hx with rfl | hx
    · exact Nat.lt_succ_self _
    · exact (hbound x hx).trans (Nat.lt_succ_self _)

/-- One insertion: no access fails, and the two trees agree on what they answer. -/
theorem RootStored.insert {size depth : Nat} {heap : BptreeHeap.Tree α} {tree : BPlusTree α}
    (hs : RootStored size heap tree) (hdepth : size ≤ depth) (key : Int) (value : α) :
    ∃ heap', BptreeHeap.bptreeInsert allocates depth heap key value =
      .ok (heap', (Index.bptreeInsert allocates tree key value).2) ∧
      RootStored (size + 1) heap' (Index.bptreeInsert allocates tree key value).1 := by
  cases hs with
  | empty memory =>
    obtain ⟨heap', hinsert, hstored⟩ := insert_empty memory depth key value
    exact ⟨heap', hinsert, hstored.mono (Nat.succ_le_succ (Nat.zero_le _))⟩
  | @root memory root a h foot few shaped stored nodup bound =>
    have hheight := shaped.height
    obtain ⟨⟨⟨ok', split', message'⟩, m'⟩, hresult, hsim⟩ := @node_simulates α none none key value _ allocates memory
      h depth root a foot shaped (above_none key) (below_none key) stored nodup bound (by omega)
    have hout : Outcome h none none root key value
        (Index.insertIntoNode allocates memory.used root key value) :=
      node_outcome (fun _ => rfl) shaped (above_none key) (below_none key) memory.used
    simp only [BptreeHeap.bptreeInsert, Index.bptreeInsert]
    rw [hresult, except_ok_bind]
    generalize Index.insertIntoNode allocates memory.used root key value = result at hsim hout
    obtain ⟨hok, hmessage, hused, -, ⟨foot', hanswer, hgrown⟩, -⟩ := hsim
    have hlater := hgrown.bound bound
    have hinserted := insert_length key value (entriesOf root)
    cases hout with
    | duplicate known =>
      dsimp only at hok hmessage hused hanswer ⊢
      cases hanswer with
      | whole stored' =>
        rw [hok, hmessage, ← hused]
        exact ⟨_, rfl, .root (by omega) shaped stored' hgrown.nodup hlater⟩
    | inPlace fresh shaped' entries =>
      dsimp only at hok hmessage hused hanswer ⊢
      cases hanswer with
      | whole stored' =>
        rw [hok, ← hused]
        refine ⟨_, rfl, .root ?_ shaped' stored' hgrown.nodup hlater⟩
        rw [entries, hinserted]
        omega
    | split fresh past below shapedLeft shapedRight entries =>
      dsimp only at hok hmessage hused hanswer ⊢
      cases hanswer with
      | halves first second =>
        have hgrow := grow_root (size + 1) first second shapedLeft shapedRight hgrown.nodup hlater
          (by rw [entries, hinserted]; omega)
        rw [hok, ← hused]
        refine ⟨_, ?_, hgrow⟩
        simp only [Bool.not_true, Bool.false_eq_true, ↓reduceIte]
        rw [createNode_some false rfl]
        dsimp only
        rw [read_allocated]
        rfl

/-- A whole run: every insertion keeps within the arrays, whatever the order of the keys. -/
theorem insertAll_stored {depth : Nat} (ops : List (Int × α)) (hdepth : ops.length ≤ depth) :
    ∃ heap, BptreeHeap.insertAll allocates depth ops = .ok heap ∧
      RootStored ops.length heap (BptreeMap.insertAll allocates ops) := by
  induction ops using List.reverseRecOn with
  | nil => exact ⟨_, rfl, .empty _⟩
  | append_singleton ops op ih =>
    rw [List.length_append, List.length_singleton] at hdepth
    obtain ⟨heap, hheap, hstored⟩ := ih (by omega)
    obtain ⟨heap', hinsert, hstored'⟩ := hstored.insert (by omega : ops.length ≤ depth) op.1 op.2
    refine ⟨heap', ?_, ?_⟩
    · rw [BptreeHeap.insertAll] at hheap ⊢
      rw [List.foldlM_append, hheap, except_ok_bind]
      simp only [List.foldlM_cons, List.foldlM_nil, hinsert]
      rfl
    · rw [BptreeMap.insertAll_snoc, List.length_append, List.length_singleton]
      exact hstored'

end DbApi.Proofs.BptreeHeap
