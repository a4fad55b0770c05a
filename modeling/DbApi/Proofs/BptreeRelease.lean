import DbApi.Index.BptreeForest
import DbApi.Proofs.BptreeHeap

namespace DbApi.Proofs.BptreeRelease
open Library Separators SortedMap Index Index.BptreeHeap BptreeShape BptreeInsert BptreeHeap

variable {α : Type} {m m' m'' : Memory α} {lo hi : Option Int} {key : Int}

/-- Exactly the cells of a footprint are given back. -/
structure Freed (m m' : Memory α) (foot : List Nat) : Prop where
  used : m'.used = m.used
  gone : ∀ x ∈ foot, m'.node x = none
  kept : ∀ x ∉ foot, m'.node x = m.node x

theorem Freed.nothing (m : Memory α) : Freed m m [] :=
  ⟨rfl, by simp, fun _ _ => rfl⟩

theorem Freed.append {foot foot' : List Nat} (h : Freed m m' foot) (h' : Freed m' m'' foot') :
    Freed m m'' (foot ++ foot') := by
  refine ⟨h'.used.trans h.used, ?_, ?_⟩
  · intro x hx
    by_cases hlater : x ∈ foot'
    · exact h'.gone x hlater
    · rw [h'.kept x hlater]
      exact h.gone x ((List.mem_append.mp hx).resolve_right hlater)
  · intro x hx
    rw [List.mem_append, not_or] at hx
    rw [h'.kept x hx.2, h.kept x hx.1]

theorem free_found {a : Nat} {cell : Node α} (h : m.node a = some cell) :
    ∃ m', m.free a = .ok m' ∧ Freed m m' [a] := by
  refine ⟨{ m with node := Function.update m.node a none }, ?_, rfl, ?_, ?_⟩
  · rw [Memory.free, h]
  · intro x hx
    rw [List.mem_singleton.mp hx]
    exact Function.update_self ..
  · intro x hx
    exact Function.update_of_ne (by simpa using hx) _ _

/-- The children are freed one after another; the node itself is there till the end. -/
theorem freeChildren_row {h a size : Nat} {cell : Node α} {cs : List (BPlusTreeNode α)}
    {done as foots : List Nat} {freeNode : Memory α → Option Nat → Except Fault (Memory α)}
    (hfree : ∀ c ∈ cs, ∀ m b foot, Stored m h c b foot → foot.Nodup →
      ∃ m', freeNode m (some b) = .ok m' ∧ Freed m m' foot)
    (hfound : m.node a = some cell) (ha : a ∉ foots)
    (hchildren : Holds cell.children ((done ++ as).map some) size)
    (hrow : Row (Stored m h) cs as foots) (hnodup : foots.Nodup) :
    ∃ m', freeChildren freeNode a as.length done.length m = .ok m' ∧ Freed m m' foots := by
  induction cs generalizing m done as foots with
  | nil =>
    cases hrow
    exact ⟨m, rfl, .nothing m⟩
  | cons c cs ih =>
    cases hrow with
    | @cons _ b foot _ as foots hfirst hrest =>
      obtain ⟨hnodup, hnodup', hapart⟩ := List.nodup_append.mp hnodup
      rw [List.mem_append, not_or] at ha
      obtain ⟨m₁, hfirstFreed, hfreed⟩ := hfree c List.mem_cons_self m b foot hfirst hnodup
      have hfetch : fetch cell.children (done.length : Nat) = .ok (some b) :=
        hchildren.fetch (by simp)
      have hlater : Row (Stored m₁ h) cs as foots :=
        row_frame hrest fun x hx => hfreed.kept x fun hmem => hapart x hmem x hx rfl
      have hfoundLater : m₁.node a = some cell := by
        rw [hfreed.kept a ha.1]
        exact hfound
      obtain ⟨m₂, hrestFreed, hfreed'⟩ := @ih m₁ (done ++ [b]) as foots
        (fun d hd => hfree d (List.mem_cons_of_mem _ hd)) hfoundLater ha.2
        (by simpa using hchildren) hlater hnodup'
      refine ⟨m₂, ?_, hfreed.append hfreed'⟩
      rw [List.length_append, List.length_singleton] at hrestFreed
      rw [List.length_cons, freeChildren, read_found hfound, except_ok_bind, hfetch, bounded_ok,
        except_ok_bind, hfirstFreed, except_ok_bind]
      exact hrestFreed

/-- A node and all below it are freed, each once and no other. -/
theorem freeNode_stored {h depth a : Nat} {n : BPlusTreeNode α} {foot : List Nat}
    (hn : Shaped h lo hi n) (hs : Stored m h n a foot) (hnodup : foot.Nodup) (hdepth : h < depth) :
    ∃ m', freeNode depth m (some a) = .ok m' ∧ Freed m m' foot := by
  obtain ⟨depth, rfl⟩ := Nat.exists_eq_succ_of_ne_zero (Nat.ne_zero_of_lt hdepth)
  induction h generalizing lo hi n a foot m depth with
  | zero =>
    cases n with
    | internal ks cs => exact hn.elim
    | leaf address es next =>
      obtain ⟨rfl, rfl, cell, hfound, hcell⟩ := hs
      rw [freeNode, read_found hfound, except_ok_bind, if_pos hcell.isLeaf, except_ok_bind]
      exact free_found hfound
  | succ h ih =>
    cases n with
    | leaf address es next => exact hn.elim
    | internal ks cs =>
      obtain ⟨cell, as, foots, hfound, hcell, rfl, hrow⟩ := hs
      obtain ⟨-, -, hbetween⟩ := hn
      obtain ⟨hahead, hnodup⟩ := List.nodup_cons.mp hnodup
      obtain ⟨depth, rfl⟩ := Nat.exists_eq_succ_of_ne_zero (by omega : depth ≠ 0)
      have hfree : ∀ c ∈ cs, ∀ m b foot, Stored m h c b foot → foot.Nodup →
          ∃ m', freeNode (depth + 1) m (some b) = .ok m' ∧ Freed m m' foot := by
        intro c hc m b foot hstored hnodup
        obtain ⟨low, high, hshaped⟩ := hbetween.each c hc
        exact ih hshaped hstored hnodup depth (by omega)
      have hslots : Holds cell.children (([] ++ as).map some) (bptreeMaxKeys + 2) := hcell.children
      obtain ⟨m₁, hchildren, hfreed⟩ := freeChildren_row hfree hfound hahead hslots hrow hnodup
      have hlength : as.length = cell.keyCount + 1 := by
        rw [hrow.length, hbetween.length, hcell.count]
      obtain ⟨m₂, hlast, hfreed'⟩ := @free_found _ m₁ a cell (by rw [hfreed.kept a hahead, hfound])
      refine ⟨m₂, ?_, ?_⟩
      · rw [freeNode, read_found hfound, except_ok_bind, if_neg (by rw [hcell.isInternal]; simp),
          ← hlength]
        change freeChildren _ a as.length ([] : List Nat).length m >>= _ = _
        rw [hchildren, except_ok_bind]
        exact hlast
      · obtain ⟨hused, hgone, hkept⟩ := hfreed.append hfreed'
        refine ⟨hused, fun x hx => hgone x ?_, fun x hx => hkept x ?_⟩
        · simpa [or_comm] using hx
        · simpa [or_comm, and_comm] using hx

/-- The descent of a search ends in the leaf that answers it. -/
theorem findLeaf_stored {h depth a : Nat} {n : BPlusTreeNode α} {foot : List Nat}
    (hn : Shaped h lo hi n) (hlo : Above lo key) (hhi : Below hi key) (hs : Stored m h n a foot)
    (hdepth : h < depth) : ∃ cell es next, findLeaf m key depth (some a) = .ok (some cell) ∧
      LeafCell cell es next ∧ searchNode n key = es.lookup key := by
  obtain ⟨depth, rfl⟩ := Nat.exists_eq_succ_of_ne_zero (Nat.ne_zero_of_lt hdepth)
  induction h generalizing lo hi n a foot depth with
  | zero =>
    cases n with
    | internal ks cs => exact hn.elim
    | leaf address es next =>
      obtain ⟨rfl, rfl, cell, hfound, hcell⟩ := hs
      refine ⟨cell, es, next, ?_, hcell, rfl⟩
      rw [findLeaf, read_found hfound, except_ok_bind, if_pos hcell.isLeaf]
  | succ h ih =>
    cases n with
    | leaf address es next => exact hn.elim
    | internal ks cs =>
      obtain ⟨cell, as, foots, hfound, hcell, rfl, hrow⟩ := hs
      obtain ⟨r⟩ := hn.2.2.route hlo hhi
      obtain ⟨depth, rfl⟩ := Nat.exists_eq_succ_of_ne_zero (by omega : depth ≠ 0)
      have hsearch : searchNode (.internal ks cs) key = searchNode r.child key := by
        calc searchNode (.internal ks cs) key
            = searchChild cs r.before.length key := by
              rw [searchNode, findChildIndex_rank, r.rank_before]
          _ = searchChild (r.before ++ r.child :: r.after) r.before.length key :=
              congrArg (searchChild · _ key) r.children_eq
          _ = searchNode r.child key := search_child _ _ _ _
      rw [r.children_eq] at hrow
      obtain ⟨bs, _, front, _, rfl, rfl, hbefore, hrest⟩ := hrow.split
      cases hrest with
      | @cons _ b _ _ bs' _ hchild _ =>
        have hfetch : fetch cell.children (rank ks key : Nat) = .ok (some b) := by
          apply hcell.children.fetch
          rw [← r.rank_before, ← hbefore.length]
          simp
        obtain ⟨leaf, es, next, hfind, hleaf, hlookup⟩ :=
          ih r.holds r.above r.below hchild depth (by omega)
        refine ⟨leaf, es, next, ?_, hleaf, hsearch.trans hlookup⟩
        rw [findLeaf, read_found hfound, except_ok_bind,
          if_neg (by rw [hcell.isInternal]; simp), scan_internal hcell, bounded_ok, except_ok_bind,
          hfetch, bounded_ok, except_ok_bind]
        exact hfind

/-- The value at the place where the scan of a leaf stops. -/
theorem lookup_scan (es : List (Int × α)) (key : Int) :
    (es.map Prod.snd)[((es.map Prod.fst).takeWhile fun k => !decide (k = key)).length]? =
      es.lookup key := by
  induction es with
  | nil => rfl
  | cons e es ih =>
    obtain ⟨k, value⟩ := e
    by_cases h : k = key
    · simp [h]
    · have hne : (key == k) = false := by simpa using Ne.symm h
      simpa [List.lookup_cons, h, hne] using ih

theorem searchLeaf_found {cell : Node α} {es : List (Int × α)} {next : Option Nat}
    (hcell : LeafCell cell es next) : searchLeaf cell key = .ok (es.lookup key) := by
  have hscan := hcell.keys.scan fun k => decide (k = key)
  rw [List.length_map] at hscan
  rw [searchLeaf, hcell.count, hscan, except_ok_bind, ← lookup_scan]
  split
  · rename_i hlt
    have hsome := List.getElem?_eq_getElem (by simpa using hlt :
      ((es.map Prod.fst).takeWhile fun k => !decide (k = key)).length < (es.map Prod.snd).length)
    rw [hcell.values.fetch hsome, hsome]
    rfl
  · rename_i hnot
    rw [List.getElem?_eq_none (by simpa using hnot)]

/-- A search over the cells gives what the tree holds. -/
theorem search_stored {h depth a : Nat} {root : BPlusTreeNode α} {foot : List Nat}
    (hn : Shaped h none none root) (hs : Stored m h root a foot) (hdepth : h < depth) (key : Int) :
    BptreeHeap.bptreeSearch depth ⟨some a, m⟩ key = .ok (searchNode root key) := by
  obtain ⟨cell, es, next, hfind, hcell, hlookup⟩ :=
    findLeaf_stored hn (above_none key) (below_none key) hs hdepth
  rw [BptreeHeap.bptreeSearch, hfind, except_ok_bind, hlookup]
  dsimp only
  rw [searchLeaf_found hcell]
  rfl

end DbApi.Proofs.BptreeRelease
