import DbApi.Library.Slots
import DbApi.Proofs.BptreeShape

namespace DbApi.Proofs.BptreeInsert
open Library SortedMap Separators Index BptreeShape

variable {α : Type} {calloc : Nat → Bool} {lo hi : Option Int} {key : Int} {value : α}

theorem bounds_insert (value : α) {es : List (Int × α)}
    (hb : ∀ e ∈ es, Above lo e.1 ∧ Below hi e.1) (hlo : Above lo key) (hhi : Below hi key) :
    ∀ e ∈ insertKey key value es, Above lo e.1 ∧ Below hi e.1 := by
  intro e he
  rcases mem_insert.mp he with rfl | he
  · exact ⟨hlo, hhi⟩
  · exact hb e he

/-- Cutting a sorted leaf anywhere inside leaves two leaves around the first
key of the right one. -/
theorem leaf_halves {es : List (Int × α)} {k : Nat} (hs : Sorted es)
    (hb : ∀ e ∈ es, Above lo e.1 ∧ Below hi e.1) (hk : 0 < k) (hkl : k < es.length)
    (hleft : k ≤ bptreeMaxKeys) (hright : es.length - k ≤ bptreeMaxKeys) (a b : Nat)
    (next next' : Option Nat) :
    let promoted := ((es.drop k).head?.map Prod.fst).getD 0
    Past lo promoted ∧ Below hi promoted ∧ Shaped 0 lo (some promoted) (.leaf a (es.take k) next) ∧
      Shaped 0 (some promoted) hi (.leaf b (es.drop k) next') := by
  obtain ⟨e, rest, hd⟩ : ∃ e rest, es.drop k = e :: rest := by
    cases hd : es.drop k with
    | nil => simp at hd; omega
    | cons e rest => exact ⟨e, rest, rfl⟩
  have hsplit : es.take k ++ es.drop k = es := List.take_append_drop k es
  have hboth : Sorted (es.take k ++ es.drop k) := by rw [hsplit]; exact hs
  obtain ⟨hst, hsd, hlt⟩ := List.pairwise_append.mp hboth
  have hless : ∀ x ∈ es.take k, x.1 < e.1 := fun x hx => hlt x hx e (by simp [hd])
  have hmost : ∀ x ∈ es.drop k, e.1 ≤ x.1 := by
    rw [hd] at hsd ⊢
    intro x hx
    rcases List.mem_cons.mp hx with rfl | hx
    · exact le_rfl
    · exact ((List.pairwise_cons.mp hsd).1 x hx).le
  have htake : ∀ x ∈ es.take k, x ∈ es := fun x hx => List.mem_of_mem_take hx
  have hdrop : ∀ x ∈ es.drop k, x ∈ es := fun x hx => List.mem_of_mem_drop hx
  have hne : es.take k ≠ [] := by
    intro he
    have := congrArg List.length he
    simp only [List.length_take, List.length_nil] at this
    omega
  obtain ⟨first, hfirst⟩ := List.exists_mem_of_ne_nil _ hne
  have hp : ((es.drop k).head?.map Prod.fst).getD 0 = e.1 := by simp [hd]
  simp only [hp]
  refine ⟨(Past.of_above (hb first (htake first hfirst)).1 (hless first hfirst)),
    (hb e (hdrop e (by simp [hd]))).2, ⟨hne, by simp; omega, hst, ?_⟩,
    ⟨by simp [hd], by simp; omega, hsd, ?_⟩⟩
  · intro x hx
    exact ⟨(hb x (htake x hx)).1, by simpa using hless x hx⟩
  · intro x hx
    exact ⟨by simpa using hmost x hx, (hb x (hdrop x hx)).2⟩

theorem leaf_outcome (hc : ∀ i, calloc i = true) {a : Nat} {es : List (Int × α)}
    {next : Option Nat} (hn : Shaped 0 lo hi (.leaf a es next)) (hlo : Above lo key)
    (hhi : Below hi key) (used : Nat) :
    Outcome 0 lo hi (.leaf a es next) key value
      (insertIntoLeaf calloc used a es next key value) := by
  obtain ⟨hne, hlen, hs, hb⟩ := hn
  have hdup := duplicate_iff hs key
  unfold insertIntoLeaf
  simp only [hdup, shifted_eq]
  split
  · rename_i hknown
    exact .duplicate hknown
  · rename_i hknown
    have fresh : ∀ e ∈ es, e.1 ≠ key := fun e he heq => hknown ⟨e, he, heq⟩
    have hsorted := insert_sorted value hs fresh
    have hbounds := bounds_insert value hb hlo hhi
    have hlength := insert_length key value es
    split
    · rename_i hfits
      exact .inPlace fresh ⟨by intro h; simp [h] at hlength, hfits, hsorted, hbounds⟩ rfl
    · rename_i hfull
      simp only [bptreeMaxKeys] at hlen hfull
      obtain ⟨past, below, left, right⟩ := leaf_halves (k := (insertKey key value es).length / 2)
        hsorted hbounds (by omega) (by omega) (by simp only [bptreeMaxKeys]; omega)
        (by simp only [bptreeMaxKeys]; omega) a used (some used) next
      simp only [createNode, hc, ↓reduceIte]
      exact .split fresh past below left right (by simp)

/-- Reading a node's children from left to right, insertion happens in the routed one. -/
theorem insert_around {h : Nat} {ks : List Int} {cs : List (BPlusTreeNode α)} (value : α)
    (r : Route (Shaped h) lo ks cs hi key) :
    insertKey key value (cs.flatMap entriesOf) = r.before.flatMap entriesOf ++
      insertKey key value (entriesOf r.child) ++ r.after.flatMap entriesOf := by
  have hcs : cs.flatMap entriesOf = r.before.flatMap entriesOf ++
      (entriesOf r.child ++ r.after.flatMap entriesOf) := by
    simpa using congrArg (List.flatMap entriesOf) r.children_eq
  rw [hcs, insert_append_left _ (route_before r), insert_append_right _ (route_after r),
    List.append_assoc]

theorem fresh_around {h : Nat} {ks : List Int} {cs : List (BPlusTreeNode α)}
    (r : Route (Shaped h) lo ks cs hi key) (fresh : ∀ e ∈ entriesOf r.child, e.1 ≠ key) :
    ∀ e ∈ cs.flatMap entriesOf, e.1 ≠ key := by
  intro e he
  rw [r.children_eq, List.flatMap_append, List.flatMap_cons] at he
  rcases List.mem_append.mp he with he | he
  · exact (route_before r e he).ne
  · rcases List.mem_append.mp he with he | he
    · exact fresh e he
    · exact (route_after r e he).ne'

/-- An overfull internal node cut at its middle separator, which moves up. -/
theorem internal_halves {h : Nat} {ks : List Int} {cs : List (BPlusTreeNode α)} {k : Nat}
    (hb : Between (Shaped h) lo ks cs hi) (hk : 0 < k) (hkl : k + 1 < ks.length)
    (hleft : k ≤ bptreeMaxKeys) (hright : ks.length - (k + 1) ≤ bptreeMaxKeys) :
    let promoted := ks[k]?.getD 0
    Past lo promoted ∧ Below hi promoted ∧
      Shaped (h + 1) lo (some promoted) (.internal (ks.take k) (cs.take (k + 1))) ∧
      Shaped (h + 1) (some promoted) hi (.internal (ks.drop (k + 1)) (cs.drop (k + 1))) := by
  have hlt : k < ks.length := by omega
  have hlen := hb.length
  have hkeys : ks.take k ++ ks[k] :: ks.drop (k + 1) = ks := by simp
  have hchildren : cs.take (k + 1) ++ cs.drop (k + 1) = cs := List.take_append_drop _ cs
  have hcut : Between (Shaped h) lo (ks.take k ++ ks[k] :: ks.drop (k + 1))
      (cs.take (k + 1) ++ cs.drop (k + 1)) hi := by rw [hkeys, hchildren]; exact hb
  obtain ⟨hl, hr⟩ := hcut.cut (by simp; omega)
  obtain ⟨past, below⟩ := hb.bounds ks[k] (List.getElem_mem hlt)
  simp only [List.getElem?_eq_getElem hlt, Option.getD_some]
  refine ⟨past, below, ⟨?_, by simp; omega, hl⟩, ⟨?_, by simp; omega, hr⟩⟩
  · intro he
    have := congrArg List.length he
    simp only [List.length_take, List.length_nil] at this
    omega
  · intro he
    have := congrArg List.length he
    simp only [List.length_drop, List.length_nil] at this
    omega

/-- The node takes in what its routed child answered. -/
theorem internal_outcome (hc : ∀ i, calloc i = true) {h : Nat} {ks : List Int}
    {cs : List (BPlusTreeNode α)} (hn : Shaped (h + 1) lo hi (.internal ks cs))
    (r : Route (Shaped h) lo ks cs hi key) {result : BPlusTreeNode α × InsertState α × Nat}
    (hchild : Outcome h r.low r.high r.child key value result) :
    Outcome (h + 1) lo hi (.internal ks cs) key value
      (insertIntoInternal calloc ks (rank ks key)
        (r.before ++ result.1 :: r.after, result.2.1, result.2.2)) := by
  obtain ⟨hne, hlen, hb⟩ := hn
  have hcontents := insert_around value r
  cases hchild with
  | duplicate known =>
    obtain ⟨e, he, hek⟩ := known
    have hsame : r.before ++ r.child :: r.after = cs := r.children_eq.symm
    simp only [insertIntoInternal, hsame]
    refine .duplicate ⟨e, ?_, hek⟩
    rw [entries_internal]
    exact List.mem_flatMap.mpr ⟨r.child, r.child_mem, he⟩
  | @inPlace n' used fresh shaped entries =>
    have hk : ks = r.keysBefore ++ [] ++ r.keysAfter := by simpa using r.keys_eq
    have hcs : r.before ++ n' :: r.after = r.before ++ [n'] ++ r.after := by simp
    simp only [insertIntoInternal, Bool.not_true, Bool.false_eq_true, ↓reduceIte]
    refine .inPlace (by simpa using fresh_around r fresh) ⟨hne, hlen, ?_⟩ ?_
    · have := r.refill [] [n'] (.last shaped)
      rwa [← hk, ← hcs] at this
    · rw [entries_internal, entries_internal, hcontents, ← entries]
      simp
  | @split left right promoted used fresh past below shapedLeft shapedRight entries =>
    have hkeys : ks.insertIdx (rank ks key) promoted =
        r.keysBefore ++ [promoted] ++ r.keysAfter := by
      have := insertIdx_between r.keysBefore r.keysAfter promoted
      rw [r.rank_keys, ← r.keys_eq] at this
      simpa using this
    have hchildren : (r.before ++ left :: r.after).insertIdx (rank ks key + 1) right =
        r.before ++ [left, right] ++ r.after := by
      have := insertIdx_between (r.before ++ [left]) r.after right
      simp only [List.length_append, List.length_singleton, r.rank_before] at this
      simpa using this
    have hbetween := r.refill [promoted] [left, right] (.cons past below shapedLeft (.last shapedRight))
    have hfresh : ∀ e ∈ entriesOf (.internal ks cs), e.1 ≠ key := by
      simpa using fresh_around r fresh
    have hflat : (r.before ++ [left, right] ++ r.after).flatMap entriesOf =
        insertKey key value (entriesOf (.internal ks cs)) := by
      rw [entries_internal, hcontents, ← entries]
      simp
    have hlength : (r.keysBefore ++ [promoted] ++ r.keysAfter).length = ks.length + 1 := by
      have := congrArg List.length r.keys_eq
      simp only [List.length_append, List.length_singleton] at this ⊢
      omega
    simp only [insertIntoInternal, Bool.not_true, Bool.false_eq_true, ↓reduceIte, hkeys, hchildren]
    split
    · rename_i hfits
      refine .inPlace hfresh ⟨by simp, hfits, hbetween⟩ ?_
      rw [entries_internal]
      exact hflat
    · rename_i hfull
      simp only [bptreeMaxKeys] at hlen hfull
      obtain ⟨hp, hbelow, hl, hr⟩ := internal_halves hbetween
        (k := (r.keysBefore ++ [promoted] ++ r.keysAfter).length / 2) (by omega) (by omega)
        (by simp only [bptreeMaxKeys]; omega) (by simp only [bptreeMaxKeys]; omega)
      simp only [createNode, hc, ↓reduceIte]
      refine .split hfresh hp hbelow hl hr ?_
      rw [entries_internal, entries_internal, ← List.flatMap_append, List.take_append_drop, hflat]

/-- An insertion below a node goes into the routed child. -/
theorem insert_routed (calloc : Nat → Bool) (used : Nat) {h : Nat} {ks : List Int}
    {cs : List (BPlusTreeNode α)} (value : α) (r : Route (Shaped h) lo ks cs hi key) :
    insertIntoNode calloc used (.internal ks cs) key value =
      insertIntoInternal calloc ks (rank ks key)
        (r.before ++ (insertIntoNode calloc used r.child key value).1 :: r.after,
          (insertIntoNode calloc used r.child key value).2.1,
          (insertIntoNode calloc used r.child key value).2.2) := by
  have hchild : insertIntoChild calloc used cs (findChildIndex ks key) key value =
      let result := insertIntoNode calloc used r.child key value
      (r.before ++ result.1 :: r.after, result.2.1, result.2.2) := by
    rw [findChildIndex_rank, ← r.rank_before]
    calc insertIntoChild calloc used cs r.before.length key value
        = insertIntoChild calloc used (r.before ++ r.child :: r.after) r.before.length
            key value := congrArg (insertIntoChild calloc used · _ key value) r.children_eq
      _ = _ := insert_child calloc used r.before r.after r.child key value
  rw [insertIntoNode, hchild, findChildIndex_rank]

theorem node_outcome (hc : ∀ i, calloc i = true) {h : Nat} {n : BPlusTreeNode α}
    (hn : Shaped h lo hi n) (hlo : Above lo key) (hhi : Below hi key) (used : Nat) :
    Outcome h lo hi n key value (insertIntoNode calloc used n key value) := by
  induction h generalizing lo hi n with
  | zero =>
    cases n with
    | leaf a es next => exact leaf_outcome hc hn hlo hhi used
    | internal ks cs => exact hn.elim
  | succ h ih =>
    cases n with
    | leaf a es next => exact hn.elim
    | internal ks cs =>
      obtain ⟨r⟩ := hn.2.2.route hlo hhi
      rw [insert_routed calloc used value r]
      exact internal_outcome hc hn r (ih r.holds r.above r.below)

end DbApi.Proofs.BptreeInsert
