import DbApi.Proofs.BptreeInsert

namespace DbApi.Proofs.BptreeMap
open Library SortedMap Separators Index BptreeShape BptreeInsert

variable {α : Type}

/-- The purpose of the tree: a finite map in which the first binding of a key stays. -/
def bindFirst (m : Int → Option α) (key : Int) (value : α) : Int → Option α :=
  if (m key).isSome then m else Function.update m key (some value)

structure Represents (tree : BPlusTree α) (m : Int → Option α) : Prop where
  shaped : ∀ root ∈ tree.root, ∃ h, Shaped h none none root
  agrees : ∀ key, bptreeSearch tree key = m key

theorem represents_init : Represents (bptreeInit : BPlusTree α) (fun _ => none) :=
  ⟨by simp [bptreeInit], fun _ => rfl⟩

/-- A shaped root answers every search from its entries. -/
theorem search_root {h : Nat} {root : BPlusTreeNode α} (hs : Shaped h none none root)
    (used : Nat) (key : Int) :
    bptreeSearch ⟨some root, used⟩ key = (entriesOf root).lookup key :=
  hs.search (by simp) (by simp)

theorem represents_root {h : Nat} {root : BPlusTreeNode α} (hs : Shaped h none none root)
    (used : Nat) : Represents ⟨some root, used⟩ (fun key => (entriesOf root).lookup key) := by
  refine ⟨?_, search_root hs used⟩
  intro n hn
  obtain rfl := Option.some.inj (Option.mem_def.mp hn)
  exact ⟨h, hs⟩

theorem lookup_bind {l : List (Int × α)} {key : Int} (value : α)
    (fresh : ∀ e ∈ l, e.1 ≠ key) :
    (fun k => (insertKey key value l).lookup k) = bindFirst (fun k => l.lookup k) key value := by
  have hnone : l.lookup key = none := lookup_none.mpr fresh
  funext k
  rw [lookup_insert value fresh]
  simp [bindFirst, hnone, Function.update_apply]

/-- One insertion into a tree is one binding in its map; it reports success
exactly when the key was unbound. -/
theorem Represents.insert {tree : BPlusTree α} {m : Int → Option α} (hr : Represents tree m)
    {calloc : Nat → Bool} (hc : ∀ i, calloc i = true) (key : Int) (value : α) :
    Represents (bptreeInsert calloc tree key value).1 (bindFirst m key value) ∧
      ((bptreeInsert calloc tree key value).2 = .ok () ↔ m key = none) := by
  obtain ⟨root, used⟩ := tree
  cases root with
  | none =>
    have hm : m = fun _ => none := funext fun k => (hr.agrees k).symm
    subst hm
    simp only [bptreeInsert, createNode, hc, ↓reduceIte]
    have hs : Shaped 0 none none (.leaf used [(key, value)] none) := by
      simp [Shaped, Sorted, bptreeMaxKeys]
    have hb : (fun k => (insertKey key value []).lookup k) = bindFirst (fun _ => none) key value :=
      lookup_bind value (by simp)
    rw [insert_nil] at hb
    exact ⟨hb ▸ represents_root hs (used + 1), trivial⟩
  | some root =>
    obtain ⟨h, hs⟩ := hr.shaped root rfl
    have hm : m = fun k => (entriesOf root).lookup k :=
      funext fun k => (hr.agrees k).symm.trans (search_root hs used k)
    have hout : Outcome h none none root key value (insertIntoNode calloc used root key value) :=
      node_outcome hc hs (by simp) (by simp) used
    simp only [bptreeInsert]
    generalize insertIntoNode calloc used root key value = result at hout
    cases hout with
    | duplicate known =>
      have hsome : m key ≠ none := by
        rw [hm]
        exact fun hn => by
          obtain ⟨e, he, hek⟩ := known
          exact lookup_none.mp hn e he hek
      have hbind : bindFirst m key value = m := by
        simp [bindFirst, Option.isSome_iff_ne_none, hsome]
      rw [hbind]
      refine ⟨?_, by simp [hsome]⟩
      rw [hm]
      exact represents_root hs _
    | inPlace fresh shaped entries =>
      have hnone : m key = none := by rw [hm]; exact lookup_none.mpr fresh
      refine ⟨?_, by simp [hnone]⟩
      rw [hm, ← lookup_bind value fresh, ← entries]
      exact represents_root shaped _
    | split fresh past below shapedLeft shapedRight entries =>
      have hnone : m key = none := by rw [hm]; exact lookup_none.mpr fresh
      simp only [Bool.not_true, Bool.false_eq_true, ↓reduceIte, createNode, hc]
      refine ⟨?_, by simp [hnone]⟩
      have hroot : Shaped (h + 1) none none (.internal [_] [_, _]) :=
        ⟨by simp, by simp [bptreeMaxKeys], .cons past below shapedLeft (.last shapedRight)⟩
      have hentries := represents_root hroot
      simp only [entries_internal, List.flatMap_cons, List.flatMap_nil, List.append_nil,
        entries] at hentries
      rw [hm, ← lookup_bind value fresh]
      exact hentries _

theorem all_allocates : ∀ i, allocates i = true := fun _ => rfl

/-- The tree after a sequence of insertions, accepted or not. -/
def insertAll (calloc : Nat → Bool) (ops : List (Int × α)) : BPlusTree α :=
  ops.foldl (fun tree op => (bptreeInsert calloc tree op.1 op.2).1) bptreeInit

theorem insertAll_snoc (calloc : Nat → Bool) (ops : List (Int × α)) (op : Int × α) :
    insertAll calloc (ops ++ [op]) = (bptreeInsert calloc (insertAll calloc ops) op.1 op.2).1 := by
  simp [insertAll]

/-- Whole runs: the tree stands for the first value given to each key. -/
theorem insertAll_represents (ops : List (Int × α)) :
    Represents (insertAll allocates ops) (fun key => ops.lookup key) := by
  induction ops using List.reverseRecOn with
  | nil => exact represents_init
  | append_singleton ops op ih =>
    obtain ⟨k, v⟩ := op
    rw [insertAll_snoc]
    convert (ih.insert all_allocates k v).1 using 1
    funext key
    rw [List.lookup_append, bindFirst]
    by_cases hk : key = k
    · subst hk
      cases hl : ops.lookup key <;> simp [hl]
    · have hb : (key == k) = false := by simp [hk]
      split <;> simp [List.lookup_cons, hb, hk]

theorem accepted_iff (ops : List (Int × α)) (key : Int) (value : α) :
    (bptreeInsert allocates (insertAll allocates ops) key value).2 = .ok () ↔
      ∀ e ∈ ops, e.1 ≠ key :=
  ((insertAll_represents ops).insert (fun _ => rfl) key value).2.trans lookup_none

/-- The first insertion of a key is the one that succeeds. -/
theorem accepted_before {ops : List (Int × α)} {key : Int} :
    (∃ earlier value later, ops = earlier ++ (key, value) :: later ∧
      (bptreeInsert allocates (insertAll allocates earlier) key value).2 = .ok ()) ↔
    ∃ e ∈ ops, e.1 = key := by
  constructor
  · rintro ⟨earlier, value, later, rfl, _⟩
    exact ⟨(key, value), by simp, rfl⟩
  · rintro ⟨e, he, rfl⟩
    have hl : ops.lookup e.1 ≠ none := fun hn => lookup_none.mp hn e he rfl
    obtain ⟨value, hv⟩ := Option.ne_none_iff_exists'.mp hl
    obtain ⟨earlier, later, heq, hfirst⟩ := List.lookup_eq_some_iff.mp hv
    refine ⟨earlier, value, later, heq, (accepted_iff earlier e.1 value).mpr ?_⟩
    intro d hd
    have := hfirst d hd
    simp only [bne_iff_ne] at this
    exact this.symm

/-- An insertion succeeds exactly when its key was not inserted before, a
refused one leaves every lookup alone, and a lookup finds the value of the
first insertion of its key. -/
theorem bptree_refines_map (ops : List (Int × α)) (key : Int) (value : α) :
    ((bptreeInsert allocates (insertAll allocates ops) key value).2 = .ok () ↔
      ¬ ∃ earlier v later, ops = earlier ++ (key, v) :: later ∧
        (bptreeInsert allocates (insertAll allocates earlier) key v).2 = .ok ()) ∧
    ((bptreeInsert allocates (insertAll allocates ops) key value).2 ≠ .ok () →
      ∀ k, bptreeSearch (bptreeInsert allocates (insertAll allocates ops) key value).1 k =
        bptreeSearch (insertAll allocates ops) k) ∧
    (∀ k v, bptreeSearch (insertAll allocates ops) k = some v ↔
      ∃ earlier later, ops = earlier ++ (k, v) :: later ∧ ∀ e ∈ earlier, e.1 ≠ k) ∧
    (∀ k, bptreeSearch (insertAll allocates ops) k = none ↔ ∀ e ∈ ops, e.1 ≠ k) := by
  have hr := insertAll_represents ops
  refine ⟨?_, ?_, ?_, ?_⟩
  · rw [accepted_before, accepted_iff]
    simp only [not_exists, not_and, ne_eq]
  · intro hrefused k
    obtain ⟨hstep, hok⟩ := hr.insert all_allocates key value
    have hbound : ops.lookup key ≠ none := fun hn => hrefused (hok.mpr hn)
    rw [hstep.agrees, hr.agrees]
    simp [bindFirst, Option.isSome_iff_ne_none, hbound]
  · intro k v
    rw [hr.agrees, List.lookup_eq_some_iff]
    exact exists₂_congr fun a b => and_congr_right fun _ =>
      forall₂_congr fun e _ => bne_iff_ne.trans ne_comm
  · intro k
    rw [hr.agrees]
    exact lookup_none

end DbApi.Proofs.BptreeMap
