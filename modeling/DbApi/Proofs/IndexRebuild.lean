import DbApi.Index.TableIndex
import DbApi.Proofs.BptreeMap
import DbApi.Proofs.TableFile

namespace DbApi.Proofs.IndexRebuild
open Library Common Storage Index Lines BptreeMap TableFile

/-- The offset of the row with this id, when the ids count the rows from 1. -/
def offsetOf (offsets : List Nat) (id : Int) : Option Nat :=
  if 1 ≤ id then offsets[(id - 1).toNat]? else none

/-- A tree that holds the given rows under the ids 1 to n, and the id after them. -/
structure Indexes (offsets : List Nat) (tree : BPlusTree Nat) (nextId : Int) : Prop where
  represents : Represents tree (offsetOf offsets)
  next : nextId = offsets.length + 1

def dataOffsets (content : Bytes) : List Nat := (dataLines content).map Prod.fst

theorem indexes_init : Indexes [] bptreeInit 1 := by
  refine ⟨?_, by simp⟩
  convert represents_init using 1
  funext id
  simp [offsetOf]

theorem offsetOf_next (offsets : List Nat) : offsetOf offsets (offsets.length + 1) = none := by
  simp [offsetOf]

theorem offsetOf_snoc (offsets : List Nat) (offset : Nat) :
    bindFirst (offsetOf offsets) (offsets.length + 1) offset = offsetOf (offsets ++ [offset]) := by
  funext id
  rw [bindFirst, offsetOf_next, Option.isSome_none, if_neg Bool.false_ne_true, Function.update_apply]
  by_cases hid : id = offsets.length + 1
  · simp [hid, offsetOf]
  · simp only [hid, if_false, offsetOf]
    split
    · rw [List.getElem?_append]
      split
      · rfl
      · rename_i hlt
        rw [List.getElem?_eq_none (by omega), List.getElem?_eq_none (by simp; omega)]
    · rfl

/-- The next id is free, and its row becomes the last one. -/
theorem Indexes.insert {offsets : List Nat} {tree : BPlusTree Nat} {nextId : Int}
    (hi : Indexes offsets tree nextId) (offset : Nat) :
    (bptreeInsert allocates tree nextId offset).2 = .ok () ∧
      Indexes (offsets ++ [offset]) (bptreeInsert allocates tree nextId offset).1 (nextId + 1) := by
  obtain ⟨hr, rfl⟩ := hi
  obtain ⟨hstep, hok⟩ :=
    hr.insert all_allocates (offsets.length + 1) offset
  rw [offsetOf_snoc] at hstep
  exact ⟨hok.mpr (offsetOf_next offsets), hstep, by simp⟩

/-- The same for the registration of a row under the next id. -/
theorem registerEntry_indexes {offsets : List Nat} {entry : TableIndex}
    (hi : Indexes offsets entry.tree entry.nextId) (offset : Nat) :
    (registerEntry entry.nextId offset entry).1 = .ok () ∧
      Indexes (offsets ++ [offset]) (registerEntry entry.nextId offset entry).2.tree
        (registerEntry entry.nextId offset entry).2.nextId := by
  obtain ⟨hok, hi'⟩ := hi.insert offset
  simp only [registerEntry]
  cases hb : bptreeInsert allocates entry.tree entry.nextId offset with
  | mk tree result =>
  rw [hb] at hok hi'
  obtain rfl := hok
  exact ⟨rfl, by simpa using hi'⟩

theorem rebuildRow_ok {offsets : List Nat} {tree : BPlusTree Nat} {nextId : Int}
    (hi : Indexes offsets tree nextId) (fields : List Bytes) (offset : Nat) :
    ∃ tree' nextId', rebuildRow fields offset (tree, nextId) = .ok (tree', nextId') ∧
      Indexes (offsets ++ [offset]) tree' nextId' := by
  obtain ⟨hok, hi'⟩ := hi.insert offset
  cases hb : bptreeInsert allocates tree nextId offset with
  | mk tree' result =>
    rw [hb] at hok hi'
    obtain rfl := hok
    exact ⟨tree', nextId + 1, by simp [rebuildRow, hb], hi'⟩

/-- The rebuild goes through exactly when every line parses. -/
theorem rebuild_lines {offsets : List Nat} {tree : BPlusTree Nat} {nextId : Int}
    (hi : Indexes offsets tree nextId) (lines : List (Nat × Bytes)) :
    let result := lines.foldlM
      (fun context line => (csvParseLine line.2).bind (rebuildRow · line.1 context)) (tree, nextId)
    (Parses lines → ∃ context, result = .ok context) ∧
      ∀ context, result = .ok context →
        Parses lines ∧ Indexes (offsets ++ lines.map Prod.fst) context.1 context.2 := by
  induction lines generalizing offsets tree nextId with
  | nil =>
    refine ⟨fun _ => ⟨_, rfl⟩, ?_⟩
    rintro _ ⟨rfl⟩
    exact ⟨by simp [Parses], by simpa using hi⟩
  | cons line lines ih =>
    simp only [List.foldlM_cons]
    cases hp : csvParseLine line.2 with
    | error message =>
      refine ⟨fun h => ?_, fun context h => ?_⟩
      · obtain ⟨fields, hf⟩ := h line (by simp)
        simp [hp] at hf
      · contradiction
    | ok fields =>
      obtain ⟨tree', nextId', hrow, hi'⟩ := rebuildRow_ok hi fields line.1
      obtain ⟨hgo, hback⟩ := ih hi'
      simp only [Except.bind, hrow]
      refine ⟨fun h => hgo fun l hl => h l (by simp [hl]), fun context h => ?_⟩
      obtain ⟨hrest, hidx⟩ := hback context h
      refine ⟨?_, by simpa using hidx⟩
      intro l hl
      rcases List.mem_cons.mp hl with rfl | hl
      · exact ⟨fields, hp⟩
      · exact hrest l hl

theorem rebuild_ok {files : DataFiles} {tableName content : Bytes}
    (hf : files tableName = some content) (hne : content ≠ []) (hp : Parses (dataLines content))
    (dataDir : Bytes) : ∃ tree nextId, rebuild dataDir files tableName = .ok (tree, nextId) ∧
      Indexes (dataOffsets content) tree nextId := by
  obtain ⟨hgo, hback⟩ := rebuild_lines indexes_init (dataLines content)
  obtain ⟨⟨tree, nextId⟩, hr⟩ := hgo hp
  refine ⟨tree, nextId, ?_, by simpa [dataOffsets] using (hback _ hr).2⟩
  rw [rebuild, scanRowsCsv_eq hf hne, hr]

theorem rebuild_sound {dataDir : Bytes} {files : DataFiles} {tableName : Bytes}
    {tree : BPlusTree Nat} {nextId : Int}
    (hr : rebuild dataDir files tableName = .ok (tree, nextId)) :
    ∃ content, files tableName = some content ∧ content ≠ [] ∧ Parses (dataLines content) ∧
      Indexes (dataOffsets content) tree nextId := by
  obtain ⟨content, hf, hne⟩ := content_of_scan hr
  rw [rebuild, scanRowsCsv_eq hf hne] at hr
  obtain ⟨hp, hi⟩ := (rebuild_lines indexes_init (dataLines content)).2 _ hr
  exact ⟨content, hf, hne, hp, by simpa [dataOffsets] using hi⟩

end DbApi.Proofs.IndexRebuild
