import DbApi.Proofs.QuotedAnswer

namespace DbApi.Proofs.Quotes
open Library Common Storage Index Sql Execution Lines TableFile IndexRebuild IndexView
open StatementOutcome IndexCoherence SelectAnswer ReadableText FullScan ScanSelect InsertRow

structure TableText (table : ResultTable) : Prop where
  headers : AllUtf8 table.headers
  rows : ∀ row ∈ table.rows, AllUtf8 row

section Selects

variable {schema : Schema} {selected : List (Bytes × Option Nat)}

/-- The first unknown column is the one that is quoted. -/
theorem selectColumns_reported {columns : List Bytes} (hcolumns : AllUtf8 columns) :
    EndsWith (fun message => ∃ column, columns.find? (isUnknown schema) = some column ∧
        Reported (some (messageQuote (ascii "unknown column in SELECT: " ++ column))) message)
      (fun _ => columns.find? (isUnknown schema) = none) (selectColumns schema columns) := by
  induction columns with
  | nil => rfl
  | cons column rest ih =>
    obtain ⟨hcolumn, hrest⟩ := List.forall_mem_cons.mp hcolumns
    rw [selectColumns]
    by_cases hid : column = ascii "id"
    · rw [if_pos hid, List.find?_cons_of_neg (by simp [isUnknown, hid])]
      exact (ih hrest).map fun _ hnone => hnone
    rw [if_neg hid]
    cases hfind : schemaFindColumn schema column with
    | none =>
      rw [List.find?_cons_of_pos (by simp [isUnknown, hid, hfind])]
      exact ⟨column, rfl, columnQuote_reported (ascii_literal _ rfl) hcolumn⟩
    | some index =>
      rw [List.find?_cons_of_neg (by simp [isUnknown, hfind])]
      exact (ih hrest).map fun _ hnone => hnone

theorem buildSelectIndexes_reported {statement : SelectStatement} (htext : SelectText statement) :
    EndsWith (fun message => ∃ column, unknownSelectColumn statement schema = some column ∧
        Reported (some (messageQuote (ascii "unknown column in SELECT: " ++ column))) message)
      (fun _ => unknownSelectColumn statement schema = none)
      (buildSelectIndexes statement schema) := by
  unfold buildSelectIndexes unknownSelectColumn
  split
  · rfl
  · exact selectColumns_reported htext.columns

theorem resolveWhereIndex_reported {statement : SelectStatement} (htext : SelectText statement) :
    EndsWith (Reported ((unknownWhereColumn statement schema).map fun column =>
        messageQuote (ascii "unknown column in WHERE: " ++ column)))
      (fun _ => unknownWhereColumn statement schema = none)
      (resolveWhereIndex statement schema) := by
  unfold resolveWhereIndex unknownWhereColumn
  cases hwhere : statement.whereClause with
  | none => rfl
  | some condition =>
    have hcolumn := htext.condition condition hwhere
    dsimp only [Option.map_some]
    by_cases hid : condition.column = ascii "id"
    · rw [if_pos hid, Option.filter_some_neg (by simp [isUnknown, hid])]
      rfl
    rw [if_neg hid]
    cases hfind : schemaFindColumn schema condition.column with
    | none =>
      rw [Option.filter_some_pos (by simp [isUnknown, hid, hfind])]
      exact columnQuote_reported (ascii_literal _ rfl) hcolumn
    | some index =>
      rw [Option.filter_some_neg (by simp [isUnknown, hfind])]
      rfl

theorem selectRow_utf8 {fields : List Bytes} (h : AllUtf8 fields) (id : Int) :
    AllUtf8 (selectRow selected fields id) := by
  intro cell hcell
  obtain ⟨column, -, rfl⟩ := List.mem_map.mp hcell
  cases column.2 with
  | none => exact (ascii_decimal id).utf8
  | some index =>
    dsimp only
    cases hfield : fields[index]? with
    | none => exact utf8_nil
    | some field => exact h field (List.mem_of_getElem? hfield)

theorem matchingRows_utf8 {statement : SelectStatement} {whereIndex : Option Nat}
    {rows : List (List Bytes)} (h : ∀ row ∈ rows, AllUtf8 row) (id : Int) :
    ∀ row ∈ matchingRows statement selected whereIndex id rows, AllUtf8 row := by
  induction rows generalizing id with
  | nil => exact fun _ hrow => (List.not_mem_nil hrow).elim
  | cons fields rows ih =>
    obtain ⟨hfields, hrest⟩ := List.forall_mem_cons.mp h
    rw [matchingRows]
    split
    · exact List.forall_mem_cons.mpr ⟨selectRow_utf8 hfields id, ih hrest _⟩
    · exact ih hrest _

/-- An answer that quotes nothing: a plain message, or a table. -/
inductive PlainAnswer : ExecResult → Prop where
  | failed {message : Bytes} (h : Ascii message) : PlainAnswer (execError message)
  | answered {selected : List (Bytes × Option Nat)} {rows : List (List Bytes)}
      (hc : AllUtf8 (selected.map Prod.fst)) (hr : ∀ row ∈ rows, AllUtf8 row) :
    PlainAnswer (selectResult selected rows)

theorem scanSelect_plain {statement : SelectStatement} {files : DataFiles} {content : Bytes}
    {whereIndex : Option Nat} (hfile : files schema.storageName = some content)
    (h : TextFile content) (hne : content ≠ []) (hc : AllUtf8 (selected.map Prod.fst))
    (dataDir : Bytes) :
    PlainAnswer (scanSelect statement schema dataDir files selected whereIndex) := by
  have hrows : EndsWith Ascii (fun rows => ∀ row ∈ rows, AllUtf8 row)
      ((dataLines content).mapM (readRow schema)) := by
    apply EndsWith.mapM
    intro line hline
    have hparsed := csvParseLine_utf8 (h.dataLines line hline)
    unfold readRow
    cases hfields : csvParseLine line.2 with
    | error message => exact hparsed.error hfields
    | ok fields =>
      dsimp only
      split
      · exact ascii_literal _ rfl
      · exact hparsed.ok hfields
  rw [scanSelect_matching hfile hne]
  cases hread : (dataLines content).mapM (readRow schema) with
  | error message => exact .failed (hrows.error hread)
  | ok rows => exact .answered hc (matchingRows_utf8 (hrows.ok hread) 1)

/-- What an index stands for, loaded or built from the file, holds the rows of the file. -/
theorem stands_indexes {dataDir name content : Bytes} {v : View} (hv : IndexAgrees v name)
    {index : BPlusTree Nat × Int} (hstands : standsFor dataDir v name = .ok index)
    (hfile : v.files name = some content) : Indexes (dataOffsets content) index.1 index.2 := by
  unfold standsFor at hstands
  split at hstands
  · rename_i hl
    obtain rfl := Except.ok.inj hstands
    obtain ⟨other, hother, hagrees⟩ := hv hl
    obtain rfl := Option.some.inj (hother.symm.trans hfile)
    exact hagrees.indexes
  · obtain ⟨other, hother, -, -, hindexes⟩ := rebuild_sound hstands
    obtain rfl := Option.some.inj (hother.symm.trans hfile)
    exact hindexes

theorem readRow_utf8 {files : DataFiles} {content : Bytes} {offset : Nat}
    (hfile : files schema.storageName = some content) (h : TextFile content)
    (hoffset : offset ∈ dataOffsets content) (dataDir : Bytes) :
    EndsWith Ascii AllUtf8 (readRowAtOffsetCsv dataDir files schema.storageName offset) := by
  obtain ⟨⟨start, text⟩, hline, rfl⟩ := List.mem_map.mp hoffset
  have hparsed := csvParseLine_utf8 (h.dataLines _ hline)
  obtain ⟨line, hseek, hne, hstrip, htext⟩ := seek_dataLine hline
  simp only [readRowAtOffsetCsv, openTableFile, hfile, hseek]
  cases line with
  | nil => exact absurd rfl hne
  | cons b line =>
    rw [hstrip, if_neg htext]
    exact hparsed

theorem indexAnswer_plain {whereValue dataDir content : Bytes} {v : View}
    (hv : IndexAgrees v schema.storageName) (hfile : v.files schema.storageName = some content)
    (h : TextFile content) (hc : AllUtf8 (selected.map Prod.fst)) :
    PlainAnswer (indexAnswer whereValue schema dataDir v.files
      (standsFor dataDir v schema.storageName) selected) := by
  unfold indexAnswer
  cases parseIntStrict whereValue with
  | none => exact .failed (ascii_literal _ rfl)
  | some whereId =>
  dsimp only
  cases hstands : standsFor dataDir v schema.storageName with
  | error message =>
    refine .failed (rebuild_ascii hfile h dataDir message ?_)
    unfold standsFor at hstands
    split at hstands
    · cases hstands
    · exact hstands
  | ok index =>
  obtain ⟨tree, nextId⟩ := index
  dsimp only
  have hindexes := stands_indexes hv hstands hfile
  cases hsearch : bptreeSearch tree whereId with
  | none => exact .answered hc fun _ hrow => (List.not_mem_nil hrow).elim
  | some offset =>
  have hoffset : offset ∈ dataOffsets content := by
    have hfound := (hindexes.represents.agrees whereId).symm.trans hsearch
    unfold offsetOf at hfound
    split at hfound
    · exact List.mem_of_getElem? hfound
    · cases hfound
  have hread := @readRow_utf8 schema v.files content offset hfile h hoffset dataDir
  dsimp only
  cases hfields : readRowAtOffsetCsv dataDir v.files schema.storageName offset with
  | error message => exact .failed (hread.error hfields)
  | ok fields =>
  dsimp only
  split
  · exact .failed (ascii_literal _ rfl)
  · exact .answered hc (List.forall_mem_singleton.mpr (selectRow_utf8 (hread.ok hfields) whereId))

end Selects

end DbApi.Proofs.Quotes
