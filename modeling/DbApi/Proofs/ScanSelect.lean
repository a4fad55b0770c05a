import DbApi.Proofs.FullScan
import DbApi.Proofs.SqlGrammar

namespace DbApi.Proofs.ScanSelect
open Library Common Storage Index Sql Execution Lines TableFile InsertRow FullScan

def requestedColumns (statement : SelectStatement) (schema : Schema) : List Bytes :=
  if statement.selectAll then schema.columns else statement.columns

/-- The cell of a record under a column name; `id` is its place among the records. -/
def cellNamed (schema : Schema) (record : List Bytes × Nat) (column : Bytes) : Bytes :=
  if column = ascii "id" then decimal record.2
  else record.1[schema.columns.idxOf column]?.getD []

def projection (statement : SelectStatement) (schema : Schema) (record : List Bytes × Nat) :
    List Bytes :=
  if statement.selectAll then record.1 else statement.columns.map (cellNamed schema record)

def meets (statement : SelectStatement) (schema : Schema) (record : List Bytes × Nat) : Bool :=
  statement.whereClause.all fun condition =>
    record.1[schema.columns.idxOf condition.column]? == some condition.value

/-- The records that meet the condition, projected, in the order of the file. -/
def answerRows (statement : SelectStatement) (schema : Schema) (records : List (List Bytes)) :
    List (List Bytes) :=
  ((records.zipIdx 1).filter (meets statement schema)).map (projection statement schema)

section Columns

variable {schema : Schema}

theorem findColumn_idxOf {column : Bytes} {index : Nat}
    (h : schemaFindColumn schema column = some index) : schema.columns.idxOf column = index :=
  (List.findIdx?_eq_some_iff_findIdx_eq.mp h).2

theorem map_cons_ok {ε α : Type} {r : Except ε (List α)} {a : α} {list : List α}
    (h : r.map (a :: ·) = .ok list) : ∃ rest, r = .ok rest ∧ list = a :: rest := by
  cases r with
  | error message => simp [Except.map] at h
  | ok rest => exact ⟨rest, rfl, (Except.ok.inj h).symm⟩

theorem map_cons_exists {ε α : Type} {r : Except ε (List α)} {a : α} :
    (∃ list, r.map (a :: ·) = .ok list) ↔ ∃ rest, r = .ok rest := by
  constructor
  · rintro ⟨list, h⟩
    obtain ⟨rest, hr, _⟩ := map_cons_ok h
    exact ⟨rest, hr⟩
  · rintro ⟨rest, rfl⟩
    exact ⟨a :: rest, rfl⟩

theorem selectColumns_iff {columns : List Bytes} :
    (∃ selected, selectColumns schema columns = .ok selected) ↔
      ∀ column ∈ columns, column = ascii "id" ∨ column ∈ schema.columns := by
  induction columns with
  | nil => simp [selectColumns]
  | cons column columns ih =>
    rw [List.forall_mem_cons, ← ih]
    simp only [selectColumns]
    split
    · rename_i hid
      rw [map_cons_exists]
      simp [hid]
    · rename_i hid
      cases hf : schemaFindColumn schema column with
      | none => simp [hid, findColumn_none.mp hf]
      | some index =>
        have hm : column ∈ schema.columns := List.mem_of_getElem? (findColumn_some hf)
        dsimp only
        rw [map_cons_exists]
        simp [hm]

/-- Headers and cells come from the requested columns, in their order. -/
theorem selectColumns_cells {columns : List Bytes} {selected : List (Bytes × Option Nat)}
    (h : selectColumns schema columns = .ok selected) :
    selected.map Prod.fst = columns ∧ ∀ record : List Bytes × Nat,
      selectRow selected record.1 record.2 = columns.map (cellNamed schema record) := by
  induction columns generalizing selected with
  | nil =>
    obtain rfl := Except.ok.inj h
    exact ⟨rfl, fun _ => rfl⟩
  | cons column columns ih =>
    simp only [selectColumns] at h
    split at h
    · rename_i hid
      obtain ⟨rest, hr, rfl⟩ := map_cons_ok h
      obtain ⟨hheaders, hcells⟩ := ih hr
      refine ⟨by simp [hheaders], fun record => ?_⟩
      have hrest := hcells record
      simp only [selectRow] at hrest
      simp [selectRow, hrest, cellNamed, hid]
    · rename_i hid
      split at h
      · contradiction
      rename_i index hf
      obtain ⟨rest, hr, rfl⟩ := map_cons_ok h
      obtain ⟨hheaders, hcells⟩ := ih hr
      refine ⟨by simp [hheaders], fun record => ?_⟩
      have hrest := hcells record
      simp only [selectRow] at hrest
      simp [selectRow, hrest, cellNamed, hid, findColumn_idxOf hf]

theorem selectAll_cells {record : List Bytes × Nat}
    (hl : record.1.length = schema.columns.length) :
    selectRow (schema.columns.mapIdx fun index column => (column, some index)) record.1 record.2 =
      record.1 := by
  apply List.ext_getElem?
  intro index
  simp only [selectRow, List.getElem?_map, List.getElem?_mapIdx, Option.map_map]
  cases hc : schema.columns[index]? with
  | none =>
    have hlen := List.getElem?_eq_none_iff.mp hc
    rw [List.getElem?_eq_none (by omega)]
    rfl
  | some column =>
    have hlt := (List.getElem?_eq_some_iff.mp hc).1
    rw [List.getElem?_eq_getElem (by omega : index < record.1.length)]
    simp [List.getElem?_eq_getElem (by omega : index < record.1.length)]

variable {statement : SelectStatement}

theorem buildSelectIndexes_iff :
    (∃ selected, buildSelectIndexes statement schema = .ok selected) ↔
      ∀ column ∈ requestedColumns statement schema,
        column = ascii "id" ∨ column ∈ schema.columns := by
  cases ha : statement.selectAll with
  | true =>
    simp only [buildSelectIndexes, requestedColumns, ha, if_true]
    exact iff_of_true ⟨_, rfl⟩ fun column hc => .inr hc
  | false =>
    simp only [buildSelectIndexes, requestedColumns, ha, Bool.false_eq_true, if_false]
    exact selectColumns_iff

theorem buildSelectIndexes_cells {selected : List (Bytes × Option Nat)}
    (h : buildSelectIndexes statement schema = .ok selected) :
    selected.map Prod.fst = requestedColumns statement schema ∧
      ∀ record : List Bytes × Nat, record.1.length = schema.columns.length →
        selectRow selected record.1 record.2 = projection statement schema record := by
  cases ha : statement.selectAll with
  | true =>
    simp only [buildSelectIndexes, ha, if_true, Except.ok.injEq] at h
    subst h
    refine ⟨?_, fun record hl => ?_⟩
    · apply List.ext_getElem?
      intro index
      simp only [requestedColumns, ha, if_true, List.getElem?_map, List.getElem?_mapIdx]
      cases schema.columns[index]? with
      | none => rfl
      | some column => rfl
    · rw [projection, ha, if_pos rfl, selectAll_cells hl]
  | false =>
    simp only [buildSelectIndexes, ha, Bool.false_eq_true, if_false] at h
    obtain ⟨hheaders, hcells⟩ := selectColumns_cells h
    refine ⟨by simp [requestedColumns, ha, hheaders], fun record _ => ?_⟩
    simp [projection, ha, hcells]

variable (hw : ∀ condition ∈ statement.whereClause, condition.column ≠ ascii "id")

include hw

theorem resolveWhereIndex_iff :
    (∃ whereIndex, resolveWhereIndex statement schema = .ok whereIndex) ↔
      ∀ condition ∈ statement.whereClause, condition.column ∈ schema.columns := by
  simp only [resolveWhereIndex]
  cases hc : statement.whereClause with
  | none => simp
  | some condition =>
    have hid := hw condition hc
    cases hf : schemaFindColumn schema condition.column with
    | none => simp [hid, hf, findColumn_none.mp hf]
    | some index => simp [hid, hf, List.mem_of_getElem? (findColumn_some hf)]

theorem resolveWhereIndex_meets {whereIndex : Option Nat}
    (h : resolveWhereIndex statement schema = .ok whereIndex) (record : List Bytes × Nat) :
    rowMatchesWhere statement record.1 whereIndex = meets statement schema record := by
  simp only [resolveWhereIndex] at h
  cases hc : statement.whereClause with
  | none => simp [rowMatchesWhere, meets, hc]
  | some condition =>
    simp only [hc, if_neg (hw condition hc)] at h
    split at h
    · contradiction
    rename_i index hf
    obtain rfl := Except.ok.inj h
    simp [rowMatchesWhere, meets, hc, findColumn_idxOf hf]

end Columns

section Scan

variable {statement : SelectStatement} {dirs : Directories} {db : Database} {schema : Schema}
  {content : Bytes} {records : List (List Bytes)}

theorem matchingRows_answer {selected : List (Bytes × Option Nat)} {whereIndex : Option Nat}
    (hm : ∀ record, rowMatchesWhere statement record.1 whereIndex = meets statement schema record)
    (hs : ∀ record : List Bytes × Nat, record.1.length = schema.columns.length →
      selectRow selected record.1 record.2 = projection statement schema record)
    (hl : ∀ fields ∈ records, fields.length = schema.columns.length) (position : Nat) :
    matchingRows statement selected whereIndex position records =
      ((records.zipIdx position).filter (meets statement schema)).map
        (projection statement schema) := by
  induction records generalizing position with
  | nil => rfl
  | cons fields records ih =>
    have hrest := ih (fun other ho => hl other (by simp [ho])) (position + 1)
    have hmatch := hm (fields, position)
    have hrow := hs (fields, position) (hl fields (by simp))
    simp only [Nat.cast_add, Nat.cast_one] at hrest
    simp only [matchingRows, List.zipIdx_cons, List.filter_cons]
    dsimp only at hmatch hrow
    rw [hmatch, hrest, hrow]
    split
    · rfl
    · rfl

theorem mapM_records {lines : List (Nat × Bytes)}
    (h : lines.mapM (readRow schema) = .ok records) :
    lines.map (fun line => csvParseLine line.2) = records.map .ok ∧
      ∀ fields ∈ records, fields.length = schema.columns.length := by
  induction lines generalizing records with
  | nil =>
    obtain rfl := Except.ok.inj h
    simp
  | cons line lines ih =>
    obtain ⟨fields, rest, hr, hm, rfl⟩ := mapM_cons_ok h
    obtain ⟨hp, hl⟩ := readRow_ok hr
    obtain ⟨hps, hls⟩ := ih hm
    exact ⟨by simp [hp, hps], by simpa [hl] using hls⟩

variable (hw : ∀ condition ∈ statement.whereClause, condition.column ≠ ascii "id")

include hw

theorem run_scanSelect (hs : loadSchema dirs db.dataFiles statement.tableName = .ok schema)
    {selected : List (Bytes × Option Nat)}
    (hb : buildSelectIndexes statement schema = .ok selected) (hne : selected ≠ []) :
    (executeStatement (.select statement) dirs).run db =
      (match resolveWhereIndex statement schema with
        | .error message => execError message
        | .ok whereIndex =>
          scanSelect statement schema dirs.dataDir db.dataFiles selected whereIndex, db) := by
  have hfilter : statement.whereClause.filter (·.column == ascii "id") = none := by
    cases hc : statement.whereClause with
    | none => rfl
    | some condition => simp [Option.filter, hw condition hc]
  simp only [executeStatement, executeSelect, Program.run_bind, Program.run_read, hs, hb, hne,
    if_false, hfilter]
  cases resolveWhereIndex statement schema with
  | error message => rfl
  | ok whereIndex => rfl

end Scan

/-- The parser delivers no SELECT of no column. -/
theorem parsed_columns {input : Bytes} {tokens : List Token} {statement : SelectStatement}
    (hl : lexSql input = .ok tokens) (hp : parseStatement tokens = .ok (.select statement)) :
    statement.selectAll = false → statement.columns ≠ [] := by
  cases SqlGrammar.parse_sound (SqlGrammar.lex_terminated hl) hp with
  | select h _ _ =>
    cases h with
    | intro _ hselected _ _ _ =>
      cases hselected with
      | star _ =>
        intro hall
        contradiction
      | columns hlist =>
        intro _
        cases hlist with
        | one _ => exact List.cons_ne_nil _ _
        | more _ _ _ => exact List.cons_ne_nil _ _

theorem requested_ne_nil {statement : SelectStatement} {dirs : Directories} {files : DataFiles}
    {schema : Schema} (hs : loadSchema dirs files statement.tableName = .ok schema)
    (hc : statement.selectAll = false → statement.columns ≠ []) :
    requestedColumns statement schema ≠ [] := by
  cases ha : statement.selectAll with
  | true => simpa [requestedColumns, ha] using (readSchema_ok (loadSchema_ok hs).1).1
  | false => simpa [requestedColumns, ha] using hc ha

/-- A SELECT that scans the table succeeds exactly when its columns are known
and every data line is a row. It then answers with the rows that meet the
condition, numbered by their place among all rows, and changes nothing. -/
theorem scan_select_end_to_end (statement : SelectStatement) (dirs : Directories) (db : Database)
    (schema : Schema) (content : Bytes)
    (hs : loadSchema dirs db.dataFiles statement.tableName = .ok schema)
    (hf : db.dataFiles schema.storageName = some content)
    (hc : statement.selectAll = false → statement.columns ≠ [])
    (hw : ∀ condition ∈ statement.whereClause, condition.column ≠ ascii "id") :
    let run := (executeStatement (.select statement) dirs).run db
    (run.1.ok = true ↔
      (∀ column ∈ requestedColumns statement schema,
        column = ascii "id" ∨ column ∈ schema.columns) ∧
      (∀ condition ∈ statement.whereClause, condition.column ∈ schema.columns) ∧
      ∀ line ∈ dataLines content, ∃ fields, csvParseLine line.2 = .ok fields ∧
        fields.length = schema.columns.length) ∧
      (run.1.ok = true → ∃ records,
        (dataLines content).map (fun line => csvParseLine line.2) = records.map .ok ∧
        run.1.table = some { headers := requestedColumns statement schema,
                             rows := answerRows statement schema records } ∧
        run.1.affectedRows = (answerRows statement schema records).length) ∧
      run.2 = db := by
  intro run
  have hne : content ≠ [] := by
    obtain ⟨content', hf', hne⟩ := validateCsvHeader_content (loadSchema_ok hs).2
    rwa [Option.some.inj (hf'.symm.trans hf)] at hne
  rw [← buildSelectIndexes_iff, ← resolveWhereIndex_iff hw, ← mapM_ok_iff]
  cases hb : buildSelectIndexes statement schema with
  | error message =>
    have hrun : run = (execError message, db) := by
      simp only [run, executeStatement, executeSelect, Program.run_bind, Program.run_read, hs, hb,
        Program.run_pure]
    rw [hrun]
    simp [execError]
  | ok selected =>
  obtain ⟨hheaders, hcells⟩ := buildSelectIndexes_cells hb
  have hsel : selected ≠ [] := by
    rintro rfl
    exact requested_ne_nil hs hc hheaders.symm
  have hrun : run = _ := run_scanSelect hw hs hb hsel
  rw [hrun]
  cases hr : resolveWhereIndex statement schema with
  | error message => simp [execError]
  | ok whereIndex =>
  dsimp only
  rw [scanSelect_matching hf hne]
  cases hm : (dataLines content).mapM (readRow schema) with
  | error message => simp [execError]
  | ok records =>
  obtain ⟨hparsed, hlengths⟩ := mapM_records hm
  have hrows := matchingRows_answer (resolveWhereIndex_meets hw hr) hcells hlengths 1
  refine ⟨iff_of_true rfl ⟨⟨_, rfl⟩, ⟨_, rfl⟩, _, rfl⟩, fun _ => ⟨records, hparsed, ?_, ?_⟩, rfl⟩
  · simp only [selectResult, hheaders, answerRows]
    rw [← hrows, Nat.cast_one]
  · simp only [selectResult, answerRows]
    rw [← hrows, Nat.cast_one]

/-- The second row keeps its id behind a blank line and a row that does not match. -/
theorem scan_select_end_to_end_users :
    ∃ records, [csvParseLine (ascii "Bob,21"), csvParseLine (ascii "Eve,7")] = records.map .ok ∧
      ((executeStatement (.select ⟨ascii "users", [ascii "id", ascii "name"], false,
        some ⟨ascii "age", ascii "7"⟩⟩) usersDirectories).run
          (startDatabase (usersFiles (ascii "name,age\r\n\nBob,21\nEve,7")))).1.table =
        some { headers := [ascii "id", ascii "name"],
               rows := answerRows ⟨ascii "users", [ascii "id", ascii "name"], false,
                 some ⟨ascii "age", ascii "7"⟩⟩
                 ⟨ascii "users", ascii "users", [ascii "name", ascii "age"]⟩ records } := by
  have h := scan_select_end_to_end ⟨ascii "users", [ascii "id", ascii "name"], false,
    some ⟨ascii "age", ascii "7"⟩⟩ usersDirectories
    (startDatabase (usersFiles (ascii "name,age\r\n\nBob,21\nEve,7")))
    ⟨ascii "users", ascii "users", [ascii "name", ascii "age"]⟩
    (ascii "name,age\r\n\nBob,21\nEve,7") (by decide +kernel) rfl (by simp)
    (by
      rintro condition ⟨rfl⟩
      decide)
  obtain ⟨records, hparsed, htable, _⟩ := h.2.1 (by decide +kernel)
  have hlines : dataLines (ascii "name,age\r\n\nBob,21\nEve,7") =
      [(11, ascii "Bob,21"), (18, ascii "Eve,7")] := by decide +kernel
  rw [hlines] at hparsed
  exact ⟨records, hparsed, htable⟩

example : answerRows ⟨ascii "users", [ascii "id", ascii "name"], false,
    some ⟨ascii "age", ascii "7"⟩⟩ ⟨ascii "users", ascii "users", [ascii "name", ascii "age"]⟩
    [[ascii "Bob", ascii "21"], [ascii "Eve", ascii "7"]] = [[ascii "2", ascii "Eve"]] := by
  decide +kernel

end DbApi.Proofs.ScanSelect
