import DbApi.Proofs.InsertRow

namespace DbApi.Proofs.FullScan
open Library Common Storage Index Sql Execution Lines TableFile InsertRow

/-- What a scan of the table takes a data line for. -/
def readRow (schema : Schema) (line : Nat × Bytes) : Except Bytes (List Bytes) :=
  match csvParseLine line.2 with
  | .error message => .error message
  | .ok fields =>
    if fields.length ≠ schema.columns.length then
      .error (ascii "CSV row does not match schema column count")
    else .ok fields

/-- The output rows for the rows with ids from `id` on. -/
def numberRows (selected : List (Bytes × Option Nat)) : Int → List (List Bytes) → List (List Bytes)
  | _, [] => []
  | id, fields :: rest => selectRow selected fields id :: numberRows selected (id + 1) rest

theorem readRow_ok {schema : Schema} {line : Nat × Bytes} {fields : List Bytes}
    (h : readRow schema line = .ok fields) :
    csvParseLine line.2 = .ok fields ∧ fields.length = schema.columns.length := by
  simp only [readRow] at h
  split at h
  · contradiction
  rename_i hp
  split at h
  · contradiction
  rename_i hl
  obtain rfl := Except.ok.inj h
  exact ⟨hp, not_not.mp hl⟩

theorem mapM_cons_ok {schema : Schema} {line : Nat × Bytes} {lines : List (Nat × Bytes)}
    {rows : List (List Bytes)} (h : (line :: lines).mapM (readRow schema) = .ok rows) :
    ∃ fields rest, readRow schema line = .ok fields ∧ lines.mapM (readRow schema) = .ok rest ∧
      rows = fields :: rest := by
  rw [List.mapM_cons] at h
  cases hr : readRow schema line with
  | error message => simp [hr, bind, Except.bind] at h
  | ok fields =>
  cases hm : lines.mapM (readRow schema) with
  | error message => simp [hr, hm, bind, Except.bind] at h
  | ok rest =>
    simp only [hr, hm, bind, Except.bind, pure, Except.pure, Except.ok.injEq] at h
    exact ⟨fields, rest, rfl, rfl, h.symm⟩

/-- The i-th row is read from the i-th line. -/
theorem mapM_getElem? {schema : Schema} {lines : List (Nat × Bytes)} {rows : List (List Bytes)}
    (h : lines.mapM (readRow schema) = .ok rows) (i : Nat) :
    (lines[i]?).map (readRow schema) = (rows[i]?).map .ok := by
  induction lines generalizing rows i with
  | nil =>
    obtain rfl := Except.ok.inj h
    simp
  | cons line lines ih =>
    obtain ⟨fields, rest, hr, hm, rfl⟩ := mapM_cons_ok h
    cases i with
    | zero => simp [hr]
    | succ i => simpa using ih hm i

theorem mapM_length {schema : Schema} {lines : List (Nat × Bytes)} {rows : List (List Bytes)}
    (h : lines.mapM (readRow schema) = .ok rows) : rows.length = lines.length := by
  induction lines generalizing rows with
  | nil =>
    obtain rfl := Except.ok.inj h
    rfl
  | cons line lines ih =>
    obtain ⟨fields, rest, _, hm, rfl⟩ := mapM_cons_ok h
    simp [ih hm]

/-- The lines are rows exactly when each parses to as many fields as there are columns. -/
theorem mapM_ok_iff {schema : Schema} {lines : List (Nat × Bytes)} :
    (∃ rows, lines.mapM (readRow schema) = .ok rows) ↔
      ∀ line ∈ lines, ∃ fields, csvParseLine line.2 = .ok fields ∧
        fields.length = schema.columns.length := by
  induction lines with
  | nil => simp [pure, Except.pure]
  | cons line lines ih =>
    rw [List.forall_mem_cons, ← ih]
    constructor
    · rintro ⟨rows, h⟩
      obtain ⟨fields, rest, hr, hm, rfl⟩ := mapM_cons_ok h
      exact ⟨⟨fields, readRow_ok hr⟩, rest, hm⟩
    · rintro ⟨⟨fields, hp, hl⟩, rest, hm⟩
      have hr : readRow schema line = .ok fields := by simp [readRow, hp, hl]
      exact ⟨fields :: rest, by simp [List.mapM_cons, hr, hm, bind, Except.bind, pure, Except.pure]⟩

theorem parses_of_rows {schema : Schema} {lines : List (Nat × Bytes)} {rows : List (List Bytes)}
    (h : lines.mapM (readRow schema) = .ok rows) : Parses lines := by
  induction lines generalizing rows with
  | nil => simp [Parses]
  | cons line lines ih =>
    obtain ⟨fields, rest, hr, hm, rfl⟩ := mapM_cons_ok h
    intro l hl
    rcases List.mem_cons.mp hl with rfl | hl
    · exact ⟨fields, (readRow_ok hr).1⟩
    · exact ih hm l hl

theorem numberRows_length (selected : List (Bytes × Option Nat)) (id : Int)
    (rows : List (List Bytes)) : (numberRows selected id rows).length = rows.length := by
  induction rows generalizing id with
  | nil => rfl
  | cons fields rows ih => simp [numberRows, ih]

theorem numberRows_append (selected : List (Bytes × Option Nat)) (id : Int)
    (rows more : List (List Bytes)) :
    numberRows selected id (rows ++ more) =
      numberRows selected id rows ++ numberRows selected (id + rows.length) more := by
  induction rows generalizing id with
  | nil => simp [numberRows]
  | cons fields rows ih =>
    have hid : id + 1 + (rows.length : Int) = id + ((rows.length + 1 : Nat) : Int) := by omega
    simp [numberRows, ih, hid]

theorem numberRows_getElem? (selected : List (Bytes × Option Nat)) (id : Int)
    (rows : List (List Bytes)) (i : Nat) :
    (numberRows selected id rows)[i]? = rows[i]?.map (selectRow selected · (id + i)) := by
  induction rows generalizing id i with
  | nil => simp [numberRows]
  | cons fields rows ih =>
    cases i with
    | zero => simp [numberRows]
    | succ i =>
      have hid : id + 1 + (i : Int) = id + ((i + 1 : Nat) : Int) := by omega
      simp [numberRows, ih, hid]

/-- The output rows for the rows that match; the id advances on the others too. -/
def matchingRows (statement : SelectStatement) (selected : List (Bytes × Option Nat))
    (whereIndex : Option Nat) : Int → List (List Bytes) → List (List Bytes)
  | _, [] => []
  | id, fields :: rest =>
    if rowMatchesWhere statement fields whereIndex then
      selectRow selected fields id :: matchingRows statement selected whereIndex (id + 1) rest
    else matchingRows statement selected whereIndex (id + 1) rest

/-- The row loop reads every data line, numbers the rows and keeps the matching ones. -/
theorem selectRows_matching (statement : SelectStatement) (schema : Schema)
    (selected : List (Bytes × Option Nat)) (whereIndex : Option Nat)
    (reads : List (Nat × Bytes)) (id : Int) (rows : List (List Bytes)) :
    selectRows statement schema selected whereIndex reads id rows =
      ((reads.filterMap dataLine).mapM (readRow schema)).map
        (fun read => rows ++ matchingRows statement selected whereIndex id read) := by
  induction reads generalizing id rows with
  | nil => simp [selectRows, matchingRows, Except.map, pure, Except.pure]
  | cons read reads ih =>
    obtain ⟨offset, line⟩ := read
    simp only [selectRows]
    split
    · rename_i hb
      rw [ih, List.filterMap_cons_none (by simp [dataLine, hb])]
    rename_i hb
    rw [List.filterMap_cons_some (b := (offset, stripLineEndings line)) (by simp [dataLine, hb]),
      List.mapM_cons]
    cases hp : csvParseLine (stripLineEndings line) with
    | error message => simp [readRow, hp, Except.map, bind, Except.bind]
    | ok fields =>
    by_cases hl : fields.length = schema.columns.length
    · have hrow : readRow schema (offset, stripLineEndings line) = .ok fields := by
        simp [readRow, hp, hl]
      simp only [hl, ne_eq, not_true_eq_false, ↓reduceIte, ih, hrow]
      cases List.mapM (readRow schema) (reads.filterMap dataLine) with
      | error message => simp [Except.map, bind, Except.bind]
      | ok rest =>
        by_cases hm : rowMatchesWhere statement fields whereIndex
        · simp [Except.map, bind, Except.bind, pure, Except.pure, matchingRows, hm]
        · simp [Except.map, bind, Except.bind, pure, Except.pure, matchingRows, hm]
    · simp [readRow, hp, hl, Except.map, bind, Except.bind]

theorem matchingRows_all {statement : SelectStatement} (hw : statement.whereClause = none)
    (selected : List (Bytes × Option Nat)) (whereIndex : Option Nat) (id : Int)
    (rows : List (List Bytes)) :
    matchingRows statement selected whereIndex id rows = numberRows selected id rows := by
  induction rows generalizing id with
  | nil => rfl
  | cons fields rows ih => simp [matchingRows, numberRows, rowMatchesWhere, hw, ih]

/-- SELECT without a condition, as a function of the files. -/
def fullSelect (statement : SelectStatement) (dirs : Directories) (files : DataFiles) : ExecResult :=
  match loadSchema dirs files statement.tableName with
  | .error message => execError message
  | .ok schema =>
    match buildSelectIndexes statement schema with
    | .error message => execError message
    | .ok selected =>
      if selected = [] then execError []
      else scanSelect statement schema dirs.dataDir files selected none

theorem run_fullSelect {statement : SelectStatement} (hw : statement.whereClause = none)
    (dirs : Directories) (db : Database) :
    (executeStatement (.select statement) dirs).run db =
      (fullSelect statement dirs db.dataFiles, db) := by
  simp only [executeStatement, executeSelect, Program.run_bind, Program.run_read, fullSelect]
  cases loadSchema dirs db.dataFiles statement.tableName with
  | error message => rfl
  | ok schema =>
  dsimp only
  cases buildSelectIndexes statement schema with
  | error message => rfl
  | ok selected =>
  dsimp only
  split
  · rfl
  · simp [resolveWhereIndex, hw]

/-- The table scans: its schema loads and every data line is a row. -/
structure Readable (dirs : Directories) (files : DataFiles) (tableName : Bytes) (schema : Schema)
    (content : Bytes) (rows : List (List Bytes)) : Prop where
  schema_ok : loadSchema dirs files tableName = .ok schema
  found : files schema.storageName = some content
  header : content ≠ []
  rows_ok : (dataLines content).mapM (readRow schema) = .ok rows

theorem scanSelect_matching {files : DataFiles} {schema : Schema} {content : Bytes}
    (hf : files schema.storageName = some content) (hne : content ≠ []) (dataDir : Bytes)
    (statement : SelectStatement) (selected : List (Bytes × Option Nat))
    (whereIndex : Option Nat) :
    scanSelect statement schema dataDir files selected whereIndex =
      match (dataLines content).mapM (readRow schema) with
      | .error message => execError message
      | .ok rows => selectResult selected (matchingRows statement selected whereIndex 1 rows) := by
  simp only [scanSelect, hf, dataLines]
  cases hr : fgetsAll lineRoom 0 content with
  | nil => exact absurd ((fgetsAll_eq_nil lineRoom_pos).mp hr) hne
  | cons first reads =>
    simp only [selectRows_matching, List.tail_cons]
    cases List.mapM (readRow schema) (reads.filterMap dataLine) with
    | error message => rfl
    | ok rows => rfl

theorem scanSelect_eq {dirs : Directories} {files : DataFiles} {statement : SelectStatement}
    (hw : statement.whereClause = none) {schema : Schema} {content : Bytes}
    (hf : files schema.storageName = some content) (hne : content ≠ [])
    (selected : List (Bytes × Option Nat)) :
    scanSelect statement schema dirs.dataDir files selected none =
      match (dataLines content).mapM (readRow schema) with
      | .error message => execError message
      | .ok rows => selectResult selected (numberRows selected 1 rows) := by
  rw [scanSelect_matching hf hne]
  simp only [matchingRows_all hw]

theorem Readable.fullSelect {dirs : Directories} {files : DataFiles} {schema : Schema}
    {content : Bytes} {rows : List (List Bytes)} {statement : SelectStatement}
    (h : Readable dirs files statement.tableName schema content rows)
    (hw : statement.whereClause = none) {selected : List (Bytes × Option Nat)}
    (hb : buildSelectIndexes statement schema = .ok selected) (hs : selected ≠ []) :
    fullSelect statement dirs files = selectResult selected (numberRows selected 1 rows) := by
  simp only [FullScan.fullSelect, h.schema_ok, hb, hs, ↓reduceIte, scanSelect_eq hw h.found h.header,
    h.rows_ok]

theorem validateCsvHeader_content {dataDir : Bytes} {files : DataFiles} {schema : Schema}
    (h : validateCsvHeader dataDir files schema = .ok ()) :
    ∃ content, files schema.storageName = some content ∧ content ≠ [] := by
  cases hf : files schema.storageName with
  | none => simp [validateCsvHeader, hf] at h
  | some content =>
    refine ⟨content, rfl, ?_⟩
    rintro rfl
    simp [validateCsvHeader, hf] at h

theorem readable_of_ok {dirs : Directories} {files : DataFiles} {statement : SelectStatement}
    (hw : statement.whereClause = none) (h : (fullSelect statement dirs files).ok = true) :
    ∃ schema content rows selected, Readable dirs files statement.tableName schema content rows ∧
      buildSelectIndexes statement schema = .ok selected ∧ selected ≠ [] := by
  simp only [fullSelect] at h
  split at h
  · contradiction
  rename_i schema hs
  split at h
  · contradiction
  rename_i selected hb
  split at h
  · contradiction
  rename_i hne
  obtain ⟨content, hf, hc⟩ := validateCsvHeader_content (loadSchema_ok hs).2
  rw [scanSelect_eq hw hf hc] at h
  split at h
  · contradiction
  rename_i rows hr
  exact ⟨schema, content, rows, selected, ⟨hs, hf, hc, hr⟩, hb, hne⟩

/-- The process as it starts, on these data files. -/
def startDatabase (files : DataFiles) : Database :=
  { dataFiles := files, registry := [], forceNextRegisterFailure := false }

def usersDirectories : Directories :=
  { schemaDir := ascii "schema"
    schemaFiles := [(ascii "users.meta", .regular (ascii "table=users\ncolumns=name,age\n"))]
    dataDir := ascii "data" }

def usersFiles (content : Bytes) : DataFiles :=
  fun name => if name = ascii "users" then some content else none

def insertName (name : Bytes) : InsertStatement :=
  { tableName := ascii "users", columns := [ascii "name"], values := [name] }

end DbApi.Proofs.FullScan
