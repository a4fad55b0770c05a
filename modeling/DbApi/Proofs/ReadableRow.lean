import DbApi.Proofs.IndexCoherence
import DbApi.Proofs.FullScan

namespace DbApi.Proofs.ReadableRow
open Library Common Storage Index Sql Execution Lines CsvRoundTrip TableFile IndexRebuild IndexView
open StatementOutcome InsertRow IndexCoherence FullScan

def selectStar (tableName : Bytes) : SelectStatement :=
  { tableName, columns := [], selectAll := true, whereClause := none }

/-- The ids in the tree are 1 to n. -/
def HasIds (tree : BPlusTree Nat) (n : Nat) : Prop :=
  ∀ id : Int, (bptreeSearch tree id).isSome ↔ 1 ≤ id ∧ id ≤ n

/-- After the INSERT the table has the old rows and one more, and so have the
index in memory and an index rebuilt from the file. -/
def OneMoreRow (dirs : Directories) (schema : Schema) (tableName : Bytes) (before after : Database) :
    Prop :=
  ∃ table row tree nextId,
    (fullSelect (selectStar tableName) dirs before.dataFiles).table = some table ∧
    ((executeStatement (.select (selectStar tableName)) dirs).run after).1.ok = true ∧
    ((executeStatement (.select (selectStar tableName)) dirs).run after).1.table =
      some { table with rows := table.rows ++ [row] } ∧
    HasIds (tableIndexOf after.registry schema.storageName).tree (table.rows.length + 1) ∧
    rebuild dirs.dataDir after.dataFiles schema.storageName = .ok (tree, nextId) ∧
    HasIds tree (table.rows.length + 1)

theorem hasIds {offsets : List Nat} {tree : BPlusTree Nat} {nextId : Int}
    (hi : Indexes offsets tree nextId) : HasIds tree offsets.length := by
  intro id
  rw [hi.represents.agrees, offsetOf]
  split
  · rw [Option.isSome_iff_ne_none, ne_eq, List.getElem?_eq_none_iff]
    omega
  · simp
    omega

/-- The header of a table is still valid after a row was appended. -/
theorem validateCsvHeader_append {dataDir : Bytes} {files : DataFiles} {schema : Schema}
    {content : Bytes} (h : validateCsvHeader dataDir files schema = .ok ())
    (hf : files schema.storageName = some content) (row : Bytes) :
    validateCsvHeader dataDir
      (Function.update files schema.storageName (some (appendRow content row))) schema = .ok () := by
  have hne : content ≠ [] := by
    rintro rfl
    simp [validateCsvHeader, hf] at h
  have hread := fgets_ne_nil lineRoom_pos hne
  have hread' : fgets lineRoom (appendRow content row) ≠ [] :=
    fgets_ne_nil lineRoom_pos (by simp [appendRow, hne])
  have hhead := header_appendRow hne row
  simp only [validateCsvHeader, hf, Function.update_self] at h ⊢
  cases hl : fgets lineRoom content with
  | nil => contradiction
  | cons b line =>
  cases hl' : fgets lineRoom (appendRow content row) with
  | nil => contradiction
  | cons b' line' =>
  rw [hl] at h hhead
  rw [hl'] at hhead
  simpa only [hhead] using h

theorem loadSchema_append {dirs : Directories} {files : DataFiles} {tableName : Bytes}
    {schema : Schema} {content : Bytes} (h : loadSchema dirs files tableName = .ok schema)
    (hf : files schema.storageName = some content) (row : Bytes) :
    loadSchema dirs (Function.update files schema.storageName (some (appendRow content row)))
      tableName = .ok schema := by
  obtain ⟨hs, hv⟩ := loadSchema_ok h
  simp only [loadSchema, hs, validateCsvHeader_append hv hf row]

theorem insert_success {statement : InsertStatement} {dirs : Directories} {db : Database}
    (h : ((executeStatement (.insert statement) dirs).run db).1.ok = true) :
    ∃ schema rowValues content loaded written after,
      Appended statement dirs (view db) schema rowValues content loaded written ∧
      written.register schema.storageName (loaded.indexOf schema.storageName).nextId
        (rowOffset content) = (.ok (), after) ∧
      view ((executeStatement (.insert statement) dirs).run db).2 = after := by
  have hout := executeInsert_outcome statement dirs db
  rw [Yields] at hout
  simp only [executeStatement] at h ⊢
  generalize ((executeInsert statement dirs).run db).1 = result at h hout
  generalize hv : view ((executeInsert statement dirs).run db).2 = after at hout
  cases hout with
  | refused message => contradiction
  | unwritten message schema => contradiction
  | unregistered appended register => contradiction
  | registered appended register => exact ⟨_, _, _, _, _, _, appended, register, rfl⟩

/-- What a successful INSERT leaves, when the index agreed with the file. -/
theorem insert_leaves {dirs : Directories} {db : Database} {statement : InsertStatement}
    {schema : Schema} (hs : loadSchema dirs db.dataFiles statement.tableName = .ok schema)
    (hindex : IndexAgrees (view db) schema.storageName)
    (h : ((executeStatement (.insert statement) dirs).run db).1.ok = true) :
    ∃ content, db.dataFiles schema.storageName = some content ∧ content ≠ [] ∧
      WritableRow schema (rowOf statement schema) ∧
      ((executeStatement (.insert statement) dirs).run db).2.dataFiles =
        Function.update db.dataFiles schema.storageName
          (some (appendRow content (encodeRow (rowOf statement schema)))) ∧
      Indexes (dataOffsets content ++ [rowOffset content])
        (tableIndexOf ((executeStatement (.insert statement) dirs).run db).2.registry
          schema.storageName).tree
        (tableIndexOf ((executeStatement (.insert statement) dirs).run db).2.registry
          schema.storageName).nextId := by
  obtain ⟨schema', rowValues, content, loaded, written, after, ha, hreg, hview⟩ := insert_success h
  have hschema : schema' = schema := Except.ok.inj (ha.schema_ok.symm.trans hs)
  subst hschema
  have hw := row_writable ha
  obtain rfl := buildInsertRow_eq ha.row_ok hw.length_eq
  have hag := agrees_loaded hindex ha
  refine ⟨content, ha.found, hag.header, hw, ?_, ?_⟩
  · change (view _).files = _
    rw [hview]
    have hfiles := congrArg (fun r => r.2.files) hreg
    simp only [register_files, ha.writes] at hfiles
    exact hfiles.symm
  · change Indexes _ ((view _).indexOf schema'.storageName).tree
      ((view _).indexOf schema'.storageName).nextId
    rw [hview, register_ok hreg, View.indexOf_set, ha.writes]
    exact (registerEntry_indexes hag.indexes (rowOffset content)).2

theorem star_indexes {schema : Schema} (tableName : Bytes) (hne : schema.columns ≠ []) :
    ∃ selected, buildSelectIndexes (selectStar tableName) schema = .ok selected ∧ selected ≠ [] :=
  ⟨schema.columns.mapIdx fun index column => (column, some index), rfl, by simpa using hne⟩

/-- Until the row is written, SELECT * and the file tell the same number of rows. -/
theorem selectStar_rows {dirs : Directories} {files : DataFiles} {tableName : Bytes}
    {schema : Schema} (hs : loadSchema dirs files tableName = .ok schema) {content : Bytes}
    (hf : files schema.storageName = some content) {table : ResultTable}
    (hok : (fullSelect (selectStar tableName) dirs files).ok = true)
    (ht : (fullSelect (selectStar tableName) dirs files).table = some table) :
    table.rows.length = (dataLines content).length := by
  obtain ⟨schema', content', rows, selected, h, hb, hne⟩ := readable_of_ok rfl hok
  obtain rfl : schema' = schema := Except.ok.inj (h.schema_ok.symm.trans hs)
  obtain rfl : content' = content := Option.some.inj (h.found.symm.trans hf)
  rw [h.fullSelect rfl hb hne] at ht
  obtain rfl := Option.some.inj ht
  simp [numberRows_length, mapM_length h.rows_ok]

/-- A row that fits is read as one more row. -/
theorem fit_oneMoreRow {dirs : Directories} {db : Database} {statement : InsertStatement}
    {schema : Schema} (hs : loadSchema dirs db.dataFiles statement.tableName = .ok schema)
    (hok : (fullSelect (selectStar statement.tableName) dirs db.dataFiles).ok = true)
    (hindex : IndexAgrees (view db) schema.storageName)
    (hinsert : ((executeStatement (.insert statement) dirs).run db).1.ok = true)
    (hfit : (encodeRow (rowOf statement schema)).length ≤ lineRoom) :
    OneMoreRow dirs schema statement.tableName db
      ((executeStatement (.insert statement) dirs).run db).2 := by
  obtain ⟨content, hf, hne, hw, hfiles, hi⟩ := insert_leaves hs hindex hinsert
  obtain ⟨schema', content', rows, selected, h, hb, hsel⟩ := readable_of_ok rfl hok
  obtain rfl : schema' = schema := Except.ok.inj (h.schema_ok.symm.trans hs)
  obtain rfl : content' = content := Option.some.inj (h.found.symm.trans hf)
  generalize ((executeStatement (.insert statement) dirs).run db).2 = after at hfiles hi ⊢
  have hlines := dataLines_append_fit hne hw.clean hw.encode_ne_nil hfit
  have hnew : readRow schema' (rowOffset content', encodeRow (rowOf statement schema')) =
      .ok ((rowOf statement schema').map readBack) := by
    simp [readRow, hw.parse, hw.length_eq]
  have hafter : Readable dirs after.dataFiles statement.tableName schema'
      (appendRow content' (encodeRow (rowOf statement schema')))
      (rows ++ [(rowOf statement schema').map readBack]) := by
    refine ⟨hfiles ▸ loadSchema_append hs hf _, by simp [hfiles], by simp [appendRow, hne], ?_⟩
    rw [hlines, List.mapM_append, h.rows_ok]
    simp [hnew, bind, Except.bind, pure, Except.pure]
  have hcount : (dataOffsets content' ++ [rowOffset content']).length = rows.length + 1 := by
    simp [dataOffsets, mapM_length h.rows_ok]
  obtain ⟨tree, nextId, hr, hi'⟩ :=
    rebuild_ok hafter.found hafter.header (parses_of_rows hafter.rows_ok) dirs.dataDir
  have hids := hasIds hi
  have hids' := hasIds hi'
  rw [dataOffsets, hlines, List.map_append, List.map_singleton, ← dataOffsets] at hids'
  rw [hcount] at hids hids'
  refine ⟨⟨selected.map Prod.fst, numberRows selected 1 rows⟩,
    selectRow selected ((rowOf statement schema').map readBack) (1 + rows.length), tree, nextId,
    ?_, ?_, ?_, ?_, hr, ?_⟩
  · rw [h.fullSelect rfl hb hsel]
    rfl
  · rw [run_fullSelect rfl, hafter.fullSelect rfl hb hsel]
    rfl
  · rw [run_fullSelect rfl, hafter.fullSelect rfl hb hsel, numberRows_append]
    rfl
  · simpa [numberRows_length] using hids
  · simpa [numberRows_length] using hids'

/-- A row that does not fit is read as several, or not at all. -/
theorem long_not_oneMoreRow {dirs : Directories} {db : Database} {statement : InsertStatement}
    {schema : Schema} (hs : loadSchema dirs db.dataFiles statement.tableName = .ok schema)
    (hok : (fullSelect (selectStar statement.tableName) dirs db.dataFiles).ok = true)
    (hindex : IndexAgrees (view db) schema.storageName)
    (hinsert : ((executeStatement (.insert statement) dirs).run db).1.ok = true)
    (hlong : lineRoom < (encodeRow (rowOf statement schema)).length) :
    ¬ OneMoreRow dirs schema statement.tableName db
      ((executeStatement (.insert statement) dirs).run db).2 := by
  obtain ⟨content, hf, hne, hw, hfiles, _⟩ := insert_leaves hs hindex hinsert
  generalize ((executeStatement (.insert statement) dirs).run db).2 = after at hfiles ⊢
  rintro ⟨table, row, _, _, htable, hok', htable', _⟩
  rw [run_fullSelect rfl, hfiles] at hok' htable'
  have hbefore := selectStar_rows hs hf hok htable
  have hafter := selectStar_rows (loadSchema_append hs hf _) (Function.update_self ..) hok' htable'
  have hcount := dataLines_append_long hne hw.clean hlong
  simp only [List.length_append, List.length_singleton] at hafter
  omega

/-- An accepted INSERT leaves one more readable row exactly when its row, as it
is written to the file, fits the line buffer. -/
theorem oneMoreRow_iff (dirs : Directories) (db : Database) (statement : InsertStatement)
    (schema : Schema) (hs : loadSchema dirs db.dataFiles statement.tableName = .ok schema)
    (hselect : ((executeStatement (.select (selectStar statement.tableName)) dirs).run db).1.ok = true)
    (hindex : IndexAgrees (view db) schema.storageName)
    (hinsert : ((executeStatement (.insert statement) dirs).run db).1.ok = true) :
    OneMoreRow dirs schema statement.tableName db
        ((executeStatement (.insert statement) dirs).run db).2 ↔
      (encodeRow (rowOf statement schema)).length ≤ lineRoom := by
  rw [run_fullSelect rfl] at hselect
  refine ⟨fun h => ?_, fit_oneMoreRow hs hselect hindex hinsert⟩
  by_contra hlong
  exact long_not_oneMoreRow hs hselect hindex hinsert (not_le.mp hlong) h

def usersSchema : Schema :=
  { tableName := ascii "users", storageName := ascii "users", columns := [ascii "name", ascii "age"] }

def usersStart : Database := startDatabase (usersFiles (ascii "name,age\nBob,21\n"))

theorem indexAgrees_start (name : Bytes) : IndexAgrees (view usersStart) name := by
  intro h
  simp [view, usersStart, startDatabase, tableIndexOf, findTableIndex, TableIndex.fresh] at h

theorem oneMoreRow_iff_alice :
    OneMoreRow usersDirectories usersSchema (ascii "users") usersStart
        ((executeStatement (.insert (insertName (ascii "Alice"))) usersDirectories).run usersStart).2 ↔
      (encodeRow (rowOf (insertName (ascii "Alice")) usersSchema)).length ≤ lineRoom :=
  oneMoreRow_iff usersDirectories usersStart (insertName (ascii "Alice")) usersSchema
    (by decide +kernel) (by decide +kernel) (indexAgrees_start _) (by decide +kernel)

def longName : Bytes := List.replicate 4100 97

/-- A value of 4100 bytes is accepted and makes its table unreadable. -/
theorem long_value_accepted : ¬ ∀ (dirs : Directories) (db : Database) (statement : InsertStatement)
    (schema : Schema), loadSchema dirs db.dataFiles statement.tableName = .ok schema →
    ((executeStatement (.select (selectStar statement.tableName)) dirs).run db).1.ok = true →
    IndexAgrees (view db) schema.storageName →
    ((executeStatement (.insert statement) dirs).run db).1.ok = true →
    OneMoreRow dirs schema statement.tableName db
      ((executeStatement (.insert statement) dirs).run db).2 := by
  intro h
  have hschema : loadSchema usersDirectories usersStart.dataFiles (ascii "users") =
      .ok usersSchema := by decide +kernel
  have hinsert : ((executeStatement (.insert (insertName longName)) usersDirectories).run
      usersStart).1.ok = true := by decide +kernel
  have hselect : (fullSelect (selectStar (ascii "users")) usersDirectories
      usersStart.dataFiles).ok = true := by decide +kernel
  have hlong : lineRoom < (encodeRow (rowOf (insertName longName) usersSchema)).length := by
    decide +kernel
  refine long_not_oneMoreRow hschema hselect (indexAgrees_start _) hinsert hlong ?_
  refine h usersDirectories usersStart (insertName longName) usersSchema hschema ?_
    (indexAgrees_start _) hinsert
  rwa [run_fullSelect rfl]

end DbApi.Proofs.ReadableRow
