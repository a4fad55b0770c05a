import DbApi.Core.EngineApi
import DbApi.Library.Recorded

/-! The run of a statement with the path of every file that it opens, in order: each `fopen`
of the source is an event here, whether it succeeds or not. -/

namespace DbApi.Opening
open Library Storage Index Sql Execution DbApi.Core

/-- A program over the database that opens files. -/
abbrev Opens (α : Type) : Type := Program (Recorded Database Bytes) α

def fopen (path : Bytes) : Opens Unit := Recorded.record path

/-- A candidate is opened when `stat` has found it a regular file. -/
def fileDeclaresTable (dirs : Directories) (filename : Bytes) (entry : SchemaEntry)
    (tableName : Bytes) : Opens (Except Bytes Bool) :=
  match entry with
  | .directory => return Storage.fileDeclaresTable dirs filename .directory tableName
  | .regular content => do
    fopen (schemaPath dirs filename)
    return Storage.fileDeclaresTable dirs filename (.regular content) tableName

def findDeclaration (dirs : Directories) (tableName : Bytes) :
    List (Bytes × SchemaEntry) → Opens (Except Bytes (Bytes × SchemaEntry))
  | [] => return .error (ascii "schema meta file does not exist")
  | (filename, entry) :: rest =>
    if hasMetaExtension filename then do
      match ← fileDeclaresTable dirs filename entry tableName with
      | .error message => return .error message
      | .ok true => return .ok (filename, entry)
      | .ok false => findDeclaration dirs tableName rest
    else findDeclaration dirs tableName rest

def findSchemaPath (dirs : Directories) (tableName : Bytes) :
    Opens (Except Bytes (Bytes × SchemaEntry)) := do
  let filename := tableName ++ metaExtension
  fopen (schemaPath dirs filename)
  match dirs.schemaFiles.lookup filename with
  | some entry => return .ok (filename, entry)
  | none =>
    if nameMax < filename.length then
      return .error (schemaOpenError dirs filename (ascii "File name too long"))
    else findDeclaration dirs tableName dirs.schemaFiles

/-- The file that was found is opened again to be read. -/
def readSchema (dirs : Directories) (tableName : Bytes) : Opens (Except Bytes Schema) := do
  match ← findSchemaPath dirs tableName with
  | .error message => return .error message
  | .ok (filename, _) =>
    fopen (schemaPath dirs filename)
    return Storage.readSchema dirs tableName

def validateCsvHeader (dataDir : Bytes) (files : DataFiles) (schema : Schema) :
    Opens (Except Bytes Unit) := do
  fopen (csvPath dataDir schema.storageName)
  return Storage.validateCsvHeader dataDir files schema

def loadSchema (dirs : Directories) (tableName : Bytes) : Opens (Except Bytes Schema) := do
  match ← readSchema dirs tableName with
  | .error message => return .error message
  | .ok schema =>
    let files ← Recorded.silent (.read Database.dataFiles)
    match ← validateCsvHeader dirs.dataDir files schema with
    | .error message => return .error message
    | .ok () => return .ok schema

def ensureLoaded (schema : Schema) (dataDir : Bytes) : Opens (Except Bytes Unit) := do
  let name := schema.storageName
  let entry ← Recorded.silent (getOrCreateTableIndex name)
  if entry.loaded then return .ok ()
  Recorded.silent (.modify (·.updateEntry name TableIndex.clear))
  -- `scan_rows_csv` of the rebuild
  fopen (csvPath dataDir name)
  match ← Recorded.silent (.read fun db => rebuild dataDir db.dataFiles name) with
  | .error message =>
    Recorded.silent (.modify (·.updateEntry name TableIndex.unload))
    return .error message
  | .ok (tree, nextId) =>
    Recorded.silent (.modify (·.updateEntry name (TableIndex.install tree nextId)))
    return .ok ()

def readEntry {α : Type} (schema : Schema) (dataDir : Bytes) (read : TableIndex → α) :
    Opens (Except Bytes α) := do
  match ← ensureLoaded schema dataDir with
  | .error message => return .error message
  | .ok () =>
    return .ok (← Recorded.silent (.read fun db => read (tableIndexOf db.registry schema.storageName)))

def tableIndexRegisterRow (schema : Schema) (dataDir : Bytes) (id : Int) (rowOffset : Nat) :
    Opens (Except Bytes Unit) := do
  let forced ← Recorded.silent <| .atomic fun db =>
    (db.forceNextRegisterFailure, { db with forceNextRegisterFailure := false })
  if forced then return .error (ascii "forced index registration failure")
  match ← ensureLoaded schema dataDir with
  | .error message => return .error message
  | .ok () =>
    Recorded.silent <| .atomic fun db =>
      ((registerEntry id rowOffset (tableIndexOf db.registry schema.storageName)).1,
        db.updateEntry schema.storageName (fun entry => (registerEntry id rowOffset entry).2))

def executeInsert (statement : InsertStatement) (dirs : Directories) : Opens ExecResult := do
  match ← loadSchema dirs statement.tableName with
  | .error message => return execError message
  | .ok schema =>
  match validateInsertColumns statement schema with
  | .error message => return execError message
  | .ok () =>
  match ← readEntry schema dirs.dataDir TableIndex.nextId with
  | .error message => return execError message
  | .ok nextId =>
  match buildInsertRow statement schema with
  | .error message => return execError message
  | .ok rowValues =>
  -- `append_row_csv`
  fopen (csvPath dirs.dataDir schema.storageName)
  match ← Recorded.silent
      (.read fun db => findAppendPoint dirs.dataDir db.dataFiles schema.storageName) with
  | .error message => return execError message
  | .ok point =>
    Recorded.silent <| .modify fun db =>
      { db with dataFiles := writeRow db.dataFiles schema.storageName point rowValues }
    match ← tableIndexRegisterRow schema dirs.dataDir nextId point.rowOffset with
    | .error message =>
      Recorded.silent (tableIndexInvalidate schema.storageName)
      return execError message
    | .ok () =>
      return {
        ok := true
        affectedRows := 1
        message := ascii "INSERT 1"
        table := none
        registered := some
          { storageName := schema.storageName, rowValues, id := nextId,
            rowOffset := point.rowOffset } }

def executeIndexSelect (whereValue : Bytes) (schema : Schema) (dataDir : Bytes)
    (selected : List (Bytes × Option Nat)) : Opens ExecResult := do
  match Common.parseIntStrict whereValue with
  | none => return execError (ascii "WHERE id value must be an integer")
  | some whereId =>
  match ← readEntry schema dataDir (fun entry => bptreeSearch entry.tree whereId) with
  | .error message => return execError message
  | .ok none => return selectResult selected []
  | .ok (some rowOffset) =>
  -- `read_row_at_offset_csv`
  fopen (csvPath dataDir schema.storageName)
  match ← Recorded.silent (.read fun db =>
      readRowAtOffsetCsv dataDir db.dataFiles schema.storageName rowOffset) with
  | .error message => return execError message
  | .ok fields =>
    if fields.length ≠ schema.columns.length then
      return execError (ascii "CSV row does not match schema column count")
    else return selectResult selected [selectRow selected fields whereId]

def executeSelect (statement : SelectStatement) (dirs : Directories) : Opens ExecResult := do
  match ← loadSchema dirs statement.tableName with
  | .error message => return execError message
  | .ok schema =>
  match buildSelectIndexes statement schema with
  | .error message => return execError message
  | .ok selected =>
  if selected = [] then return execError [] else
  match resolveWhereIndex statement schema with
  | .error message => return execError message
  | .ok whereIndex =>
  match statement.whereClause.filter (·.column == ascii "id") with
  | some condition => executeIndexSelect condition.value schema dirs.dataDir selected
  | none =>
    fopen (csvPath dirs.dataDir schema.storageName)
    Recorded.silent <| .read fun db =>
      scanSelect statement schema dirs.dataDir db.dataFiles selected whereIndex

def executeStatement (statement : Statement) (dirs : Directories) : Opens ExecResult :=
  match statement with
  | .insert statement => executeInsert statement dirs
  | .select statement => executeSelect statement dirs

def serverCoreWeek8EngineRun (request : ServerCoreRequest) : Opens EngineRun :=
  match lexSql request.sql.bytes with
  | .error error => return engineFailure error
  | .ok tokens =>
    match parseStatement tokens with
    | .error message => return engineFailure message
    | .ok statement => do
      let result ← executeStatement statement request.dirs
      return {
        ok := result.ok
        affectedRows := result.affectedRows
        messageBuffer := clip serverCoreMessageCapacity result.message
        output := (result.table.map printResultTable).getD [] }

/-- The paths that the execution of a request opens. -/
def openedPaths (request : ServerCoreRequest) (db : Database) : List Bytes :=
  ((serverCoreWeek8EngineRun request).run { state := db, events := [] }).2.events

end DbApi.Opening
