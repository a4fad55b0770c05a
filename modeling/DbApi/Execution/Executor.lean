import DbApi.Index.TableIndex
import DbApi.Sql.Ast

namespace DbApi.Execution
open Library Common Storage Index Sql Lines

/-- What is handed to `print_result_table`. -/
structure ResultTable where
  headers : List Bytes
  rows : List (List Bytes)
deriving DecidableEq

/-- The arguments of the registration an INSERT made; the source drops them. -/
structure Registration where
  storageName : Bytes
  rowValues : List Bytes
  id : Int
  rowOffset : Nat
deriving DecidableEq

structure ExecResult where
  ok : Bool
  affectedRows : Nat
  message : Bytes
  table : Option ResultTable
  registered : Option Registration
deriving DecidableEq

def execError (message : Bytes) : ExecResult :=
  { ok := false, affectedRows := 0, message, table := none, registered := none }

def containsNewline (value : Bytes) : Bool := (cString value).any isLineEnding

def validateColumns (schema : Schema) : List (Bytes × Bytes) → Except Bytes Unit
  | [] => .ok ()
  | (column, value) :: rest =>
    if column = ascii "id" then .error (ascii "explicit id column is not allowed")
    else if schemaFindColumn schema column = none then
      .error (clip messageSize (ascii "unknown column in INSERT: " ++ column))
    else if containsNewline value then .error (ascii "newline in value is not supported")
    else validateColumns schema rest

def validateInsertColumns (statement : InsertStatement) (schema : Schema) : Except Bytes Unit :=
  if statement.columns.length ≠ statement.values.length then
    .error (ascii "column count and value count do not match")
  else validateColumns schema (statement.columns.zip statement.values)

/-- The loop over the values; `assigned` marks the columns given so far. -/
def assignColumns (schema : Schema) :
    List (Bytes × Bytes) → List Bool → List Bytes → Except Bytes (List Bytes)
  | [], _, rowValues => .ok rowValues
  | (column, value) :: rest, assigned, rowValues =>
    match schemaFindColumn schema column with
    | none => .error (clip messageSize (ascii "unknown column in INSERT: " ++ column))
    | some schemaIndex =>
      if assigned[schemaIndex]? = some true then
        .error (clip messageSize (ascii "duplicate column in INSERT: " ++ column))
      else
        assignColumns schema rest (assigned.set schemaIndex true)
          (rowValues.set schemaIndex (copyString value))

def buildInsertRow (statement : InsertStatement) (schema : Schema) : Except Bytes (List Bytes) :=
  assignColumns schema (statement.columns.zip statement.values)
    (List.replicate schema.columns.length false) (List.replicate schema.columns.length [])

def executeInsert (statement : InsertStatement) (dirs : Directories) :
    Program Database ExecResult := do
  match ← .read fun db => loadSchema dirs db.dataFiles statement.tableName with
  | .error message => return execError message
  | .ok schema =>
  match validateInsertColumns statement schema with
  | .error message => return execError message
  | .ok () =>
  match ← tableIndexGetNextId schema dirs.dataDir with
  | .error message => return execError message
  | .ok nextId =>
  match buildInsertRow statement schema with
  | .error message => return execError message
  | .ok rowValues =>
  -- `append_row_csv`, cut between its inspection of the file and its write
  match ← .read fun db => findAppendPoint dirs.dataDir db.dataFiles schema.storageName with
  | .error message => return execError message
  | .ok point =>
    .modify fun db =>
      { db with dataFiles := writeRow db.dataFiles schema.storageName point rowValues }
    match ← tableIndexRegisterRow schema dirs.dataDir nextId point.rowOffset with
    | .error message =>
      tableIndexInvalidate schema.storageName
      return execError message
    | .ok () =>
      return {
        ok := true
        affectedRows := 1
        message := ascii "INSERT 1"
        table := none
        registered := some
          { storageName := schema.storageName, rowValues, id := nextId,
            rowOffset := point.rowOffset } }

/-- A selected column with its header; `none` is `INTERNAL_ID_SELECT_INDEX`. -/
def selectColumns (schema : Schema) : List Bytes → Except Bytes (List (Bytes × Option Nat))
  | [] => .ok []
  | column :: rest =>
    if column = ascii "id" then
      (selectColumns schema rest).map ((column, none) :: ·)
    else
      match schemaFindColumn schema column with
      | none => .error (clip messageSize (ascii "unknown column in SELECT: " ++ column))
      | some schemaIndex => (selectColumns schema rest).map ((column, some schemaIndex) :: ·)

def buildSelectIndexes (statement : SelectStatement) (schema : Schema) :
    Except Bytes (List (Bytes × Option Nat)) :=
  if statement.selectAll then
    .ok (schema.columns.mapIdx fun index column => (column, some index))
  else selectColumns schema statement.columns

/-- The index of a column that is neither absent nor `id`. -/
def resolveWhereIndex (statement : SelectStatement) (schema : Schema) :
    Except Bytes (Option Nat) :=
  match statement.whereClause with
  | none => .ok none
  | some condition =>
    if condition.column = ascii "id" then .ok none
    else
      match schemaFindColumn schema condition.column with
      | none => .error (clip messageSize (ascii "unknown column in WHERE: " ++ condition.column))
      | some index => .ok (some index)

def rowMatchesWhere (statement : SelectStatement) (fields : List Bytes)
    (whereIndex : Option Nat) : Bool :=
  match statement.whereClause with
  | none => true
  | some condition => (whereIndex.bind (fields[·]?)) == some condition.value

def selectRow (selected : List (Bytes × Option Nat)) (fields : List Bytes) (internalId : Int) :
    List Bytes :=
  selected.map fun column =>
    match column.2 with
    | none => decimal internalId
    | some index => fields[index]?.getD []

/-- The table to print, counted. -/
def selectResult (selected : List (Bytes × Option Nat)) (rows : List (List Bytes)) : ExecResult :=
  { ok := true
    affectedRows := rows.length
    message := ascii "SELECT " ++ decimalNat rows.length
    table := some { headers := selected.map Prod.fst, rows }
    registered := none }

def executeIndexSelect (whereValue : Bytes) (schema : Schema) (dataDir : Bytes)
    (selected : List (Bytes × Option Nat)) : Program Database ExecResult := do
  match parseIntStrict whereValue with
  | none => return execError (ascii "WHERE id value must be an integer")
  | some whereId =>
  match ← tableIndexFindRow schema dataDir whereId with
  | .error message => return execError message
  | .ok none => return selectResult selected []
  | .ok (some rowOffset) =>
  match ← .read fun db =>
      readRowAtOffsetCsv dataDir db.dataFiles schema.storageName rowOffset with
  | .error message => return execError message
  | .ok fields =>
    if fields.length ≠ schema.columns.length then
      return execError (ascii "CSV row does not match schema column count")
    else return selectResult selected [selectRow selected fields whereId]

/-- The row loop of `execute_select`, over the reads after the header. -/
def selectRows (statement : SelectStatement) (schema : Schema)
    (selected : List (Bytes × Option Nat)) (whereIndex : Option Nat) :
    List (Nat × Bytes) → Int → List (List Bytes) → Except Bytes (List (List Bytes))
  | [], _, rows => .ok rows
  | (_, line) :: rest, currentInternalId, rows =>
    let text := stripLineEndings line
    if text = [] then
      selectRows statement schema selected whereIndex rest currentInternalId rows
    else
      match csvParseLine text with
      | .error message => .error message
      | .ok fields =>
        if fields.length ≠ schema.columns.length then
          .error (ascii "CSV row does not match schema column count")
        else if rowMatchesWhere statement fields whereIndex then
          selectRows statement schema selected whereIndex rest (currentInternalId + 1)
            (rows ++ [selectRow selected fields currentInternalId])
        else
          selectRows statement schema selected whereIndex rest (currentInternalId + 1) rows

def scanSelect (statement : SelectStatement) (schema : Schema) (dataDir : Bytes)
    (files : DataFiles) (selected : List (Bytes × Option Nat)) (whereIndex : Option Nat) :
    ExecResult :=
  match files schema.storageName with
  | none =>
    execError (formatSystemError (ascii "failed to open table data file")
      (csvPath dataDir schema.storageName) enoent)
  | some content =>
    match fgetsAll lineRoom 0 content with
    | [] => execError (ascii "table data file is empty")
    | _ :: lines =>
      match selectRows statement schema selected whereIndex lines 1 [] with
      | .error message => execError message
      | .ok rows => selectResult selected rows

def executeSelect (statement : SelectStatement) (dirs : Directories) :
    Program Database ExecResult := do
  match ← .read fun db => loadSchema dirs db.dataFiles statement.tableName with
  | .error message => return execError message
  | .ok schema =>
  match buildSelectIndexes statement schema with
  | .error message => return execError message
  | .ok selected =>
  -- a selection of no column is reported without a message
  if selected = [] then return execError [] else
  match resolveWhereIndex statement schema with
  | .error message => return execError message
  | .ok whereIndex =>
  match statement.whereClause.filter (·.column == ascii "id") with
  | some condition => executeIndexSelect condition.value schema dirs.dataDir selected
  | none =>
    .read fun db => scanSelect statement schema dirs.dataDir db.dataFiles selected whereIndex

def executeStatement (statement : Statement) (dirs : Directories) : Program Database ExecResult :=
  match statement with
  | .insert statement => executeInsert statement dirs
  | .select statement => executeSelect statement dirs

end DbApi.Execution
