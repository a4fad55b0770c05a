import DbApi.Execution.Executor
import DbApi.Library.Slots

namespace DbApi.Execution.SelectArrays
open Library Common Storage Index Sql Lines

/-- How a SELECT stops early: with an error message, or at an access outside an
array. -/
inductive SelectFailure where
  | message (text : Bytes)
  | outOfBounds (fault : BoundsFault)
deriving DecidableEq

def internalIdSelectIndex : Int := -1

/-- `selected_headers` and `selected_indexes`; the second has the size it was
allocated with. -/
structure SelectIndexes where
  headers : List Bytes
  indexes : List Int

def SelectIndexes.put (s : SelectIndexes) (index : Nat) (header : Bytes) (value : Int) :
    Except SelectFailure SelectIndexes :=
  ((store s.indexes index value).mapError .outOfBounds).map fun indexes =>
    { headers := s.headers ++ [header], indexes }

def selectAllLoop : List Bytes → Nat → SelectIndexes → Except SelectFailure SelectIndexes
  | [], _, s => .ok s
  | column :: rest, index, s => do
    let s ← s.put index column index
    selectAllLoop rest (index + 1) s

def selectColumnsLoop (schema : Schema) :
    List Bytes → Nat → SelectIndexes → Except SelectFailure SelectIndexes
  | [], _, s => .ok s
  | column :: rest, index, s =>
    if column = ascii "id" then do
      let s ← s.put index column internalIdSelectIndex
      selectColumnsLoop schema rest (index + 1) s
    else
      match schemaFindColumn schema column with
      | none => .error (.message (clip messageSize (ascii "unknown column in SELECT: " ++ column)))
      | some schemaIndex => do
        let s ← s.put index column schemaIndex
        selectColumnsLoop schema rest (index + 1) s

/-- The filled arrays and the number of selected columns. -/
def buildSelectIndexes (statement : SelectStatement) (schema : Schema) (s : SelectIndexes) :
    Except SelectFailure (SelectIndexes × Nat) :=
  if statement.selectAll then
    (selectAllLoop schema.columns 0 s).map (·, schema.columns.length)
  else (selectColumnsLoop schema statement.columns 0 s).map (·, statement.columns.length)

def resolveWhereIndex (statement : SelectStatement) (schema : Schema) :
    Except SelectFailure Int :=
  match statement.whereClause with
  | none => .ok (-1)
  | some condition =>
    if condition.column = ascii "id" then .ok (-1)
    else
      match schemaFindColumn schema condition.column with
      | none =>
        .error (.message (clip messageSize (ascii "unknown column in WHERE: " ++ condition.column)))
      | some index => .ok index

def rowMatchesWhere (statement : SelectStatement) (fields : List Bytes) (whereIndex : Int) :
    Except SelectFailure Bool :=
  match statement.whereClause with
  | none => .ok true
  | some condition =>
    ((fetch fields whereIndex).mapError .outOfBounds).map (· == condition.value)

def selectedValue (fields : List Bytes) (internalId : Int) (slot : Int) :
    Except SelectFailure Bytes :=
  if slot = internalIdSelectIndex then .ok (decimal internalId)
  else (fetch fields slot).mapError .outOfBounds

/-- The loop of `select_row_buffer_push` over the selected columns, from `index`
on. -/
def selectRowBufferPush (indexes : List Int) (fields : List Bytes) (internalId : Int) :
    Nat → Nat → Except SelectFailure (List Bytes)
  | 0, _ => .ok []
  | remaining + 1, index => do
    let slot ← (fetch indexes index).mapError .outOfBounds
    let value ← selectedValue fields internalId slot
    let row ← selectRowBufferPush indexes fields internalId remaining (index + 1)
    return value :: row

def selectRows (statement : SelectStatement) (schema : Schema) (selected : SelectIndexes)
    (selectedCount : Nat) (whereIndex : Int) :
    List (Nat × Bytes) → Int → List (List Bytes) → Except SelectFailure (List (List Bytes))
  | [], _, rows => .ok rows
  | (_, line) :: rest, currentInternalId, rows =>
    let text := stripLineEndings line
    if text = [] then
      selectRows statement schema selected selectedCount whereIndex rest currentInternalId rows
    else
      match csvParseLine text with
      | .error message => .error (.message message)
      | .ok fields =>
        if fields.length ≠ schema.columns.length then
          .error (.message (ascii "CSV row does not match schema column count"))
        else do
          let matched ← rowMatchesWhere statement fields whereIndex
          if matched then
            let row ← selectRowBufferPush selected.indexes fields currentInternalId selectedCount 0
            selectRows statement schema selected selectedCount whereIndex rest
              (currentInternalId + 1) (rows ++ [row])
          else
            selectRows statement schema selected selectedCount whereIndex rest
              (currentInternalId + 1) rows

def selectResult (headers : List Bytes) (rows : List (List Bytes)) : ExecResult :=
  { ok := true
    affectedRows := rows.length
    message := ascii "SELECT " ++ decimalNat rows.length
    table := some { headers, rows }
    registered := none }

def scanSelect (statement : SelectStatement) (schema : Schema) (dataDir : Bytes)
    (files : DataFiles) (selected : SelectIndexes) (selectedCount : Nat) (whereIndex : Int) :
    Except SelectFailure ExecResult :=
  match files schema.storageName with
  | none =>
    .error (.message (formatSystemError (ascii "failed to open table data file")
      (csvPath dataDir schema.storageName) enoent))
  | some content =>
    match fgetsAll lineRoom 0 content with
    | [] => .error (.message (ascii "table data file is empty"))
    | _ :: lines =>
      (selectRows statement schema selected selectedCount whereIndex lines 1 []).map
        (selectResult selected.headers)

def executeIndexSelect (whereValue : Bytes) (schema : Schema) (dataDir : Bytes)
    (selected : SelectIndexes) (selectedCount : Nat) :
    Program Database (Except SelectFailure ExecResult) := do
  match parseIntStrict whereValue with
  | none => return .error (.message (ascii "WHERE id value must be an integer"))
  | some whereId =>
  match ← tableIndexFindRow schema dataDir whereId with
  | .error message => return .error (.message message)
  | .ok none => return .ok (selectResult selected.headers [])
  | .ok (some rowOffset) =>
  match ← .read fun db =>
      readRowAtOffsetCsv dataDir db.dataFiles schema.storageName rowOffset with
  | .error message => return .error (.message message)
  | .ok fields =>
    if fields.length ≠ schema.columns.length then
      return .error (.message (ascii "CSV row does not match schema column count"))
    else
      return (selectRowBufferPush selected.indexes fields whereId selectedCount 0).map fun row =>
        selectResult selected.headers [row]

/-- `calloc` clears the array of the selected indexes and gives it a slot for each
column of the schema. -/
def executeSelect (statement : SelectStatement) (dirs : Directories) :
    Program Database (Except SelectFailure ExecResult) := do
  match ← .read fun db => loadSchema dirs db.dataFiles statement.tableName with
  | .error message => return .error (.message message)
  | .ok schema =>
  match buildSelectIndexes statement schema
      { headers := [], indexes := List.replicate schema.columns.length 0 } with
  | .error failure => return .error failure
  | .ok (selected, selectedCount) =>
  if selectedCount = 0 then return .error (.message []) else
  match resolveWhereIndex statement schema with
  | .error failure => return .error failure
  | .ok whereIndex =>
  match statement.whereClause.filter (·.column == ascii "id") with
  | some condition =>
    executeIndexSelect condition.value schema dirs.dataDir selected selectedCount
  | none =>
    .read fun db =>
      scanSelect statement schema dirs.dataDir db.dataFiles selected selectedCount whereIndex

end DbApi.Execution.SelectArrays
