import DbApi.Storage.Storage

namespace DbApi.Storage
open Library Common Lines

structure Schema where
  tableName : Bytes
  storageName : Bytes
  columns : List Bytes
deriving DecidableEq

inductive SchemaEntry where
  | regular (content : Bytes)
  | directory

/-- The two directories an execution works on. The schema directory is only
read; its entries come in the order of `readdir`. -/
structure Directories where
  schemaDir : Bytes
  schemaFiles : List (Bytes × SchemaEntry)
  dataDir : Bytes

/-- `NAME_MAX`; a longer file name is refused with `ENAMETOOLONG`. -/
def nameMax : Nat := 255

def metaExtension : Bytes := ascii ".meta"

def hasMetaExtension (filename : Bytes) : Bool := metaExtension.isSuffixOf filename

/-- The basename is the name of the directory entry the path was built from. -/
def extractStorageName (filename : Bytes) : Bytes :=
  if hasMetaExtension filename then filename.take (filename.length - 5) else filename

/-- A directory opens for reading, but no line can be read from it. -/
def SchemaEntry.lines : SchemaEntry → List Bytes
  | .regular content => (fgetsAll lineRoom 0 content).map Prod.snd
  | .directory => []

/-- A trimmed line cut at its first `=`, the value trimmed again. -/
def splitSetting (trimmed : Bytes) : Option (Bytes × Bytes) :=
  if 61 ∈ trimmed then
    some (trimmed.takeWhile (· != 61), trimWhitespace ((trimmed.dropWhile (· != 61)).drop 1))
  else none

def trimmedLine (line : Bytes) : Bytes := trimWhitespace (stripLineEndings line)

def schemaPath (dirs : Directories) (filename : Bytes) : Bytes :=
  dirs.schemaDir ++ ascii "/" ++ filename

def schemaOpenError (dirs : Directories) (filename reason : Bytes) : Bytes :=
  formatSystemError (ascii "failed to open schema meta file") (schemaPath dirs filename) reason

/-- The error of an entry that is no regular file shows the `errno` that the
failed `fopen` of the caller left behind. -/
def fileDeclaresTable (dirs : Directories) (filename : Bytes) (entry : SchemaEntry)
    (tableName : Bytes) : Except Bytes Bool :=
  match entry with
  | .directory => .error (schemaOpenError dirs filename enoent)
  | .regular _ =>
    .ok (entry.lines.any (fun line => splitSetting (trimmedLine line) == some (ascii "table", tableName)))

/-- The search through the directory for an alias declaration. -/
def findDeclaration (dirs : Directories) (tableName : Bytes) :
    List (Bytes × SchemaEntry) → Except Bytes (Bytes × SchemaEntry)
  | [] => .error (ascii "schema meta file does not exist")
  | (filename, entry) :: rest =>
    if hasMetaExtension filename then
      match fileDeclaresTable dirs filename entry tableName with
      | .error message => .error message
      | .ok true => .ok (filename, entry)
      | .ok false => findDeclaration dirs tableName rest
    else findDeclaration dirs tableName rest

def findSchemaPath (dirs : Directories) (tableName : Bytes) :
    Except Bytes (Bytes × SchemaEntry) :=
  let filename := tableName ++ metaExtension
  match dirs.schemaFiles.lookup filename with
  | some entry => .ok (filename, entry)
  | none =>
    if nameMax < filename.length then
      .error (schemaOpenError dirs filename (ascii "File name too long"))
    else findDeclaration dirs tableName dirs.schemaFiles

/-- The fields of the schema read so far. -/
structure MetaState where
  tableName : Option Bytes
  columns : List Bytes

def readMetaLines : List Bytes → MetaState → Except Bytes MetaState
  | [], s => .ok s
  | line :: rest, s =>
    let trimmed := trimmedLine line
    if trimmed = [] then readMetaLines rest s
    else
      match splitSetting trimmed with
      | none => .error (ascii "invalid schema meta format")
      | some (key, value) =>
        if key = ascii "table" then readMetaLines rest { s with tableName := some value }
        else if key = ascii "columns" then
          match csvParseLine value with
          | .error message => .error message
          | .ok columns => readMetaLines rest { s with columns }
        else readMetaLines rest s

def schemaFindColumn (schema : Schema) (columnName : Bytes) : Option Nat :=
  schema.columns.findIdx? (· == columnName)

def schemaHasReservedIdColumn (schema : Schema) : Bool :=
  (schemaFindColumn schema (ascii "id")).isSome

/-- The part of `load_schema` that reads the schema directory only. -/
def readSchema (dirs : Directories) (tableName : Bytes) : Except Bytes Schema :=
  match findSchemaPath dirs tableName with
  | .error message => .error message
  | .ok (filename, entry) =>
    match readMetaLines entry.lines { tableName := none, columns := [] } with
    | .error message => .error message
    | .ok s =>
      match s.tableName with
      | none => .error (ascii "schema meta file is missing required fields")
      | some declared =>
        let schema : Schema :=
          { tableName := declared, storageName := extractStorageName filename, columns := s.columns }
        if schema.columns = [] then .error (ascii "schema meta file is missing required fields")
        else if schemaHasReservedIdColumn schema then
          .error (ascii "reserved column name 'id' is not allowed in user schema")
        else if schema.tableName ≠ tableName ∧ schema.storageName ≠ tableName then
          .error (ascii "schema table name does not match requested table")
        else .ok schema

def validateCsvHeader (dataDir : Bytes) (files : DataFiles) (schema : Schema) :
    Except Bytes Unit :=
  match files schema.storageName with
  | none =>
    .error (formatSystemError (ascii "failed to open table data file")
      (csvPath dataDir schema.storageName) enoent)
  | some content =>
    match fgets lineRoom content with
    | [] => .error (ascii "table data file is empty")
    | line =>
      match csvParseLine (stripLineEndings line) with
      | .error message => .error message
      | .ok header =>
        if header.length ≠ schema.columns.length then
          .error (ascii "CSV header does not match schema column count")
        else if header ≠ schema.columns then
          .error (ascii "CSV header does not match schema column order")
        else .ok ()

def loadSchema (dirs : Directories) (files : DataFiles) (tableName : Bytes) :
    Except Bytes Schema :=
  match readSchema dirs tableName with
  | .error message => .error message
  | .ok schema =>
    match validateCsvHeader dirs.dataDir files schema with
    | .error message => .error message
    | .ok () => .ok schema

theorem findColumn_none {schema : Schema} {column : Bytes} :
    schemaFindColumn schema column = none ↔ column ∉ schema.columns := by
  rw [schemaFindColumn, List.findIdx?_eq_none_iff]
  constructor
  · intro h hm
    simpa using h column hm
  · intro h other hm
    rw [beq_eq_false_iff_ne]
    rintro rfl
    exact h hm

theorem findColumn_some {schema : Schema} {column : Bytes} {index : Nat}
    (h : schemaFindColumn schema column = some index) : schema.columns[index]? = some column := by
  obtain ⟨hi, hc, _⟩ := List.findIdx?_eq_some_iff_getElem.mp h
  rw [List.getElem?_eq_getElem hi, eq_of_beq hc]

theorem findColumn_inj {schema : Schema} {a b : Bytes} {index : Nat}
    (ha : schemaFindColumn schema a = some index) (hb : schemaFindColumn schema b = some index) :
    a = b := by
  have h := (findColumn_some ha).symm.trans (findColumn_some hb)
  exact Option.some.inj h

theorem findColumn_getElem {schema : Schema} (hd : schema.columns.Nodup) {index : Nat}
    {column : Bytes} (hi : schema.columns[index]? = some column) :
    schemaFindColumn schema column = some index := by
  cases hf : schemaFindColumn schema column with
  | none => exact absurd (List.mem_of_getElem? hi) (findColumn_none.mp hf)
  | some found =>
    have hfound := findColumn_some hf
    have hlt := (List.getElem?_eq_some_iff.mp hfound).1
    rw [(List.getElem?_inj hlt hd).mp (hfound.trans hi.symm)]

end DbApi.Storage
