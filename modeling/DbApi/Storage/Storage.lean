import DbApi.Storage.Csv

namespace DbApi.Storage
open Library Common Lines

/-- The regular files `<name>.csv` of the data directory, by name. -/
abbrev DataFiles := Bytes → Option Bytes

def enoent : Bytes := ascii "No such file or directory"

def csvPath (dataDir tableName : Bytes) : Bytes := buildPath dataDir tableName (ascii ".csv")

def openTableFile (dataDir : Bytes) (files : DataFiles) (tableName : Bytes) :
    Except Bytes Bytes :=
  match files tableName with
  | some content => .ok content
  | none =>
    .error (formatSystemError (ascii "failed to open table file") (csvPath dataDir tableName)
      enoent)

/-- Where the write of `append_row_csv` goes: the end of the file as it was
found, the line separator to put there first, and the offset of the new row. -/
structure AppendPoint where
  fileEnd : Nat
  separator : Bytes
  rowOffset : Nat

/-- A file that does not end a line gets a line feed before the new row. -/
def separatorAfter (content : Bytes) : Bytes :=
  match content.getLast? with
  | none => []
  | some lastCharacter => if lastCharacter = lineFeed then [] else [lineFeed]

/-- The part of `append_row_csv` up to `row_offset = ftell(file)`. -/
def findAppendPoint (dataDir : Bytes) (files : DataFiles) (tableName : Bytes) :
    Except Bytes AppendPoint :=
  match openTableFile dataDir files tableName with
  | .error message => .error message
  | .ok content =>
    let separator := separatorAfter content
    .ok { fileEnd := content.length, separator, rowOffset := content.length + separator.length }

/-- A write through a stream positioned at `position`. -/
def writeAt (position : Nat) (bytes content : Bytes) : Bytes :=
  content.take position ++ bytes ++ content.drop (position + bytes.length)

/-- The separator and the fields, flushed by `fclose`. -/
def writeRow (files : DataFiles) (tableName : Bytes) (point : AppendPoint)
    (rowValues : List Bytes) : DataFiles :=
  Function.update files tableName
    ((files tableName).map (writeAt point.fileEnd (point.separator ++ encodeRow rowValues)))

def readRowAtOffsetCsv (dataDir : Bytes) (files : DataFiles) (tableName : Bytes)
    (rowOffset : Nat) : Except Bytes (List Bytes) :=
  match openTableFile dataDir files tableName with
  | .error message => .error message
  | .ok content =>
    match fgets lineRoom (content.drop rowOffset) with
    | [] => .error (ascii "failed to read row at offset")
    | line =>
      let text := stripLineEndings line
      if text = [] then .error (ascii "row at offset is empty") else csvParseLine text

/-- The loop of `scan_rows_csv` over the reads after the header. -/
def scanRows {γ : Type} (visitor : List Bytes → Nat → γ → Except Bytes γ) :
    List (Nat × Bytes) → γ → Except Bytes γ
  | [], context => .ok context
  | (rowOffset, line) :: rest, context =>
    let text := stripLineEndings line
    if text = [] then scanRows visitor rest context
    else
      match csvParseLine text with
      | .error message => .error message
      | .ok fields =>
        match visitor fields rowOffset context with
        | .error message => .error message
        | .ok context => scanRows visitor rest context

def scanRowsCsv {γ : Type} (dataDir : Bytes) (files : DataFiles) (tableName : Bytes)
    (visitor : List Bytes → Nat → γ → Except Bytes γ) (context : γ) : Except Bytes γ :=
  match openTableFile dataDir files tableName with
  | .error message => .error message
  | .ok content =>
    match fgetsAll lineRoom 0 content with
    | [] => .error (ascii "table data file is empty")
    | _ :: rows => scanRows visitor rows context

end DbApi.Storage
