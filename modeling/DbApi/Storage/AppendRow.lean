import DbApi.Storage.Storage

namespace DbApi.Storage
open Library Common

/-- What the calls for one field come to. A write that fails has still put the
first bytes of its text, as many as its number says. -/
structure FieldOutcomes where
  escape : Bool
  separator : Option Nat
  text : Option Nat

/-- What the calls of `append_row_csv` come to. A close that fails leaves the first
bytes of the stream in the file, as many as its number says. -/
structure StdioOutcomes where
  fopen : Option Bytes
  seekEnd : Bool
  tellSize : Bool
  seekLast : Bool
  getLast : Bool
  seekBack : Bool
  lineSeparator : Option Nat
  tellOffset : Bool
  fields : Nat → FieldOutcomes
  fclose : Option Nat

structure StorageResult where
  ok : Bool
  affectedRows : Nat
  rowOffset : Int
  message : Bytes
deriving DecidableEq

/-- An exit of `append_row_csv` after the file was opened: what the stream was
given so far, and what the result says. -/
structure AppendFailure where
  stream : Bytes
  rowOffset : Int
  message : Bytes

/-- `fputc` and `fputs`. -/
def put (outcome : Option Nat) (bytes : Bytes) (rowOffset : Int) (message stream : Bytes) :
    Except AppendFailure Bytes :=
  match outcome with
  | none => .ok (stream ++ bytes)
  | some n => .error { stream := stream ++ bytes.take n, rowOffset, message }

/-- A failure before there is a row offset. -/
def earlyFailure {α : Type} (stream message : Bytes) : Except AppendFailure α :=
  .error { stream, rowOffset := -1, message }

/-- The calls that look at the end of the file. -/
def inspectEnd (outcomes : StdioOutcomes) (content : Bytes) : Except AppendFailure Unit :=
  if outcomes.seekEnd = false then earlyFailure [] (ascii "failed to seek table file")
  else if outcomes.tellSize = false then earlyFailure [] (ascii "failed to measure table file")
  else if content ≠ [] ∧ outcomes.seekLast = false then
    earlyFailure [] (ascii "failed to inspect table file")
  else if content ≠ [] ∧ outcomes.seekBack = false then
    earlyFailure [] (ascii "failed to rewind table file")
  else .ok ()

/-- The byte that `fgetc` returns; a failed call returns `EOF`. -/
def lastCharacter (outcomes : StdioOutcomes) (content : Bytes) : Option UInt8 :=
  if outcomes.getLast then content.getLast? else none

def putLineSeparator (outcomes : StdioOutcomes) (content : Bytes) : Except AppendFailure Bytes :=
  if content ≠ [] ∧ lastCharacter outcomes content ≠ some lineFeed then
    put outcomes.lineSeparator [lineFeed] (-1) (ascii "failed to write line separator") []
  else .ok []

/-- From the opened file to `row_offset = ftell(file)`: the stream with the line
separator, and the offset. -/
def seekAppendPoint (outcomes : StdioOutcomes) (content : Bytes) :
    Except AppendFailure (Bytes × Int) := do
  inspectEnd outcomes content
  let stream ← putLineSeparator outcomes content
  if outcomes.tellOffset = false then
    earlyFailure stream (ascii "failed to determine row offset")
  else .ok (stream, (content.length + stream.length : Nat))

/-- The body of the loop over the fields. -/
def putField (outcomes : FieldOutcomes) (rowOffset : Int) (index : Nat) (value stream : Bytes) :
    Except AppendFailure Bytes :=
  if outcomes.escape = false then
    .error { stream, rowOffset, message := ascii "out of memory while writing CSV row" }
  else do
    let stream ←
      if 0 < index then
        put outcomes.separator [comma] rowOffset (ascii "failed to write CSV separator") stream
      else .ok stream
    put outcomes.text (csvEscapeField value) rowOffset (ascii "failed to write CSV field") stream

def putFields (outcomes : Nat → FieldOutcomes) (rowOffset : Int) :
    Nat → List Bytes → Bytes → Except AppendFailure Bytes
  | _, [], stream => .ok stream
  | index, value :: rest, stream => do
    let stream ← putField (outcomes index) rowOffset index value stream
    putFields outcomes rowOffset (index + 1) rest stream

def putRow (outcomes : StdioOutcomes) (content : Bytes) (rowValues : List Bytes) :
    Except AppendFailure (Bytes × Int) := do
  let (stream, rowOffset) ← seekAppendPoint outcomes content
  let stream ← putFields outcomes.fields rowOffset 0 rowValues stream
  return (stream, rowOffset)

/-- What `fclose` leaves of a stream in the file. -/
def StdioOutcomes.flush (outcomes : StdioOutcomes) (stream : Bytes) : Bytes :=
  match outcomes.fclose with
  | none => stream
  | some n => stream.take n

def appendRowCsv (outcomes : StdioOutcomes) (dataDir : Bytes) (files : DataFiles)
    (tableName : Bytes) (rowValues : List Bytes) : StorageResult × DataFiles :=
  let closed (content stream : Bytes) : DataFiles :=
    Function.update files tableName (some (content ++ outcomes.flush stream))
  let failed (rowOffset : Int) (message : Bytes) : StorageResult :=
    { ok := false, affectedRows := 0, rowOffset, message }
  match openTableFile dataDir files tableName with
  | .error message => (failed (-1) message, files)
  | .ok content =>
    match outcomes.fopen with
    | some reason =>
      (failed (-1) (formatSystemError (ascii "failed to open table file")
        (csvPath dataDir tableName) reason), files)
    | none =>
      match putRow outcomes content rowValues with
      | .error failure => (failed failure.rowOffset failure.message, closed content failure.stream)
      | .ok (stream, rowOffset) =>
        ({ ok := true, affectedRows := 1, rowOffset, message := ascii "INSERT 1" },
          closed content stream)

end DbApi.Storage
