import DbApi.Common.Util

namespace DbApi.Storage
open Library Common

def quote : UInt8 := 34
def comma : UInt8 := 44

/-- The locals of `csv_parse_line`; no buffer yet means the start of a field. -/
structure CsvState where
  inQuotes : Bool
  justClosedQuote : Bool
  buffer : Option Bytes
  fields : List Bytes
deriving DecidableEq

def CsvState.start (fields : List Bytes) : CsvState :=
  { inQuotes := false, justClosedQuote := false, buffer := none, fields }

def CsvState.appendCharacter (s : CsvState) (value : UInt8) : CsvState :=
  { s with buffer := some (s.buffer.getD [] ++ [value]) }

/-- At a comma or at the end of the line. Only a field that was not quoted is trimmed. -/
def CsvState.endField (s : CsvState) : CsvState :=
  let buffer := s.buffer.getD []
  .start (s.fields ++ [if s.justClosedQuote then buffer else trimWhitespace buffer])

def csvScan : Bytes → CsvState → Except Bytes (List Bytes)
  | [], s =>
    if s.inQuotes then .error (ascii "unterminated quoted CSV field")
    else .ok s.endField.fields
  | current :: rest, s =>
    if s.inQuotes then
      if current = quote then
        match rest with
        | [] => csvScan [] { s with inQuotes := false, justClosedQuote := true }
        | next :: rest' =>
          if next = quote then csvScan rest' (s.appendCharacter quote)
          else csvScan (next :: rest') { s with inQuotes := false, justClosedQuote := true }
      else csvScan rest (s.appendCharacter current)
    else if current = comma then csvScan rest s.endField
    else if current = quote ∧ s.buffer = none then csvScan rest { s with inQuotes := true }
    else if s.justClosedQuote ∧ current ≠ space ∧ current ≠ tab then
      .error (ascii "unexpected character after quoted CSV field")
    else if isLineEnding current then csvScan rest s
    else csvScan rest (s.appendCharacter current)

theorem csvScan_unquoted {s : CsvState} (hs : s.inQuotes = false) (current : UInt8)
    (rest : Bytes) :
    csvScan (current :: rest) s =
      if current = comma then csvScan rest s.endField
      else if current = quote ∧ s.buffer = none then csvScan rest { s with inQuotes := true }
      else if s.justClosedQuote ∧ current ≠ space ∧ current ≠ tab then
        .error (ascii "unexpected character after quoted CSV field")
      else if isLineEnding current then csvScan rest s
      else csvScan rest (s.appendCharacter current) := by
  rw [csvScan.eq_def]
  simp [hs]

theorem csvScan_inQuotes {s : CsvState} (hs : s.inQuotes = true) {current : UInt8}
    (hc : current ≠ quote) (rest : Bytes) :
    csvScan (current :: rest) s = csvScan rest (s.appendCharacter current) := by
  rw [csvScan.eq_def]
  simp [hs, hc]

theorem csvScan_escapedQuote {s : CsvState} (hs : s.inQuotes = true) (rest : Bytes) :
    csvScan (quote :: quote :: rest) s = csvScan rest (s.appendCharacter quote) := by
  rw [csvScan.eq_def]
  simp [hs]

theorem csvScan_closingQuote {s : CsvState} (hs : s.inQuotes = true) {rest : Bytes}
    (hr : quote ∉ rest.head?) :
    csvScan (quote :: rest) s =
      csvScan rest { s with inQuotes := false, justClosedQuote := true } := by
  cases rest with
  | nil => rw [csvScan.eq_def]; simp [hs]
  | cons b rest =>
    have hb : b ≠ quote := fun h => hr (by simp [h])
    rw [csvScan.eq_def]
    simp [hs, hb]

def csvParseLine (line : Bytes) : Except Bytes (List Bytes) :=
  csvScan (cString line) (.start [])

/-- The bytes that make the writer quote a field. -/
def needsQuotes (value : Bytes) : Bool :=
  value.any (fun b => b == quote || b == comma || isLineEnding b)

def doubleQuotes (value : Bytes) : Bytes :=
  value.flatMap (fun b => if b = quote then [quote, quote] else [b])

def csvEscapeField (value : Bytes) : Bytes :=
  let value := cString value
  if value = [] then [quote, quote]
  else if needsQuotes value then quote :: doubleQuotes value ++ [quote]
  else value

/-- The bytes the loop of `append_row_csv` writes. -/
def encodeRow : List Bytes → Bytes
  | [] => []
  | [value] => csvEscapeField value
  | value :: next :: rest => csvEscapeField value ++ comma :: encodeRow (next :: rest)

end DbApi.Storage
