import DbApi.Library.Lines

namespace DbApi.Common
open Library

/-- A `char line[4096]` buffer holds one byte less and the NUL. -/
def lineBufferSize : Nat := 4096

def lineRoom : Nat := lineBufferSize - 1

def messageSize : Nat := 256

def intMin : Int := -2147483648

def intMax : Int := 2147483647

/-- The copy ends at the first NUL. -/
def copyString (source : Bytes) : Bytes := cString source

def isLineEnding (b : UInt8) : Bool := b == lineFeed || b == carriageReturn

def trimWhitespace (text : Bytes) : Bytes := trimBoth isSpace text

/-- What is left of a line buffer as a string. -/
def stripLineEndings (line : Bytes) : Bytes := (cString line).rdropWhile isLineEnding

def stringsEqualIgnoreCase (left right : Bytes) : Bool :=
  left.map toLower == right.map toLower

def buildPath (dir name extension : Bytes) : Bytes := dir ++ ascii "/" ++ name ++ extension

/-- `strtol` in base 10 must take the whole text and the number must be an `int`;
a number past `long` is refused for `errno`, and lies outside `int` too. -/
def parseIntStrict (text : Bytes) : Option Int :=
  let text := cString text
  let unsigned (digits : Bytes) : Option Nat :=
    if digits ≠ [] ∧ digits.all isDigit then some (digitsValue digits) else none
  let parsed : Option Int :=
    match text.dropWhile isSpace with
    | 45 :: digits => (unsigned digits).map (fun n => -(n : Int))
    | 43 :: digits => (unsigned digits).map (fun n => (n : Int))
    | digits => (unsigned digits).map (fun n => (n : Int))
  parsed.filter (fun value => intMin ≤ value && value ≤ intMax)

def formatSystemError (action path reason : Bytes) : Bytes :=
  clip messageSize (action ++ ascii " '" ++ path ++ ascii "': " ++ reason)

theorem lineRoom_pos : 0 < lineRoom := by decide

theorem strip_no_nul (line : Bytes) : nul ∉ stripLineEndings line :=
  fun h => cString_no_nul line ((List.rdropWhile_prefix _ _).subset h)

theorem strip_newline (line : Bytes) :
    stripLineEndings (line ++ [lineFeed]) = stripLineEndings line := by
  simp only [stripLineEndings, cString]
  rw [List.takeWhile_append]
  split
  · rename_i hall
    have hline : line.takeWhile (· != nul) = line :=
      (List.takeWhile_prefix _).eq_of_length hall
    have hlf : [lineFeed].takeWhile (· != nul) = [lineFeed] := rfl
    rw [hline, hlf, List.rdropWhile_concat_pos _ _ _ rfl]
  · rfl

/-- Text without NUL and without a line ending at its end is left alone. -/
theorem strip_eq_self {line : Bytes} (hn : nul ∉ line)
    (hl : ∀ b ∈ line.getLast?, isLineEnding b = false) : stripLineEndings line = line := by
  rw [stripLineEndings, cString_of_no_nul hn]
  apply List.rdropWhile_eq_self_iff.mpr
  intro hne
  simp [hl _ (List.getLast?_eq_some_getLast hne)]

end DbApi.Common
