import DbApi.Common.Util

namespace DbApi.Sql
open Library Common

inductive TokenType where
  | identifier
  | string
  | number
  | star
  | equals
  | comma
  | lparen
  | rparen
  | semicolon
  | end
deriving DecidableEq

structure Token where
  type : TokenType
  text : Bytes
  position : Nat
deriving DecidableEq

def apostrophe : UInt8 := 39

def isIdentifierStart (value : UInt8) : Bool :=
  isAlpha value || value == 95 || isDigit value || 128 ≤ value

def isIdentifierContinue (value : UInt8) : Bool :=
  isAlnum value || value == 95 || 128 ≤ value

theorem isIdentifierStart_eq (value : UInt8) :
    isIdentifierStart value = isIdentifierContinue value := by
  simp only [isIdentifierStart, isIdentifierContinue, isAlnum]
  cases isAlpha value <;> cases value == 95 <;> simp

def symbolType (value : UInt8) : Option TokenType :=
  if value = 42 then some .star
  else if value = 61 then some .equals
  else if value = 44 then some .comma
  else if value = 40 then some .lparen
  else if value = 41 then some .rparen
  else if value = 59 then some .semicolon
  else none

def wordType (word : Bytes) : TokenType :=
  if word.head?.any isDigit then .number else .identifier

/-- What the loop of `lex_string` leaves: the buffer, the rest of the input and
the last byte it passed. -/
structure StringScan where
  buffer : Bytes
  rest : Bytes
  last : UInt8

/-- The loop of `lex_string`, after `last`. -/
def scanString (last : UInt8) (buffer : Bytes) : Bytes → StringScan
  | [] => { buffer, rest := [], last }
  | current :: rest =>
    if current = apostrophe then
      match rest with
      | [] => { buffer, rest := [], last := apostrophe }
      | next :: rest' =>
        if next = apostrophe then scanString apostrophe (buffer ++ [apostrophe]) rest'
        else { buffer, rest := next :: rest', last := apostrophe }
    else scanString current (buffer ++ [current]) rest

theorem scanString_rest (last : UInt8) (buffer input : Bytes) :
    (scanString last buffer input).rest.length ≤ input.length := by
  induction h : input.length using Nat.strongRecOn generalizing last buffer input with
  | ind n ih =>
    unfold scanString
    cases input with
    | nil => simp
    | cons current rest =>
      simp only [List.length_cons] at h
      dsimp only
      split
      · cases rest with
        | nil => simp
        | cons next rest =>
          simp only [List.length_cons] at h
          dsimp only
          split
          · have := ih rest.length (by omega) apostrophe (buffer ++ [apostrophe]) rest rfl
            omega
          · simp
            omega
      · have := ih rest.length (by omega) current (buffer ++ [current]) rest rfl
        omega

/-- The rest of `lex_sql` from `position` on. -/
def lexFrom (position : Nat) : Bytes → Except Bytes (List Token)
  | [] => .ok [{ type := .end, text := [], position }]
  | current :: rest =>
    if isSpace current then lexFrom (position + 1) rest
    else if isIdentifierStart current then
      let word := current :: rest.takeWhile isIdentifierContinue
      (lexFrom (position + word.length) (rest.dropWhile isIdentifierContinue)).map
        ({ type := wordType word, text := word, position } :: ·)
    else if current = apostrophe then
      let scan := scanString apostrophe [] rest
      if scan.last ≠ apostrophe then
        .error (ascii "unterminated string literal at position " ++ decimalNat position)
      else
        (lexFrom (position + 1 + (rest.length - scan.rest.length)) scan.rest).map
          ({ type := .string, text := scan.buffer, position } :: ·)
    else
      match symbolType current with
      | some type =>
        (lexFrom (position + 1) rest).map ({ type, text := [current], position } :: ·)
      | none =>
        .error (ascii "unexpected character '" ++ [current] ++ ascii "' at position " ++
          decimalNat position)
termination_by input => input.length
decreasing_by
  · simp
  · have := (List.dropWhile_suffix isIdentifierContinue (l := rest)).length_le
    simp
    omega
  · have := scanString_rest apostrophe [] rest
    simp
    omega
  · simp

def lexSql (input : Bytes) : Except Bytes (List Token) := lexFrom 0 (cString input)

end DbApi.Sql
