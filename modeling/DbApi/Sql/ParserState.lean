import DbApi.Sql.Parser

namespace DbApi.Sql.ParserState
open Library Common

/-- How a parse over the token array stops: with an error message, or at a read
past the end of the array. -/
inductive ParseFailure where
  | message (text : Bytes)
  | outOfBounds (index : Nat)
deriving DecidableEq

def currentToken (tokens : List Token) (index : Nat) : Except ParseFailure Token :=
  match tokens[index]? with
  | some token => .ok token
  | none => .error (.outOfBounds index)

def setExpectedTokenError {α : Type} (expected : Bytes) (tokens : List Token) (index : Nat) :
    Except ParseFailure α := do
  let _ ← currentToken tokens index
  .error (.message (expectedTokenError (tokens.drop index) expected))

def expectType (type : TokenType) (message : Bytes) (tokens : List Token) (index : Nat) :
    Except ParseFailure Nat := do
  let token ← currentToken tokens index
  if token.type = type then .ok (index + 1) else setExpectedTokenError message tokens index

def expectKeyword (keyword : Bytes) (tokens : List Token) (index : Nat) :
    Except ParseFailure Nat := do
  let token ← currentToken tokens index
  if isKeyword token keyword then .ok (index + 1)
  else setExpectedTokenError (clip 64 (ascii "keyword " ++ keyword)) tokens index

def parseToken (accepts : Token → Bool) (expected : Bytes) (tokens : List Token) (index : Nat) :
    Except ParseFailure (Bytes × Nat) := do
  let token ← currentToken tokens index
  if accepts token then .ok (token.text, index + 1)
  else setExpectedTokenError expected tokens index

def parseTokenList (accepts : Token → Bool) (expected : Bytes) (tokens : List Token)
    (index : Nat) : Except ParseFailure (List Bytes × Nat) :=
  match hi : tokens[index]? with
  | none => .error (.outOfBounds index)
  | some token =>
    if accepts token then
      match tokens[index + 1]? with
      | none => .error (.outOfBounds (index + 1))
      | some separator =>
        if separator.type = .comma then
          (parseTokenList accepts expected tokens (index + 2)).map fun (texts, next) =>
            (token.text :: texts, next)
        else .ok ([token.text], index + 1)
    else setExpectedTokenError expected tokens index
termination_by tokens.length - index
decreasing_by
  have := (List.getElem?_eq_some_iff.mp hi).1
  omega

def rejectUnsupportedWhereConnector (tokens : List Token) (index : Nat) :
    Except ParseFailure Unit := do
  let _ ← currentToken tokens index
  match Sql.rejectUnsupportedWhereConnector (tokens.drop index) with
  | .ok () => .ok ()
  | .error message => .error (.message message)

def parseIdentifier : List Token → Nat → Except ParseFailure (Bytes × Nat) :=
  parseToken isIdentifierToken (ascii "identifier")

def parseIdentifierList : List Token → Nat → Except ParseFailure (List Bytes × Nat) :=
  parseTokenList isIdentifierToken (ascii "identifier")

def parseValueList : List Token → Nat → Except ParseFailure (List Bytes × Nat) :=
  parseTokenList isValueToken (ascii "SQL value")

def parseConditionValue : List Token → Nat → Except ParseFailure (Bytes × Nat) :=
  parseToken isValueToken (ascii "SQL value in WHERE clause")

def parseInsert (tokens : List Token) (index : Nat) :
    Except ParseFailure (InsertStatement × Nat) := do
  let index ← expectKeyword (ascii "INSERT") tokens index
  let index ← expectKeyword (ascii "INTO") tokens index
  let (tableName, index) ← parseIdentifier tokens index
  let index ← expectType .lparen (ascii "expected '(' after table name") tokens index
  let (columns, index) ← parseIdentifierList tokens index
  let index ← expectType .rparen (ascii "expected ')' after column list") tokens index
  let index ← expectKeyword (ascii "VALUES") tokens index
  let index ← expectType .lparen (ascii "expected '(' after VALUES") tokens index
  let (values, index) ← parseValueList tokens index
  let index ← expectType .rparen (ascii "expected ')' after value list") tokens index
  return ({ tableName, columns, values }, index)

def parseSelectList (tokens : List Token) (index : Nat) :
    Except ParseFailure (Option (List Bytes) × Nat) := do
  let token ← currentToken tokens index
  if token.type = .star then return (none, index + 1)
  let (columns, index) ← parseIdentifierList tokens index
  return (some columns, index)

def parseWhere (tokens : List Token) (index : Nat) :
    Except ParseFailure (Option WhereClause × Nat) := do
  let token ← currentToken tokens index
  if isKeyword token (ascii "WHERE") then
    let (column, index) ← parseIdentifier tokens (index + 1)
    let index ← expectType .equals (ascii "expected '=' in WHERE clause") tokens index
    let (value, index) ← parseConditionValue tokens index
    rejectUnsupportedWhereConnector tokens index
    return (some { column, value }, index)
  else return (none, index)

def parseSelect (tokens : List Token) (index : Nat) :
    Except ParseFailure (SelectStatement × Nat) := do
  let index ← expectKeyword (ascii "SELECT") tokens index
  let (columns, index) ← parseSelectList tokens index
  let index ← expectKeyword (ascii "FROM") tokens index
  let (tableName, index) ← parseIdentifier tokens index
  let (whereClause, index) ← parseWhere tokens index
  return ({ tableName, columns := columns.getD [], selectAll := columns.isNone, whereClause }, index)

def parseStatement (tokens : List Token) : Except ParseFailure Statement := do
  let token ← currentToken tokens 0
  let (statement, index) ←
    if isKeyword token (ascii "INSERT") then
      (parseInsert tokens 0).map fun (statement, index) => (Statement.insert statement, index)
    else if isKeyword token (ascii "SELECT") then
      (parseSelect tokens 0).map fun (statement, index) => (Statement.select statement, index)
    else
      .error (.message (clip messageSize (ascii "only INSERT and SELECT are supported, got " ++
        describeToken token)))
  let index ← expectType .semicolon (ascii "expected ';' at end of SQL statement") tokens index
  let _ ← expectType .end (ascii "unexpected tokens after SQL statement") tokens index
  return statement

end DbApi.Sql.ParserState
