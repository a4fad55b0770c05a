import DbApi.Sql.Ast
import DbApi.Sql.Lexer

namespace DbApi.Sql
open Library Common

def tokenTypeName : TokenType → Bytes
  | .identifier => ascii "IDENTIFIER"
  | .string => ascii "STRING"
  | .number => ascii "NUMBER"
  | .star => ascii "STAR"
  | .equals => ascii "EQUALS"
  | .comma => ascii "COMMA"
  | .lparen => ascii "LPAREN"
  | .rparen => ascii "RPAREN"
  | .semicolon => ascii "SEMICOLON"
  | .end => ascii "EOF"

def describeToken (token : Token) : Bytes :=
  clip 128
    (if token.type = .end then ascii "EOF at position " ++ decimalNat token.position
    else if token.text ≠ [] then
      tokenTypeName token.type ++ ascii "(\"" ++ token.text ++ ascii "\") at position " ++
        decimalNat token.position
    else tokenTypeName token.type ++ ascii " at position " ++ decimalNat token.position)

/-- The state is the list of the tokens from `index` on. The array ends with an
end token that only the last rule passes, so there is always a current token. -/
def currentToken : List Token → Token
  | [] => { type := .end, text := [], position := 0 }
  | token :: _ => token

def expectedTokenError (tokens : List Token) (expected : Bytes) : Bytes :=
  let text :=
    if (ascii "expected ").isPrefixOf expected || (ascii "unexpected ").isPrefixOf expected then
      expected
    else ascii "expected " ++ expected
  clip messageSize (text ++ ascii ", got " ++ describeToken (currentToken tokens))

def expectType (type : TokenType) (message : Bytes) (tokens : List Token) :
    Except Bytes (List Token) :=
  if (currentToken tokens).type = type then .ok tokens.tail
  else .error (expectedTokenError tokens message)

def isKeyword (token : Token) (keyword : Bytes) : Bool :=
  token.type == .identifier && stringsEqualIgnoreCase token.text keyword

def expectKeyword (keyword : Bytes) (tokens : List Token) : Except Bytes (List Token) :=
  if isKeyword (currentToken tokens) keyword then .ok tokens.tail
  else .error (expectedTokenError tokens (clip 64 (ascii "keyword " ++ keyword)))

/-- One token whose text is taken over. -/
def parseToken (accepts : Token → Bool) (expected : Bytes) (tokens : List Token) :
    Except Bytes (Bytes × List Token) :=
  if accepts (currentToken tokens) then .ok ((currentToken tokens).text, tokens.tail)
  else .error (expectedTokenError tokens expected)

/-- One such token, and one more after each comma. -/
def parseTokenList (accepts : Token → Bool) (expected : Bytes) :
    List Token → Except Bytes (List Bytes × List Token)
  | [] => .error (expectedTokenError [] expected)
  | token :: rest =>
    if accepts token then
      match rest with
      | [] => .ok ([token.text], [])
      | separator :: rest' =>
        if separator.type = .comma then
          (parseTokenList accepts expected rest').map fun (texts, tokens) =>
            (token.text :: texts, tokens)
        else .ok ([token.text], separator :: rest')
    else .error (expectedTokenError (token :: rest) expected)

def isIdentifierToken (token : Token) : Bool := token.type == .identifier

def isValueToken (token : Token) : Bool :=
  token.type == .string || token.type == .number || token.type == .identifier

def parseIdentifier : List Token → Except Bytes (Bytes × List Token) :=
  parseToken isIdentifierToken (ascii "identifier")

def parseIdentifierList : List Token → Except Bytes (List Bytes × List Token) :=
  parseTokenList isIdentifierToken (ascii "identifier")

def parseValueList : List Token → Except Bytes (List Bytes × List Token) :=
  parseTokenList isValueToken (ascii "SQL value")

def parseConditionValue : List Token → Except Bytes (Bytes × List Token) :=
  parseToken isValueToken (ascii "SQL value in WHERE clause")

def rejectUnsupportedWhereConnector (tokens : List Token) : Except Bytes Unit :=
  let token := currentToken tokens
  if isKeyword token (ascii "AND") || isKeyword token (ascii "OR") then
    .error (clip messageSize
      (ascii "AND/OR conditions are not supported; only a single WHERE condition is allowed, got IDENTIFIER(\""
        ++ token.text ++ ascii "\") at position " ++ decimalNat token.position))
  else .ok ()

def parseInsert (tokens : List Token) : Except Bytes (InsertStatement × List Token) := do
  let tokens ← expectKeyword (ascii "INSERT") tokens
  let tokens ← expectKeyword (ascii "INTO") tokens
  let (tableName, tokens) ← parseIdentifier tokens
  let tokens ← expectType .lparen (ascii "expected '(' after table name") tokens
  let (columns, tokens) ← parseIdentifierList tokens
  let tokens ← expectType .rparen (ascii "expected ')' after column list") tokens
  let tokens ← expectKeyword (ascii "VALUES") tokens
  let tokens ← expectType .lparen (ascii "expected '(' after VALUES") tokens
  let (values, tokens) ← parseValueList tokens
  let tokens ← expectType .rparen (ascii "expected ')' after value list") tokens
  return ({ tableName, columns, values }, tokens)

def parseSelectList (tokens : List Token) : Except Bytes (Option (List Bytes) × List Token) := do
  if (currentToken tokens).type = .star then return (none, tokens.tail)
  let (columns, tokens) ← parseIdentifierList tokens
  return (some columns, tokens)

def parseWhere (tokens : List Token) : Except Bytes (Option WhereClause × List Token) := do
  if isKeyword (currentToken tokens) (ascii "WHERE") then
    let (column, tokens) ← parseIdentifier tokens.tail
    let tokens ← expectType .equals (ascii "expected '=' in WHERE clause") tokens
    let (value, tokens) ← parseConditionValue tokens
    rejectUnsupportedWhereConnector tokens
    return (some { column, value }, tokens)
  else return (none, tokens)

def parseSelect (tokens : List Token) : Except Bytes (SelectStatement × List Token) := do
  let tokens ← expectKeyword (ascii "SELECT") tokens
  let (columns, tokens) ← parseSelectList tokens
  let tokens ← expectKeyword (ascii "FROM") tokens
  let (tableName, tokens) ← parseIdentifier tokens
  let (whereClause, tokens) ← parseWhere tokens
  return ({ tableName, columns := columns.getD [], selectAll := columns.isNone, whereClause },
    tokens)

def parseStatement (tokens : List Token) : Except Bytes Statement := do
  let (statement, tokens) ←
    if isKeyword (currentToken tokens) (ascii "INSERT") then
      (parseInsert tokens).map fun (statement, tokens) => (Statement.insert statement, tokens)
    else if isKeyword (currentToken tokens) (ascii "SELECT") then
      (parseSelect tokens).map fun (statement, tokens) => (Statement.select statement, tokens)
    else
      .error (clip messageSize (ascii "only INSERT and SELECT are supported, got " ++
        describeToken (currentToken tokens)))
  let tokens ← expectType .semicolon (ascii "expected ';' at end of SQL statement") tokens
  let _ ← expectType .end (ascii "unexpected tokens after SQL statement") tokens
  return statement

end DbApi.Sql
