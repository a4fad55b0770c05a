import DbApi.Proofs.SelectAnswer
import DbApi.Sql.Parser

namespace DbApi.Proofs.Quotes
open Library Common Storage Index Sql Execution IndexView SelectAnswer

/-- A message with all of its text, and how much of it the buffers keep. -/
structure Quote where
  kept : Nat
  text : Bytes

def Quote.shown (quote : Quote) : Bytes := quote.text.take quote.kept

/-- The message does not end inside a character. -/
def Quote.EndsOnCharacter (quote : Quote) : Prop :=
  ∀ b ∈ (cString quote.text)[quote.kept]?, b.IsUTF8FirstByte

def messageQuote (text : Bytes) : Quote := { kept := messageSize - 1, text }

section Parser

/-- `describe_token` without its buffer. -/
def tokenDescription (token : Token) : Bytes :=
  if token.type = .end then ascii "EOF at position " ++ decimalNat token.position
  else if token.text ≠ [] then
    tokenTypeName token.type ++ ascii "(\"" ++ token.text ++ ascii "\") at position " ++
      decimalNat token.position
  else tokenTypeName token.type ++ ascii " at position " ++ decimalNat token.position

/-- A description behind a text, in a buffer inside a buffer. -/
def tokenQuote (front : Bytes) (token : Token) : Quote :=
  { kept := min (messageSize - 1) (front.length + 127), text := front ++ tokenDescription token }

/-! The parser once more, with these messages. -/

def expectedTokenQuote (tokens : List Token) (expected : Bytes) : Quote :=
  let text :=
    if (ascii "expected ").isPrefixOf expected || (ascii "unexpected ").isPrefixOf expected then
      expected
    else ascii "expected " ++ expected
  tokenQuote (text ++ ascii ", got ") (currentToken tokens)

def expectType (type : TokenType) (message : Bytes) (tokens : List Token) :
    Except Quote (List Token) :=
  if (currentToken tokens).type = type then .ok tokens.tail
  else .error (expectedTokenQuote tokens message)

def expectKeyword (keyword : Bytes) (tokens : List Token) : Except Quote (List Token) :=
  if isKeyword (currentToken tokens) keyword then .ok tokens.tail
  else .error (expectedTokenQuote tokens (clip 64 (ascii "keyword " ++ keyword)))

def parseToken (accepts : Token → Bool) (expected : Bytes) (tokens : List Token) :
    Except Quote (Bytes × List Token) :=
  if accepts (currentToken tokens) then .ok ((currentToken tokens).text, tokens.tail)
  else .error (expectedTokenQuote tokens expected)

def parseTokenList (accepts : Token → Bool) (expected : Bytes) :
    List Token → Except Quote (List Bytes × List Token)
  | [] => .error (expectedTokenQuote [] expected)
  | token :: rest =>
    if accepts token then
      match rest with
      | [] => .ok ([token.text], [])
      | separator :: rest' =>
        if separator.type = .comma then
          (parseTokenList accepts expected rest').map fun (texts, tokens) =>
            (token.text :: texts, tokens)
        else .ok ([token.text], separator :: rest')
    else .error (expectedTokenQuote (token :: rest) expected)

def rejectUnsupportedWhereConnector (tokens : List Token) : Except Quote Unit :=
  let token := currentToken tokens
  if isKeyword token (ascii "AND") || isKeyword token (ascii "OR") then
    .error (messageQuote
      (ascii "AND/OR conditions are not supported; only a single WHERE condition is allowed, got IDENTIFIER(\""
        ++ token.text ++ ascii "\") at position " ++ decimalNat token.position))
  else .ok ()

def parseInsert (tokens : List Token) : Except Quote (InsertStatement × List Token) := do
  let tokens ← expectKeyword (ascii "INSERT") tokens
  let tokens ← expectKeyword (ascii "INTO") tokens
  let (tableName, tokens) ← parseToken isIdentifierToken (ascii "identifier") tokens
  let tokens ← expectType .lparen (ascii "expected '(' after table name") tokens
  let (columns, tokens) ← parseTokenList isIdentifierToken (ascii "identifier") tokens
  let tokens ← expectType .rparen (ascii "expected ')' after column list") tokens
  let tokens ← expectKeyword (ascii "VALUES") tokens
  let tokens ← expectType .lparen (ascii "expected '(' after VALUES") tokens
  let (values, tokens) ← parseTokenList isValueToken (ascii "SQL value") tokens
  let tokens ← expectType .rparen (ascii "expected ')' after value list") tokens
  return ({ tableName, columns, values }, tokens)

def parseSelectList (tokens : List Token) : Except Quote (Option (List Bytes) × List Token) := do
  if (currentToken tokens).type = .star then return (none, tokens.tail)
  let (columns, tokens) ← parseTokenList isIdentifierToken (ascii "identifier") tokens
  return (some columns, tokens)

def parseWhere (tokens : List Token) : Except Quote (Option WhereClause × List Token) := do
  if isKeyword (currentToken tokens) (ascii "WHERE") then
    let (column, tokens) ← parseToken isIdentifierToken (ascii "identifier") tokens.tail
    let tokens ← expectType .equals (ascii "expected '=' in WHERE clause") tokens
    let (value, tokens) ← parseToken isValueToken (ascii "SQL value in WHERE clause") tokens
    rejectUnsupportedWhereConnector tokens
    return (some { column, value }, tokens)
  else return (none, tokens)

def parseSelect (tokens : List Token) : Except Quote (SelectStatement × List Token) := do
  let tokens ← expectKeyword (ascii "SELECT") tokens
  let (columns, tokens) ← parseSelectList tokens
  let tokens ← expectKeyword (ascii "FROM") tokens
  let (tableName, tokens) ← parseToken isIdentifierToken (ascii "identifier") tokens
  let (whereClause, tokens) ← parseWhere tokens
  return ({ tableName, columns := columns.getD [], selectAll := columns.isNone, whereClause },
    tokens)

def parseStatement (tokens : List Token) : Except Quote Statement := do
  let (statement, tokens) ←
    if isKeyword (currentToken tokens) (ascii "INSERT") then
      (parseInsert tokens).map fun (statement, tokens) => (Statement.insert statement, tokens)
    else if isKeyword (currentToken tokens) (ascii "SELECT") then
      (parseSelect tokens).map fun (statement, tokens) => (Statement.select statement, tokens)
    else
      .error (tokenQuote (ascii "only INSERT and SELECT are supported, got ") (currentToken tokens))
  let tokens ← expectType .semicolon (ascii "expected ';' at end of SQL statement") tokens
  let _ ← expectType .end (ascii "unexpected tokens after SQL statement") tokens
  return statement

end Parser

section Tables

def systemErrorQuote (action path reason : Bytes) : Quote :=
  messageQuote (action ++ ascii " '" ++ path ++ ascii "': " ++ reason)

def schemaOpenQuote (dirs : Directories) (filename reason : Bytes) : Quote :=
  systemErrorQuote (ascii "failed to open schema meta file") (schemaPath dirs filename) reason

/-- The entry that stops the search for an alias because it does not open. -/
def unreadableEntry (dirs : Directories) (tableName : Bytes) :
    List (Bytes × SchemaEntry) → Option Bytes
  | [] => none
  | (filename, entry) :: rest =>
    if hasMetaExtension filename then
      match fileDeclaresTable dirs filename entry tableName with
      | .error _ => some filename
      | .ok true => none
      | .ok false => unreadableEntry dirs tableName rest
    else unreadableEntry dirs tableName rest

/-- The schema file that a request for the table fails to open. -/
def schemaFileQuote (dirs : Directories) (tableName : Bytes) : Option Quote :=
  let filename := tableName ++ metaExtension
  match dirs.schemaFiles.lookup filename with
  | some _ => none
  | none =>
    if nameMax < filename.length then
      some (schemaOpenQuote dirs filename (ascii "File name too long"))
    else
      (unreadableEntry dirs tableName dirs.schemaFiles).map (schemaOpenQuote dirs · enoent)

/-- The file that a request for the table fails to open. -/
def tableQuote (dirs : Directories) (files : DataFiles) (tableName : Bytes) : Option Quote :=
  match readSchema dirs tableName with
  | .error _ => schemaFileQuote dirs tableName
  | .ok schema =>
    match files schema.storageName with
    | some _ => none
    | none =>
      some (systemErrorQuote (ascii "failed to open table data file")
        (csvPath dirs.dataDir schema.storageName) enoent)

end Tables

section Statements

def isUnknown (schema : Schema) (column : Bytes) : Bool :=
  column != ascii "id" && schemaFindColumn schema column == none

/-- The first column that the check of an INSERT stops at, where it is unknown. -/
def unknownInsertColumn (schema : Schema) : List (Bytes × Bytes) → Option Bytes
  | [] => none
  | (column, value) :: rest =>
    if column = ascii "id" then none
    else if isUnknown schema column then some column
    else if containsNewline value then none
    else unknownInsertColumn schema rest

/-- The first column that is listed again. -/
def repeatedColumn (seen : List Bytes) : List Bytes → Option Bytes
  | [] => none
  | column :: rest =>
    if seen.contains column then some column else repeatedColumn (column :: seen) rest

def insertQuote (statement : InsertStatement) (dirs : Directories) (db : Database) : Option Quote :=
  match loadSchema dirs db.dataFiles statement.tableName with
  | .error _ => tableQuote dirs db.dataFiles statement.tableName
  | .ok schema =>
    if statement.columns.length ≠ statement.values.length then none
    else
      match validateInsertColumns statement schema with
      | .error _ =>
        (unknownInsertColumn schema (statement.columns.zip statement.values)).map fun column =>
          messageQuote (ascii "unknown column in INSERT: " ++ column)
      | .ok () =>
        match standsFor dirs.dataDir (view db) schema.storageName with
        | .error _ => none
        | .ok _ =>
          (repeatedColumn [] statement.columns).map fun column =>
            messageQuote (ascii "duplicate column in INSERT: " ++ column)

/-- The first listed column that the table lacks. -/
def unknownSelectColumn (statement : SelectStatement) (schema : Schema) : Option Bytes :=
  if statement.selectAll then none else statement.columns.find? (isUnknown schema)

/-- The column of the condition, where the table lacks it. -/
def unknownWhereColumn (statement : SelectStatement) (schema : Schema) : Option Bytes :=
  (statement.whereClause.map WhereClause.column).filter (isUnknown schema)

def selectQuote (statement : SelectStatement) (dirs : Directories) (files : DataFiles) :
    Option Quote :=
  match loadSchema dirs files statement.tableName with
  | .error _ => tableQuote dirs files statement.tableName
  | .ok schema =>
    match unknownSelectColumn statement schema with
    | some column => some (messageQuote (ascii "unknown column in SELECT: " ++ column))
    | none =>
      (unknownWhereColumn statement schema).map fun column =>
        messageQuote (ascii "unknown column in WHERE: " ++ column)

/-- What the answer to a statement quotes in a message that a buffer may cut. -/
def statementQuote (sql : Bytes) (dirs : Directories) (db : Database) : Option Quote :=
  match lexSql sql with
  | .error _ => none
  | .ok tokens =>
    match parseStatement tokens with
    | .error quote => some quote
    | .ok (.insert statement) => insertQuote statement dirs db
    | .ok (.select statement) => selectQuote statement dirs db.dataFiles

end Statements

end DbApi.Proofs.Quotes
