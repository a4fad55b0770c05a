import DbApi.Proofs.SqlLexing

namespace DbApi.Proofs.SqlRoundTrip
open Library Common Sql SqlLexing

/-- An identifier as the grammar has it. -/
structure IsIdentifier (name : Bytes) : Prop where
  nonempty : name ≠ []
  bytes : ∀ b ∈ name, isIdentifierContinue b = true
  no_digit : ∀ b ∈ name.head?, isDigit b = false

instance (name : Bytes) : Decidable (IsIdentifier name) :=
  decidable_of_iff (name ≠ [] ∧ (∀ b ∈ name, isIdentifierContinue b = true) ∧
      ∀ b ∈ name.head?, isDigit b = false)
    ⟨fun ⟨h1, h2, h3⟩ => ⟨h1, h2, h3⟩, fun ⟨h1, h2, h3⟩ => ⟨h1, h2, h3⟩⟩

/-- A keyword in some mixture of cases. -/
structure Keyword (keyword : Bytes) where
  text : Bytes
  same : stringsEqualIgnoreCase text keyword = true

structure Keywords where
  insert : Keyword (ascii "INSERT")
  into : Keyword (ascii "INTO")
  values : Keyword (ascii "VALUES")
  select : Keyword (ascii "SELECT")
  fromTable : Keyword (ascii "FROM")
  whereColumn : Keyword (ascii "WHERE")

def Keyword.lexeme {keyword : Bytes} (k : Keyword keyword) : Lexeme := .word k.text

def star : Lexeme := .symbol 42
def equals : Lexeme := .symbol 61
def comma : Lexeme := .symbol 44
def lparen : Lexeme := .symbol 40
def rparen : Lexeme := .symbol 41
def semicolon : Lexeme := .symbol 59

def commaSeparated : List Lexeme → List Lexeme
  | [] => []
  | [lexeme] => [lexeme]
  | lexeme :: next :: rest => lexeme :: comma :: commaSeparated (next :: rest)

def insertLexemes (k : Keywords) (s : InsertStatement) : List Lexeme :=
  k.insert.lexeme :: k.into.lexeme :: .word s.tableName :: lparen ::
    (commaSeparated (s.columns.map .word) ++ rparen :: k.values.lexeme :: lparen ::
      (commaSeparated (s.values.map .literal) ++ [rparen, semicolon]))

def whereLexemes (k : Keywords) : Option WhereClause → List Lexeme
  | none => [semicolon]
  | some condition =>
    [k.whereColumn.lexeme, .word condition.column, equals, .literal condition.value, semicolon]

def selectLexemes (k : Keywords) (s : SelectStatement) : List Lexeme :=
  k.select.lexeme ::
    ((if s.selectAll then [star] else commaSeparated (s.columns.map .word)) ++
      k.fromTable.lexeme :: .word s.tableName :: whereLexemes k s.whereClause)

def statementLexemes (k : Keywords) : Statement → List Lexeme
  | .insert s => insertLexemes k s
  | .select s => selectLexemes k s

/-- The statements that SQL text can say. -/
inductive WellFormed : Statement → Prop where
  | insert {s : InsertStatement} (tableName : IsIdentifier s.tableName)
      (columns_ne : s.columns ≠ []) (columns : ∀ column ∈ s.columns, IsIdentifier column)
      (values_ne : s.values ≠ []) (values : ∀ value ∈ s.values, nul ∉ value) :
    WellFormed (.insert s)
  | select {s : SelectStatement} (tableName : IsIdentifier s.tableName)
      (star : s.selectAll = true → s.columns = [])
      (columns_ne : s.selectAll = false → s.columns ≠ [])
      (columns : ∀ column ∈ s.columns, IsIdentifier column)
      (condition : ∀ c ∈ s.whereClause, IsIdentifier c.column ∧ nul ∉ c.value) :
    WellFormed (.select s)

theorem IsIdentifier.valid {name : Bytes} (h : IsIdentifier name) : (Lexeme.word name).Valid :=
  ⟨h.nonempty, h.bytes⟩

theorem IsIdentifier.content {name : Bytes} (h : IsIdentifier name) :
    (Lexeme.word name).content = (.identifier, name) := by
  have hd : name.head?.any isDigit = false := by
    cases hn : name.head? with
    | none => rfl
    | some b => exact h.no_digit b hn
  simp [Lexeme.content, wordType, hd]

theorem alpha_of_lower {b : UInt8} (h : isLower (toLower b) = true) :
    isIdentifierContinue b = true ∧ isDigit b = false := by
  revert b
  decide +kernel

@[simp] theorem star_content : star.content = (.star, [42]) := rfl
@[simp] theorem equals_content : equals.content = (.equals, [61]) := rfl
@[simp] theorem comma_content : comma.content = (.comma, [44]) := rfl
@[simp] theorem lparen_content : lparen.content = (.lparen, [40]) := rfl
@[simp] theorem rparen_content : rparen.content = (.rparen, [41]) := rfl
@[simp] theorem semicolon_content : semicolon.content = (.semicolon, [59]) := rfl
@[simp] theorem literal_content (value : Bytes) :
    (Lexeme.literal value).content = (.string, value) := rfl

/-- A keyword is an identifier for the lexer. -/
theorem Keyword.identifier {keyword : Bytes} (k : Keyword keyword) (hne : keyword ≠ [])
    (hl : (keyword.map toLower).all isLower = true) : IsIdentifier k.text := by
  have hmap : k.text.map toLower = keyword.map toLower := by
    simpa [stringsEqualIgnoreCase] using k.same
  have hbyte : ∀ b ∈ k.text, isIdentifierContinue b = true ∧ isDigit b = false := by
    intro b hb
    apply alpha_of_lower
    exact List.all_eq_true.mp hl _ (hmap ▸ List.mem_map_of_mem hb)
  refine ⟨?_, fun b hb => (hbyte b hb).1, fun b hb => (hbyte b (List.mem_of_mem_head? hb)).2⟩
  rintro he
  rw [he] at hmap
  exact hne (List.map_eq_nil_iff.mp hmap.symm)

theorem Keywords.identifiers (k : Keywords) :
    IsIdentifier k.insert.text ∧ IsIdentifier k.into.text ∧ IsIdentifier k.values.text ∧
      IsIdentifier k.select.text ∧ IsIdentifier k.fromTable.text ∧
      IsIdentifier k.whereColumn.text :=
  ⟨k.insert.identifier (by decide) (by decide), k.into.identifier (by decide) (by decide),
    k.values.identifier (by decide) (by decide), k.select.identifier (by decide) (by decide),
    k.fromTable.identifier (by decide) (by decide),
    k.whereColumn.identifier (by decide) (by decide)⟩

theorem valid_commaSeparated (lexemes : List Lexeme) (hv : ∀ l ∈ lexemes, l.Valid) :
    ∀ l ∈ commaSeparated lexemes, l.Valid := by
  induction lexemes with
  | nil => simp [commaSeparated]
  | cons lexeme rest ih =>
    cases rest with
    | nil => simpa [commaSeparated] using hv
    | cons next rest =>
      have hrest := ih fun l hl => hv l (by simp [hl])
      simp only [commaSeparated, List.mem_cons, forall_eq_or_imp]
      exact ⟨hv lexeme (by simp), rfl, hrest⟩

section Tokens

variable {tokens : List Token} {contents : List (TokenType × Bytes)} {text : Bytes}

/-- The tokens from here on, up to their positions. -/
def Reads (tokens : List Token) (contents : List (TokenType × Bytes)) : Prop :=
  tokens.map contentOf = contents

theorem Reads.cons {type : TokenType} (h : Reads tokens ((type, text) :: contents)) :
    (currentToken tokens).type = type ∧ (currentToken tokens).text = text ∧
      Reads tokens.tail contents := by
  obtain ⟨token, rest, rfl, htoken, hrest⟩ := List.map_eq_cons_iff.mp h
  obtain ⟨htype, htext⟩ := Prod.mk.inj htoken
  exact ⟨htype, htext, hrest⟩

theorem expectType_ok {type : TokenType} (message : Bytes)
    (h : Reads tokens ((type, text) :: contents)) :
    expectType type message tokens = .ok tokens.tail := by
  rw [expectType, if_pos h.cons.1]

theorem isKeyword_ok {keyword : Bytes} (h : Reads tokens ((.identifier, text) :: contents)) :
    isKeyword (currentToken tokens) keyword = stringsEqualIgnoreCase text keyword := by
  simp [isKeyword, h.cons.1, h.cons.2.1]

theorem expectKeyword_ok {keyword : Bytes} (k : Keyword keyword)
    (h : Reads tokens ((.identifier, k.text) :: contents)) :
    expectKeyword keyword tokens = .ok tokens.tail := by
  rw [expectKeyword, if_pos ((isKeyword_ok h).trans k.same)]

theorem parseToken_ok {type : TokenType} {accepts : Token → Bool}
    (ha : ∀ token : Token, token.type = type → accepts token = true) (expected : Bytes)
    (h : Reads tokens ((type, text) :: contents)) :
    parseToken accepts expected tokens = .ok (text, tokens.tail) := by
  rw [parseToken, if_pos (ha _ h.cons.1), h.cons.2.1]

/-- A list is read up to what is no comma. -/
theorem parseTokenList_ok {type : TokenType} {accepts : Token → Bool}
    (ha : ∀ token : Token, token.type = type → accepts token = true) (expected : Bytes)
    {lexeme : Bytes → Lexeme} {texts : List Bytes} (hne : texts ≠ [])
    (hc : ∀ t ∈ texts, (lexeme t).content = (type, t)) {next : TokenType × Bytes}
    (hnext : next.1 ≠ .comma)
    (h : Reads tokens ((commaSeparated (texts.map lexeme)).map Lexeme.content ++ next :: contents)) :
    ∃ rest, parseTokenList accepts expected tokens = .ok (texts, rest) ∧
      Reads rest (next :: contents) := by
  induction texts generalizing tokens with
  | nil => contradiction
  | cons t texts ih =>
    have ht := hc t (by simp)
    cases texts with
    | nil =>
      simp only [List.map_cons, List.map_nil, commaSeparated, ht, List.cons_append,
        List.nil_append] at h
      obtain ⟨token, rest, rfl, htoken, hrest⟩ := List.map_eq_cons_iff.mp h
      obtain ⟨separator, rest', rfl, hseparator, _⟩ := List.map_eq_cons_iff.mp hrest
      obtain ⟨htype, htext⟩ := Prod.mk.inj htoken
      have hstop : separator.type ≠ .comma := by
        rw [show separator.type = next.1 from congrArg Prod.fst hseparator]
        exact hnext
      refine ⟨separator :: rest', ?_, hrest⟩
      rw [parseTokenList.eq_def]
      simp [ha token htype, hstop, htext]
    | cons u texts =>
      simp only [List.map_cons, commaSeparated, ht, List.cons_append] at h
      obtain ⟨token, rest, rfl, htoken, hrest⟩ := List.map_eq_cons_iff.mp h
      obtain ⟨separator, rest', rfl, hseparator, hmore⟩ := List.map_eq_cons_iff.mp hrest
      obtain ⟨htype, htext⟩ := Prod.mk.inj htoken
      have hcomma : separator.type = .comma := congrArg Prod.fst hseparator
      have hreads : Reads rest' _ := hmore
      obtain ⟨final, hparse, hfinal⟩ := ih (by simp) (fun w hw => hc w (by simp [hw])) hreads
      refine ⟨final, ?_, hfinal⟩
      rw [parseTokenList.eq_def]
      simp [ha token htype, hcomma, htext, hparse, Except.map]

end Tokens

theorem identifier_accepts (token : Token) (h : token.type = .identifier) :
    isIdentifierToken token = true := by simp [isIdentifierToken, h]

theorem value_accepts (token : Token) (h : token.type = .string) : isValueToken token = true := by
  simp [isValueToken, h]

theorem parseInsert_ok (k : Keywords) {s : InsertStatement} (tableName : IsIdentifier s.tableName)
    (columns_ne : s.columns ≠ []) (columns : ∀ column ∈ s.columns, IsIdentifier column)
    (values_ne : s.values ≠ []) {tokens : List Token}
    (h : Reads tokens ((insertLexemes k s).map Lexeme.content ++ [(.end, [])])) :
    ∃ rest, parseInsert tokens = .ok (s, rest) ∧
      Reads rest [(.semicolon, [59]), (.end, [])] := by
  obtain ⟨hinsert, hinto, hvalues, _⟩ := k.identifiers
  simp only [insertLexemes, List.map_cons, List.map_append, Keyword.lexeme, hinsert.content,
    hinto.content, hvalues.content, tableName.content, lparen_content, rparen_content,
    semicolon_content, List.cons_append, List.append_assoc, List.nil_append, List.map_nil] at h
  have h1 := h.cons.2.2
  have h2 := h1.cons.2.2
  have h3 := h2.cons.2.2
  have h4 := h3.cons.2.2
  obtain ⟨t5, hcolumns, h5⟩ := parseTokenList_ok identifier_accepts (ascii "identifier") columns_ne
    (fun c hc => (columns c hc).content) (by decide) h4
  have h6 := h5.cons.2.2
  have h7 := h6.cons.2.2
  have h8 := h7.cons.2.2
  obtain ⟨t9, hvals, h9⟩ := parseTokenList_ok value_accepts (ascii "SQL value") values_ne
    (fun _ _ => rfl) (by decide) h8
  refine ⟨t9.tail, ?_, h9.cons.2.2⟩
  simp only [parseInsert, expectKeyword_ok k.insert h, expectKeyword_ok k.into h1, parseIdentifier,
    parseToken_ok identifier_accepts (ascii "identifier") h2, expectType_ok _ h3,
    parseIdentifierList, hcolumns, expectType_ok _ h5, expectKeyword_ok k.values h6,
    expectType_ok _ h7, parseValueList, hvals, expectType_ok _ h9, bind, Except.bind, pure,
    Except.pure]

theorem parseSelectList_star {tokens : List Token} {text : Bytes}
    {contents : List (TokenType × Bytes)} (h : Reads tokens ((.star, text) :: contents)) :
    parseSelectList tokens = .ok (none, tokens.tail) := by
  simp [parseSelectList, h.cons.1, pure, Except.pure]

theorem parseSelectList_columns {columns : List Bytes} (hne : columns ≠ [])
    (hc : ∀ column ∈ columns, IsIdentifier column) {tokens : List Token}
    {next : TokenType × Bytes} (hnext : next.1 ≠ .comma) {contents : List (TokenType × Bytes)}
    (h : Reads tokens
      ((commaSeparated (columns.map .word)).map Lexeme.content ++ next :: contents)) :
    ∃ rest, parseSelectList tokens = .ok (some columns, rest) ∧ Reads rest (next :: contents) := by
  obtain ⟨rest, hlist, hrest⟩ := parseTokenList_ok identifier_accepts (ascii "identifier") hne
    (fun c hm => (hc c hm).content) hnext h
  have hfirst : (currentToken tokens).type = .identifier := by
    cases columns with
    | nil => contradiction
    | cons column columns =>
      have hcolumn := (hc column (by simp)).content
      cases columns with
      | nil =>
        simp only [List.map_cons, List.map_nil, commaSeparated, hcolumn] at h
        exact h.cons.1
      | cons _ _ =>
        simp only [List.map_cons, commaSeparated, hcolumn] at h
        exact h.cons.1
  refine ⟨rest, ?_, hrest⟩
  simp [parseSelectList, hfirst, parseIdentifierList, hlist, bind, Except.bind, pure, Except.pure]

theorem parseWhere_ok (k : Keywords) {whereClause : Option WhereClause}
    (hw : ∀ condition ∈ whereClause, IsIdentifier condition.column) {tokens : List Token}
    (h : Reads tokens ((whereLexemes k whereClause).map Lexeme.content ++ [(.end, [])])) :
    ∃ rest, parseWhere tokens = .ok (whereClause, rest) ∧
      Reads rest [(.semicolon, [59]), (.end, [])] := by
  cases whereClause with
  | none =>
    simp only [whereLexemes, List.map_cons, List.map_nil, semicolon_content, List.cons_append,
      List.nil_append] at h
    refine ⟨tokens, ?_, h⟩
    simp [parseWhere, isKeyword, h.cons.1, pure, Except.pure]
  | some condition =>
    obtain ⟨-, -, -, -, -, hwhere⟩ := k.identifiers
    simp only [whereLexemes, List.map_cons, List.map_nil, Keyword.lexeme, hwhere.content,
      (hw condition rfl).content, equals_content, literal_content, semicolon_content,
      List.cons_append, List.nil_append] at h
    have h1 := h.cons.2.2
    have h2 := h1.cons.2.2
    have h3 := h2.cons.2.2
    have h4 := h3.cons.2.2
    have hend : rejectUnsupportedWhereConnector tokens.tail.tail.tail.tail = .ok () := by
      simp [rejectUnsupportedWhereConnector, isKeyword, h4.cons.1]
    refine ⟨_, ?_, h4⟩
    simp only [parseWhere, (isKeyword_ok h).trans k.whereColumn.same, ↓reduceIte, parseIdentifier,
      parseToken_ok identifier_accepts (ascii "identifier") h1, expectType_ok _ h2,
      parseConditionValue, parseToken_ok value_accepts (ascii "SQL value in WHERE clause") h3,
      hend, bind, Except.bind, pure, Except.pure]

theorem parseSelect_ok (k : Keywords) {s : SelectStatement} (tableName : IsIdentifier s.tableName)
    (hstar : s.selectAll = true → s.columns = []) (columns_ne : s.selectAll = false → s.columns ≠ [])
    (columns : ∀ column ∈ s.columns, IsIdentifier column)
    (condition : ∀ c ∈ s.whereClause, IsIdentifier c.column) {tokens : List Token}
    (h : Reads tokens ((selectLexemes k s).map Lexeme.content ++ [(.end, [])])) :
    ∃ rest, parseSelect tokens = .ok (s, rest) ∧
      Reads rest [(.semicolon, [59]), (.end, [])] := by
  obtain ⟨-, -, -, hselect, hfrom, -⟩ := k.identifiers
  simp only [selectLexemes, List.map_cons, List.map_append, Keyword.lexeme, hselect.content,
    hfrom.content, tableName.content, List.cons_append, List.append_assoc] at h
  have h1 := h.cons.2.2
  obtain ⟨t2, hlist, h2⟩ : ∃ rest, parseSelectList tokens.tail =
      .ok (if s.selectAll then none else some s.columns, rest) ∧
      Reads rest ((.identifier, k.fromTable.text) :: (.identifier, s.tableName) ::
        ((whereLexemes k s.whereClause).map Lexeme.content ++ [(.end, [])])) := by
    cases hs : s.selectAll with
    | true =>
      rw [if_pos hs] at h1
      exact ⟨_, parseSelectList_star h1, h1.cons.2.2⟩
    | false =>
      rw [if_neg (by simp [hs])] at h1
      exact parseSelectList_columns (columns_ne hs) columns (by simp) h1
  have h3 := h2.cons.2.2
  obtain ⟨t4, hwhere, h4⟩ := parseWhere_ok k condition h3.cons.2.2
  refine ⟨t4, ?_, h4⟩
  simp only [parseSelect, expectKeyword_ok k.select h, hlist, expectKeyword_ok k.fromTable h2,
    parseIdentifier, parseToken_ok identifier_accepts (ascii "identifier") h3, hwhere, bind,
    Except.bind, pure, Except.pure]
  obtain ⟨name, cols, all, clause⟩ := s
  cases all with
  | true =>
    obtain rfl : cols = [] := hstar rfl
    rfl
  | false => rfl

/-- Every lexeme of a well formed statement is one the lexer knows. -/
theorem statementLexemes_valid (k : Keywords) {statement : Statement} (hw : WellFormed statement) :
    ∀ lexeme ∈ statementLexemes k statement, lexeme.Valid := by
  obtain ⟨hinsert, hinto, hvalues, hselect, hfrom, hwhere⟩ := k.identifiers
  cases hw with
  | @insert s tableName columns_ne columns values_ne values =>
    have hcolumns := valid_commaSeparated (s.columns.map .word)
      (by simpa using fun c hc => (columns c hc).valid)
    have hvals := valid_commaSeparated (s.values.map .literal)
      (by simpa [Lexeme.Valid] using values)
    intro lexeme hl
    simp only [statementLexemes, insertLexemes, List.mem_cons, List.mem_append, List.not_mem_nil,
      or_false] at hl
    rcases hl with rfl | rfl | rfl | rfl | hl | rfl | rfl | rfl | hl | rfl | rfl
    · exact hinsert.valid
    · exact hinto.valid
    · exact tableName.valid
    · rfl
    · exact hcolumns _ hl
    · rfl
    · exact hvalues.valid
    · rfl
    · exact hvals _ hl
    · rfl
    · rfl
  | @select s tableName star columns_ne columns condition =>
    have hcolumns := valid_commaSeparated (s.columns.map .word)
      (by simpa using fun c hc => (columns c hc).valid)
    intro lexeme hl
    simp only [statementLexemes, selectLexemes, List.mem_cons, List.mem_append] at hl
    rcases hl with rfl | hl | rfl | rfl | hl
    · exact hselect.valid
    · split at hl
      · rw [List.mem_singleton.mp hl]
        rfl
      · exact hcolumns _ hl
    · exact hfrom.valid
    · exact tableName.valid
    · cases hc : s.whereClause with
      | none =>
        rw [hc, whereLexemes, List.mem_singleton] at hl
        rw [hl]
        rfl
      | some c =>
        obtain ⟨hcolumn, hvalue⟩ := condition c hc
        simp only [hc, whereLexemes, List.mem_cons, List.not_mem_nil, or_false] at hl
        rcases hl with rfl | rfl | rfl | rfl | rfl
        · exact hwhere.valid
        · exact hcolumn.valid
        · rfl
        · exact hvalue
        · rfl

theorem parseStatement_ok (k : Keywords) {statement : Statement} (hw : WellFormed statement)
    {tokens : List Token}
    (h : Reads tokens ((statementLexemes k statement).map Lexeme.content ++ [(.end, [])])) :
    parseStatement tokens = .ok statement := by
  obtain ⟨hinsert, -, -, hselect, -, -⟩ := k.identifiers
  cases hw with
  | @insert s tableName columns_ne columns values_ne values =>
    obtain ⟨rest, hparse, hrest⟩ := parseInsert_ok k tableName columns_ne columns values_ne h
    have hfirst : isKeyword (currentToken tokens) (ascii "INSERT") = true := by
      simp only [statementLexemes, insertLexemes, List.map_cons, Keyword.lexeme, hinsert.content,
        List.cons_append] at h
      exact (isKeyword_ok h).trans k.insert.same
    simp only [parseStatement, hfirst, ↓reduceIte, hparse, Except.map, expectType_ok _ hrest,
      expectType_ok _ hrest.cons.2.2, bind, Except.bind, pure, Except.pure]
  | @select s tableName star columns_ne columns condition =>
    obtain ⟨rest, hparse, hrest⟩ := parseSelect_ok k tableName star columns_ne columns
      (fun c hc => (condition c hc).1) h
    have hfirst : isKeyword (currentToken tokens) (ascii "INSERT") = false ∧
        isKeyword (currentToken tokens) (ascii "SELECT") = true := by
      simp only [statementLexemes, selectLexemes, List.map_cons, Keyword.lexeme, hselect.content,
        List.cons_append] at h
      refine ⟨(isKeyword_ok h).trans ?_, (isKeyword_ok h).trans k.select.same⟩
      have hs : k.select.text.map toLower = (ascii "SELECT").map toLower := by
        simpa [stringsEqualIgnoreCase] using k.select.same
      simp only [stringsEqualIgnoreCase, hs]
      decide
    simp only [parseStatement, hfirst.1, hfirst.2, Bool.false_eq_true, ↓reduceIte, hparse,
      Except.map, expectType_ok _ hrest, expectType_ok _ hrest.cons.2.2, bind, Except.bind, pure,
      Except.pure]

/-- Whatever blanks and cases a well formed statement is written with, lexing
and parsing its text gives the statement back. -/
theorem parse_spelled (k : Keywords) {statement : Statement} (hw : WellFormed statement)
    {text : Bytes} (hs : Spells (statementLexemes k statement) text) :
    ∃ tokens, lexSql text = .ok tokens ∧ parseStatement tokens = .ok statement := by
  have hv := statementLexemes_valid k hw
  obtain ⟨tokens, hlex, htokens⟩ := lex_spells hs hv 0
  refine ⟨tokens, ?_, parseStatement_ok k hw htokens⟩
  rw [lexSql, cString_of_no_nul (spells_no_nul hs hv)]
  exact hlex

/-- Each lexeme after one blank. -/
def spaced : List Lexeme → Bytes
  | [] => []
  | lexeme :: rest => [32] ++ lexeme.text ++ spaced rest

theorem spells_spaced (lexemes : List Lexeme) : Spells lexemes (spaced lexemes) := by
  induction lexemes with
  | nil => exact .done fun b hb => by cases hb
  | cons lexeme rest ih =>
    have hblank : Blank [32] := fun b hb => List.mem_singleton.mp hb ▸ rfl
    refine .next hblank (fun following hf _ b hb => ?_) ih
    cases rest with
    | nil => cases hf
    | cons next rest =>
      obtain rfl : 32 = b := by simpa [spaced] using hb
      rfl

def mixedCase : Keywords where
  insert := ⟨ascii "insert", by decide⟩
  into := ⟨ascii "Into", by decide⟩
  values := ⟨ascii "VALUES", by decide⟩
  select := ⟨ascii "Select", by decide⟩
  fromTable := ⟨ascii "from", by decide⟩
  whereColumn := ⟨ascii "wHERE", by decide⟩

theorem parse_spelled_keyword_names :
    ∃ tokens, lexSql (ascii " insert Into from ( values , where ) VALUES ( 'it''s' , '' ) ;") =
        .ok tokens ∧
      parseStatement tokens = .ok (.insert
        { tableName := ascii "from", columns := [ascii "values", ascii "where"],
          values := [ascii "it's", []] }) :=
  parse_spelled mixedCase
    (.insert (by decide +kernel) (by decide) (by decide +kernel) (by decide) (by decide))
    (spells_spaced _)

end DbApi.Proofs.SqlRoundTrip
