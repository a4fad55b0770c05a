import DbApi.Library.Except
import DbApi.Sql.ParserState

namespace DbApi.Proofs.SqlGrammar
open Library Common Sql

/-- One accepted token, and one more after each comma. -/
inductive CommaList (accepts : Token → Bool) : List Token → List Bytes → Prop where
  | one {token : Token} (h : accepts token = true) : CommaList accepts [token] [token.text]
  | more {token comma : Token} {tokens : List Token} {texts : List Bytes}
      (h : accepts token = true) (hc : comma.type = .comma)
      (rest : CommaList accepts tokens texts) :
    CommaList accepts (token :: comma :: tokens) (token.text :: texts)

inductive SelectList : List Token → Option (List Bytes) → Prop where
  | star {token : Token} (h : token.type = .star) : SelectList [token] none
  | columns {tokens : List Token} {texts : List Bytes}
      (h : CommaList isIdentifierToken tokens texts) : SelectList tokens (some texts)

inductive Condition : List Token → Option WhereClause → Prop where
  | none : Condition [] none
  | equals {keyword column equals value : Token} (hk : isKeyword keyword (ascii "WHERE") = true)
      (hc : isIdentifierToken column = true) (he : equals.type = .equals)
      (hv : isValueToken value = true) :
    Condition [keyword, column, equals, value]
      (some { column := column.text, value := value.text })

inductive InsertTokens : List Token → InsertStatement → Prop where
  | intro {insert into name left right values left' right' : Token} {columns items : List Token}
      {columnTexts itemTexts : List Bytes} (hi : isKeyword insert (ascii "INSERT") = true)
      (ht : isKeyword into (ascii "INTO") = true) (hn : isIdentifierToken name = true)
      (hl : left.type = .lparen) (hcolumns : CommaList isIdentifierToken columns columnTexts)
      (hr : right.type = .rparen) (hv : isKeyword values (ascii "VALUES") = true)
      (hl' : left'.type = .lparen) (hitems : CommaList isValueToken items itemTexts)
      (hr' : right'.type = .rparen) :
    InsertTokens
      (insert :: into :: name :: left :: (columns ++ right :: values :: left' ::
        (items ++ [right'])))
      { tableName := name.text, columns := columnTexts, values := itemTexts }

inductive SelectTokens : List Token → SelectStatement → Prop where
  | intro {select source name : Token} {selected condition : List Token}
      {columns : Option (List Bytes)} {whereClause : Option WhereClause}
      (hk : isKeyword select (ascii "SELECT") = true) (hselected : SelectList selected columns)
      (hf : isKeyword source (ascii "FROM") = true) (hn : isIdentifierToken name = true)
      (hcondition : Condition condition whereClause) :
    SelectTokens (select :: (selected ++ source :: name :: condition))
      { tableName := name.text
        columns := columns.getD []
        selectAll := columns.isNone
        whereClause }

/-- The grammar: the tokens of a statement, all of them and in order. -/
inductive Sentence : List Token → Statement → Prop where
  | insert {tokens : List Token} {s : InsertStatement} {semicolon last : Token}
      (h : InsertTokens tokens s) (hs : semicolon.type = .semicolon) (hl : last.type = .end) :
    Sentence (tokens ++ [semicolon, last]) (.insert s)
  | select {tokens : List Token} {s : SelectStatement} {semicolon last : Token}
      (h : SelectTokens tokens s) (hs : semicolon.type = .semicolon) (hl : last.type = .end) :
    Sentence (tokens ++ [semicolon, last]) (.select s)

/-- An array that ends with its only end token. -/
inductive Terminated : List Token → Prop where
  | last {token : Token} (h : token.type = .end) : Terminated [token]
  | cons {token : Token} {tokens : List Token} (h : token.type ≠ .end) (rest : Terminated tokens) :
    Terminated (token :: tokens)

section Tokens

variable {token : Token} {tokens rest : List Token} {type : TokenType} {keyword message : Bytes}
variable {accepts : Token → Bool} {text : Bytes}

theorem keyword_identifier (h : isKeyword token keyword = true) : token.type = .identifier := by
  simp only [isKeyword, Bool.and_eq_true, beq_iff_eq] at h
  exact h.1

theorem identifier_type (h : isIdentifierToken token = true) : token.type = .identifier := by
  simpa [isIdentifierToken] using h

theorem value_not_end (h : isValueToken token = true) : token.type ≠ .end := by
  intro he
  simp [isValueToken, he] at h

theorem current_cons (token : Token) (rest : List Token) : currentToken (token :: rest) = token :=
  rfl

theorem expectType_iff (hne : type ≠ .end) :
    expectType type message tokens = .ok rest ↔
      ∃ token, token.type = type ∧ tokens = token :: rest := by
  cases tokens with
  | nil => simp [expectType, currentToken, hne.symm]
  | cons token tokens =>
    by_cases ht : token.type = type
    · rw [expectType, current_cons, if_pos ht]
      constructor
      · rintro ⟨⟩
        exact ⟨token, ht, rfl⟩
      · rintro ⟨_, _, ⟨⟩⟩
        rfl
    · simp [expectType, current_cons, ht]

theorem expectKeyword_iff :
    expectKeyword keyword tokens = .ok rest ↔
      ∃ token, isKeyword token keyword = true ∧ tokens = token :: rest := by
  cases tokens with
  | nil => simp [expectKeyword, currentToken, isKeyword]
  | cons token tokens =>
    by_cases ht : isKeyword token keyword = true
    · rw [expectKeyword, current_cons, if_pos ht]
      constructor
      · rintro ⟨⟩
        exact ⟨token, ht, rfl⟩
      · rintro ⟨_, _, ⟨⟩⟩
        rfl
    · simp [expectKeyword, current_cons, ht]

theorem parseToken_iff (hend : ∀ token : Token, accepts token = true → token.type ≠ .end) :
    parseToken accepts message tokens = .ok (text, rest) ↔
      ∃ token, accepts token = true ∧ token.text = text ∧ tokens = token :: rest := by
  cases tokens with
  | nil =>
    have hn : accepts { type := .end, text := [], position := 0 } = false :=
      Bool.eq_false_iff.mpr fun h => hend _ h rfl
    simp [parseToken, currentToken, hn]
  | cons token tokens =>
    by_cases ht : accepts token = true
    · rw [parseToken, current_cons, if_pos ht]
      constructor
      · rintro ⟨⟩
        exact ⟨token, ht, rfl, rfl⟩
      · rintro ⟨_, _, rfl, ⟨⟩⟩
        rfl
    · simp [parseToken, current_cons, ht]

theorem commaList_cons {texts : List Bytes} (h : CommaList accepts tokens texts) :
    ∃ token tail, tokens = token :: tail ∧ accepts token = true := by
  cases h with
  | one h => exact ⟨_, _, rfl, h⟩
  | more h hc rest => exact ⟨_, _, rfl, h⟩

/-- The list ends where no comma follows. -/
theorem parseTokenList_of_commaList {texts : List Bytes} (h : CommaList accepts tokens texts)
    {next : Token} (hn : next.type ≠ .comma) :
    parseTokenList accepts message (tokens ++ next :: rest) = .ok (texts, next :: rest) := by
  induction h with
  | @one token h =>
    rw [List.singleton_append, parseTokenList.eq_def]
    simp [h, hn]
  | @more token comma tokens texts h hc list ih =>
    rw [List.cons_append, List.cons_append, parseTokenList.eq_def]
    simp [h, hc, ih, Except.map]

theorem commaList_of_parse {texts : List Bytes}
    (h : parseTokenList accepts message tokens = .ok (texts, rest)) :
    ∃ list, CommaList accepts list texts ∧ tokens = list ++ rest := by
  fun_induction parseTokenList accepts message tokens generalizing texts rest with
  | case1 => cases h
  | case2 token ha =>
    cases h
    exact ⟨_, .one ha, rfl⟩
  | case3 token ha separator rest' hc ih =>
    obtain ⟨⟨texts', rest''⟩, hparse, heq⟩ := except_map_ok.mp h
    cases heq
    obtain ⟨list, hlist, rfl⟩ := ih hparse
    exact ⟨_, .more ha hc hlist, rfl⟩
  | case4 token ha separator rest' hc =>
    cases h
    exact ⟨_, .one ha, rfl⟩
  | case5 token rest' ha => cases h

end Tokens

section Sentences

variable {tokens rest : List Token}

theorem identifier_not_end (token : Token) (h : isIdentifierToken token = true) :
    token.type ≠ .end := by
  rw [identifier_type h]
  decide

theorem insert_sound {s : InsertStatement} (h : parseInsert tokens = .ok (s, rest)) :
    ∃ body, InsertTokens body s ∧ tokens = body ++ rest := by
  simp only [parseInsert, except_bind_ok, Prod.exists] at h
  obtain ⟨t1, h1, t2, h2, name, t3, h3, t4, h4, columnTexts, t5, h5, t6, h6, t7, h7, t8, h8,
    itemTexts, t9, h9, t10, h10, h11⟩ := h
  cases h11
  obtain ⟨insert, hi, rfl⟩ := expectKeyword_iff.mp h1
  obtain ⟨into, ht, rfl⟩ := expectKeyword_iff.mp h2
  obtain ⟨name, hn, rfl, rfl⟩ := (parseToken_iff identifier_not_end).mp h3
  obtain ⟨left, hl, rfl⟩ := (expectType_iff (by decide)).mp h4
  obtain ⟨columns, hcolumns, rfl⟩ := commaList_of_parse h5
  obtain ⟨right, hr, rfl⟩ := (expectType_iff (by decide)).mp h6
  obtain ⟨values, hv, rfl⟩ := expectKeyword_iff.mp h7
  obtain ⟨left', hl', rfl⟩ := (expectType_iff (by decide)).mp h8
  obtain ⟨items, hitems, rfl⟩ := commaList_of_parse h9
  obtain ⟨right', hr', rfl⟩ := (expectType_iff (by decide)).mp h10
  exact ⟨_, .intro hi ht hn hl hcolumns hr hv hl' hitems hr', by simp⟩

theorem insert_complete {s : InsertStatement} {body : List Token} (h : InsertTokens body s)
    (rest : List Token) : parseInsert (body ++ rest) = .ok (s, rest) := by
  cases h with
  | @intro insert into name left right values left' right' columns items columnTexts itemTexts
      hi ht hn hl hcolumns hr hv hl' hitems hr' =>
    simp only [parseInsert, except_bind_ok, Prod.exists, List.cons_append, List.append_assoc]
    refine ⟨_, expectKeyword_iff.mpr ⟨insert, hi, rfl⟩, _, expectKeyword_iff.mpr ⟨into, ht, rfl⟩,
      _, _, (parseToken_iff identifier_not_end).mpr ⟨name, hn, rfl, rfl⟩,
      _, (expectType_iff (by decide)).mpr ⟨left, hl, rfl⟩,
      _, _, parseTokenList_of_commaList hcolumns (by rw [hr]; decide),
      _, (expectType_iff (by decide)).mpr ⟨right, hr, rfl⟩,
      _, expectKeyword_iff.mpr ⟨values, hv, rfl⟩,
      _, (expectType_iff (by decide)).mpr ⟨left', hl', rfl⟩,
      _, _, parseTokenList_of_commaList hitems (by rw [hr']; decide),
      _, (expectType_iff (by decide)).mpr ⟨right', hr', rfl⟩, rfl⟩

theorem selectList_sound {columns : Option (List Bytes)}
    (h : parseSelectList tokens = .ok (columns, rest)) :
    ∃ list, SelectList list columns ∧ tokens = list ++ rest := by
  unfold parseSelectList at h
  split at h
  · rename_i hstar
    cases tokens with
    | nil => cases hstar
    | cons token tokens =>
      cases h
      exact ⟨_, .star hstar, rfl⟩
  · simp only [except_bind_ok, Prod.exists] at h
    obtain ⟨texts, t, hlist, heq⟩ := h
    cases heq
    obtain ⟨list, hl, rfl⟩ := commaList_of_parse hlist
    exact ⟨_, .columns hl, rfl⟩

theorem selectList_complete {columns : Option (List Bytes)} {list : List Token}
    (h : SelectList list columns) {next : Token} (hn : next.type ≠ .comma) :
    parseSelectList (list ++ next :: rest) = .ok (columns, next :: rest) := by
  cases h with
  | @star token h =>
    unfold parseSelectList
    rw [List.singleton_append, current_cons, if_pos h]
    rfl
  | @columns tokens texts h =>
    obtain ⟨token, tail, rfl, htoken⟩ := commaList_cons h
    have hstar : (currentToken (token :: tail ++ next :: rest)).type ≠ .star := by
      rw [List.cons_append, current_cons, identifier_type htoken]
      decide
    unfold parseSelectList
    rw [if_neg hstar]
    simp only [except_bind_ok, Prod.exists]
    exact ⟨_, _, parseTokenList_of_commaList h hn, rfl⟩

theorem where_sound {whereClause : Option WhereClause}
    (h : parseWhere tokens = .ok (whereClause, rest)) :
    ∃ condition, Condition condition whereClause ∧ tokens = condition ++ rest := by
  unfold parseWhere at h
  split at h
  · rename_i hk
    simp only [except_bind_ok, Prod.exists] at h
    obtain ⟨column, t1, h1, t2, h2, value, t3, h3, _, -, h4⟩ := h
    cases h4
    cases tokens with
    | nil => cases hk
    | cons keyword tokens =>
      obtain ⟨column, hc, rfl, rfl⟩ := (parseToken_iff identifier_not_end).mp h1
      obtain ⟨equals, he, rfl⟩ := (expectType_iff (by decide)).mp h2
      obtain ⟨value, hv, rfl, rfl⟩ := (parseToken_iff fun _ => value_not_end).mp h3
      exact ⟨_, .equals hk hc he hv, rfl⟩
  · cases h
    exact ⟨_, .none, rfl⟩

theorem where_complete {whereClause : Option WhereClause} {condition : List Token}
    (h : Condition condition whereClause) {next : Token} (hn : next.type = .semicolon) :
    parseWhere (condition ++ next :: rest) = .ok (whereClause, next :: rest) := by
  have hkeyword : ∀ keyword, isKeyword next keyword = false := by
    intro keyword
    simp [isKeyword, hn]
  unfold parseWhere
  cases h with
  | none =>
    rw [List.nil_append, current_cons, if_neg (by simp [hkeyword])]
    rfl
  | @equals keyword column equals value hk hc he hv =>
    have hconnector : rejectUnsupportedWhereConnector (next :: rest) = .ok () := by
      simp [rejectUnsupportedWhereConnector, current_cons, hkeyword]
    rw [List.cons_append, current_cons, if_pos hk]
    simp only [except_bind_ok, Prod.exists]
    exact ⟨_, _, (parseToken_iff identifier_not_end).mpr ⟨column, hc, rfl, rfl⟩,
      _, (expectType_iff (by decide)).mpr ⟨equals, he, rfl⟩,
      _, _, (parseToken_iff fun _ => value_not_end).mpr ⟨value, hv, rfl, rfl⟩,
      _, hconnector, rfl⟩

theorem select_sound {s : SelectStatement} (h : parseSelect tokens = .ok (s, rest)) :
    ∃ body, SelectTokens body s ∧ tokens = body ++ rest := by
  simp only [parseSelect, except_bind_ok, Prod.exists] at h
  obtain ⟨t1, h1, columns, t2, h2, t3, h3, name, t4, h4, whereClause, t5, h5, h6⟩ := h
  cases h6
  obtain ⟨select, hk, rfl⟩ := expectKeyword_iff.mp h1
  obtain ⟨selected, hselected, rfl⟩ := selectList_sound h2
  obtain ⟨source, hf, rfl⟩ := expectKeyword_iff.mp h3
  obtain ⟨name, hn, rfl, rfl⟩ := (parseToken_iff identifier_not_end).mp h4
  obtain ⟨condition, hcondition, rfl⟩ := where_sound h5
  exact ⟨_, .intro hk hselected hf hn hcondition, by simp⟩

theorem select_complete {s : SelectStatement} {body : List Token} (h : SelectTokens body s)
    {next : Token} (hnext : next.type = .semicolon) (rest : List Token) :
    parseSelect (body ++ next :: rest) = .ok (s, next :: rest) := by
  cases h with
  | @intro select source name selected condition columns whereClause hk hselected hf hn hcondition =>
    have hcomma : source.type ≠ .comma := by
      rw [keyword_identifier hf]
      decide
    simp only [parseSelect, except_bind_ok, Prod.exists, List.cons_append, List.append_assoc]
    exact ⟨_, expectKeyword_iff.mpr ⟨select, hk, rfl⟩, _, _, selectList_complete hselected hcomma,
      _, expectKeyword_iff.mpr ⟨source, hf, rfl⟩,
      _, _, (parseToken_iff identifier_not_end).mpr ⟨name, hn, rfl, rfl⟩,
      _, _, where_complete hcondition hnext, rfl⟩

theorem Terminated.suffix {before after : List Token} (h : Terminated (before ++ after))
    (hne : after ≠ []) : Terminated after := by
  induction before with
  | nil => exact h
  | cons token before ih =>
    rw [List.cons_append] at h
    generalize hall : before ++ after = all at h
    cases h with
    | last _ => exact absurd (List.append_eq_nil_iff.mp hall).2 hne
    | cons _ rest => exact ih (hall ▸ rest)

/-- What follows a body that is no end is the semicolon and the end. -/
theorem ends_sound {body tokens t : List Token} (ht : Terminated (body ++ tokens))
    {message message' : Bytes} (h : expectType .semicolon message tokens = .ok rest)
    (hend : expectType .end message' rest = .ok t) :
    ∃ semicolon last, semicolon.type = .semicolon ∧ last.type = .end ∧
      tokens = [semicolon, last] := by
  obtain ⟨semicolon, hs, rfl⟩ := (expectType_iff (by decide)).mp h
  have hrest : Terminated rest := by
    cases ht.suffix (List.cons_ne_nil _ _) with
    | last hl =>
      rw [hs] at hl
      cases hl
    | cons _ hrest => exact hrest
  cases hrest with
  | last hl => exact ⟨semicolon, _, hs, hl, rfl⟩
  | cons hl _ =>
    rw [expectType, current_cons, if_neg hl] at hend
    cases hend

theorem parse_sound {statement : Statement} (ht : Terminated tokens)
    (h : parseStatement tokens = .ok statement) : Sentence tokens statement := by
  unfold parseStatement at h
  split at h
  · simp only [except_bind_ok, Prod.exists] at h
    obtain ⟨_, _, hbody, t2, hsemicolon, t3, hend, heq⟩ := h
    obtain ⟨⟨insert, t⟩, hparse, hpair⟩ := except_map_ok.mp hbody
    cases hpair
    cases heq
    obtain ⟨body, hinsert, rfl⟩ := insert_sound hparse
    obtain ⟨semicolon, last, hs, hl, rfl⟩ := ends_sound ht hsemicolon hend
    exact .insert hinsert hs hl
  · split at h
    · simp only [except_bind_ok, Prod.exists] at h
      obtain ⟨_, _, hbody, t2, hsemicolon, t3, hend, heq⟩ := h
      obtain ⟨⟨select, t⟩, hparse, hpair⟩ := except_map_ok.mp hbody
      cases hpair
      cases heq
      obtain ⟨body, hselect, rfl⟩ := select_sound hparse
      obtain ⟨semicolon, last, hs, hl, rfl⟩ := ends_sound ht hsemicolon hend
      exact .select hselect hs hl
    · cases h

theorem select_not_insert {token : Token} (h : isKeyword token (ascii "SELECT") = true) :
    isKeyword token (ascii "INSERT") = false := by
  simp only [isKeyword, stringsEqualIgnoreCase, Bool.and_eq_true, beq_iff_eq] at h
  simp only [isKeyword, stringsEqualIgnoreCase, h.1, h.2]
  decide

theorem parse_complete {statement : Statement} (h : Sentence tokens statement) :
    parseStatement tokens = .ok statement := by
  cases h with
  | @insert body s semicolon last h hs hl =>
    have hparse := insert_complete h [semicolon, last]
    have hfirst : isKeyword (currentToken (body ++ [semicolon, last])) (ascii "INSERT") = true := by
      cases h with
      | intro hi => exact hi
    unfold parseStatement
    rw [if_pos hfirst]
    simp only [except_bind_ok, Prod.exists]
    exact ⟨_, _, except_map_ok.mpr ⟨_, hparse, rfl⟩,
      _, (expectType_iff (by decide)).mpr ⟨semicolon, hs, rfl⟩, [],
      by rw [expectType, current_cons, if_pos hl]; rfl, rfl⟩
  | @select body s semicolon last h hs hl =>
    have hparse := select_complete h hs [last]
    have hfirst : isKeyword (currentToken (body ++ [semicolon, last])) (ascii "SELECT") = true := by
      cases h with
      | intro hk => exact hk
    unfold parseStatement
    rw [if_neg (by simp [select_not_insert hfirst]), if_pos hfirst]
    simp only [except_bind_ok, Prod.exists]
    exact ⟨_, _, except_map_ok.mpr ⟨_, hparse, rfl⟩,
      _, (expectType_iff (by decide)).mpr ⟨semicolon, hs, rfl⟩, [],
      by rw [expectType, current_cons, if_pos hl]; rfl, rfl⟩

end Sentences

section Bounds

open ParserState (ParseFailure)

variable {tokens rest : List Token} {index : Nat}

/-- The rest of the array from an index that it has. -/
structure At (tokens : List Token) (index : Nat) (rest : List Token) : Prop where
  rest_eq : rest = tokens.drop index
  terminated : Terminated rest

theorem Terminated.ne_nil (h : Terminated tokens) : tokens ≠ [] := by
  cases h <;> exact List.cons_ne_nil _ _

theorem At.get (h : At tokens index rest) : tokens[index]? = rest.head? := by
  rw [h.rest_eq, List.head?_drop]

/-- There is a token to read, and past one that is no end there is another. -/
theorem At.current (h : At tokens index rest) :
    ParserState.currentToken tokens index = .ok (currentToken rest) ∧
      ((currentToken rest).type ≠ .end → At tokens (index + 1) rest.tail) := by
  have hget := h.get
  obtain ⟨heq, ht⟩ := h
  have htail : rest.tail = tokens.drop (index + 1) := by rw [heq, List.tail_drop]
  cases ht with
  | @last token hl =>
    refine ⟨?_, fun h => absurd hl h⟩
    unfold ParserState.currentToken
    rw [hget]
    rfl
  | @cons token rest hne ht =>
    refine ⟨?_, fun _ => ⟨htail, ht⟩⟩
    unfold ParserState.currentToken
    rw [hget]
    rfl

theorem expectedError_follows {α β : Type} {R : α → β → Prop} (h : At tokens index rest)
    (expected : Bytes) :
    Follows ParseFailure.message R (ParserState.setExpectedTokenError expected tokens index)
      (.error (expectedTokenError rest expected)) := by
  unfold ParserState.setExpectedTokenError
  rw [h.current.1, ← h.rest_eq]
  exact .error _

theorem expectType_follows {type : TokenType} (hne : type ≠ .end) (message : Bytes)
    (h : At tokens index rest) :
    Follows ParseFailure.message (At tokens) (ParserState.expectType type message tokens index)
      (expectType type message rest) := by
  unfold ParserState.expectType expectType
  rw [h.current.1]
  change Follows _ _ (if (currentToken rest).type = type then _ else _) _
  split
  · rename_i ht
    exact .ok (h.current.2 (ht ▸ hne))
  · exact expectedError_follows h message

theorem expectKeyword_follows (keyword : Bytes) (h : At tokens index rest) :
    Follows ParseFailure.message (At tokens) (ParserState.expectKeyword keyword tokens index)
      (expectKeyword keyword rest) := by
  unfold ParserState.expectKeyword expectKeyword
  rw [h.current.1]
  change Follows _ _ (if isKeyword (currentToken rest) keyword = true then _ else _) _
  split
  · rename_i hk
    refine .ok (h.current.2 ?_)
    rw [keyword_identifier hk]
    decide
  · exact expectedError_follows h _

/-- A result with what is left of the tokens. -/
def With {α : Type} (tokens : List Token) (checked : α × Nat) (plain : α × List Token) : Prop :=
  checked.1 = plain.1 ∧ At tokens checked.2 plain.2

theorem parseToken_follows {accepts : Token → Bool}
    (hend : ∀ token : Token, accepts token = true → token.type ≠ .end) (expected : Bytes)
    (h : At tokens index rest) :
    Follows ParseFailure.message (With tokens) (ParserState.parseToken accepts expected tokens index)
      (parseToken accepts expected rest) := by
  unfold ParserState.parseToken parseToken
  rw [h.current.1]
  change Follows _ _ (if accepts (currentToken rest) = true then _ else _) _
  split
  · rename_i ha
    exact .ok ⟨rfl, h.current.2 (hend _ ha)⟩
  · exact expectedError_follows h _

/-- The list of the array starts like the list of its tokens. -/
theorem parseTokenList_at {accepts : Token → Bool} {token : Token} (expected : Bytes)
    (h : tokens[index]? = some token) :
    ParserState.parseTokenList accepts expected tokens index =
      if accepts token then
        match tokens[index + 1]? with
        | none => .error (.outOfBounds (index + 1))
        | some separator =>
          if separator.type = .comma then
            (ParserState.parseTokenList accepts expected tokens (index + 2)).map
              fun (texts, next) => (token.text :: texts, next)
          else .ok ([token.text], index + 1)
      else ParserState.setExpectedTokenError expected tokens index := by
  rw [ParserState.parseTokenList]
  split
  · rename_i hn
    rw [h] at hn
    cases hn
  · rename_i found hf
    rw [h] at hf
    cases hf
    rfl

theorem parseTokenList_follows {accepts : Token → Bool}
    (hend : ∀ token : Token, accepts token = true → token.type ≠ .end) (expected : Bytes)
    (h : At tokens index rest) :
    Follows ParseFailure.message (With tokens)
      (ParserState.parseTokenList accepts expected tokens index)
      (parseTokenList accepts expected rest) := by
  fun_induction parseTokenList accepts expected rest generalizing index with
  | case1 => exact absurd rfl h.terminated.ne_nil
  | case2 token ha =>
    have hnext := h.current.2 (hend token ha)
    exact absurd rfl hnext.terminated.ne_nil
  | case3 token ha separator rest' hc ih =>
    have hnext := h.current.2 (hend token ha)
    have hafter : At tokens (index + 2) rest' := by
      apply hnext.current.2
      change separator.type ≠ .end
      rw [hc]
      decide
    rw [parseTokenList_at expected h.get, if_pos ha, hnext.get]
    change Follows _ _ (if separator.type = .comma then _ else _) _
    rw [if_pos hc]
    exact (ih hafter).map fun a b hab => ⟨congrArg (token.text :: ·) hab.1, hab.2⟩
  | case4 token ha separator rest' hc =>
    have hnext := h.current.2 (hend token ha)
    rw [parseTokenList_at expected h.get, if_pos ha, hnext.get]
    change Follows _ _ (if separator.type = .comma then _ else _) _
    rw [if_neg hc]
    exact .ok ⟨rfl, hnext⟩
  | case5 token rest' ha =>
    rw [parseTokenList_at expected h.get, if_neg ha]
    exact expectedError_follows h expected

theorem insert_follows (h : At tokens index rest) :
    Follows ParseFailure.message (With tokens) (ParserState.parseInsert tokens index)
      (parseInsert rest) := by
  refine (expectKeyword_follows _ h).bind fun _ _ h => ?_
  refine (expectKeyword_follows _ h).bind fun _ _ h => ?_
  refine (parseToken_follows identifier_not_end _ h).bind ?_
  rintro ⟨name, _⟩ ⟨_, _⟩ ⟨rfl, h⟩
  refine (expectType_follows (by decide) _ h).bind fun _ _ h => ?_
  refine (parseTokenList_follows identifier_not_end _ h).bind ?_
  rintro ⟨columns, _⟩ ⟨_, _⟩ ⟨rfl, h⟩
  refine (expectType_follows (by decide) _ h).bind fun _ _ h => ?_
  refine (expectKeyword_follows _ h).bind fun _ _ h => ?_
  refine (expectType_follows (by decide) _ h).bind fun _ _ h => ?_
  refine (parseTokenList_follows (fun _ => value_not_end) _ h).bind ?_
  rintro ⟨values, _⟩ ⟨_, _⟩ ⟨rfl, h⟩
  refine (expectType_follows (by decide) _ h).bind fun _ _ h => ?_
  exact .ok ⟨rfl, h⟩

theorem selectList_follows (h : At tokens index rest) :
    Follows ParseFailure.message (With tokens) (ParserState.parseSelectList tokens index)
      (parseSelectList rest) := by
  unfold ParserState.parseSelectList parseSelectList
  rw [h.current.1]
  change Follows _ _ (if (currentToken rest).type = .star then _ else _) _
  split
  · rename_i hs
    refine .ok ⟨rfl, h.current.2 ?_⟩
    rw [hs]
    decide
  · refine (parseTokenList_follows identifier_not_end _ h).bind ?_
    rintro ⟨columns, _⟩ ⟨_, _⟩ ⟨rfl, h⟩
    exact .ok ⟨rfl, h⟩

theorem connector_follows (h : At tokens index rest) :
    Follows ParseFailure.message (fun _ _ => True)
      (ParserState.rejectUnsupportedWhereConnector tokens index)
      (rejectUnsupportedWhereConnector rest) := by
  unfold ParserState.rejectUnsupportedWhereConnector
  rw [h.current.1, ← h.rest_eq]
  cases rejectUnsupportedWhereConnector rest with
  | ok _ => exact .ok trivial
  | error message => exact .error message

theorem where_follows (h : At tokens index rest) :
    Follows ParseFailure.message (With tokens) (ParserState.parseWhere tokens index)
      (parseWhere rest) := by
  unfold ParserState.parseWhere parseWhere
  rw [h.current.1]
  change Follows _ _ (if isKeyword (currentToken rest) (ascii "WHERE") = true then _ else _) _
  split
  · rename_i hk
    have hnext : At tokens (index + 1) rest.tail := by
      apply h.current.2
      rw [keyword_identifier hk]
      decide
    refine (parseToken_follows identifier_not_end _ hnext).bind ?_
    rintro ⟨column, _⟩ ⟨_, _⟩ ⟨rfl, h⟩
    refine (expectType_follows (by decide) _ h).bind fun _ _ h => ?_
    refine (parseToken_follows (fun _ => value_not_end) _ h).bind ?_
    rintro ⟨value, _⟩ ⟨_, _⟩ ⟨rfl, h⟩
    refine (connector_follows h).bind fun _ _ _ => ?_
    exact .ok ⟨rfl, h⟩
  · exact .ok ⟨rfl, h⟩

theorem select_follows (h : At tokens index rest) :
    Follows ParseFailure.message (With tokens) (ParserState.parseSelect tokens index)
      (parseSelect rest) := by
  refine (expectKeyword_follows _ h).bind fun _ _ h => ?_
  refine (selectList_follows h).bind ?_
  rintro ⟨columns, _⟩ ⟨_, _⟩ ⟨rfl, h⟩
  refine (expectKeyword_follows _ h).bind fun _ _ h => ?_
  refine (parseToken_follows identifier_not_end _ h).bind ?_
  rintro ⟨name, _⟩ ⟨_, _⟩ ⟨rfl, h⟩
  refine (where_follows h).bind ?_
  rintro ⟨whereClause, _⟩ ⟨_, _⟩ ⟨rfl, h⟩
  exact .ok ⟨rfl, h⟩

/-- The last rule may pass the end token; nothing is read after it. -/
theorem expectEnd_follows (message : Bytes) (h : At tokens index rest) :
    Follows ParseFailure.message (fun _ _ => True)
      (ParserState.expectType .end message tokens index) (expectType .end message rest) := by
  unfold ParserState.expectType expectType
  rw [h.current.1]
  change Follows _ _ (if (currentToken rest).type = .end then _ else _) _
  split
  · exact .ok trivial
  · exact expectedError_follows h message

/-- Over an array with an end, the parse that checks its indices goes like the
parse of the list of its tokens. -/
theorem parseStatement_follows (ht : Terminated tokens) :
    Follows ParseFailure.message Eq (ParserState.parseStatement tokens) (parseStatement tokens) := by
  have h : At tokens 0 tokens := ⟨rfl, ht⟩
  have hends : ∀ {statement : Statement} {index : Nat} {rest : List Token}, At tokens index rest →
      Follows ParseFailure.message Eq
        (do
          let index ← ParserState.expectType .semicolon
            (ascii "expected ';' at end of SQL statement") tokens index
          let _ ← ParserState.expectType .end (ascii "unexpected tokens after SQL statement") tokens
            index
          return statement)
        (do
          let rest ← expectType .semicolon (ascii "expected ';' at end of SQL statement") rest
          let _ ← expectType .end (ascii "unexpected tokens after SQL statement") rest
          return statement) := by
    intro statement index rest h
    refine (expectType_follows (by decide) _ h).bind fun _ _ h => ?_
    refine (expectEnd_follows _ h).bind fun _ _ _ => ?_
    exact .ok rfl
  unfold ParserState.parseStatement parseStatement
  rw [h.current.1]
  change Follows _ _ (if isKeyword (currentToken tokens) (ascii "INSERT") = true then _ else _) _
  split
  · have hbody : Follows ParseFailure.message (With tokens)
        ((ParserState.parseInsert tokens 0).map fun read => (Statement.insert read.1, read.2))
        ((parseInsert tokens).map fun read => (Statement.insert read.1, read.2)) :=
      (insert_follows h).map fun _ _ hab => ⟨congrArg Statement.insert hab.1, hab.2⟩
    refine hbody.bind ?_
    rintro ⟨statement, _⟩ ⟨_, _⟩ ⟨rfl, h⟩
    exact hends h
  · split
    · have hbody : Follows ParseFailure.message (With tokens)
          ((ParserState.parseSelect tokens 0).map fun read => (Statement.select read.1, read.2))
          ((parseSelect tokens).map fun read => (Statement.select read.1, read.2)) :=
        (select_follows h).map fun _ _ hab => ⟨congrArg Statement.select hab.1, hab.2⟩
      refine hbody.bind ?_
      rintro ⟨statement, _⟩ ⟨_, _⟩ ⟨rfl, h⟩
      exact hends h
    · exact .error _

theorem lex_terminated {position : Nat} {input : Bytes} {tokens : List Token}
    (h : lexFrom position input = .ok tokens) : Terminated tokens := by
  fun_induction lexFrom position input generalizing tokens with
  | case1 position =>
    cases h
    exact .last rfl
  | case2 position current rest hspace ih => exact ih h
  | case3 position current rest hspace hstart word =>
    rename_i ih
    obtain ⟨tokens, hlex, rfl⟩ := except_map_ok.mp h
    refine .cons ?_ (ih hlex)
    change wordType word ≠ .end
    unfold wordType
    split
    · decide
    · decide
  | case4 position rest scan => cases h
  | case5 position rest scan hlast hspace hstart =>
    rename_i ih
    obtain ⟨tokens, hlex, rfl⟩ := except_map_ok.mp h
    exact .cons (fun h => by cases h) (ih hlex)
  | case6 position current rest hspace hstart hquote type htype ih =>
    obtain ⟨tokens, hlex, rfl⟩ := except_map_ok.mp h
    refine .cons ?_ (ih hlex)
    rintro rfl
    unfold symbolType at htype
    repeat' split at htype
    all_goals cases htype
  | case7 position => cases h

/-- On the tokens of any text, the parser accepts exactly the grammar, takes
over every token of a statement and reads no token past the end. -/
theorem parser_grammar {input : Bytes} {tokens : List Token} (h : lexSql input = .ok tokens) :
    (∀ statement, ParserState.parseStatement tokens = .ok statement ↔ Sentence tokens statement) ∧
      ∀ index, ParserState.parseStatement tokens ≠ .error (.outOfBounds index) := by
  have ht : Terminated tokens := lex_terminated h
  have hfollows := parseStatement_follows ht
  have hgrammar : ∀ statement, parseStatement tokens = .ok statement ↔ Sentence tokens statement :=
    fun statement => ⟨parse_sound ht, parse_complete⟩
  generalize ParserState.parseStatement tokens = checked at hfollows ⊢
  generalize parseStatement tokens = plain at hfollows hgrammar
  cases hfollows with
  | error message =>
    refine ⟨fun statement => ?_, fun index h => by cases h⟩
    rw [← hgrammar]
    exact ⟨(fun h => by cases h), (fun h => by cases h)⟩
  | @ok a b hab =>
    subst hab
    refine ⟨fun statement => ?_, fun index h => by cases h⟩
    rw [← hgrammar]
    exact ⟨fun h => congrArg _ (Except.ok.inj h), fun h => congrArg _ (Except.ok.inj h)⟩

theorem parser_grammar_select :
    Sentence
      [{ type := .identifier, text := ascii "select", position := 0 },
        { type := .star, text := ascii "*", position := 6 },
        { type := .identifier, text := ascii "from", position := 7 },
        { type := .identifier, text := ascii "t", position := 12 },
        { type := .semicolon, text := ascii ";", position := 13 },
        { type := .end, text := [], position := 14 }]
      (.select { tableName := ascii "t", columns := [], selectAll := true, whereClause := none }) :=
  have hlex : lexSql (ascii "select*from t;") = .ok
      [{ type := .identifier, text := ascii "select", position := 0 },
        { type := .star, text := ascii "*", position := 6 },
        { type := .identifier, text := ascii "from", position := 7 },
        { type := .identifier, text := ascii "t", position := 12 },
        { type := .semicolon, text := ascii ";", position := 13 },
        { type := .end, text := [], position := 14 }] := by decide +kernel
  ((parser_grammar hlex).1 _).mp rfl

end Bounds

end DbApi.Proofs.SqlGrammar
