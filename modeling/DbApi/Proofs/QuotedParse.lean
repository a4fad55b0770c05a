import DbApi.Proofs.Quotes
import DbApi.Proofs.ReadableText

namespace DbApi.Proofs.Quotes
open Library Common Sql ReadableText

/-- A message of characters that no buffer after those of the message cuts again. -/
structure Quote.Fits (quote : Quote) : Prop where
  whole : Utf8 quote.text
  kept : quote.kept < messageSize

structure InsertText (s : InsertStatement) : Prop where
  tableName : Utf8 s.tableName
  columns : AllUtf8 s.columns

structure SelectText (s : SelectStatement) : Prop where
  tableName : Utf8 s.tableName
  columns : AllUtf8 s.columns
  condition : ∀ condition ∈ s.whereClause, Utf8 condition.column

def StatementText : Statement → Prop
  | .insert s => InsertText s
  | .select s => SelectText s

/-- A parser of the model and the one with whole messages end alike. -/
abbrev Agrees {α : Type} (R : α → Prop) : Except Bytes α → Except Quote α → Prop :=
  Reports Quote.shown Quote.Fits R

section Parser

variable {tokens : List Token}

theorem current_text (h : Spelled tokens) : Utf8 (currentToken tokens).text := by
  cases tokens with
  | nil => exact utf8_nil
  | cons token rest => exact h token List.mem_cons_self

theorem tail_spelled (h : Spelled tokens) : Spelled tokens.tail :=
  fun token htoken => h token (List.mem_of_mem_tail htoken)

theorem messageQuote_fits {text : Bytes} (h : Utf8 text) : (messageQuote text).Fits :=
  ⟨h, Nat.sub_lt (by decide) Nat.one_pos⟩

theorem typeName_ascii (type : TokenType) : Ascii (tokenTypeName type) := by
  cases type <;> exact ascii_literal _ rfl

theorem description_utf8 {token : Token} (h : Utf8 token.text) : Utf8 (tokenDescription token) := by
  have hposition := (ascii_decimalNat token.position).utf8
  have hname := (typeName_ascii token.type).utf8
  unfold tokenDescription
  split
  · exact (utf8_ascii _ rfl).append hposition
  split
  · exact (((hname.append (utf8_ascii _ rfl)).append h).append (utf8_ascii _ rfl)).append hposition
  · exact (hname.append (utf8_ascii _ rfl)).append hposition

theorem tokenQuote_fits {front : Bytes} {token : Token} (hf : Utf8 front) (h : Utf8 token.text) :
    (tokenQuote front token).Fits := by
  refine ⟨hf.append (description_utf8 h), ?_⟩
  change min (messageSize - 1) _ < messageSize
  exact (Nat.min_le_left _ _).trans_lt (by decide)

/-- The buffer of the description is cut first, then that of the message. -/
theorem clip_described (front : Bytes) (token : Token) :
    clip messageSize (front ++ describeToken token) = (tokenQuote front token).shown := by
  change (front ++ (tokenDescription token).take 127).take (messageSize - 1) =
    (front ++ tokenDescription token).take (min (messageSize - 1) (front.length + 127))
  rw [← List.take_take, List.take_length_add_append]

theorem described_agrees {α : Type} {R : α → Prop} {front : Bytes} {token : Token} (hf : Utf8 front)
    (h : Utf8 token.text) : Agrees R (.error (clip messageSize (front ++ describeToken token)))
      (.error (tokenQuote front token)) := by
  rw [clip_described]
  exact .error (tokenQuote_fits hf h)

theorem expected_agrees {α : Type} {R : α → Prop} {expected : Bytes} (hexpected : Ascii expected)
    (h : Spelled tokens) : Agrees R (.error (expectedTokenError tokens expected))
      (.error (expectedTokenQuote tokens expected)) := by
  refine described_agrees (Utf8.append ?_ (utf8_ascii _ rfl)) (current_text h)
  split
  · exact hexpected.utf8
  · exact (utf8_ascii _ rfl).append hexpected.utf8

theorem type_agrees (type : TokenType) {message : Bytes} (hmessage : Ascii message)
    (h : Spelled tokens) :
    Agrees Spelled (Sql.expectType type message tokens) (expectType type message tokens) := by
  unfold Sql.expectType expectType
  split
  · exact .ok (tail_spelled h)
  · exact expected_agrees hmessage h

theorem keyword_agrees {keyword : Bytes} (hkeyword : Ascii keyword) (h : Spelled tokens) :
    Agrees Spelled (Sql.expectKeyword keyword tokens) (expectKeyword keyword tokens) := by
  unfold Sql.expectKeyword expectKeyword
  split
  · exact .ok (tail_spelled h)
  · exact expected_agrees (((ascii_literal _ rfl).append hkeyword).clip 64) h

theorem token_agrees (accepts : Token → Bool) {expected : Bytes} (hexpected : Ascii expected)
    (h : Spelled tokens) : Agrees (fun p => Utf8 p.1 ∧ Spelled p.2)
      (Sql.parseToken accepts expected tokens) (parseToken accepts expected tokens) := by
  unfold Sql.parseToken parseToken
  split
  · exact .ok ⟨current_text h, tail_spelled h⟩
  · exact expected_agrees hexpected h

theorem tokenList_agrees (accepts : Token → Bool) {expected : Bytes} (hexpected : Ascii expected)
    (h : Spelled tokens) : Agrees (fun p => AllUtf8 p.1 ∧ Spelled p.2)
      (Sql.parseTokenList accepts expected tokens) (parseTokenList accepts expected tokens) := by
  have hone : ∀ {token : Token} {rest : List Token}, Spelled (token :: rest) →
      AllUtf8 [token.text] ∧ Spelled rest := fun h =>
    ⟨List.forall_mem_singleton.mpr (current_text h), tail_spelled h⟩
  fun_induction Sql.parseTokenList accepts expected tokens with
  | case1 => exact expected_agrees hexpected h
  | case2 token haccepts =>
    rw [parseTokenList, if_pos haccepts]
    exact .ok (hone h)
  | case3 token haccepts separator rest hcomma ih =>
    rw [parseTokenList, if_pos haccepts]
    dsimp only
    rw [if_pos hcomma]
    refine (ih (tail_spelled (tail_spelled h))).map ?_
    intro p hp
    exact ⟨List.forall_mem_cons.mpr ⟨current_text h, hp.1⟩, hp.2⟩
  | case4 token haccepts separator rest hcomma =>
    rw [parseTokenList, if_pos haccepts]
    dsimp only
    rw [if_neg hcomma]
    exact .ok (hone h)
  | case5 token rest haccepts =>
    rw [parseTokenList.eq_def]
    dsimp only
    rw [if_neg haccepts]
    exact expected_agrees hexpected h

theorem connector_agrees (h : Spelled tokens) : Agrees (fun _ => True)
    (Sql.rejectUnsupportedWhereConnector tokens) (rejectUnsupportedWhereConnector tokens) := by
  unfold Sql.rejectUnsupportedWhereConnector rejectUnsupportedWhereConnector
  dsimp only
  split
  · refine Reports.error (messageQuote_fits ?_)
    exact (((utf8_ascii _ rfl).append (current_text h)).append (utf8_ascii _ rfl)).append
      (ascii_decimalNat _).utf8
  · exact .ok trivial

theorem insert_agrees (h : Spelled tokens) : Agrees (fun p => InsertText p.1 ∧ Spelled p.2)
    (Sql.parseInsert tokens) (parseInsert tokens) := by
  unfold Sql.parseInsert parseInsert
  refine (keyword_agrees (ascii_literal _ rfl) h).bind fun tokens h => ?_
  refine (keyword_agrees (ascii_literal _ rfl) h).bind fun tokens h => ?_
  refine (token_agrees _ (ascii_literal _ rfl) h).bind fun name hname => ?_
  refine (type_agrees _ (ascii_literal _ rfl) hname.2).bind fun tokens h => ?_
  refine (tokenList_agrees _ (ascii_literal _ rfl) h).bind fun columns hcolumns => ?_
  refine (type_agrees _ (ascii_literal _ rfl) hcolumns.2).bind fun tokens h => ?_
  refine (keyword_agrees (ascii_literal _ rfl) h).bind fun tokens h => ?_
  refine (type_agrees _ (ascii_literal _ rfl) h).bind fun tokens h => ?_
  refine (tokenList_agrees _ (ascii_literal _ rfl) h).bind fun values hvalues => ?_
  refine (type_agrees _ (ascii_literal _ rfl) hvalues.2).bind fun tokens h => ?_
  exact .ok ⟨⟨hname.1, hcolumns.1⟩, h⟩

theorem selectList_agrees (h : Spelled tokens) : Agrees (fun p => AllUtf8 (p.1.getD []) ∧ Spelled p.2)
    (Sql.parseSelectList tokens) (parseSelectList tokens) := by
  unfold Sql.parseSelectList parseSelectList
  split
  · exact .ok ⟨fun _ hcolumn => (List.not_mem_nil hcolumn).elim, tail_spelled h⟩
  · refine (tokenList_agrees _ (ascii_literal _ rfl) h).bind fun columns hcolumns => ?_
    exact .ok hcolumns

theorem where_agrees (h : Spelled tokens) :
    Agrees (fun p => (∀ condition ∈ p.1, Utf8 condition.column) ∧ Spelled p.2)
      (Sql.parseWhere tokens) (parseWhere tokens) := by
  unfold Sql.parseWhere parseWhere
  split
  · refine (token_agrees _ (ascii_literal _ rfl) (tail_spelled h)).bind fun column hcolumn => ?_
    refine (type_agrees _ (ascii_literal _ rfl) hcolumn.2).bind fun tokens h => ?_
    refine (token_agrees _ (ascii_literal _ rfl) h).bind fun value hvalue => ?_
    refine (connector_agrees hvalue.2).bind fun _ _ => ?_
    exact .ok ⟨fun condition hcondition => Option.some.inj hcondition ▸ hcolumn.1, hvalue.2⟩
  · exact .ok ⟨fun _ hcondition => (Option.not_mem_none _ hcondition).elim, h⟩

theorem select_agrees (h : Spelled tokens) : Agrees (fun p => SelectText p.1 ∧ Spelled p.2)
    (Sql.parseSelect tokens) (parseSelect tokens) := by
  unfold Sql.parseSelect parseSelect
  refine (keyword_agrees (ascii_literal _ rfl) h).bind fun tokens h => ?_
  refine (selectList_agrees h).bind fun list hlist => ?_
  refine (keyword_agrees (ascii_literal _ rfl) hlist.2).bind fun tokens h => ?_
  refine (token_agrees _ (ascii_literal _ rfl) h).bind fun name hname => ?_
  refine (where_agrees hname.2).bind fun condition hcondition => ?_
  exact .ok ⟨⟨hname.1, hlist.1, hcondition.1⟩, hcondition.2⟩

theorem statement_agrees (h : Spelled tokens) :
    Agrees StatementText (Sql.parseStatement tokens) (parseStatement tokens) := by
  have hends : ∀ {statement : Statement} {tokens : List Token}, StatementText statement →
      Spelled tokens → Agrees StatementText
        (do
          let tokens ← Sql.expectType .semicolon (ascii "expected ';' at end of SQL statement") tokens
          let _ ← Sql.expectType .end (ascii "unexpected tokens after SQL statement") tokens
          return statement)
        (do
          let tokens ← expectType .semicolon (ascii "expected ';' at end of SQL statement") tokens
          let _ ← expectType .end (ascii "unexpected tokens after SQL statement") tokens
          return statement) := by
    intro statement tokens htext h
    refine (type_agrees _ (ascii_literal _ rfl) h).bind fun tokens h => ?_
    refine (type_agrees _ (ascii_literal _ rfl) h).bind fun _ _ => ?_
    exact .ok htext
  unfold Sql.parseStatement parseStatement
  split
  · have hkind : Agrees (fun p => StatementText p.1 ∧ Spelled p.2)
        ((Sql.parseInsert tokens).map fun p => (Statement.insert p.1, p.2))
        ((parseInsert tokens).map fun p => (Statement.insert p.1, p.2)) :=
      (insert_agrees h).map fun _ hp => hp
    exact hkind.bind fun p hp => hends hp.1 hp.2
  split
  · have hkind : Agrees (fun p => StatementText p.1 ∧ Spelled p.2)
        ((Sql.parseSelect tokens).map fun p => (Statement.select p.1, p.2))
        ((parseSelect tokens).map fun p => (Statement.select p.1, p.2)) :=
      (select_agrees h).map fun _ hp => hp
    exact hkind.bind fun p hp => hends hp.1 hp.2
  · exact (described_agrees (R := fun p => StatementText p.1 ∧ Spelled p.2) (utf8_ascii _ rfl)
      (current_text h)).bind fun p hp => hends hp.1 hp.2

end Parser

end DbApi.Proofs.Quotes
