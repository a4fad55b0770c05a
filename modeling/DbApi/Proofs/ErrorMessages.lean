import DbApi.Execution.Executor
import DbApi.Library.Except
import DbApi.Sql.Parser

namespace DbApi.Proofs.ErrorMessages
open Library Common Storage Index Sql Execution

/-- A message that shows a text. -/
def Says (message : Bytes) : Prop := cString message ≠ []

theorem says_iff {message : Bytes} : Says message ↔ ∃ b ∈ message.head?, b ≠ nul := by
  cases message with
  | nil => simp [Says, cString]
  | cons b rest =>
    by_cases hb : b = nul
    · simp [Says, cString, hb]
    · simp [Says, cString, hb]

theorem says_ofList (c : Char) (cs : List Char) (hc : c.toNat.toUInt8 ≠ nul) :
    Says (ascii (String.ofList (c :: cs))) := by
  rw [says_iff]
  exact ⟨c.toNat.toUInt8, by simp [ascii], hc⟩

theorem Says.append {front : Bytes} (h : Says front) (rest : Bytes) : Says (front ++ rest) := by
  rw [says_iff] at h ⊢
  obtain ⟨b, hb, hne⟩ := h
  exact ⟨b, by simp [List.head?_append, Option.mem_def.mp hb], hne⟩

theorem Says.clip {message : Bytes} (h : Says message) {size : Nat} (hs : 1 < size) :
    Says (clip size message) := by
  rw [says_iff] at h ⊢
  obtain ⟨b, hb, hne⟩ := h
  obtain ⟨rest, rfl⟩ := List.head?_eq_some_iff.mp hb
  obtain ⟨room, hroom⟩ : ∃ room, size - 1 = room + 1 := ⟨size - 2, by omega⟩
  exact ⟨b, by simp [Library.clip, hroom], hne⟩

/-- A literal with more behind it, cut to a message. -/
theorem says_message (c : Char) (cs : List Char) (hc : c.toNat.toUInt8 ≠ nul) (rest : Bytes) :
    Says (clip messageSize (ascii (String.ofList (c :: cs)) ++ rest)) :=
  ((says_ofList c cs hc).append rest).clip (by decide)

theorem formatSystemError_speaks (c : Char) (cs : List Char) (hc : c.toNat.toUInt8 ≠ nul)
    (path reason : Bytes) :
    Says (formatSystemError (ascii (String.ofList (c :: cs))) path reason) :=
  ((((says_ofList c cs hc).append _).append _).append _).append _ |>.clip (by decide)

section Sql

theorem lexFrom_speaks (position : Nat) (input : Bytes) : FailsWith Says (lexFrom position input) := by
  fun_induction lexFrom position input with
  | case1 position => exact failsWith_ok _
  | case2 position current rest hs ih => exact ih
  | case3 position current rest hs hi word ih => exact ih.map
  | case4 position rest hs hi scan hl =>
    exact failsWith_error ((says_ofList _ _ (by decide)).append _)
  | case5 position rest hs hi scan hl ih => exact ih.map
  | case6 position current rest hs hi ha type ht ih => exact ih.map
  | case7 position current rest hs hi ha ht =>
    exact failsWith_error ((((says_ofList _ _ (by decide)).append _).append _).append _)

variable (tokens : List Token)

theorem expectedTokenError_speaks (expected : Bytes) :
    Says (expectedTokenError tokens expected) := by
  rw [expectedTokenError]
  refine ((Says.append ?_ _).append _).clip (by decide)
  split
  · rename_i h
    rw [Bool.or_eq_true, List.isPrefixOf_iff_prefix, List.isPrefixOf_iff_prefix] at h
    rcases h with ⟨rest, rfl⟩ | ⟨rest, rfl⟩
    · exact (says_ofList _ _ (by decide)).append _
    · exact (says_ofList _ _ (by decide)).append _
  · exact (says_ofList _ _ (by decide)).append _

theorem expectType_speaks (type : TokenType) (message : Bytes) :
    FailsWith Says (expectType type message tokens) := by
  rw [expectType]
  split
  · exact failsWith_ok _
  · exact failsWith_error (expectedTokenError_speaks tokens message)

theorem expectKeyword_speaks (keyword : Bytes) : FailsWith Says (expectKeyword keyword tokens) := by
  rw [expectKeyword]
  split
  · exact failsWith_ok _
  · exact failsWith_error (expectedTokenError_speaks tokens _)

theorem parseToken_speaks (accepts : Token → Bool) (expected : Bytes) :
    FailsWith Says (parseToken accepts expected tokens) := by
  rw [parseToken]
  split
  · exact failsWith_ok _
  · exact failsWith_error (expectedTokenError_speaks tokens expected)

theorem parseTokenList_speaks (accepts : Token → Bool) (expected : Bytes) :
    FailsWith Says (parseTokenList accepts expected tokens) := by
  fun_induction parseTokenList accepts expected tokens with
  | case1 => exact failsWith_error (expectedTokenError_speaks _ _)
  | case2 => exact failsWith_ok _
  | case3 token ha separator rest hc ih => exact ih.map
  | case4 => exact failsWith_ok _
  | case5 => exact failsWith_error (expectedTokenError_speaks _ _)

theorem rejectConnector_speaks : FailsWith Says (rejectUnsupportedWhereConnector tokens) := by
  simp only [rejectUnsupportedWhereConnector]
  split
  · exact failsWith_error
      ((((says_ofList _ _ (by decide)).append _).append _).append _ |>.clip (by decide))
  · exact failsWith_ok _

theorem parseInsert_speaks : FailsWith Says (parseInsert tokens) := by
  rw [parseInsert]
  refine (expectKeyword_speaks _ _).bind fun t1 _ => ?_
  refine (expectKeyword_speaks _ _).bind fun t2 _ => ?_
  refine (parseToken_speaks _ _ _).bind fun p3 _ => ?_
  refine (expectType_speaks _ _ _).bind fun t4 _ => ?_
  refine (parseTokenList_speaks _ _ _).bind fun p5 _ => ?_
  refine (expectType_speaks _ _ _).bind fun t6 _ => ?_
  refine (expectKeyword_speaks _ _).bind fun t7 _ => ?_
  refine (expectType_speaks _ _ _).bind fun t8 _ => ?_
  refine (parseTokenList_speaks _ _ _).bind fun p9 _ => ?_
  refine (expectType_speaks _ _ _).bind fun t10 _ => ?_
  exact failsWith_ok _

theorem parseSelectList_speaks : FailsWith Says (parseSelectList tokens) := by
  unfold parseSelectList
  split
  · exact failsWith_ok _
  · refine (parseTokenList_speaks _ _ _).bind fun p _ => ?_
    exact failsWith_ok _

theorem parseWhere_speaks : FailsWith Says (parseWhere tokens) := by
  unfold parseWhere
  split
  · refine (parseToken_speaks _ _ _).bind fun p1 _ => ?_
    refine (expectType_speaks _ _ _).bind fun t2 _ => ?_
    refine (parseToken_speaks _ _ _).bind fun p3 _ => ?_
    refine (rejectConnector_speaks _).bind fun _ _ => ?_
    exact failsWith_ok _
  · exact failsWith_ok _

theorem parseSelect_speaks : FailsWith Says (parseSelect tokens) := by
  rw [parseSelect]
  refine (expectKeyword_speaks _ _).bind fun t1 _ => ?_
  refine (parseSelectList_speaks _).bind fun p2 _ => ?_
  refine (expectKeyword_speaks _ _).bind fun t3 _ => ?_
  refine (parseToken_speaks _ _ _).bind fun p4 _ => ?_
  refine (parseWhere_speaks _).bind fun p5 _ => ?_
  exact failsWith_ok _

theorem parseStatement_speaks : FailsWith Says (parseStatement tokens) := by
  have hends (statement : Statement) (tokens : List Token) : FailsWith Says (do
      let tokens ← expectType .semicolon (ascii "expected ';' at end of SQL statement") tokens
      let _ ← expectType .end (ascii "unexpected tokens after SQL statement") tokens
      return statement) := by
    refine (expectType_speaks _ _ _).bind fun t1 _ => ?_
    refine (expectType_speaks _ _ _).bind fun t2 _ => ?_
    exact failsWith_ok _
  unfold parseStatement
  split
  · exact (parseInsert_speaks tokens).map.bind fun p _ => hends p.1 p.2
  · split
    · exact (parseSelect_speaks tokens).map.bind fun p _ => hends p.1 p.2
    · exact (failsWith_error (says_message _ _ (by decide) _)).bind fun p _ => hends p.1 p.2

end Sql

section Storage

theorem csvScan_speaks (line : Bytes) (s : CsvState) : FailsWith Says (csvScan line s) := by
  fun_induction csvScan line s with
  | case1 => exact failsWith_error (says_ofList _ _ (by decide))
  | case2 => exact failsWith_ok _
  | case3 => assumption
  | case4 => assumption
  | case5 => assumption
  | case6 => assumption
  | case7 => assumption
  | case8 => assumption
  | case9 => exact failsWith_error (says_ofList _ _ (by decide))
  | case10 => assumption
  | case11 => assumption

theorem csvParseLine_speaks (line : Bytes) : FailsWith Says (csvParseLine line) := csvScan_speaks _ _

theorem openTableFile_speaks (dataDir : Bytes) (files : DataFiles) (tableName : Bytes) :
    FailsWith Says (openTableFile dataDir files tableName) := by
  rw [openTableFile]
  split
  · exact failsWith_ok _
  · exact failsWith_error (formatSystemError_speaks _ _ (by decide) _ _)

theorem findAppendPoint_speaks (dataDir : Bytes) (files : DataFiles) (tableName : Bytes) :
    FailsWith Says (findAppendPoint dataDir files tableName) := by
  rw [findAppendPoint]
  split
  · rename_i message h
    exact failsWith_error (openTableFile_speaks _ _ _ message h)
  · exact failsWith_ok _

theorem readRowAtOffset_speaks (dataDir : Bytes) (files : DataFiles) (tableName : Bytes)
    (rowOffset : Nat) : FailsWith Says (readRowAtOffsetCsv dataDir files tableName rowOffset) := by
  rw [readRowAtOffsetCsv]
  split
  · rename_i message h
    exact failsWith_error (openTableFile_speaks _ _ _ message h)
  · split
    · exact failsWith_error (says_ofList _ _ (by decide))
    · dsimp only
      split
      · exact failsWith_error (says_ofList _ _ (by decide))
      · exact csvParseLine_speaks _

theorem schemaOpenError_speaks (dirs : Directories) (filename reason : Bytes) :
    Says (schemaOpenError dirs filename reason) := formatSystemError_speaks _ _ (by decide) _ _

theorem findDeclaration_speaks (dirs : Directories) (tableName : Bytes)
    (entries : List (Bytes × SchemaEntry)) :
    FailsWith Says (findDeclaration dirs tableName entries) := by
  induction entries with
  | nil => exact failsWith_error (says_ofList _ _ (by decide))
  | cons first rest ih =>
    obtain ⟨filename, entry⟩ := first
    rw [findDeclaration]
    split
    · cases entry with
      | regular content =>
        rw [fileDeclaresTable]
        split
        · contradiction
        · exact failsWith_ok _
        · exact ih
      | directory => exact failsWith_error (schemaOpenError_speaks _ _ _)
    · exact ih

theorem findSchemaPath_speaks (dirs : Directories) (tableName : Bytes) :
    FailsWith Says (findSchemaPath dirs tableName) := by
  simp only [findSchemaPath]
  split
  · exact failsWith_ok _
  · split
    · exact failsWith_error (schemaOpenError_speaks _ _ _)
    · exact findDeclaration_speaks _ _ _

theorem readMetaLines_speaks (lines : List Bytes) (s : MetaState) :
    FailsWith Says (readMetaLines lines s) := by
  induction lines generalizing s with
  | nil => exact failsWith_ok _
  | cons line rest ih =>
    simp only [readMetaLines]
    split
    · exact ih s
    split
    · exact failsWith_error (says_ofList _ _ (by decide))
    split
    · exact ih _
    split
    · split
      · rename_i message h
        exact failsWith_error (csvParseLine_speaks _ message h)
      · exact ih _
    · exact ih s

theorem readSchema_speaks (dirs : Directories) (tableName : Bytes) :
    FailsWith Says (readSchema dirs tableName) := by
  rw [readSchema]
  split
  · rename_i message h
    exact failsWith_error (findSchemaPath_speaks _ _ message h)
  split
  · rename_i message h
    exact failsWith_error (readMetaLines_speaks _ _ message h)
  split
  · exact failsWith_error (says_ofList _ _ (by decide))
  dsimp only
  split
  · exact failsWith_error (says_ofList _ _ (by decide))
  split
  · exact failsWith_error (says_ofList _ _ (by decide))
  split
  · exact failsWith_error (says_ofList _ _ (by decide))
  · exact failsWith_ok _

theorem validateCsvHeader_speaks (dataDir : Bytes) (files : DataFiles) (schema : Schema) :
    FailsWith Says (validateCsvHeader dataDir files schema) := by
  rw [validateCsvHeader]
  split
  · exact failsWith_error (formatSystemError_speaks _ _ (by decide) _ _)
  split
  · exact failsWith_error (says_ofList _ _ (by decide))
  split
  · rename_i message h
    exact failsWith_error (csvParseLine_speaks _ message h)
  split
  · exact failsWith_error (says_ofList _ _ (by decide))
  split
  · exact failsWith_error (says_ofList _ _ (by decide))
  · exact failsWith_ok _

theorem loadSchema_speaks (dirs : Directories) (files : DataFiles) (tableName : Bytes) :
    FailsWith Says (loadSchema dirs files tableName) := by
  rw [loadSchema]
  split
  · rename_i message h
    exact failsWith_error (readSchema_speaks _ _ message h)
  split
  · rename_i message h
    exact failsWith_error (validateCsvHeader_speaks _ _ _ message h)
  · exact failsWith_ok _

end Storage

section Execution

variable (schema : Schema)

theorem validateColumns_speaks (pairs : List (Bytes × Bytes)) :
    FailsWith Says (validateColumns schema pairs) := by
  induction pairs with
  | nil => exact failsWith_ok _
  | cons pair rest ih =>
    obtain ⟨column, value⟩ := pair
    rw [validateColumns]
    split
    · exact failsWith_error (says_ofList _ _ (by decide))
    split
    · exact failsWith_error (says_message _ _ (by decide) _)
    split
    · exact failsWith_error (says_ofList _ _ (by decide))
    · exact ih

theorem validateInsertColumns_speaks (statement : InsertStatement) :
    FailsWith Says (validateInsertColumns statement schema) := by
  rw [validateInsertColumns]
  split
  · exact failsWith_error (says_ofList _ _ (by decide))
  · exact validateColumns_speaks _ _

theorem assignColumns_speaks (pairs : List (Bytes × Bytes)) (assigned : List Bool)
    (rowValues : List Bytes) : FailsWith Says (assignColumns schema pairs assigned rowValues) := by
  induction pairs generalizing assigned rowValues with
  | nil => exact failsWith_ok _
  | cons pair rest ih =>
    obtain ⟨column, value⟩ := pair
    rw [assignColumns]
    split
    · exact failsWith_error (says_message _ _ (by decide) _)
    split
    · exact failsWith_error (says_message _ _ (by decide) _)
    · exact ih _ _

theorem selectColumns_speaks (columns : List Bytes) : FailsWith Says (selectColumns schema columns) := by
  induction columns with
  | nil => exact failsWith_ok _
  | cons column rest ih =>
    rw [selectColumns]
    split
    · exact ih.map
    split
    · exact failsWith_error (says_message _ _ (by decide) _)
    · exact ih.map

theorem buildSelectIndexes_speaks (statement : SelectStatement) :
    FailsWith Says (buildSelectIndexes statement schema) := by
  rw [buildSelectIndexes]
  split
  · exact failsWith_ok _
  · exact selectColumns_speaks _ _

theorem resolveWhereIndex_speaks (statement : SelectStatement) :
    FailsWith Says (resolveWhereIndex statement schema) := by
  rw [resolveWhereIndex]
  split
  · exact failsWith_ok _
  split
  · exact failsWith_ok _
  split
  · exact failsWith_error (says_message _ _ (by decide) _)
  · exact failsWith_ok _

theorem selectRows_speaks (statement : SelectStatement) (selected : List (Bytes × Option Nat))
    (whereIndex : Option Nat) (reads : List (Nat × Bytes)) (id : Int) (rows : List (List Bytes)) :
    FailsWith Says (selectRows statement schema selected whereIndex reads id rows) := by
  induction reads generalizing id rows with
  | nil => exact failsWith_ok _
  | cons read rest ih =>
    obtain ⟨offset, line⟩ := read
    simp only [selectRows]
    split
    · exact ih _ _
    split
    · rename_i message h
      exact failsWith_error (csvParseLine_speaks _ message h)
    split
    · exact failsWith_error (says_ofList _ _ (by decide))
    split
    · exact ih _ _
    · exact ih _ _

end Execution

end DbApi.Proofs.ErrorMessages
