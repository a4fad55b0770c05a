import DbApi.Proofs.IndexRuns

namespace DbApi.Proofs.SelectAnswer
open Library Common Storage Index Sql Execution IndexView StatementOutcome IndexRuns

/-- What the index of a table stands for: what it holds once loaded, and what a
rebuild from the file gives before. -/
def standsFor (dataDir : Bytes) (v : View) (name : Bytes) :
    Except Bytes (BPlusTree Nat × Int) :=
  if (v.indexOf name).loaded then .ok ((v.indexOf name).tree, (v.indexOf name).nextId)
  else rebuild dataDir v.files name

/-- Loading one index changes what none of them stands for. -/
theorem load_standsFor (dataDir name other : Bytes) (v : View) :
    standsFor dataDir (v.load dataDir name).2 other = standsFor dataDir v other := by
  simp only [View.load]
  split
  · rfl
  rename_i hl
  by_cases ho : other = name
  · subst ho
    cases hr : rebuild dataDir v.files other with
    | error message => simp [standsFor, TableIndex.unload, hl, hr]
    | ok built => simp [standsFor, TableIndex.install, hl, hr]
  · split <;> simp [standsFor, View.indexOf_set_ne _ ho]

theorem query_standsFor {α : Type} (dataDir name : Bytes) (read : TableIndex → α)
    (f : BPlusTree Nat × Int → α) (hf : ∀ entry, read entry = f (entry.tree, entry.nextId))
    (v : View) :
    (v.query dataDir name read).1 = (standsFor dataDir v name).map f := by
  cases hl : (v.indexOf name).loaded with
  | true => simp [View.query, View.load, standsFor, hl, Except.map, hf]
  | false =>
    cases hr : rebuild dataDir v.files name with
    | error message => simp [View.query, View.load, standsFor, hl, hr, Except.map]
    | ok built =>
      simp [View.query, View.load, standsFor, hl, hr, Except.map, hf, TableIndex.install]

theorem query_after {α : Type} (dataDir name : Bytes) (read : TableIndex → α) (v : View) :
    (v.query dataDir name read).2 = (v.load dataDir name).2 := by
  rw [View.query]
  split <;> simp_all

/-- The answer of the indexed path. -/
def indexAnswer (whereValue : Bytes) (schema : Schema) (dataDir : Bytes) (files : DataFiles)
    (index : Except Bytes (BPlusTree Nat × Int)) (selected : List (Bytes × Option Nat)) :
    ExecResult :=
  match parseIntStrict whereValue with
  | none => execError (ascii "WHERE id value must be an integer")
  | some whereId =>
    match index with
    | .error message => execError message
    | .ok (tree, _) =>
      match bptreeSearch tree whereId with
      | none => selectResult selected []
      | some rowOffset =>
        match readRowAtOffsetCsv dataDir files schema.storageName rowOffset with
        | .error message => execError message
        | .ok fields =>
          if fields.length ≠ schema.columns.length then
            execError (ascii "CSV row does not match schema column count")
          else selectResult selected [selectRow selected fields whereId]

/-- A SELECT as a function of the files and of what the indexes stand for. -/
def selectAnswer (statement : SelectStatement) (dirs : Directories) (files : DataFiles)
    (index : Bytes → Except Bytes (BPlusTree Nat × Int)) : ExecResult :=
  match loadSchema dirs files statement.tableName with
  | .error message => execError message
  | .ok schema =>
    match buildSelectIndexes statement schema with
    | .error message => execError message
    | .ok selected =>
      if selected = [] then execError []
      else
        match resolveWhereIndex statement schema with
        | .error message => execError message
        | .ok whereIndex =>
          match statement.whereClause.filter (·.column == ascii "id") with
          | some condition =>
            indexAnswer condition.value schema dirs.dataDir files (index schema.storageName) selected
          | none => scanSelect statement schema dirs.dataDir files selected whereIndex

/-- A SELECT answers so, and at most loads the index of its table. -/
theorem executeSelect_answer (statement : SelectStatement) (dirs : Directories) (db : Database) :
    Yields (executeSelect statement dirs) db (fun result after =>
      result = selectAnswer statement dirs db.dataFiles
        (standsFor dirs.dataDir (view db)) ∧
      (after = view db ∨ ∃ schema : Schema,
        after = ((view db).load dirs.dataDir schema.storageName).2)) := by
  rw [executeSelect, selectAnswer]
  refine (computes_read _).then fun db1 h1 => ?_
  cases loadSchema dirs db.dataFiles statement.tableName with
  | error message => exact yields_pure ⟨rfl, .inl h1⟩
  | ok schema =>
  dsimp only
  cases buildSelectIndexes statement schema with
  | error message => exact yields_pure ⟨rfl, .inl h1⟩
  | ok selected =>
  dsimp only
  split
  · exact yields_pure ⟨rfl, .inl h1⟩
  cases resolveWhereIndex statement schema with
  | error message => exact yields_pure ⟨rfl, .inl h1⟩
  | ok whereIndex =>
  dsimp only
  have hfiles : db1.dataFiles = db.dataFiles := congrArg View.files h1
  cases statement.whereClause.filter (·.column == ascii "id") with
  | none => exact (computes_read _).yields ⟨by rw [hfiles], .inl h1⟩
  | some condition =>
  dsimp only
  rw [executeIndexSelect, indexAnswer]
  cases parseIntStrict condition.value with
  | none => exact yields_pure ⟨rfl, .inl h1⟩
  | some whereId =>
  refine (computes_readEntry schema dirs.dataDir _ _).then fun db2 h2 => ?_
  have hload : view db2 = ((view db).load dirs.dataDir schema.storageName).2 := by
    rw [h2, h1, query_after]
  have hdata : db2.dataFiles = db.dataFiles :=
    (congrArg View.files hload).trans (load_frame dirs.dataDir schema.storageName (view db)).1
  rw [h1, query_standsFor dirs.dataDir schema.storageName _
    (fun index => bptreeSearch index.1 whereId) (fun _ => rfl)]
  cases standsFor dirs.dataDir (view db) schema.storageName with
  | error message => exact yields_pure ⟨rfl, .inr ⟨schema, hload⟩⟩
  | ok index =>
  dsimp only [Except.map]
  cases bptreeSearch index.1 whereId with
  | none => exact yields_pure ⟨rfl, .inr ⟨schema, hload⟩⟩
  | some offset =>
  dsimp only
  refine (computes_read _).then fun db3 h3 => ?_
  have hload3 := h3.trans hload
  rw [hdata]
  cases readRowAtOffsetCsv dirs.dataDir db.dataFiles schema.storageName offset with
  | error message => exact yields_pure ⟨rfl, .inr ⟨schema, hload3⟩⟩
  | ok fields =>
    dsimp only
    split
    · exact yields_pure ⟨rfl, .inr ⟨schema, hload3⟩⟩
    · exact yields_pure ⟨rfl, .inr ⟨schema, hload3⟩⟩

/-- No lookup can tell the two apart. -/
structure SameAnswers (dataDir : Bytes) (v w : View) : Prop where
  files : v.files = w.files
  index : ∀ name, standsFor dataDir v name = standsFor dataDir w name

namespace SameAnswers

variable {dataDir : Bytes} {v w u : View}

theorem refl (v : View) : SameAnswers dataDir v v := ⟨rfl, fun _ => rfl⟩

theorem symm (h : SameAnswers dataDir v w) : SameAnswers dataDir w v :=
  ⟨h.files.symm, fun name => (h.index name).symm⟩

theorem trans (h : SameAnswers dataDir v w) (h' : SameAnswers dataDir w u) :
    SameAnswers dataDir v u :=
  ⟨h.files.trans h'.files, fun name => (h.index name).trans (h'.index name)⟩

theorem load (v : View) (name : Bytes) : SameAnswers dataDir (v.load dataDir name).2 v :=
  ⟨(load_frame dataDir name v).1, fun other => load_standsFor dataDir name other v⟩

end SameAnswers

variable {dirs : Directories} {before after : Database}

/-- A lookup leaves the answers of all lookups as they are. -/
theorem select_keeps (statement : SelectStatement) (dirs : Directories) (db : Database) :
    SameAnswers dirs.dataDir (view ((executeStatement (.select statement) dirs).run db).2)
      (view db) := by
  obtain ⟨_, hview | ⟨schema, hview⟩⟩ := executeSelect_answer statement dirs db
  · rw [executeStatement, hview]
    exact .refl _
  · rw [executeStatement, hview]
    exact .load _ _

theorem select_same (h : SameAnswers dirs.dataDir (view after) (view before))
    (statement : SelectStatement) :
    ((executeStatement (.select statement) dirs).run after).1 =
      ((executeStatement (.select statement) dirs).run before).1 := by
  obtain ⟨hafter, _⟩ := executeSelect_answer statement dirs after
  obtain ⟨hbefore, _⟩ := executeSelect_answer statement dirs before
  have hfiles : after.dataFiles = before.dataFiles := h.files
  have hindex : standsFor dirs.dataDir (view after) =
      standsFor dirs.dataDir (view before) := funext h.index
  rw [executeStatement, hafter, hbefore, hfiles, hindex]

theorem findRow_same (h : SameAnswers dirs.dataDir (view after) (view before)) (schema : Schema)
    (id : Int) :
    ((tableIndexFindRow schema dirs.dataDir id).run after).1 =
      ((tableIndexFindRow schema dirs.dataDir id).run before).1 := by
  have hquery (db : Database) : ((tableIndexFindRow schema dirs.dataDir id).run db).1 =
      (standsFor dirs.dataDir (view db) schema.storageName).map
        (fun index => bptreeSearch index.1 id) := by
    rw [tableIndexFindRow, (computes_readEntry schema dirs.dataDir _ db).1]
    exact query_standsFor _ _ _ (fun index => bptreeSearch index.1 id) (fun _ => rfl) _
  rw [hquery, hquery, h.index]

/-- Lookups, one after the other. -/
def runSelects (dirs : Directories) (lookups : List SelectStatement) (db : Database) : Database :=
  runAll dirs (lookups.map fun statement => .execute (.select statement)) db

theorem runSelects_keeps (dirs : Directories) (lookups : List SelectStatement) (db : Database) :
    SameAnswers dirs.dataDir (view (runSelects dirs lookups db)) (view db) := by
  induction lookups generalizing db with
  | nil => exact .refl _
  | cons statement lookups ih => exact (ih _).trans (select_keeps statement dirs db)

/-- Whatever is looked up, now or later, is answered the same. -/
def AnswersAlike (dirs : Directories) (before after : Database) : Prop :=
  ∀ lookups : List SelectStatement,
    (∀ statement : SelectStatement,
      ((executeStatement (.select statement) dirs).run (runSelects dirs lookups after)).1 =
        ((executeStatement (.select statement) dirs).run (runSelects dirs lookups before)).1) ∧
    ∀ (schema : Schema) (id : Int),
      ((tableIndexFindRow schema dirs.dataDir id).run (runSelects dirs lookups after)).1 =
        ((tableIndexFindRow schema dirs.dataDir id).run (runSelects dirs lookups before)).1

theorem SameAnswers.alike (h : SameAnswers dirs.dataDir (view after) (view before)) :
    AnswersAlike dirs before after := by
  intro lookups
  have hlater : SameAnswers dirs.dataDir (view (runSelects dirs lookups after))
      (view (runSelects dirs lookups before)) :=
    ((runSelects_keeps dirs lookups after).trans h).trans (runSelects_keeps dirs lookups before).symm
  exact ⟨select_same hlater, findRow_same hlater⟩

end DbApi.Proofs.SelectAnswer
