import DbApi.Core.EngineApi
import DbApi.Proofs.ErrorMessages
import DbApi.Proofs.RenderedTable
import DbApi.Proofs.ScanSelect
import DbApi.Proofs.SelectAnswer

namespace DbApi.Proofs.FailedStatement
open Library Common Storage Index Sql Execution Lines Http DbApi.Core
open TableFile IndexRebuild IndexView StatementOutcome IndexRuns FullScan ScanSelect SelectAnswer
open ErrorMessages RenderedTable

/-- The database of a process, whose files may change under it at any time. -/
inductive Reachable : Database → Prop where
  | start (files : DataFiles) : Reachable (startDatabase files)
  | operation {db : Database} (h : Reachable db) (dirs : Directories) (operation : Operation) :
    Reachable (operation.after dirs db)
  | edited {db : Database} (h : Reachable db) (files : DataFiles) :
    Reachable { db with dataFiles := files }

/-- Each loaded index counts some rows from 1 on, those of its file or not. -/
def Counting (v : View) : Prop :=
  ∀ name, (v.indexOf name).loaded = true →
    ∃ offsets, Indexes offsets (v.indexOf name).tree (v.indexOf name).nextId

section Counting

variable {v : View}

theorem Counting.set (hv : Counting v) {name : Bytes} {entry : TableIndex}
    (he : entry.loaded = true → ∃ offsets, Indexes offsets entry.tree entry.nextId) :
    Counting (v.set name entry) := by
  intro other ho
  by_cases hn : other = name
  · subst hn
    rw [View.indexOf_set] at ho ⊢
    exact he ho
  · rw [View.indexOf_set_ne _ hn] at ho ⊢
    exact hv other ho

theorem Counting.unload (hv : Counting v) (name : Bytes) :
    Counting (v.set name (v.indexOf name).unload) :=
  hv.set fun h => by simp [TableIndex.unload] at h

theorem Counting.load (hv : Counting v) (dataDir name : Bytes) :
    Counting (v.load dataDir name).2 := by
  have hcreate : Counting (v.create name) := hv
  simp only [View.load]
  split
  · exact hcreate
  · split
    · exact hcreate.unload name
    · rename_i tree nextId hr
      obtain ⟨content, _, _, _, hi⟩ := rebuild_sound hr
      exact hcreate.set fun _ => ⟨_, hi⟩

/-- A registration fails only where it was told to. -/
theorem Counting.register (hv : Counting v) {name : Bytes}
    (hl : (v.indexOf name).loaded = true) (offset : Nat) :
    FailsWith Says (v.register name (v.indexOf name).nextId offset).1 ∧
      Counting (v.register name (v.indexOf name).nextId offset).2 := by
  simp only [View.register]
  split
  · exact ⟨failsWith_error (says_ofList _ _ (by decide)), hv⟩
  · obtain ⟨offsets, hi⟩ := hv name hl
    obtain ⟨hok, hi'⟩ := registerEntry_indexes hi offset
    have hcreate : Counting (v.create name) := hv
    exact ⟨hok ▸ failsWith_ok _, hcreate.set fun _ => ⟨_, hi'⟩⟩

end Counting

theorem rebuild_speaks (dataDir : Bytes) (files : DataFiles) (name : Bytes) :
    FailsWith Says (rebuild dataDir files name) := by
  have hlines : ∀ (lines : List (Nat × Bytes)) (offsets : List Nat) (tree : BPlusTree Nat)
      (nextId : Int), Indexes offsets tree nextId → FailsWith Says (lines.foldlM
        (fun context line => (csvParseLine line.2).bind (rebuildRow · line.1 context))
          (tree, nextId)) := by
    intro lines
    induction lines with
    | nil => exact fun _ _ _ _ => failsWith_ok _
    | cons line lines ih =>
      intro offsets tree nextId hi
      rw [List.foldlM_cons]
      cases hp : csvParseLine line.2 with
      | error message => exact failsWith_error (csvParseLine_speaks _ message hp)
      | ok fields =>
        obtain ⟨tree', nextId', hrow, hi'⟩ := rebuildRow_ok hi fields line.1
        simp only [Except.bind, hrow]
        exact ih _ _ _ hi'
  cases hf : files name with
  | none =>
    simp only [rebuild, scanRowsCsv, openTableFile, hf]
    exact failsWith_error (formatSystemError_speaks _ _ (by decide) _ _)
  | some content =>
    by_cases hne : content = []
    · subst hne
      simp only [rebuild, scanRowsCsv, openTableFile, hf, (fgetsAll_eq_nil lineRoom_pos).mpr]
      exact failsWith_error (says_ofList _ _ (by decide))
    · rw [rebuild, scanRowsCsv_eq hf hne]
      exact hlines _ _ _ _ indexes_init

theorem standsFor_speaks (dataDir : Bytes) (v : View) (name : Bytes) :
    FailsWith Says (standsFor dataDir v name) := by
  rw [standsFor]
  split
  · exact failsWith_ok _
  · exact rebuild_speaks _ _ _

theorem load_speaks {dataDir name message : Bytes} {v loaded : View}
    (h : v.load dataDir name = (.error message, loaded)) : Says message := by
  simp only [View.load] at h
  split at h
  · cases h
  · split at h
    · rename_i hr
      obtain rfl := Except.error.inj (Prod.mk.inj h).1
      exact rebuild_speaks _ _ _ _ hr
    · cases h

/-- What an INSERT that fails shows, and what it leaves of the indexes. -/
theorem InsertRun.reports {statement : InsertStatement} {dirs : Directories} {before after : View}
    {result : ExecResult} (hv : Counting before) (h : InsertRun statement dirs before result after) :
    Counting after ∧ result.table = none ∧
      (result.ok = false → result.affectedRows = 0 ∧ Says result.message) := by
  have hloads {name : Bytes} {r : Except Bytes Unit} {loaded : View}
      (hl : before.load dirs.dataDir name = (r, loaded)) : Counting loaded := by
    have hload := hv.load dirs.dataDir name
    rwa [hl] at hload
  have hregister {schema : Schema} {rowValues : List Bytes} {content : Bytes}
      {loaded written : View}
      (ha : Appended statement dirs before schema rowValues content loaded written) :
      FailsWith Says (written.register schema.storageName
        (loaded.indexOf schema.storageName).nextId (rowOffset content)).1 ∧
      Counting (written.register schema.storageName
        (loaded.indexOf schema.storageName).nextId (rowOffset content)).2 := by
    have hindex : written.indexOf = loaded.indexOf := by rw [ha.writes]
    have hwritten : Counting written := by
      intro name
      rw [hindex]
      exact hloads ha.loads name
    have hl : (written.indexOf schema.storageName).loaded = true := by
      rw [hindex]
      exact load_ok ha.loads
    rw [← hindex]
    exact hwritten.register hl _
  cases h with
  | noTable h => exact ⟨hv, rfl, fun _ => ⟨rfl, loadSchema_speaks _ _ _ _ h⟩⟩
  | badColumns _ h => exact ⟨hv, rfl, fun _ => ⟨rfl, validateInsertColumns_speaks _ _ _ h⟩⟩
  | noIndex _ h => exact ⟨hloads h, rfl, fun _ => ⟨rfl, load_speaks h⟩⟩
  | badRow _ hl h => exact ⟨hloads hl, rfl, fun _ => ⟨rfl, assignColumns_speaks _ _ _ _ _ h⟩⟩
  | noFile _ hl h => exact ⟨hloads hl, rfl, fun _ => ⟨rfl, findAppendPoint_speaks _ _ _ _ h⟩⟩
  | unregistered ha hr =>
    obtain ⟨hspeaks, hcount⟩ := hregister ha
    rw [hr] at hspeaks hcount
    exact ⟨hcount.unload _, rfl, fun _ => ⟨rfl, hspeaks _ rfl⟩⟩
  | registered ha hr =>
    obtain ⟨_, hcount⟩ := hregister ha
    rw [hr] at hcount
    exact ⟨hcount, rfl, fun hok => by cases hok⟩

/-- A SELECT answers with a message and nothing else, or with a whole table. -/
inductive SelectOutcome : ExecResult → Prop where
  | failed {message : Bytes} (h : Says message) : SelectOutcome (execError message)
  | answered {selected : List (Bytes × Option Nat)} {rows : List (List Bytes)}
      (hne : selected ≠ []) (hr : ∀ row ∈ rows, row.length = selected.length) :
    SelectOutcome (selectResult selected rows)

theorem matchingRows_length {statement : SelectStatement} {selected : List (Bytes × Option Nat)}
    {whereIndex : Option Nat} (id : Int) (rows : List (List Bytes)) :
    ∀ row ∈ matchingRows statement selected whereIndex id rows, row.length = selected.length := by
  induction rows generalizing id with
  | nil => simp [matchingRows]
  | cons fields rows ih =>
    rw [matchingRows]
    split
    · intro row hr
      rcases List.mem_cons.mp hr with rfl | hr
      · simp [selectRow]
      · exact ih _ row hr
    · exact ih _

theorem scanSelect_outcome {statement : SelectStatement} {schema : Schema} {dataDir : Bytes}
    {files : DataFiles} {selected : List (Bytes × Option Nat)} {whereIndex : Option Nat}
    (hne : selected ≠ []) :
    SelectOutcome (scanSelect statement schema dataDir files selected whereIndex) := by
  rw [scanSelect]
  split
  · exact .failed (formatSystemError_speaks _ _ (by decide) _ _)
  split
  · exact .failed (says_ofList _ _ (by decide))
  split
  · rename_i message h
    exact .failed (selectRows_speaks _ _ _ _ _ _ _ _ h)
  · rename_i lines _ rows h
    rw [selectRows_matching] at h
    obtain ⟨read, _, rfl⟩ := except_map_ok.mp h
    exact .answered hne (matchingRows_length _ _)

theorem indexAnswer_outcome {whereValue dataDir : Bytes} {schema : Schema} {files : DataFiles}
    {index : Except Bytes (BPlusTree Nat × Int)} {selected : List (Bytes × Option Nat)}
    (hi : FailsWith Says index) (hne : selected ≠ []) :
    SelectOutcome (indexAnswer whereValue schema dataDir files index selected) := by
  rw [indexAnswer]
  split
  · exact .failed (says_ofList _ _ (by decide))
  split
  · exact .failed (hi _ rfl)
  split
  · exact .answered hne (by simp)
  split
  · rename_i message h
    exact .failed (readRowAtOffset_speaks _ _ _ _ _ h)
  split
  · exact .failed (says_ofList _ _ (by decide))
  · exact .answered hne (by simp [selectRow])

theorem selectAnswer_outcome {statement : SelectStatement} {dirs : Directories}
    {files : DataFiles} {index : Bytes → Except Bytes (BPlusTree Nat × Int)}
    (hc : statement.selectAll = false → statement.columns ≠ [])
    (hi : ∀ name, FailsWith Says (index name)) :
    SelectOutcome (selectAnswer statement dirs files index) := by
  rw [selectAnswer]
  split
  · rename_i message h
    exact .failed (loadSchema_speaks _ _ _ _ h)
  rename_i schema hs
  split
  · rename_i message h
    exact .failed (buildSelectIndexes_speaks _ _ _ h)
  rename_i selected hb
  have hne : selected ≠ [] := by
    rintro rfl
    exact requested_ne_nil hs hc (buildSelectIndexes_cells hb).1.symm
  rw [if_neg hne]
  split
  · rename_i message h
    exact .failed (resolveWhereIndex_speaks _ _ _ h)
  split
  · exact indexAnswer_outcome (hi _) hne
  · exact scanSelect_outcome hne

theorem counting_reachable {db : Database} (h : Reachable db) : Counting (view db) := by
  induction h with
  | start files =>
    intro name hl
    simp [startDatabase, view, tableIndexOf, findTableIndex, TableIndex.fresh] at hl
  | edited h files ih => exact ih
  | @operation db h dirs operation ih =>
    cases operation with
    | execute statement =>
      cases statement with
      | insert statement =>
        exact (InsertRun.reports ih (executeInsert_run statement dirs db)).1
      | select statement =>
        obtain ⟨_, hview | ⟨schema, hview⟩⟩ := executeSelect_answer statement dirs db
        · rw [Operation.after, executeStatement, hview]
          exact ih
        · rw [Operation.after, executeStatement, hview]
          exact ih.load _ _
    | invalidate name =>
      obtain ⟨_, hview⟩ := computes_invalidate db name
      rw [Operation.after, hview]
      exact ih.unload name
    | registryReset =>
      intro name hl
      simp [Operation.after, tableIndexRegistryReset, view, tableIndexOf, findTableIndex,
        TableIndex.fresh] at hl
    | forceNextRegisterFailure => exact ih

/-- A run of the engine is silent when it fails, and prints a whole table when a
SELECT succeeds. -/
theorem engine_outcome (sql : CString) (dirs : Directories) {db : Database} (h : Reachable db) :
    let run := ((serverCoreWeek8EngineRun { sql, dirs }).run db).1
    (run.ok = false → run.output = [] ∧ run.affectedRows = 0 ∧ cString run.messageBuffer ≠ []) ∧
      ∀ tokens statement, lexSql sql.bytes = .ok tokens →
        parseStatement tokens = .ok (.select statement) → run.ok = true →
        ∃ table, Rendered table run.output ∧ run.affectedRows = table.rows.length := by
  have hclip {message : Bytes} (hm : Says message) :
      cString (clip serverCoreMessageCapacity message) ≠ [] := hm.clip (by decide)
  have hcount := counting_reachable h
  simp only [serverCoreWeek8EngineRun]
  cases hl : lexSql sql.bytes with
  | error error =>
    refine ⟨fun _ => ⟨rfl, rfl, hclip (lexFrom_speaks _ _ _ hl)⟩, ?_⟩
    rintro _ _ ⟨⟩
  | ok tokens =>
  dsimp only
  cases hp : parseStatement tokens with
  | error message =>
    refine ⟨fun _ => ⟨rfl, rfl, hclip (parseStatement_speaks _ _ hp)⟩, ?_⟩
    rintro _ _ ⟨rfl⟩ hparse
    cases hp.symm.trans hparse
  | ok statement =>
  simp only [Program.run_bind, Program.run_pure]
  cases statement with
  | insert statement =>
    obtain ⟨_, htable, hfails⟩ := InsertRun.reports hcount (executeInsert_run statement dirs db)
    simp only [executeStatement, htable]
    refine ⟨fun hok => ⟨rfl, ?_, hclip (hfails hok).2⟩, ?_⟩
    · rw [(hfails hok).1]
      rfl
    · rintro _ _ ⟨rfl⟩ hparse
      cases hp.symm.trans hparse
  | select statement =>
    obtain ⟨hanswer, _⟩ := executeSelect_answer statement dirs db
    have houtcome := @selectAnswer_outcome _ dirs db.dataFiles _ (parsed_columns hl hp)
      (standsFor_speaks dirs.dataDir (view db))
    simp only [executeStatement]
    rw [← hanswer] at houtcome
    generalize ((executeSelect statement dirs).run db).1 = result at houtcome
    cases houtcome with
    | failed hm => exact ⟨fun _ => ⟨rfl, rfl, hclip hm⟩, fun _ _ _ _ hok => by cases hok⟩
    | @answered selected rows hne hr =>
      refine ⟨(fun hok => by cases hok), fun _ _ _ _ _ => ⟨_, print_rendered ?_ ?_, rfl⟩⟩
      · simpa using hne
      · simpa using hr

/-- A statement that fails writes nothing, counts no row and says why, and no
output is handed on; a SELECT that succeeds writes one table, all of it. -/
theorem failed_statement_silent (sql : CString) (dirs : Directories) (db : Database)
    (h : Reachable db) :
    let run := ((serverCoreWeek8EngineRun { sql, dirs }).run db).1
    let result := ((serverCoreExecute (some serverCoreWeek8EngineRun) { sql, dirs }).run db).1.2
    (run.ok = false → run.output = [] ∧ run.affectedRows = 0 ∧ cString run.messageBuffer ≠ []) ∧
      (∀ tokens statement, lexSql sql.bytes = .ok tokens →
        parseStatement tokens = .ok (.select statement) → run.ok = true →
        ∃ table, Rendered table run.output ∧ run.affectedRows = table.rows.length) ∧
      (result.ok = false → result.outputText = some (.of [])) := by
  obtain ⟨hfails, htable⟩ := engine_outcome sql dirs h
  refine ⟨hfails, htable, ?_⟩
  simp only [serverCoreExecute]
  split
  · exact fun _ => rfl
  · intro hok
    simp only [Program.run_bind, Program.run_pure] at hok ⊢
    exact congrArg (fun output => some (CString.of output)) (hfails hok).1

theorem failed_statement_silent_users :
    let run := ((serverCoreWeek8EngineRun
      { sql := .of (ascii "SELECT name FROM users WHERE id = abc;"), dirs := usersDirectories }).run
        (startDatabase (usersFiles (ascii "name,age\nBob,21")))).1
    run.output = [] ∧ run.affectedRows = 0 ∧ cString run.messageBuffer ≠ [] :=
  (failed_statement_silent (.of (ascii "SELECT name FROM users WHERE id = abc;")) usersDirectories
    (startDatabase (usersFiles (ascii "name,age\nBob,21"))) (.start _)).1 (by decide +kernel)

end DbApi.Proofs.FailedStatement
