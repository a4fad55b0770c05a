import DbApi.Execution.Executor
import DbApi.Proofs.IndexView
import DbApi.Proofs.TableFile

namespace DbApi.Proofs.StatementOutcome
open Library Common Storage Index Sql Execution TableFile IndexView

/-- An INSERT that got as far as its write: `loaded` is the state after the
next id was read, `written` the one after the write. -/
structure Appended (statement : InsertStatement) (dirs : Directories) (before : View)
    (schema : Schema) (rowValues : List Bytes) (content : Bytes) (loaded written : View) :
    Prop where
  schema_ok : loadSchema dirs before.files statement.tableName = .ok schema
  columns_ok : validateInsertColumns statement schema = .ok ()
  row_ok : buildInsertRow statement schema = .ok rowValues
  loads : before.load dirs.dataDir schema.storageName = (.ok (), loaded)
  found : before.files schema.storageName = some content
  writes : written = { loaded with
    files := Function.update before.files schema.storageName
      (some (appendRow content (encodeRow rowValues))) }

/-- Everything an INSERT can do. -/
inductive InsertOutcome (statement : InsertStatement) (dirs : Directories) (before : View) :
    ExecResult → View → Prop where
  | refused (message : Bytes) : InsertOutcome statement dirs before (execError message) before
  | unwritten (message : Bytes) (schema : Schema) :
    InsertOutcome statement dirs before (execError message)
      (before.load dirs.dataDir schema.storageName).2
  | unregistered {schema : Schema} {rowValues : List Bytes} {content message : Bytes}
      {loaded written after : View}
      (appended : Appended statement dirs before schema rowValues content loaded written)
      (register : written.register schema.storageName (loaded.indexOf schema.storageName).nextId
        (rowOffset content) = (.error message, after)) :
    InsertOutcome statement dirs before (execError message)
      (after.set schema.storageName (after.indexOf schema.storageName).unload)
  | registered {schema : Schema} {rowValues : List Bytes} {content : Bytes}
      {loaded written after : View}
      (appended : Appended statement dirs before schema rowValues content loaded written)
      (register : written.register schema.storageName (loaded.indexOf schema.storageName).nextId
        (rowOffset content) = (.ok (), after)) :
    InsertOutcome statement dirs before
      { ok := true
        affectedRows := 1
        message := ascii "INSERT 1"
        table := none
        registered := some
          { storageName := schema.storageName
            rowValues
            id := (loaded.indexOf schema.storageName).nextId
            rowOffset := rowOffset content } } after

/-- Every way an INSERT can end, with what decides it. -/
inductive InsertRun (statement : InsertStatement) (dirs : Directories) (before : View) :
    ExecResult → View → Prop where
  | noTable {message : Bytes}
      (h : loadSchema dirs before.files statement.tableName = .error message) :
    InsertRun statement dirs before (execError message) before
  | badColumns {schema : Schema} {message : Bytes}
      (schema_ok : loadSchema dirs before.files statement.tableName = .ok schema)
      (h : validateInsertColumns statement schema = .error message) :
    InsertRun statement dirs before (execError message) before
  | noIndex {schema : Schema} {message : Bytes} {loaded : View}
      (schema_ok : loadSchema dirs before.files statement.tableName = .ok schema)
      (h : before.load dirs.dataDir schema.storageName = (.error message, loaded)) :
    InsertRun statement dirs before (execError message) loaded
  | badRow {schema : Schema} {message : Bytes} {loaded : View}
      (schema_ok : loadSchema dirs before.files statement.tableName = .ok schema)
      (loads : before.load dirs.dataDir schema.storageName = (.ok (), loaded))
      (h : buildInsertRow statement schema = .error message) :
    InsertRun statement dirs before (execError message) loaded
  | noFile {schema : Schema} {message : Bytes} {loaded : View}
      (schema_ok : loadSchema dirs before.files statement.tableName = .ok schema)
      (loads : before.load dirs.dataDir schema.storageName = (.ok (), loaded))
      (h : findAppendPoint dirs.dataDir before.files schema.storageName = .error message) :
    InsertRun statement dirs before (execError message) loaded
  | unregistered {schema : Schema} {rowValues : List Bytes} {content message : Bytes}
      {loaded written after : View}
      (appended : Appended statement dirs before schema rowValues content loaded written)
      (register : written.register schema.storageName (loaded.indexOf schema.storageName).nextId
        (rowOffset content) = (.error message, after)) :
    InsertRun statement dirs before (execError message)
      (after.set schema.storageName (after.indexOf schema.storageName).unload)
  | registered {schema : Schema} {rowValues : List Bytes} {content : Bytes}
      {loaded written after : View}
      (appended : Appended statement dirs before schema rowValues content loaded written)
      (register : written.register schema.storageName (loaded.indexOf schema.storageName).nextId
        (rowOffset content) = (.ok (), after)) :
    InsertRun statement dirs before
      { ok := true
        affectedRows := 1
        message := ascii "INSERT 1"
        table := none
        registered := some
          { storageName := schema.storageName
            rowValues
            id := (loaded.indexOf schema.storageName).nextId
            rowOffset := rowOffset content } } after

theorem load_frame (dataDir name : Bytes) (v : View) :
    (v.load dataDir name).2.files = v.files ∧ (v.load dataDir name).2.forced = v.forced := by
  simp only [View.load]
  split
  · exact ⟨rfl, rfl⟩
  · split <;> exact ⟨rfl, rfl⟩

theorem load_ok {dataDir name : Bytes} {v loaded : View}
    (h : v.load dataDir name = (.ok (), loaded)) : (loaded.indexOf name).loaded = true := by
  simp only [View.load] at h
  split at h
  · rename_i hl
    obtain rfl := (Prod.mk.inj h).2
    exact hl
  · split at h
    · simp at h
    · obtain rfl := (Prod.mk.inj h).2
      simp [TableIndex.install]

theorem register_files (name : Bytes) (id : Int) (offset : Nat) (v : View) :
    (v.register name id offset).2.files = v.files := by
  simp only [View.register]
  split <;> rfl

theorem register_ok {name : Bytes} {id : Int} {offset : Nat} {v after : View}
    (h : v.register name id offset = (.ok (), after)) :
    after = (v.create name).set name (registerEntry id offset (v.indexOf name)).2 := by
  simp only [View.register] at h
  split at h
  · simp at h
  · exact (Prod.mk.inj h).2.symm

/-- `execute_insert` on the map. -/
def insertView (statement : InsertStatement) (dirs : Directories) (v : View) :
    ExecResult × View :=
  match loadSchema dirs v.files statement.tableName with
  | .error message => (execError message, v)
  | .ok schema =>
  match validateInsertColumns statement schema with
  | .error message => (execError message, v)
  | .ok () =>
  match v.load dirs.dataDir schema.storageName with
  | (.error message, loaded) => (execError message, loaded)
  | (.ok (), loaded) =>
  match buildInsertRow statement schema with
  | .error message => (execError message, loaded)
  | .ok rowValues =>
  match findAppendPoint dirs.dataDir v.files schema.storageName with
  | .error message => (execError message, loaded)
  | .ok point =>
  let nextId := (loaded.indexOf schema.storageName).nextId
  let written := { loaded with files := writeRow v.files schema.storageName point rowValues }
  match written.register schema.storageName nextId point.rowOffset with
  | (.error message, after) =>
    (execError message, after.set schema.storageName (after.indexOf schema.storageName).unload)
  | (.ok (), after) =>
    ({ ok := true
       affectedRows := 1
       message := ascii "INSERT 1"
       table := none
       registered := some
        { storageName := schema.storageName, rowValues, id := nextId,
          rowOffset := point.rowOffset } }, after)

theorem executeInsert_view (statement : InsertStatement) (dirs : Directories) (db : Database) :
    Yields (executeInsert statement dirs) db
      (fun result after => insertView statement dirs (view db) = (result, after)) := by
  rw [executeInsert, insertView]
  have hstart : (view db).files = db.dataFiles := rfl
  rw [hstart]
  refine (computes_read _).then fun db1 h1 => ?_
  cases loadSchema dirs db.dataFiles statement.tableName with
  | error message => exact yields_pure (h1 ▸ rfl)
  | ok schema =>
  dsimp only
  cases validateInsertColumns statement schema with
  | error message => exact yields_pure (h1 ▸ rfl)
  | ok _ =>
  dsimp only
  refine (computes_readEntry schema dirs.dataDir TableIndex.nextId _).then fun db2 h2 => ?_
  rw [h1, View.query] at h2 ⊢
  have hfiles := (load_frame dirs.dataDir schema.storageName (view db)).1
  cases hl : (view db).load dirs.dataDir schema.storageName with
  | mk result loaded =>
  rw [hl] at h2 hfiles
  cases result with
  | error message => exact yields_pure (h2 ▸ rfl)
  | ok _ =>
  dsimp only at h2 hfiles ⊢
  cases buildInsertRow statement schema with
  | error message => exact yields_pure (h2 ▸ rfl)
  | ok rowValues =>
  dsimp only
  refine (computes_read _).then fun db3 h3 => ?_
  have hdata : db2.dataFiles = db.dataFiles := (congrArg View.files h2).trans hfiles
  dsimp only
  rw [hdata]
  cases findAppendPoint dirs.dataDir db.dataFiles schema.storageName with
  | error message => exact yields_pure (h3 ▸ h2 ▸ rfl)
  | ok point =>
  dsimp only
  have hview3 : view db3 = loaded := h3.trans h2
  have hdata3 : db3.dataFiles = db.dataFiles := (congrArg View.files hview3).trans hfiles
  have hwrite : Computes (.modify fun db : Database =>
      { db with dataFiles := writeRow db.dataFiles schema.storageName point rowValues }) db3
      ((), { loaded with files := writeRow db.dataFiles schema.storageName point rowValues }) := by
    refine ⟨rfl, ?_⟩
    rw [← hview3]
    simp only [Program.run_modify, view, hdata3]
  refine hwrite.then fun db4 h4 => ?_
  have hloaded : ((view db4).indexOf schema.storageName).loaded = true := by
    rw [h4]
    change (loaded.indexOf schema.storageName).loaded = true
    exact load_ok hl
  have hregister := computes_registerRow dirs.dataDir (loaded.indexOf schema.storageName).nextId
    point.rowOffset hloaded
  rw [h4] at hregister
  dsimp only at hregister
  generalize View.register schema.storageName (loaded.indexOf schema.storageName).nextId
    point.rowOffset _ = r at hregister ⊢
  obtain ⟨result, after⟩ := r
  refine hregister.then fun db5 h5 => ?_
  cases result with
  | error message =>
    refine (computes_invalidate _ _).then fun db6 h6 => yields_pure ?_
    rw [h6, h5]
  | ok _ =>
    refine yields_pure ?_
    rw [h5]

/-- The one way that the INSERT goes. -/
theorem insertView_run (statement : InsertStatement) (dirs : Directories) (v : View) :
    InsertRun statement dirs v (insertView statement dirs v).1 (insertView statement dirs v).2 := by
  rw [insertView]
  cases hs : loadSchema dirs v.files statement.tableName with
  | error message => exact .noTable hs
  | ok schema =>
  dsimp only
  cases hc : validateInsertColumns statement schema with
  | error message => exact .badColumns hs hc
  | ok _ =>
  dsimp only
  cases hl : v.load dirs.dataDir schema.storageName with
  | mk result loaded =>
  cases result with
  | error message => exact .noIndex hs hl
  | ok _ =>
  dsimp only
  cases hb : buildInsertRow statement schema with
  | error message => exact .badRow hs hl hb
  | ok rowValues =>
  dsimp only
  cases hp : findAppendPoint dirs.dataDir v.files schema.storageName with
  | error message => exact .noFile hs hl hp
  | ok point =>
  obtain ⟨content, hf, rfl⟩ := findAppendPoint_ok hp
  dsimp only
  rw [writeRow_eq hf]
  have happended : Appended statement dirs v schema rowValues content loaded { loaded with
      files := Function.update v.files schema.storageName
        (some (appendRow content (encodeRow rowValues))) } := ⟨hs, hc, hb, hl, hf, rfl⟩
  generalize hr : View.register schema.storageName (loaded.indexOf schema.storageName).nextId
    (rowOffset content) _ = r
  obtain ⟨result, after⟩ := r
  cases result with
  | error message => exact .unregistered happended hr
  | ok _ => exact .registered happended hr

theorem executeInsert_run (statement : InsertStatement) (dirs : Directories) (db : Database) :
    Yields (executeInsert statement dirs) db (InsertRun statement dirs (view db)) := by
  have hrun := insertView_run statement dirs (view db)
  have hview : insertView statement dirs (view db) = (_, _) := executeInsert_view statement dirs db
  rw [hview] at hrun
  exact hrun

theorem InsertRun.outcome {statement : InsertStatement} {dirs : Directories} {before after : View}
    {result : ExecResult} (h : InsertRun statement dirs before result after) :
    InsertOutcome statement dirs before result after := by
  have hunwritten {schema : Schema} {message : Bytes} {r : Except Bytes Unit} {loaded : View}
      (hl : before.load dirs.dataDir schema.storageName = (r, loaded)) :
      InsertOutcome statement dirs before (execError message) loaded := by
    have houtcome := @InsertOutcome.unwritten statement dirs before message schema
    rwa [hl] at houtcome
  cases h with
  | noTable h => exact .refused _
  | badColumns hs h => exact .refused _
  | noIndex hs h => exact hunwritten h
  | badRow hs hl h => exact hunwritten hl
  | noFile hs hl h => exact hunwritten hl
  | unregistered ha hr => exact .unregistered ha hr
  | registered ha hr => exact .registered ha hr

theorem executeInsert_outcome (statement : InsertStatement) (dirs : Directories) (db : Database) :
    Yields (executeInsert statement dirs) db (InsertOutcome statement dirs (view db)) :=
  (executeInsert_run statement dirs db).outcome

/-- A SELECT touches nothing but the index of its table. -/
theorem executeSelect_view (statement : SelectStatement) (dirs : Directories) (db : Database) :
    Yields (executeSelect statement dirs) db (fun _ after =>
      after = view db ∨ ∃ schema : Schema,
        loadSchema dirs db.dataFiles statement.tableName = .ok schema ∧
          after = ((view db).load dirs.dataDir schema.storageName).2) := by
  rw [executeSelect]
  refine (computes_read _).then fun db1 h1 => ?_
  cases hs : loadSchema dirs db.dataFiles statement.tableName with
  | error message => exact yields_pure (.inl h1)
  | ok schema =>
  dsimp only
  cases buildSelectIndexes statement schema with
  | error message => exact yields_pure (.inl h1)
  | ok selected =>
  dsimp only
  split
  · exact yields_pure (.inl h1)
  cases resolveWhereIndex statement schema with
  | error message => exact yields_pure (.inl h1)
  | ok whereIndex =>
  dsimp only
  cases statement.whereClause.filter (·.column == ascii "id") with
  | none => exact (computes_read _).yields (.inl h1)
  | some condition =>
  dsimp only
  rw [executeIndexSelect]
  cases parseIntStrict condition.value with
  | none => exact yields_pure (.inl h1)
  | some whereId =>
  refine (computes_readEntry schema dirs.dataDir _ _).then fun db2 h2 => ?_
  have hload : view db2 = ((view db).load dirs.dataDir schema.storageName).2 := by
    rw [h2, h1, View.query]
    split <;> simp_all
  generalize ((view db1).query dirs.dataDir schema.storageName _).1 = found
  rcases found with message | _ | offset
  · exact yields_pure (.inr ⟨schema, rfl, hload⟩)
  · exact yields_pure (.inr ⟨schema, rfl, hload⟩)
  · refine (computes_read _).then fun db3 h3 => ?_
    have hload3 := h3.trans hload
    dsimp only
    split
    · exact yields_pure (.inr ⟨schema, rfl, hload3⟩)
    · split <;> exact yields_pure (.inr ⟨schema, rfl, hload3⟩)

end DbApi.Proofs.StatementOutcome
