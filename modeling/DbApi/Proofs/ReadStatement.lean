import DbApi.Core.EngineApi
import DbApi.Proofs.FullScan
import DbApi.Proofs.LockClassifier

/-! What a statement that takes the lock to read may still write: the index of its own table,
when it looks a row up by its id and finds the index not loaded. -/

namespace DbApi.Proofs.ReadStatement
open Library Common Storage Index Sql Execution Concurrency IndexView FullScan
open DbApi.Core LockClassifier

/-- What `ensure_loaded` makes of an entry that is not loaded. -/
def loadEntry (dataDir : Bytes) (files : DataFiles) (tableName : Bytes) (entry : TableIndex) :
    TableIndex :=
  match rebuild dataDir files tableName with
  | .error _ => entry.unload
  | .ok (tree, nextId) => entry.install tree nextId

/-- The registry with the entry of this table created where it was missing, and loaded. -/
def loadRegistry (dataDir : Bytes) (files : DataFiles) (tableName : Bytes)
    (registry : List TableIndex) : List TableIndex :=
  updateTableIndex tableName (loadEntry dataDir files tableName) (getOrCreate tableName registry)

section Registry

variable {tableName : Bytes} {registry : List TableIndex} {f g : TableIndex → TableIndex}

theorem update_twice (hf : ∀ entry, (f entry).tableName = entry.tableName) :
    updateTableIndex tableName g (updateTableIndex tableName f registry) =
      updateTableIndex tableName (fun entry => g (f entry)) registry := by
  induction registry with
  | nil => rfl
  | cons entry rest ih =>
    by_cases hname : entry.tableName = tableName
    · have hupdated : (f entry).tableName = tableName := (hf entry).trans hname
      rw [updateTableIndex, if_pos hname, updateTableIndex, if_pos hupdated, updateTableIndex,
        if_pos hname]
    · rw [updateTableIndex, if_neg hname, updateTableIndex, if_neg hname, updateTableIndex,
        if_neg hname, ih]

theorem getOrCreate_of_loaded (h : (tableIndexOf registry tableName).loaded = true) :
    getOrCreate tableName registry = registry := by
  obtain ⟨entry, hfind⟩ := find_some (mem_of_loaded h)
  rw [getOrCreate, hfind]

theorem loadEntry_name (dataDir : Bytes) (files : DataFiles) (entry : TableIndex) :
    (loadEntry dataDir files tableName entry).tableName = entry.tableName := by
  rw [loadEntry]
  split
  · rfl
  · rfl

theorem indexOf_loadRegistry (dataDir : Bytes) (files : DataFiles) {other : Bytes}
    (h : other ≠ tableName) :
    tableIndexOf (loadRegistry dataDir files tableName registry) other =
      tableIndexOf registry other := by
  rw [loadRegistry, indexOf_update (loadEntry_name dataDir files) mem_getOrCreate,
    Function.update_of_ne h, indexOf_getOrCreate]

/-- The entry that an update reaches is the one that a search finds. -/
theorem mem_update {entry : TableIndex} (hentry : entry ∈ registry)
    (h : entry.tableName = tableName → tableIndexOf registry tableName ≠ entry) :
    entry ∈ updateTableIndex tableName f registry := by
  induction registry with
  | nil => cases hentry
  | cons first rest ih =>
    rw [updateTableIndex]
    split
    · rename_i hname
      rcases List.mem_cons.mp hentry with rfl | hrest
      · refine absurd ?_ (h hname)
        simp [tableIndexOf, findTableIndex, hname]
      · exact List.mem_cons_of_mem _ hrest
    · rename_i hname
      rcases List.mem_cons.mp hentry with rfl | hrest
      · exact List.mem_cons_self
      · refine List.mem_cons_of_mem _ (ih hrest ?_)
        intro hsame
        have hfound := h hsame
        simpa [tableIndexOf, findTableIndex, hname] using hfound

theorem mem_getOrCreate_of_mem {entry : TableIndex} (h : entry ∈ registry) :
    entry ∈ getOrCreate tableName registry := by
  rw [getOrCreate]
  split
  · exact h
  · exact List.mem_append_left _ h

/-- Nothing that was loaded is lost. -/
theorem mem_loadRegistry (dataDir : Bytes) (files : DataFiles) {entry : TableIndex}
    (hentry : entry ∈ registry) (hloaded : entry.loaded = true)
    (h : (tableIndexOf registry tableName).loaded = false) :
    entry ∈ loadRegistry dataDir files tableName registry := by
  apply mem_update (mem_getOrCreate_of_mem hentry)
  intro _ hfound
  rw [indexOf_getOrCreate] at hfound
  rw [hfound, hloaded] at h
  cases h

end Registry

section Loading

variable {dirs : Directories} {db : Database}

theorem ensureLoaded_state (schema : Schema) (dataDir : Bytes) (db : Database) :
    ((ensureLoaded schema dataDir).run db).2 =
      if (tableIndexOf db.registry schema.storageName).loaded then db
      else { db with
        registry := loadRegistry dataDir db.dataFiles schema.storageName db.registry } := by
  rw [ensureLoaded, Program.run_bind, getOrCreateTableIndex, Program.run_atomic]
  simp only [indexOf_getOrCreate]
  split
  · rename_i hloaded
    rw [Program.run_pure, getOrCreate_of_loaded hloaded]
  · rw [Program.run_bind, Program.run_modify, Program.run_bind, Program.run_read]
    dsimp only [Database.updateEntry]
    rw [loadRegistry]
    cases hr : rebuild dataDir db.dataFiles schema.storageName with
    | error message =>
      have hentry : loadEntry dataDir db.dataFiles schema.storageName =
          fun entry => entry.clear.unload := by
        funext entry
        rw [loadEntry, hr]
        rfl
      dsimp only
      rw [Program.run_bind, Program.run_modify, Program.run_pure]
      dsimp only
      rw [update_twice (f := TableIndex.clear) fun _ => rfl, hentry]
    | ok context =>
      obtain ⟨tree, nextId⟩ := context
      have hentry : loadEntry dataDir db.dataFiles schema.storageName =
          fun entry => entry.clear.install tree nextId := by
        funext entry
        rw [loadEntry, hr]
        rfl
      dsimp only
      rw [Program.run_bind, Program.run_modify, Program.run_pure]
      dsimp only
      rw [update_twice (f := TableIndex.clear) fun _ => rfl, hentry]

theorem readEntry_state {α : Type} (schema : Schema) (dataDir : Bytes) (read : TableIndex → α)
    (db : Database) :
    ((readEntry schema dataDir read).run db).2 = ((ensureLoaded schema dataDir).run db).2 := by
  rw [readEntry, Program.run_bind]
  cases ((ensureLoaded schema dataDir).run db).1 with
  | error message => rfl
  | ok _ => rfl

theorem indexSelect_state (whereValue : Bytes) (schema : Schema) (dataDir : Bytes)
    (selected : List (Bytes × Option Nat)) (db : Database) :
    ((executeIndexSelect whereValue schema dataDir selected).run db).2 = db ∨
      ((executeIndexSelect whereValue schema dataDir selected).run db).2 =
        ((ensureLoaded schema dataDir).run db).2 := by
  rw [executeIndexSelect]
  cases parseIntStrict whereValue with
  | none => exact .inl rfl
  | some whereId =>
    apply Or.inr
    rw [← readEntry_state schema dataDir (fun entry => bptreeSearch entry.tree whereId)]
    dsimp only
    rw [Program.run_bind, tableIndexFindRow]
    rcases ((readEntry schema dataDir (fun entry => bptreeSearch entry.tree whereId)).run db).1
      with message | _ | rowOffset
    · rfl
    · rfl
    · dsimp only
      rw [Program.run_bind, Program.run_read]
      dsimp only
      split
      · rfl
      · split
        · rfl
        · rfl

/-- The lookup by id is the only way of a SELECT to the registry. -/
theorem select_state (statement : SelectStatement) (dirs : Directories) (db : Database) :
    ((executeSelect statement dirs).run db).2 = db ∨
      ∃ condition schema, statement.whereClause = some condition ∧ condition.column = ascii "id" ∧
        loadSchema dirs db.dataFiles statement.tableName = .ok schema ∧
        ((executeSelect statement dirs).run db).2 =
          ((ensureLoaded schema dirs.dataDir).run db).2 := by
  rw [executeSelect, Program.run_bind, Program.run_read]
  dsimp only
  cases loadSchema dirs db.dataFiles statement.tableName with
  | error message => exact .inl rfl
  | ok schema =>
    dsimp only
    cases buildSelectIndexes statement schema with
    | error message => exact .inl rfl
    | ok selected =>
      dsimp only
      split
      · exact .inl rfl
      · cases resolveWhereIndex statement schema with
        | error message => exact .inl rfl
        | ok whereIndex =>
          dsimp only
          cases hfilter : statement.whereClause.filter (·.column == ascii "id") with
          | none => exact .inl rfl
          | some condition =>
            obtain ⟨hclause, hid⟩ := Option.filter_eq_some_iff.mp hfilter
            rcases indexSelect_state condition.value schema dirs.dataDir selected db with
              hsame | hload
            · exact .inl hsame
            · exact .inr ⟨condition, schema, hclause, eq_of_beq hid, rfl, hload⟩

end Loading

/-- The run is that of a SELECT with a WHERE on id, whose table's index was not loaded; it
creates and loads the entry of that table. -/
structure LoadsOwnIndex (request : ServerCoreRequest) (before after : Database)
    (statement : SelectStatement) (condition : WhereClause) (schema : Schema) : Prop where
  parses : ∃ tokens, lexSql request.sql.bytes = .ok tokens ∧
    parseStatement tokens = .ok (.select statement)
  onId : statement.whereClause = some condition ∧ condition.column = ascii "id"
  table : loadSchema request.dirs before.dataFiles statement.tableName = .ok schema
  unloaded : (tableIndexOf before.registry schema.storageName).loaded = false
  loads : after.registry = loadRegistry request.dirs.dataDir before.dataFiles schema.storageName
    before.registry
  others : ∀ other, other ≠ schema.storageName →
    tableIndexOf after.registry other = tableIndexOf before.registry other
  kept : ∀ entry ∈ before.registry, entry.loaded = true → entry ∈ after.registry

/-- A text that is classified as a read writes no file, and nothing of the registry but the
entry of its own table, when it has to load it. -/
theorem read_statement_effect (request : ServerCoreRequest) (db : Database)
    (h : concurrencyLockModeFromSql (some request.sql.bytes) = .read) :
    let after := ((serverCoreWeek8EngineRun request).run db).2
    after.dataFiles = db.dataFiles ∧
      after.forceNextRegisterFailure = db.forceNextRegisterFailure ∧
      (after.registry = db.registry ∨ ∃ statement condition schema,
        LoadsOwnIndex request db after statement condition schema) := by
  intro after
  have hsame : after = db → after.dataFiles = db.dataFiles ∧
      after.forceNextRegisterFailure = db.forceNextRegisterFailure ∧
      (after.registry = db.registry ∨ ∃ statement condition schema,
        LoadsOwnIndex request db after statement condition schema) := by
    intro heq
    rw [heq]
    exact ⟨rfl, rfl, .inl rfl⟩
  cases hlex : lexSql request.sql.bytes with
  | error error =>
    apply hsame
    simp only [after, serverCoreWeek8EngineRun, hlex]
    rfl
  | ok tokens =>
    cases hparse : parseStatement tokens with
    | error message =>
      apply hsame
      simp only [after, serverCoreWeek8EngineRun, hlex, hparse]
      rfl
    | ok statement =>
      have hafter : after = ((executeStatement statement request.dirs).run db).2 := by
        simp only [after, serverCoreWeek8EngineRun, hlex, hparse, Program.run_bind,
          Program.run_pure]
      have hmode := classifier_agrees.1 _ _ _ hlex hparse
      rw [h] at hmode
      cases statement with
      | insert statement => cases hmode
      | select statement =>
        rcases select_state statement request.dirs db with hstate | hstate
        · exact hsame (hafter.trans hstate)
        · obtain ⟨condition, schema, hclause, hid, hschema, hload⟩ := hstate
          rw [ensureLoaded_state] at hload
          split at hload
          · exact hsame (hafter.trans hload)
          · rename_i hunloaded
            have hdb := hafter.trans hload
            rw [hdb]
            rw [Bool.not_eq_true] at hunloaded
            refine ⟨rfl, rfl, .inr ⟨statement, condition, schema, ?_⟩⟩
            exact ⟨⟨tokens, hlex, hparse⟩, ⟨hclause, hid⟩, hschema, hunloaded, rfl,
              fun _ hne => indexOf_loadRegistry _ _ hne,
              fun _ hentry hloaded => mem_loadRegistry _ _ hentry hloaded hunloaded⟩

theorem read_statement_effect_users :
    ((serverCoreWeek8EngineRun
      { sql := .of (ascii "SELECT name FROM users;"), dirs := usersDirectories }).run
        (startDatabase (usersFiles (ascii "name,age\nBob,21\n")))).2.dataFiles =
      usersFiles (ascii "name,age\nBob,21\n") :=
  (read_statement_effect { sql := .of (ascii "SELECT name FROM users;"), dirs := usersDirectories }
    (startDatabase (usersFiles (ascii "name,age\nBob,21\n"))) (by decide +kernel)).1

/-- The first lookup by id makes the entry of its table. -/
theorem read_statement_writes :
    concurrencyLockModeFromSql (some (ascii "SELECT name FROM users WHERE id = 1;")) = .read ∧
      (startDatabase (usersFiles (ascii "name,age\nBob,21\n"))).registry.length = 0 ∧
      ((serverCoreWeek8EngineRun
        { sql := .of (ascii "SELECT name FROM users WHERE id = 1;"), dirs := usersDirectories }).run
          (startDatabase (usersFiles (ascii "name,age\nBob,21\n")))).2.registry.length = 1 := by
  decide +kernel

end DbApi.Proofs.ReadStatement
