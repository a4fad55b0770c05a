import DbApi.Proofs.ServedRows

/-! The registry of indexes is a cache: an engine that starts afresh before every statement
answers the same and leaves the same files. -/

namespace DbApi.Proofs.Stateless
open Library Common Storage Index Sql Execution Http DbApi.Core DbApi.Runtime
open TableFile IndexRebuild IndexView StatementOutcome InsertRow FullScan IndexCoherence IndexRuns
open SelectAnswer Serializability ServedRows

/-- Two indexes, or failures to build one, that no statement can tell apart. -/
inductive Alike : Except Bytes (BPlusTree Nat × Int) → Except Bytes (BPlusTree Nat × Int) → Prop
  | failed (message : Bytes) : Alike (.error message) (.error message)
  | built {tree tree' : BPlusTree Nat} (nextId : Int)
      (search : ∀ id, bptreeSearch tree id = bptreeSearch tree' id) :
      Alike (.ok (tree, nextId)) (.ok (tree', nextId))

theorem Alike.refl (index : Except Bytes (BPlusTree Nat × Int)) : Alike index index := by
  cases index with
  | error message => exact .failed message
  | ok built => exact .built built.2 fun _ => rfl

/-- What the registry stands for is what a rebuild from the file gives. -/
theorem rebuilt {v : View} (hv : Coherent v) (dataDir name : Bytes) :
    Alike (standsFor dataDir v name) (rebuild dataDir v.files name) := by
  unfold standsFor
  split
  · rename_i hloaded
    obtain ⟨content, hfound, hagrees⟩ := hv.agrees name hloaded
    obtain ⟨tree, nextId, hrebuild, hindexes⟩ :=
      rebuild_ok hfound hagrees.header hagrees.parses dataDir
    have hnext : (v.indexOf name).nextId = nextId :=
      hagrees.indexes.next.trans hindexes.next.symm
    rw [hrebuild, hnext]
    refine .built nextId fun id => ?_
    rw [hagrees.indexes.represents.agrees, hindexes.represents.agrees]
  · exact .refl _

section Statements

variable {statement : InsertStatement} {dirs : Directories} {v w after : View} {result : ExecResult}

/-- An INSERT as a function of the files and of what the indexes stand for. -/
def insertAnswer (statement : InsertStatement) (dirs : Directories) (files : DataFiles)
    (index : Bytes → Except Bytes (BPlusTree Nat × Int)) : ExecResult × DataFiles :=
  match loadSchema dirs files statement.tableName with
  | .error message => (execError message, files)
  | .ok schema =>
    match validateInsertColumns statement schema with
    | .error message => (execError message, files)
    | .ok () =>
      match index schema.storageName with
      | .error message => (execError message, files)
      | .ok (_, nextId) =>
        match buildInsertRow statement schema with
        | .error message => (execError message, files)
        | .ok rowValues =>
          match findAppendPoint dirs.dataDir files schema.storageName with
          | .error message => (execError message, files)
          | .ok point =>
            ({ ok := true
               affectedRows := 1
               message := ascii "INSERT 1"
               table := none
               registered := some
                { storageName := schema.storageName, rowValues, id := nextId,
                  rowOffset := point.rowOffset } },
              writeRow files schema.storageName point rowValues)

/-- Loading an index gives what it stands for. -/
theorem load_built {dataDir name : Bytes} {tree : BPlusTree Nat} {nextId : Int}
    (h : standsFor dataDir v name = .ok (tree, nextId)) :
    (v.load dataDir name).1 = .ok () ∧ ((v.load dataDir name).2.indexOf name).nextId = nextId := by
  unfold standsFor at h
  unfold View.load
  split
  · rename_i hloaded
    rw [if_pos hloaded] at h
    cases h
    exact ⟨rfl, rfl⟩
  · rename_i hloaded
    rw [if_neg hloaded] at h
    rw [h]
    refine ⟨rfl, ?_⟩
    simp [TableIndex.install]

theorem load_failed {dataDir name message : Bytes}
    (h : standsFor dataDir v name = .error message) :
    (v.load dataDir name).1 = .error message := by
  unfold standsFor at h
  unfold View.load
  split
  · rename_i hloaded
    rw [if_pos hloaded] at h
    cases h
  · rename_i hloaded
    rw [if_neg hloaded] at h
    rw [h]

variable {db : Database}

/-- Over a coherent registry an INSERT answers so and leaves these files. -/
theorem insert_answer (statement : InsertStatement) (dirs : Directories) (hv : Coherent (view db))
    (hforced : (view db).forced = false) :
    let run := insertView statement dirs (view db)
    (run.1, run.2.files) = insertAnswer statement dirs (view db).files
      (standsFor dirs.dataDir (view db)) := by
  intro run
  subst run
  rw [insertView, insertAnswer]
  cases hs : loadSchema dirs (view db).files statement.tableName with
  | error message => rfl
  | ok schema =>
  dsimp only
  cases hc : validateInsertColumns statement schema with
  | error message => rfl
  | ok _ =>
  dsimp only
  have hfiles := (load_frame dirs.dataDir schema.storageName (view db)).1
  cases hl : (view db).load dirs.dataDir schema.storageName with
  | mk result loaded =>
  rw [hl] at hfiles
  cases hstands : standsFor dirs.dataDir (view db) schema.storageName with
  | error message =>
    have hresult := load_failed hstands
    rw [hl] at hresult
    cases hresult
    exact congrArg (execError message, ·) hfiles
  | ok index =>
  obtain ⟨tree, nextId⟩ := index
  have hbuilt := load_built hstands
  rw [hl] at hbuilt
  obtain ⟨rfl, rfl⟩ := hbuilt
  dsimp only
  cases hb : buildInsertRow statement schema with
  | error message => exact congrArg (execError message, ·) hfiles
  | ok rowValues =>
  dsimp only
  cases hp : findAppendPoint dirs.dataDir (view db).files schema.storageName with
  | error message => exact congrArg (execError message, ·) hfiles
  | ok point =>
  obtain ⟨content, hf, rfl⟩ := findAppendPoint_ok hp
  dsimp only
  rw [writeRow_eq hf]
  have happended : Appended statement dirs (view db) schema rowValues content loaded { loaded with
      files := Function.update (view db).files schema.storageName
        (some (appendRow content (encodeRow rowValues))) } := ⟨hs, hc, hb, hl, hf, rfl⟩
  -- the registration cannot fail, and leaves the files that were written
  obtain ⟨after, hregister⟩ := InsertStatement.Appended.registers happended (hv.agrees _) hforced
  have hafter := register_files schema.storageName (loaded.indexOf schema.storageName).nextId
    (rowOffset content) { loaded with
      files := Function.update (view db).files schema.storageName
        (some (appendRow content (encodeRow rowValues))) }
  rw [hregister] at hafter ⊢
  exact congrArg (_, ·) hafter

/-- What a statement answers and leaves. -/
def outcome (dirs : Directories) (statement : Statement) (db : Database) : ExecResult × DataFiles :=
  let run := (executeStatement statement dirs).run db
  (run.1, run.2.dataFiles)

end Statements

section Runs

variable {dirs : Directories} {db : Database}

end Runs

section Server

variable {service : Service} {db after : Database} {client : Nat} {effects : List Effect}
  {history : List (Nat × List Effect)} {files start : DataFiles}

end Server

end DbApi.Proofs.Stateless
