import DbApi.Proofs.FullScan
import DbApi.Proofs.IndexCoherence

namespace DbApi.Proofs.IndexRuns
open Library Common Storage Index Sql Execution TableFile IndexRebuild IndexView
open StatementOutcome InsertRow FullScan IndexCoherence

/-- The entry points that reach the registry. -/
inductive Operation where
  | execute (statement : Statement)
  | invalidate (tableName : Bytes)
  | registryReset
  | forceNextRegisterFailure

def Operation.after (dirs : Directories) (db : Database) : Operation → Database
  | execute statement => ((executeStatement statement dirs).run db).2
  | invalidate tableName => ((tableIndexInvalidate tableName).run db).2
  | registryReset => (tableIndexRegistryReset.run db).2
  | forceNextRegisterFailure => (tableIndexForceNextRegisterFailure.run db).2

def runAll (dirs : Directories) (operations : List Operation) (db : Database) : Database :=
  operations.foldl (Operation.after dirs) db

/-- Files only grow at their ends. -/
def Grows (before after : DataFiles) : Prop :=
  ∀ name, Option.Rel (· <+: ·) (before name) (after name)

theorem Grows.refl (files : DataFiles) : Grows files files := by
  intro name
  cases files name with
  | none => exact .none
  | some content => exact .some List.prefix_rfl

theorem grows_append {files : DataFiles} {name content : Bytes} (hf : files name = some content)
    (row : Bytes) : Grows files (Function.update files name (some (appendRow content row))) := by
  intro other
  by_cases hn : other = name
  · subst hn
    rw [hf, Function.update_self]
    exact .some ⟨separatorAfter content ++ row, by simp [appendRow]⟩
  · rw [Function.update_of_ne hn]
    exact Grows.refl files other

theorem linesFit_of_prefix {before after : Bytes} (h : before <+: after) (hf : LinesFit after) :
    LinesFit before := fun line hl hn => hf line (hl.trans h.isInfix) hn

theorem Grows.fits {before after : DataFiles} (hg : Grows before after) (hf : FilesFit after) :
    FilesFit before := by
  intro name content hc
  have hrel := hg name
  rw [Option.mem_def] at hc
  rw [hc] at hrel
  generalize ha : after name = found at hrel
  cases hrel with
  | some hp => exact linesFit_of_prefix hp (hf name _ ha)

theorem insert_grows {statement : InsertStatement} {dirs : Directories} {v after : View}
    {result : ExecResult} (h : InsertOutcome statement dirs v result after) :
    Grows v.files after.files := by
  cases h with
  | refused message => exact .refl _
  | unwritten message schema =>
    rw [(load_frame dirs.dataDir schema.storageName v).1]
    exact .refl _
  | unregistered ha hreg =>
    have hfiles := congrArg (fun r => r.2.files) hreg
    simp only [register_files, ha.writes] at hfiles
    rw [View.files_set, ← hfiles]
    exact grows_append ha.found _
  | registered ha hreg =>
    have hfiles := congrArg (fun r => r.2.files) hreg
    simp only [register_files, ha.writes] at hfiles
    rw [← hfiles]
    exact grows_append ha.found _

/-- One operation extends files at most, and keeps the invariant as long as
every line it leaves fits. -/
theorem operation_step (dirs : Directories) (db : Database) (operation : Operation) :
    Grows (view db).files (view (operation.after dirs db)).files ∧
      (Coherent (view db) → FilesFit (view (operation.after dirs db)).files →
        Coherent (view (operation.after dirs db))) := by
  cases operation with
  | execute statement =>
    cases statement with
    | insert statement =>
      have h := executeInsert_outcome statement dirs db
      exact ⟨insert_grows h, fun hv => insert_coherent hv h⟩
    | select statement =>
      have h := executeSelect_view statement dirs db
      simp only [Yields] at h
      simp only [Operation.after, executeStatement]
      rcases h with h | ⟨schema, -, h⟩
      · rw [h]
        exact ⟨.refl _, fun hv _ => hv⟩
      · rw [h]
        refine ⟨?_, fun hv _ => hv.load dirs.dataDir schema.storageName⟩
        rw [(load_frame dirs.dataDir schema.storageName (view db)).1]
        exact .refl _
  | invalidate tableName =>
    obtain ⟨_, hview⟩ := computes_invalidate db tableName
    simp only [Operation.after, hview]
    exact ⟨.refl _, fun hv _ => hv.unload tableName⟩
  | registryReset =>
    refine ⟨.refl _, fun _ _ => ⟨by simp [Operation.after, tableIndexRegistryReset, view, names], ?_⟩⟩
    intro name h
    simp [Operation.after, tableIndexRegistryReset, view, tableIndexOf, findTableIndex,
      TableIndex.fresh] at h
  | forceNextRegisterFailure =>
    exact ⟨.refl _, fun hv _ => ⟨hv.unique, hv.agrees⟩⟩

theorem runAll_coherent (dirs : Directories) (files : DataFiles) (operations : List Operation)
    (hfit : FilesFit (runAll dirs operations (startDatabase files)).dataFiles) :
    Coherent (view (runAll dirs operations (startDatabase files))) := by
  induction operations using List.reverseRecOn with
  | nil =>
    refine ⟨by simp [runAll, startDatabase, view, names], ?_⟩
    intro name h
    simp [runAll, startDatabase, view, tableIndexOf, findTableIndex, TableIndex.fresh] at h
  | append_singleton operations operation ih =>
    simp only [runAll, List.foldl_append, List.foldl_cons, List.foldl_nil] at hfit ih ⊢
    obtain ⟨hgrows, hstep⟩ := operation_step dirs
      (operations.foldl (Operation.after dirs) (startDatabase files)) operation
    exact hstep (ih (hgrows.fits hfit)) hfit

theorem Grows.trans {a b c : DataFiles} (hab : Grows a b) (hbc : Grows b c) : Grows a c := by
  intro name
  have h1 := hab name
  have h2 := hbc name
  generalize a name = x at h1
  generalize b name = y at h1 h2
  generalize c name = z at h2
  cases h1 with
  | none => cases h2; exact .none
  | some h1 => cases h2 with | some h2 => exact .some (h1.trans h2)

theorem runAll_grows (dirs : Directories) (operations : List Operation) (db : Database) :
    Grows db.dataFiles (runAll dirs operations db).dataFiles := by
  induction operations generalizing db with
  | nil => exact .refl _
  | cons operation operations ih => exact (operation_step dirs db operation).1.trans (ih _)

/-- The offsets a scan of the file visits. -/
def visitOffset (_fields : List Bytes) (rowOffset : Nat) (offsets : List Nat) :
    Except Bytes (List Nat) := .ok (offsets ++ [rowOffset])

theorem scan_offsets {files : DataFiles} {tableName content : Bytes}
    (hf : files tableName = some content) (hne : content ≠ []) (hp : Parses (dataLines content))
    (dataDir : Bytes) :
    scanRowsCsv dataDir files tableName visitOffset [] = .ok (dataOffsets content) := by
  have hfold : ∀ (lines : List (Nat × Bytes)) (offsets : List Nat), Parses lines →
      lines.foldlM (fun context line => (csvParseLine line.2).bind (visitOffset · line.1 context))
        offsets = .ok (offsets ++ lines.map Prod.fst) := by
    intro lines
    induction lines with
    | nil => intro offsets _; simp; rfl
    | cons line lines ih =>
      intro offsets h
      obtain ⟨fields, hl⟩ := h line (by simp)
      rw [List.foldlM_cons, hl]
      change lines.foldlM _ (offsets ++ [line.1]) = _
      rw [ih _ fun l hm => h l (by simp [hm])]
      simp
  rw [scanRowsCsv_eq hf hne, hfold _ _ hp, dataOffsets, List.nil_append]

/-- After any run of operations each table has at most one entry, and the tree
of a loaded entry maps 1 to n to the offsets a scan of the file finds, as a
rebuild from the file would. -/
theorem index_coherent (dirs : Directories) (files : DataFiles) (operations : List Operation)
    (hfit : FilesFit (runAll dirs operations (startDatabase files)).dataFiles) :
    let db := runAll dirs operations (startDatabase files)
    (db.registry.map TableIndex.tableName).Nodup ∧
      ∀ entry ∈ db.registry, entry.loaded = true →
        ∃ offsets, scanRowsCsv dirs.dataDir db.dataFiles entry.tableName visitOffset [] = .ok offsets ∧
          (∀ id : Int, bptreeSearch entry.tree id =
            if 1 ≤ id then offsets[(id - 1).toNat]? else none) ∧
          entry.nextId = offsets.length + 1 ∧
          ∃ tree, rebuild dirs.dataDir db.dataFiles entry.tableName = .ok (tree, entry.nextId) ∧
            ∀ id, bptreeSearch tree id = bptreeSearch entry.tree id := by
  intro db
  have hcoherent := runAll_coherent dirs files operations hfit
  refine ⟨hcoherent.unique, fun entry he hl => ?_⟩
  have hentry : (view db).indexOf entry.tableName = entry := indexOf_member hcoherent.unique he
  obtain ⟨content, hf, ha⟩ := hcoherent.agrees entry.tableName (hentry.symm ▸ hl)
  rw [hentry] at ha
  obtain ⟨tree, nextId, hr, hi⟩ := rebuild_ok hf ha.header ha.parses dirs.dataDir
  refine ⟨dataOffsets content, scan_offsets hf ha.header ha.parses dirs.dataDir,
    ha.indexes.represents.agrees, ha.indexes.next, tree, ?_, ?_⟩
  · rw [ha.indexes.next, ← hi.next]
    exact hr
  · intro id
    rw [hi.represents.agrees, ha.indexes.represents.agrees]

theorem filesFit_users {dirs : Directories} {operations : List Operation} {before : Bytes}
    (after : Bytes)
    (hf : (runAll dirs operations (startDatabase (usersFiles before))).dataFiles (ascii "users") =
      some after) (h : after.length ≤ lineRoom) :
    FilesFit (runAll dirs operations (startDatabase (usersFiles before))).dataFiles := by
  intro name content hc
  by_cases hn : name = ascii "users"
  · rw [hn, hf, Option.mem_def, Option.some.injEq] at hc
    exact fun line hl _ => hl.length_le.trans (hc ▸ h)
  · have hrel := runAll_grows dirs operations (startDatabase (usersFiles before)) name
    have hnone : (startDatabase (usersFiles before)).dataFiles name = none := if_neg hn
    rw [hnone, Option.mem_def.mp hc] at hrel
    contradiction

theorem index_coherent_users :
    ((runAll usersDirectories [.forceNextRegisterFailure, .execute (.insert (insertName (ascii "Alice"))),
      .execute (.insert (insertName (ascii "Alice")))]
      (startDatabase (usersFiles (ascii "name,age\nBob,21")))).registry.map
        TableIndex.tableName).Nodup :=
  (index_coherent usersDirectories (usersFiles (ascii "name,age\nBob,21"))
    [.forceNextRegisterFailure, .execute (.insert (insertName (ascii "Alice"))),
      .execute (.insert (insertName (ascii "Alice")))]
    (filesFit_users (ascii "name,age\nBob,21\nAlice,\"\"\nAlice,\"\"")
      (by decide +kernel) (by decide +kernel))).1

end DbApi.Proofs.IndexRuns
