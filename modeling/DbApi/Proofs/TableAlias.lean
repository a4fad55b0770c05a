import DbApi.Proofs.IndexRuns
import DbApi.Proofs.PathConfinement

/-! A table answers to two names: the one that its meta file declares, and the basename of
that file. -/

namespace DbApi.Proofs.TableAlias
open Library Common Storage Index Sql Execution TableFile IndexView StatementOutcome FullScan
open PathConfinement Recorded

/-- The values that these lines of a meta file give a key. -/
def settings (key : Bytes) (lines : List Bytes) : List Bytes :=
  lines.filterMap fun line =>
    match splitSetting (trimmedLine line) with
    | none => none
    | some setting => if setting.1 = key then some setting.2 else none

/-- The entry has one `table=` line, with this name, and one valid `columns=` line. -/
structure Describes (entry : SchemaEntry) (declared : Bytes) : Prop where
  table : settings (ascii "table") entry.lines = [declared]
  columns : ∃ value columns,
    settings (ascii "columns") entry.lines = [value] ∧ csvParseLine value = .ok columns

/-- The meta file of this basename declares this table. -/
def Declares (dirs : Directories) (basename declared : Bytes) : Prop :=
  ∃ entry, (basename ++ metaExtension, entry) ∈ dirs.schemaFiles ∧ Describes entry declared

/-- A directory of meta files, in any order, that declare distinct tables. -/
structure Declarations (dirs : Directories) : Prop where
  unique : (dirs.schemaFiles.map Prod.fst).Nodup
  fits : ∀ file ∈ dirs.schemaFiles, file.1.length ≤ nameMax
  described : ∀ basename entry, (basename ++ metaExtension, entry) ∈ dirs.schemaFiles →
    (∃ content, entry = .regular content) ∧ ∃ declared, Describes entry declared
  distinct : ∀ basename other declared,
    Declares dirs basename declared → Declares dirs other declared → basename = other
  apart : ∀ basename name other declared,
    Declares dirs basename name → Declares dirs other declared → declared = basename →
      other = basename

/-- No path separator: what stands in one place of a path. -/
def Component (name : Bytes) : Prop := 47 ∉ name

/-- Two names of one table, or the same name. -/
def SameTable (dirs : Directories) (name other : Bytes) : Prop :=
  name = other ∨ ∃ basename declared, Declares dirs basename declared ∧ Component declared ∧
    (name = basename ∨ name = declared) ∧ (other = basename ∨ other = declared)

/-- The statement on a table of this name. -/
def rename (name : Bytes) : Statement → Statement
  | .insert statement => .insert { statement with tableName := name }
  | .select statement => .select { statement with tableName := name }

/-- The same statement under a name of the same table. -/
def Respelled (dirs : Directories) (statement respelled : Statement) : Prop :=
  ∃ name, SameTable dirs (tableNameOf statement) name ∧ respelled = rename name statement

def runStatements (dirs : Directories) : List Statement → Program Database (List ExecResult)
  | [] => return []
  | statement :: rest => do
    let result ← executeStatement statement dirs
    let results ← runStatements dirs rest
    return result :: results

/-- What the caller of `load_schema` gets, when it succeeds. -/
def loaded (dirs : Directories) (files : DataFiles) (name : Bytes) : Option (Bytes × List Bytes) :=
  (loadSchema dirs files name).toOption.map fun schema => (schema.storageName, schema.columns)

/-- The paths that a statement opens. -/
def openedBy (dirs : Directories) (statement : Statement) (db : Database) : List Bytes :=
  ((Opening.executeStatement statement dirs).run { state := db, events := [] }).2.events

/-- A name that is neither a basename nor declared. -/
def Unknown (dirs : Directories) (name : Bytes) : Prop :=
  ∀ basename declared, Declares dirs basename declared → name ≠ basename ∧ name ≠ declared

/-- The declared name and the basename are two names of one table. -/
structure AliasNamesTable (dirs : Directories) : Prop where
  loads : ∀ basename declared files, Declares dirs basename declared → Component declared →
    loaded dirs files declared = loaded dirs files basename
  runs : ∀ statements respelled db, List.Forall₂ (Respelled dirs) statements respelled →
    (runStatements dirs respelled).run db = (runStatements dirs statements).run db
  entries : ∀ statements files,
    let registry := ((runStatements dirs statements).run (startDatabase files)).2.registry
    (names registry).Nodup ∧ ∀ name ∈ names registry, ∃ declared, Declares dirs name declared
  unknown : ∀ statement db, Component (tableNameOf statement) →
    Unknown dirs (tableNameOf statement) →
    (∃ message, (executeStatement statement dirs).run db = (execError message, db)) ∧
      ∀ path ∈ openedBy dirs statement db, ∃ name, path = schemaPath dirs (name ++ metaExtension)

/-- Declared names that leave room for the extension. -/
def FitsExtension (dirs : Directories) : Prop :=
  ∀ basename declared, Declares dirs basename declared → Component declared →
    declared.length ≤ 250

section Search

variable {dirs : Directories} {basename declared name : Bytes} {entry : SchemaEntry}

/-- The first reader of a meta file looks for the name among the values of `table`. -/
theorem declares_iff (lines : List Bytes) (name : Bytes) :
    lines.any (fun line => splitSetting (trimmedLine line) == some (ascii "table", name)) = true ↔
      name ∈ settings (ascii "table") lines := by
  rw [List.any_eq_true, settings, List.mem_filterMap]
  constructor
  · intro h
    obtain ⟨line, hline, heq⟩ := h
    refine ⟨line, hline, ?_⟩
    rw [eq_of_beq heq]
    exact if_pos rfl
  · intro h
    obtain ⟨line, hline, heq⟩ := h
    refine ⟨line, hline, ?_⟩
    cases hs : splitSetting (trimmedLine line) with
    | none =>
      rw [hs] at heq
      cases heq
    | some setting =>
      rw [hs] at heq
      obtain ⟨key, value⟩ := setting
      dsimp only at heq
      split_ifs at heq with hkey
      obtain rfl := Option.some.inj heq
      rw [hkey]
      exact beq_self_eq_true _

theorem fileDeclares_regular {content : Bytes} (filename : Bytes)
    (h : Describes (.regular content) declared) :
    fileDeclaresTable dirs filename (.regular content) name = .ok (decide (name = declared)) := by
  rw [fileDeclaresTable]
  congr 1
  rw [Bool.eq_iff_iff, declares_iff, h.table, List.mem_singleton, decide_eq_true_iff]

theorem Declarations.entry_eq (hd : Declarations dirs) {filename : Bytes} {a b : SchemaEntry}
    (ha : (filename, a) ∈ dirs.schemaFiles) (hb : (filename, b) ∈ dirs.schemaFiles) : a = b :=
  congrArg Prod.snd (List.inj_on_of_nodup_map hd.unique ha hb rfl)

theorem Declarations.lookup (hd : Declarations dirs) {filename : Bytes}
    (h : (filename, entry) ∈ dirs.schemaFiles) : dirs.schemaFiles.lookup filename = some entry := by
  cases hl : dirs.schemaFiles.lookup filename with
  | none =>
    rw [List.lookup_eq_none_iff] at hl
    have hne := hl _ h
    simp at hne
  | some other =>
    obtain ⟨before, after, hsplit, _⟩ := List.lookup_eq_some_iff.mp hl
    have hother : (filename, other) ∈ dirs.schemaFiles := by simp [hsplit]
    rw [hd.entry_eq hother h]

/-- The search stops at the file that declares the name, wherever it stands. -/
theorem find_declared (hd : Declarations dirs)
    (hmem : (basename ++ metaExtension, entry) ∈ dirs.schemaFiles) (hdesc : Describes entry declared)
    {entries : List (Bytes × SchemaEntry)} (hsub : ∀ file ∈ entries, file ∈ dirs.schemaFiles)
    (hin : (basename ++ metaExtension, entry) ∈ entries) :
    findDeclaration dirs declared entries = .ok (basename ++ metaExtension, entry) := by
  induction entries with
  | nil => cases hin
  | cons first rest ih =>
    obtain ⟨hfirst, hrest⟩ := List.forall_mem_cons.mp hsub
    obtain ⟨filename, other⟩ := first
    rw [findDeclaration]
    have hlater : (basename ++ metaExtension, entry) ≠ (filename, other) →
        findDeclaration dirs declared rest = .ok (basename ++ metaExtension, entry) := by
      intro hne
      rcases List.mem_cons.mp hin with heq | hin
      · exact absurd heq hne
      · exact ih hrest hin
    split
    · rename_i hmeta
      obtain ⟨otherBase, rfl⟩ := meta_name hmeta
      obtain ⟨⟨content, rfl⟩, otherName, hother⟩ := hd.described _ _ hfirst
      rw [fileDeclares_regular _ hother]
      by_cases hname : declared = otherName
      · subst hname
        obtain rfl := hd.distinct _ _ _ ⟨_, hmem, hdesc⟩ ⟨_, hfirst, hother⟩
        rw [hd.entry_eq hmem hfirst, decide_eq_true rfl]
      · rw [decide_eq_false hname]
        apply hlater
        intro heq
        obtain ⟨hbase, rfl⟩ := Prod.mk.inj heq
        have htable := hdesc.table.symm.trans hother.table
        exact hname (List.singleton_inj.mp htable)
    · rename_i hmeta
      apply hlater
      intro heq
      obtain ⟨rfl, -⟩ := Prod.mk.inj heq
      exact hmeta (List.isSuffixOf_iff_suffix.mpr (List.suffix_append _ _))

/-- A name that no file declares is not found. -/
theorem find_undeclared (hd : Declarations dirs)
    (hname : ∀ basename, ¬ Declares dirs basename name)
    {entries : List (Bytes × SchemaEntry)} (hsub : ∀ file ∈ entries, file ∈ dirs.schemaFiles) :
    findDeclaration dirs name entries = .error (ascii "schema meta file does not exist") := by
  induction entries with
  | nil => rfl
  | cons first rest ih =>
    obtain ⟨hfirst, hrest⟩ := List.forall_mem_cons.mp hsub
    obtain ⟨filename, other⟩ := first
    rw [findDeclaration]
    split
    · rename_i hmeta
      obtain ⟨otherBase, rfl⟩ := meta_name hmeta
      obtain ⟨⟨content, rfl⟩, otherName, hother⟩ := hd.described _ _ hfirst
      have hne : name ≠ otherName := by
        intro heq
        exact hname otherBase ⟨_, hfirst, heq ▸ hother⟩
      rw [fileDeclares_regular _ hother, decide_eq_false hne]
      exact ih hrest
    · exact ih hrest

theorem path_basename (hd : Declarations dirs)
    (hmem : (basename ++ metaExtension, entry) ∈ dirs.schemaFiles) :
    findSchemaPath dirs basename = .ok (basename ++ metaExtension, entry) := by
  rw [findSchemaPath, hd.lookup hmem]

/-- A file of the declared name is the declaring file itself. -/
theorem lookup_declared (hd : Declarations dirs) (hdecl : Declares dirs basename declared)
    (hne : declared ≠ basename) : dirs.schemaFiles.lookup (declared ++ metaExtension) = none := by
  rw [List.lookup_eq_none_iff]
  intro file hfile
  rw [bne_iff_ne]
  intro heq
  obtain ⟨filename, other⟩ := file
  obtain rfl : declared ++ metaExtension = filename := heq
  obtain ⟨-, name, hname⟩ := hd.described _ _ hfile
  exact hne (hd.apart _ _ _ _ ⟨_, hfile, hname⟩ hdecl rfl).symm

theorem length_meta (name : Bytes) : (name ++ metaExtension).length = name.length + 5 :=
  List.length_append

theorem path_declared (hd : Declarations dirs)
    (hmem : (basename ++ metaExtension, entry) ∈ dirs.schemaFiles) (hdesc : Describes entry declared)
    (hlength : declared.length ≤ 250) :
    findSchemaPath dirs declared = .ok (basename ++ metaExtension, entry) := by
  by_cases hne : declared = basename
  · rw [hne]
    exact path_basename hd hmem
  · rw [findSchemaPath, lookup_declared hd ⟨_, hmem, hdesc⟩ hne]
    have hshort : ¬ nameMax < (declared ++ metaExtension).length := by
      rw [length_meta, nameMax]
      omega
    dsimp only
    rw [if_neg hshort]
    exact find_declared hd hmem hdesc (fun _ h => h) hmem

/-- `ENAMETOOLONG` ends the search before it begins. -/
theorem path_long (hd : Declarations dirs) (hlength : 250 < name.length) :
    findSchemaPath dirs name =
      .error (schemaOpenError dirs (name ++ metaExtension) (ascii "File name too long")) := by
  have hlong : nameMax < (name ++ metaExtension).length := by
    rw [length_meta, nameMax]
    omega
  have hnone : dirs.schemaFiles.lookup (name ++ metaExtension) = none := by
    rw [List.lookup_eq_none_iff]
    intro file hfile
    rw [bne_iff_ne]
    intro heq
    have hfits := hd.fits file hfile
    rw [← heq] at hfits
    omega
  rw [findSchemaPath, hnone]
  exact if_pos hlong

end Search

section Reading

variable {key value : Bytes} {line : Bytes} {rest : List Bytes}

theorem settings_none (h : splitSetting (trimmedLine line) = none) :
    settings key (line :: rest) = settings key rest := by
  apply List.filterMap_cons_none
  rw [h]

theorem settings_some (h : splitSetting (trimmedLine line) = some (key, value)) :
    settings key (line :: rest) = value :: settings key rest := by
  apply List.filterMap_cons_some
  rw [h]
  exact if_pos rfl

theorem settings_other {other : Bytes} (h : splitSetting (trimmedLine line) = some (other, value))
    (hne : other ≠ key) : settings key (line :: rest) = settings key rest := by
  apply List.filterMap_cons_none
  rw [h]
  exact if_neg hne

/-- The second reader keeps the last value of `table`. -/
theorem readMeta_table {lines : List Bytes} {s after : MetaState}
    (h : readMetaLines lines s = .ok after) :
    after.tableName = (settings (ascii "table") lines).getLast?.or s.tableName := by
  induction lines generalizing s with
  | nil =>
    cases h
    rfl
  | cons line rest ih =>
    rw [readMetaLines] at h
    split at h
    · rename_i hblank
      rw [settings_none (by rw [hblank]; rfl)]
      exact ih h
    · split at h
      · cases h
      · rename_i key value hs
        split at h
        · rename_i hkey
          subst hkey
          rw [settings_some hs, ih h, List.getLast?_cons]
          cases (settings (ascii "table") rest).getLast? with
          | none => rfl
          | some last => rfl
        · rename_i hkey
          rw [settings_other hs hkey]
          split at h
          · split at h
            · cases h
            · have hkept := ih h
              exact hkept
          · exact ih h

/-- What the second reader complains of. -/
theorem readMeta_error {lines : List Bytes} {s : MetaState} {message : Bytes}
    (h : readMetaLines lines s = .error message) :
    message = ascii "invalid schema meta format" ∨
      ∃ value ∈ settings (ascii "columns") lines, csvParseLine value = .error message := by
  induction lines generalizing s with
  | nil => cases h
  | cons line rest ih =>
    rw [readMetaLines] at h
    split at h
    · rename_i hblank
      rw [settings_none (by rw [hblank]; rfl)]
      exact ih h
    · split at h
      · cases h
        exact .inl rfl
      · rename_i key value hs
        split at h
        · rename_i hkey
          have hother : key ≠ ascii "columns" := by
            rw [hkey]
            decide
          rw [settings_other hs hother]
          exact ih h
        · split at h
          · rename_i hcolumns
            subst hcolumns
            rw [settings_some hs]
            split at h
            · rename_i hparse
              cases h
              exact .inr ⟨value, List.mem_cons_self, hparse⟩
            · rcases ih h with hformat | ⟨bad, hbad, hparse⟩
              · exact .inl hformat
              · exact .inr ⟨bad, List.mem_cons_of_mem _ hbad, hparse⟩
          · rename_i hcolumns
            rw [settings_other hs hcolumns]
            exact ih h

end Reading

section Loading

variable {dirs : Directories} {basename declared name other : Bytes} {entry : SchemaEntry}

/-- Both readers agree on the file, and its schema answers to both names. -/
theorem readSchema_found (hdesc : Describes entry declared)
    (hpath : findSchemaPath dirs name = .ok (basename ++ metaExtension, entry))
    (hother : findSchemaPath dirs other = .ok (basename ++ metaExtension, entry))
    (hname : name = basename ∨ name = declared) (hothername : other = basename ∨ other = declared) :
    readSchema dirs name = readSchema dirs other := by
  rw [readSchema, readSchema, hpath, hother]
  dsimp only
  cases hread : readMetaLines entry.lines { tableName := none, columns := [] } with
  | error message => rfl
  | ok s =>
    have htable := readMeta_table hread
    rw [hdesc.table] at htable
    obtain ⟨tableName, columns⟩ := s
    obtain rfl : tableName = some declared := htable
    dsimp only
    rw [extract_meta]
    have hanswers : ∀ asked, asked = basename ∨ asked = declared →
        ¬ (declared ≠ asked ∧ basename ≠ asked) := by
      intro asked hasked hneither
      rcases hasked with rfl | rfl
      · exact hneither.2 rfl
      · exact hneither.1 rfl
    rw [if_neg (hanswers name hname), if_neg (hanswers other hothername)]

theorem loadSchema_same (hd : Declarations dirs) (hfit : FitsExtension dirs)
    (hsame : SameTable dirs name other) (files : DataFiles) :
    loadSchema dirs files name = loadSchema dirs files other := by
  rcases hsame with rfl | ⟨basename, declared, hdecl, hcomponent, hname, hother⟩
  · rfl
  · have hlength := hfit _ _ hdecl hcomponent
    obtain ⟨entry, hmem, hdesc⟩ := hdecl
    have hpath : ∀ asked, asked = basename ∨ asked = declared →
        findSchemaPath dirs asked = .ok (basename ++ metaExtension, entry) := by
      intro asked hasked
      rcases hasked with rfl | rfl
      · exact path_basename hd hmem
      · exact path_declared hd hmem hdesc hlength
    have hread := readSchema_found hdesc (hpath name hname) (hpath other hother) hname hother
    rw [loadSchema, loadSchema, hread]

theorem selectRows_rename (statement : SelectStatement) (name : Bytes) (schema : Schema)
    (selected : List (Bytes × Option Nat)) (whereIndex : Option Nat) (lines : List (Nat × Bytes))
    (currentInternalId : Int) (rows : List (List Bytes)) :
    selectRows { statement with tableName := name } schema selected whereIndex lines
        currentInternalId rows =
      selectRows statement schema selected whereIndex lines currentInternalId rows := by
  induction lines generalizing currentInternalId rows with
  | nil => rfl
  | cons line rest ih =>
    have hmatches : ∀ fields, rowMatchesWhere { statement with tableName := name } fields
        whereIndex = rowMatchesWhere statement fields whereIndex := fun _ => rfl
    simp only [selectRows, ih, hmatches]

theorem scanSelect_rename (statement : SelectStatement) (name : Bytes) :
    scanSelect { statement with tableName := name } = scanSelect statement := by
  funext schema dataDir files selected whereIndex
  simp only [scanSelect, selectRows_rename]

/-- A statement knows its table by what is loaded for it only. -/
theorem execute_rename {statement : Statement}
    (h : ∀ files, loadSchema dirs files name = loadSchema dirs files (tableNameOf statement)) :
    executeStatement (rename name statement) dirs = executeStatement statement dirs := by
  cases statement with
  | insert statement =>
    simp only [rename, executeStatement, executeInsert, h]
    rfl
  | select statement =>
    simp only [rename, executeStatement, executeSelect, h, scanSelect_rename]
    rfl

theorem run_respelled (hd : Declarations dirs) (hfit : FitsExtension dirs)
    {statements respelled : List Statement}
    (h : List.Forall₂ (Respelled dirs) statements respelled) :
    runStatements dirs respelled = runStatements dirs statements := by
  induction h with
  | nil => rfl
  | cons hfirst _ ih =>
    obtain ⟨name, hsame, rfl⟩ := hfirst
    have hexecute := execute_rename fun files => (loadSchema_same hd hfit hsame files).symm
    rw [runStatements, runStatements, hexecute, ih]

end Loading

section Entries

variable {dirs : Directories} {name : Bytes} {v : View}

theorem found_declared (hd : Declarations dirs) {filename : Bytes} {entry : SchemaEntry}
    (h : findSchemaPath dirs name = .ok (filename, entry)) :
    ∃ declared, Declares dirs (extractStorageName filename) declared := by
  have hfile : ∃ basename, filename = basename ++ metaExtension ∧
      (filename, entry) ∈ dirs.schemaFiles := by
    rw [findSchemaPath] at h
    split at h
    · rename_i hlookup
      cases h
      obtain ⟨before, after, hsplit, _⟩ := List.lookup_eq_some_iff.mp hlookup
      exact ⟨name, rfl, by simp [hsplit]⟩
    · split at h
      · cases h
      · obtain ⟨hmem, hmeta⟩ := declaration_named h
        obtain ⟨basename, hbasename⟩ := meta_name hmeta
        exact ⟨basename, hbasename, hmem⟩
  obtain ⟨basename, rfl, hmem⟩ := hfile
  obtain ⟨-, declared, hdesc⟩ := hd.described _ _ hmem
  rw [extract_meta]
  exact ⟨declared, entry, hmem, hdesc⟩

theorem storage_declared (hd : Declarations dirs) {files : DataFiles} {schema : Schema}
    (h : loadSchema dirs files name = .ok schema) :
    ∃ declared, Declares dirs schema.storageName declared := by
  obtain ⟨hread, -⟩ := InsertRow.loadSchema_ok h
  rw [readSchema] at hread
  split at hread
  · cases hread
  · rename_i filename entry hfind
    have hdeclared := found_declared hd hfind
    split at hread
    · cases hread
    · split at hread
      · cases hread
      · dsimp only at hread
        split_ifs at hread
        cases hread
        exact hdeclared

/-- The index entries are those of basenames, one to each. -/
structure Keyed (dirs : Directories) (v : View) : Prop where
  unique : v.names.Nodup
  declared : ∀ name ∈ v.names, ∃ declared, Declares dirs name declared

theorem Keyed.create (h : Keyed dirs v) (hname : ∃ declared, Declares dirs name declared) :
    Keyed dirs (v.create name) := by
  refine ⟨View.nodup_create h.unique, ?_⟩
  intro other hother
  simp only [View.create] at hother
  split at hother
  · exact h.declared other hother
  · rcases List.mem_append.mp hother with hold | hnew
    · exact h.declared other hold
    · rw [List.mem_singleton.mp hnew]
      exact hname

/-- Only the names matter. -/
theorem Keyed.of_names {w : View} (h : Keyed dirs v) (hnames : w.names = v.names) :
    Keyed dirs w := by
  obtain ⟨hunique, hdeclared⟩ := h
  rw [← hnames] at hunique hdeclared
  exact ⟨hunique, hdeclared⟩

theorem Keyed.load (h : Keyed dirs v) (hname : ∃ declared, Declares dirs name declared)
    (dataDir : Bytes) : Keyed dirs (v.load dataDir name).2 := by
  have hcreate := h.create hname
  simp only [View.load]
  split
  · exact hcreate
  · split
    · exact hcreate.of_names rfl
    · exact hcreate.of_names rfl

theorem Keyed.register (h : Keyed dirs v) (hname : ∃ declared, Declares dirs name declared)
    (id : Int) (rowOffset : Nat) : Keyed dirs (v.register name id rowOffset).2 := by
  rw [View.register]
  split
  · exact h.of_names rfl
  · exact (h.create hname).of_names rfl

theorem keyed_appended (hd : Declarations dirs) {statement : InsertStatement} {schema : Schema}
    {rowValues : List Bytes} {content : Bytes} {result : Except Bytes Unit} {id : Int}
    {offset : Nat} {loaded written after : View}
    (h : Keyed dirs v) (ha : Appended statement dirs v schema rowValues content loaded written)
    (hregister : written.register schema.storageName id offset = (result, after)) :
    Keyed dirs after := by
  have hname := storage_declared hd ha.schema_ok
  have hloaded := h.load hname dirs.dataDir
  rw [ha.loads] at hloaded
  have hwritten : Keyed dirs written := hloaded.of_names (by rw [ha.writes])
  have hafter := hwritten.register hname id offset
  rwa [hregister] at hafter

theorem keyed_insert (hd : Declarations dirs) {statement : InsertStatement} {result : ExecResult}
    {after : View} (h : Keyed dirs v) (hrun : InsertRun statement dirs v result after) :
    Keyed dirs after := by
  have hload {schema : Schema} {outcome : Except Bytes Unit} {loaded : View}
      (hs : loadSchema dirs v.files statement.tableName = .ok schema)
      (hl : v.load dirs.dataDir schema.storageName = (outcome, loaded)) : Keyed dirs loaded := by
    have hloaded := h.load (storage_declared hd hs) dirs.dataDir
    rwa [hl] at hloaded
  cases hrun with
  | noTable _ => exact h
  | badColumns _ _ => exact h
  | noIndex hs hl => exact hload hs hl
  | badRow hs hl _ => exact hload hs hl
  | noFile hs hl _ => exact hload hs hl
  | unregistered ha hregister => exact (keyed_appended hd h ha hregister).of_names rfl
  | registered ha hregister => exact keyed_appended hd h ha hregister

theorem keyed_execute (hd : Declarations dirs) {db : Database} (h : Keyed dirs (view db))
    (statement : Statement) : Keyed dirs (view ((executeStatement statement dirs).run db).2) := by
  cases statement with
  | insert statement => exact keyed_insert hd h (executeInsert_run statement dirs db)
  | select statement =>
    rcases executeSelect_view statement dirs db with hsame | ⟨schema, hs, hload⟩
    · rw [executeStatement, hsame]
      exact h
    · rw [executeStatement, hload]
      exact h.load (storage_declared hd hs) dirs.dataDir

theorem keyed_run (hd : Declarations dirs) (statements : List Statement) {db : Database}
    (h : Keyed dirs (view db)) : Keyed dirs (view ((runStatements dirs statements).run db).2) := by
  induction statements generalizing db with
  | nil => exact h
  | cons statement rest ih =>
    rw [runStatements, Program.run_bind, Program.run_bind]
    exact ih (keyed_execute hd h statement)

end Entries

section Unknown

variable {dirs : Directories} {name : Bytes}

theorem path_unknown (hd : Declarations dirs) (h : Unknown dirs name) :
    ∃ message, findSchemaPath dirs name = .error message := by
  have hnone : dirs.schemaFiles.lookup (name ++ metaExtension) = none := by
    rw [List.lookup_eq_none_iff]
    intro file hfile
    rw [bne_iff_ne]
    intro heq
    obtain ⟨filename, entry⟩ := file
    obtain rfl : name ++ metaExtension = filename := heq
    obtain ⟨-, declared, hdesc⟩ := hd.described _ _ hfile
    exact (h _ _ ⟨_, hfile, hdesc⟩).1 rfl
  rw [findSchemaPath, hnone]
  dsimp only
  split
  · exact ⟨_, rfl⟩
  · have hundeclared : ∀ basename, ¬ Declares dirs basename name :=
      fun basename hdecl => (h _ _ hdecl).2 rfl
    exact ⟨_, find_undeclared hd hundeclared fun _ hfile => hfile⟩

theorem read_unknown (hd : Declarations dirs) (h : Unknown dirs name) :
    ∃ message, readSchema dirs name = .error message := by
  obtain ⟨message, hpath⟩ := path_unknown hd h
  refine ⟨message, ?_⟩
  rw [readSchema, hpath]

theorem run_unloaded {statement : Statement} {message : Bytes} {db : Database}
    (h : loadSchema dirs db.dataFiles (tableNameOf statement) = .error message) :
    (executeStatement statement dirs).run db = (execError message, db) := by
  cases statement with
  | insert statement =>
    rw [tableNameOf] at h
    rw [executeStatement, executeInsert, Program.run_bind, Program.run_read]
    dsimp only
    rw [h]
    rfl
  | select statement =>
    rw [tableNameOf] at h
    rw [executeStatement, executeSelect, Program.run_bind, Program.run_read]
    dsimp only
    rw [h]
    rfl

theorem load_unread {message : Bytes} (h : readSchema dirs name = .error message)
    (files : DataFiles) : loadSchema dirs files name = .error message := by
  rw [loadSchema, h]

/-- The path of a meta file in the schema directory. -/
def MetaPath (dirs : Directories) (path : Bytes) : Prop :=
  ∃ name, path = schemaPath dirs (name ++ metaExtension)

theorem records_unknown (hd : Declarations dirs) (h : Unknown dirs name) :
    Records (MetaPath dirs) (fun read => ∃ message, read = .error message)
      (Opening.loadSchema dirs name) := by
  have hsearch : Records (MetaPath dirs) (fun found => ∃ message, found = .error message)
      (Opening.findSchemaPath dirs name) := by
    have hopens : Records (MetaPath dirs) (fun _ => True) (Opening.findSchemaPath dirs name) := by
      apply opens_findSchemaPath ⟨name, rfl⟩
      intro file _ hmeta
      obtain ⟨basename, hbasename⟩ := meta_name hmeta
      exact ⟨basename, by rw [hbasename]⟩
    apply hopens.value (erases_findSchemaPath dirs name)
    intro db
    exact path_unknown hd h
  have hread : Records (MetaPath dirs) (fun read => ∃ message, read = .error message)
      (Opening.readSchema dirs name) := by
    apply hsearch.bind
    intro found hfound
    obtain ⟨message, rfl⟩ := hfound
    exact records_pure ⟨message, rfl⟩
  apply hread.bind
  intro read hread
  obtain ⟨message, rfl⟩ := hread
  exact records_pure ⟨message, rfl⟩

theorem opened_unknown (hd : Declarations dirs) {statement : Statement}
    (h : Unknown dirs (tableNameOf statement)) (db : Database) :
    ∀ path ∈ openedBy dirs statement db, MetaPath dirs path := by
  have hrecords : Records (MetaPath dirs) (fun _ => True)
      (Opening.executeStatement statement dirs) := by
    cases statement with
    | insert statement =>
      apply (records_unknown hd h).bind
      intro read hread
      obtain ⟨message, rfl⟩ := hread
      exact records_pure trivial
    | select statement =>
      apply (records_unknown hd h).bind
      intro read hread
      obtain ⟨message, rfl⟩ := hread
      exact records_pure trivial
  have hevents := hrecords { state := db, events := [] } fun _ hevent => by cases hevent
  exact hevents.1

end Unknown

section TooLong

variable {dirs : Directories} {basename declared : Bytes} {entry : SchemaEntry}

/-- How the message of a meta file that does not open begins. -/
def openFailure : Bytes := ascii "failed to open s"

theorem systemError_begin {action path reason : Bytes} (h : 16 ≤ action.length) :
    (formatSystemError action path reason).take 16 = action.take 16 := by
  have hroom : min 16 (messageSize - 1) = 16 := by decide
  rw [formatSystemError, clip, List.take_take, hroom, List.append_assoc, List.append_assoc,
    List.append_assoc]
  exact List.take_append_of_le_length h

/-- A file that opens is refused with other words. -/
theorem unread_begin (hd : Declarations dirs)
    (hmem : (basename ++ metaExtension, entry) ∈ dirs.schemaFiles) (hdesc : Describes entry declared)
    {message : Bytes} (h : readSchema dirs basename = .error message) :
    message.take 16 ≠ openFailure := by
  rw [readSchema, path_basename hd hmem] at h
  dsimp only at h
  split at h
  · rename_i hread
    cases h
    rcases readMeta_error hread with rfl | ⟨value, hvalue, hparse⟩
    · decide
    · obtain ⟨only, columns, honly, hvalid⟩ := hdesc.columns
      rw [honly, List.mem_singleton] at hvalue
      rw [hvalue, hvalid] at hparse
      cases hparse
  · split at h
    · cases h
      decide
    · split_ifs at h
      · cases h
        decide
      · cases h
        decide
      · cases h
        decide

theorem unfiled_begin (hd : Declarations dirs)
    (hmem : (basename ++ metaExtension, entry) ∈ dirs.schemaFiles)
    (hdesc : Describes entry declared) :
    ∃ message, loadSchema dirs (fun _ => none) basename = .error message ∧
      message.take 16 ≠ openFailure := by
  rw [loadSchema]
  cases hread : readSchema dirs basename with
  | error message => exact ⟨message, rfl, unread_begin hd hmem hdesc hread⟩
  | ok schema =>
    refine ⟨_, rfl, ?_⟩
    rw [systemError_begin (by decide)]
    decide

/-- The whole table, under this name. -/
def selectAllFrom (name : Bytes) : Statement :=
  .select { tableName := name, columns := [], selectAll := true, whereClause := none }

/-- With no data file the two names of the table fail differently. -/
theorem long_alias_fails (hd : Declarations dirs) (hdecl : Declares dirs basename declared)
    (hcomponent : Component declared) (hlength : 250 < declared.length) :
    ¬ AliasNamesTable dirs := by
  intro halias
  obtain ⟨entry, hmem, hdesc⟩ := hdecl
  have hlong : readSchema dirs declared =
      .error (schemaOpenError dirs (declared ++ metaExtension) (ascii "File name too long")) := by
    rw [readSchema, path_long hd hlength]
  obtain ⟨message, hbasename, hbegin⟩ := unfiled_begin hd hmem hdesc
  have hsame : SameTable dirs basename declared :=
    .inr ⟨basename, declared, ⟨entry, hmem, hdesc⟩, hcomponent, .inl rfl, .inr rfl⟩
  have hruns := halias.runs [selectAllFrom basename] [selectAllFrom declared]
    (startDatabase fun _ => none) (.cons ⟨declared, hsame, rfl⟩ .nil)
  have hfirst : (executeStatement (selectAllFrom declared) dirs).run (startDatabase fun _ => none) =
      _ := run_unloaded (load_unread hlong _)
  have hsecond : (executeStatement (selectAllFrom basename) dirs).run
      (startDatabase fun _ => none) = _ := run_unloaded hbasename
  simp only [runStatements, Program.run_bind, Program.run_pure] at hruns
  rw [hfirst, hsecond] at hruns
  obtain ⟨hresult, -⟩ := List.cons.inj (congrArg Prod.fst hruns)
  have hmessage := congrArg ExecResult.message hresult
  apply hbegin
  rw [← show _ = message from hmessage, schemaOpenError, execError]
  exact systemError_begin (by decide)

end TooLong

/-- The two names of a table are interchangeable exactly when every declared name leaves room
for the extension in a file name. -/
theorem alias_names_table_iff {dirs : Directories} (hd : Declarations dirs) :
    AliasNamesTable dirs ↔ FitsExtension dirs := by
  constructor
  · intro halias basename declared hdecl hcomponent
    by_contra hlength
    exact long_alias_fails hd hdecl hcomponent (Nat.lt_of_not_le hlength) halias
  · intro hfit
    refine ⟨?_, ?_, ?_, ?_⟩
    · intro basename declared files hdecl hcomponent
      have hsame : SameTable dirs declared basename :=
        .inr ⟨basename, declared, hdecl, hcomponent, .inr rfl, .inl rfl⟩
      rw [loaded, loaded, loadSchema_same hd hfit hsame]
    · intro statements respelled db hrespelled
      rw [run_respelled hd hfit hrespelled]
    · intro statements files
      have hstart : Keyed dirs (view (startDatabase files)) :=
        ⟨List.nodup_nil, fun name hname => by cases hname⟩
      obtain ⟨hunique, hdeclared⟩ := keyed_run hd statements hstart
      exact ⟨hunique, hdeclared⟩
    · intro statement db _ hunknown
      obtain ⟨message, hread⟩ := read_unknown hd hunknown
      exact ⟨⟨message, run_unloaded (load_unread hread _)⟩, opened_unknown hd hunknown db⟩

section Single

/-- A directory with one meta file. -/
def oneFile (basename content : Bytes) : Directories :=
  { schemaDir := ascii "schema"
    schemaFiles := [(basename ++ metaExtension, .regular content)]
    dataDir := ascii "data" }

variable {basename content declared : Bytes}

theorem oneFile_only (hdesc : Describes (.regular content) declared) {name other : Bytes}
    (h : Declares (oneFile basename content) name other) : name = basename ∧ other = declared := by
  obtain ⟨entry, hmem, hother⟩ := h
  obtain ⟨hname, rfl⟩ := Prod.mk.inj (List.mem_singleton.mp hmem)
  exact ⟨List.append_cancel_right hname,
    List.singleton_inj.mp (hother.table.symm.trans hdesc.table)⟩

theorem oneFile_declares (hdesc : Describes (.regular content) declared) :
    Declares (oneFile basename content) basename declared :=
  ⟨_, List.mem_singleton.mpr rfl, hdesc⟩

theorem oneFile_declarations (hlength : basename.length ≤ 250)
    (hdesc : Describes (.regular content) declared) :
    Declarations (oneFile basename content) := by
  refine ⟨List.nodup_singleton _, ?_, ?_, ?_, ?_⟩
  · intro file hfile
    rw [List.mem_singleton.mp hfile, length_meta, nameMax]
    omega
  · intro name entry hmem
    obtain ⟨-, rfl⟩ := Prod.mk.inj (List.mem_singleton.mp hmem)
    exact ⟨⟨content, rfl⟩, declared, hdesc⟩
  · intro name other shared hname hother
    rw [(oneFile_only hdesc hname).1, (oneFile_only hdesc hother).1]
  · intro name declaredName other shared hname hother _
    rw [(oneFile_only hdesc hname).1, (oneFile_only hdesc hother).1]

end Single

/-- `student.meta` of the tests, which declares `학생`. -/
def students : Bytes :=
  ascii "table=" ++ [237, 149, 153, 236, 131, 157] ++ ascii "\ncolumns=name,age\n"

theorem students_described : Describes (.regular students) [237, 149, 153, 236, 131, 157] :=
  ⟨by decide +kernel, ascii "name,age", [ascii "name", ascii "age"], by decide +kernel,
    by decide +kernel⟩

theorem alias_names_table_student : AliasNamesTable (oneFile (ascii "student") students) := by
  apply (alias_names_table_iff (oneFile_declarations (by decide) students_described)).mpr
  intro basename declared hdecl _
  rw [(oneFile_only students_described hdecl).2]
  decide

/-- A name one byte too long for `<name>.meta` to be a file name. -/
def longName : Bytes := List.replicate 251 97

def longStudents : Bytes := ascii "table=" ++ longName ++ ascii "\ncolumns=name,age\n"

theorem long_described : Describes (.regular longStudents) longName :=
  ⟨by decide +kernel, ascii "name,age", [ascii "name", ascii "age"], by decide +kernel,
    by decide +kernel⟩

/-- The table `student` loads, and its declared name does not. -/
theorem alias_too_long :
    Declarations (oneFile (ascii "student") longStudents) ∧
      ¬ AliasNamesTable (oneFile (ascii "student") longStudents) := by
  have hd : Declarations (oneFile (ascii "student") longStudents) :=
    oneFile_declarations (by decide) long_described
  have hletters : Component longName := by
    intro hmem
    cases List.eq_of_mem_replicate hmem
  refine ⟨hd, long_alias_fails hd (oneFile_declares long_described) hletters ?_⟩
  rw [longName, List.length_replicate]
  decide

end DbApi.Proofs.TableAlias
