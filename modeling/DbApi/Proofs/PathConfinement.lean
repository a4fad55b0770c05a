import DbApi.Core.OpenedFiles
import DbApi.Proofs.SqlGrammar

/-! The files that a statement opens. Without its events the run that opens them is the run
of the engine, and every path that it opens names a table file of the two directories. -/

namespace DbApi.Proofs.PathConfinement
open Library Storage Index Sql Execution DbApi.Core Recorded

section Erasure

theorem erases_fileDeclaresTable (dirs : Directories) (filename : Bytes) (entry : SchemaEntry)
    (tableName : Bytes) :
    Erases (Opening.fileDeclaresTable dirs filename entry tableName)
      (pure (fileDeclaresTable dirs filename entry tableName)) := by
  cases entry with
  | regular content => exact (erases_pure _).record _
  | directory => exact erases_pure _

theorem erases_findDeclaration (dirs : Directories) (tableName : Bytes)
    (entries : List (Bytes × SchemaEntry)) :
    Erases (Opening.findDeclaration dirs tableName entries)
      (pure (findDeclaration dirs tableName entries)) := by
  induction entries with
  | nil => exact erases_pure _
  | cons first rest ih =>
    obtain ⟨filename, entry⟩ := first
    rw [Opening.findDeclaration, findDeclaration]
    split
    · apply (erases_fileDeclaresTable dirs filename entry tableName).bind_pure
      cases fileDeclaresTable dirs filename entry tableName with
      | error message => exact erases_pure _
      | ok found =>
        cases found with
        | true => exact erases_pure _
        | false => exact ih
    · exact ih

theorem erases_findSchemaPath (dirs : Directories) (tableName : Bytes) :
    Erases (Opening.findSchemaPath dirs tableName) (pure (findSchemaPath dirs tableName)) := by
  apply Erases.record
  rw [findSchemaPath]
  cases dirs.schemaFiles.lookup (tableName ++ metaExtension) with
  | some entry => exact erases_pure _
  | none =>
    dsimp only
    split
    · exact erases_pure _
    · exact erases_findDeclaration dirs tableName dirs.schemaFiles

theorem erases_readSchema (dirs : Directories) (tableName : Bytes) :
    Erases (Opening.readSchema dirs tableName) (pure (readSchema dirs tableName)) := by
  apply (erases_findSchemaPath dirs tableName).bind_pure
  cases hfind : findSchemaPath dirs tableName with
  | error message =>
    rw [readSchema, hfind]
    exact erases_pure _
  | ok found => exact (erases_pure _).record _

theorem erases_validateCsvHeader (dataDir : Bytes) (files : DataFiles) (schema : Schema) :
    Erases (Opening.validateCsvHeader dataDir files schema)
      (pure (validateCsvHeader dataDir files schema)) :=
  (erases_pure _).record _

theorem erases_loadSchema (dirs : Directories) (tableName : Bytes) :
    Erases (Opening.loadSchema dirs tableName)
      (.read fun db => loadSchema dirs db.dataFiles tableName) := by
  intro r
  have hread := erases_readSchema dirs tableName r
  rw [Program.run_pure] at hread
  obtain ⟨hvalue, hstate⟩ := hread
  rw [Opening.loadSchema, Program.run_bind, hvalue, Program.run_read, loadSchema]
  cases readSchema dirs tableName with
  | error message => exact ⟨rfl, hstate⟩
  | ok schema =>
    dsimp only
    rw [Program.run_bind, silent_run, Program.run_read, hstate]
    dsimp only
    obtain ⟨hvalid, hkept⟩ := erases_validateCsvHeader dirs.dataDir r.state.dataFiles schema
      { state := r.state, events := ((Opening.readSchema dirs tableName).run r).2.events }
    rw [Program.run_pure] at hvalid hkept
    rw [Program.run_bind, hvalid]
    cases validateCsvHeader dirs.dataDir r.state.dataFiles schema with
    | error message => exact ⟨rfl, hkept⟩
    | ok _ => exact ⟨rfl, hkept⟩

theorem erases_ensureLoaded (schema : Schema) (dataDir : Bytes) :
    Erases (Opening.ensureLoaded schema dataDir) (ensureLoaded schema dataDir) := by
  apply (erases_silent _).bind
  intro entry
  cases entry.loaded with
  | true => exact erases_pure _
  | false =>
    apply (erases_silent _).bind
    intro _
    apply Erases.record
    apply (erases_silent _).bind
    intro rebuilt
    cases rebuilt with
    | error message =>
      apply (erases_silent _).bind
      intro _
      exact erases_pure _
    | ok tree =>
      apply (erases_silent _).bind
      intro _
      exact erases_pure _

theorem erases_readEntry {α : Type} (schema : Schema) (dataDir : Bytes) (read : TableIndex → α) :
    Erases (Opening.readEntry schema dataDir read) (readEntry schema dataDir read) := by
  apply (erases_ensureLoaded schema dataDir).bind
  intro loaded
  cases loaded with
  | error message => exact erases_pure _
  | ok _ =>
    apply (erases_silent _).bind
    intro value
    exact erases_pure _

theorem erases_registerRow (schema : Schema) (dataDir : Bytes) (id : Int) (rowOffset : Nat) :
    Erases (Opening.tableIndexRegisterRow schema dataDir id rowOffset)
      (tableIndexRegisterRow schema dataDir id rowOffset) := by
  apply (erases_silent _).bind
  intro forced
  cases forced with
  | true => exact erases_pure _
  | false =>
    apply (erases_ensureLoaded schema dataDir).bind
    intro loaded
    cases loaded with
    | error message => exact erases_pure _
    | ok _ => exact erases_silent _

theorem erases_executeInsert (statement : InsertStatement) (dirs : Directories) :
    Erases (Opening.executeInsert statement dirs) (executeInsert statement dirs) := by
  apply (erases_loadSchema dirs statement.tableName).bind
  intro loaded
  cases loaded with
  | error message => exact erases_pure _
  | ok schema =>
    dsimp only
    cases validateInsertColumns statement schema with
    | error message => exact erases_pure _
    | ok _ =>
      apply (erases_readEntry schema dirs.dataDir TableIndex.nextId).bind
      intro nextId
      cases nextId with
      | error message => exact erases_pure _
      | ok nextId =>
        dsimp only
        cases buildInsertRow statement schema with
        | error message => exact erases_pure _
        | ok rowValues =>
          apply Erases.record
          apply (erases_silent _).bind
          intro point
          cases point with
          | error message => exact erases_pure _
          | ok point =>
            apply (erases_silent _).bind
            intro _
            apply (erases_registerRow schema dirs.dataDir nextId point.rowOffset).bind
            intro registered
            cases registered with
            | error message =>
              apply (erases_silent _).bind
              intro _
              exact erases_pure _
            | ok _ => exact erases_pure _

theorem erases_executeIndexSelect (whereValue : Bytes) (schema : Schema) (dataDir : Bytes)
    (selected : List (Bytes × Option Nat)) :
    Erases (Opening.executeIndexSelect whereValue schema dataDir selected)
      (executeIndexSelect whereValue schema dataDir selected) := by
  rw [Opening.executeIndexSelect, executeIndexSelect]
  cases Common.parseIntStrict whereValue with
  | none => exact erases_pure _
  | some whereId =>
    apply (erases_readEntry schema dataDir _).bind
    intro found
    cases found with
    | error message => exact erases_pure _
    | ok found =>
      cases found with
      | none => exact erases_pure _
      | some rowOffset =>
        apply Erases.record
        apply (erases_silent _).bind
        intro fields
        cases fields with
        | error message => exact erases_pure _
        | ok fields =>
          dsimp only
          split
          · exact erases_pure _
          · exact erases_pure _

theorem erases_executeSelect (statement : SelectStatement) (dirs : Directories) :
    Erases (Opening.executeSelect statement dirs) (executeSelect statement dirs) := by
  apply (erases_loadSchema dirs statement.tableName).bind
  intro loaded
  cases loaded with
  | error message => exact erases_pure _
  | ok schema =>
    dsimp only
    cases buildSelectIndexes statement schema with
    | error message => exact erases_pure _
    | ok selected =>
      dsimp only
      split
      · exact erases_pure _
      · cases resolveWhereIndex statement schema with
        | error message => exact erases_pure _
        | ok whereIndex =>
          dsimp only
          cases statement.whereClause.filter (·.column == ascii "id") with
          | some condition => exact erases_executeIndexSelect _ schema dirs.dataDir selected
          | none => exact (erases_silent _).record _

theorem erases_executeStatement (statement : Statement) (dirs : Directories) :
    Erases (Opening.executeStatement statement dirs) (executeStatement statement dirs) := by
  cases statement with
  | insert statement => exact erases_executeInsert statement dirs
  | select statement => exact erases_executeSelect statement dirs

/-- The run that opens the files is the run of the engine. -/
theorem erases_engineRun (request : ServerCoreRequest) :
    Erases (Opening.serverCoreWeek8EngineRun request) (serverCoreWeek8EngineRun request) := by
  rw [Opening.serverCoreWeek8EngineRun, serverCoreWeek8EngineRun]
  cases lexSql request.sql.bytes with
  | error error => exact erases_pure _
  | ok tokens =>
    dsimp only
    cases parseStatement tokens with
    | error message => exact erases_pure _
    | ok statement =>
      apply (erases_executeStatement statement request.dirs).bind
      intro result
      exact erases_pure _

end Erasure

/-- A name of table files: the one in the statement, or the basename of a meta file. -/
def TableFileName (dirs : Directories) (tableName name : Bytes) : Prop :=
  name = tableName ∨ ∃ entry, (name ++ metaExtension, entry) ∈ dirs.schemaFiles

/-- The meta file of such a name in the schema directory, or its CSV file in the data
directory. -/
def Within (dirs : Directories) (tableName path : Bytes) : Prop :=
  ∃ name, TableFileName dirs tableName name ∧
    (path = dirs.schemaDir ++ ascii "/" ++ name ++ ascii ".meta" ∨
      path = dirs.dataDir ++ ascii "/" ++ name ++ ascii ".csv")

section Names

variable {dirs : Directories} {tableName : Bytes}

theorem meta_name {filename : Bytes} (h : hasMetaExtension filename = true) :
    ∃ name, filename = name ++ metaExtension := by
  obtain ⟨name, hname⟩ := List.isSuffixOf_iff_suffix.mp h
  exact ⟨name, hname.symm⟩

theorem extract_meta (name : Bytes) : extractStorageName (name ++ metaExtension) = name := by
  have hmeta : hasMetaExtension (name ++ metaExtension) = true :=
    List.isSuffixOf_iff_suffix.mpr (List.suffix_append _ _)
  have hlength : (name ++ metaExtension).length - 5 = name.length := by
    rw [List.length_append]
    exact Nat.add_sub_cancel _ _
  rw [extractStorageName, if_pos hmeta, hlength, List.take_left]

theorem declaration_named {entries : List (Bytes × SchemaEntry)} {filename : Bytes}
    {entry : SchemaEntry} (h : findDeclaration dirs tableName entries = .ok (filename, entry)) :
    (filename, entry) ∈ entries ∧ hasMetaExtension filename = true := by
  induction entries with
  | nil => cases h
  | cons first rest ih =>
    obtain ⟨other, otherEntry⟩ := first
    rw [findDeclaration] at h
    split at h
    · rename_i hmeta
      split at h
      · cases h
      · cases h
        exact ⟨List.mem_cons_self, hmeta⟩
      · obtain ⟨hmem, hname⟩ := ih h
        exact ⟨List.mem_cons_of_mem _ hmem, hname⟩
    · obtain ⟨hmem, hname⟩ := ih h
      exact ⟨List.mem_cons_of_mem _ hmem, hname⟩

theorem found_named {filename : Bytes} {entry : SchemaEntry}
    (h : findSchemaPath dirs tableName = .ok (filename, entry)) :
    ∃ name, filename = name ++ metaExtension ∧ TableFileName dirs tableName name := by
  rw [findSchemaPath] at h
  split at h
  · cases h
    exact ⟨tableName, rfl, .inl rfl⟩
  · split at h
    · cases h
    · obtain ⟨hmem, hmeta⟩ := declaration_named h
      obtain ⟨name, rfl⟩ := meta_name hmeta
      exact ⟨name, rfl, .inr ⟨entry, hmem⟩⟩

theorem schema_named {schema : Schema} (h : readSchema dirs tableName = .ok schema) :
    TableFileName dirs tableName schema.storageName := by
  rw [readSchema] at h
  split at h
  · cases h
  · rename_i filename entry hfind
    obtain ⟨name, rfl, hname⟩ := found_named hfind
    split at h
    · cases h
    · split at h
      · cases h
      · dsimp only at h
        split_ifs at h
        cases h
        rw [extract_meta]
        exact hname

theorem within_meta {name : Bytes} (h : TableFileName dirs tableName name) :
    Within dirs tableName (schemaPath dirs (name ++ metaExtension)) :=
  ⟨name, h, .inl (by simp [schemaPath, metaExtension])⟩

theorem within_csv {name : Bytes} (h : TableFileName dirs tableName name) :
    Within dirs tableName (csvPath dirs.dataDir name) :=
  ⟨name, h, .inr rfl⟩

end Names

section Search

variable {dirs : Directories} {tableName : Bytes} {P : Bytes → Prop}

/-- The search opens the candidates. -/
theorem opens_findDeclaration {entries : List (Bytes × SchemaEntry)}
    (h : ∀ file ∈ entries, hasMetaExtension file.1 = true → P (schemaPath dirs file.1)) :
    Records P (fun _ => True) (Opening.findDeclaration dirs tableName entries) := by
  induction entries with
  | nil => exact records_pure trivial
  | cons first rest ih =>
    obtain ⟨hfirst, hrest⟩ := List.forall_mem_cons.mp h
    obtain ⟨filename, entry⟩ := first
    rw [Opening.findDeclaration]
    split
    · rename_i hmeta
      have hcandidate : Records P (fun _ => True)
          (Opening.fileDeclaresTable dirs filename entry tableName) := by
        cases entry with
        | directory => exact records_pure trivial
        | regular content =>
          apply Records.bind (records_record (hfirst hmeta))
          intro _ _
          exact records_pure trivial
      apply hcandidate.bind
      intro found _
      cases found with
      | error message => exact records_pure trivial
      | ok found =>
        cases found with
        | true => exact records_pure trivial
        | false => exact ih hrest
    · exact ih hrest

theorem opens_findSchemaPath (hown : P (schemaPath dirs (tableName ++ metaExtension)))
    (hfiles : ∀ file ∈ dirs.schemaFiles, hasMetaExtension file.1 = true →
      P (schemaPath dirs file.1)) :
    Records P (fun _ => True) (Opening.findSchemaPath dirs tableName) := by
  apply Records.bind (records_record hown)
  intro _ _
  cases dirs.schemaFiles.lookup (tableName ++ metaExtension) with
  | some entry => exact records_pure trivial
  | none =>
    dsimp only
    split
    · exact records_pure trivial
    · exact opens_findDeclaration hfiles

end Search

section Confinement

variable {dirs : Directories} {tableName : Bytes}

/-- A program that opens table files only, and returns something. -/
def Confined (dirs : Directories) (tableName : Bytes) {α : Type} (p : Opening.Opens α) : Prop :=
  Records (Within dirs tableName) (fun _ => True) p

theorem confined_pure {α : Type} (a : α) : Confined dirs tableName (pure a) :=
  records_pure trivial

theorem confined_silent {α : Type} (p : Program Database α) :
    Confined dirs tableName (Recorded.silent p) :=
  records_silent fun _ => trivial

theorem Confined.bind {α β : Type} {p : Opening.Opens α} {f : α → Opening.Opens β}
    (hp : Confined dirs tableName p) (hf : ∀ a, Confined dirs tableName (f a)) :
    Confined dirs tableName (p >>= f) :=
  Records.bind hp fun a _ => hf a

theorem Confined.fopen {α : Type} {path : Bytes} {p : Opening.Opens α}
    (h : Within dirs tableName path) (hp : Confined dirs tableName p) :
    Confined dirs tableName (Opening.fopen path >>= fun _ => p) :=
  Records.bind (records_record h) fun _ _ => hp

theorem confined_findSchemaPath :
    Confined dirs tableName (Opening.findSchemaPath dirs tableName) := by
  apply opens_findSchemaPath (within_meta (.inl rfl))
  intro file hfile hmeta
  obtain ⟨filename, entry⟩ := file
  obtain ⟨name, rfl⟩ := meta_name hmeta
  exact within_meta (.inr ⟨entry, hfile⟩)

/-- What is found is a table file. -/
theorem records_findSchemaPath :
    Records (Within dirs tableName)
      (fun found => ∀ filename entry, found = .ok (filename, entry) →
        Within dirs tableName (schemaPath dirs filename))
      (Opening.findSchemaPath dirs tableName) := by
  apply confined_findSchemaPath.value (erases_findSchemaPath dirs tableName)
  intro db filename entry hfound
  obtain ⟨name, rfl, hname⟩ := found_named hfound
  exact within_meta hname

theorem confined_readSchema : Confined dirs tableName (Opening.readSchema dirs tableName) := by
  apply records_findSchemaPath.bind
  intro found hfound
  cases found with
  | error message => exact confined_pure _
  | ok found => exact Confined.fopen (hfound found.1 found.2 rfl) (confined_pure _)

/-- A schema that is read is stored under the name of a table file. -/
def Named (dirs : Directories) (tableName : Bytes) (read : Except Bytes Schema) : Prop :=
  ∀ schema, read = .ok schema → TableFileName dirs tableName schema.storageName

theorem records_readSchema :
    Records (Within dirs tableName) (Named dirs tableName) (Opening.readSchema dirs tableName) := by
  apply confined_readSchema.value (erases_readSchema dirs tableName)
  intro db schema hread
  exact schema_named hread

theorem records_loadSchema :
    Records (Within dirs tableName) (Named dirs tableName) (Opening.loadSchema dirs tableName) := by
  apply records_readSchema.bind
  intro read hread
  cases read with
  | error message => exact records_pure fun _ h => by cases h
  | ok schema =>
    dsimp only
    apply Records.bind (confined_silent _)
    intro files _
    have hheader : Confined dirs tableName
        (Opening.validateCsvHeader dirs.dataDir files schema) :=
      Confined.fopen (within_csv (hread schema rfl)) (confined_pure _)
    apply Records.bind hheader
    intro valid _
    cases valid with
    | error message => exact records_pure fun _ h => by cases h
    | ok _ => exact records_pure hread

section Stored

variable {schema : Schema} (h : TableFileName dirs tableName schema.storageName)

include h

theorem confined_ensureLoaded :
    Confined dirs tableName (Opening.ensureLoaded schema dirs.dataDir) := by
  apply (confined_silent _).bind
  intro entry
  cases entry.loaded with
  | true => exact confined_pure _
  | false =>
    apply (confined_silent _).bind
    intro _
    apply Confined.fopen (within_csv h)
    apply (confined_silent _).bind
    intro rebuilt
    cases rebuilt with
    | error message => exact (confined_silent _).bind fun _ => confined_pure _
    | ok tree => exact (confined_silent _).bind fun _ => confined_pure _

theorem confined_readEntry {α : Type} (read : TableIndex → α) :
    Confined dirs tableName (Opening.readEntry schema dirs.dataDir read) := by
  apply (confined_ensureLoaded h).bind
  intro loaded
  cases loaded with
  | error message => exact confined_pure _
  | ok _ => exact (confined_silent _).bind fun _ => confined_pure _

theorem confined_registerRow (id : Int) (rowOffset : Nat) :
    Confined dirs tableName (Opening.tableIndexRegisterRow schema dirs.dataDir id rowOffset) := by
  apply (confined_silent _).bind
  intro forced
  cases forced with
  | true => exact confined_pure _
  | false =>
    apply (confined_ensureLoaded h).bind
    intro loaded
    cases loaded with
    | error message => exact confined_pure _
    | ok _ => exact confined_silent _

theorem confined_executeIndexSelect (whereValue : Bytes) (selected : List (Bytes × Option Nat)) :
    Confined dirs tableName
      (Opening.executeIndexSelect whereValue schema dirs.dataDir selected) := by
  rw [Opening.executeIndexSelect]
  cases Common.parseIntStrict whereValue with
  | none => exact confined_pure _
  | some whereId =>
    apply (confined_readEntry h _).bind
    intro found
    cases found with
    | error message => exact confined_pure _
    | ok found =>
      cases found with
      | none => exact confined_pure _
      | some rowOffset =>
        apply Confined.fopen (within_csv h)
        apply (confined_silent _).bind
        intro fields
        cases fields with
        | error message => exact confined_pure _
        | ok fields =>
          dsimp only
          split
          · exact confined_pure _
          · exact confined_pure _

end Stored

theorem confined_executeInsert (statement : InsertStatement) :
    Confined dirs statement.tableName (Opening.executeInsert statement dirs) := by
  apply Records.bind records_loadSchema
  intro loaded hloaded
  cases loaded with
  | error message => exact confined_pure _
  | ok schema =>
    have hname := hloaded schema rfl
    dsimp only
    cases validateInsertColumns statement schema with
    | error message => exact confined_pure _
    | ok _ =>
      apply (confined_readEntry hname TableIndex.nextId).bind
      intro nextId
      cases nextId with
      | error message => exact confined_pure _
      | ok nextId =>
        dsimp only
        cases buildInsertRow statement schema with
        | error message => exact confined_pure _
        | ok rowValues =>
          apply Confined.fopen (within_csv hname)
          apply (confined_silent _).bind
          intro point
          cases point with
          | error message => exact confined_pure _
          | ok point =>
            apply (confined_silent _).bind
            intro _
            apply (confined_registerRow hname nextId point.rowOffset).bind
            intro registered
            cases registered with
            | error message => exact (confined_silent _).bind fun _ => confined_pure _
            | ok _ => exact confined_pure _

theorem confined_executeSelect (statement : SelectStatement) :
    Confined dirs statement.tableName (Opening.executeSelect statement dirs) := by
  apply Records.bind records_loadSchema
  intro loaded hloaded
  cases loaded with
  | error message => exact confined_pure _
  | ok schema =>
    have hname := hloaded schema rfl
    dsimp only
    cases buildSelectIndexes statement schema with
    | error message => exact confined_pure _
    | ok selected =>
      dsimp only
      split
      · exact confined_pure _
      · cases resolveWhereIndex statement schema with
        | error message => exact confined_pure _
        | ok whereIndex =>
          dsimp only
          cases statement.whereClause.filter (·.column == ascii "id") with
          | some condition => exact confined_executeIndexSelect hname _ selected
          | none => exact Confined.fopen (within_csv hname) (confined_silent _)

end Confinement

/-- The table that a statement names. -/
def tableNameOf : Statement → Bytes
  | .insert statement => statement.tableName
  | .select statement => statement.tableName

theorem confined_executeStatement (statement : Statement) (dirs : Directories) :
    Confined dirs (tableNameOf statement) (Opening.executeStatement statement dirs) := by
  cases statement with
  | insert statement => exact confined_executeInsert statement
  | select statement => exact confined_executeSelect statement

section TableName

/-- The letters of a name, none of which leads out of a directory or ends a path. -/
structure IsName (name : Bytes) : Prop where
  nonempty : name ≠ []
  letters : ∀ b ∈ name, isAlpha b = true ∨ isDigit b = true ∨ b = 95 ∨ 128 ≤ b
  harmless : ∀ b ∈ [nul, 46, 47, 92], b ∉ name

theorem name_letters {b : UInt8} (h : isIdentifierContinue b = true) :
    (isAlpha b = true ∨ isDigit b = true ∨ b = 95 ∨ 128 ≤ b) ∧ b ∉ [nul, 46, 47, 92] := by
  revert b
  decide +kernel

theorem word_isName {current : UInt8} (hs : isIdentifierStart current = true) (rest : Bytes) :
    IsName (current :: rest.takeWhile isIdentifierContinue) := by
  have hall : ∀ b ∈ current :: rest.takeWhile isIdentifierContinue,
      isIdentifierContinue b = true := by
    intro b hb
    rcases List.mem_cons.mp hb with rfl | hb
    · rw [← isIdentifierStart_eq]
      exact hs
    · exact List.mem_takeWhile_imp hb
  refine ⟨List.cons_ne_nil _ _, fun b hb => (name_letters (hall b hb)).1, ?_⟩
  intro b hb hmem
  exact (name_letters (hall b hmem)).2 hb

/-- Identifiers are words, and no other token is one. -/
theorem lex_identifiers {position : Nat} {input : Bytes} {tokens : List Token}
    (h : lexFrom position input = .ok tokens) :
    ∀ token ∈ tokens, token.type = .identifier → IsName token.text := by
  fun_induction lexFrom position input generalizing tokens with
  | case1 position =>
    cases h
    intro token htoken htype
    rw [List.mem_singleton.mp htoken] at htype
    cases htype
  | case2 position current rest hspace ih => exact ih h
  | case3 position current rest hspace hstart word =>
    rename_i ih
    obtain ⟨tokens, hlex, rfl⟩ := except_map_ok.mp h
    exact List.forall_mem_cons.mpr ⟨fun _ => word_isName hstart rest, ih hlex⟩
  | case4 position rest scan => cases h
  | case5 position rest scan hlast hspace hstart =>
    rename_i ih
    obtain ⟨tokens, hlex, rfl⟩ := except_map_ok.mp h
    exact List.forall_mem_cons.mpr ⟨fun htype => (by cases htype), ih hlex⟩
  | case6 position current rest hspace hstart hquote type htype ih =>
    obtain ⟨tokens, hlex, rfl⟩ := except_map_ok.mp h
    refine List.forall_mem_cons.mpr ⟨fun hidentifier => ?_, ih hlex⟩
    change type = .identifier at hidentifier
    rw [symbolType] at htype
    split_ifs at htype <;> cases htype <;> cases hidentifier
  | case7 position => cases h

open SqlGrammar in
/-- The table name of a sentence is an identifier of it. -/
theorem sentence_tableName {tokens : List Token} {statement : Statement}
    (h : Sentence tokens statement) :
    ∃ token ∈ tokens, token.type = .identifier ∧ token.text = tableNameOf statement := by
  cases h with
  | insert h _ _ =>
    cases h with
    | intro _ _ hn => exact ⟨_, by simp, identifier_type hn, rfl⟩
  | select h _ _ =>
    cases h with
    | intro _ _ _ hn _ => exact ⟨_, by simp, identifier_type hn, rfl⟩

theorem tableName_isName {input : Bytes} {tokens : List Token} {statement : Statement}
    (hlex : lexSql input = .ok tokens) (hparse : parseStatement tokens = .ok statement) :
    IsName (tableNameOf statement) := by
  obtain ⟨token, htoken, htype, htext⟩ :=
    sentence_tableName (SqlGrammar.parse_sound (SqlGrammar.lex_terminated hlex) hparse)
  rw [← htext]
  exact lex_identifiers hlex token htoken htype

end TableName

/-- Whatever the text, the run opens meta files of the schema directory and CSV files of the
data directory only, under the table name of the statement or the basename of a meta file. -/
theorem opens_within (request : ServerCoreRequest) (db : Database) :
    Erases (Opening.serverCoreWeek8EngineRun request) (serverCoreWeek8EngineRun request) ∧
    ∀ path ∈ Opening.openedPaths request db, ∃ tokens statement,
      lexSql request.sql.bytes = .ok tokens ∧ parseStatement tokens = .ok statement ∧
        IsName (tableNameOf statement) ∧ Within request.dirs (tableNameOf statement) path := by
  refine ⟨erases_engineRun request, ?_⟩
  intro path hpath
  rw [Opening.openedPaths, Opening.serverCoreWeek8EngineRun] at hpath
  cases hlex : lexSql request.sql.bytes with
  | error error =>
    rw [hlex] at hpath
    cases hpath
  | ok tokens =>
    rw [hlex] at hpath
    dsimp only at hpath
    cases hparse : parseStatement tokens with
    | error message =>
      rw [hparse] at hpath
      cases hpath
    | ok statement =>
      rw [hparse] at hpath
      refine ⟨tokens, statement, rfl, hparse, tableName_isName hlex hparse, ?_⟩
      have hconfined := confined_executeStatement statement request.dirs
      exact ((hconfined.bind fun _ => confined_pure _) { state := db, events := [] }
        fun _ hevent => absurd hevent List.not_mem_nil).1 path hpath

end DbApi.Proofs.PathConfinement
