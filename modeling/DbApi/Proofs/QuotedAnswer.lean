import DbApi.Proofs.FailedStatement
import DbApi.Proofs.QuotedParse

namespace DbApi.Proofs.Quotes
open Library Common Storage Index Sql Execution Lines TableFile IndexRebuild IndexView
open StatementOutcome IndexRuns FailedStatement SelectAnswer ReadableText FullScan InsertRow

/-- Directories and tables of UTF-8, with lines that the readers take in one go. -/
structure TextTables (dirs : Directories) (files : DataFiles) : Prop where
  schemaDir : Utf8 dirs.schemaDir
  dataDir : Utf8 dirs.dataDir
  schemaNames : ∀ entry ∈ dirs.schemaFiles, Utf8 entry.1
  schemas : ∀ entry ∈ dirs.schemaFiles, ∀ content, entry.2 = .regular content → TextFile content
  contents : ∀ name, ∀ content ∈ files name, TextFile content

/-- The message is what the quote shows, or plain where nothing is quoted. -/
inductive Reported : Option Quote → Bytes → Prop where
  | plain {message : Bytes} (h : Ascii message) : Reported none message
  | quoted {quote : Quote} (h : quote.Fits) : Reported (some quote) quote.shown

section Schemas

variable {dirs : Directories} {files : DataFiles} {tableName filename : Bytes} {entry : SchemaEntry}

theorem systemErrorQuote_fits {action path reason : Bytes} (ha : Utf8 action) (hp : Utf8 path)
    (hr : Utf8 reason) : (systemErrorQuote action path reason).Fits :=
  messageQuote_fits ((((ha.append (utf8_ascii _ rfl)).append hp).append (utf8_ascii _ rfl)).append hr)

theorem schemaOpen_fits (h : TextTables dirs files) (hf : Utf8 filename) {reason : Bytes}
    (hr : Utf8 reason) : (schemaOpenQuote dirs filename reason).Fits :=
  systemErrorQuote_fits (utf8_ascii _ rfl) ((h.schemaDir.append (utf8_ascii _ rfl)).append hf) hr

theorem findDeclaration_reported (h : TextTables dirs files) {entries : List (Bytes × SchemaEntry)}
    (hentries : entries ⊆ dirs.schemaFiles) :
    EndsWith (Reported ((unreadableEntry dirs tableName entries).map (schemaOpenQuote dirs · enoent)))
      (fun found => found ∈ dirs.schemaFiles ∧ unreadableEntry dirs tableName entries = none)
      (findDeclaration dirs tableName entries) := by
  induction entries with
  | nil => exact .plain (ascii_literal _ rfl)
  | cons first rest ih =>
    obtain ⟨filename, entry⟩ := first
    obtain ⟨hfirst, hrest⟩ := List.cons_subset.mp hentries
    rw [findDeclaration, unreadableEntry]
    split
    · cases hdeclares : fileDeclaresTable dirs filename entry tableName with
      | error message =>
        cases entry with
        | regular content => cases hdeclares
        | directory =>
          obtain rfl := Except.error.inj hdeclares
          exact .quoted (schemaOpen_fits h (h.schemaNames _ hfirst) (utf8_ascii _ rfl))
      | ok declares =>
        cases declares with
        | true => exact ⟨hfirst, rfl⟩
        | false => exact ih hrest
    · exact ih hrest

/-- A file of a table: its name, and its text where it is a regular one. -/
structure EntryText (found : Bytes × SchemaEntry) : Prop where
  name : Utf8 found.1
  content : ∀ content, found.2 = .regular content → TextFile content

theorem findSchemaPath_reported (h : TextTables dirs files) (ht : Utf8 tableName) :
    EndsWith (Reported (schemaFileQuote dirs tableName))
      (fun found => EntryText found ∧ schemaFileQuote dirs tableName = none)
      (findSchemaPath dirs tableName) := by
  have hname : Utf8 (tableName ++ metaExtension) := ht.append (utf8_ascii _ rfl)
  have hentry : ∀ found ∈ dirs.schemaFiles, EntryText found :=
    fun found hfound => ⟨h.schemaNames found hfound, h.schemas found hfound⟩
  unfold findSchemaPath schemaFileQuote
  dsimp only
  cases hlookup : dirs.schemaFiles.lookup (tableName ++ metaExtension) with
  | some entry =>
    obtain ⟨front, rest, hfiles, -⟩ := List.lookup_eq_some_iff.mp hlookup
    have hmem : (tableName ++ metaExtension, entry) ∈ dirs.schemaFiles := by
      rw [hfiles]
      simp
    exact ⟨hentry _ hmem, rfl⟩
  | none =>
    dsimp only
    split
    · exact .quoted (schemaOpen_fits h hname (utf8_ascii _ rfl))
    · have hsearch := @findDeclaration_reported dirs files tableName h dirs.schemaFiles
        (List.Subset.refl _)
      cases hfound : findDeclaration dirs tableName dirs.schemaFiles with
      | error message => exact hsearch.error hfound
      | ok found =>
        obtain ⟨hmem, hnone⟩ := hsearch.ok hfound
        rw [hnone]
        exact ⟨hentry found hmem, rfl⟩

theorem extractStorageName_utf8 (h : Utf8 filename) : Utf8 (extractStorageName filename) := by
  unfold extractStorageName
  split
  · rename_i hmeta
    obtain ⟨front, rfl⟩ := List.isSuffixOf_iff_suffix.mp hmeta
    have hlength : (front ++ metaExtension).length - 5 = front.length := by
      rw [List.length_append]
      exact Nat.add_sub_cancel front.length 5
    rw [hlength, List.take_left]
    exact (utf8_append_right (ascii_literal _ rfl)).mp h
  · exact h

theorem splitSetting_utf8 {trimmed key value : Bytes} (h : Utf8 trimmed)
    (hsplit : splitSetting trimmed = some (key, value)) : Utf8 value := by
  unfold splitSetting at hsplit
  split at hsplit
  · obtain ⟨-, rfl⟩ := Prod.mk.inj (Option.some.inj hsplit)
    have hequals : ∀ b : UInt8, (b != 61) = false → b < 128 := by decide +kernel
    have hrest := (h.span hequals).2
    apply trim_utf8
    cases hdrop : trimmed.dropWhile (· != 61) with
    | nil => exact utf8_nil
    | cons b rest =>
      have hb : b < 128 := by
        apply hequals
        have hstop := List.head?_dropWhile_not (· != 61) trimmed
        rw [hdrop] at hstop
        simpa using hstop
      rw [hdrop] at hrest
      exact (utf8_cons hb rest).mp hrest
  · cases hsplit

theorem readMetaLines_utf8 {lines : List Bytes} (hlines : AllUtf8 lines) {s : MetaState}
    (hs : AllUtf8 s.columns) :
    EndsWith Ascii (fun s => AllUtf8 s.columns) (readMetaLines lines s) := by
  induction lines generalizing s with
  | nil => exact hs
  | cons line rest ih =>
    obtain ⟨hline, hrest⟩ := List.forall_mem_cons.mp hlines
    have htrimmed : Utf8 (trimmedLine line) := trim_utf8 (strip_utf8 hline)
    rw [readMetaLines]
    split
    · exact ih hrest hs
    cases hsplit : splitSetting (trimmedLine line) with
    | none => exact ascii_literal _ rfl
    | some setting =>
      obtain ⟨key, value⟩ := setting
      dsimp only
      split
      · exact ih hrest hs
      split
      · have hparsed := csvParseLine_utf8 (splitSetting_utf8 htrimmed hsplit)
        cases hcolumns : csvParseLine value with
        | error message => exact hparsed.error hcolumns
        | ok columns => exact ih hrest (hparsed.ok hcolumns)
      · exact ih hrest hs

theorem EntryText.lines {found : Bytes × SchemaEntry} (h : EntryText found) :
    AllUtf8 found.2.lines := by
  obtain ⟨filename, entry⟩ := found
  cases entry with
  | directory => exact fun _ hline => (List.not_mem_nil hline).elim
  | regular content =>
    intro line hline
    obtain ⟨read, hread, rfl⟩ := List.mem_map.mp hline
    exact (h.content content rfl).reads 0 read hread

structure SchemaText (schema : Schema) : Prop where
  storageName : Utf8 schema.storageName
  columns : AllUtf8 schema.columns

theorem readSchema_reported (h : TextTables dirs files) (ht : Utf8 tableName) :
    EndsWith (Reported (schemaFileQuote dirs tableName)) SchemaText (readSchema dirs tableName) := by
  have hpath := findSchemaPath_reported h ht
  unfold readSchema
  cases hfound : findSchemaPath dirs tableName with
  | error message => exact hpath.error hfound
  | ok found =>
    obtain ⟨hentry, hnone⟩ := hpath.ok hfound
    have hplain : ∀ {message : Bytes}, Ascii message →
        Reported (schemaFileQuote dirs tableName) message := fun hmessage => hnone ▸ .plain hmessage
    have hmeta := @readMetaLines_utf8 _ hentry.lines { tableName := none, columns := [] }
      fun _ hcolumn => (List.not_mem_nil hcolumn).elim
    dsimp only
    cases hread : readMetaLines found.2.lines { tableName := none, columns := [] } with
    | error message => exact hplain (hmeta.error hread)
    | ok s =>
      have hcolumns := hmeta.ok hread
      dsimp only
      cases s.tableName with
      | none => exact hplain (ascii_literal _ rfl)
      | some declared =>
        dsimp only
        split
        · exact hplain (ascii_literal _ rfl)
        split
        · exact hplain (ascii_literal _ rfl)
        split
        · exact hplain (ascii_literal _ rfl)
        · exact ⟨extractStorageName_utf8 hentry.name, hcolumns⟩

theorem loadSchema_reported (h : TextTables dirs files) (ht : Utf8 tableName) :
    EndsWith (Reported (tableQuote dirs files tableName)) SchemaText
      (loadSchema dirs files tableName) := by
  have hschema := readSchema_reported h ht
  unfold loadSchema tableQuote
  cases hread : readSchema dirs tableName with
  | error message => exact hschema.error hread
  | ok schema =>
    have htext := hschema.ok hread
    dsimp only
    unfold validateCsvHeader
    cases hfile : files schema.storageName with
    | none =>
      have hcsv : Utf8 (csvPath dirs.dataDir schema.storageName) :=
        ((h.dataDir.append (utf8_ascii _ rfl)).append htext.storageName).append (utf8_ascii _ rfl)
      exact .quoted (systemErrorQuote_fits (utf8_ascii _ rfl) hcsv (utf8_ascii _ rfl))
    | some content =>
      have hline := (h.contents _ content hfile).read.1
      dsimp only
      cases hget : fgets lineRoom content with
      | nil => exact .plain (ascii_literal _ rfl)
      | cons b line =>
        rw [hget] at hline
        have hparsed := csvParseLine_utf8 (strip_utf8 hline)
        dsimp only
        cases hheader : csvParseLine (stripLineEndings (b :: line)) with
        | error message => exact .plain (hparsed.error hheader)
        | ok header =>
          by_cases hlength : header.length ≠ schema.columns.length
          · simp only [if_pos hlength]
            exact .plain (ascii_literal _ rfl)
          by_cases horder : header ≠ schema.columns
          · simp only [if_neg hlength, if_pos horder]
            exact .plain (ascii_literal _ rfl)
          · simp only [if_neg hlength, if_neg horder]
            exact htext

end Schemas

section Inserts

variable {dirs : Directories} {schema : Schema}

theorem columnQuote_reported {front column : Bytes} (hf : Ascii front) (hc : Utf8 column) :
    Reported (some (messageQuote (front ++ column))) (clip messageSize (front ++ column)) :=
  .quoted (messageQuote_fits (hf.utf8.append hc))

theorem validateColumns_reported {pairs : List (Bytes × Bytes)}
    (hpairs : AllUtf8 (pairs.map Prod.fst)) :
    EndsWith (Reported ((unknownInsertColumn schema pairs).map fun column =>
        messageQuote (ascii "unknown column in INSERT: " ++ column)))
      (fun _ => ∀ pair ∈ pairs, schemaFindColumn schema pair.1 ≠ none)
      (validateColumns schema pairs) := by
  induction pairs with
  | nil => exact fun _ hpair => (List.not_mem_nil hpair).elim
  | cons pair rest ih =>
    obtain ⟨column, value⟩ := pair
    obtain ⟨hcolumn, hrest⟩ := List.forall_mem_cons.mp hpairs
    rw [validateColumns, unknownInsertColumn]
    by_cases hid : column = ascii "id"
    · rw [if_pos hid, if_pos hid]
      exact .plain (ascii_literal _ rfl)
    rw [if_neg hid, if_neg hid]
    by_cases hfind : schemaFindColumn schema column = none
    · rw [if_pos hfind, if_pos (by simp [isUnknown, hid, hfind])]
      exact columnQuote_reported (ascii_literal _ rfl) hcolumn
    rw [if_neg hfind, if_neg (by simp [isUnknown, hfind])]
    by_cases hnewline : containsNewline value = true
    · rw [if_pos hnewline, if_pos hnewline]
      exact .plain (ascii_literal _ rfl)
    · rw [if_neg hnewline, if_neg hnewline]
      have hlater := ih hrest
      cases hvalid : validateColumns schema rest with
      | error message => exact hlater.error hvalid
      | ok _ => exact List.forall_mem_cons.mpr ⟨hfind, hlater.ok hvalid⟩

/-- Just the columns given so far are marked. -/
structure Marked (schema : Schema) (assigned : List Bool) (seen : List Bytes) : Prop where
  length : assigned.length = schema.columns.length
  marks : ∀ column index, schemaFindColumn schema column = some index →
    (assigned[index]? = some true ↔ column ∈ seen)

theorem Marked.give {assigned : List Bool} {seen : List Bytes} (h : Marked schema assigned seen)
    {column : Bytes} {index : Nat} (hfind : schemaFindColumn schema column = some index) :
    Marked schema (assigned.set index true) (column :: seen) := by
  refine ⟨by rw [List.length_set, h.length], ?_⟩
  intro other otherIndex hother
  have hindex : index < assigned.length := by
    rw [h.length]
    exact (List.getElem?_eq_some_iff.mp (findColumn_some hfind)).1
  by_cases hsame : otherIndex = index
  · have hcolumn : other = column := findColumn_inj (hsame ▸ hother) hfind
    rw [hsame, List.getElem?_set_self hindex, hcolumn]
    exact iff_of_true rfl List.mem_cons_self
  · have hcolumn : other ≠ column := by
      rintro rfl
      exact hsame (Option.some.inj (hother.symm.trans hfind))
    rw [List.getElem?_set_ne (Ne.symm hsame), h.marks other otherIndex hother, List.mem_cons,
      or_iff_right hcolumn]

theorem assignColumns_reported {pairs : List (Bytes × Bytes)} {assigned : List Bool}
    {seen rowValues : List Bytes} (hpairs : AllUtf8 (pairs.map Prod.fst))
    (hknown : ∀ pair ∈ pairs, schemaFindColumn schema pair.1 ≠ none)
    (hmarked : Marked schema assigned seen) :
    EndsWith (Reported ((repeatedColumn seen (pairs.map Prod.fst)).map fun column =>
        messageQuote (ascii "duplicate column in INSERT: " ++ column)))
      (fun _ => repeatedColumn seen (pairs.map Prod.fst) = none)
      (assignColumns schema pairs assigned rowValues) := by
  induction pairs generalizing assigned seen rowValues with
  | nil => rfl
  | cons pair rest ih =>
    obtain ⟨column, value⟩ := pair
    obtain ⟨hcolumn, hrest⟩ := List.forall_mem_cons.mp hpairs
    obtain ⟨hfirst, hlater⟩ := List.forall_mem_cons.mp hknown
    rw [assignColumns, List.map_cons, repeatedColumn]
    cases hfind : schemaFindColumn schema column with
    | none => exact absurd hfind hfirst
    | some index =>
      dsimp only
      have hseen := (hmarked.marks column index hfind).trans List.contains_iff_mem.symm
      by_cases hassigned : assigned[index]? = some true
      · rw [if_pos hassigned, if_pos (hseen.mp hassigned)]
        exact columnQuote_reported (ascii_literal _ rfl) hcolumn
      · rw [if_neg hassigned, if_neg (mt hseen.mpr hassigned)]
        exact ih hrest hlater (hmarked.give hfind)

theorem buildInsertRow_reported {statement : InsertStatement} (htext : InsertText statement)
    (hlength : statement.columns.length = statement.values.length)
    (hknown : ∀ pair ∈ statement.columns.zip statement.values,
      schemaFindColumn schema pair.1 ≠ none) :
    EndsWith (Reported ((repeatedColumn [] statement.columns).map fun column =>
        messageQuote (ascii "duplicate column in INSERT: " ++ column)))
      (fun _ => repeatedColumn [] statement.columns = none) (buildInsertRow statement schema) := by
  have hcolumns : (statement.columns.zip statement.values).map Prod.fst = statement.columns :=
    List.map_fst_zip hlength.le
  have hpairs : AllUtf8 ((statement.columns.zip statement.values).map Prod.fst) := by
    rw [hcolumns]
    exact htext.columns
  have hstart : Marked schema (List.replicate schema.columns.length false) [] := by
    refine ⟨List.length_replicate, ?_⟩
    intro column index _
    simp [List.getElem?_replicate]
  have hassign := @assignColumns_reported schema _ _ [] (List.replicate schema.columns.length [])
    hpairs hknown hstart
  rw [hcolumns] at hassign
  exact hassign

theorem rebuild_ascii {files : DataFiles} {name content : Bytes} (hfile : files name = some content)
    (h : TextFile content) (dataDir : Bytes) : FailsWith Ascii (rebuild dataDir files name) := by
  have hlines : ∀ (lines : List (Nat × Bytes)) (offsets : List Nat) (tree : BPlusTree Nat)
      (nextId : Int), (∀ line ∈ lines, Utf8 line.2) → Indexes offsets tree nextId →
        FailsWith Ascii (lines.foldlM
          (fun context line => (csvParseLine line.2).bind (rebuildRow · line.1 context))
            (tree, nextId)) := by
    intro lines
    induction lines with
    | nil => exact fun _ _ _ _ _ => failsWith_ok _
    | cons line lines ih =>
      intro offsets tree nextId htext hi
      obtain ⟨hline, hrest⟩ := List.forall_mem_cons.mp htext
      rw [List.foldlM_cons]
      cases hp : csvParseLine line.2 with
      | error message => exact failsWith_error ((csvParseLine_utf8 hline).error hp)
      | ok fields =>
        obtain ⟨tree', nextId', hrow, hi'⟩ := rebuildRow_ok hi fields line.1
        simp only [Except.bind, hrow]
        exact ih _ _ _ hrest hi'
  by_cases hne : content = []
  · subst hne
    simp only [rebuild, scanRowsCsv, openTableFile, hfile, (fgetsAll_eq_nil lineRoom_pos).mpr]
    exact failsWith_error (ascii_literal _ rfl)
  · rw [rebuild, scanRowsCsv_eq hfile hne]
    exact hlines _ _ _ _ h.dataLines indexes_init

theorem load_error {dataDir name message : Bytes} {v loaded : View}
    (h : v.load dataDir name = (.error message, loaded)) :
    standsFor dataDir v name = .error message ∧ rebuild dataDir v.files name = .error message := by
  unfold View.load at h
  unfold standsFor
  split at h
  · cases h
  rename_i hl
  rw [if_neg hl]
  split at h
  · rename_i hr
    obtain rfl := Except.error.inj (Prod.mk.inj h).1
    exact ⟨hr, hr⟩
  · cases h

theorem load_stands {dataDir name : Bytes} {v loaded : View}
    (h : v.load dataDir name = (.ok (), loaded)) :
    ∃ index, standsFor dataDir v name = .ok index := by
  unfold View.load at h
  unfold standsFor
  split at h
  · rename_i hl
    exact ⟨_, if_pos hl⟩
  rename_i hl
  rw [if_neg hl]
  split at h
  · cases h
  · rename_i hr
    exact ⟨_, hr⟩

/-- A registration fails only where it was told to. -/
theorem register_ascii {v : View} (hv : Counting v) {name : Bytes}
    (hl : (v.indexOf name).loaded = true) (offset : Nat) :
    FailsWith Ascii (v.register name (v.indexOf name).nextId offset).1 := by
  unfold View.register
  split
  · exact failsWith_error (ascii_literal _ rfl)
  · obtain ⟨offsets, hi⟩ := hv name hl
    obtain ⟨hok, -⟩ := registerEntry_indexes hi offset
    exact hok ▸ failsWith_ok _

theorem appended_ascii {statement : InsertStatement} {before : View} {content : Bytes}
    {rowValues : List Bytes} {loaded written : View} (hv : Counting before)
    (h : Appended statement dirs before schema rowValues content loaded written) :
    FailsWith Ascii (written.register schema.storageName
      (loaded.indexOf schema.storageName).nextId (rowOffset content)).1 := by
  have hindex : written.indexOf = loaded.indexOf := by rw [h.writes]
  have hloaded : Counting loaded := by
    have hload := hv.load dirs.dataDir schema.storageName
    rwa [h.loads] at hload
  have hwritten : Counting written := by
    intro name
    rw [hindex]
    exact hloaded name
  rw [← hindex]
  apply register_ascii hwritten
  rw [hindex]
  exact load_ok h.loads

theorem insert_refused {statement : InsertStatement} {db : Database} {message : Bytes}
    (h : loadSchema dirs db.dataFiles statement.tableName = .error message ∨
      ∃ schema, loadSchema dirs db.dataFiles statement.tableName = .ok schema ∧
        validateInsertColumns statement schema = .error message) :
    ((executeInsert statement dirs).run db).1 = execError message := by
  unfold executeInsert
  rw [Program.run_bind, Program.run_read]
  dsimp only
  rcases h with h | ⟨schema, hs, h⟩
  · rw [h]
    rfl
  · rw [hs]
    dsimp only
    rw [h]
    rfl

theorem insert_reported {statement : InsertStatement} {db : Database}
    (htables : TextTables dirs db.dataFiles) (hv : Counting (view db))
    (htext : InsertText statement) :
    ((executeInsert statement dirs).run db).1.table = none ∧
      Reported (insertQuote statement dirs db) ((executeInsert statement dirs).run db).1.message := by
  have hrun := executeInsert_run statement dirs db
  refine ⟨(InsertRun.reports hv hrun).2.1, ?_⟩
  have hschema := loadSchema_reported htables htext.tableName
  unfold insertQuote
  cases hs : loadSchema dirs db.dataFiles statement.tableName with
  | error message =>
    rw [insert_refused (.inl hs)]
    exact hschema.error hs
  | ok schema =>
  dsimp only
  by_cases hlength : statement.columns.length ≠ statement.values.length
  · have hinvalid : validateInsertColumns statement schema =
        .error (ascii "column count and value count do not match") := if_pos hlength
    rw [if_pos hlength, insert_refused (.inr ⟨schema, hs, hinvalid⟩)]
    exact .plain (ascii_literal _ rfl)
  rw [if_neg hlength]
  have hpairs : AllUtf8 ((statement.columns.zip statement.values).map Prod.fst) := by
    rw [List.map_fst_zip (not_not.mp hlength).le]
    exact htext.columns
  have hcheck := @validateColumns_reported schema _ hpairs
  have hvalidate : validateInsertColumns statement schema =
      validateColumns schema (statement.columns.zip statement.values) := if_neg hlength
  rw [← hvalidate] at hcheck
  cases hvalid : validateInsertColumns statement schema with
  | error message =>
    rw [insert_refused (.inr ⟨schema, hs, hvalid⟩)]
    exact hcheck.error hvalid
  | ok _ =>
  have hbuild := buildInsertRow_reported htext (not_not.mp hlength) (hcheck.ok hvalid)
  obtain ⟨content, hfile, -⟩ := validateCsvHeader_content (loadSchema_ok hs).2
  have hrebuild := rebuild_ascii hfile (htables.contents _ content hfile) dirs.dataDir
  have hsame : ∀ {other : Schema}, loadSchema dirs (view db).files statement.tableName = .ok other →
      other = schema := fun hother => Except.ok.inj (hother.symm.trans hs)
  dsimp only [Yields] at hrun
  generalize ((executeInsert statement dirs).run db).1 = result at hrun
  generalize view ((executeInsert statement dirs).run db).2 = after at hrun
  cases hrun with
  | noTable h => cases hs.symm.trans h
  | badColumns hother h =>
    obtain rfl := hsame hother
    cases hvalid.symm.trans h
  | noIndex hother h =>
    obtain rfl := hsame hother
    rw [(load_error h).1]
    exact .plain (hrebuild _ (load_error h).2)
  | badRow hother hl h =>
    obtain rfl := hsame hother
    obtain ⟨index, hindex⟩ := load_stands hl
    rw [hindex]
    exact hbuild.error h
  | noFile hother hl h =>
    obtain rfl := hsame hother
    have hpoint := @findAppendPoint_eq _ _ _ hfile dirs.dataDir
    cases hpoint.symm.trans h
  | unregistered ha hr =>
    obtain rfl := hsame ha.schema_ok
    obtain ⟨index, hindex⟩ := load_stands ha.loads
    have hregister := appended_ascii hv ha
    rw [hr] at hregister
    dsimp only
    rw [hindex, hbuild.ok ha.row_ok]
    exact .plain (hregister _ rfl)
  | registered ha hr =>
    obtain rfl := hsame ha.schema_ok
    obtain ⟨index, hindex⟩ := load_stands ha.loads
    dsimp only
    rw [hindex, hbuild.ok ha.row_ok]
    exact .plain (ascii_literal _ rfl)

end Inserts

end DbApi.Proofs.Quotes
