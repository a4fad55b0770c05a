import DbApi.Proofs.SelectAnswer

namespace DbApi.Proofs.InsertStatement
open Library Common Storage Index Sql Execution TableFile IndexView StatementOutcome InsertRow
open IndexRebuild IndexCoherence FullScan SelectAnswer

/-- What an INSERT must satisfy to be accepted. -/
structure Insertable (statement : InsertStatement) (schema : Schema) : Prop where
  paired : statement.columns.length = statement.values.length
  known : ∀ column ∈ statement.columns, column ∈ schema.columns
  not_id : ascii "id" ∉ statement.columns
  distinct : statement.columns.Nodup
  one_line : ∀ value ∈ statement.values, carriageReturn ∉ cString value ∧ lineFeed ∉ cString value

/-- The value named for a column, or the empty string. -/
def givenValue (pairs : List (Bytes × Bytes)) (column : Bytes) : Bytes :=
  ((pairs.find? (·.1 == column)).map (cString ·.2)).getD []

def insertedRow (statement : InsertStatement) (schema : Schema) : List Bytes :=
  schema.columns.map (givenValue (statement.columns.zip statement.values))

theorem containsNewline_false {value : Bytes} :
    containsNewline value = false ↔ carriageReturn ∉ cString value ∧ lineFeed ∉ cString value := by
  rw [containsNewline, List.any_eq_false]
  constructor
  · intro h
    exact ⟨fun hm => h _ hm (by simp [isLineEnding]), fun hm => h _ hm (by simp [isLineEnding])⟩
  · rintro ⟨hcr, hlf⟩ b hb hline
    simp only [isLineEnding, Bool.or_eq_true, beq_iff_eq] at hline
    rcases hline with rfl | rfl
    · exact hlf hb
    · exact hcr hb

/-- The first validator looks at the pairs one by one. -/
theorem validateColumns_iff (schema : Schema) (pairs : List (Bytes × Bytes)) :
    validateColumns schema pairs = .ok () ↔
      ∀ pair ∈ pairs, pair.1 ≠ ascii "id" ∧ pair.1 ∈ schema.columns ∧
        containsNewline pair.2 = false := by
  induction pairs with
  | nil => simp [validateColumns]
  | cons pair pairs ih =>
    obtain ⟨column, value⟩ := pair
    simp only [validateColumns, List.forall_mem_cons, ← ih, findColumn_none]
    split
    · rename_i hid
      simp [hid]
    · rename_i hid
      split
      · rename_i hk
        simp [hk]
      · rename_i hk
        split
        · rename_i hv
          simp [hv]
        · rename_i hv
          simp [hid, not_not.mp hk, hv]

/-- The second validator asks for known columns, each named once; those in
`assigned` were named before. -/
theorem assignColumns_iff (schema : Schema) (pairs : List (Bytes × Bytes)) {assigned : List Bool}
    (hl : assigned.length = schema.columns.length) (start : List Bytes) :
    (∃ rowValues, assignColumns schema pairs assigned start = .ok rowValues) ↔
      (∀ pair ∈ pairs, ∃ index, schemaFindColumn schema pair.1 = some index ∧
        assigned[index]? ≠ some true) ∧ (pairs.map Prod.fst).Nodup := by
  induction pairs generalizing assigned start with
  | nil => simp [assignColumns]
  | cons pair pairs ih =>
    obtain ⟨column, value⟩ := pair
    simp only [assignColumns]
    cases hf : schemaFindColumn schema column with
    | none => simp [hf]
    | some index =>
    have hindex : index < assigned.length :=
      hl ▸ (List.getElem?_eq_some_iff.mp (findColumn_some hf)).1
    by_cases ha : assigned[index]? = some true
    · simp [hf, ha]
    have hlen : (assigned.set index true).length = schema.columns.length := by simpa using hl
    have hrest := ih hlen (start.set index (copyString value))
    simp only [ha, if_false, List.forall_mem_cons, List.map_cons, List.nodup_cons]
    rw [hrest]
    constructor
    · rintro ⟨hfree, hnodup⟩
      refine ⟨⟨⟨index, hf, ha⟩, fun pair hp => ?_⟩, ?_, hnodup⟩
      · obtain ⟨other, hother, hset⟩ := hfree pair hp
        by_cases ho : index = other
        · rw [← ho, List.getElem?_set_self hindex] at hset
          contradiction
        · rw [List.getElem?_set_ne ho] at hset
          exact ⟨other, hother, hset⟩
      · intro hm
        obtain ⟨pair, hp, hc⟩ := List.mem_map.mp hm
        obtain ⟨other, hother, hset⟩ := hfree pair hp
        rw [hc, hf, Option.some.injEq] at hother
        rw [← hother, List.getElem?_set_self hindex] at hset
        contradiction
    · rintro ⟨⟨_, hfree⟩, hnew, hnodup⟩
      refine ⟨fun pair hp => ?_, hnodup⟩
      obtain ⟨other, hother, hset⟩ := hfree pair hp
      refine ⟨other, hother, ?_⟩
      rw [List.getElem?_set_ne]
      · exact hset
      · rintro rfl
        exact hnew (List.mem_map.mpr ⟨pair, hp, findColumn_inj hother hf⟩)

/-- What the two validators accept between them. -/
theorem accepted_iff {statement : InsertStatement} {schema : Schema}
    (hid : ascii "id" ∉ schema.columns) :
    (validateInsertColumns statement schema = .ok () ∧
      ∃ rowValues, buildInsertRow statement schema = .ok rowValues) ↔
      Insertable statement schema := by
  simp only [validateInsertColumns, buildInsertRow]
  rw [assignColumns_iff schema _ (by simp)]
  by_cases hp : statement.columns.length = statement.values.length
  · have hfst : (statement.columns.zip statement.values).map Prod.fst = statement.columns :=
      List.map_fst_zip hp.le
    have hsnd : (statement.columns.zip statement.values).map Prod.snd = statement.values :=
      List.map_snd_zip hp.ge
    rw [if_neg (by simpa using hp), validateColumns_iff, hfst]
    constructor
    · rintro ⟨hpairs, _, hnodup⟩
      refine ⟨hp, fun column hc => ?_, fun hc => ?_, hnodup, fun value hv => ?_⟩
      · rw [← hfst] at hc
        obtain ⟨pair, hm, rfl⟩ := List.mem_map.mp hc
        exact (hpairs pair hm).2.1
      · rw [← hfst] at hc
        obtain ⟨pair, hm, hpid⟩ := List.mem_map.mp hc
        exact (hpairs pair hm).1 hpid
      · rw [← hsnd] at hv
        obtain ⟨pair, hm, rfl⟩ := List.mem_map.mp hv
        exact containsNewline_false.mp (hpairs pair hm).2.2
    · intro h
      have hknown : ∀ pair ∈ statement.columns.zip statement.values, pair.1 ∈ schema.columns :=
        fun pair hm => h.known _ (hfst ▸ List.mem_map_of_mem hm)
      refine ⟨fun pair hm => ⟨?_, hknown pair hm, ?_⟩, fun pair hm => ?_, h.distinct⟩
      · intro hpid
        exact hid (hpid ▸ hknown pair hm)
      · exact containsNewline_false.mpr (h.one_line _ (hsnd ▸ List.mem_map_of_mem hm))
      · cases hf : schemaFindColumn schema pair.1 with
        | none => exact absurd (hknown pair hm) (findColumn_none.mp hf)
        | some index =>
          refine ⟨index, rfl, ?_⟩
          intro hassigned
          have := List.eq_of_mem_replicate (List.mem_of_getElem? hassigned)
          contradiction
  · rw [if_pos hp]
    constructor
    · rintro ⟨h, _⟩
      contradiction
    · intro h
      exact absurd h.paired hp

theorem rowOf_eq {schema : Schema} (hd : schema.columns.Nodup) (statement : InsertStatement) :
    rowOf statement schema = insertedRow statement schema := by
  apply List.ext_getElem?
  intro index
  simp only [rowOf, insertedRow, List.getElem?_map]
  cases hc : schema.columns[index]? with
  | none =>
    rw [List.getElem?_eq_none (by simpa using hc)]
    rfl
  | some column =>
    have hi := findColumn_getElem hd hc
    have hmatch : (fun pair : Bytes × Bytes => schemaFindColumn schema pair.1 == some index) =
        (·.1 == column) := by
      funext pair
      rw [Bool.eq_iff_iff, beq_iff_eq, beq_iff_eq]
      constructor
      · intro h
        exact findColumn_inj h hi
      · rintro rfl
        exact hi
    rw [List.getElem?_range (List.getElem?_eq_some_iff.mp hc).1]
    simp only [Option.map_some, cellAt, hmatch, copyString, givenValue]

/-- With each column named once, the order of the pairs is of no account. -/
theorem givenValue_perm {pairs pairs' : List (Bytes × Bytes)} (hp : pairs.Perm pairs')
    (hd : (pairs.map Prod.fst).Nodup) : givenValue pairs = givenValue pairs' := by
  funext column
  have hfind : pairs.find? (·.1 == column) = pairs'.find? (·.1 == column) := by
    induction hp with
    | nil => rfl
    | cons pair _ ih =>
      rw [List.map_cons, List.nodup_cons] at hd
      rw [List.find?_cons, List.find?_cons, ih hd.2]
    | swap a b rest =>
      simp only [List.map_cons, List.nodup_cons, List.mem_cons, not_or] at hd
      by_cases ha : a.1 = column
      · have hb : b.1 ≠ column := fun hb => hd.1.1 (hb.trans ha.symm)
        simp [ha, hb]
      · by_cases hb : b.1 = column
        · simp [ha, hb]
        · simp [ha, hb]
    | trans h _ ih ih' => exact (ih hd).trans (ih' ((h.map Prod.fst).nodup_iff.mp hd))
  rw [givenValue, hfind, givenValue]

section Accepted

variable {statement : InsertStatement} {dirs : Directories} {db : Database} {schema : Schema}
  {content : Bytes}

/-- What an accepted INSERT does to the table. -/
structure Inserts (dirs : Directories) (db : Database) (schema : Schema) (content : Bytes)
    (rowValues : List Bytes) (result : ExecResult) (after : View) : Prop where
  ok : result.ok = true
  files : after.files =
    Function.update db.dataFiles schema.storageName (some (appendRow content (encodeRow rowValues)))
  others : ∀ name ≠ schema.storageName, after.indexOf name = (view db).indexOf name
  names : ∀ name ≠ schema.storageName, name ∈ after.names ↔ name ∈ (view db).names

theorem load_others (dataDir name : Bytes) (v : View) {other : Bytes} (ho : other ≠ name) :
    (v.load dataDir name).2.indexOf other = v.indexOf other ∧
      (other ∈ (v.load dataDir name).2.names ↔ other ∈ v.names) := by
  have hnames : other ∈ (v.create name).names ↔ other ∈ v.names := by
    simp only [View.create]
    split
    · rfl
    · simp [ho]
  simp only [View.load]
  split
  · exact ⟨rfl, hnames⟩
  · split
    · exact ⟨by rw [View.indexOf_set_ne _ ho, View.indexOf_create], hnames⟩
    · exact ⟨by rw [View.indexOf_set_ne _ ho, View.indexOf_create], hnames⟩

/-- On a table whose lines all parse, the index can be had. -/
theorem load_succeeds (hf : db.dataFiles schema.storageName = some content) (hne : content ≠ [])
    (hp : Parses (dataLines content)) (dataDir : Bytes) :
    ∃ loaded, (view db).load dataDir schema.storageName = (.ok (), loaded) := by
  cases hl : ((view db).indexOf schema.storageName).loaded with
  | true => exact ⟨_, View.load_loaded hl⟩
  | false =>
    obtain ⟨tree, nextId, hr, _⟩ := rebuild_ok hf hne hp dataDir
    have hr' : rebuild dataDir (view db).files schema.storageName = .ok (tree, nextId) := hr
    refine ⟨((view db).create schema.storageName).set schema.storageName
      (((view db).indexOf schema.storageName).install tree nextId), ?_⟩
    simp [View.load, hl, hr']

/-- The registration of the row that was written goes through. -/
theorem Appended.registers {rowValues : List Bytes} {loaded written : View}
    (ha : Appended statement dirs (view db) schema rowValues content loaded written)
    (hi : IndexAgrees (view db) schema.storageName) (hforced : (view db).forced = false) :
    ∃ after, written.register schema.storageName (loaded.indexOf schema.storageName).nextId
      (rowOffset content) = (.ok (), after) := by
  have hframe : loaded.forced = false := by
    have hload := (load_frame dirs.dataDir schema.storageName (view db)).2
    rwa [ha.loads, hforced] at hload
  have hindexes := (agrees_loaded hi ha).indexes
  have hok := (registerEntry_indexes hindexes (rowOffset content)).1
  refine ⟨(written.create schema.storageName).set schema.storageName
    (registerEntry (loaded.indexOf schema.storageName).nextId (rowOffset content)
      (loaded.indexOf schema.storageName)).2, ?_⟩
  rw [ha.writes]
  simp only [View.register, hframe, Bool.false_eq_true, if_false, hok]

theorem Appended.inserts {rowValues : List Bytes} {loaded written after : View}
    {result : ExecResult}
    (ha : Appended statement dirs (view db) schema rowValues content loaded written)
    (hr : written.register schema.storageName (loaded.indexOf schema.storageName).nextId
      (rowOffset content) = (.ok (), after)) (hok : result.ok = true) :
    Inserts dirs db schema content rowValues result after := by
  obtain rfl := register_ok hr
  have hload {other : Bytes} (ho : other ≠ schema.storageName) :=
    load_others dirs.dataDir schema.storageName (view db) ho
  rw [ha.loads] at hload
  refine ⟨hok, ?_, fun name hn => ?_, fun name hn => ?_⟩
  · rw [View.files_set, View.files_create, ha.writes]
    rfl
  · rw [View.indexOf_set_ne _ hn, View.indexOf_create, ha.writes]
    exact (hload hn).1
  · rw [View.names_set, ha.writes]
    refine Iff.trans ?_ (hload hn).2
    simp only [View.create]
    split
    · rfl
    · simp [hn]

/-- An INSERT that passes both validators gets through to the registration. -/
theorem insert_appends {rowValues : List Bytes} {loaded : View}
    (hs : loadSchema dirs db.dataFiles statement.tableName = .ok schema)
    (hv : validateInsertColumns statement schema = .ok ())
    (hb : buildInsertRow statement schema = .ok rowValues)
    (hl : (view db).load dirs.dataDir schema.storageName = (.ok (), loaded))
    (hf : db.dataFiles schema.storageName = some content)
    (hi : IndexAgrees (view db) schema.storageName) (hforced : (view db).forced = false)
    {result : ExecResult} {after : View} (h : InsertRun statement dirs (view db) result after) :
    Inserts dirs db schema content rowValues result after := by
  have hschema {other : Schema} (ho : loadSchema dirs db.dataFiles statement.tableName = .ok other) :
      other = schema := Except.ok.inj (ho.symm.trans hs)
  cases h with
  | noTable h => cases hs.symm.trans h
  | badColumns ho h =>
    rw [hschema ho, hv] at h
    contradiction
  | noIndex ho h =>
    rw [hschema ho, hl] at h
    cases h
  | badRow ho _ h =>
    rw [hschema ho, hb] at h
    contradiction
  | noFile ho _ h =>
    have hf' : (view db).files schema.storageName = some content := hf
    rw [hschema ho, findAppendPoint_eq hf'] at h
    contradiction
  | unregistered ha hr =>
    obtain rfl := hschema ha.schema_ok
    obtain ⟨after, hok⟩ := Appended.registers ha hi hforced
    cases hok.symm.trans hr
  | registered ha hr =>
    obtain rfl := hschema ha.schema_ok
    obtain rfl := Except.ok.inj (ha.row_ok.symm.trans hb)
    obtain rfl := Option.some.inj (ha.found.symm.trans hf)
    exact Appended.inserts ha hr rfl

/-- Whatever an INSERT does that is not accepted, no lookup notices. -/
theorem insert_refused {result : ExecResult} {after : View}
    (h : InsertOutcome statement dirs (view db) result after)
    (hn : ∀ rowValues, validateInsertColumns statement schema = .ok () →
      buildInsertRow statement schema ≠ .ok rowValues)
    (hs : loadSchema dirs db.dataFiles statement.tableName = .ok schema) :
    result.ok = false ∧ SameAnswers dirs.dataDir after (view db) := by
  have happended {other : Schema} {rowValues : List Bytes} {content : Bytes} {loaded written : View}
      (ha : Appended statement dirs (view db) other rowValues content loaded written) : False := by
    have hother : other = schema := Except.ok.inj (ha.schema_ok.symm.trans hs)
    exact hn rowValues (hother ▸ ha.columns_ok) (hother ▸ ha.row_ok)
  cases h with
  | refused message => exact ⟨rfl, .refl _⟩
  | unwritten message other => exact ⟨rfl, .load _ _⟩
  | unregistered ha _ => exact (happended ha).elim
  | registered ha _ => exact (happended ha).elim

/-- Two INSERTs that come to the same row do the same. -/
theorem run_insert_congr {reordered : InsertStatement}
    (htable : reordered.tableName = statement.tableName)
    (hs : loadSchema dirs db.dataFiles statement.tableName = .ok schema)
    (hv : validateInsertColumns reordered schema = validateInsertColumns statement schema)
    (hb : buildInsertRow reordered schema = buildInsertRow statement schema) :
    (executeInsert reordered dirs).run db = (executeInsert statement dirs).run db := by
  simp only [executeInsert, Program.run_bind, Program.run_read, htable, hs, hv, hb]

/-- Two accepted INSERTs with the same pairs, in whatever order, do the same. -/
theorem run_insert_perm {reordered : InsertStatement}
    (htable : reordered.tableName = statement.tableName)
    (hpaired : reordered.columns.length = reordered.values.length)
    (hperm : (reordered.columns.zip reordered.values).Perm
      (statement.columns.zip statement.values))
    (hs : loadSchema dirs db.dataFiles statement.tableName = .ok schema)
    (hd : schema.columns.Nodup) (h : Insertable statement schema) :
    (executeInsert reordered dirs).run db = (executeInsert statement dirs).run db := by
  obtain ⟨hne, hid⟩ := readSchema_ok (loadSchema_ok hs).1
  have hid' : ascii "id" ∉ schema.columns := findColumn_none.mp hid
  have hfst {s : InsertStatement} (hp : s.columns.length = s.values.length) :
      (s.columns.zip s.values).map Prod.fst = s.columns := List.map_fst_zip hp.le
  have hsnd {s : InsertStatement} (hp : s.columns.length = s.values.length) :
      (s.columns.zip s.values).map Prod.snd = s.values := List.map_snd_zip hp.ge
  have hcolumns : reordered.columns.Perm statement.columns := by
    rw [← hfst hpaired, ← hfst h.paired]
    exact hperm.map _
  have hvalues : reordered.values.Perm statement.values := by
    rw [← hsnd hpaired, ← hsnd h.paired]
    exact hperm.map _
  have h' : Insertable reordered schema := by
    refine ⟨hpaired, fun c hc => h.known c (hcolumns.mem_iff.mp hc), ?_,
      hcolumns.nodup_iff.mpr h.distinct, fun v hv => h.one_line v (hvalues.mem_iff.mp hv)⟩
    exact fun hc => h.not_id (hcolumns.mem_iff.mp hc)
  obtain ⟨hv, rowValues, hb⟩ := (accepted_iff hid').mpr h
  obtain ⟨hv', rowValues', hb'⟩ := (accepted_iff hid').mpr h'
  refine run_insert_congr htable hs (hv'.trans hv.symm) ?_
  have hrow := buildInsertRow_eq hb (buildInsertRow_writable hne hv hb).length_eq
  have hrow' := buildInsertRow_eq hb' (buildInsertRow_writable hne hv' hb').length_eq
  have hgiven := givenValue_perm hperm ((hfst hpaired).symm ▸ h'.distinct)
  rw [hb, hb', hrow, hrow', rowOf_eq hd, rowOf_eq hd, insertedRow, insertedRow, hgiven]

end Accepted

theorem find_of_view {before after : Database} {name : Bytes}
    (hn : name ∈ (view after).names ↔ name ∈ (view before).names)
    (hi : (view after).indexOf name = (view before).indexOf name) :
    findTableIndex after.registry name = findTableIndex before.registry name := by
  by_cases hm : name ∈ names before.registry
  · obtain ⟨entry, he⟩ := find_some hm
    obtain ⟨entry', he'⟩ := find_some (hn.mpr hm)
    have hindex : tableIndexOf after.registry name = tableIndexOf before.registry name := hi
    simp only [tableIndexOf, he, he', Option.getD_some] at hindex
    rw [he, he', hindex]
  · rw [find_none hm, find_none (fun h => hm (hn.mp h))]

theorem separator_last {content : Bytes} (hne : content ≠ []) :
    separatorAfter content = if content.getLast? = some lineFeed then [] else [lineFeed] := by
  rw [separatorAfter, List.getLast?_eq_some_getLast hne]
  simp only [Option.some.injEq]

/-- An INSERT into a table whose lines all parse is accepted exactly when its
columns and values are in order. It then appends one row, whatever the order of
the columns, and touches no other table; otherwise nothing that can be looked up
changes. -/
theorem insert_end_to_end (statement : InsertStatement) (dirs : Directories) (db : Database)
    (schema : Schema) (content : Bytes)
    (hs : loadSchema dirs db.dataFiles statement.tableName = .ok schema)
    (hd : schema.columns.Nodup) (hf : db.dataFiles schema.storageName = some content)
    (hp : ∀ line ∈ dataLines content, ∃ fields, csvParseLine line.2 = .ok fields)
    (hi : IndexAgrees (view db) schema.storageName)
    (hforced : db.forceNextRegisterFailure = false) :
    let run := (executeStatement (.insert statement) dirs).run db
    (run.1.ok = true ↔ Insertable statement schema) ∧
      (run.1.ok = true →
        run.2.dataFiles = Function.update db.dataFiles schema.storageName
          (some (content ++ (if content.getLast? = some lineFeed then [] else [lineFeed]) ++
            encodeRow (insertedRow statement schema))) ∧
        (∀ name ≠ schema.storageName,
          findTableIndex run.2.registry name = findTableIndex db.registry name) ∧
        ∀ reordered : InsertStatement, reordered.tableName = statement.tableName →
          reordered.columns.length = reordered.values.length →
          (reordered.columns.zip reordered.values).Perm (statement.columns.zip statement.values) →
          (executeStatement (.insert reordered) dirs).run db = run) ∧
      (run.1.ok = false → run.2.dataFiles = db.dataFiles ∧ AnswersAlike dirs db run.2) := by
  obtain ⟨hcols, hid⟩ := readSchema_ok (loadSchema_ok hs).1
  have hne : content ≠ [] := by
    obtain ⟨content', hf', hne⟩ := validateCsvHeader_content (loadSchema_ok hs).2
    rwa [Option.some.inj (hf'.symm.trans hf)] at hne
  have haccepted := @accepted_iff statement schema (findColumn_none.mp hid)
  intro run
  by_cases h : Insertable statement schema
  · obtain ⟨hv, rowValues, hb⟩ := haccepted.mpr h
    obtain ⟨loaded, hl⟩ := load_succeeds hf hne hp dirs.dataDir
    have hins : Inserts dirs db schema content rowValues run.1 (view run.2) :=
      insert_appends hs hv hb hl hf hi hforced (executeInsert_run statement dirs db)
    have hrow := buildInsertRow_eq hb (buildInsertRow_writable hcols hv hb).length_eq
    refine ⟨iff_of_true hins.ok h, fun _ => ⟨?_, ?_, ?_⟩, fun hno => ?_⟩
    · rw [← separator_last hne, ← rowOf_eq hd, ← hrow]
      exact hins.files
    · intro name hn
      exact find_of_view (hins.names name hn) (hins.others name hn)
    · intro reordered htable hpaired hperm
      exact run_insert_perm htable hpaired hperm hs hd h
    · rw [hins.ok] at hno
      contradiction
  · have hrefused : run.1.ok = false ∧ SameAnswers dirs.dataDir (view run.2) (view db) :=
      insert_refused (executeInsert_outcome statement dirs db)
        (fun rowValues hv hb => h (haccepted.mp ⟨hv, rowValues, hb⟩)) hs
    refine ⟨iff_of_false (by rw [hrefused.1]; simp) h, fun hok => ?_, fun _ => ?_⟩
    · rw [hrefused.1] at hok
      contradiction
    · exact ⟨hrefused.2.files, hrefused.2.alike⟩

theorem insert_end_to_end_users :
    ((executeStatement (.insert (insertName (ascii "Alice"))) usersDirectories).run
      (startDatabase (usersFiles (ascii "name,age\nBob,21")))).2.dataFiles (ascii "users") =
        some (ascii "name,age\nBob,21\nAlice,\"\"") := by
  have hlines : dataLines (ascii "name,age\nBob,21") = [(9, ascii "Bob,21")] := by decide +kernel
  have h := insert_end_to_end (insertName (ascii "Alice")) usersDirectories
    (startDatabase (usersFiles (ascii "name,age\nBob,21")))
    ⟨ascii "users", ascii "users", [ascii "name", ascii "age"]⟩ (ascii "name,age\nBob,21")
    (by decide +kernel) (by decide +kernel) rfl
    (by
      intro line hl
      rw [hlines, List.mem_singleton] at hl
      exact ⟨[ascii "Bob", ascii "21"], by rw [hl]; decide +kernel⟩)
    (by
      intro hl
      simp [view, startDatabase, tableIndexOf, findTableIndex, TableIndex.fresh] at hl)
    rfl
  have hinsertable : Insertable (insertName (ascii "Alice"))
      ⟨ascii "users", ascii "users", [ascii "name", ascii "age"]⟩ :=
    ⟨rfl, by decide +kernel, by decide +kernel, by decide +kernel, by decide +kernel⟩
  rw [(h.2.1 (h.1.mpr hinsertable)).1]
  decide +kernel

end DbApi.Proofs.InsertStatement
