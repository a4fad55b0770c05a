import DbApi.Proofs.FullScan
import DbApi.Proofs.IndexRebuild

namespace DbApi.Proofs.IndexedSelect
open Library Common Storage Index Sql Execution Lines TableFile IndexRebuild IndexView
open StatementOutcome InsertRow FullScan

/-- The index, if loaded, is the one a rebuild from the file gives. -/
def FreshlyBuilt (dataDir : Bytes) (db : Database) (storageName : Bytes) : Prop :=
  let entry := tableIndexOf db.registry storageName
  entry.loaded = true → rebuild dataDir db.dataFiles storageName = .ok (entry.tree, entry.nextId)

theorem freshlyBuilt_start (dataDir : Bytes) (files : DataFiles) (name : Bytes) :
    FreshlyBuilt dataDir (startDatabase files) name := by
  intro h
  simp [startDatabase, tableIndexOf, findTableIndex, TableIndex.fresh] at h

/-- Seeking to the i-th data line reads the i-th row again. -/
theorem read_at_offset {schema : Schema} {files : DataFiles} {content : Bytes}
    {rows : List (List Bytes)} (hf : files schema.storageName = some content)
    (h : (dataLines content).mapM (readRow schema) = .ok rows) {i offset : Nat}
    (ho : (dataOffsets content)[i]? = some offset) (dataDir : Bytes) :
    ∃ fields, rows[i]? = some fields ∧ fields.length = schema.columns.length ∧
      readRowAtOffsetCsv dataDir files schema.storageName offset = .ok fields := by
  rw [dataOffsets, List.getElem?_map, Option.map_eq_some_iff] at ho
  obtain ⟨⟨start, text⟩, hl, rfl⟩ := ho
  have hrow := mapM_getElem? h i
  rw [hl, Option.map_some] at hrow
  obtain ⟨fields, hfields⟩ : ∃ fields, rows[i]? = some fields := by
    cases hr : rows[i]? with
    | none => simp [hr] at hrow
    | some fields => exact ⟨fields, rfl⟩
  rw [hfields, Option.map_some, Option.some.injEq] at hrow
  obtain ⟨hp, hlen⟩ := readRow_ok hrow
  refine ⟨fields, hfields, hlen, ?_⟩
  obtain ⟨line, hseek, hne, hstrip, htext⟩ := seek_dataLine (List.mem_of_getElem? hl)
  simp only [readRowAtOffsetCsv, openTableFile, hf, hseek]
  cases line with
  | nil => contradiction
  | cons b line => simpa [hstrip, htext] using hp

/-- A query on a freshly built index answers with the offsets of the file. -/
theorem query_fresh {dataDir : Bytes} {db : Database} {name content : Bytes}
    (hf : db.dataFiles name = some content) (hne : content ≠ []) (hp : Parses (dataLines content))
    (hfresh : FreshlyBuilt dataDir db name) (id : Int) :
    ∃ after, (view db).query dataDir name (fun entry => bptreeSearch entry.tree id) =
      (.ok (offsetOf (dataOffsets content) id), after) ∧ after.files = db.dataFiles := by
  obtain ⟨tree, nextId, hr, hi⟩ := rebuild_ok hf hne hp dataDir
  have hframe := (load_frame dataDir name (view db)).1
  rw [View.query]
  cases hl : ((view db).indexOf name).loaded with
  | true =>
    have hentry := hfresh hl
    rw [hr, Except.ok.injEq, Prod.mk.injEq] at hentry
    rw [View.load_loaded hl]
    refine ⟨(view db).create name, ?_, rfl⟩
    change (Except.ok (bptreeSearch (tableIndexOf db.registry name).tree id), _) = _
    rw [← hentry.1, hi.represents.agrees]
  | false =>
    have hload : (view db).load dataDir name =
        (.ok (), ((view db).create name).set name (((view db).indexOf name).install tree nextId)) := by
      have hr' : rebuild dataDir (view db).files name = .ok (tree, nextId) := hr
      simp [View.load, hl, hr']
    rw [hload] at hframe ⊢
    refine ⟨_, ?_, hframe⟩
    simp only [View.indexOf_set, TableIndex.install, hi.represents.agrees]

/-- What the indexed path answers, row by row. -/
theorem run_indexSelect {dirs : Directories} {db : Database} {statement : SelectStatement}
    {schema : Schema} {content text : Bytes} {rows : List (List Bytes)}
    {selected : List (Bytes × Option Nat)} {id : Int}
    (h : Readable dirs db.dataFiles statement.tableName schema content rows)
    (hb : buildSelectIndexes statement schema = .ok selected) (hs : selected ≠ [])
    (hid : parseIntStrict text = some id)
    (hfresh : FreshlyBuilt dirs.dataDir db schema.storageName) :
    ((executeStatement (.select { statement with
      whereClause := some { column := ascii "id", value := text } }) dirs).run db).1 =
      selectResult selected
        (if 1 ≤ id then ((numberRows selected 1 rows)[(id - 1).toNat]?).toList else []) := by
  obtain ⟨after, hquery, hfiles⟩ := query_fresh h.found h.header (parses_of_rows h.rows_ok) hfresh id
  obtain ⟨hres, hview⟩ := computes_readEntry schema dirs.dataDir
    (fun entry => bptreeSearch entry.tree id) db
  rw [hquery] at hres hview
  have hdata : ((readEntry schema dirs.dataDir fun entry =>
      bptreeSearch entry.tree id).run db).2.dataFiles = db.dataFiles :=
    (congrArg View.files hview).trans hfiles
  have hcol : buildSelectIndexes { statement with
      whereClause := some { column := ascii "id", value := text } } schema = .ok selected := hb
  simp only [executeStatement, executeSelect, Program.run_bind, Program.run_read, h.schema_ok, hcol,
    hs, ↓reduceIte, resolveWhereIndex, Option.filter, beq_self_eq_true, executeIndexSelect, hid,
    tableIndexFindRow, hres]
  by_cases hpos : 1 ≤ id
  · rw [if_pos hpos, numberRows_getElem?]
    have hoff : offsetOf (dataOffsets content) id = (dataOffsets content)[(id - 1).toNat]? :=
      if_pos hpos
    rw [hoff]
    cases ho : (dataOffsets content)[(id - 1).toNat]? with
    | none =>
      have hrow : rows[(id - 1).toNat]? = none := by
        have hrow := mapM_getElem? h.rows_ok (id - 1).toNat
        rw [dataOffsets, List.getElem?_map, Option.map_eq_none_iff] at ho
        rw [ho, Option.map_none] at hrow
        exact Option.map_eq_none_iff.mp hrow.symm
      rw [hrow]
      rfl
    | some offset =>
      obtain ⟨fields, hfields, hlen, hread⟩ := read_at_offset h.found h.rows_ok ho dirs.dataDir
      have hnumber : (1 : Int) + ((id - 1).toNat : Int) = id := by omega
      rw [hfields, Option.map_some, hnumber]
      simp only [Program.run_bind, Program.run_read, hdata, hread, hlen, ne_eq,
        not_true_eq_false, ↓reduceIte, Program.run_pure, Option.toList_some]
  · have hoff : offsetOf (dataOffsets content) id = none := if_neg hpos
    rw [hoff, if_neg hpos]
    rfl

/-- The cell of a selected `id` column is the id of the row. -/
theorem selectColumns_id {schema : Schema} {columns : List Bytes}
    {selected : List (Bytes × Option Nat)} (h : selectColumns schema columns = .ok selected)
    (fields : List Bytes) (id : Int) {i : Nat} (hi : columns[i]? = some (ascii "id")) :
    (selectRow selected fields id)[i]? = some (decimal id) := by
  induction columns generalizing selected i with
  | nil => simp at hi
  | cons column columns ih =>
    simp only [selectColumns] at h
    have hrest : ∀ {c : Bytes × Option Nat} {r : Except Bytes (List (Bytes × Option Nat))},
        r.map (c :: ·) = .ok selected → ∃ rest, r = .ok rest ∧ selected = c :: rest := by
      intro c r hr
      cases r with
      | error message => simp [Except.map] at hr
      | ok rest => exact ⟨rest, rfl, (Except.ok.inj hr).symm⟩
    cases i with
    | zero =>
      simp only [List.getElem?_cons_zero, Option.some.injEq] at hi
      rw [if_pos hi] at h
      obtain ⟨rest, _, rfl⟩ := hrest h
      simp [selectRow]
    | succ i =>
      simp only [List.getElem?_cons_succ] at hi
      split at h
      · obtain ⟨rest, hr, rfl⟩ := hrest h
        simpa [selectRow] using ih hr hi
      · split at h
        · contradiction
        · obtain ⟨rest, hr, rfl⟩ := hrest h
          simpa [selectRow] using ih hr hi

/-- Where the full scan answers with rows, the indexed path answers with the
k-th of them, and with no row when there is none. -/
theorem indexed_agrees (dirs : Directories) (db : Database) (statement : SelectStatement)
    (text : Bytes) (k : Int) (hw : statement.whereClause = none)
    (hk : parseIntStrict text = some k)
    (hfull : ((executeStatement (.select statement) dirs).run db).1.ok = true)
    (hfresh : ∀ schema, loadSchema dirs db.dataFiles statement.tableName = .ok schema →
      FreshlyBuilt dirs.dataDir db schema.storageName) :
    let indexed := ((executeStatement (.select { statement with
      whereClause := some { column := ascii "id", value := text } }) dirs).run db).1
    ∃ table row, ((executeStatement (.select statement) dirs).run db).1.table = some table ∧
      row = (if 1 ≤ k then table.rows[(k - 1).toNat]? else none) ∧
      indexed.ok = true ∧ indexed.affectedRows = row.toList.length ∧
      indexed.table = some { headers := table.headers, rows := row.toList } ∧
      ∀ cells ∈ row, ∀ i : Nat, statement.selectAll = false →
        statement.columns[i]? = some (ascii "id") → cells[i]? = some (decimal k) := by
  rw [run_fullSelect hw] at hfull ⊢
  obtain ⟨schema, content, rows, selected, h, hb, hs⟩ := readable_of_ok hw hfull
  have hindexed := run_indexSelect h hb hs hk (hfresh schema h.schema_ok)
  refine ⟨⟨selected.map Prod.fst, numberRows selected 1 rows⟩,
    if 1 ≤ k then (numberRows selected 1 rows)[(k - 1).toNat]? else none, ?_, rfl, ?_, ?_, ?_, ?_⟩
  · rw [h.fullSelect hw hb hs]
    rfl
  · rw [hindexed]
    rfl
  · rw [hindexed]
    split <;> rfl
  · rw [hindexed]
    split <;> rfl
  · intro cells hc i hall hi
    split at hc
    · rw [numberRows_getElem?, Option.mem_def, Option.map_eq_some_iff] at hc
      obtain ⟨fields, _, rfl⟩ := hc
      rw [buildSelectIndexes, hall, if_neg Bool.false_ne_true] at hb
      have hnumber : (1 : Int) + ((k - 1).toNat : Int) = k := by omega
      rw [hnumber]
      exact selectColumns_id hb fields k hi
    · contradiction

theorem indexed_agrees_users :
    ∃ table row,
      ((executeStatement (.select ⟨ascii "users", [ascii "id", ascii "name"], false, none⟩)
        usersDirectories).run
          (startDatabase (usersFiles (ascii "name,age\r\n\nBob,21\nEve,7")))).1.table = some table ∧
      row = table.rows[1]? :=
  let h := indexed_agrees usersDirectories
    (startDatabase (usersFiles (ascii "name,age\r\n\nBob,21\nEve,7")))
    ⟨ascii "users", [ascii "id", ascii "name"], false, none⟩ (ascii "2") 2 rfl
    (by decide +kernel) (by decide +kernel) (fun _ _ => freshlyBuilt_start _ _ _)
  let ⟨table, row, htable, hrow, _⟩ := h
  ⟨table, row, htable, hrow⟩

end DbApi.Proofs.IndexedSelect
