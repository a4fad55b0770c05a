import DbApi.Execution.SelectArrays
import DbApi.Library.Except
import DbApi.Proofs.ReadableRow
import DbApi.Sql.Parser

namespace DbApi.Proofs.SelectBounds
open Library Common Storage Index Sql Execution SelectArrays
open FullScan (startDatabase usersFiles usersDirectories)
open ReadableRow (usersStart usersSchema)

def known (schema : Schema) (column : Bytes) : Bool :=
  column == ascii "id" || (schemaFindColumn schema column).isSome

/-- The columns listed before the first unknown one are no more than the columns
of the schema. -/
def FitsSchema (statement : SelectStatement) (schema : Schema) : Prop :=
  statement.selectAll = true ∨
    (statement.columns.takeWhile (known schema)).length ≤ schema.columns.length

/-- What stands in `selected_indexes` for a selected column. -/
def slotOf : Option Nat → Int
  | none => internalIdSelectIndex
  | some index => index

/-- The arrays hold the selected columns, and the slots behind them are clear. -/
structure Holds (selected : List (Bytes × Option Nat)) (size : Nat) (s : SelectIndexes) :
    Prop where
  headers : s.headers = selected.map Prod.fst
  indexes : s.indexes =
    selected.map (fun column => slotOf column.2) ++ List.replicate (size - selected.length) 0
  room : selected.length ≤ size

section Filling

variable {selected : List (Bytes × Option Nat)} {size : Nat} {s : SelectIndexes}
variable {schema : Schema}

theorem Holds.length (h : Holds selected size s) : s.indexes.length = size := by
  have hroom := h.room
  rw [h.indexes, List.length_append, List.length_map, List.length_replicate]
  omega

theorem put_ok (h : Holds selected size s) (hlt : selected.length < size) (header : Bytes)
    (column : Option Nat) :
    ∃ s', s.put selected.length header (slotOf column) = .ok s' ∧
      Holds (selected ++ [(header, column)]) size s' := by
  have hfree : List.replicate (size - selected.length) (0 : Int) =
      0 :: List.replicate (size - (selected.length + 1)) 0 := by
    rw [← List.replicate_succ]
    congr 1
    omega
  have hstore := store_next (selected.map fun column => slotOf column.2)
    (List.replicate (size - (selected.length + 1)) 0) 0 (slotOf column)
  rw [← hfree, ← h.indexes, List.length_map] at hstore
  rw [SelectIndexes.put, hstore]
  refine ⟨_, rfl, ?_, ?_, ?_⟩
  · simp [h.headers]
  · simp
  · simp only [List.length_append, List.length_cons, List.length_nil]
    omega

theorem put_overrun (h : Holds selected size s) (hfull : selected.length = size) (header : Bytes)
    (value : Int) :
    s.put selected.length header value = .error (.outOfBounds { index := size, size }) := by
  rw [SelectIndexes.put, store_error (by rw [h.length, hfull]), h.length, hfull]
  rfl

theorem selectAllLoop_ok (columns : List Bytes) (h : Holds selected size s)
    (hroom : selected.length + columns.length ≤ size) :
    ∃ s', selectAllLoop columns selected.length s = .ok s' ∧
      Holds (selected ++ columns.mapIdx fun index column =>
        (column, some (selected.length + index))) size s' := by
  induction columns generalizing selected s with
  | nil => exact ⟨s, rfl, by simpa using h⟩
  | cons column columns ih =>
    simp only [List.length_cons] at hroom
    obtain ⟨s', hput, h'⟩ := put_ok h (by omega) column (some selected.length)
    obtain ⟨s'', hrest, h''⟩ := ih h' (by simp; omega)
    refine ⟨s'', ?_, ?_⟩
    · have hslot : slotOf (some selected.length) = (selected.length : Int) := rfl
      rw [List.length_append] at hrest
      rw [selectAllLoop, ← hslot, hput]
      exact hrest
    · rw [List.append_assoc] at h''
      rw [List.mapIdx_cons]
      simpa [Nat.add_assoc, Nat.add_comm 1] using h''

/-- With room for them the columns are stored as the list of `selectColumns`. -/
theorem selectColumnsLoop_follows (columns : List Bytes) (h : Holds selected size s)
    (hroom : selected.length + (columns.takeWhile (known schema)).length ≤ size) :
    Follows SelectFailure.message
      (fun s' list => Holds (selected ++ list) size s' ∧ list.length = columns.length)
      (selectColumnsLoop schema columns selected.length s) (selectColumns schema columns) := by
  induction columns generalizing selected s with
  | nil => exact .ok ⟨by simpa using h, rfl⟩
  | cons column columns ih =>
    have hnext : ∀ target : Option Nat, known schema column = true →
        Follows SelectFailure.message
          (fun s' list => Holds (selected ++ list) size s' ∧ list.length = (column :: columns).length)
          (s.put selected.length column (slotOf target) >>= fun s =>
            selectColumnsLoop schema columns (selected.length + 1) s)
          ((selectColumns schema columns).map ((column, target) :: ·)) := by
      intro target hknown
      rw [List.takeWhile_cons, if_pos hknown, List.length_cons] at hroom
      obtain ⟨s', hput, h'⟩ := put_ok h (by omega) column target
      have hrest := ih h' (by simp only [List.length_append, List.length_cons, List.length_nil]; omega)
      rw [List.length_append] at hrest
      rw [hput]
      apply hrest.map_right
      rintro s'' list ⟨hlist, hlength⟩
      exact ⟨by simpa using hlist, by simp [hlength]⟩
    rw [selectColumnsLoop, selectColumns]
    by_cases hid : column = ascii "id"
    · rw [if_pos hid, if_pos hid]
      exact hnext none (by simp [known, hid])
    · rw [if_neg hid, if_neg hid]
      cases hfind : schemaFindColumn schema column with
      | none => exact .error _
      | some index => exact hnext (some index) (by simp [known, hfind])

/-- Without room the store behind the last slot is reached. -/
theorem selectColumnsLoop_overrun (columns : List Bytes) (h : Holds selected size s)
    (hroom : size < selected.length + (columns.takeWhile (known schema)).length) :
    selectColumnsLoop schema columns selected.length s =
      .error (.outOfBounds { index := size, size }) := by
  induction columns generalizing selected s with
  | nil =>
    have := h.room
    simp only [List.takeWhile_nil, List.length_nil] at hroom
    omega
  | cons column columns ih =>
    have hnext : ∀ target : Option Nat, known schema column = true →
        (s.put selected.length column (slotOf target) >>= fun s =>
          selectColumnsLoop schema columns (selected.length + 1) s) =
            .error (.outOfBounds { index := size, size }) := by
      intro target hknown
      rw [List.takeWhile_cons, if_pos hknown, List.length_cons] at hroom
      rcases h.room.lt_or_eq with hlt | hfull
      · obtain ⟨s', hput, h'⟩ := put_ok h hlt column target
        have hrest := ih h' (by simp only [List.length_append, List.length_cons, List.length_nil]; omega)
        rw [List.length_append] at hrest
        rw [hput]
        exact hrest
      · rw [put_overrun h hfull]
        rfl
    rw [selectColumnsLoop]
    by_cases hid : column = ascii "id"
    · rw [if_pos hid]
      exact hnext none (by simp [known, hid])
    · rw [if_neg hid]
      cases hfind : schemaFindColumn schema column with
      | none =>
        have := h.room
        simp only [List.takeWhile_cons, known, hfind, beq_iff_eq, hid, Option.isSome_none,
          Bool.or_false, ↓reduceIte, List.length_nil] at hroom
        omega
      | some index => exact hnext (some index) (by simp [known, hfind])

end Filling

section Reading

variable {selected : List (Bytes × Option Nat)} {size : Nat} {s : SelectIndexes}
variable {statement : SelectStatement} {schema : Schema} {fields : List Bytes}

/-- The indexes of the selected columns are indexes of fields. -/
def Within (selected : List (Bytes × Option Nat)) (count : Nat) : Prop :=
  ∀ column ∈ selected, ∀ index ∈ column.2, index < count

theorem selectedValue_ok {column : Bytes × Option Nat}
    (h : ∀ index ∈ column.2, index < fields.length) (internalId : Int) :
    ∃ value, selectedValue fields internalId (slotOf column.2) = .ok value ∧
      ∀ back, selectRow (column :: back) fields internalId =
        value :: selectRow back fields internalId := by
  obtain ⟨header, target⟩ := column
  cases target with
  | none => exact ⟨decimal internalId, rfl, fun _ => rfl⟩
  | some index =>
    have hlt : index < fields.length := h index rfl
    have hfield : fields[index]? = some fields[index] := List.getElem?_eq_getElem hlt
    have hne : slotOf (some index) ≠ internalIdSelectIndex := by
      simp only [slotOf, internalIdSelectIndex]
      omega
    refine ⟨fields[index], ?_, fun back => ?_⟩
    · rw [selectedValue, if_neg hne, slotOf, fetch_ok hfield]
      rfl
    · simp [selectRow, hfield]

theorem push_ok (front back : List (Bytes × Option Nat)) (h : Holds (front ++ back) size s)
    (hback : Within back fields.length) (internalId : Int) :
    selectRowBufferPush s.indexes fields internalId back.length front.length =
      .ok (selectRow back fields internalId) := by
  induction back generalizing front with
  | nil => rfl
  | cons column back ih =>
    have hslot : s.indexes[front.length]? = some (slotOf column.2) := by
      rw [h.indexes]
      simp
    obtain ⟨value, hvalue, hrow⟩ := selectedValue_ok (hback column (by simp)) internalId
    have hrest := ih (front ++ [column]) (by simpa using h)
      fun c hc => hback c (List.mem_cons_of_mem _ hc)
    rw [List.length_append] at hrest
    rw [List.length_cons, selectRowBufferPush, fetch_ok hslot, hrow]
    exact except_bind_ok.mpr ⟨_, rfl, except_bind_ok.mpr ⟨_, hvalue,
      except_bind_ok.mpr ⟨_, hrest, rfl⟩⟩⟩

theorem whereIndex_follows :
    Follows SelectFailure.message
      (fun slot index => slot = slotOf index ∧
        (∀ n ∈ index, n < schema.columns.length) ∧
        (index = none → ∀ condition ∈ statement.whereClause, condition.column = ascii "id"))
      (SelectArrays.resolveWhereIndex statement schema)
      (Execution.resolveWhereIndex statement schema) := by
  unfold SelectArrays.resolveWhereIndex Execution.resolveWhereIndex
  cases statement.whereClause with
  | none => exact .ok ⟨rfl, by simp, by simp⟩
  | some condition =>
    dsimp only
    by_cases hid : condition.column = ascii "id"
    · rw [if_pos hid, if_pos hid]
      exact .ok ⟨rfl, by simp, by simpa using hid⟩
    · rw [if_neg hid, if_neg hid]
      cases hfind : schemaFindColumn schema condition.column with
      | none => exact .error _
      | some index =>
        have hlt := (List.findIdx?_eq_some_iff_findIdx_eq.mp hfind).1
        exact .ok ⟨rfl, by simpa using hlt, by simp⟩

theorem rowMatches_ok {whereIndex : Option Nat} (hw : ∀ n ∈ whereIndex, n < fields.length)
    (hn : whereIndex = none → statement.whereClause = none) :
    SelectArrays.rowMatchesWhere statement fields (slotOf whereIndex) =
      .ok (Execution.rowMatchesWhere statement fields whereIndex) := by
  unfold SelectArrays.rowMatchesWhere Execution.rowMatchesWhere
  cases hc : statement.whereClause with
  | none => rfl
  | some condition =>
    cases whereIndex with
    | none => exact absurd (hn rfl) (by simp [hc])
    | some index =>
      have hlt : index < fields.length := hw index rfl
      have hfield : fields[index]? = some fields[index] := List.getElem?_eq_getElem hlt
      dsimp only
      rw [slotOf, fetch_ok hfield, Option.bind_some, hfield]
      simp [Except.mapError, Except.map]

theorem selectRows_follows {selected : List (Bytes × Option Nat)} {s : SelectIndexes}
    (h : Holds selected schema.columns.length s) (hs : Within selected schema.columns.length)
    {whereIndex : Option Nat} (hw : ∀ n ∈ whereIndex, n < schema.columns.length)
    (hn : whereIndex = none → statement.whereClause = none) (lines : List (Nat × Bytes))
    (currentInternalId : Int) (rows : List (List Bytes)) :
    Follows SelectFailure.message Eq
      (SelectArrays.selectRows statement schema s selected.length (slotOf whereIndex) lines
        currentInternalId rows)
      (Execution.selectRows statement schema selected whereIndex lines currentInternalId rows) := by
  induction lines generalizing currentInternalId rows with
  | nil => exact .ok rfl
  | cons entry lines ih =>
    obtain ⟨_, line⟩ := entry
    rw [SelectArrays.selectRows, Execution.selectRows]
    split
    · exact ih currentInternalId rows
    · cases csvParseLine (stripLineEndings line) with
      | error message => exact .error message
      | ok fields =>
        dsimp only
        by_cases hcount : fields.length = schema.columns.length
        · rw [if_neg (not_not.mpr hcount), if_neg (not_not.mpr hcount)]
          rw [rowMatches_ok (fun n hm => hcount ▸ hw n hm) hn]
          have hrow := push_ok [] selected h (hcount ▸ hs) currentInternalId
          cases Execution.rowMatchesWhere statement fields whereIndex with
          | true =>
            change Follows _ _ (SelectArrays.selectRowBufferPush _ _ _ selected.length 0 >>= _) _
            rw [List.length_nil] at hrow
            rw [hrow]
            exact ih _ _
          | false => exact ih _ _
        · rw [if_pos hcount, if_pos hcount]
          exact .error _

end Reading

section Execution

variable {statement : SelectStatement} {schema : Schema}

theorem selectColumns_within (columns : List Bytes) {list : List (Bytes × Option Nat)}
    (h : selectColumns schema columns = .ok list) : Within list schema.columns.length := by
  induction columns generalizing list with
  | nil =>
    cases h
    intro _ hc
    exact absurd hc List.not_mem_nil
  | cons column columns ih =>
    have hnext : ∀ target : Option Nat, (∀ index ∈ target, index < schema.columns.length) →
        (selectColumns schema columns).map ((column, target) :: ·) = .ok list →
        Within list schema.columns.length := by
      intro target ht h
      obtain ⟨rest, hrest, rfl⟩ := except_map_ok.mp h
      intro c hc
      rcases List.mem_cons.mp hc with rfl | hc
      · exact ht
      · exact ih hrest c hc
    rw [selectColumns] at h
    split at h
    · exact hnext none (by simp) h
    · cases hfind : schemaFindColumn schema column with
      | none =>
        rw [hfind] at h
        cases h
      | some index =>
        rw [hfind] at h
        have hlt := (List.findIdx?_eq_some_iff_findIdx_eq.mp hfind).1
        exact hnext (some index) (by simpa using hlt) h

theorem holds_empty (size : Nat) :
    Holds [] size { headers := [], indexes := List.replicate size 0 } :=
  ⟨rfl, rfl, Nat.zero_le size⟩

theorem build_follows (hf : FitsSchema statement schema) :
    Follows SelectFailure.message
      (fun a selected => Holds selected schema.columns.length a.1 ∧ a.2 = selected.length ∧
        Within selected schema.columns.length)
      (SelectArrays.buildSelectIndexes statement schema
        { headers := [], indexes := List.replicate schema.columns.length 0 })
      (Execution.buildSelectIndexes statement schema) := by
  have hempty := holds_empty schema.columns.length
  unfold SelectArrays.buildSelectIndexes Execution.buildSelectIndexes
  by_cases hall : statement.selectAll = true
  · rw [if_pos hall, if_pos hall]
    obtain ⟨s, hloop, hs⟩ := selectAllLoop_ok schema.columns hempty (by simp)
    rw [List.length_nil] at hloop
    rw [hloop]
    refine .ok ⟨by simpa using hs, by simp, ?_⟩
    intro column hc index hi
    obtain ⟨n, hn, rfl⟩ := List.mem_mapIdx.mp hc
    cases hi
    exact hn
  · rw [if_neg hall, if_neg hall]
    have hroom := hf.resolve_left hall
    have hloop := @selectColumnsLoop_follows _ _ _ schema statement.columns hempty
      (by simpa using hroom)
    rw [List.length_nil] at hloop
    have hwithin := @selectColumns_within schema statement.columns
    generalize selectColumnsLoop schema statement.columns 0 _ = checked at hloop ⊢
    generalize selectColumns schema statement.columns = plain at hloop hwithin ⊢
    cases hloop with
    | error message => exact .error message
    | ok hab => exact .ok ⟨hab.1, hab.2.symm, hwithin rfl⟩

/-- The end of an execution on arrays as the result of the same execution on
lists. -/
inductive Settles : Except SelectFailure ExecResult → ExecResult → Prop where
  | ok (result : ExecResult) : Settles (.ok result) result
  | message (text : Bytes) : Settles (.error (.message text)) (execError text)

variable {dirs : Directories} {dataDir : Bytes}

theorem scan_settles {selected : List (Bytes × Option Nat)} {s : SelectIndexes}
    (h : Holds selected schema.columns.length s) (hs : Within selected schema.columns.length)
    {whereIndex : Option Nat} (hw : ∀ n ∈ whereIndex, n < schema.columns.length)
    (hn : whereIndex = none → statement.whereClause = none) (files : DataFiles) :
    Settles
      (SelectArrays.scanSelect statement schema dataDir files s selected.length (slotOf whereIndex))
      (Execution.scanSelect statement schema dataDir files selected whereIndex) := by
  unfold SelectArrays.scanSelect Execution.scanSelect
  cases files schema.storageName with
  | none => exact .message _
  | some content =>
    dsimp only
    cases Lines.fgetsAll lineRoom 0 content with
    | nil => exact .message _
    | cons _ lines =>
      dsimp only
      have hrows := selectRows_follows h hs hw hn lines 1 []
      generalize SelectArrays.selectRows statement schema s _ _ lines 1 [] = checked at hrows ⊢
      generalize Execution.selectRows statement schema selected _ lines 1 [] = plain at hrows ⊢
      cases hrows with
      | error message => exact .message message
      | @ok rows _ hab =>
        subst hab
        change Settles (.ok (SelectArrays.selectResult s.headers rows)) _
        rw [h.headers]
        exact .ok (Execution.selectResult selected rows)

theorem index_settles {selected : List (Bytes × Option Nat)} {s : SelectIndexes}
    (h : Holds selected schema.columns.length s) (hs : Within selected schema.columns.length)
    (whereValue : Bytes) (db : Database) :
    Settles
      ((SelectArrays.executeIndexSelect whereValue schema dataDir s selected.length).run db).1
      ((Execution.executeIndexSelect whereValue schema dataDir selected).run db).1 := by
  unfold SelectArrays.executeIndexSelect Execution.executeIndexSelect
  cases parseIntStrict whereValue with
  | none => exact .message _
  | some whereId =>
    simp only [Program.run_bind]
    generalize (tableIndexFindRow schema dataDir whereId).run db = found
    obtain ⟨found | found, db⟩ := found
    · exact .message _
    · cases found with
      | none =>
        change Settles (.ok (SelectArrays.selectResult s.headers [])) _
        rw [h.headers]
        exact .ok (Execution.selectResult selected [])
      | some rowOffset =>
        simp only [Program.run_bind, Program.run_read]
        cases readRowAtOffsetCsv dataDir db.dataFiles schema.storageName rowOffset with
        | error message => exact .message _
        | ok fields =>
          dsimp only
          by_cases hcount : fields.length = schema.columns.length
          · rw [if_neg (not_not.mpr hcount), if_neg (not_not.mpr hcount)]
            have hrow := push_ok [] selected h (hcount ▸ hs) whereId
            rw [List.length_nil] at hrow
            rw [hrow]
            change Settles (.ok (SelectArrays.selectResult s.headers _)) _
            rw [h.headers]
            exact .ok (Execution.selectResult selected [selectRow selected fields whereId])
          · rw [if_pos hcount, if_pos hcount]
            exact .message _

/-- A SELECT that fits reaches no slot outside its arrays, and its result is that of
the execution on lists. -/
theorem select_settles {db : Database}
    (h : loadSchema dirs db.dataFiles statement.tableName = .ok schema)
    (hf : FitsSchema statement schema) :
    Settles ((SelectArrays.executeSelect statement dirs).run db).1
      ((Execution.executeSelect statement dirs).run db).1 := by
  unfold SelectArrays.executeSelect Execution.executeSelect
  simp only [Program.run_bind, Program.run_read, h]
  have hbuild := build_follows hf
  generalize SelectArrays.buildSelectIndexes statement schema _ = checked at hbuild ⊢
  generalize Execution.buildSelectIndexes statement schema = plain at hbuild ⊢
  cases hbuild with
  | error message => exact .message message
  | @ok a selected hab =>
    obtain ⟨s, count⟩ := a
    obtain ⟨hs, rfl, hwithin⟩ := hab
    dsimp only at hs ⊢
    cases selected with
    | nil => exact .message []
    | cons column selected =>
      rw [if_neg (by simp), if_neg (by simp)]
      have hwhere := @whereIndex_follows statement schema
      generalize SelectArrays.resolveWhereIndex statement schema = slot at hwhere ⊢
      generalize Execution.resolveWhereIndex statement schema = index at hwhere ⊢
      cases hwhere with
      | error message => exact .message message
      | @ok slot whereIndex hab =>
        obtain ⟨rfl, hw, hid⟩ := hab
        dsimp only
        cases hfilter : statement.whereClause.filter (·.column == ascii "id") with
        | some condition => exact index_settles hs hwithin condition.value db
        | none =>
          refine scan_settles hs hwithin hw (fun hnone => ?_) db.dataFiles
          rw [Option.filter_eq_none_iff] at hfilter
          cases hc : statement.whereClause with
          | none => rfl
          | some condition =>
            exact absurd (hid hnone condition hc) (by simpa [hc] using hfilter)

theorem select_overrun {db : Database}
    (h : loadSchema dirs db.dataFiles statement.tableName = .ok schema)
    (hf : ¬ FitsSchema statement schema) :
    ((SelectArrays.executeSelect statement dirs).run db).1 =
      .error (.outOfBounds
        { index := schema.columns.length, size := schema.columns.length }) := by
  obtain ⟨hall, hroom⟩ := not_or.mp hf
  have hloop := @selectColumnsLoop_overrun _ _ _ schema statement.columns
    (holds_empty schema.columns.length) (by simpa using hroom)
  rw [List.length_nil] at hloop
  unfold SelectArrays.executeSelect
  simp only [Program.run_bind, Program.run_read, h, SelectArrays.buildSelectIndexes, if_neg hall,
    hloop]
  rfl

/-- No store and no read of a SELECT is outside its array exactly when the listed
columns fit the schema. -/
theorem select_in_bounds_iff {db : Database}
    (h : loadSchema dirs db.dataFiles statement.tableName = .ok schema) :
    (∀ fault, ((SelectArrays.executeSelect statement dirs).run db).1 ≠
      .error (.outOfBounds fault)) ↔ FitsSchema statement schema := by
  constructor
  · intro hbounds
    by_contra hf
    exact hbounds _ (select_overrun h hf)
  · intro hf fault heq
    have hsettles := select_settles h hf
    rw [heq] at hsettles
    cases hsettles

def selectNames (columns : List Bytes) : SelectStatement :=
  { tableName := ascii "users", columns, selectAll := false, whereClause := none }

/-- Two columns and an unknown one fit a schema of two columns. -/
theorem select_in_bounds_iff_unknown :
    loadSchema usersDirectories usersStart.dataFiles (ascii "users") = .ok usersSchema ∧
      ∀ fault, ((SelectArrays.executeSelect (selectNames [ascii "id", ascii "id", ascii "none"])
        usersDirectories).run usersStart).1 ≠ .error (.outOfBounds fault) := by
  have hschema : loadSchema usersDirectories usersStart.dataFiles (ascii "users") =
      .ok usersSchema := by decide +kernel
  exact ⟨hschema, (select_in_bounds_iff hschema).mpr (.inr (by decide))⟩

/-- Three names of a schema of two columns are accepted and stored. -/
theorem third_name_overruns : ¬ ∀ (sql : Bytes) (tokens : List Token) (statement : SelectStatement)
    (dirs : Directories) (db : Database) (schema : Schema), lexSql sql = .ok tokens →
    parseStatement tokens = .ok (.select statement) →
    loadSchema dirs db.dataFiles statement.tableName = .ok schema →
    ∀ fault, ((SelectArrays.executeSelect statement dirs).run db).1 ≠
      .error (.outOfBounds fault) := by
  intro h
  have hlex : lexSql (ascii "SELECT id,id,name FROM users;") = .ok
      [{ type := .identifier, text := ascii "SELECT", position := 0 },
        { type := .identifier, text := ascii "id", position := 7 },
        { type := .comma, text := ascii ",", position := 9 },
        { type := .identifier, text := ascii "id", position := 10 },
        { type := .comma, text := ascii ",", position := 12 },
        { type := .identifier, text := ascii "name", position := 13 },
        { type := .identifier, text := ascii "FROM", position := 18 },
        { type := .identifier, text := ascii "users", position := 23 },
        { type := .semicolon, text := ascii ";", position := 28 },
        { type := .end, text := [], position := 29 }] := by decide +kernel
  have hschema : loadSchema usersDirectories usersStart.dataFiles (ascii "users") =
      .ok usersSchema := by decide +kernel
  have hfits : ¬ FitsSchema (selectNames [ascii "id", ascii "id", ascii "name"]) usersSchema := by
    rintro (hall | hroom)
    · cases hall
    · revert hroom
      decide
  refine h _ _ (selectNames [ascii "id", ascii "id", ascii "name"]) usersDirectories usersStart
    usersSchema hlex rfl hschema _ (select_overrun hschema hfits)

end Execution

end DbApi.Proofs.SelectBounds
