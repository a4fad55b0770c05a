import DbApi.Proofs.StatementOutcome

namespace DbApi.Proofs.InsertRow
open Library Common Storage Sql Execution CsvRoundTrip TableFile

theorem readSchema_ok {dirs : Directories} {tableName : Bytes} {schema : Schema}
    (h : readSchema dirs tableName = .ok schema) :
    schema.columns ≠ [] ∧ schemaFindColumn schema (ascii "id") = none := by
  simp only [readSchema] at h
  split at h
  · contradiction
  split at h
  · contradiction
  split at h
  · contradiction
  split at h
  · contradiction
  split at h
  · contradiction
  split at h
  · contradiction
  rename_i hne hid _
  obtain rfl := Except.ok.inj h
  exact ⟨hne, by simpa [schemaHasReservedIdColumn] using hid⟩

theorem loadSchema_ok {dirs : Directories} {files : DataFiles} {tableName : Bytes}
    {schema : Schema} (h : loadSchema dirs files tableName = .ok schema) :
    readSchema dirs tableName = .ok schema ∧
      validateCsvHeader dirs.dataDir files schema = .ok () := by
  simp only [loadSchema] at h
  split at h
  · contradiction
  split at h
  · contradiction
  obtain rfl := Except.ok.inj h
  exact ⟨‹_›, ‹_›⟩

theorem validateColumns_ok {schema : Schema} {pairs : List (Bytes × Bytes)}
    (h : validateColumns schema pairs = .ok ()) :
    ∀ pair ∈ pairs, containsNewline pair.2 = false := by
  induction pairs with
  | nil => simp
  | cons pair pairs ih =>
    obtain ⟨column, value⟩ := pair
    simp only [validateColumns] at h
    split at h
    · contradiction
    split at h
    · contradiction
    split at h
    · contradiction
    rename_i hv
    intro p hp
    rcases List.mem_cons.mp hp with rfl | hp
    · simpa using hv
    · exact ih h p hp

/-- A value that may stand in a row: no NUL, no line ending. -/
def CleanValue (value : Bytes) : Prop := nul ∉ value ∧ ∀ b ∈ value, isLineEnding b = false

theorem cleanValue_copy {value : Bytes} (h : containsNewline value = false) :
    CleanValue (copyString value) := by
  refine ⟨cString_no_nul value, ?_⟩
  simpa [containsNewline, copyString] using h

/-- Assigning columns keeps the width of the row and its cells clean. -/
theorem assignColumns_ok {schema : Schema} {pairs : List (Bytes × Bytes)} {assigned : List Bool}
    {start rowValues : List Bytes}
    (h : assignColumns schema pairs assigned start = .ok rowValues)
    (hp : ∀ pair ∈ pairs, containsNewline pair.2 = false)
    (hs : ∀ value ∈ start, CleanValue value) :
    rowValues.length = start.length ∧ ∀ value ∈ rowValues, CleanValue value := by
  induction pairs generalizing assigned start with
  | nil =>
    obtain rfl := Except.ok.inj h
    exact ⟨rfl, hs⟩
  | cons pair pairs ih =>
    obtain ⟨column, value⟩ := pair
    simp only [assignColumns] at h
    split at h
    · contradiction
    split at h
    · contradiction
    rename_i index _ _
    have hset : ∀ v ∈ start.set index (copyString value), CleanValue v := by
      intro v hv
      rcases List.mem_or_eq_of_mem_set hv with hv | rfl
      · exact hs v hv
      · exact cleanValue_copy (hp (column, value) (by simp))
    have hrest := ih h (fun p hm => hp p (by simp [hm])) hset
    simpa using hrest

/-- The value that an INSERT gives to the column at `index`, if any. -/
def cellAt (schema : Schema) (pairs : List (Bytes × Bytes)) (index : Nat) : Option Bytes :=
  (pairs.find? fun pair => schemaFindColumn schema pair.1 == some index).map (copyString ·.2)

/-- The cells in the order of the schema, empty where no value is given. -/
def rowOf (statement : InsertStatement) (schema : Schema) : List Bytes :=
  (List.range schema.columns.length).map fun index =>
    (cellAt schema (statement.columns.zip statement.values) index).getD []

/-- A column marked as assigned is not given again. -/
theorem cellAt_assigned {schema : Schema} {pairs : List (Bytes × Bytes)} {assigned : List Bool}
    {start rowValues : List Bytes}
    (h : assignColumns schema pairs assigned start = .ok rowValues) {index : Nat}
    (ha : assigned[index]? = some true) : cellAt schema pairs index = none := by
  induction pairs generalizing assigned start with
  | nil => rfl
  | cons pair pairs ih =>
    obtain ⟨column, value⟩ := pair
    simp only [assignColumns] at h
    split at h
    · contradiction
    rename_i found hfound
    split at h
    · contradiction
    rename_i hfree
    have hne : found ≠ index := fun he => hfree (he ▸ ha)
    have hrest := ih h (by rw [List.getElem?_set_ne hne, ha])
    simp only [cellAt, Option.map_eq_none_iff] at hrest ⊢
    rw [List.find?_cons_of_neg (by simpa [hfound] using hne)]
    exact hrest

theorem assignColumns_cell {schema : Schema} {pairs : List (Bytes × Bytes)} {assigned : List Bool}
    {start rowValues : List Bytes} (hl : assigned.length = start.length)
    (h : assignColumns schema pairs assigned start = .ok rowValues) {index : Nat}
    (hi : index < start.length) :
    rowValues[index]? = some ((cellAt schema pairs index).getD (start[index]?.getD [])) := by
  induction pairs generalizing assigned start with
  | nil =>
    obtain rfl := Except.ok.inj h
    simp [cellAt, hi]
  | cons pair pairs ih =>
    obtain ⟨column, value⟩ := pair
    simp only [assignColumns] at h
    split at h
    · contradiction
    rename_i found hfound
    split at h
    · contradiction
    have hrest := ih (by simpa using hl) h (by simpa using hi)
    by_cases hf : found = index
    · subst hf
      have hset : (assigned.set found true)[found]? = some true := by
        rw [List.getElem?_set_self (by omega)]
      rw [hrest, cellAt_assigned h hset]
      simp [cellAt, hfound, hi]
    · rw [hrest, List.getElem?_set_ne hf]
      simp [cellAt, hfound, hf]

/-- The row an INSERT builds, cell by cell. -/
theorem buildInsertRow_eq {statement : InsertStatement} {schema : Schema} {rowValues : List Bytes}
    (hb : buildInsertRow statement schema = .ok rowValues)
    (hl : rowValues.length = schema.columns.length) : rowValues = rowOf statement schema := by
  apply List.ext_getElem?
  intro index
  by_cases hi : index < schema.columns.length
  · rw [assignColumns_cell (by simp) hb (by simpa using hi)]
    simp [rowOf, hi]
  · rw [List.getElem?_eq_none (by omega), List.getElem?_eq_none (by simp [rowOf]; omega)]

theorem escape_ne_nil (value : Bytes) : csvEscapeField value ≠ [] := by
  simp only [csvEscapeField]
  split
  · simp
  · split
    · simp
    · assumption

theorem encodeRow_ne_nil {rowValues : List Bytes} (h : rowValues ≠ []) : encodeRow rowValues ≠ [] := by
  cases rowValues with
  | nil => contradiction
  | cons value rest =>
    cases rest with
    | nil => exact escape_ne_nil value
    | cons next rest => simp [encodeRow]

theorem clean_encodeRow {rowValues : List Bytes} (h : ∀ value ∈ rowValues, CleanValue value) :
    Clean (encodeRow rowValues) := by
  refine ⟨encodeRow_no_nul rowValues, ?_⟩
  intro b hb
  rcases mem_encodeRow hb with rfl | rfl | ⟨value, hv, hb⟩
  · rfl
  · rfl
  · exact (h value hv).2 b ((List.takeWhile_prefix _).subset hb)

/-- The row an accepted INSERT writes. -/
structure WritableRow (schema : Schema) (rowValues : List Bytes) : Prop where
  length_eq : rowValues.length = schema.columns.length
  ne_nil : rowValues ≠ []
  cells : ∀ value ∈ rowValues, CleanValue value

theorem buildInsertRow_writable {statement : InsertStatement} {schema : Schema}
    {rowValues : List Bytes} (hne : schema.columns ≠ [])
    (hv : validateInsertColumns statement schema = .ok ())
    (hb : buildInsertRow statement schema = .ok rowValues) : WritableRow schema rowValues := by
  simp only [validateInsertColumns] at hv
  split at hv
  · contradiction
  have hstart : ∀ value ∈ List.replicate schema.columns.length ([] : Bytes), CleanValue value := by
    intro value hm
    rw [List.eq_of_mem_replicate hm]
    simp [CleanValue]
  obtain ⟨hl, hc⟩ := assignColumns_ok hb (validateColumns_ok hv) hstart
  rw [List.length_replicate] at hl
  refine ⟨hl, ?_, hc⟩
  rintro rfl
  exact hne (List.length_eq_zero_iff.mp hl.symm)

theorem WritableRow.encode_ne_nil {schema : Schema} {rowValues : List Bytes}
    (hw : WritableRow schema rowValues) : encodeRow rowValues ≠ [] := encodeRow_ne_nil hw.ne_nil

theorem WritableRow.clean {schema : Schema} {rowValues : List Bytes}
    (hw : WritableRow schema rowValues) : Clean (encodeRow rowValues) := clean_encodeRow hw.cells

theorem WritableRow.parse {schema : Schema} {rowValues : List Bytes}
    (hw : WritableRow schema rowValues) :
    csvParseLine (encodeRow rowValues) = .ok (rowValues.map readBack) :=
  parse_encodeRow hw.ne_nil fun value hv => (hw.cells value hv).1

end DbApi.Proofs.InsertRow
