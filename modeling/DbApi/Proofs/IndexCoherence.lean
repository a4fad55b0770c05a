import DbApi.Proofs.IndexRebuild
import DbApi.Proofs.InsertRow

namespace DbApi.Proofs.IndexCoherence
open Library Common Storage Index Sql Execution BptreeMap TableFile IndexRebuild IndexView
open StatementOutcome InsertRow

/-- Every line of a file fits the buffer of the readers. -/
def LinesFit (content : Bytes) : Prop :=
  ∀ line, line <:+: content → lineFeed ∉ line → line.length ≤ lineRoom

def FilesFit (files : DataFiles) : Prop := ∀ name, ∀ content ∈ files name, LinesFit content

/-- The index `entry` stands for the rows of `content`, all of which parse. -/
structure AgreesWith (entry : TableIndex) (content : Bytes) : Prop where
  header : content ≠ []
  parses : Parses (dataLines content)
  indexes : Indexes (dataOffsets content) entry.tree entry.nextId

/-- The index of a table is not loaded, or agrees with its file. -/
def IndexAgrees (v : View) (name : Bytes) : Prop :=
  (v.indexOf name).loaded = true →
    ∃ content, v.files name = some content ∧ AgreesWith (v.indexOf name) content

/-- The invariant: one entry to a table, and each loaded one agrees with its file. -/
structure Coherent (v : View) : Prop where
  unique : v.names.Nodup
  agrees : ∀ name, IndexAgrees v name

theorem IndexAgrees.load {v : View} {name : Bytes} (h : IndexAgrees v name) (dataDir : Bytes) :
    IndexAgrees (v.load dataDir name).2 name := by
  simp only [View.load]
  split
  · exact h
  · split
    · intro hl
      simp [TableIndex.unload] at hl
    · rename_i hr
      intro _
      obtain ⟨content, hf, hne, hp, hi⟩ := rebuild_sound hr
      exact ⟨content, hf, by simpa [TableIndex.install] using ⟨hne, hp, hi⟩⟩

theorem Coherent.create {v : View} (hv : Coherent v) (name : Bytes) : Coherent (v.create name) :=
  ⟨View.nodup_create hv.unique, hv.agrees⟩

/-- An entry may be replaced by one that is unloaded or agrees with the file. -/
theorem Coherent.set {v : View} (hv : Coherent v) {name : Bytes} {entry : TableIndex}
    (he : entry.loaded = true → ∃ content, v.files name = some content ∧ AgreesWith entry content) :
    Coherent (v.set name entry) := by
  refine ⟨hv.unique, fun other ho => ?_⟩
  by_cases hn : other = name
  · subst hn
    rw [View.indexOf_set] at ho ⊢
    exact he ho
  · rw [View.indexOf_set_ne _ hn] at ho ⊢
    exact hv.agrees other ho

theorem Coherent.unload {v : View} (hv : Coherent v) (name : Bytes) :
    Coherent (v.set name (v.indexOf name).unload) :=
  hv.set fun h => by simp [TableIndex.unload] at h

theorem Coherent.load {v : View} (hv : Coherent v) (dataDir name : Bytes) :
    Coherent (v.load dataDir name).2 := by
  simp only [View.load]
  split
  · exact hv.create name
  · split
    · exact (hv.create name).unload name
    · rename_i hr
      refine (hv.create name).set fun _ => ?_
      obtain ⟨content, hf, hne, hp, hi⟩ := rebuild_sound hr
      exact ⟨content, hf, hne, hp, hi⟩

/-- Registering the appended row makes the index agree with the new file. -/
theorem AgreesWith.append {entry : TableIndex} {content row : Bytes}
    (ha : AgreesWith entry content) (hc : Clean row) (hr : row ≠ []) (hfit : row.length ≤ lineRoom)
    (hp : ∃ fields, csvParseLine row = .ok fields) :
    (registerEntry entry.nextId (rowOffset content) entry).1 = .ok () ∧
      AgreesWith (registerEntry entry.nextId (rowOffset content) entry).2 (appendRow content row) := by
  have hlines := dataLines_append_fit ha.header hc hr hfit
  have hoffsets : dataOffsets (appendRow content row) = dataOffsets content ++ [rowOffset content] := by
    simp [dataOffsets, hlines]
  obtain ⟨hok, hi⟩ := registerEntry_indexes ha.indexes (rowOffset content)
  refine ⟨hok, by simp [appendRow, ha.header], ?_, ?_⟩
  · rw [hlines]
    intro line hl
    rcases List.mem_append.mp hl with hl | hl
    · exact ha.parses line hl
    · obtain rfl := List.mem_singleton.mp hl
      exact hp
  · rw [hoffsets]
    exact hi

/-- A table file and its entry may be replaced together. -/
theorem Coherent.write {v : View} (hv : Coherent v) {name content : Bytes} {entry : TableIndex}
    (forced : Bool) (he : entry.loaded = true → AgreesWith entry content) :
    Coherent ({ v with files := Function.update v.files name (some content), forced }.set
      name entry) := by
  refine ⟨hv.unique, fun other ho => ?_⟩
  by_cases hn : other = name
  · subst hn
    rw [View.indexOf_set] at ho ⊢
    exact ⟨content, by simp, he ho⟩
  · rw [View.indexOf_set_ne _ hn] at ho ⊢
    obtain ⟨old, hf, ha⟩ := hv.agrees other ho
    exact ⟨old, by simpa [Function.update_apply, hn] using hf, ha⟩

section Appended

variable {statement : InsertStatement} {dirs : Directories} {v loaded written : View}
  {schema : Schema} {rowValues : List Bytes} {content : Bytes}

theorem files_loaded
    (ha : Appended statement dirs v schema rowValues content loaded written) :
    loaded.files = v.files := by
  have hframe := (load_frame dirs.dataDir schema.storageName v).1
  rwa [ha.loads] at hframe

theorem row_writable
    (ha : Appended statement dirs v schema rowValues content loaded written) :
    WritableRow schema rowValues :=
  buildInsertRow_writable (readSchema_ok (loadSchema_ok ha.schema_ok).1).1 ha.columns_ok ha.row_ok

/-- What the INSERT leaves on disk. -/
theorem found_written
    (ha : Appended statement dirs v schema rowValues content loaded written) :
    written.files schema.storageName = some (appendRow content (encodeRow rowValues)) := by
  rw [ha.writes]
  simp

theorem coherent_loaded (hv : Coherent v)
    (ha : Appended statement dirs v schema rowValues content loaded written) :
    Coherent loaded := by
  have hload := hv.load dirs.dataDir schema.storageName
  rwa [ha.loads] at hload

/-- At the write the loaded index agrees with the file as it was. -/
theorem agrees_loaded (hv : IndexAgrees v schema.storageName)
    (ha : Appended statement dirs v schema rowValues content loaded written) :
    AgreesWith (loaded.indexOf schema.storageName) content := by
  have hload := hv.load dirs.dataDir
  rw [ha.loads] at hload
  obtain ⟨old, hf, hag⟩ := hload (load_ok ha.loads)
  rw [files_loaded ha, ha.found] at hf
  obtain rfl := Option.some.inj hf
  exact hag

theorem written_eq
    (ha : Appended statement dirs v schema rowValues content loaded written) :
    written = { loaded with
      files := Function.update loaded.files schema.storageName
        (some (appendRow content (encodeRow rowValues))) } := by
  rw [files_loaded ha, ha.writes]

/-- The row of an INSERT whose file fits the readers fits them itself. -/
theorem row_fits
    (ha : Appended statement dirs v schema rowValues content loaded written)
    (hfit : LinesFit (appendRow content (encodeRow rowValues))) :
    (encodeRow rowValues).length ≤ lineRoom :=
  hfit _ (List.suffix_append _ _).isInfix (row_writable ha).clean.no_newline

end Appended

theorem insert_coherent {statement : InsertStatement} {dirs : Directories} {v after : View}
    {result : ExecResult} (hv : Coherent v)
    (h : InsertOutcome statement dirs v result after) (hfit : FilesFit after.files) :
    Coherent after := by
  cases h with
  | refused message => exact hv
  | unwritten message schema => exact hv.load dirs.dataDir schema.storageName
  | @unregistered schema rowValues content message loaded written reg ha hreg =>
    have hl := coherent_loaded hv ha
    rw [written_eq ha, View.register] at hreg
    split at hreg
    · obtain rfl := (Prod.mk.inj hreg).2
      exact hl.write false fun h => by simp [TableIndex.unload] at h
    · obtain rfl := (Prod.mk.inj hreg).2
      rw [View.set_set]
      exact (hl.create schema.storageName).write loaded.forced fun h => by
        simp [TableIndex.unload] at h
  | @registered schema rowValues content loaded written after ha hreg =>
    have hl := coherent_loaded hv ha
    have hfiles : after.files = written.files := by
      rw [View.register] at hreg
      split at hreg
      · simp at hreg
      · obtain rfl := (Prod.mk.inj hreg).2
        rfl
    have hw := row_writable ha
    have hrow := row_fits ha (hfit _ _ (hfiles ▸ found_written ha))
    rw [written_eq ha, View.register] at hreg
    split at hreg
    · simp at hreg
    · obtain rfl := (Prod.mk.inj hreg).2
      refine (hl.create schema.storageName).write loaded.forced fun _ => ?_
      exact ((agrees_loaded (hv.agrees _) ha).append hw.clean hw.encode_ne_nil hrow ⟨_, hw.parse⟩).2

end DbApi.Proofs.IndexCoherence
