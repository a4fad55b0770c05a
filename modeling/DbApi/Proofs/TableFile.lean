import DbApi.Proofs.CsvRoundTrip
import DbApi.Storage.Schema

namespace DbApi.Proofs.TableFile
open Library Common Storage Lines CsvRoundTrip

/-- A read that is no blank line, without its line ending. -/
def dataLine (read : Nat × Bytes) : Option (Nat × Bytes) :=
  if stripLineEndings read.2 = [] then none else some (read.1, stripLineEndings read.2)

/-- The offsets and texts of the data lines of a table file. -/
def dataLines (content : Bytes) : List (Nat × Bytes) :=
  (fgetsAll lineRoom 0 content).tail.filterMap dataLine

def Parses (lines : List (Nat × Bytes)) : Prop :=
  ∀ line ∈ lines, ∃ fields, csvParseLine line.2 = .ok fields

/-- The file after a row was appended. -/
def appendRow (content row : Bytes) : Bytes := content ++ separatorAfter content ++ row

/-- The scan is a fold over the data lines. -/
theorem scanRows_eq {γ : Type} (visitor : List Bytes → Nat → γ → Except Bytes γ)
    (reads : List (Nat × Bytes)) (context : γ) :
    scanRows visitor reads context =
      (reads.filterMap dataLine).foldlM
        (fun context line => (csvParseLine line.2).bind (visitor · line.1 context)) context := by
  induction reads generalizing context with
  | nil => rfl
  | cons read reads ih =>
    obtain ⟨offset, line⟩ := read
    simp only [scanRows]
    split
    · rename_i hb
      rw [ih, List.filterMap_cons_none (by simp [dataLine, hb])]
    · rename_i hb
      rw [List.filterMap_cons_some (b := (offset, stripLineEndings line)) (by simp [dataLine, hb]),
        List.foldlM_cons]
      cases csvParseLine (stripLineEndings line) with
      | error message => rfl
      | ok fields =>
        simp only [Except.bind]
        cases visitor fields offset context with
        | error message => rfl
        | ok context => exact ih context

theorem scanRowsCsv_eq {γ : Type} {files : DataFiles} {tableName content : Bytes}
    (hf : files tableName = some content) (hne : content ≠ []) (dataDir : Bytes)
    (visitor : List Bytes → Nat → γ → Except Bytes γ) (context : γ) :
    scanRowsCsv dataDir files tableName visitor context =
      (dataLines content).foldlM
        (fun context line => (csvParseLine line.2).bind (visitor · line.1 context)) context := by
  simp only [scanRowsCsv, openTableFile, hf, dataLines]
  cases hr : fgetsAll lineRoom 0 content with
  | nil => exact absurd ((fgetsAll_eq_nil lineRoom_pos).mp hr) hne
  | cons first rows => exact scanRows_eq visitor rows context

/-- A file that scans has a header. -/
theorem content_of_scan {γ : Type} {dataDir : Bytes} {files : DataFiles} {tableName : Bytes}
    {visitor : List Bytes → Nat → γ → Except Bytes γ} {context result : γ}
    (hs : scanRowsCsv dataDir files tableName visitor context = .ok result) :
    ∃ content, files tableName = some content ∧ content ≠ [] := by
  cases hf : files tableName with
  | none => simp [scanRowsCsv, openTableFile, hf] at hs
  | some content =>
    refine ⟨content, rfl, ?_⟩
    rintro rfl
    simp [scanRowsCsv, openTableFile, hf] at hs

/-- Seeking to a data line and reading once repeats it. -/
theorem seek_dataLine {content text : Bytes} {offset : Nat}
    (hl : (offset, text) ∈ dataLines content) :
    ∃ line, fgets lineRoom (content.drop offset) = line ∧ line ≠ [] ∧
      stripLineEndings line = text ∧ text ≠ [] := by
  obtain ⟨⟨start, line⟩, hread, hd⟩ := List.mem_filterMap.mp hl
  obtain ⟨_, hseek, hne⟩ := fgetsAll_seek lineRoom_pos (List.mem_of_mem_tail hread)
  simp only [dataLine] at hd
  split at hd
  · contradiction
  · rename_i hb
    simp only [Option.some.injEq, Prod.mk.injEq] at hd
    obtain ⟨rfl, rfl⟩ := hd
    exact ⟨line, by simpa using hseek, hne, rfl, hb⟩

theorem dataLine_blank (offset : Nat) : dataLine (offset, []) = none := by
  simp [dataLine, stripLineEndings, cString]

theorem dataLine_newline (offset : Nat) (line : Bytes) :
    dataLine (offset, line ++ [lineFeed]) = dataLine (offset, line) := by
  simp only [dataLine, strip_newline]

theorem separator_cases (content : Bytes) :
    (separatorAfter content = [] ∧ ∀ b ∈ content.getLast?, b = lineFeed) ∨
      separatorAfter content = [lineFeed] := by
  simp only [separatorAfter]
  cases hl : content.getLast? with
  | none => simp
  | some b =>
    by_cases hb : b = lineFeed
    · simp [hb]
    · simp [hb]

/-- The separator ends the last line and changes no data line. -/
theorem separator_ends (content : Bytes) :
    ∀ b ∈ (content ++ separatorAfter content).getLast?, b = lineFeed := by
  rcases separator_cases content with ⟨hs, hl⟩ | hs
  · simpa [hs] using hl
  · simp [hs]

theorem dataLines_separator (content : Bytes) :
    dataLines (content ++ separatorAfter content) = dataLines content := by
  rcases separator_cases content with ⟨hs, _⟩ | hs
  · rw [hs, List.append_nil]
  · rw [hs]
    exact fgetsAll_newline_tail lineRoom_pos dataLine_blank dataLine_newline 0 content

/-- A row as `validate_insert_columns` and the encoder leave it. -/
structure Clean (row : Bytes) : Prop where
  no_nul : nul ∉ row
  no_line_ending : ∀ b ∈ row, isLineEnding b = false

theorem Clean.no_newline {row : Bytes} (hc : Clean row) : lineFeed ∉ row := by
  intro h
  have := hc.no_line_ending _ h
  contradiction

theorem Clean.mono {row part : Bytes} (hc : Clean row) (hp : part ⊆ row) : Clean part :=
  ⟨fun h => hc.no_nul (hp h), fun b hb => hc.no_line_ending b (hp hb)⟩

theorem Clean.strip {row : Bytes} (hc : Clean row) : stripLineEndings row = row :=
  strip_eq_self hc.no_nul fun b hb => hc.no_line_ending b (List.mem_of_getLast? hb)

/-- Where the new row starts. -/
def rowOffset (content : Bytes) : Nat := content.length + (separatorAfter content).length

theorem findAppendPoint_eq {files : DataFiles} {tableName content : Bytes}
    (hf : files tableName = some content) (dataDir : Bytes) :
    findAppendPoint dataDir files tableName =
      .ok ⟨content.length, separatorAfter content, rowOffset content⟩ := by
  simp [findAppendPoint, openTableFile, hf, rowOffset]

theorem findAppendPoint_ok {dataDir : Bytes} {files : DataFiles} {tableName : Bytes}
    {point : AppendPoint} (hp : findAppendPoint dataDir files tableName = .ok point) :
    ∃ content, files tableName = some content ∧
      point = ⟨content.length, separatorAfter content, rowOffset content⟩ := by
  cases hf : files tableName with
  | none => simp [findAppendPoint, openTableFile, hf] at hp
  | some content =>
    rw [findAppendPoint_eq hf, Except.ok.injEq] at hp
    exact ⟨content, rfl, hp.symm⟩

theorem writeAt_end (bytes content : Bytes) :
    writeAt content.length bytes content = content ++ bytes := by
  rw [writeAt, List.take_length, List.drop_eq_nil_of_le (by omega), List.append_nil]

/-- With nobody else writing, the write lands at the end of the file. -/
theorem writeRow_eq {files : DataFiles} {tableName content : Bytes}
    (hf : files tableName = some content) (rowValues : List Bytes) :
    writeRow files tableName ⟨content.length, separatorAfter content, rowOffset content⟩ rowValues =
      Function.update files tableName (some (appendRow content (encodeRow rowValues))) := by
  simp [writeRow, hf, writeAt_end, appendRow]

/-- Behind a line feed, what is read of a text does not depend on what is before. -/
theorem dataLines_append {front : Bytes} (hne : front ≠ [])
    (hend : ∀ b ∈ front.getLast?, b = lineFeed) (rest : Bytes) :
    dataLines (front ++ rest) =
      dataLines front ++ (fgetsAll lineRoom front.length rest).filterMap dataLine := by
  have hfront : fgetsAll lineRoom 0 front ≠ [] := by
    rwa [ne_eq, fgetsAll_eq_nil lineRoom_pos]
  rw [dataLines, fgetsAll_append lineRoom_pos hend, List.tail_append_of_ne_nil hfront,
    List.filterMap_append, Nat.zero_add]
  rfl

/-- Appending a row appends what is read of the row alone. -/
theorem dataLines_appendRow {content : Bytes} (hne : content ≠ []) (row : Bytes) :
    dataLines (appendRow content row) =
      dataLines content ++ (fgetsAll lineRoom (rowOffset content) row).filterMap dataLine := by
  rw [appendRow, dataLines_append (by simp [hne]) (separator_ends content), dataLines_separator,
    rowOffset, List.length_append]

/-- No read of a clean row is blank. -/
theorem reads_clean {row : Bytes} (hc : Clean row) (offset : Nat) :
    (fgetsAll lineRoom offset row).filterMap dataLine = fgetsAll lineRoom offset row := by
  have hread : ∀ read ∈ fgetsAll lineRoom offset row, dataLine read = some read := by
    rintro ⟨start, line⟩ hr
    obtain ⟨_, hseek, hne⟩ := fgetsAll_seek lineRoom_pos hr
    have hsub : line ⊆ row := fun b hb =>
      List.drop_subset _ _ ((fgets_isPrefix _ _).subset (hseek ▸ hb))
    simp [dataLine, (hc.mono hsub).strip, hne]
  rw [List.filterMap_congr hread, List.filterMap_some]

theorem dataLines_append_clean {content row : Bytes} (hne : content ≠ []) (hc : Clean row) :
    dataLines (appendRow content row) =
      dataLines content ++ fgetsAll lineRoom (rowOffset content) row := by
  rw [dataLines_appendRow hne, reads_clean hc]

/-- A row that fits the line buffer is one data line. -/
theorem dataLines_append_fit {content row : Bytes} (hne : content ≠ []) (hc : Clean row)
    (hr : row ≠ []) (hfit : row.length ≤ lineRoom) :
    dataLines (appendRow content row) = dataLines content ++ [(rowOffset content, row)] := by
  rw [dataLines_append_clean hne hc, fgetsAll_row hc.no_newline hr hfit]

/-- A row that does not fit counts at least twice. -/
theorem dataLines_append_long {content row : Bytes} (hne : content ≠ []) (hc : Clean row)
    (hlong : lineRoom < row.length) :
    (dataLines content).length + 2 ≤ (dataLines (appendRow content row)).length := by
  rw [dataLines_append_clean hne hc, fgetsAll_long lineRoom_pos hc.no_newline hlong]
  have hrest : fgetsAll lineRoom (rowOffset content + lineRoom) (row.drop lineRoom) ≠ [] := by
    rw [ne_eq, fgetsAll_eq_nil lineRoom_pos, List.drop_eq_nil_iff]
    omega
  have := List.length_pos_iff.mpr hrest
  simp only [List.length_append, List.length_cons]
  omega

/-- The header is read as before. -/
theorem header_appendRow {content : Bytes} (hne : content ≠ []) (row : Bytes) :
    stripLineEndings (fgets lineRoom (appendRow content row)) =
      stripLineEndings (fgets lineRoom content) := by
  by_cases hstop : lineFeed ∈ content ∨ lineRoom ≤ content.length
  · rw [appendRow, List.append_assoc, fgets_append hstop]
  · simp only [not_or, not_le] at hstop
    have hsep : separatorAfter content = [lineFeed] := by
      rcases separator_cases content with ⟨_, hl⟩ | hs
      · have hlast := List.getLast?_eq_some_getLast hne
        exact absurd (hl _ hlast ▸ List.getLast_mem hne) hstop.1
      · exact hs
    rw [appendRow, hsep, fgets_append (.inl (by simp)), fgets_line hstop.1 hstop.2,
      fgets_row hstop.1, List.take_of_length_le hstop.2.le, strip_newline]

end DbApi.Proofs.TableFile
