import DbApi.Library.Except
import DbApi.Proofs.FullScan
import DbApi.Proofs.InsertRow
import DbApi.Storage.AppendRow

namespace DbApi.Proofs.AppendOutcome
open Library Common Storage Lines TableFile InsertRow

/-- What `scan_rows_csv` shows of a table: its rows with their offsets, or the error
it ends with. -/
def seenRows (dataDir : Bytes) (files : DataFiles) (tableName : Bytes) :
    Except Bytes (List (Nat × List Bytes)) :=
  scanRowsCsv dataDir files tableName (fun fields offset seen => .ok (seen ++ [(offset, fields)])) []

/-- All or nothing: a reported row is in the file behind what was there, and a
reported failure leaves the rows as they were. -/
def AllOrNothing (dataDir : Bytes) (files : DataFiles) (tableName content : Bytes)
    (rowValues : List Bytes) (outcome : StorageResult × DataFiles) : Prop :=
  (outcome.1.ok = true →
    outcome.2 tableName = some (content ++ separatorAfter content ++ encodeRow rowValues) ∧
      outcome.1.rowOffset = (content ++ separatorAfter content).length) ∧
  (outcome.1.ok = false →
    seenRows dataDir outcome.2 tableName = seenRows dataDir files tableName)

/-- The separator that is written: one too many where the last byte of a file that
ends a line cannot be read. -/
def writtenSeparator (outcomes : StdioOutcomes) (content : Bytes) : Bytes :=
  if content ≠ [] ∧ lastCharacter outcomes content ≠ some lineFeed then [lineFeed] else []

/-- The calls before the first field succeed. -/
structure Prepares (outcomes : StdioOutcomes) (content : Bytes) : Prop where
  seekEnd : outcomes.seekEnd = true
  tellSize : outcomes.tellSize = true
  seekLast : content ≠ [] → outcomes.seekLast = true
  seekBack : content ≠ [] → outcomes.seekBack = true
  lineSeparator : writtenSeparator outcomes content ≠ [] → outcomes.lineSeparator = none
  tellOffset : outcomes.tellOffset = true

/-- The calls for the field at `index` succeed. -/
structure FieldOutcomes.Succeed (outcomes : FieldOutcomes) (index : Nat) : Prop where
  escape : outcomes.escape = true
  separator : 0 < index → outcomes.separator = none
  text : outcomes.text = none

/-- Every call before the close succeeds. -/
def Succeeds (outcomes : StdioOutcomes) (content : Bytes) (rowValues : List Bytes) : Prop :=
  outcomes.fopen = none ∧ Prepares outcomes content ∧
    ∀ index < rowValues.length, FieldOutcomes.Succeed (outcomes.fields index) index

/-- Some byte of the first field is put. -/
def StartsRow (outcomes : StdioOutcomes) : Prop :=
  (outcomes.fields 0).escape = true ∧ (outcomes.fields 0).text ≠ some 0

/-- The condition under which an append is all or nothing. -/
structure Whole (dataDir : Bytes) (files : DataFiles) (tableName content : Bytes)
    (rowValues : List Bytes) (outcomes : StdioOutcomes) : Prop where
  success : Succeeds outcomes content rowValues →
    (outcomes.getLast = true ∨ content.getLast? ≠ some lineFeed) ∧
      ∀ n ∈ outcomes.fclose, (separatorAfter content ++ encodeRow rowValues).length ≤ n
  failure : ¬ Succeeds outcomes content rowValues →
    outcomes.fopen ≠ none ∨ ¬ Prepares outcomes content ∨ ¬ StartsRow outcomes ∨
      (∃ n ∈ outcomes.fclose, n ≤ (writtenSeparator outcomes content).length) ∨
      (content ≠ [] ∧ ∃ message, seenRows dataDir files tableName = .error message)

section Puts

def fieldBytes (index : Nat) (value : Bytes) : Bytes :=
  (if 0 < index then [comma] else []) ++ csvEscapeField value

/-- What the loop over the fields is to put, from `index` on. -/
def rowBytes : Nat → List Bytes → Bytes
  | _, [] => []
  | index, value :: rest => fieldBytes index value ++ rowBytes (index + 1) rest

theorem rowBytes_later (index : Nat) (rest : List Bytes) :
    rowBytes (index + 1) rest = rest.flatMap fun value => comma :: csvEscapeField value := by
  induction rest generalizing index with
  | nil => rfl
  | cons value rest ih =>
    rw [rowBytes, fieldBytes, if_pos (Nat.succ_pos index), ih, List.flatMap_cons]
    rfl

theorem rowBytes_zero (rowValues : List Bytes) : rowBytes 0 rowValues = encodeRow rowValues := by
  cases rowValues with
  | nil => rfl
  | cons value rest =>
    rw [rowBytes, fieldBytes, if_neg (Nat.lt_irrefl 0), rowBytes_later, List.nil_append]
    induction rest generalizing value with
    | nil => simp [encodeRow]
    | cons next rest ih =>
      rw [List.flatMap_cons, encodeRow, ← ih]
      simp

variable {rowOffset : Int}

theorem put_cases (outcome : Option Nat) (bytes message stream : Bytes) :
    (outcome = none ∧ put outcome bytes rowOffset message stream = .ok (stream ++ bytes)) ∨
      ∃ n, outcome = some n ∧ put outcome bytes rowOffset message stream =
        .error { stream := stream ++ bytes.take n, rowOffset, message } := by
  cases outcome with
  | none => exact .inl ⟨rfl, rfl⟩
  | some n => exact .inr ⟨n, rfl, rfl⟩

/-- A field is put whole, or the stream gets a front part of it. -/
theorem putField_cases (outcomes : FieldOutcomes) (index : Nat) (value stream : Bytes) :
    (FieldOutcomes.Succeed outcomes index ∧
      putField outcomes rowOffset index value stream = .ok (stream ++ fieldBytes index value)) ∨
    (¬ FieldOutcomes.Succeed outcomes index ∧
      ∃ failure part, putField outcomes rowOffset index value stream = .error failure ∧
        failure.stream = stream ++ part ∧ part <+: fieldBytes index value) := by
  rw [putField, fieldBytes]
  by_cases hescape : outcomes.escape = false
  · rw [if_pos hescape]
    refine .inr ⟨fun h => ?_, _, [], rfl, (List.append_nil _).symm, List.nil_prefix⟩
    rw [h.escape] at hescape
    cases hescape
  · rw [if_neg hescape]
    by_cases hi : 0 < index
    · rw [if_pos hi, if_pos hi]
      rcases @put_cases rowOffset outcomes.separator [comma]
        (ascii "failed to write CSV separator") stream with ⟨hseparator, hput⟩ | ⟨n, hseparator, hput⟩
      · rw [hput]
        rcases @put_cases rowOffset outcomes.text (csvEscapeField value)
          (ascii "failed to write CSV field") (stream ++ [comma]) with ⟨htext, hput⟩ | ⟨n, htext, hput⟩
        · refine .inl ⟨⟨by simpa using hescape, fun _ => hseparator, htext⟩, ?_⟩
          rw [← List.append_assoc]
          exact hput
        · refine .inr ⟨fun h => ?_, _, [comma] ++ (csvEscapeField value).take n, hput, ?_, ?_⟩
          · rw [h.text] at htext
            cases htext
          · rw [List.append_assoc]
          · exact (List.prefix_append_right_inj _).mpr (List.take_prefix _ _)
      · rw [hput]
        refine .inr ⟨fun h => ?_, _, [comma].take n, rfl, rfl, ?_⟩
        · rw [h.separator hi] at hseparator
          cases hseparator
        · exact (List.take_prefix _ _).trans (List.prefix_append _ _)
    · rw [if_neg hi, if_neg hi, List.nil_append]
      rcases @put_cases rowOffset outcomes.text (csvEscapeField value)
        (ascii "failed to write CSV field") stream with ⟨htext, hput⟩ | ⟨n, htext, hput⟩
      · exact .inl ⟨⟨by simpa using hescape, fun h => absurd h hi, htext⟩, hput⟩
      · refine .inr ⟨fun h => ?_, _, (csvEscapeField value).take n, hput, rfl, List.take_prefix _ _⟩
        rw [h.text] at htext
        cases htext

variable {outcomes : Nat → FieldOutcomes}

/-- The loop puts the whole row, or it stops early and has put a front part. -/
theorem putFields_cases (index : Nat) (rowValues : List Bytes) (stream : Bytes) :
    ((∀ i < rowValues.length, FieldOutcomes.Succeed (outcomes (index + i)) (index + i)) ∧
      putFields outcomes rowOffset index rowValues stream =
        .ok (stream ++ rowBytes index rowValues)) ∨
    ((¬ ∀ i < rowValues.length, FieldOutcomes.Succeed (outcomes (index + i)) (index + i)) ∧
      ∃ failure part, putFields outcomes rowOffset index rowValues stream = .error failure ∧
        failure.stream = stream ++ part ∧ part <+: rowBytes index rowValues) := by
  induction rowValues generalizing index stream with
  | nil =>
    refine .inl ⟨fun i hi => absurd hi (Nat.not_lt_zero i), ?_⟩
    rw [putFields, rowBytes, List.append_nil]
  | cons value rest ih =>
    rw [putFields, rowBytes]
    rcases @putField_cases rowOffset (outcomes index) index value stream with
      ⟨hfirst, hput⟩ | ⟨hfirst, failure, part, hput, hstream, hpart⟩
    · rw [hput]
      rcases ih (index + 1) (stream ++ fieldBytes index value) with
        ⟨hall, hrest⟩ | ⟨hnot, failure, part, hrest, hstream, hpart⟩
      · refine .inl ⟨fun i hi => ?_, ?_⟩
        · cases i with
          | zero => exact hfirst
          | succ i =>
            have := hall i (by simpa using hi)
            rwa [Nat.add_assoc, Nat.add_comm 1 i] at this
        · rw [← List.append_assoc]
          exact hrest
      · refine .inr ⟨fun hall => hnot fun i hi => ?_, failure, fieldBytes index value ++ part,
          hrest, ?_, (List.prefix_append_right_inj _).mpr hpart⟩
        · rw [Nat.add_assoc, Nat.add_comm 1 i]
          exact hall (i + 1) (by simpa using hi)
        · rw [hstream, List.append_assoc]
    · rw [hput]
      exact .inr ⟨fun hall => hfirst (hall 0 (by simp)), failure, part, rfl, hstream,
        hpart.trans (List.prefix_append _ _)⟩

/-- A loop that stops early has put nothing exactly when the first field has. -/
theorem putFields_start {rowValues : List Bytes} {stream part : Bytes} {failure : AppendFailure}
    (h : putFields outcomes rowOffset 0 rowValues stream = .error failure)
    (hstream : failure.stream = stream ++ part) :
    part = [] ↔ ¬ ((outcomes 0).escape = true ∧ (outcomes 0).text ≠ some 0) := by
  cases rowValues with
  | nil => cases h
  | cons value rest =>
    have hne := escape_ne_nil value
    rw [putFields, putField, if_neg (Nat.lt_irrefl 0)] at h
    cases hescape : (outcomes 0).escape with
    | false =>
      rw [hescape] at h
      cases h
      simpa using hstream
    | true =>
      rw [hescape, if_neg (by simp)] at h
      change (put (outcomes 0).text (csvEscapeField value) rowOffset _ stream >>= _) = _ at h
      cases htext : (outcomes 0).text with
      | some n =>
        rw [htext] at h
        cases h
        have hpart : (csvEscapeField value).take n = part := by simpa using hstream
        rw [← hpart, List.take_eq_nil_iff]
        simp [hne]
      | none =>
        rw [htext] at h
        change putFields outcomes rowOffset (0 + 1) rest (stream ++ csvEscapeField value) = _ at h
        rcases @putFields_cases rowOffset outcomes (0 + 1) rest (stream ++ csvEscapeField value) with
          ⟨-, hok⟩ | ⟨-, failure', more, herror, hmore, -⟩
        · rw [hok] at h
          cases h
        · rw [herror] at h
          cases h
          rw [hstream, List.append_assoc] at hmore
          have hpart := List.append_cancel_left hmore
          rw [hpart]
          simp [hne]

end Puts

section Point

variable {outcomes : StdioOutcomes} {content : Bytes}

theorem last_eq_iff : lastCharacter outcomes content = some lineFeed ↔
    outcomes.getLast = true ∧ content.getLast? = some lineFeed := by
  unfold lastCharacter
  cases outcomes.getLast <;> simp

theorem written_cases (outcomes : StdioOutcomes) (content : Bytes) :
    (writtenSeparator outcomes content = [] ∧
      (content = [] ∨ outcomes.getLast = true ∧ content.getLast? = some lineFeed)) ∨
    (writtenSeparator outcomes content = [lineFeed] ∧ content ≠ []) := by
  unfold writtenSeparator
  by_cases hne : content = []
  · exact .inl ⟨if_neg fun h => h.1 hne, .inl hne⟩
  · by_cases hlast : lastCharacter outcomes content = some lineFeed
    · exact .inl ⟨if_neg fun h => h.2 hlast, .inr (last_eq_iff.mp hlast)⟩
    · exact .inr ⟨if_pos ⟨hne, hlast⟩, hne⟩

theorem written_ends (outcomes : StdioOutcomes) (content : Bytes) :
    ∀ b ∈ (content ++ writtenSeparator outcomes content).getLast?, b = lineFeed := by
  rcases written_cases outcomes content with ⟨hsep, rfl | hlast⟩ | ⟨hsep, -⟩
  · simp [hsep]
  · rw [hsep, List.append_nil, hlast.2]
    rintro _ ⟨⟩
    rfl
  · simp [hsep]

/-- The separator is the one that is missing, unless the last byte was not read. -/
theorem written_length_iff :
    (writtenSeparator outcomes content).length = (separatorAfter content).length ↔
      outcomes.getLast = true ∨ content.getLast? ≠ some lineFeed := by
  have hafter : separatorAfter content =
      if content ≠ [] ∧ content.getLast? ≠ some lineFeed then [lineFeed] else [] := by
    cases content with
    | nil => rfl
    | cons b rest =>
      rw [separatorAfter, List.getLast?_eq_some_getLast (List.cons_ne_nil b rest)]
      simp
  simp only [hafter, writtenSeparator, ne_eq, last_eq_iff]
  by_cases hne : content = []
  · simp [hne]
  · by_cases hlast : content.getLast? = some lineFeed
    · cases outcomes.getLast <;> simp [hne, hlast]
    · simp [hne, hlast]

theorem written_eq (h : outcomes.getLast = true ∨ content.getLast? ≠ some lineFeed) :
    writtenSeparator outcomes content = separatorAfter content := by
  have hlength := written_length_iff.mpr h
  rcases written_cases outcomes content with ⟨hw, -⟩ | ⟨hw, -⟩ <;>
    rcases separator_cases content with ⟨hs, -⟩ | hs <;> rw [hw, hs] at hlength ⊢ <;> cases hlength

theorem inspectEnd_cases (outcomes : StdioOutcomes) (content : Bytes) :
    (inspectEnd outcomes content = .ok () ∧ outcomes.seekEnd = true ∧ outcomes.tellSize = true ∧
      (content ≠ [] → outcomes.seekLast = true) ∧ (content ≠ [] → outcomes.seekBack = true)) ∨
    (¬ Prepares outcomes content ∧ ∃ failure, inspectEnd outcomes content = .error failure ∧
      failure.stream = []) := by
  unfold inspectEnd earlyFailure
  split_ifs with hend hsize hlast hback
  · exact .inr ⟨fun h => by simp [h.seekEnd] at hend, _, rfl, rfl⟩
  · exact .inr ⟨fun h => by simp [h.tellSize] at hsize, _, rfl, rfl⟩
  · exact .inr ⟨fun h => by simp [h.seekLast hlast.1] at hlast, _, rfl, rfl⟩
  · exact .inr ⟨fun h => by simp [h.seekBack hback.1] at hback, _, rfl, rfl⟩
  · exact .inl ⟨rfl, by simpa using hend, by simpa using hsize, by simpa using hlast,
      by simpa using hback⟩

theorem putSeparator_cases (outcomes : StdioOutcomes) (content : Bytes) :
    ((writtenSeparator outcomes content ≠ [] → outcomes.lineSeparator = none) ∧
      putLineSeparator outcomes content = .ok (writtenSeparator outcomes content)) ∨
    (¬ Prepares outcomes content ∧ ∃ failure, putLineSeparator outcomes content = .error failure ∧
      failure.stream <+: writtenSeparator outcomes content) := by
  unfold putLineSeparator
  by_cases hmissing : content ≠ [] ∧ lastCharacter outcomes content ≠ some lineFeed
  · have hw : writtenSeparator outcomes content = [lineFeed] := if_pos hmissing
    rw [if_pos hmissing, hw]
    rcases @put_cases (-1) outcomes.lineSeparator [lineFeed]
      (ascii "failed to write line separator") [] with ⟨hnone, hput⟩ | ⟨n, hsome, hput⟩
    · exact .inl ⟨fun _ => hnone, hput⟩
    · refine .inr ⟨fun h => ?_, _, hput, List.take_prefix n [lineFeed]⟩
      rw [h.lineSeparator (by simp [hw])] at hsome
      cases hsome
  · have hw : writtenSeparator outcomes content = [] := if_neg hmissing
    rw [if_neg hmissing, hw]
    exact .inl ⟨fun h => absurd rfl h, rfl⟩

/-- The stream before the row is the separator, or the calls stop early with no
more than that. -/
theorem seekAppendPoint_cases (outcomes : StdioOutcomes) (content : Bytes) :
    (Prepares outcomes content ∧ seekAppendPoint outcomes content =
      .ok (writtenSeparator outcomes content,
        ((content ++ writtenSeparator outcomes content).length : Nat))) ∨
    (¬ Prepares outcomes content ∧ ∃ failure, seekAppendPoint outcomes content = .error failure ∧
      failure.stream <+: writtenSeparator outcomes content) := by
  unfold seekAppendPoint
  rcases inspectEnd_cases outcomes content with
    ⟨hinspect, hend, hsize, hlast, hback⟩ | ⟨hnot, failure, hinspect, hstream⟩
  · rw [hinspect]
    rcases putSeparator_cases outcomes content with
      ⟨hseparator, hput⟩ | ⟨hnot, failure, hput, hstream⟩
    · rw [hput]
      cases hoffset : outcomes.tellOffset with
      | false =>
        exact .inr ⟨fun h => by simp [h.tellOffset] at hoffset, _, rfl, List.prefix_refl _⟩
      | true =>
        refine .inl ⟨⟨hend, hsize, hlast, hback, hseparator, hoffset⟩, ?_⟩
        rw [List.length_append]
        rfl
    · rw [hput]
      exact .inr ⟨hnot, failure, rfl, hstream⟩
  · rw [hinspect]
    exact .inr ⟨hnot, failure, rfl, hstream ▸ List.nil_prefix⟩

end Point

section Rows

variable {files : DataFiles} {tableName content : Bytes}

/-- The visitor of `seenRows`. -/
def collect (seen : List (Nat × List Bytes)) (line : Nat × Bytes) :
    Except Bytes (List (Nat × List Bytes)) :=
  (csvParseLine line.2).bind fun fields => .ok (seen ++ [(line.1, fields)])

theorem seenRows_eq (hf : files tableName = some content) (hne : content ≠ []) (dataDir : Bytes) :
    seenRows dataDir files tableName = (dataLines content).foldlM collect [] :=
  scanRowsCsv_eq hf hne dataDir _ []

theorem seenRows_empty (hf : files tableName = some []) (dataDir : Bytes) :
    seenRows dataDir files tableName = .error (ascii "table data file is empty") := by
  simp [seenRows, scanRowsCsv, openTableFile, hf]

theorem collect_length {lines : List (Nat × Bytes)} {seen rows : List (Nat × List Bytes)}
    (h : lines.foldlM collect seen = .ok rows) : rows.length = seen.length + lines.length := by
  induction lines generalizing seen with
  | nil =>
    cases h
    rfl
  | cons line lines ih =>
    rw [List.foldlM_cons] at h
    obtain ⟨next, hline, hlines⟩ := except_bind_ok.mp h
    obtain ⟨fields, -, hnext⟩ := except_bind_ok.mp (show csvParseLine line.2 >>= _ = .ok next from hline)
    cases hnext
    rw [ih hlines, List.length_append, List.length_cons, List.length_cons, List.length_nil]
    omega

theorem csvScan_error {line message : Bytes} {s : CsvState} (h : csvScan line s = .error message) :
    message ≠ ascii "table data file is empty" := by
  fun_induction csvScan line s with
  | case1 | case9 =>
    cases h
    decide
  | case2 => cases h
  | _ =>
    rename_i ih
    exact ih h

theorem collect_error {lines : List (Nat × Bytes)} {seen : List (Nat × List Bytes)}
    {message : Bytes} (h : lines.foldlM collect seen = .error message) :
    message ≠ ascii "table data file is empty" := by
  induction lines generalizing seen with
  | nil => cases h
  | cons line lines ih =>
    rw [List.foldlM_cons, collect] at h
    cases hline : csvParseLine line.2 with
    | error message' =>
      rw [hline] at h
      cases h
      exact csvScan_error hline
    | ok fields =>
      rw [hline] at h
      exact ih h

/-- A byte that a line starts with so that it is no blank line. -/
def Visible (b : UInt8) : Prop := b ≠ nul ∧ isLineEnding b = false

theorem escape_head (value : Bytes) : ∀ b ∈ (csvEscapeField value).head?, Visible b := by
  have hquote : Visible quote := ⟨by decide, rfl⟩
  intro b hb
  unfold csvEscapeField at hb
  dsimp only at hb
  split_ifs at hb with hempty hquotes
  · cases hb
    exact hquote
  · cases hb
    exact hquote
  · have hmem : b ∈ cString value := List.mem_of_mem_head? hb
    refine ⟨fun h => cString_no_nul value (h ▸ hmem), ?_⟩
    simp only [needsQuotes, List.any_eq_true, not_exists, not_and, Bool.not_eq_true] at hquotes
    have := hquotes b hmem
    simp only [Bool.or_eq_false_iff] at this
    exact this.2

theorem encodeRow_head (rowValues : List Bytes) : ∀ b ∈ (encodeRow rowValues).head?, Visible b := by
  cases rowValues with
  | nil => simp [encodeRow]
  | cons value rest =>
    rw [← rowBytes_zero, rowBytes, fieldBytes, if_neg (Nat.lt_irrefl 0), List.nil_append,
      List.head?_append_of_ne_nil _ (escape_ne_nil value)]
    exact escape_head value

/-- What starts with a visible byte is read as at least one data line. -/
theorem reads_visible {b : UInt8} (hb : Visible b) (rest : Bytes) (offset : Nat) :
    (fgetsAll lineRoom offset (b :: rest)).filterMap dataLine ≠ [] := by
  obtain ⟨room, hroom⟩ : ∃ room, lineRoom = room + 1 := ⟨lineRoom - 1, rfl⟩
  obtain ⟨line, hline⟩ : ∃ line, fgets lineRoom (b :: rest) = b :: line := by
    rw [hroom, fgets]
    split
    · exact ⟨[], rfl⟩
    · exact ⟨_, rfl⟩
  have hstrip : stripLineEndings (b :: line) ≠ [] := by
    intro h
    rw [stripLineEndings, List.rdropWhile_eq_nil_iff] at h
    have hmem : b ∈ cString (b :: line) := by
      rw [cString, List.takeWhile_cons, if_pos (by simpa using hb.1)]
      exact List.mem_cons_self
    have hending := h b hmem
    rw [hb.2] at hending
    cases hending
  rw [fgetsAll_step lineRoom_pos (List.cons_ne_nil b rest), hline]
  have hline' : dataLine (offset, b :: line) = some (offset, stripLineEndings (b :: line)) :=
    if_neg hstrip
  rw [List.filterMap_cons_some hline']
  exact List.cons_ne_nil _ _

variable {outcomes : StdioOutcomes} {dataDir : Bytes}

/-- The file with something put behind it. -/
def extended (files : DataFiles) (tableName content more : Bytes) : DataFiles :=
  Function.update files tableName (some (content ++ more))

theorem extended_file (more : Bytes) :
    extended files tableName content more tableName = some (content ++ more) := by
  simp [extended]

theorem dataLines_written :
    dataLines (content ++ writtenSeparator outcomes content) = dataLines content := by
  rcases written_cases outcomes content with ⟨hsep, -⟩ | ⟨hsep, -⟩
  · rw [hsep, List.append_nil]
  · rw [hsep]
    exact fgetsAll_newline_tail lineRoom_pos dataLine_blank dataLine_newline 0 content

/-- The separator alone changes nothing that is seen. -/
theorem seen_separator (hf : files tableName = some content) {more : Bytes}
    (hmore : more <+: writtenSeparator outcomes content) :
    seenRows dataDir (extended files tableName content more) tableName =
      seenRows dataDir files tableName := by
  by_cases hnil : more = []
  · rw [extended, hnil, List.append_nil, ← hf, Function.update_eq_self]
  · rcases written_cases outcomes content with ⟨hsep, -⟩ | ⟨hsep, hne⟩
    · rw [hsep] at hmore
      exact absurd (List.prefix_nil.mp hmore) hnil
    · have hall : more = writtenSeparator outcomes content := by
        rw [hsep] at hmore ⊢
        obtain ⟨rest, rfl, hrest⟩ := (List.prefix_cons_iff.mp hmore).resolve_left hnil
        rw [List.prefix_nil.mp hrest]
      rw [seenRows_eq (extended_file more) (by simp [hne]), seenRows_eq hf hne, hall,
        dataLines_written]

theorem dataLines_part (hne : content ≠ []) (part : Bytes) :
    ∃ lines, dataLines (content ++ (writtenSeparator outcomes content ++ part)) =
      dataLines content ++ lines ∧ ((∃ b ∈ part.head?, Visible b) → lines ≠ []) := by
  rw [← List.append_assoc,
    dataLines_append (by simp [hne]) (written_ends outcomes content), dataLines_written]
  refine ⟨_, rfl, ?_⟩
  rintro ⟨b, hb, hvisible⟩
  obtain ⟨rest, rfl⟩ := List.head?_eq_some_iff.mp hb
  exact reads_visible hvisible rest _

/-- Behind a line that does not parse nothing is seen. -/
theorem seen_broken (hf : files tableName = some content) (hne : content ≠ [])
    {message : Bytes} (hbroken : seenRows dataDir files tableName = .error message)
    (part : Bytes) :
    seenRows dataDir
      (extended files tableName content (writtenSeparator outcomes content ++ part)) tableName =
        .error message := by
  obtain ⟨lines, hlines, -⟩ := @dataLines_part content outcomes hne part
  rw [seenRows_eq hf hne] at hbroken
  rw [seenRows_eq (extended_file _) (by simp [hne]), hlines, List.foldlM_append, hbroken]
  rfl

/-- A part of a row that is behind an intact table shows. -/
theorem seen_part (hf : files tableName = some content) {part : Bytes}
    (hpart : ∃ b ∈ part.head?, Visible b)
    (hold : ¬ (content ≠ [] ∧ ∃ message, seenRows dataDir files tableName = .error message)) :
    seenRows dataDir
      (extended files tableName content (writtenSeparator outcomes content ++ part)) tableName ≠
        seenRows dataDir files tableName := by
  have hnonempty : content ++ (writtenSeparator outcomes content ++ part) ≠ [] := by
    obtain ⟨b, hb, -⟩ := hpart
    obtain ⟨rest, rfl⟩ := List.head?_eq_some_iff.mp hb
    simp
  rw [seenRows_eq (extended_file _) hnonempty]
  by_cases hne : content = []
  · subst hne
    rw [seenRows_empty hf]
    intro h
    exact collect_error h rfl
  · obtain ⟨lines, hlines, hsome⟩ := @dataLines_part content outcomes hne part
    cases hseen : seenRows dataDir files tableName with
    | error message => exact absurd ⟨hne, message, hseen⟩ hold
    | ok rows =>
      rw [seenRows_eq hf hne] at hseen
      rw [hlines, List.foldlM_append, hseen]
      intro h
      have hlength := collect_length (show lines.foldlM collect rows = .ok rows from h)
      have := List.length_pos_of_ne_nil (hsome hpart)
      omega

end Rows

section Append

variable {outcomes : StdioOutcomes} {content : Bytes} {rowValues : List Bytes}

theorem putRow_cases (outcomes : StdioOutcomes) (content : Bytes) (rowValues : List Bytes) :
    (Prepares outcomes content ∧
      (∀ index < rowValues.length, FieldOutcomes.Succeed (outcomes.fields index) index) ∧
      putRow outcomes content rowValues =
        .ok (writtenSeparator outcomes content ++ encodeRow rowValues,
          ((content ++ writtenSeparator outcomes content).length : Nat))) ∨
    (¬ (Prepares outcomes content ∧
        ∀ index < rowValues.length, FieldOutcomes.Succeed (outcomes.fields index) index) ∧
      ∃ failure part, putRow outcomes content rowValues = .error failure ∧
        failure.stream <+: writtenSeparator outcomes content ++ part ∧
        part <+: encodeRow rowValues ∧
        (part = [] ↔ ¬ Prepares outcomes content ∨ ¬ StartsRow outcomes) ∧
        (part ≠ [] → failure.stream = writtenSeparator outcomes content ++ part)) := by
  unfold putRow
  rcases seekAppendPoint_cases outcomes content with
    ⟨hprepares, hseek⟩ | ⟨hnot, failure, hseek, hstream⟩
  · rw [hseek]
    change (_ ∧ _ ∧ (putFields outcomes.fields _ 0 rowValues _ >>= _) = _) ∨
      (_ ∧ ∃ failure part, (putFields outcomes.fields _ 0 rowValues _ >>= _) = .error failure ∧ _)
    rcases @putFields_cases ((content ++ writtenSeparator outcomes content).length : Nat)
      outcomes.fields 0 rowValues (writtenSeparator outcomes content) with
      ⟨hall, hput⟩ | ⟨hnot, failure, part, hput, hstream, hpart⟩
    · rw [hput, rowBytes_zero]
      refine .inl ⟨hprepares, fun index hi => ?_, rfl⟩
      have := hall index hi
      rwa [Nat.zero_add] at this
    · rw [hput]
      rw [rowBytes_zero] at hpart
      refine .inr ⟨fun h => hnot fun i hi => ?_, failure, part, rfl, ?_, hpart, ?_, fun _ => hstream⟩
      · rw [Nat.zero_add]
        exact h.2 i hi
      · rw [hstream]
      · rw [putFields_start hput hstream]
        simp [hprepares, StartsRow]
  · rw [hseek]
    refine .inr ⟨fun h => hnot h.1, failure, [], rfl, ?_, List.nil_prefix, ?_, fun h => absurd rfl h⟩
    · rwa [List.append_nil]
    · simp [hnot]

theorem flush_front (outcomes : StdioOutcomes) (stream : Bytes) :
    outcomes.flush stream <+: stream := by
  unfold StdioOutcomes.flush
  cases outcomes.fclose with
  | none => exact List.prefix_refl stream
  | some n => exact List.take_prefix n stream

theorem flush_all {stream : Bytes} :
    outcomes.flush stream = stream ↔ ∀ n ∈ outcomes.fclose, stream.length ≤ n := by
  unfold StdioOutcomes.flush
  cases outcomes.fclose with
  | none => simp
  | some n => simp

/-- A close that leaves more than the separator leaves some of the row. -/
theorem flush_part {part : Bytes} (hpart : part ≠ [])
    (h : ¬ ∃ n ∈ outcomes.fclose, n ≤ (writtenSeparator outcomes content).length) :
    ∃ kept, outcomes.flush (writtenSeparator outcomes content ++ part) =
      writtenSeparator outcomes content ++ kept ∧ kept <+: part ∧ kept ≠ [] := by
  unfold StdioOutcomes.flush
  cases hclose : outcomes.fclose with
  | none => exact ⟨part, rfl, List.prefix_refl part, hpart⟩
  | some n =>
    have hn : (writtenSeparator outcomes content).length < n :=
      not_le.mp fun hle => h ⟨n, hclose, hle⟩
    refine ⟨part.take (n - (writtenSeparator outcomes content).length), ?_, List.take_prefix _ _, ?_⟩
    · dsimp only
      rw [List.take_append, List.take_of_length_le hn.le]
    · rw [ne_eq, List.take_eq_nil_iff]
      rintro (hzero | hnil)
      · omega
      · exact hpart hnil

theorem flush_separator {part : Bytes}
    (h : ∃ n ∈ outcomes.fclose, n ≤ (writtenSeparator outcomes content).length) :
    outcomes.flush (writtenSeparator outcomes content ++ part) <+:
      writtenSeparator outcomes content := by
  obtain ⟨n, hclose, hn⟩ := h
  have hflush : outcomes.flush (writtenSeparator outcomes content ++ part) =
      (writtenSeparator outcomes content ++ part).take n := by
    rw [StdioOutcomes.flush, Option.mem_def.mp hclose]
  rw [hflush, List.take_append_of_le_length hn]
  exact List.take_prefix _ _

variable {files : DataFiles} {tableName dataDir : Bytes}

theorem append_opened (hf : files tableName = some content) (hopen : outcomes.fopen = none) :
    (∀ stream rowOffset, putRow outcomes content rowValues = .ok (stream, rowOffset) →
      appendRowCsv outcomes dataDir files tableName rowValues =
        ({ ok := true, affectedRows := 1, rowOffset, message := ascii "INSERT 1" },
          extended files tableName content (outcomes.flush stream))) ∧
    ∀ failure, putRow outcomes content rowValues = .error failure →
      appendRowCsv outcomes dataDir files tableName rowValues =
        ({ ok := false, affectedRows := 0, rowOffset := failure.rowOffset, message := failure.message },
          extended files tableName content (outcomes.flush failure.stream)) := by
  constructor
  · intro stream rowOffset h
    simp only [appendRowCsv, openTableFile, hf, hopen, h, extended]
  · intro failure h
    simp only [appendRowCsv, openTableFile, hf, hopen, h, extended]

/-- A row that every call has put is there exactly when the separator is right and
the close leaves all of it. -/
theorem success_iff :
    (extended files tableName content
        (outcomes.flush (writtenSeparator outcomes content ++ encodeRow rowValues)) tableName =
      some (content ++ separatorAfter content ++ encodeRow rowValues) ∧
      (((content ++ writtenSeparator outcomes content).length : Nat) : Int) =
        (content ++ separatorAfter content).length) ↔
    (outcomes.getLast = true ∨ content.getLast? ≠ some lineFeed) ∧
      ∀ n ∈ outcomes.fclose, (separatorAfter content ++ encodeRow rowValues).length ≤ n := by
  rw [extended_file, List.length_append, List.length_append, Nat.cast_inj, Nat.add_right_inj,
    written_length_iff, and_comm]
  apply and_congr_right
  intro hseparator
  rw [written_eq hseparator, Option.some_inj, List.append_assoc, List.append_cancel_left_eq,
    flush_all]

/-- A failed append leaves what is seen exactly when no byte of the row gets into
an intact table. -/
theorem failure_iff (hf : files tableName = some content) {stream part : Bytes}
    (hstream : stream <+: writtenSeparator outcomes content ++ part)
    (hpart : part <+: encodeRow rowValues)
    (hnil : part = [] ↔ ¬ Prepares outcomes content ∨ ¬ StartsRow outcomes)
    (hall : part ≠ [] → stream = writtenSeparator outcomes content ++ part) :
    seenRows dataDir (extended files tableName content (outcomes.flush stream)) tableName =
      seenRows dataDir files tableName ↔
    ¬ Prepares outcomes content ∨ ¬ StartsRow outcomes ∨
      (∃ n ∈ outcomes.fclose, n ≤ (writtenSeparator outcomes content).length) ∨
      (content ≠ [] ∧ ∃ message, seenRows dataDir files tableName = .error message) := by
  rw [← or_assoc, ← hnil]
  by_cases hempty : part = []
  · rw [hempty, List.append_nil] at hstream
    simp only [hempty, true_or, iff_true]
    exact seen_separator hf ((flush_front outcomes stream).trans hstream)
  · rw [hall hempty, or_iff_right hempty]
    by_cases hcut : ∃ n ∈ outcomes.fclose, n ≤ (writtenSeparator outcomes content).length
    · simp only [hcut, true_or, iff_true]
      exact seen_separator hf (flush_separator hcut)
    · obtain ⟨kept, hflush, hkept, hne⟩ := flush_part hempty hcut
      rw [or_iff_right hcut, hflush]
      constructor
      · intro hsame
        by_contra hold
        refine seen_part hf ?_ hold hsame
        obtain ⟨b, rest, hb⟩ := List.exists_cons_of_ne_nil hne
        refine ⟨b, by rw [hb]; rfl, ?_⟩
        obtain ⟨more, hmore⟩ := hkept.trans hpart
        apply encodeRow_head rowValues
        rw [← hmore, hb]
        rfl
      · rintro ⟨hne, message, hbroken⟩
        rw [seen_broken hf hne hbroken, hbroken]

/-- An append is all or nothing exactly under the condition on its calls. -/
theorem append_whole_iff (hf : files tableName = some content) :
    AllOrNothing dataDir files tableName content rowValues
        (appendRowCsv outcomes dataDir files tableName rowValues) ↔
      Whole dataDir files tableName content rowValues outcomes := by
  cases hopen : outcomes.fopen with
  | some reason =>
    have hrun : appendRowCsv outcomes dataDir files tableName rowValues =
        ({ ok := false, affectedRows := 0, rowOffset := -1
           message := formatSystemError (ascii "failed to open table file")
             (csvPath dataDir tableName) reason }, files) := by
      simp only [appendRowCsv, openTableFile, hf, hopen]
    rw [hrun]
    constructor
    · intro _
      refine ⟨fun h => ?_, fun _ => .inl (by simp [hopen])⟩
      rw [h.1] at hopen
      cases hopen
    · intro _
      exact ⟨(fun h => by cases h), fun _ => rfl⟩
  | none =>
    obtain ⟨hok, herror⟩ := @append_opened outcomes content rowValues files tableName dataDir hf hopen
    rcases putRow_cases outcomes content rowValues with
      ⟨hprepares, hfields, hput⟩ | ⟨hnot, failure, part, hput, hstream, hpart, hnil, hall⟩
    · rw [hok _ _ hput]
      have hsucceeds : Succeeds outcomes content rowValues := ⟨hopen, hprepares, hfields⟩
      constructor
      · rintro ⟨hlaw, -⟩
        exact ⟨fun _ => success_iff.mp (hlaw rfl), fun h => absurd hsucceeds h⟩
      · rintro ⟨hsuccess, -⟩
        exact ⟨fun _ => success_iff.mpr (hsuccess hsucceeds), fun h => by cases h⟩
    · rw [herror _ hput]
      have hfails : ¬ Succeeds outcomes content rowValues := fun h => hnot h.2
      have hiff := @failure_iff outcomes content rowValues files tableName dataDir hf failure.stream
        part hstream hpart hnil hall
      constructor
      · rintro ⟨-, hlaw⟩
        exact ⟨fun h => absurd h hfails, fun _ => .inr (hiff.mp (hlaw rfl))⟩
      · rintro ⟨-, hfailure⟩
        refine ⟨(fun h => by cases h), fun _ => hiff.mpr ?_⟩
        exact (hfailure hfails).resolve_left (by simp [hopen])

/-- No call fails. -/
def soundOutcomes : StdioOutcomes where
  fopen := none
  seekEnd := true
  tellSize := true
  seekLast := true
  getLast := true
  seekBack := true
  lineSeparator := none
  tellOffset := true
  fields := fun _ => { escape := true, separator := none, text := none }
  fclose := none

theorem sound_succeeds (content : Bytes) (rowValues : List Bytes) :
    Succeeds soundOutcomes content rowValues :=
  ⟨rfl, ⟨rfl, rfl, fun _ => rfl, fun _ => rfl, fun _ => rfl, rfl⟩,
    fun _ _ => ⟨rfl, fun _ => rfl, rfl⟩⟩

theorem sound_whole (files : DataFiles) :
    Whole dataDir files tableName content rowValues soundOutcomes :=
  ⟨fun _ => ⟨.inl rfl, fun _ h => by cases h⟩, fun h => absurd (sound_succeeds _ _) h⟩

/-- Where no call fails, the append is the one the executor is modelled with. -/
theorem sound_append (hf : files tableName = some content) :
    appendRowCsv soundOutcomes dataDir files tableName rowValues =
      ({ ok := true, affectedRows := 1, rowOffset := (TableFile.rowOffset content : Nat)
         message := ascii "INSERT 1" },
        writeRow files tableName
          ⟨content.length, separatorAfter content, TableFile.rowOffset content⟩ rowValues) := by
  obtain ⟨-, hprepares, hfields⟩ := sound_succeeds content rowValues
  rcases putRow_cases soundOutcomes content rowValues with ⟨-, -, hput⟩ | ⟨hnot, -⟩
  · rw [(append_opened hf rfl).1 _ _ hput, written_eq (.inl rfl), writeRow_eq hf,
      List.length_append, extended, appendRow, List.append_assoc]
    rfl
  · exact absurd ⟨hprepares, hfields⟩ hnot

theorem append_whole_iff_sound :
    AllOrNothing (ascii "data") (FullScan.usersFiles (ascii "name,age")) (ascii "users")
      (ascii "name,age") [ascii "Bob", ascii "21"]
      (appendRowCsv soundOutcomes (ascii "data") (FullScan.usersFiles (ascii "name,age"))
        (ascii "users") [ascii "Bob", ascii "21"]) :=
  have hfile : FullScan.usersFiles (ascii "name,age") (ascii "users") = some (ascii "name,age") :=
    rfl
  (append_whole_iff hfile).mpr (sound_whole _)

/-- The write of the second field fails. -/
def secondFieldFails : StdioOutcomes :=
  { soundOutcomes with
    fields := fun index =>
      { escape := true, separator := none, text := if index = 1 then some 0 else none } }

/-- A failed append leaves half a row in the file, which is then read as a row. -/
theorem half_row_remains : ¬ ∀ (outcomes : StdioOutcomes) (dataDir : Bytes) (files : DataFiles)
    (tableName content : Bytes) (rowValues : List Bytes), files tableName = some content →
    AllOrNothing dataDir files tableName content rowValues
      (appendRowCsv outcomes dataDir files tableName rowValues) := by
  intro h
  have hlaw := h secondFieldFails (ascii "data") (FullScan.usersFiles (ascii "name,age\n"))
    (ascii "users") (ascii "name,age\n") [ascii "Bob", ascii "21"] rfl
  have hseen := hlaw.2 rfl
  revert hseen
  decide +kernel

end Append

end DbApi.Proofs.AppendOutcome
