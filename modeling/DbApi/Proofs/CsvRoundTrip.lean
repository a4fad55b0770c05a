import DbApi.Storage.Csv

namespace DbApi.Proofs.CsvRoundTrip
open Library Common Storage

/-- What reading back makes of a field that was written. -/
def readBack (value : Bytes) : Bytes :=
  if needsQuotes value then value else trimWhitespace value

/-- The text after a field: a comma, or nothing at the end of the line. -/
def EndsField (rest : Bytes) : Prop := ∀ b ∈ rest.head?, b = comma

/-- The scan from the end of a field on, with the fields pushed so far. -/
def afterField (fields : List Bytes) : Bytes → Except Bytes (List Bytes)
  | [] => .ok fields
  | _ :: rest => csvScan rest (.start fields)

theorem EndsField.no_quote {rest : Bytes} (hr : EndsField rest) : quote ∉ rest.head? := by
  intro hq
  have := hr quote hq
  contradiction

theorem scan_endsField {rest : Bytes} (hr : EndsField rest) {s : CsvState}
    (hs : s.inQuotes = false) : csvScan rest s = afterField s.endField.fields rest := by
  cases rest with
  | nil => simp [csvScan, afterField, hs]
  | cons b rest =>
    obtain rfl := hr b rfl
    simp [csvScan_unquoted hs, afterField, CsvState.endField, CsvState.start]

/-- A quoted body is read up to the closing quote. -/
theorem scan_quoted {rest : Bytes} (hr : EndsField rest) (body : Bytes) {s : CsvState}
    (hs : s.inQuotes = true) :
    csvScan (doubleQuotes body ++ quote :: rest) s =
      afterField (s.fields ++ [s.buffer.getD [] ++ body]) rest := by
  induction body generalizing s with
  | nil =>
    have hclose := csvScan_closingQuote hs hr.no_quote
    rw [scan_endsField hr rfl] at hclose
    simpa [doubleQuotes, CsvState.endField, CsvState.start] using hclose
  | cons b body ih =>
    have hstep : csvScan (doubleQuotes (b :: body) ++ quote :: rest) s =
        csvScan (doubleQuotes body ++ quote :: rest) (s.appendCharacter b) := by
      by_cases hb : b = quote
      · subst hb
        simpa [doubleQuotes] using csvScan_escapedQuote hs _
      · simpa [doubleQuotes, hb] using csvScan_inQuotes hs hb _
    rw [hstep, ih (s := s.appendCharacter b) hs]
    simp [CsvState.appendCharacter]

/-- An unquoted field is read byte by byte and trimmed. -/
theorem scan_plain {rest : Bytes} (hr : EndsField rest) {value : Bytes}
    (hv : needsQuotes value = false) {s : CsvState} (hs : s.inQuotes = false)
    (hc : s.justClosedQuote = false) :
    csvScan (value ++ rest) s =
      afterField (s.fields ++ [trimWhitespace (s.buffer.getD [] ++ value)]) rest := by
  induction value generalizing s with
  | nil => simpa [CsvState.endField, CsvState.start, hc] using scan_endsField hr hs
  | cons b value ih =>
    simp only [needsQuotes, List.any_cons, Bool.or_eq_false_iff, beq_eq_false_iff_ne] at hv
    obtain ⟨⟨⟨hq, hcomma⟩, hline⟩, hrest⟩ := hv
    have hstep : csvScan (b :: (value ++ rest)) s =
        csvScan (value ++ rest) (s.appendCharacter b) := by
      simp [csvScan_unquoted hs, hq, hcomma, hc, hline]
    rw [List.cons_append, hstep, ih hrest (s := s.appendCharacter b) hs hc]
    simp [CsvState.appendCharacter]

/-- One written field is read as its `readBack`. -/
theorem scan_escaped {rest : Bytes} (hr : EndsField rest) {value : Bytes} (hn : nul ∉ value)
    (fields : List Bytes) :
    csvScan (csvEscapeField value ++ rest) (.start fields) =
      afterField (fields ++ [readBack value]) rest := by
  have hopen (body : Bytes) : csvScan (quote :: body) (.start fields) =
      csvScan body { CsvState.start fields with inQuotes := true } := by
    rw [csvScan_unquoted rfl]
    simp [CsvState.start, quote, comma]
  rw [csvEscapeField, cString_of_no_nul hn, readBack]
  split
  · rename_i he
    subst he
    have hempty := scan_quoted hr [] (s := { CsvState.start fields with inQuotes := true }) rfl
    rw [show [quote, quote] ++ rest = quote :: quote :: rest from rfl, hopen]
    simpa [doubleQuotes, CsvState.start, needsQuotes, trimWhitespace, trimBoth] using hempty
  · cases hv : needsQuotes value with
    | true =>
      have hbody := scan_quoted hr value (s := { CsvState.start fields with inQuotes := true }) rfl
      have hshape : quote :: doubleQuotes value ++ [quote] ++ rest =
          quote :: (doubleQuotes value ++ quote :: rest) := by simp
      rw [if_pos rfl, hshape, hopen, hbody]
      rfl
    | false =>
      simpa [CsvState.start] using scan_plain hr hv (s := .start fields) rfl rfl

/-- Reading a written row back gives every field as its `readBack`. -/
theorem scan_encodeRow {rowValues : List Bytes} (hn : ∀ v ∈ rowValues, nul ∉ v)
    (hne : rowValues ≠ []) (fields : List Bytes) :
    csvScan (encodeRow rowValues) (.start fields) = .ok (fields ++ rowValues.map readBack) := by
  induction rowValues generalizing fields with
  | nil => contradiction
  | cons value rest ih =>
    have hvalue : nul ∉ value := hn value (by simp)
    cases rest with
    | nil =>
      have hend : EndsField [] := by simp [EndsField]
      simpa [encodeRow, afterField] using scan_escaped hend hvalue fields
    | cons next rest =>
      have htail := ih (fun v hv => hn v (by simp [hv])) (by simp) (fields ++ [readBack value])
      rw [encodeRow, scan_escaped (by simp [EndsField]) hvalue, afterField, htail]
      simp

theorem mem_escape {b : UInt8} {value : Bytes} (hb : b ∈ csvEscapeField value) :
    b = quote ∨ b ∈ cString value := by
  rw [csvEscapeField] at hb
  split at hb
  · left
    simpa using hb
  · split at hb
    · simp only [doubleQuotes, List.cons_append, List.mem_cons, List.mem_append,
        List.mem_flatMap, List.not_mem_nil, or_false] at hb
      rcases hb with hb | ⟨c, hc, hb⟩ | hb
      · exact .inl hb
      · split at hb
        · left
          simpa using hb
        · right
          simp only [List.mem_singleton] at hb
          exact hb ▸ hc
      · exact .inl hb
    · exact .inr hb

theorem mem_encodeRow {b : UInt8} {rowValues : List Bytes} (hb : b ∈ encodeRow rowValues) :
    b = quote ∨ b = comma ∨ ∃ v ∈ rowValues, b ∈ cString v := by
  induction rowValues with
  | nil => contradiction
  | cons value rest ih =>
    have hvalue : b ∈ csvEscapeField value →
        b = quote ∨ b = comma ∨ ∃ v ∈ value :: rest, b ∈ cString v := by
      intro hb
      rcases mem_escape hb with h | h
      · exact .inl h
      · exact .inr (.inr ⟨value, by simp, h⟩)
    cases rest with
    | nil => exact hvalue hb
    | cons next rest =>
      rw [encodeRow, List.mem_append, List.mem_cons] at hb
      rcases hb with hb | hb | hb
      · exact hvalue hb
      · exact .inr (.inl hb)
      · rcases ih hb with h | h | ⟨v, hv, h⟩
        · exact .inl h
        · exact .inr (.inl h)
        · exact .inr (.inr ⟨v, by simp [hv], h⟩)

theorem encodeRow_no_nul (rowValues : List Bytes) : nul ∉ encodeRow rowValues := by
  intro hb
  rcases mem_encodeRow hb with h | h | ⟨v, _, h⟩
  · contradiction
  · contradiction
  · exact cString_no_nul v h

/-- A written row reads back whole, with unquoted fields trimmed. -/
theorem parse_encodeRow {rowValues : List Bytes} (hne : rowValues ≠ [])
    (hn : ∀ v ∈ rowValues, nul ∉ v) :
    csvParseLine (encodeRow rowValues) = .ok (rowValues.map readBack) := by
  rw [csvParseLine, cString_of_no_nul (encodeRow_no_nul rowValues), scan_encodeRow hn hne]
  simp

theorem readBack_eq_self {value : Bytes} (hr : carriageReturn ∉ value) (hl : lineFeed ∉ value) :
    readBack value = value ↔ (quote ∉ value → comma ∉ value →
      (∀ b ∈ value.head?, isSpace b = false) ∧ ∀ b ∈ value.getLast?, isSpace b = false) := by
  have hq : needsQuotes value = false ↔ quote ∉ value ∧ comma ∉ value := by
    simp only [needsQuotes, isLineEnding, List.any_eq_false, Bool.or_eq_true, beq_iff_eq]
    constructor
    · intro h
      exact ⟨fun hm => h _ hm (by simp), fun hm => h _ hm (by simp)⟩
    · rintro ⟨h1, h2⟩ b hb ((rfl | rfl) | rfl | rfl)
      · exact h1 hb
      · exact h2 hb
      · exact hl hb
      · exact hr hb
  rw [readBack]
  cases hv : needsQuotes value with
  | true =>
    simp only [↓reduceIte, true_iff]
    intro h1 h2
    rw [hq.mpr ⟨h1, h2⟩] at hv
    contradiction
  | false =>
    obtain ⟨h1, h2⟩ := hq.mp hv
    simp only [Bool.false_eq_true, ↓reduceIte, trimWhitespace, trimBoth_eq_self]
    exact ⟨fun h _ _ => h, fun h => h h1 h2⟩

/-- Decoding undoes encoding exactly for the rows whose fields, where no quote
or comma forces quoting, neither start nor end with a blank. -/
theorem decode_encode_iff (rowValues : List Bytes) (hne : rowValues ≠ [])
    (hn : ∀ v ∈ rowValues, nul ∉ v ∧ carriageReturn ∉ v ∧ lineFeed ∉ v) :
    csvParseLine (encodeRow rowValues) = .ok rowValues ↔
      ∀ v ∈ rowValues, quote ∉ v → comma ∉ v →
        (∀ b ∈ v.head?, isSpace b = false) ∧ ∀ b ∈ v.getLast?, isSpace b = false := by
  have hself : rowValues.map readBack = rowValues ↔ ∀ v ∈ rowValues, readBack v = v := by
    constructor
    · intro h v hv
      exact List.map_inj_left.mp (h.trans (List.map_id rowValues).symm) v hv
    · intro h
      exact (List.map_congr_left h).trans (List.map_id rowValues)
  rw [parse_encodeRow hne (fun v hv => (hn v hv).1), Except.ok.injEq, hself]
  exact forall₂_congr fun v hv => readBack_eq_self (hn v hv).2.1 (hn v hv).2.2

theorem decode_encode_iff_comma : csvParseLine (encodeRow [ascii " a,", ascii "b"]) =
    .ok [ascii " a,", ascii "b"] :=
  (decode_encode_iff [ascii " a,", ascii "b"] (by simp) (by decide +kernel)).mpr (by decide +kernel)

/-- A leading blank is lost. -/
theorem decode_encode_blank : ¬ ∀ rowValues : List Bytes, rowValues ≠ [] →
    (∀ v ∈ rowValues, nul ∉ v ∧ carriageReturn ∉ v ∧ lineFeed ∉ v) →
    csvParseLine (encodeRow rowValues) = .ok rowValues := by
  intro h
  have hblank := h [ascii " a"] (by simp) (by decide +kernel)
  revert hblank
  decide

end DbApi.Proofs.CsvRoundTrip
