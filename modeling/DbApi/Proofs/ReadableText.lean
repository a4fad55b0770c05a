import DbApi.Library.Except
import DbApi.Library.Utf8
import DbApi.Proofs.IndexCoherence
import DbApi.Proofs.SqlLossless

namespace DbApi.Proofs.ReadableText
open Library Common Storage Sql Lines TableFile IndexCoherence SqlLossless

def AllUtf8 (texts : List Bytes) : Prop := ∀ text ∈ texts, Utf8 text

def Spelled (tokens : List Token) : Prop := ∀ token ∈ tokens, Utf8 token.text

section Lexing

theorem space_ascii {b : UInt8} (h : isSpace b = true) : b < 128 := by
  revert b
  decide +kernel

theorem continue_ascii : ∀ b, isIdentifierContinue b = false → b < 128 := by decide +kernel

theorem symbol_ascii {b : UInt8} {type : TokenType} (h : symbolType b = some type) : b < 128 := by
  unfold symbolType at h
  split_ifs at h with h1 h2 h3 h4 h5 h6 <;> subst b <;> decide

theorem utf8_doubled (value : Bytes) : Utf8 (doubled value) ↔ Utf8 value := by
  apply utf8_flatMap_iff
  · intro b hb
    split
    · exact ⟨List.cons_ne_nil _ _, by simp [Ascii, apostrophe]⟩
    · exact ⟨List.cons_ne_nil _ _, by simpa [Ascii] using hb⟩
  · intro b hb
    rw [if_neg]
    rintro rfl
    exact hb (by decide)

/-- A literal and what stands behind it. -/
theorem scan_utf8 {input : Bytes} (h : Utf8 input) (last : UInt8) :
    Utf8 (scanString last [] input).buffer ∧ Utf8 (scanString last [] input).rest := by
  obtain ⟨value, hbuffer, hinput⟩ := scan_cases last [] input
  rw [hbuffer, List.nil_append]
  rcases hinput with hclosed | ⟨hopen, hrest⟩
  · rw [hclosed, utf8_around (by decide), utf8_doubled] at h
    exact h
  · rw [hopen, utf8_doubled] at h
    rw [hrest]
    exact ⟨h, utf8_nil⟩

theorem lexFrom_utf8 (position : Nat) (input : Bytes) (h : Utf8 input) :
    EndsWith Ascii Spelled (lexFrom position input) := by
  have hcons : ∀ {token : Token} {lexed : Except Bytes (List Token)}, Utf8 token.text →
      EndsWith Ascii Spelled lexed → EndsWith Ascii Spelled (lexed.map (token :: ·)) :=
    fun htoken hlexed => hlexed.map fun _ htokens => List.forall_mem_cons.mpr ⟨htoken, htokens⟩
  fun_induction lexFrom position input with
  | case1 position =>
    intro token htoken
    rw [List.mem_singleton.mp htoken]
    exact utf8_nil
  | case2 position current rest hs ih => exact ih ((utf8_cons (space_ascii hs) rest).mp h)
  | case3 position current rest hs hi word ih =>
    obtain ⟨hword, hrest⟩ := h.span continue_ascii
    rw [isIdentifierStart_eq] at hi
    rw [List.takeWhile_cons_of_pos hi] at hword
    rw [List.dropWhile_cons_of_pos hi] at hrest
    exact hcons hword (ih hrest)
  | case4 position rest hs hi scan hl =>
    exact (ascii_literal _ rfl).append (ascii_decimalNat position)
  | case5 position rest hs hi scan hl ih =>
    obtain ⟨hbuffer, hrest⟩ := scan_utf8 ((utf8_cons (by decide) rest).mp h) apostrophe
    exact hcons hbuffer (ih hrest)
  | case6 position current rest hs hi ha type ht ih =>
    have hcurrent := symbol_ascii ht
    exact hcons (utf8_byte hcurrent) (ih ((utf8_cons hcurrent rest).mp h))
  | case7 position current rest hs hi ha ht =>
    have hcurrent : current < 128 := by
      rw [isIdentifierStart_eq] at hi
      exact continue_ascii current (by simpa using hi)
    have hbyte : Ascii [current] := by simpa [Ascii] using hcurrent
    exact (((ascii_literal _ rfl).append hbyte).append (ascii_literal _ rfl)).append
      (ascii_decimalNat position)

end Lexing

section Csv

theorem trim_utf8 {text : Bytes} (h : Utf8 text) : Utf8 (trimWhitespace text) :=
  h.trimBoth fun _ hb => space_ascii hb

theorem endField_utf8 {s : CsvState} (hbuffer : Utf8 (s.buffer.getD [])) (hfields : AllUtf8 s.fields) :
    AllUtf8 s.endField.fields := by
  intro field hfield
  rcases List.mem_append.mp hfield with hfield | hfield
  · exact hfields field hfield
  · rw [List.mem_singleton.mp hfield]
    split
    · exact hbuffer
    · exact trim_utf8 hbuffer

theorem utf8_skip {front rest : Bytes} {b : UInt8} (hb : b < 128) (h : Utf8 (front ++ b :: rest)) :
    Utf8 (front ++ rest) := by
  rw [utf8_around hb] at h
  exact h.1.append h.2

theorem append_buffer (s : CsvState) (b : UInt8) (rest : Bytes) :
    (s.appendCharacter b).buffer.getD [] ++ rest = s.buffer.getD [] ++ b :: rest := by
  simp [CsvState.appendCharacter]

/-- The buffer and the rest of the line spell characters together. -/
theorem csvScan_utf8 (line : Bytes) (s : CsvState) (hline : Utf8 (s.buffer.getD [] ++ line))
    (hfields : AllUtf8 s.fields) : EndsWith Ascii AllUtf8 (csvScan line s) := by
  have hquote : quote < 128 := by decide
  fun_induction csvScan line s with
  | case1 s hopen => exact ascii_literal _ rfl
  | case2 s hclosed =>
    rw [List.append_nil] at hline
    exact endField_utf8 hline hfields
  | case3 s hopen ih => exact ih (utf8_skip hquote hline) hfields
  | case4 s hopen rest ih =>
    apply ih _ hfields
    rw [append_buffer]
    exact utf8_skip hquote hline
  | case5 s hopen next rest hnext ih => exact ih (utf8_skip hquote hline) hfields
  | case6 current rest s hopen hcurrent ih =>
    apply ih _ hfields
    rw [append_buffer]
    exact hline
  | case7 rest s hclosed ih =>
    rw [utf8_around (by decide)] at hline
    exact ih hline.2 (endField_utf8 hline.1 hfields)
  | case8 current rest s hclosed hcomma hquoted ih =>
    rw [hquoted.1] at hline
    exact ih (utf8_skip hquote hline) hfields
  | case9 => exact ascii_literal _ rfl
  | case10 current rest s hclosed hcomma hquoted hspace hending ih =>
    refine ih (utf8_skip ?_ hline) hfields
    simp only [isLineEnding, Bool.or_eq_true, beq_iff_eq] at hending
    rcases hending with rfl | rfl
    · decide
    · decide
  | case11 current rest s hclosed hcomma hquoted hspace hending ih =>
    apply ih _ hfields
    rw [append_buffer]
    exact hline

theorem csvParseLine_utf8 {line : Bytes} (h : Utf8 line) :
    EndsWith Ascii AllUtf8 (csvParseLine line) :=
  csvScan_utf8 (cString line) (.start []) h.cString fun _ hfield => absurd hfield List.not_mem_nil

end Csv

section Files

/-- A file of characters whose lines fit the buffer of the readers. -/
structure TextFile (content : Bytes) : Prop where
  utf8 : Utf8 content
  fits : LinesFit content

theorem ending_ascii {b : UInt8} (h : isLineEnding b = true) : b < 128 := by
  revert b
  decide +kernel

theorem strip_utf8 {line : Bytes} (h : Utf8 line) : Utf8 (stripLineEndings line) :=
  h.cString.rdropWhile fun _ hb => ending_ascii hb

/-- One read takes a line, with its line feed where there is room for it. -/
theorem read_utf8 {room : Nat} {line rest : Bytes} (hline : lineFeed ∉ line)
    (hroom : line.length ≤ room) (hrest : ∀ b ∈ rest.head?, b = lineFeed) (h : Utf8 (line ++ rest))
    (hfront : Utf8 line) :
    Utf8 (fgets room (line ++ rest)) ∧
      Utf8 ((line ++ rest).drop (fgets room (line ++ rest)).length) := by
  rcases hroom.lt_or_eq with hlt | rfl
  · cases rest with
    | nil =>
      rw [List.append_nil, fgets_row hline, List.take_of_length_le hroom, List.drop_length]
      exact ⟨hfront, utf8_nil⟩
    | cons b rest =>
      obtain rfl := hrest b rfl
      rw [utf8_around (by decide)] at h
      rw [List.append_cons line lineFeed rest, fgets_append (.inl (by simp)), fgets_line hline hlt,
        List.drop_left]
      exact ⟨hfront.append (utf8_byte (by decide)), h.2⟩
  · have hread : fgets line.length (line ++ rest) = line := by
      rw [fgets_append (.inr le_rfl), fgets_row hline, List.take_length]
    rw [hread, List.drop_left]
    exact ⟨hfront, (utf8_append_left hfront).mp h⟩

theorem TextFile.read {content : Bytes} (h : TextFile content) :
    Utf8 (fgets lineRoom content) ∧ TextFile (content.drop (fgets lineRoom content).length) := by
  have hsplit := List.takeWhile_append_dropWhile (p := (· != lineFeed)) (l := content)
  have hline : lineFeed ∉ content.takeWhile (· != lineFeed) := fun hmem => by
    simpa using List.mem_takeWhile_imp hmem
  have hroom := h.fits _ (List.takeWhile_prefix _).isInfix hline
  have hrest : ∀ b ∈ (content.dropWhile (· != lineFeed)).head?, b = lineFeed := by
    intro b hb
    have hstop := List.head?_dropWhile_not (· != lineFeed) content
    rw [Option.mem_def.mp hb] at hstop
    simpa using hstop
  have hfront : Utf8 (content.takeWhile (· != lineFeed)) := (h.utf8.span fun b hb => by
    have hfeed : b = lineFeed := by simpa using hb
    rw [hfeed]
    decide).1
  have hread := read_utf8 hline hroom hrest (hsplit.symm ▸ h.utf8) hfront
  rw [hsplit] at hread
  refine ⟨hread.1, hread.2, ?_⟩
  intro line hpart
  exact h.fits line (hpart.trans (List.drop_suffix _ _).isInfix)

theorem TextFile.reads {content : Bytes} (h : TextFile content) (offset : Nat) :
    ∀ read ∈ fgetsAll lineRoom offset content, Utf8 read.2 := by
  induction hlength : content.length using Nat.strongRecOn generalizing content offset with
  | ind n ih =>
    by_cases hne : content = []
    · rw [hne, fgetsAll_nil]
      exact fun _ hread => absurd hread List.not_mem_nil
    · rw [fgetsAll_step lineRoom_pos hne]
      obtain ⟨hfirst, hafter⟩ := h.read
      have hpos := List.length_pos_of_ne_nil (fgets_ne_nil lineRoom_pos hne)
      have hcontent := List.length_pos_of_ne_nil hne
      refine List.forall_mem_cons.mpr ⟨hfirst, ih _ ?_ hafter _ rfl⟩
      rw [List.length_drop]
      omega

theorem TextFile.dataLines {content : Bytes} (h : TextFile content) :
    ∀ line ∈ dataLines content, Utf8 line.2 := by
  intro line hline
  obtain ⟨read, hread, hdata⟩ := List.mem_filterMap.mp hline
  have hutf8 := h.reads 0 read (List.mem_of_mem_tail hread)
  unfold dataLine at hdata
  split at hdata
  · cases hdata
  · obtain rfl := Option.some.inj hdata
    exact strip_utf8 hutf8

end Files

end DbApi.Proofs.ReadableText
