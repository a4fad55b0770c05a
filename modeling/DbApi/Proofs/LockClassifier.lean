import DbApi.Concurrency.LockMode
import DbApi.Proofs.SqlGrammar
import DbApi.Proofs.SqlLossless

namespace DbApi.Proofs.LockClassifier
open Library Common Sql Concurrency SqlLexing SqlGrammar

/-- Where a text goes on after its leading blanks and comments. A line comment
ends before its newline, a block comment after its first closing, and the last
comment of either kind may end with the text. -/
inductive AfterNoise : Bytes → Bytes → Prop where
  | start {sql : Bytes} (hs : ∀ b ∈ sql.head?, isSpace b = false) (hl : ¬ ascii "--" <+: sql)
      (hb : ¬ ascii "/*" <+: sql) : AfterNoise sql sql
  | blank {b : UInt8} {sql rest : Bytes} (hb : isSpace b = true) (h : AfterNoise sql rest) :
    AfterNoise (b :: sql) rest
  | line {comment sql rest : Bytes} (hn : lineFeed ∉ comment) (hs : ∀ b ∈ sql.head?, b = lineFeed)
      (h : AfterNoise sql rest) : AfterNoise (ascii "--" ++ comment ++ sql) rest
  | block {comment sql rest : Bytes} (hc : ¬ ascii "*/" <:+: comment ++ ascii "*")
      (h : AfterNoise sql rest) : AfterNoise (ascii "/*" ++ comment ++ ascii "*/" ++ sql) rest
  | opened {comment : Bytes} (hc : ¬ ascii "*/" <:+: comment) :
    AfterNoise (ascii "/*" ++ comment) []

/-- The letters at the front of a text, in upper case. -/
def leadingLetters (text : Bytes) : Bytes := (text.takeWhile isAlpha).map toUpper

def requiredMode : Statement → ConcurrencyLockMode
  | .insert _ => .write
  | .select _ => .read

section Noise

variable {sql rest comment : Bytes}

theorem skipBlock_closed (hc : ¬ ascii "*/" <:+: comment ++ ascii "*") :
    skipBlockComment (comment ++ ascii "*/" ++ rest) = rest := by
  induction comment with
  | nil => rfl
  | cons b comment ih =>
    have hrest : ¬ ascii "*/" <:+: comment ++ ascii "*" := fun h => hc (List.infix_cons h)
    have hfirst : ∀ tail, b = 42 → comment ++ ascii "*/" ++ rest = 47 :: tail → False := by
      rintro tail rfl htail
      cases comment with
      | nil => exact absurd (List.cons.inj htail).1 (by decide)
      | cons next comment =>
        obtain ⟨rfl, -⟩ := List.cons.inj htail
        exact hc ⟨[], comment ++ ascii "*", rfl⟩
    rw [List.cons_append, List.cons_append, skipBlockComment.eq_3 _ _ hfirst]
    exact ih hrest

theorem skipBlock_open (hc : ¬ ascii "*/" <:+: comment) : skipBlockComment comment = [] := by
  fun_induction skipBlockComment comment with
  | case1 => rfl
  | case2 rest => exact absurd ⟨[], rest, rfl⟩ hc
  | case3 b rest _ ih => exact ih fun h => hc (List.infix_cons h)

/-- A comment that has a closing has a first one. -/
theorem first_closing (text : Bytes) :
    ¬ ascii "*/" <:+: text ∨ ∃ comment rest, text = comment ++ ascii "*/" ++ rest ∧
      ¬ ascii "*/" <:+: comment ++ ascii "*" := by
  induction text with
  | nil =>
    refine .inl fun h => ?_
    have := h.length_le
    simp [ascii] at this
  | cons b text ih =>
    by_cases hfront : ascii "*/" <+: b :: text
    · obtain ⟨rest, hrest⟩ := hfront
      refine .inr ⟨[], rest, hrest.symm, fun h => ?_⟩
      exact absurd h.length_le (by decide)
    · rcases ih with hopen | ⟨comment, rest, rfl, hc⟩
      · refine .inl fun h => ?_
        rcases List.infix_cons_iff.mp h with h | h
        · exact hfront h
        · exact hopen h
      · refine .inr ⟨b :: comment, rest, rfl, fun h => ?_⟩
        rw [List.cons_append] at h
        rcases List.infix_cons_iff.mp h with h | h
        · apply hfront
          have hstar : b :: (comment ++ ascii "*") <+: b :: (comment ++ ascii "*/" ++ rest) := by
            refine ⟨ascii "/" ++ rest, ?_⟩
            have : ascii "*/" = ascii "*" ++ ascii "/" := rfl
            simp [this, List.append_assoc]
          exact h.trans hstar
        · exact hc h

theorem skip_of_skipped (h : (noiseRound sql).2 = true) :
    skipLeadingSqlNoise sql = skipLeadingSqlNoise (noiseRound sql).1 := by
  rw [skipLeadingSqlNoise, if_pos h]

theorem noiseRound_blank {b : UInt8} (hb : isSpace b = true) :
    noiseRound (b :: sql) = ((noiseRound sql).1, true) := by
  simp only [noiseRound, List.dropWhile_cons, List.takeWhile_cons, hb, ↓reduceIte]
  split <;> simp

theorem noiseRound_done (h : (noiseRound sql).2 = false) : (noiseRound sql).1 = sql := by
  revert h
  unfold noiseRound
  split
  · simp
  · simp
  · intro h
    have hnil : sql.takeWhile isSpace = [] := by simpa using h
    have hsplit := List.takeWhile_append_dropWhile (p := isSpace) (l := sql)
    rwa [hnil] at hsplit

theorem skip_blank {b : UInt8} (hb : isSpace b = true) :
    skipLeadingSqlNoise (b :: sql) = skipLeadingSqlNoise sql := by
  rw [skip_of_skipped (by rw [noiseRound_blank hb]), noiseRound_blank hb]
  cases h : (noiseRound sql).2 with
  | true => exact (skip_of_skipped h).symm
  | false => rw [noiseRound_done h]

theorem skip_line (hn : lineFeed ∉ comment) (hs : ∀ b ∈ sql.head?, b = lineFeed) :
    skipLeadingSqlNoise (ascii "--" ++ comment ++ sql) = skipLeadingSqlNoise sql := by
  have hround : noiseRound (ascii "--" ++ comment ++ sql) = (sql, true) := by
    change ((comment ++ sql).dropWhile (· != lineFeed), true) = (sql, true)
    rw [List.dropWhile_append_of_pos fun b hb => by
      simp only [bne_iff_ne]
      rintro rfl
      exact hn hb]
    cases sql with
    | nil => rfl
    | cons b sql => simp [hs b rfl]
  rw [skip_of_skipped (by rw [hround]), hround]

theorem skip_block (hc : ¬ ascii "*/" <:+: comment ++ ascii "*") :
    skipLeadingSqlNoise (ascii "/*" ++ comment ++ ascii "*/" ++ sql) = skipLeadingSqlNoise sql := by
  have hround : noiseRound (ascii "/*" ++ comment ++ ascii "*/" ++ sql) = (sql, true) := by
    rw [List.append_assoc, List.append_assoc]
    change (skipBlockComment (comment ++ (ascii "*/" ++ sql)), true) = (sql, true)
    rw [← List.append_assoc, skipBlock_closed hc]
  rw [skip_of_skipped (by rw [hround]), hround]

theorem skip_start (hs : ∀ b ∈ sql.head?, isSpace b = false) (hl : ¬ ascii "--" <+: sql)
    (hb : ¬ ascii "/*" <+: sql) : skipLeadingSqlNoise sql = sql := by
  have hdrop : sql.dropWhile isSpace = sql := by
    cases sql with
    | nil => rfl
    | cons b sql => simp [hs b rfl]
  have htake : sql.takeWhile isSpace = [] := by
    cases sql with
    | nil => rfl
    | cons b sql => simp [hs b rfl]
  have hround : noiseRound sql = (sql, false) := by
    unfold noiseRound
    rw [hdrop, htake]
    split
    · exact absurd ⟨_, rfl⟩ hl
    · exact absurd ⟨_, rfl⟩ hb
    · rfl
  rw [skipLeadingSqlNoise, hround]
  rfl

theorem skip_opened (hc : ¬ ascii "*/" <:+: comment) :
    skipLeadingSqlNoise (ascii "/*" ++ comment) = [] := by
  have hround : noiseRound (ascii "/*" ++ comment) = ([], true) := by
    change (skipBlockComment comment, true) = ([], true)
    rw [skipBlock_open hc]
  rw [skip_of_skipped (by rw [hround]), hround]
  exact skip_start (by simp) (by decide) (by decide)

theorem skip_of_after (h : AfterNoise sql rest) : skipLeadingSqlNoise sql = rest := by
  induction h with
  | start hs hl hb => exact skip_start hs hl hb
  | blank hb h ih => rw [skip_blank hb, ih]
  | line hn hs h ih => rw [skip_line hn hs, ih]
  | block hc h ih => rw [skip_block hc, ih]
  | opened hc => exact skip_opened hc

theorem after_exists (sql : Bytes) : ∃ rest, AfterNoise sql rest := by
  induction hlength : sql.length using Nat.strongRecOn generalizing sql with
  | ind n ih =>
    subst hlength
    by_cases hl : ascii "--" <+: sql
    · obtain ⟨text, rfl⟩ := hl
      have hshort := (List.dropWhile_suffix (· != lineFeed) (l := text)).length_le
      obtain ⟨rest, hrest⟩ := ih (text.dropWhile (· != lineFeed)).length
        (by simp only [List.length_append, ascii]; simp; omega) _ rfl
      refine ⟨rest, ?_⟩
      rw [← List.takeWhile_append_dropWhile (p := (· != lineFeed)) (l := text), ← List.append_assoc]
      refine .line (fun h => ?_) (fun b hb => ?_) hrest
      · simpa using List.mem_takeWhile_imp h
      · have hstop := List.head?_dropWhile_not (· != lineFeed) text
        rw [Option.mem_def.mp hb] at hstop
        simpa using hstop
    · by_cases hb : ascii "/*" <+: sql
      · obtain ⟨text, rfl⟩ := hb
        rcases first_closing text with hopen | ⟨comment, sql, rfl, hc⟩
        · exact ⟨[], .opened hopen⟩
        · obtain ⟨rest, hrest⟩ := ih sql.length (by simp [ascii]; omega) sql rfl
          refine ⟨rest, ?_⟩
          rw [← List.append_assoc, ← List.append_assoc]
          exact .block hc hrest
      · cases sql with
        | nil => exact ⟨[], .start (by simp) hl hb⟩
        | cons b sql =>
          cases hspace : isSpace b with
          | true =>
            obtain ⟨rest, hrest⟩ := ih sql.length (by simp) sql rfl
            exact ⟨rest, .blank hspace hrest⟩
          | false =>
            refine ⟨b :: sql, .start ?_ hl hb⟩
            rintro _ ⟨⟩
            exact hspace

/-- The buffer for the keyword is long enough to tell it. -/
theorem mode_of_after (h : AfterNoise (cString sql) rest) :
    concurrencyLockModeFromSql (some sql) =
      if leadingLetters rest = ascii "SELECT" then .read else .write := by
  have hclip : ∀ letters : Bytes, (clip 16 letters).map toUpper = ascii "SELECT" ↔
      letters.map toUpper = ascii "SELECT" := by
    intro letters
    have hsix : (ascii "SELECT").length = 6 := rfl
    constructor
    · intro h
      have hlength := congrArg List.length h
      rw [hsix, List.length_map, clip, List.length_take] at hlength
      rwa [clip, List.take_of_length_le (by omega)] at h
    · intro h
      have hlength := congrArg List.length h
      rw [hsix, List.length_map] at hlength
      rwa [clip, List.take_of_length_le (by omega)]
  simp only [concurrencyLockModeFromSql, skip_of_after h, hclip]
  by_cases hnil : rest = []
  · subst hnil
    rfl
  · rw [if_neg hnil]
    rfl

end Noise

section Agreement

variable {position : Nat} {input rest keyword : Bytes} {token : Token} {tokens : List Token}

theorem upper_lower (b : UInt8) : toUpper (toLower b) = toUpper b := by
  revert b
  decide +kernel

theorem alpha_byte {b : UInt8} (h : isAlpha b = true) :
    isSpace b = false ∧ b ≠ 45 ∧ b ≠ 47 ∧ isIdentifierContinue b = true := by
  revert b
  decide +kernel

theorem alpha_of_isLower {b : UInt8} (h : isLower (toLower b) = true) : isAlpha b = true := by
  revert b
  decide +kernel

theorem symbol_not_word (b : UInt8) : symbolType b ≠ some .identifier := by
  unfold symbolType
  split_ifs <;> simp

theorem first_word (h : lexFrom position input = .ok (token :: tokens))
    (hi : token.type = .identifier) :
    ∃ gap rest, input = gap ++ (token.text ++ rest) ∧ Blank gap ∧ token.text ≠ [] ∧
      ∀ b ∈ rest.head?, isIdentifierContinue b = false := by
  fun_induction lexFrom position input generalizing tokens with
  | case1 position =>
    cases h
    cases hi
  | case2 position current rest hspace ih =>
    obtain ⟨gap, rest', rfl, hgap, hne, hstop⟩ := ih h
    refine ⟨current :: gap, rest', rfl, ?_, hne, hstop⟩
    intro b hb
    rcases List.mem_cons.mp hb with rfl | hb
    · exact hspace
    · exact hgap b hb
  | case3 position current rest hspace hstart word =>
    obtain ⟨_, _, heq⟩ := SqlLossless.map_ok h
    obtain ⟨rfl, -⟩ := List.cons.inj heq
    refine ⟨[], rest.dropWhile isIdentifierContinue, ?_, ?_, List.cons_ne_nil _ _, ?_⟩
    · exact SqlLossless.split_word current rest
    · intro b hb
      cases hb
    · intro b hb
      have hstop := List.head?_dropWhile_not isIdentifierContinue rest
      rw [Option.mem_def.mp hb] at hstop
      simpa using hstop
  | case4 position rest scan => cases h
  | case5 position rest scan hlast hspace hstart =>
    obtain ⟨_, _, heq⟩ := SqlLossless.map_ok h
    obtain ⟨rfl, -⟩ := List.cons.inj heq
    cases hi
  | case6 position current rest hspace hstart hquote type htype ih =>
    obtain ⟨_, _, heq⟩ := SqlLossless.map_ok h
    obtain ⟨rfl, -⟩ := List.cons.inj heq
    have htoken : type = .identifier := hi
    exact absurd (htoken ▸ htype) (symbol_not_word current)
  | case7 position => cases h

theorem keyword_upper (h : isKeyword token keyword = true) :
    token.text.map toUpper = keyword.map toUpper := by
  simp only [isKeyword, stringsEqualIgnoreCase, Bool.and_eq_true, beq_iff_eq] at h
  have hmap := congrArg (List.map toUpper) h.2
  simpa only [List.map_map, Function.comp_def, upper_lower] using hmap

theorem keyword_letters (h : isKeyword token keyword = true)
    (hl : (keyword.map toLower).all isLower = true) : ∀ b ∈ token.text, isAlpha b = true := by
  simp only [isKeyword, stringsEqualIgnoreCase, Bool.and_eq_true, beq_iff_eq] at h
  intro b hb
  rw [← h.2, List.all_eq_true] at hl
  exact alpha_of_isLower (hl _ (List.mem_map_of_mem hb))

/-- The classifier finds the keyword that the lexer hands to the parser first. -/
theorem leading_keyword (h : lexFrom position input = .ok (token :: tokens))
    (hk : isKeyword token keyword = true) (hl : (keyword.map toLower).all isLower = true) :
    ∃ rest, AfterNoise input rest ∧ leadingLetters rest = keyword.map toUpper := by
  obtain ⟨gap, rest, rfl, hgap, hne, hstop⟩ := first_word h (keyword_identifier hk)
  have hletters := keyword_letters hk hl
  refine ⟨token.text ++ rest, ?_, ?_⟩
  · clear h
    induction gap with
    | nil =>
      obtain ⟨b, text, htext⟩ := List.exists_cons_of_ne_nil hne
      have hb := alpha_byte (hletters b (by simp [htext]))
      rw [htext]
      refine .start ?_ ?_ ?_
      · rintro _ ⟨⟩
        exact hb.1
      · rintro ⟨_, heq⟩
        exact hb.2.1 (List.cons.inj heq).1.symm
      · rintro ⟨_, heq⟩
        exact hb.2.2.1 (List.cons.inj heq).1.symm
    | cons b gap ih =>
      exact .blank (hgap b (by simp)) (ih fun c hc => hgap c (by simp [hc]))
  · rw [leadingLetters, List.takeWhile_append_of_pos hletters, ← keyword_upper hk]
    have hnil : rest.takeWhile isAlpha = [] := by
      cases rest with
      | nil => rfl
      | cons b rest =>
        have hb : isAlpha b ≠ true := fun h => by
          have := (alpha_byte h).2.2.2
          rw [hstop b rfl] at this
          cases this
        simp [hb]
    rw [hnil, List.append_nil]

theorem statement_keyword {statement : Statement} (h : Sentence tokens statement) :
    ∃ token rest, tokens = token :: rest ∧ isKeyword token
      (match statement with
      | .insert _ => ascii "INSERT"
      | .select _ => ascii "SELECT") = true := by
  cases h with
  | insert h hs hl =>
    cases h with
    | intro hi => exact ⟨_, _, rfl, hi⟩
  | select h hs hl =>
    cases h with
    | intro hk => exact ⟨_, _, rfl, hk⟩

/-- What the engine would run is classified by its kind, and nothing is taken for a
read whose first letters are not the keyword. -/
theorem classifier_agrees :
    (∀ (sql : Bytes) (tokens : List Token) (statement : Statement), lexSql sql = .ok tokens →
      parseStatement tokens = .ok statement →
      concurrencyLockModeFromSql (some sql) = requiredMode statement) ∧
    ∀ sql : Bytes, AfterNoise (cString sql) (skipLeadingSqlNoise (cString sql)) ∧
      ∀ rest, AfterNoise (cString sql) rest →
        leadingLetters rest ≠ ascii "SELECT" → concurrencyLockModeFromSql (some sql) = .write := by
  constructor
  · intro sql tokens statement hlex hparse
    obtain ⟨token, rest, rfl, hk⟩ := statement_keyword (parse_sound (lex_terminated hlex) hparse)
    cases statement with
    | insert s =>
      obtain ⟨text, hafter, hletters⟩ := leading_keyword hlex hk rfl
      rw [mode_of_after hafter, hletters]
      rfl
    | select s =>
      obtain ⟨text, hafter, hletters⟩ := leading_keyword hlex hk rfl
      rw [mode_of_after hafter, hletters]
      rfl
  · intro sql
    constructor
    · obtain ⟨rest, hrest⟩ := after_exists (cString sql)
      rwa [skip_of_after hrest]
    · intro rest hrest hne
      rw [mode_of_after hrest, if_neg hne]

theorem classifier_agrees_select :
    concurrencyLockModeFromSql (some (ascii "select*from t;")) = .read ∧
      concurrencyLockModeFromSql (some (ascii "/*a*/SELECTED")) = .write := by
  constructor
  · apply classifier_agrees.1 _
      [{ type := .identifier, text := ascii "select", position := 0 },
        { type := .star, text := ascii "*", position := 6 },
        { type := .identifier, text := ascii "from", position := 7 },
        { type := .identifier, text := ascii "t", position := 12 },
        { type := .semicolon, text := ascii ";", position := 13 },
        { type := .end, text := [], position := 14 }]
      (.select { tableName := ascii "t", columns := [], selectAll := true, whereClause := none })
    · decide +kernel
    · rfl
  · have hafter : AfterNoise (ascii "/*" ++ ascii "a" ++ ascii "*/" ++ ascii "SELECTED")
        (ascii "SELECTED") :=
      .block (by decide) (.start (fun b hb => by cases hb; rfl) (by decide) (by decide))
    exact (classifier_agrees.2 (ascii "/*a*/SELECTED")).2 _ hafter (by decide)

end Agreement

end DbApi.Proofs.LockClassifier
