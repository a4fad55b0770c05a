import DbApi.Sql.Parser

namespace DbApi.Proofs.SqlLexing
open Library Common Sql

/-- A piece of SQL text. -/
inductive Lexeme where
  | word (text : Bytes)
  | literal (value : Bytes)
  | symbol (byte : UInt8)
deriving DecidableEq

/-- A value between single quotes, with the inner ones doubled. -/
def quoted (value : Bytes) : Bytes :=
  apostrophe :: value.flatMap (fun b => if b = apostrophe then [apostrophe, apostrophe] else [b]) ++
    [apostrophe]

def Lexeme.text : Lexeme → Bytes
  | word text => text
  | literal value => quoted value
  | symbol byte => [byte]

/-- Two pieces that would run together if nothing stood between them. -/
def Lexeme.joins : Lexeme → Lexeme → Bool
  | word _, word _ => true
  | literal _, literal _ => true
  | _, _ => false

def Blank (gap : Bytes) : Prop := ∀ b ∈ gap, isSpace b = true

/-- `text` spells the lexemes: blanks anywhere around them, and at least one
where two of them would run together. -/
inductive Spells : List Lexeme → Bytes → Prop where
  | done {gap : Bytes} (blank : Blank gap) : Spells [] gap
  | next {lexeme : Lexeme} {rest : List Lexeme} {gap text : Bytes} (blank : Blank gap)
      (apart : ∀ following ∈ rest.head?, lexeme.joins following = true →
        ∀ b ∈ text.head?, isSpace b = true)
      (spells : Spells rest text) : Spells (lexeme :: rest) (gap ++ lexeme.text ++ text)

def Lexeme.Valid : Lexeme → Prop
  | word text => text ≠ [] ∧ ∀ b ∈ text, isIdentifierContinue b = true
  | literal value => nul ∉ value
  | symbol byte => (symbolType byte).isSome = true

/-- The token of a lexeme, up to its position. -/
def Lexeme.content : Lexeme → TokenType × Bytes
  | word text => (wordType text, text)
  | literal value => (.string, value)
  | symbol byte => ((symbolType byte).getD .end, [byte])

def contentOf (token : Token) : TokenType × Bytes := (token.type, token.text)

theorem continue_not_space {b : UInt8} (h : isIdentifierContinue b = true) : isSpace b = false := by
  revert b
  decide +kernel

theorem symbol_byte {b : UInt8} (h : (symbolType b).isSome = true) :
    isSpace b = false ∧ isIdentifierContinue b = false ∧ b ≠ apostrophe ∧ b ≠ nul := by
  revert b
  decide +kernel

theorem space_byte {b : UInt8} (h : isSpace b = true) :
    isIdentifierContinue b = false ∧ b ≠ apostrophe ∧ b ≠ nul := by
  revert b
  decide +kernel

theorem continue_not_nul {b : UInt8} (h : isIdentifierContinue b = true) : b ≠ nul := by
  revert b
  decide +kernel

theorem lex_blank {gap : Bytes} (hg : Blank gap) (position : Nat) (rest : Bytes) :
    lexFrom position (gap ++ rest) = lexFrom (position + gap.length) rest := by
  induction gap generalizing position with
  | nil => rfl
  | cons b gap ih =>
    have hb : isSpace b = true := hg b (by simp)
    rw [List.cons_append, lexFrom, if_pos hb, ih (fun c hc => hg c (by simp [hc])),
      List.length_cons]
    congr 1
    omega

theorem span_word {text rest : Bytes} (hc : ∀ b ∈ text, isIdentifierContinue b = true)
    (hr : ∀ b ∈ rest.head?, isIdentifierContinue b = false) :
    (text ++ rest).takeWhile isIdentifierContinue = text ∧
      (text ++ rest).dropWhile isIdentifierContinue = rest := by
  rw [List.takeWhile_append_of_pos hc, List.dropWhile_append_of_pos hc]
  cases rest with
  | nil => simp
  | cons b rest => simp [hr b rfl]

theorem lex_word {text rest : Bytes} (hv : (Lexeme.word text).Valid)
    (hr : ∀ b ∈ rest.head?, isIdentifierContinue b = false) (position : Nat) :
    lexFrom position (text ++ rest) =
      (lexFrom (position + text.length) rest).map
        ({ type := wordType text, text, position } :: ·) := by
  obtain ⟨hne, hc⟩ := hv
  cases text with
  | nil => contradiction
  | cons b text =>
    have hb := hc b (by simp)
    have hstart : isIdentifierStart b = true := (isIdentifierStart_eq b).trans hb
    have htail : ∀ c ∈ text, isIdentifierContinue c = true := fun c hm => hc c (by simp [hm])
    obtain ⟨htake, hdrop⟩ := span_word htail hr
    rw [List.cons_append, lexFrom, if_neg (by simp [continue_not_space hb]), if_pos hstart,
      htake, hdrop]

/-- The scan of a literal undoes the doubling and stops at the closing quote. -/
theorem scan_quoted {rest : Bytes} (hr : apostrophe ∉ rest.head?) (value : Bytes) (last : UInt8)
    (buffer : Bytes) :
    scanString last buffer
      (value.flatMap (fun b => if b = apostrophe then [apostrophe, apostrophe] else [b]) ++
        apostrophe :: rest) =
      { buffer := buffer ++ value, rest, last := apostrophe } := by
  induction value generalizing last buffer with
  | nil =>
    rw [List.flatMap_nil, List.nil_append, List.append_nil]
    unfold scanString
    cases rest with
    | nil => simp
    | cons b rest =>
      have hb : b ≠ apostrophe := fun h => hr (by simp [h])
      simp [hb]
  | cons b value ih =>
    by_cases hb : b = apostrophe
    · subst hb
      have hstep := ih apostrophe (buffer ++ [apostrophe])
      unfold scanString
      simpa using hstep
    · have hstep := ih b (buffer ++ [b])
      unfold scanString
      simpa [hb] using hstep

theorem lex_literal {value rest : Bytes} (hr : apostrophe ∉ rest.head?) (position : Nat) :
    lexFrom position (quoted value ++ rest) =
      (lexFrom (position + (quoted value).length) rest).map
        ({ type := .string, text := value, position } :: ·) := by
  have hscan := scan_quoted hr value apostrophe []
  have hshape : quoted value ++ rest = apostrophe ::
      (value.flatMap (fun b => if b = apostrophe then [apostrophe, apostrophe] else [b]) ++
        apostrophe :: rest) := by simp [quoted]
  have hlength : (quoted value).length =
      1 + ((value.flatMap (fun b => if b = apostrophe then [apostrophe, apostrophe] else [b]) ++
        apostrophe :: rest).length - rest.length) := by
    simp [quoted]
    omega
  rw [hshape, lexFrom, if_neg (by decide), if_neg (by decide), if_pos rfl, hscan]
  simp only [ne_eq, not_true_eq_false, ↓reduceIte, List.nil_append]
  rw [hlength, Nat.add_assoc]

theorem lex_symbol {byte : UInt8} (hv : (symbolType byte).isSome = true) (position : Nat)
    (rest : Bytes) :
    lexFrom position (byte :: rest) =
      (lexFrom (position + 1) rest).map
        ({ type := (symbolType byte).getD .end, text := [byte], position } :: ·) := by
  obtain ⟨hspace, hcont, hquote, _⟩ := symbol_byte hv
  obtain ⟨type, ht⟩ := Option.isSome_iff_exists.mp hv
  rw [lexFrom, if_neg (by simp [hspace]), if_neg (by simp [isIdentifierStart_eq, hcont]),
    if_neg hquote, ht]
  rfl

theorem Lexeme.Valid.text_ne_nil {lexeme : Lexeme} (hv : lexeme.Valid) : lexeme.text ≠ [] := by
  cases lexeme with
  | word text => exact hv.1
  | literal value => simp [Lexeme.text, quoted]
  | symbol byte => simp [Lexeme.text]

/-- Spelled text starts with a blank or with its first lexeme. -/
theorem spells_head {lexemes : List Lexeme} {text : Bytes} (hs : Spells lexemes text)
    (hv : ∀ lexeme ∈ lexemes, lexeme.Valid) {b : UInt8} (hb : b ∈ text.head?) :
    isSpace b = true ∨ ∃ first ∈ lexemes.head?, b ∈ first.text.head? := by
  cases hs with
  | done blank => exact .inl (blank b (List.mem_of_mem_head? hb))
  | @next lexeme rest gap text blank apart spells =>
    cases gap with
    | nil =>
      right
      refine ⟨lexeme, rfl, ?_⟩
      have hne := (hv lexeme (by simp)).text_ne_nil
      rwa [List.nil_append, List.head?_append_of_ne_nil _ hne] at hb
    | cons c gap =>
      left
      simp only [List.cons_append, List.head?_cons, Option.mem_def, Option.some.injEq] at hb
      exact blank b (by simp [hb])

/-- A lexeme ends before this byte. -/
def Lexeme.EndsBefore (b : UInt8) : Lexeme → Prop
  | word _ => isIdentifierContinue b = false
  | literal _ => b ≠ apostrophe
  | symbol _ => True

/-- What follows a lexeme does not run on from it. -/
theorem apart_head {lexeme : Lexeme} {rest : List Lexeme} {text : Bytes}
    (apart : ∀ following ∈ rest.head?, lexeme.joins following = true →
      ∀ b ∈ text.head?, isSpace b = true)
    (hs : Spells rest text) (hv : ∀ next ∈ rest, next.Valid) {b : UInt8} (hb : b ∈ text.head?) :
    lexeme.EndsBefore b := by
  rcases spells_head hs hv hb with hspace | ⟨first, hfirst, hbyte⟩
  · obtain ⟨hcont, hquote, _⟩ := space_byte hspace
    cases lexeme with
    | word _ => exact hcont
    | literal _ => exact hquote
    | symbol _ => trivial
  · have hvalid := hv first (List.mem_of_mem_head? hfirst)
    cases lexeme with
    | symbol _ => trivial
    | word _ =>
      cases first with
      | word _ => exact (space_byte (apart _ hfirst rfl b hb)).1
      | literal _ =>
        obtain rfl : apostrophe = b := by simpa [Lexeme.text, quoted] using hbyte
        rfl
      | symbol _ =>
        obtain rfl := by simpa [Lexeme.text] using hbyte
        exact (symbol_byte hvalid).2.1
    | literal _ =>
      cases first with
      | word text =>
        have hmem : b ∈ text := List.mem_of_mem_head? hbyte
        rintro rfl
        have := hvalid.2 _ hmem
        contradiction
      | literal _ => exact (space_byte (apart _ hfirst rfl b hb)).2.1
      | symbol _ =>
        obtain rfl := by simpa [Lexeme.text] using hbyte
        exact (symbol_byte hvalid).2.2.1

/-- Lexing spelled text gives the lexemes back, and the end. -/
theorem lex_spells {lexemes : List Lexeme} {text : Bytes} (hs : Spells lexemes text)
    (hv : ∀ lexeme ∈ lexemes, lexeme.Valid) (position : Nat) :
    ∃ tokens, lexFrom position text = .ok tokens ∧
      tokens.map contentOf = lexemes.map Lexeme.content ++ [(.end, [])] := by
  induction hs generalizing position with
  | @done gap blank =>
    have hlex := lex_blank blank position []
    rw [List.append_nil, lexFrom] at hlex
    exact ⟨_, hlex, rfl⟩
  | @next lexeme rest gap text blank apart spells ih =>
    have hrest : ∀ next ∈ rest, next.Valid := fun l hl => hv l (by simp [hl])
    have hhead := fun b (hb : b ∈ text.head?) => apart_head apart spells hrest hb
    obtain ⟨tokens, hlex, htokens⟩ := ih hrest (position + gap.length + lexeme.text.length)
    rw [List.append_assoc, lex_blank blank]
    cases lexeme with
    | word w =>
      rw [Lexeme.text] at hlex ⊢
      rw [lex_word (hv _ (by simp)) hhead, hlex]
      exact ⟨_, rfl, by simp [htokens, contentOf, Lexeme.content]⟩
    | literal value =>
      rw [Lexeme.text] at hlex ⊢
      rw [lex_literal (fun h => hhead _ h rfl), hlex]
      exact ⟨_, rfl, by simp [htokens, contentOf, Lexeme.content]⟩
    | symbol byte =>
      have hvalid := hv (.symbol byte) (by simp)
      rw [Lexeme.text, List.length_singleton] at hlex
      rw [Lexeme.text, List.singleton_append, lex_symbol hvalid, hlex]
      exact ⟨_, rfl, by simp [htokens, contentOf, Lexeme.content]⟩

theorem spells_no_nul {lexemes : List Lexeme} {text : Bytes} (hs : Spells lexemes text)
    (hv : ∀ lexeme ∈ lexemes, lexeme.Valid) : nul ∉ text := by
  induction hs with
  | done blank => exact fun h => (space_byte (blank _ h)).2.2 rfl
  | @next lexeme rest gap text blank apart spells ih =>
    have hrest := ih fun l hl => hv l (by simp [hl])
    have hvalid := hv lexeme (by simp)
    have hlexeme : nul ∉ lexeme.text := by
      cases lexeme with
      | word w => exact fun h => continue_not_nul (hvalid.2 _ h) rfl
      | literal value =>
        intro h
        simp only [Lexeme.text, quoted, List.cons_append, List.mem_cons, List.mem_append,
          List.mem_flatMap, List.not_mem_nil, or_false] at h
        rcases h with h | ⟨b, hb, h⟩ | h
        · contradiction
        · split at h
          · simp [apostrophe, nul] at h
          · rw [List.mem_singleton] at h
            exact hvalid (h ▸ hb)
        · contradiction
      | symbol byte =>
        intro h
        rw [Lexeme.text, List.mem_singleton] at h
        exact (symbol_byte hvalid).2.2.2 h.symm
    simp only [List.mem_append, not_or]
    exact ⟨⟨fun h => (space_byte (blank _ h)).2.2 rfl, hlexeme⟩, hrest⟩

end DbApi.Proofs.SqlLexing
