import DbApi.Library.Decimal

namespace DbApi.Library

/-- A text that spells characters, each in its UTF-8 encoding. -/
def Utf8 (text : Bytes) : Prop := ∃ chars : List Char, text = chars.flatMap String.utf8EncodeChar

theorem utf8_nil : Utf8 [] := ⟨[], rfl⟩

theorem utf8_char (c : Char) : Utf8 (String.utf8EncodeChar c) := ⟨[c], by simp⟩

theorem Utf8.append {front rest : Bytes} (hf : Utf8 front) (hr : Utf8 rest) :
    Utf8 (front ++ rest) := by
  obtain ⟨chars, rfl⟩ := hf
  obtain ⟨chars', rfl⟩ := hr
  exact ⟨chars ++ chars', by simp⟩

theorem utf8_flatten {texts : List Bytes} (h : ∀ text ∈ texts, Utf8 text) : Utf8 texts.flatten := by
  induction texts with
  | nil => exact utf8_nil
  | cons text texts ih =>
    rw [List.flatten_cons]
    exact (h text List.mem_cons_self).append (ih fun text ht => h text (List.mem_cons_of_mem _ ht))

/-- Two texts that begin with a character each and are the same begin with the same. -/
theorem encoded_inj {c c' : Char} {rest rest' : Bytes}
    (h : String.utf8EncodeChar c ++ rest = String.utf8EncodeChar c' ++ rest') :
    c = c' ∧ rest = rest' := by
  have hbytes := congrArg List.toByteArray h
  rw [List.toByteArray_append, List.toByteArray_append] at hbytes
  have hdecode := congrArg (ByteArray.utf8DecodeChar? · 0) hbytes
  simp only [ByteArray.utf8DecodeChar?_utf8EncodeChar_append, Option.some.injEq] at hdecode
  subst hdecode
  exact ⟨rfl, List.append_cancel_left h⟩

theorem Utf8.of_char {c : Char} {rest : Bytes} (h : Utf8 (String.utf8EncodeChar c ++ rest)) :
    Utf8 rest := by
  obtain ⟨chars, hchars⟩ := h
  cases chars with
  | nil =>
    have hlength := congrArg List.length hchars
    simp only [List.length_append, String.length_utf8EncodeChar, List.flatMap_nil,
      List.length_nil] at hlength
    have := c.utf8Size_pos
    omega
  | cons c' chars =>
    rw [List.flatMap_cons] at hchars
    exact ⟨chars, (encoded_inj hchars).2⟩

/-- A text in front that is whole may be taken away. -/
theorem utf8_append_left {front rest : Bytes} (hf : Utf8 front) :
    Utf8 (front ++ rest) ↔ Utf8 rest := by
  constructor
  · obtain ⟨chars, rfl⟩ := hf
    intro h
    induction chars with
    | nil => exact h
    | cons c chars ih =>
      rw [List.flatMap_cons, List.append_assoc] at h
      exact ih h.of_char
  · exact hf.append

/-- A byte is the encoding of an ASCII character. -/
theorem encoded_byte {b : UInt8} (hb : b < 128) :
    String.utf8EncodeChar (Char.ofNat b.toNat) = [b] := by
  revert b
  decide +kernel

theorem utf8_byte {b : UInt8} (hb : b < 128) : Utf8 [b] := encoded_byte hb ▸ utf8_char _

def Ascii (text : Bytes) : Prop := ∀ b ∈ text, b < 128

theorem Ascii.utf8 {text : Bytes} (h : Ascii text) : Utf8 text := by
  induction text with
  | nil => exact utf8_nil
  | cons b text ih =>
    have hb : Utf8 [b] := utf8_byte (h b List.mem_cons_self)
    exact hb.append (ih fun b hb => h b (List.mem_cons_of_mem _ hb))

theorem ascii_nil : Ascii [] := fun _ hb => absurd hb List.not_mem_nil

theorem Ascii.append {front rest : Bytes} (hf : Ascii front) (hr : Ascii rest) :
    Ascii (front ++ rest) := by
  intro b hb
  rcases List.mem_append.mp hb with hb | hb
  · exact hf b hb
  · exact hr b hb

theorem Ascii.mono {part text : Bytes} (h : Ascii text) (hp : part ⊆ text) : Ascii part :=
  fun b hb => h b (hp hb)

theorem Ascii.clip {text : Bytes} (h : Ascii text) (size : Nat) : Ascii (clip size text) :=
  h.mono (List.take_subset _ _)

/-- The characters of an ASCII literal. -/
theorem ascii_literal (chars : List Char) (h : chars.all (·.toNat < 128) = true) :
    Ascii (ascii (String.ofList chars)) := by
  intro b hb
  simp only [ascii, String.toList_ofList] at hb
  obtain ⟨c, hc, rfl⟩ := List.mem_map.mp hb
  have hsmall : c.toNat < 128 := by simpa using List.all_eq_true.mp h c hc
  rw [UInt8.lt_iff_toNat_lt, Nat.toUInt8, UInt8.toNat_ofNat']
  change c.toNat % 256 < 128
  omega

theorem utf8_ascii (chars : List Char) (h : chars.all (·.toNat < 128) = true) :
    Utf8 (ascii (String.ofList chars)) := (ascii_literal chars h).utf8

theorem ascii_decimalNat (n : Nat) : Ascii (decimalNat n) := by
  have hdigit : ∀ b, isDigit b = true → b < 128 := by decide +kernel
  exact fun b hb => hdigit b (decimalNat_digits n b hb)

theorem ascii_decimal (value : Int) : Ascii (decimal value) := by
  cases value with
  | ofNat n => exact ascii_decimalNat n
  | negSucc n => exact (ascii_literal _ rfl).append (ascii_decimalNat (n + 1))

theorem first_byte {c : Char} {b : UInt8} {n : Nat}
    (h : (String.utf8EncodeChar c)[n]? = some b) : b.IsUTF8FirstByte ↔ n = 0 := by
  obtain ⟨hn, rfl⟩ := List.getElem?_eq_some_iff.mp h
  exact UInt8.isUTF8FirstByte_getElem_utf8EncodeChar

/-- A whole text begins with the first byte of a character. -/
theorem Utf8.head {text : Bytes} (h : Utf8 text) : ∀ b ∈ text.head?, b.IsUTF8FirstByte := by
  obtain ⟨chars, rfl⟩ := h
  cases chars with
  | nil =>
    intro b hb
    cases hb
  | cons c chars =>
    intro b hb
    have hpos : 0 < (String.utf8EncodeChar c).length := by
      rw [String.length_utf8EncodeChar]
      exact c.utf8Size_pos
    rw [List.flatMap_cons, List.head?_eq_getElem?, List.getElem?_append_left hpos] at hb
    exact (first_byte hb).mpr rfl

/-- The front of a text is whole exactly when it is not cut inside a character. -/
theorem utf8_take_iff {text : Bytes} (h : Utf8 text) (n : Nat) :
    Utf8 (text.take n) ↔ ∀ b ∈ text[n]?, b.IsUTF8FirstByte := by
  obtain ⟨chars, rfl⟩ := h
  induction chars generalizing n with
  | nil => simp [utf8_nil]
  | cons c chars ih =>
    rw [List.flatMap_cons]
    rcases Nat.lt_or_ge n (String.utf8EncodeChar c).length with hn | hn
    · rw [List.take_append_of_le_length hn.le, List.getElem?_append_left hn]
      constructor
      · intro hcut b hb
        rw [first_byte hb]
        by_contra hzero
        -- the rest of the character would be whole too, and begins with no first byte
        have hsplit : String.utf8EncodeChar c =
            (String.utf8EncodeChar c).take n ++ (String.utf8EncodeChar c).drop n :=
          (List.take_append_drop n _).symm
        have hrest : Utf8 ((String.utf8EncodeChar c).drop n) :=
          (utf8_append_left hcut).mp (hsplit ▸ utf8_char c)
        refine hzero ((first_byte hb).mp (hrest.head b ?_))
        rw [List.head?_drop]
        exact hb
      · intro hcut
        have hfirst := hcut _ (List.getElem?_eq_getElem hn)
        rw [(first_byte (List.getElem?_eq_getElem hn)).mp hfirst]
        exact utf8_nil
    · rw [List.take_append, List.take_of_length_le hn, utf8_append_left (utf8_char c), ih,
        List.getElem?_append_right hn]

theorem first_of_ascii {b : UInt8} (hb : b < 128) : b.IsUTF8FirstByte := by
  revert b
  decide +kernel

/-- An ASCII byte stands between two whole texts. -/
theorem utf8_around {b : UInt8} (hb : b < 128) (front rest : Bytes) :
    Utf8 (front ++ b :: rest) ↔ Utf8 front ∧ Utf8 rest := by
  have hbyte : ∀ text, Utf8 (b :: text) ↔ Utf8 text := fun text =>
    @utf8_append_left [b] text (utf8_byte hb)
  constructor
  · intro h
    have hfront : Utf8 front := by
      have hcut := (utf8_take_iff h front.length).mpr (by simpa using first_of_ascii hb)
      simpa using hcut
    exact ⟨hfront, (hbyte rest).mp ((utf8_append_left hfront).mp h)⟩
  · rintro ⟨hf, hr⟩
    exact hf.append ((hbyte rest).mpr hr)

theorem utf8_cons {b : UInt8} (hb : b < 128) (rest : Bytes) : Utf8 (b :: rest) ↔ Utf8 rest := by
  simpa [utf8_nil] using utf8_around hb [] rest

theorem utf8_append_right {front rest : Bytes} (hr : Ascii rest) :
    Utf8 (front ++ rest) ↔ Utf8 front := by
  cases rest with
  | nil => simp
  | cons b rest =>
    rw [utf8_around (hr b List.mem_cons_self)]
    exact and_iff_left (hr.mono (List.subset_cons_self b rest)).utf8

section Cutting

variable {text : Bytes} {p : UInt8 → Bool}

/-- A run that only an ASCII byte ends is whole, and so is what follows it. -/
theorem Utf8.span (h : Utf8 text) (hp : ∀ b, p b = false → b < 128) :
    Utf8 (text.takeWhile p) ∧ Utf8 (text.dropWhile p) := by
  have hsplit := List.takeWhile_append_dropWhile (p := p) (l := text)
  cases hrest : text.dropWhile p with
  | nil =>
    rw [hrest, List.append_nil] at hsplit
    exact ⟨hsplit.symm ▸ h, utf8_nil⟩
  | cons b rest =>
    have hb : b < 128 := hp b (by
      have hstop := List.head?_dropWhile_not p text
      rw [hrest] at hstop
      simpa using hstop)
    rw [← hsplit, hrest, utf8_around hb] at h
    exact ⟨h.1, (utf8_cons hb rest).mpr h.2⟩

theorem Utf8.dropWhile (h : Utf8 text) (hp : ∀ b, p b = true → b < 128) :
    Utf8 (text.dropWhile p) := by
  have hfront : Utf8 (text.takeWhile p) :=
    Ascii.utf8 fun b hb => hp b (List.mem_takeWhile_imp hb)
  rw [← utf8_append_left hfront, List.takeWhile_append_dropWhile]
  exact h

theorem Utf8.rdropWhile (h : Utf8 text) (hp : ∀ b, p b = true → b < 128) :
    Utf8 (text.rdropWhile p) := by
  have hback : Ascii (text.rtakeWhile p) := fun b hb => hp b (List.mem_rtakeWhile_imp hb)
  rw [← utf8_append_right hback, List.rdropWhile_append_rtakeWhile]
  exact h

theorem Utf8.trimBoth (h : Utf8 text) (hp : ∀ b, p b = true → b < 128) :
    Utf8 (trimBoth p text) := (h.dropWhile hp).rdropWhile hp

theorem Utf8.cString (h : Utf8 text) : Utf8 (cString text) :=
  (h.span fun b hb => by
    have hnul : b = nul := by simpa using hb
    rw [hnul]
    decide).1

/-- Replacing ASCII bytes by ASCII texts changes nothing. -/
theorem utf8_flatMap_iff {f : UInt8 → Bytes} (hascii : ∀ b, b < 128 → f b ≠ [] ∧ Ascii (f b))
    (hself : ∀ b, ¬ b < 128 → f b = [b]) (text : Bytes) : Utf8 (text.flatMap f) ↔ Utf8 text := by
  have hgeneral : ∀ front, Utf8 (front ++ text.flatMap f) ↔ Utf8 (front ++ text) := by
    induction text with
    | nil => simp
    | cons b text ih =>
      intro front
      rw [List.flatMap_cons]
      by_cases hb : b < 128
      · obtain ⟨hne, hbytes⟩ := hascii b hb
        obtain ⟨x, rest, hx⟩ := List.exists_cons_of_ne_nil hne
        rw [hx] at hbytes ⊢
        have hrest : Utf8 rest := (hbytes.mono (List.subset_cons_self x rest)).utf8
        have htail := ih []
        simp only [List.nil_append] at htail
        rw [List.cons_append, utf8_around (hbytes x List.mem_cons_self), utf8_around hb,
          utf8_append_left hrest, htail]
      · rw [hself b hb, List.singleton_append, List.append_cons, ih, ← List.append_cons]
  exact hgeneral []

end Cutting

end DbApi.Library
