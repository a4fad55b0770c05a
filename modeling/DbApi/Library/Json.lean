import DbApi.Library.Utf8

namespace DbApi.Library.Json

/-- The values that are no arrays or objects; the numbers are whole. -/
inductive Scalar where
  | null
  | boolean (value : Bool)
  | number (value : Int)
  | text (value : Bytes)
deriving DecidableEq

abbrev Members := List (Bytes × Scalar)

def isBlank (b : UInt8) : Bool := b == 32 || b == 9 || b == 10 || b == 13

def skipBlanks (text : Bytes) : Bytes := text.dropWhile isBlank

def hexValue (b : UInt8) : Option Nat :=
  if isDigit b then some (b.toNat - 48)
  else if 97 ≤ b && b ≤ 102 then some (b.toNat - 87)
  else if 65 ≤ b && b ≤ 70 then some (b.toNat - 55)
  else none

def hexCode (a b c d : UInt8) : Option Nat := do
  let a ← hexValue a
  let b ← hexValue b
  let c ← hexValue c
  let d ← hexValue d
  return ((a * 16 + b) * 16 + c) * 16 + d

/-- The bytes of a code point of four hexadecimal digits; half a surrogate pair has
none. -/
def utf8 (code : Nat) : Option Bytes :=
  if code < 128 then some [code.toUInt8]
  else if code < 2048 then some [(192 + code / 64).toUInt8, (128 + code % 64).toUInt8]
  else if 55296 ≤ code && code < 57344 then none
  else
    some [(224 + code / 4096).toUInt8, (128 + code / 64 % 64).toUInt8, (128 + code % 64).toUInt8]

/-- The byte that a letter stands for behind a backslash. -/
def escapedByte (letter : UInt8) : Option UInt8 :=
  if letter = 34 then some 34
  else if letter = 92 then some 92
  else if letter = 47 then some 47
  else if letter = 98 then some 8
  else if letter = 102 then some 12
  else if letter = 110 then some 10
  else if letter = 114 then some 13
  else if letter = 116 then some 9
  else none

/-- A string behind its opening quote, and what follows its closing one. -/
def readText : Bytes → Option (Bytes × Bytes)
  | [] => none
  | 34 :: rest => some ([], rest)
  | 92 :: 117 :: a :: b :: c :: d :: rest => do
    let bytes ← (hexCode a b c d).bind utf8
    let (text, rest) ← readText rest
    return (bytes ++ text, rest)
  | 92 :: letter :: rest => do
    let byte ← escapedByte letter
    let (text, rest) ← readText rest
    return (byte :: text, rest)
  | byte :: rest => do
    if byte < 32 then none
    else
      let (text, rest) ← readText rest
      return (byte :: text, rest)

def isFraction (b : UInt8) : Bool := b == 46 || b == 101 || b == 69

def readDigits (text : Bytes) : Option (Nat × Bytes) :=
  let digits := text.takeWhile isDigit
  let rest := text.dropWhile isDigit
  if digits = [] ∨ (digits.head? = some 48 ∧ 1 < digits.length) ∨ rest.head?.any isFraction = true then
    none
  else some (digitsValue digits, rest)

def readNumber : Bytes → Option (Int × Bytes)
  | 45 :: rest => (readDigits rest).map fun (n, rest) => (-(n : Int), rest)
  | text => (readDigits text).map fun (n, rest) => ((n : Int), rest)

def readScalar : Bytes → Option (Scalar × Bytes)
  | 34 :: rest => (readText rest).map fun (text, rest) => (.text text, rest)
  | text =>
    if (ascii "null").isPrefixOf text then some (.null, text.drop 4)
    else if (ascii "true").isPrefixOf text then some (.boolean true, text.drop 4)
    else if (ascii "false").isPrefixOf text then some (.boolean false, text.drop 5)
    else (readNumber text).map fun (n, rest) => (.number n, rest)

def readMember (text : Bytes) : Option ((Bytes × Scalar) × Bytes) :=
  match skipBlanks text with
  | 34 :: rest => do
    let (name, rest) ← readText rest
    match skipBlanks rest with
    | 58 :: rest => do
      let (value, rest) ← readScalar (skipBlanks rest)
      return ((name, value), rest)
    | _ => none
  | _ => none

/-- The members behind the opening brace, at most `count` of them. -/
def readMembers : Nat → Bytes → Option (Members × Bytes)
  | 0, _ => none
  | count + 1, text => do
    let (member, rest) ← readMember text
    match skipBlanks rest with
    | 44 :: rest => do
      let (members, rest) ← readMembers count rest
      return (member :: members, rest)
    | 125 :: rest => some ([member], rest)
    | _ => none

/-- A text that is one object of scalars, read to its end. -/
def readObject (text : Bytes) : Option Members :=
  match skipBlanks text with
  | 123 :: rest =>
    match skipBlanks rest with
    | 125 :: rest => if skipBlanks rest = [] then some [] else none
    | rest => do
      let (members, rest) ← readMembers text.length rest
      if skipBlanks rest = [] then some members else none
  | _ => none

def hexDigit (n : Nat) : UInt8 := if n < 10 then (48 + n).toUInt8 else (87 + n).toUInt8

/-- The letter that stands for a byte behind a backslash. -/
def escapeLetter (byte : UInt8) : Option UInt8 :=
  if byte = 34 then some 34
  else if byte = 92 then some 92
  else if byte = 8 then some 98
  else if byte = 12 then some 102
  else if byte = 10 then some 110
  else if byte = 13 then some 114
  else if byte = 9 then some 116
  else none

def escapeByte (byte : UInt8) : Bytes :=
  match escapeLetter byte with
  | some letter => [92, letter]
  | none =>
    if byte < 32 then [92, 117, 48, 48, hexDigit (byte.toNat / 16), hexDigit (byte.toNat % 16)]
    else [byte]

def escape (text : Bytes) : Bytes := text.flatMap escapeByte

def printScalar : Scalar → Bytes
  | .null => ascii "null"
  | .boolean true => ascii "true"
  | .boolean false => ascii "false"
  | .number value => decimal value
  | .text value => ascii "\"" ++ escape value ++ ascii "\""

def printMember (member : Bytes × Scalar) : Bytes :=
  ascii "\"" ++ escape member.1 ++ ascii "\":" ++ printScalar member.2

def printMembers : Members → Bytes
  | [] => []
  | [member] => printMember member
  | member :: next :: rest => printMember member ++ ascii "," ++ printMembers (next :: rest)

def printObject (members : Members) : Bytes := ascii "\x7b" ++ printMembers members ++ ascii "\x7d"

theorem escapedByte_letter {byte letter : UInt8} (h : escapeLetter byte = some letter) :
    letter ≠ 117 ∧ escapedByte letter = some byte := by
  unfold escapeLetter at h
  split_ifs at h <;> cases h <;> subst_vars <;> decide

theorem hexCode_control {byte : UInt8} (h : byte < 32) :
    (hexCode 48 48 (hexDigit (byte.toNat / 16)) (hexDigit (byte.toNat % 16))).bind utf8 =
      some [byte] := by
  revert byte
  decide +kernel

theorem plain_byte {byte : UInt8} (h : escapeLetter byte = none) : byte ≠ 34 ∧ byte ≠ 92 := by
  constructor
  · rintro rfl
    cases h
  · rintro rfl
    cases h

theorem readText_letter {letter : UInt8} (h : letter ≠ 117) (rest : Bytes) :
    readText (92 :: letter :: rest) = (do
      let byte ← escapedByte letter
      let (text, rest) ← readText rest
      return (byte :: text, rest)) := by
  rw [readText]
  intro _ _ _ _ _ hletter
  exact absurd hletter h

theorem readText_plain {byte : UInt8} (hq : byte ≠ 34) (hb : byte ≠ 92) (hc : ¬ byte < 32)
    (rest : Bytes) :
    readText (byte :: rest) = (do
      let (text, rest) ← readText rest
      return (byte :: text, rest)) := by
  rw [readText, if_neg hc]
  · exact hq
  · intro _ _ _ _ _ h
    exact absurd h hb
  · intro _ _ h
    exact absurd h hb

/-- A byte is read back from what it is printed as. -/
theorem readText_escapeByte (byte : UInt8) (rest : Bytes) :
    readText (escapeByte byte ++ rest) =
      (readText rest).map fun (text, rest) => (byte :: text, rest) := by
  unfold escapeByte
  cases hletter : escapeLetter byte with
  | some letter =>
    obtain ⟨hu, hescaped⟩ := escapedByte_letter hletter
    dsimp only [List.cons_append, List.nil_append]
    rw [readText_letter hu, hescaped]
    cases readText rest <;> rfl
  | none =>
    obtain ⟨hq, hb⟩ := plain_byte hletter
    by_cases hc : byte < 32
    · rw [if_pos hc]
      dsimp only [List.cons_append, List.nil_append]
      rw [readText, hexCode_control hc]
      cases readText rest <;> rfl
    · rw [if_neg hc]
      dsimp only [List.cons_append, List.nil_append]
      rw [readText_plain hq hb hc]
      cases readText rest <;> rfl

theorem readText_escape (text rest : Bytes) :
    readText (escape text ++ 34 :: rest) = some (text, rest) := by
  induction text with
  | nil => rfl
  | cons byte text ih =>
    rw [escape, List.flatMap_cons, List.append_assoc, readText_escapeByte]
    rw [escape] at ih
    rw [ih]
    rfl

/-- What follows a number: a byte that does not belong to it. -/
def Ends (rest : Bytes) : Prop := ∀ b ∈ rest.head?, isDigit b = false ∧ isFraction b = false

theorem readDigits_decimal (n : Nat) {rest : Bytes} (hr : Ends rest) :
    readDigits (decimalNat n ++ rest) = some (n, rest) := by
  obtain ⟨htake, hdrop⟩ := span_decimalNat n fun b hb => (hr b hb).1
  have hzero : ¬ ((decimalNat n).head? = some 48 ∧ 1 < (decimalNat n).length) := by
    rintro ⟨hhead, hlength⟩
    obtain ⟨digits, hdigits⟩ := List.head?_eq_some_iff.mp hhead
    obtain ⟨-, rfl⟩ := decimalNat_zero hdigits
    rw [hdigits] at hlength
    exact absurd hlength (by simp)
  have hfraction : ¬ rest.head?.any isFraction = true := by
    rw [Option.any_eq_true]
    rintro ⟨b, hb, hfraction⟩
    rw [(hr b hb).2] at hfraction
    cases hfraction
  rw [readDigits, htake, hdrop, digitsValue_decimalNat, if_neg]
  rintro (hnil | h | h)
  · exact decimalNat_ne_nil n hnil
  · exact hzero h
  · exact hfraction h

theorem decimal_head (n : Nat) : ∃ digit digits, decimalNat n = digit :: digits ∧
    isDigit digit = true := by
  obtain ⟨digit, digits, h⟩ := List.exists_cons_of_ne_nil (decimalNat_ne_nil n)
  exact ⟨digit, digits, h, decimalNat_digits n digit (by simp [h])⟩

theorem digit_start {digit : UInt8} (h : isDigit digit = true) :
    digit ≠ 45 ∧ digit ≠ 34 ∧ digit ≠ 110 ∧ digit ≠ 116 ∧ digit ≠ 102 ∧ isBlank digit = false := by
  revert digit
  decide +kernel

theorem readNumber_decimal (value : Int) {rest : Bytes} (hr : Ends rest) :
    readNumber (decimal value ++ rest) = some (value, rest) := by
  cases value with
  | ofNat n =>
    obtain ⟨digit, digits, hdigits, hdigit⟩ := decimal_head n
    have hread := readDigits_decimal n hr
    rw [decimal, hdigits, List.cons_append] at *
    rw [readNumber, hread]
    · rfl
    · intro _ h
      exact (digit_start hdigit).1 (List.cons.inj h).1
  | negSucc n =>
    have hread := readDigits_decimal (n + 1) hr
    change readNumber (45 :: (decimalNat (n + 1) ++ rest)) = _
    rw [readNumber, hread]
    rfl

theorem decimal_start (value : Int) : ∃ first tail, decimal value = first :: tail ∧
    first ≠ 34 ∧ first ≠ 110 ∧ first ≠ 116 ∧ first ≠ 102 ∧ isBlank first = false := by
  cases value with
  | ofNat n =>
    obtain ⟨digit, digits, hdigits, hdigit⟩ := decimal_head n
    exact ⟨digit, digits, hdigits, (digit_start hdigit).2⟩
  | negSucc n => exact ⟨45, decimalNat (n + 1), rfl, by decide⟩

theorem not_start {first b : UInt8} {tail word : Bytes} (h : first ≠ b) :
    (b :: word).isPrefixOf (first :: tail) = false := by
  rw [List.isPrefixOf, beq_eq_false_iff_ne.mpr h.symm, Bool.false_and]

theorem readScalar_print (value : Scalar) {rest : Bytes} (hr : Ends rest) :
    readScalar (printScalar value ++ rest) = some (value, rest) := by
  cases value with
  | null => rfl
  | boolean value => cases value <;> rfl
  | number value =>
    obtain ⟨first, tail, hstart, hquote, hn, ht, hf, -⟩ := decimal_start value
    have hread := readNumber_decimal value hr
    rw [hstart, List.cons_append] at hread
    rw [printScalar, hstart, List.cons_append, readScalar, hread]
    · change (if ((110 : UInt8) :: [117, 108, 108]).isPrefixOf (first :: (tail ++ rest)) = true then _
        else if ((116 : UInt8) :: [114, 117, 101]).isPrefixOf (first :: (tail ++ rest)) = true then _
        else if ((102 : UInt8) :: [97, 108, 115, 101]).isPrefixOf (first :: (tail ++ rest)) = true
          then _
        else _) = _
      rw [not_start hn, not_start ht, not_start hf]
      rfl
    · intro _ h
      exact hquote (List.cons.inj h).1
  | text value =>
    have hread := readText_escape value rest
    change readScalar (34 :: (escape value ++ [34] ++ rest)) = _
    rw [readScalar, List.append_assoc]
    change Option.map _ (readText (escape value ++ 34 :: rest)) = _
    rw [hread]
    rfl

theorem printScalar_start (value : Scalar) : ∃ first tail, printScalar value = first :: tail ∧
    isBlank first = false := by
  cases value with
  | null => exact ⟨110, _, rfl, rfl⟩
  | boolean value => cases value <;> exact ⟨_, _, rfl, rfl⟩
  | number value =>
    obtain ⟨first, tail, hstart, -, -, -, -, hblank⟩ := decimal_start value
    exact ⟨first, tail, hstart, hblank⟩
  | text value => exact ⟨34, _, rfl, rfl⟩

theorem skipBlanks_start {first : UInt8} (h : isBlank first = false) (tail : Bytes) :
    skipBlanks (first :: tail) = first :: tail := by
  rw [skipBlanks, List.dropWhile_cons, h, if_neg (by decide)]

theorem readMember_quote (text : Bytes) :
    readMember (34 :: text) = (readText text).bind fun (name, rest) =>
      match skipBlanks rest with
      | 58 :: rest => do
        let (value, rest) ← readScalar (skipBlanks rest)
        return ((name, value), rest)
      | _ => none := rfl

theorem readMember_print (member : Bytes × Scalar) {rest : Bytes} (hr : Ends rest) :
    readMember (printMember member ++ rest) = some (member, rest) := by
  obtain ⟨name, value⟩ := member
  have hname := readText_escape name (58 :: (printScalar value ++ rest))
  have hvalue := readScalar_print value hr
  obtain ⟨first, tail, hstart, hblank⟩ := printScalar_start value
  have hprint : printMember (name, value) ++ rest =
      34 :: (escape name ++ 34 :: 58 :: (printScalar value ++ rest)) := by
    change 34 :: (escape name ++ [34, 58] ++ printScalar value) ++ rest = _
    simp
  rw [hprint, readMember_quote, hname]
  change ((readScalar (skipBlanks (printScalar value ++ rest))).bind fun (value, rest) =>
    some ((name, value), rest)) = _
  rw [hstart] at hvalue ⊢
  rw [List.cons_append] at hvalue ⊢
  rw [skipBlanks_start hblank, hvalue]
  rfl

theorem ends_comma (rest : Bytes) : Ends (44 :: rest) := by
  rintro _ ⟨⟩
  exact ⟨rfl, rfl⟩

theorem ends_brace (rest : Bytes) : Ends (125 :: rest) := by
  rintro _ ⟨⟩
  exact ⟨rfl, rfl⟩

theorem readMembers_last {count : Nat} {text rest : Bytes} {member : Bytes × Scalar}
    (h : readMember text = some (member, 125 :: rest)) :
    readMembers (count + 1) text = some ([member], rest) := by
  rw [readMembers, h]
  rfl

theorem readMembers_comma {count : Nat} {text rest : Bytes} {member : Bytes × Scalar}
    (h : readMember text = some (member, 44 :: rest)) :
    readMembers (count + 1) text =
      (readMembers count rest).map fun (members, rest) => (member :: members, rest) := by
  rw [readMembers, h]
  change ((readMembers count rest).bind fun (members, rest) => some (member :: members, rest)) = _
  cases readMembers count rest <;> rfl

theorem readMembers_print (members : Members) (hne : members ≠ []) {count : Nat}
    (hcount : members.length ≤ count) (rest : Bytes) :
    readMembers count (printMembers members ++ 125 :: rest) = some (members, rest) := by
  induction members generalizing count with
  | nil => exact absurd rfl hne
  | cons member members ih =>
    obtain ⟨count, rfl⟩ : ∃ n, count = n + 1 := ⟨count - 1, by
      simp only [List.length_cons] at hcount
      omega⟩
    cases members with
    | nil => exact readMembers_last (readMember_print member (ends_brace rest))
    | cons next members =>
      have hlength : (next :: members).length ≤ count := by simpa using hcount
      have hprint : printMembers (member :: next :: members) ++ 125 :: rest =
          printMember member ++ 44 :: (printMembers (next :: members) ++ 125 :: rest) := by
        change printMember member ++ [44] ++ printMembers (next :: members) ++ 125 :: rest = _
        simp
      rw [hprint, readMembers_comma (readMember_print member (ends_comma _)),
        ih (List.cons_ne_nil _ _) hlength]
      rfl

theorem printMembers_length (members : Members) : members.length ≤ (printMembers members).length := by
  induction members with
  | nil => simp
  | cons member members ih =>
    have hmember : 1 ≤ (printMember member).length := by
      simp [printMember, ascii]
    cases members with
    | nil => exact hmember
    | cons next members =>
      rw [printMembers, List.length_append, List.length_append, List.length_cons]
      omega

theorem readObject_members {text : Bytes} {members : Members}
    (h : readMembers (text.length + 2) (34 :: text) = some (members, [])) :
    readObject (123 :: 34 :: text) = some members := by
  change ((readMembers (text.length + 2) (34 :: text)).bind fun (members, rest) =>
    if skipBlanks rest = [] then some members else none) = _
  rw [h]
  rfl

/-- An object is read back from what it is printed as. -/
theorem readObject_print (members : Members) : readObject (printObject members) = some members := by
  cases members with
  | nil => rfl
  | cons member members =>
    obtain ⟨tail, htail⟩ : ∃ tail, printMembers (member :: members) ++ [125] = 34 :: tail := by
      cases members <;> exact ⟨_, rfl⟩
    have hlength : (member :: members).length ≤ tail.length + 2 := by
      have hprinted := printMembers_length (member :: members)
      have htotal := congrArg List.length htail
      simp only [List.length_append, List.length_cons, List.length_nil] at hprinted htotal ⊢
      omega
    have hread := readMembers_print (member :: members) (List.cons_ne_nil _ _) hlength []
    rw [htail] at hread
    change readObject (123 :: (printMembers (member :: members) ++ [125])) = _
    rw [htail]
    exact readObject_members hread

/-- Free of control characters. -/
def isPlain (text : Bytes) : Bool := text.all (32 ≤ ·)

@[simp] theorem isPlain_append (front rest : Bytes) :
    isPlain (front ++ rest) = (isPlain front && isPlain rest) := List.all_append

@[simp] theorem escape_plain (text : Bytes) : isPlain (escape text) = true := by
  have hbyte : ∀ byte, isPlain (escapeByte byte) = true := by decide +kernel
  induction text with
  | nil => rfl
  | cons byte text ih =>
    change isPlain (escapeByte byte ++ escape text) = true
    rw [isPlain_append, hbyte, ih]
    rfl

@[simp] theorem decimalNat_plain (n : Nat) : isPlain (decimalNat n) = true := by
  have hdigit : ∀ b, isDigit b = true → 32 ≤ b := by decide +kernel
  apply List.all_eq_true.mpr
  intro b hb
  exact decide_eq_true (hdigit b (decimalNat_digits n b hb))

@[simp] theorem decimal_plain (value : Int) : isPlain (decimal value) = true := by
  cases value with
  | ofNat n => exact decimalNat_plain n
  | negSucc n =>
    rw [decimal, isPlain_append, decimalNat_plain]
    rfl

theorem printScalar_plain (value : Scalar) : isPlain (printScalar value) = true := by
  cases value with
  | null => rfl
  | boolean value => cases value <;> rfl
  | number value => exact decimal_plain value
  | text value =>
    rw [printScalar, isPlain_append, isPlain_append, escape_plain]
    rfl

theorem printMember_plain (member : Bytes × Scalar) : isPlain (printMember member) = true := by
  rw [printMember, isPlain_append, isPlain_append, isPlain_append, escape_plain, printScalar_plain]
  rfl

theorem printMembers_plain (members : Members) : isPlain (printMembers members) = true := by
  induction members with
  | nil => rfl
  | cons member members ih =>
    cases members with
    | nil => exact printMember_plain member
    | cons next members =>
      rw [printMembers, isPlain_append, isPlain_append, printMember_plain, ih]
      rfl

/-- No control character is printed. -/
theorem printObject_plain (members : Members) : isPlain (printObject members) = true := by
  rw [printObject, isPlain_append, isPlain_append, printMembers_plain]
  rfl

theorem escapeByte_ascii {byte : UInt8} (h : byte < 128) :
    escapeByte byte ≠ [] ∧ Ascii (escapeByte byte) := by
  have hdigit : ∀ n < 16, hexDigit n < 128 := by decide
  rw [escapeByte]
  cases hletter : escapeLetter byte with
  | some letter =>
    have hascii : letter < 128 := by
      unfold escapeLetter at hletter
      split_ifs at hletter <;> cases hletter <;> decide
    simp [Ascii, hascii]
  | none =>
    by_cases hc : byte < 32
    · have hbyte : byte.toNat < 32 := hc
      have hhigh := hdigit (byte.toNat / 16) (by omega)
      have hlow := hdigit (byte.toNat % 16) (by omega)
      simp [Ascii, hc, hhigh, hlow]
    · simp [Ascii, hc, h]

/-- A text is printed as UTF-8 exactly when it is UTF-8. -/
theorem utf8_escape (text : Bytes) : Utf8 (escape text) ↔ Utf8 text := by
  have hself : ∀ byte, ¬ byte < 128 → escapeByte byte = [byte] := by decide +kernel
  exact utf8_flatMap_iff (fun _ => escapeByte_ascii) hself text

/-- Of the scalars only a text may be anything but ASCII. -/
def Scalar.IsUtf8 : Scalar → Prop
  | .text value => Utf8 value
  | _ => True

theorem utf8_printScalar (value : Scalar) : Utf8 (printScalar value) ↔ value.IsUtf8 := by
  cases value with
  | null => exact iff_of_true (utf8_ascii _ rfl) trivial
  | boolean value => cases value <;> exact iff_of_true (utf8_ascii _ rfl) trivial
  | number value => exact iff_of_true (ascii_decimal value).utf8 trivial
  | text value =>
    change Utf8 (34 :: (escape value ++ [34])) ↔ Utf8 value
    rw [utf8_cons (by decide), @utf8_append_right _ [34] (by simp [Ascii]), utf8_escape]

theorem utf8_printMember (member : Bytes × Scalar) :
    Utf8 (printMember member) ↔ Utf8 member.1 ∧ member.2.IsUtf8 := by
  have hprint : printMember member =
      34 :: (escape member.1 ++ 34 :: 58 :: printScalar member.2) := by
    simp [printMember, ascii]
  rw [hprint, utf8_cons (by decide), utf8_around (by decide), utf8_cons (by decide), utf8_escape,
    utf8_printScalar]

theorem utf8_printMembers (members : Members) :
    Utf8 (printMembers members) ↔ ∀ member ∈ members, Utf8 member.1 ∧ member.2.IsUtf8 := by
  induction members with
  | nil => simp [printMembers, utf8_nil]
  | cons member members ih =>
    rw [List.forall_mem_cons]
    cases members with
    | nil => simp [printMembers, utf8_printMember]
    | cons next members =>
      have hprint : printMembers (member :: next :: members) =
          printMember member ++ 44 :: printMembers (next :: members) := by
        simp [printMembers, ascii]
      rw [hprint, utf8_around (by decide), utf8_printMember, ih]

/-- An object is UTF-8 exactly when all its names and texts are. -/
theorem utf8_printObject (members : Members) :
    Utf8 (printObject members) ↔ ∀ member ∈ members, Utf8 member.1 ∧ member.2.IsUtf8 := by
  change Utf8 (123 :: (printMembers members ++ [125])) ↔ _
  rw [utf8_cons (by decide), @utf8_append_right _ [125] (by simp [Ascii]), utf8_printMembers]

end DbApi.Library.Json
