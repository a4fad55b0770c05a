import Mathlib

namespace DbApi.Library

abbrev Bytes := List UInt8

/-- The bytes of an ASCII literal. -/
def ascii (s : String) : Bytes := s.toList.map (fun c => c.toNat.toUInt8)

def nul : UInt8 := 0
def tab : UInt8 := 9
def lineFeed : UInt8 := 10
def carriageReturn : UInt8 := 13
def space : UInt8 := 32

/-- `isspace` in the C locale: blank, TAB, LF, VT, FF and CR. -/
def isSpace (b : UInt8) : Bool := b == 32 || (9 ≤ b && b ≤ 13)

def isDigit (b : UInt8) : Bool := 48 ≤ b && b ≤ 57

def isUpper (b : UInt8) : Bool := 65 ≤ b && b ≤ 90

def isLower (b : UInt8) : Bool := 97 ≤ b && b ≤ 122

def isAlpha (b : UInt8) : Bool := isUpper b || isLower b

def isAlnum (b : UInt8) : Bool := isAlpha b || isDigit b

def toLower (b : UInt8) : UInt8 := if isUpper b then b + 32 else b

def toUpper (b : UInt8) : UInt8 := if isLower b then b - 32 else b

/-- What the string functions see of a buffer: the bytes before the first NUL. -/
def cString (buffer : Bytes) : Bytes := buffer.takeWhile (· != nul)

/-- `snprintf` into a buffer of `size` bytes keeps room for the NUL. -/
def clip (size : Nat) (text : Bytes) : Bytes := text.take (size - 1)

/-- `%zu` and the digits of `%d`. -/
def decimalNat (n : Nat) : Bytes := (Nat.toDigits 10 n).map (fun c => c.toNat.toUInt8)

/-- `%d`. -/
def decimal : Int → Bytes
  | .ofNat n => decimalNat n
  | .negSucc n => ascii "-" ++ decimalNat (n + 1)

/-- Both ends stripped of the bytes satisfying `p`. -/
def trimBoth (p : UInt8 → Bool) (text : Bytes) : Bytes := (text.dropWhile p).rdropWhile p

/-- The value of a run of decimal digits. -/
def digitsValue (digits : Bytes) : Nat := digits.foldl (fun n d => 10 * n + (d.toNat - 48)) 0

theorem clip_length_lt {size : Nat} (text : Bytes) (h : 0 < size) :
    (clip size text).length < size := by
  simp only [clip, List.length_take]
  omega

theorem cString_no_nul (buffer : Bytes) : nul ∉ cString buffer := by
  intro h
  have := List.mem_takeWhile_imp h
  simp at this

theorem cString_of_no_nul {buffer : Bytes} (h : nul ∉ buffer) : cString buffer = buffer := by
  apply List.takeWhile_eq_self_iff.mpr
  intro b hb
  simp only [bne_iff_ne]
  rintro rfl
  exact h hb

/-- Trimming leaves a text alone exactly when neither end is to be stripped. -/
theorem trimBoth_eq_self {p : UInt8 → Bool} {text : Bytes} :
    trimBoth p text = text ↔
      (∀ b ∈ text.head?, p b = false) ∧ (∀ b ∈ text.getLast?, p b = false) := by
  constructor
  · intro h
    have hd : text.dropWhile p = text := by
      apply List.IsSuffix.eq_of_length_le (List.dropWhile_suffix p)
      exact (congrArg List.length h).symm.le.trans (List.rdropWhile_prefix p _).length_le
    rw [trimBoth, hd] at h
    constructor
    · intro b hb
      obtain ⟨rest, rfl⟩ := List.head?_eq_some_iff.mp hb
      by_contra hp
      have := congrArg List.length hd
      have hl := (List.dropWhile_suffix (l := rest) p).length_le
      simp only [Bool.not_eq_false] at hp
      simp only [List.dropWhile_cons, hp, ↓reduceIte, List.length_cons] at this
      omega
    · intro b hb
      obtain ⟨front, rfl⟩ := List.getLast?_eq_some_iff.mp hb
      simpa using List.rdropWhile_eq_self_iff.mp h (by simp)
  · rintro ⟨hh, hl⟩
    have hd : text.dropWhile p = text := by
      cases text with
      | nil => rfl
      | cons b rest => simp [hh b (by simp)]
    rw [trimBoth, hd]
    apply List.rdropWhile_eq_self_iff.mpr
    intro hn
    simp [hl _ (List.getLast?_eq_some_getLast hn)]

end DbApi.Library
