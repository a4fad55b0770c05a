import DbApi.Library.Occurrence
import DbApi.Library.Decimal

namespace DbApi.Library

def crlf : Bytes := [carriageReturn, lineFeed]

/-- What ends the head of a message. -/
def blankLine : Bytes := crlf ++ crlf

def joinLines (line : Bytes) (lines : List Bytes) : Bytes := line ++ lines.flatMap (crlf ++ ·)

def splitLines : Bytes → List Bytes
  | [] => [[]]
  | 13 :: 10 :: rest => [] :: splitLines rest
  | b :: rest =>
    match splitLines rest with
    | [] => [[b]]
    | line :: lines => (b :: line) :: lines

def number (text : Bytes) : Option Nat :=
  if text ≠ [] ∧ text.all isDigit = true then some (digitsValue text) else none

/-- The value of the first field of that name, behind the first line of a head. -/
def fieldValue (name head : Bytes) : Option Bytes :=
  (splitLines head).tail.findSome? fun line =>
    if (name ++ ascii ": ").isPrefixOf line then some (line.drop (name.length + 2)) else none

/-- The number of bytes that a head announces. -/
def contentLength (head : Bytes) : Option Nat :=
  (fieldValue (ascii "Content-Length") head).bind number

/-- A line as the head of a message has them. -/
def IsLine (line : Bytes) : Prop := line ≠ [] ∧ carriageReturn ∉ line

instance (line : Bytes) : Decidable (IsLine line) := inferInstanceAs (Decidable (_ ∧ _))

/-- A line within which no line end stands; a lone CR or LF may. -/
def Unbroken (line : Bytes) : Prop := ¬ crlf <:+: line

theorem unbroken_of_no_return {line : Bytes} (h : carriageReturn ∉ line) : Unbroken line := by
  intro hpart
  exact h (hpart.subset List.mem_cons_self)

theorem IsLine.unbroken {line : Bytes} (h : IsLine line) : line ≠ [] ∧ Unbroken line :=
  ⟨h.1, unbroken_of_no_return h.2⟩

theorem Unbroken.tail {b : UInt8} {line : Bytes} (h : Unbroken (b :: line)) : Unbroken line := by
  intro hpart
  exact h (hpart.trans (List.suffix_cons b line).isInfix)

/-- No line end begins in a line that is followed by one. -/
theorem Unbroken.not_crlf {line : Bytes} (h : Unbroken line) (rest : Bytes) {m : Nat}
    (hm : m < line.length) : ¬ crlf <+: (line ++ (crlf ++ rest)).drop m := by
  intro hp
  rw [List.drop_append_of_le_length hm.le] at hp
  by_cases hlast : m + 1 < line.length
  · have hshort : crlf.length ≤ (line.drop m).length := by
      rw [List.length_drop]
      change 2 ≤ _
      omega
    have hin := List.prefix_of_prefix_length_le hp (List.prefix_append _ _) hshort
    exact h (hin.isInfix.trans (List.drop_suffix m line).isInfix)
  · have hnil : line.drop (m + 1) = [] := List.drop_eq_nil_of_le (by omega)
    rw [List.drop_eq_getElem_cons hm, hnil] at hp
    obtain ⟨-, hp⟩ := List.cons_prefix_cons.mp hp
    obtain ⟨hfeed, -⟩ := List.cons_prefix_cons.mp hp
    cases hfeed

theorem not_blankLine {line rest : Bytes} (h : Unbroken line) {m : Nat} (hm : m < line.length) :
    ¬ blankLine <+: (line ++ (crlf ++ rest)).drop m := by
  intro hp
  exact h.not_crlf rest hm ((List.prefix_append crlf crlf).trans hp)

/-- No blank line begins in a line that is followed by another. -/
theorem not_blankLine_line {line next rest : Bytes} (hl : Unbroken line) (hne : next ≠ [])
    (hn : Unbroken next) {m : Nat} (hm : m < line.length + 2) :
    ¬ blankLine <+: (line ++ crlf ++ (next ++ (crlf ++ rest))).drop m := by
  rw [List.append_assoc]
  by_cases hlt : m < line.length
  · exact not_blankLine hl hlt
  · obtain ⟨k, rfl⟩ : ∃ k, m = line.length + k := ⟨m - line.length, by omega⟩
    rw [← List.drop_drop, List.drop_left]
    intro h
    obtain rfl | rfl : k = 0 ∨ k = 1 := by omega
    · obtain ⟨-, h⟩ := List.cons_prefix_cons.mp h
      obtain ⟨-, h⟩ := List.cons_prefix_cons.mp h
      have hfirst := hn.not_crlf rest (List.length_pos_of_ne_nil hne)
      exact hfirst h
    · obtain ⟨hfirst, -⟩ := List.cons_prefix_cons.mp h
      cases hfirst

/-- The first blank line of a message ends its head. -/
theorem findFirst_blankLine {line : Bytes} {lines : List Bytes} (hl : Unbroken line)
    (hlines : ∀ l ∈ lines, l ≠ [] ∧ Unbroken l) (body : Bytes) :
    findFirst blankLine (joinLines line lines ++ blankLine ++ body) =
      some (joinLines line lines).length := by
  induction lines generalizing line with
  | nil =>
    have hsplit : joinLines line [] ++ blankLine ++ body = line ++ (crlf ++ (crlf ++ body)) := by
      simp [joinLines, blankLine]
    have hstart : findFirst blankLine (crlf ++ (crlf ++ body)) = some 0 := by
      rw [← List.append_assoc]
      exact findFirst_start body
    rw [hsplit, joinLines, List.flatMap_nil, List.append_nil]
    exact findFirst_skip (fun m hm => not_blankLine hl hm) hstart
  | cons next lines ih =>
    obtain ⟨hne, hnext⟩ := hlines next List.mem_cons_self
    have htail := ih hnext fun l hl => hlines l (List.mem_cons_of_mem _ hl)
    have hjoin : joinLines line (next :: lines) = line ++ crlf ++ joinLines next lines := by
      simp only [joinLines, List.flatMap_cons, List.append_assoc]
    have hends : ∃ rest, joinLines next lines ++ blankLine ++ body = next ++ (crlf ++ rest) := by
      cases lines with
      | nil => exact ⟨crlf ++ body, by simp [joinLines, blankLine]⟩
      | cons l lines =>
        exact ⟨l ++ (lines.flatMap (crlf ++ ·) ++ blankLine ++ body), by simp [joinLines]⟩
    rw [hjoin, List.append_assoc (line ++ crlf), List.append_assoc (line ++ crlf),
      List.length_append]
    refine findFirst_skip (fun m hm => ?_) htail
    obtain ⟨rest, hrest⟩ := hends
    rw [hrest]
    exact not_blankLine_line hl hne hnext (by simpa [crlf] using hm)

/-- The first line of a text ends where it ends. -/
theorem findFirst_crlf {line : Bytes} (hl : Unbroken line) (rest : Bytes) :
    findFirst crlf (line ++ (crlf ++ rest)) = some line.length :=
  findFirst_skip (fun _ hm => hl.not_crlf rest hm) (findFirst_start rest)

/-- Lines that each begin behind a line end, or each end with one. -/
theorem flatMap_crlf (lines : List Bytes) :
    lines.flatMap (crlf ++ ·) ++ crlf = crlf ++ lines.flatMap (· ++ crlf) := by
  induction lines with
  | nil => rfl
  | cons line lines ih =>
    rw [List.flatMap_cons, List.flatMap_cons, List.append_assoc, ih, List.append_assoc,
      List.append_assoc]

theorem splitLines_byte {b : UInt8} (hb : b ≠ carriageReturn) (rest : Bytes) :
    splitLines (b :: rest) =
      match splitLines rest with
      | [] => [[b]]
      | line :: lines => (b :: line) :: lines := by
  rw [splitLines]
  intro _ h
  exact absurd h hb

theorem splitLines_line {line : Bytes} (hl : carriageReturn ∉ line) : splitLines line = [line] := by
  induction line with
  | nil => rfl
  | cons b line ih =>
    rw [List.mem_cons, not_or] at hl
    rw [splitLines_byte (Ne.symm hl.1), ih hl.2]

theorem splitLines_crlf {line : Bytes} (hl : Unbroken line) (rest : Bytes) :
    splitLines (line ++ crlf ++ rest) = line :: splitLines rest := by
  induction line with
  | nil => rfl
  | cons b line ih =>
    have hnext : ∀ after, b = 13 → line ++ crlf ++ rest = 10 :: after → False := by
      intro after hb hafter
      cases line with
      | nil => cases hafter
      | cons c line =>
        obtain rfl : c = 10 := List.head_eq_of_cons_eq hafter
        subst hb
        exact hl (List.prefix_append [13, 10] line).isInfix
    rw [List.cons_append, List.cons_append, splitLines, ih hl.tail]
    exact hnext

theorem splitLines_ended {lines : List Bytes} (h : ∀ line ∈ lines, Unbroken line) :
    splitLines (lines.flatMap (· ++ crlf)) = lines ++ [[]] := by
  induction lines with
  | nil => rfl
  | cons line lines ih =>
    rw [List.flatMap_cons, splitLines_crlf (h line List.mem_cons_self),
      ih fun other hmem => h other (List.mem_cons_of_mem _ hmem)]
    rfl

theorem splitLines_join {line : Bytes} {lines : List Bytes} (hl : carriageReturn ∉ line)
    (hlines : ∀ l ∈ lines, IsLine l) : splitLines (joinLines line lines) = line :: lines := by
  induction lines generalizing line with
  | nil =>
    rw [joinLines, List.flatMap_nil, List.append_nil]
    exact splitLines_line hl
  | cons next lines ih =>
    have hjoin : joinLines line (next :: lines) = line ++ crlf ++ joinLines next lines := by
      simp only [joinLines, List.flatMap_cons, List.append_assoc]
    rw [hjoin, splitLines_crlf (unbroken_of_no_return hl),
      ih (hlines next List.mem_cons_self).2 fun l hl => hlines l (List.mem_cons_of_mem _ hl)]

theorem number_decimalNat (n : Nat) : number (decimalNat n) = some n := by
  rw [number, if_pos ⟨decimalNat_ne_nil n, List.all_eq_true.mpr (decimalNat_digits n)⟩,
    digitsValue_decimalNat]

end DbApi.Library
