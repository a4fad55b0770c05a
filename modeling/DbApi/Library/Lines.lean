import DbApi.Library.Bytes

namespace DbApi.Library.Lines

/-- What `fgets` takes from the rest of a stream: through the first line feed,
and at most `room` bytes. -/
def fgets : Nat → Bytes → Bytes
  | 0, _ => []
  | _ + 1, [] => []
  | room + 1, b :: rest => if b = lineFeed then [b] else b :: fgets room rest

@[simp] theorem fgets_nil (room : Nat) : fgets room [] = [] := by cases room <;> rfl

theorem fgets_isPrefix (room : Nat) (text : Bytes) : fgets room text <+: text := by
  induction room generalizing text with
  | zero => simp [fgets]
  | succ room ih =>
    cases text with
    | nil => simp
    | cons b rest =>
      simp only [fgets]
      split
      · exact ⟨rest, rfl⟩
      · exact List.cons_prefix_cons.mpr ⟨rfl, ih rest⟩

theorem fgets_length_le (room : Nat) (text : Bytes) : (fgets room text).length ≤ room := by
  induction room generalizing text with
  | zero => simp [fgets]
  | succ room ih =>
    cases text with
    | nil => simp
    | cons b rest =>
      simp only [fgets]
      split
      · simp
      · simpa using ih rest

theorem fgets_ne_nil {room : Nat} {text : Bytes} (hr : 0 < room) (ht : text ≠ []) :
    fgets room text ≠ [] := by
  cases room with
  | zero => omega
  | succ room =>
    cases text with
    | nil => contradiction
    | cons b rest =>
      simp only [fgets]
      split <;> simp

/-- A text that lacks a line feed is read up to the limit. -/
theorem fgets_row {row : Bytes} (hn : lineFeed ∉ row) (room : Nat) :
    fgets room row = row.take room := by
  induction room generalizing row with
  | zero => simp [fgets]
  | succ room ih =>
    cases row with
    | nil => simp
    | cons b rest =>
      simp only [List.mem_cons, not_or] at hn
      simp [fgets, Ne.symm hn.1, ih hn.2]

theorem fgets_of_pos {room : Nat} (hr : 0 < room) : fgets room [lineFeed] = [lineFeed] := by
  cases room with
  | zero => omega
  | succ room => simp [fgets]

/-- A line shorter than the limit is read with its line feed. -/
theorem fgets_line {row : Bytes} (hn : lineFeed ∉ row) {room : Nat} (hfit : row.length < room) :
    fgets room (row ++ [lineFeed]) = row ++ [lineFeed] := by
  induction room generalizing row with
  | zero => omega
  | succ room ih =>
    cases row with
    | nil => simp [fgets]
    | cons b rest =>
      simp only [List.mem_cons, not_or] at hn
      simp only [List.length_cons] at hfit
      simp [fgets, Ne.symm hn.1, ih hn.2 (by omega)]

/-- Where a call stops before the end of `front`, what follows does not matter. -/
theorem fgets_append {room : Nat} {front : Bytes}
    (hf : lineFeed ∈ front ∨ room ≤ front.length) (rest : Bytes) :
    fgets room (front ++ rest) = fgets room front := by
  induction room generalizing front with
  | zero => simp [fgets]
  | succ room ih =>
    cases front with
    | nil => simp at hf
    | cons b front =>
      simp only [List.cons_append, fgets]
      split
      · rfl
      · rename_i hb
        rw [ih]
        simpa [Ne.symm hb] using hf

/-- All the reads of a loop of `fgets` calls, each with the offset it starts at. -/
def fgetsAll (room offset : Nat) (text : Bytes) : List (Nat × Bytes) :=
  match h : fgets room text with
  | [] => []
  | b :: rest =>
    (offset, b :: rest) ::
      fgetsAll room (offset + (rest.length + 1)) (text.drop (rest.length + 1))
termination_by text.length
decreasing_by
  have := (fgets_isPrefix room text).length_le
  simp only [h, List.length_cons] at this
  simp only [List.length_drop]
  omega

@[simp] theorem fgetsAll_nil (room offset : Nat) : fgetsAll room offset [] = [] := by
  rw [fgetsAll]
  split
  · rfl
  · simp_all

theorem fgetsAll_step {room : Nat} {text : Bytes} (hr : 0 < room) (ht : text ≠ []) (offset : Nat) :
    fgetsAll room offset text = (offset, fgets room text) ::
      fgetsAll room (offset + (fgets room text).length)
        (text.drop (fgets room text).length) := by
  rw [fgetsAll]
  split
  · exact absurd ‹_› (fgets_ne_nil hr ht)
  · simp_all

theorem fgetsAll_eq_nil {room offset : Nat} {text : Bytes} (hr : 0 < room) :
    fgetsAll room offset text = [] ↔ text = [] := by
  constructor
  · intro h
    by_contra ht
    rw [fgetsAll_step hr ht] at h
    contradiction
  · rintro rfl
    simp

/-- Seeking to the offset of a read and reading once repeats that read. -/
theorem fgetsAll_seek {room offset : Nat} {text : Bytes} (hr : 0 < room) {start : Nat}
    {piece : Bytes} (hp : (start, piece) ∈ fgetsAll room offset text) :
    offset ≤ start ∧ fgets room (text.drop (start - offset)) = piece ∧ piece ≠ [] := by
  induction h : text.length using Nat.strongRecOn generalizing offset text with
  | ind n ih =>
    by_cases ht : text = []
    · simp [ht] at hp
    rw [fgetsAll_step hr ht] at hp
    rcases List.mem_cons.mp hp with he | hp
    · obtain ⟨rfl, rfl⟩ := Prod.mk.injEq .. ▸ he
      exact ⟨le_rfl, by simp, fgets_ne_nil hr ht⟩
    · have hpos : 0 < (fgets room text).length := List.length_pos_iff.mpr (fgets_ne_nil hr ht)
      have hlen : 0 < text.length := List.length_pos_iff.mpr ht
      obtain ⟨ha, hf, hne⟩ := ih _ (by simp; omega) hp rfl
      refine ⟨by omega, ?_, hne⟩
      rw [List.drop_drop] at hf
      rwa [show start - offset = (fgets room text).length + (start - (offset + (fgets room text).length))
        by omega]

/-- A text that ends a line splits the reads of what follows off. -/
theorem fgetsAll_append {room offset : Nat} {front : Bytes} (hr : 0 < room)
    (hf : ∀ b ∈ front.getLast?, b = lineFeed) (rest : Bytes) :
    fgetsAll room offset (front ++ rest) =
      fgetsAll room offset front ++ fgetsAll room (offset + front.length) rest := by
  induction h : front.length using Nat.strongRecOn generalizing offset front with
  | ind n ih =>
    by_cases hn : front = []
    · subst hn
      simp
      simp at h
      simp [← h]
    have hmem : lineFeed ∈ front := by
      have hl := List.getLast?_eq_some_getLast hn
      exact hf _ hl ▸ List.getLast_mem hn
    have hread : fgets room (front ++ rest) = fgets room front := fgets_append (.inl hmem) rest
    have hle := (fgets_isPrefix room front).length_le
    have hpos : 0 < (fgets room front).length := List.length_pos_iff.mpr (fgets_ne_nil hr hn)
    have hlen : 0 < front.length := List.length_pos_iff.mpr hn
    rw [fgetsAll_step hr (by simp [hn]), fgetsAll_step hr hn, hread, List.drop_append_of_le_length hle,
      ih _ (by simp; omega) _ rfl, List.cons_append]
    · have hshift : offset + (fgets room front).length + (front.drop (fgets room front).length).length
          = offset + front.length := by
        simp only [List.length_drop]
        omega
      rw [hshift, h]
    · intro b hb
      rw [List.getLast?_drop] at hb
      split at hb
      · simp at hb
      · exact hf b hb

/-- A row that fits is one read. -/
theorem fgetsAll_row {room : Nat} {row : Bytes} (hn : lineFeed ∉ row) (hne : row ≠ [])
    (hfit : row.length ≤ room) (offset : Nat) : fgetsAll room offset row = [(offset, row)] := by
  have hlen : 0 < row.length := List.length_pos_iff.mpr hne
  rw [fgetsAll_step (by omega) hne, fgets_row hn, List.take_of_length_le hfit]
  simp

/-- A row that does not fit is cut at the limit. -/
theorem fgetsAll_long {room : Nat} {row : Bytes} (hr : 0 < room) (hn : lineFeed ∉ row)
    (hlong : room < row.length) (offset : Nat) :
    fgetsAll room offset row =
      (offset, row.take room) :: fgetsAll room (offset + room) (row.drop room) := by
  have hne : row ≠ [] := List.ne_nil_of_length_pos (by omega)
  rw [fgetsAll_step hr hne, fgets_row hn, List.length_take, Nat.min_eq_left hlong.le]

/-- For a reader that ignores line endings and blank reads, ending a text with
a line feed changes nothing. -/
theorem fgetsAll_newline {β : Type} {room : Nat} (hr : 0 < room) {f : Nat × Bytes → Option β}
    (hblank : ∀ o, f (o, []) = none) (hend : ∀ o p, f (o, p ++ [lineFeed]) = f (o, p))
    (offset : Nat) (text : Bytes) :
    (fgetsAll room offset (text ++ [lineFeed])).filterMap f =
      (fgetsAll room offset text).filterMap f := by
  induction h : text.length using Nat.strongRecOn generalizing offset text with
  | ind n ih =>
    by_cases hn : text = []
    · subst hn
      rw [fgetsAll_step hr (by simp)]
      have hf : f (offset, [lineFeed]) = none := (hend offset []).trans (hblank offset)
      simp [fgets_of_pos hr, hf]
    rw [fgetsAll_step hr (by simp), fgetsAll_step hr hn]
    by_cases hstop : lineFeed ∈ text ∨ room ≤ text.length
    · have hle := (fgets_isPrefix room text).length_le
      have hpos : 0 < (fgets room text).length := List.length_pos_iff.mpr (fgets_ne_nil hr hn)
      rw [fgets_append hstop, List.drop_append_of_le_length hle, List.filterMap_cons,
        List.filterMap_cons, ih _ (by simp; omega) _ _ rfl]
    · simp only [not_or, not_le] at hstop
      rw [fgets_row hstop.1, fgets_line hstop.1 hstop.2, List.take_of_length_le hstop.2.le]
      simp [List.filterMap_cons, hend]

/-- The same for the reads after the first. -/
theorem fgetsAll_newline_tail {β : Type} {room : Nat} (hr : 0 < room) {f : Nat × Bytes → Option β}
    (hblank : ∀ o, f (o, []) = none) (hend : ∀ o p, f (o, p ++ [lineFeed]) = f (o, p))
    (offset : Nat) (text : Bytes) :
    (fgetsAll room offset (text ++ [lineFeed])).tail.filterMap f =
      (fgetsAll room offset text).tail.filterMap f := by
  by_cases hn : text = []
  · subst hn
    rw [fgetsAll_step hr (by simp)]
    simp [fgets_of_pos hr]
  rw [fgetsAll_step hr (by simp), fgetsAll_step hr hn, List.tail_cons, List.tail_cons]
  by_cases hstop : lineFeed ∈ text ∨ room ≤ text.length
  · rw [fgets_append hstop, List.drop_append_of_le_length (fgets_isPrefix room text).length_le,
      fgetsAll_newline hr hblank hend]
  · simp only [not_or, not_le] at hstop
    rw [fgets_row hstop.1, fgets_line hstop.1 hstop.2, List.take_of_length_le hstop.2.le]
    simp

end DbApi.Library.Lines
