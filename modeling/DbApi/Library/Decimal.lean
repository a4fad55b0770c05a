import DbApi.Library.Bytes

namespace DbApi.Library

def digitByte (n : Nat) : UInt8 := (Nat.digitChar n).toNat.toUInt8

theorem decimalNat_eq (n : Nat) :
    decimalNat n = if n < 10 then [digitByte n] else decimalNat (n / 10) ++ [digitByte (n % 10)] := by
  rw [decimalNat, Nat.toDigits_eq_if (by decide)]
  split
  · rfl
  · rw [List.map_append]
    rfl

theorem digitByte_digit {n : Nat} (h : n < 10) :
    isDigit (digitByte n) = true ∧ (digitByte n).toNat - 48 = n := by
  revert n
  decide

theorem digitByte_zero {n : Nat} (h : n < 10) (hzero : digitByte n = 48) : n = 0 := by
  revert n
  decide

theorem decimalNat_digits (n : Nat) : ∀ b ∈ decimalNat n, isDigit b = true := by
  induction n using Nat.strongRecOn with
  | ind n ih =>
    intro b hb
    rw [decimalNat_eq] at hb
    split at hb
    · rename_i hlt
      rw [List.mem_singleton.mp hb]
      exact (digitByte_digit hlt).1
    · rcases List.mem_append.mp hb with hb | hb
      · exact ih (n / 10) (by omega) b hb
      · rw [List.mem_singleton.mp hb]
        exact (digitByte_digit (by omega)).1

theorem decimalNat_ne_nil (n : Nat) : decimalNat n ≠ [] := by
  rw [decimalNat_eq]
  split <;> simp

theorem digitsValue_append (digits : Bytes) (digit : UInt8) :
    digitsValue (digits ++ [digit]) = 10 * digitsValue digits + (digit.toNat - 48) := by
  rw [digitsValue, List.foldl_append]
  rfl

theorem digitsValue_decimalNat (n : Nat) : digitsValue (decimalNat n) = n := by
  induction n using Nat.strongRecOn with
  | ind n ih =>
    rw [decimalNat_eq]
    split
    · rename_i hlt
      have := (digitByte_digit hlt).2
      simpa [digitsValue] using this
    · rw [digitsValue_append, ih (n / 10) (by omega), (digitByte_digit (by omega)).2]
      omega

/-- Only zero is written with a leading zero. -/
theorem decimalNat_zero {n : Nat} {rest : Bytes} (h : decimalNat n = 48 :: rest) :
    n = 0 ∧ rest = [] := by
  induction n using Nat.strongRecOn generalizing rest with
  | ind n ih =>
    rw [decimalNat_eq] at h
    split at h
    · rename_i hlt
      obtain ⟨hdigit, rfl⟩ := List.cons.inj h
      exact ⟨digitByte_zero hlt hdigit, rfl⟩
    · obtain ⟨first, front, hfront⟩ := List.exists_cons_of_ne_nil (decimalNat_ne_nil (n / 10))
      rw [hfront] at h
      obtain ⟨rfl, -⟩ := List.cons.inj h
      have := (ih (n / 10) (by omega) hfront).1
      omega

/-- A number is read whole where no digit follows. -/
theorem span_decimalNat (n : Nat) {rest : Bytes} (hr : ∀ b ∈ rest.head?, isDigit b = false) :
    (decimalNat n ++ rest).takeWhile isDigit = decimalNat n ∧
      (decimalNat n ++ rest).dropWhile isDigit = rest := by
  rw [List.takeWhile_append_of_pos (decimalNat_digits n),
    List.dropWhile_append_of_pos (decimalNat_digits n)]
  cases rest with
  | nil => simp
  | cons b rest => simp [hr b rfl]

end DbApi.Library
