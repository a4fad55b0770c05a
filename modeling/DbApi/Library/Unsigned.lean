import Mathlib

namespace DbApi.Library

/-- Arithmetic on the unsigned numbers of `w` bits; it has no result where the machine's
would wrap around. -/
def unsigned (w n : Nat) : Option Nat := if n < 2 ^ w then some n else none

def addUnsigned (w a b : Nat) : Option Nat := unsigned w (a + b)

def mulUnsigned (w a b : Nat) : Option Nat := unsigned w (a * b)

def subUnsigned (a b : Nat) : Option Nat := if b ≤ a then some (a - b) else none

def maxUnsigned (w : Nat) : Nat := 2 ^ w - 1

theorem maxUnsigned_succ (w : Nat) : maxUnsigned w + 1 = 2 ^ w :=
  Nat.sub_add_cancel Nat.one_le_two_pow

theorem addUnsigned_fits {w a b : Nat} (h : a + b < 2 ^ w) : addUnsigned w a b = some (a + b) :=
  if_pos h

theorem mulUnsigned_fits {w a b : Nat} (h : a * b < 2 ^ w) : mulUnsigned w a b = some (a * b) :=
  if_pos h

theorem subUnsigned_le {a b : Nat} (h : b ≤ a) : subUnsigned a b = some (a - b) := if_pos h

/-- The guard of a step of decimal reading, which takes no product. -/
theorem decimal_guard {w parsedValue digit : Nat} (hdigit : digit ≤ maxUnsigned w) :
    (maxUnsigned w - digit) / 10 < parsedValue ↔ ¬ parsedValue * 10 + digit < 2 ^ w := by
  have hmax := maxUnsigned_succ w
  omega

/-- The guard of a sum, which takes no sum. -/
theorem add_guard {w a b : Nat} (ha : a ≤ maxUnsigned w) :
    maxUnsigned w - a < b ↔ ¬ a + b < 2 ^ w := by
  have hmax := maxUnsigned_succ w
  omega

end DbApi.Library
