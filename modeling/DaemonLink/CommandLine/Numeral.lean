import DaemonLink.Bytes

/-!
# Numbers on the command line

A number is given in decimal. White space in front of it and one sign are
accepted; anything behind it is not. It has to be a count that fits a signed
word of 32 bits, so a minus sign is only of use in front of zeros.

Any number of digits may stand there. The value of the digits is worked out
until it is known to be too large, and comes out as it is if it never is.
-/

namespace DaemonLink

namespace Numeral

/-- The characters that may stand in front of a number: a blank, and the five
from the tab to the carriage return. -/
def isBlank (b : UInt8) : Bool :=
  b == 32 || (9 ≤ b && b ≤ 13)

/-- The ten digits. -/
def isDigit (b : UInt8) : Bool :=
  48 ≤ b && b ≤ 57

/-- The digit a character stands for. -/
def digitValue (b : UInt8) : Nat :=
  b.toNat - 48

/-- The number written by digits. -/
def value (digits : Bytes) : Nat :=
  digits.foldl (fun n b => n * 10 + digitValue b) 0

/-- The largest number accepted. -/
def max : Nat := 2147483647

/-- The number written by digits, worked out only until it is too large. -/
def boundedValue (digits : Bytes) : Nat :=
  digits.foldl (fun n b => if max < n then n else n * 10 + digitValue b) 0

/-- A number that is not too large is worked out to its end, and one that is
too large is not taken for another. -/
theorem boundedValue_spec (digits : Bytes) :
    boundedValue digits = value digits ∨
      (max < boundedValue digits ∧ max < value digits) := by
  suffices h : ∀ n m : Nat, (n = m ∨ (max < n ∧ max < m)) →
      (digits.foldl (fun n b => if max < n then n else n * 10 + digitValue b) n =
          digits.foldl (fun n b => n * 10 + digitValue b) m ∨
        (max < digits.foldl (fun n b => if max < n then n else n * 10 + digitValue b) n ∧
          max < digits.foldl (fun n b => n * 10 + digitValue b) m)) by
    exact h 0 0 (Or.inl rfl)
  induction digits with
  | nil => exact fun n m h => h
  | cons b rest ih =>
      intro n m h
      simp only [List.foldl_cons]
      apply ih
      by_cases hn : max < n
      · rw [if_pos hn]
        right
        rcases h with h | h <;> omega
      · rw [if_neg hn]
        left
        rcases h with h | h
        · rw [h]
        · exact absurd h.1 hn

/-- A sign, if there is one, and what follows. -/
def splitSign : Bytes → Bool × Bytes
  | 45 :: rest => (true, rest)
  | 43 :: rest => (false, rest)
  | s => (false, s)

/-- Read a number. -/
def parse? (s : Bytes) : Option Nat :=
  let (negative, digits) := splitSign (s.dropWhile isBlank)
  if digits.isEmpty || !digits.all isDigit then none
  else
    let n := boundedValue digits
    if max < n || (negative && n != 0) then none else some n

end Numeral

end DaemonLink
