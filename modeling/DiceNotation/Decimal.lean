/-!
# Decimal text

A number is written as its ASCII digits without leading zeros, and a digit run of any length is
read as the number it stands for. Writing then reading returns the number.
-/
namespace DiceNotation.Decimal

def digits (n : Nat) : List Char := Nat.toDigits 10 n

def value (run : List Char) : Nat := Nat.ofDigitChars 10 run 0

def ofInt (i : Int) : List Char :=
  if i < 0 then '-' :: digits i.natAbs else digits i.natAbs

def run (text : List Char) : List Char := text.takeWhile Char.isDigit

def afterRun (text : List Char) : List Char := text.dropWhile Char.isDigit

theorem value_digits (n : Nat) : value (digits n) = n :=
  Nat.ofDigitChars_toDigits (by decide) (by decide)

theorem isDigit_of_mem_digits {n : Nat} {c : Char} (h : c ∈ digits n) : c.isDigit = true :=
  Nat.isDigit_of_mem_toDigits (by decide) (by decide) h

theorem run_append_afterRun (text : List Char) : run text ++ afterRun text = text :=
  List.takeWhile_append_dropWhile

def toUInt64? (n : Nat) : Option UInt64 :=
  if n < UInt64.size then some (UInt64.ofNat n) else none

def toUInt32? (n : Nat) : Option UInt32 :=
  if n < UInt32.size then some (UInt32.ofNat n) else none

def maxInt64 : Nat := UInt64.size / 2 - 1

/-- The signed 64-bit number nearest to `n`: numbers above the largest one become that one. -/
def saturate (n : Nat) : Int64 := Int64.ofNat (min n maxInt64)

end DiceNotation.Decimal
