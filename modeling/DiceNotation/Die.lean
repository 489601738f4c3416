import DiceNotation.Decimal

/-!
# Dice

A die has numbered sides, or it is a fate die. A fate die is thrown with three sides, and two is
taken off what comes up, so its faces are -1, 0 and 1.
-/
namespace DiceNotation

inductive Die where
  | sided (sides : UInt32)
  | fate
deriving DecidableEq, Repr

namespace Die

def sides : Die → UInt32
  | .sided n => n
  | .fate => 3

def isFate : Die → Bool
  | .sided _ => false
  | .fate => true

def face : Die → UInt64 → Int64
  | .sided _, thrown => thrown.toInt64
  | .fate, thrown => thrown.toInt64 - 2

def text : Die → List Char
  | .sided n => 'd' :: Decimal.digits n.toNat
  | .fate => ['d', 'F']

end Die

end DiceNotation
