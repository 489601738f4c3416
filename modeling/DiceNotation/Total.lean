import DiceNotation.Decimal

/-!
# Totals

A roll adds faces up or counts successes less failures. Totals are formed in signed 64-bit
arithmetic, which wraps.
-/
namespace DiceNotation

inductive Kind where
  | sum
  | success
deriving DecidableEq, Repr

structure Total where
  kind : Kind
  value : Int64
deriving DecidableEq, Repr

namespace Total

def sum? (total : Total) : Option Int64 :=
  match total.kind with
  | .sum => some total.value
  | .success => none

def successes? (total : Total) : Option Int64 :=
  match total.kind with
  | .sum => none
  | .success => some total.value

def text (total : Total) : List Char :=
  let number := Decimal.ofInt total.value.toInt
  match total.kind with
  | .sum => number
  | .success =>
    if total.value = 1 ∨ total.value = -1 then
      number ++ [' ', 's', 'u', 'c', 'c', 'e', 's', 's']
    else
      number ++ [' ', 's', 'u', 'c', 'c', 'e', 's', 's', 'e', 's']

def add (values : List Int64) : Int64 := values.foldl (· + ·) 0

end Total

end DiceNotation
