import DiceNotation.Decimal

/-!
# Conditions

A modifier carries a comparator and perhaps a number. The comparator is always written, also
where it was left out in the input and `=` was meant.
-/
namespace DiceNotation

inductive Comparator where
  | greater
  | less
  | equal
deriving DecidableEq, Repr

namespace Comparator

instance : Inhabited Comparator := ⟨.equal⟩

def symbol : Comparator → Char
  | .greater => '>'
  | .less => '<'
  | .equal => '='

def ofChar? (c : Char) : Option Comparator :=
  if c = '>' then some .greater
  else if c = '<' then some .less
  else if c = '=' then some .equal
  else none

theorem ofChar?_symbol (comparator : Comparator) :
    ofChar? comparator.symbol = some comparator := by
  cases comparator <;> rfl

theorem symbol_of_ofChar? {c : Char} {comparator : Comparator}
    (h : ofChar? c = some comparator) : comparator.symbol = c := by
  unfold ofChar? at h
  split at h
  · cases h; simp_all [symbol]
  · split at h
    · cases h; simp_all [symbol]
    · split at h
      · cases h; simp_all [symbol]
      · cases h

end Comparator

structure Condition where
  comparator : Comparator := default
  number : Option Int64 := none
deriving DecidableEq, Repr

def Condition.text (condition : Condition) : List Char :=
  condition.comparator.symbol ::
    match condition.number with
    | some n => Decimal.ofInt n.toInt
    | none => []

end DiceNotation
