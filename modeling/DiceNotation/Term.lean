import DiceNotation.Die
import DiceNotation.FaceRange
import DiceNotation.Modifier
import DiceNotation.Total

/-!
# Dice terms

A term throws one die a number of times under some modifiers. What the modifiers do is read off
their list: numbered thresholds, successes and failures turn the term into a success count, and
numbered crit modifiers widen the ranges of faces that are marked. All other modifiers are kept
without effect.
-/
namespace DiceNotation

structure Term where
  count : UInt64
  die : Die
  modifiers : List Modifier := []
deriving DecidableEq, Repr

structure Tally where
  success : FaceRange := {}
  failure : FaceRange := {}
deriving DecidableEq, Repr

/-- One for a success, one less for a failure, and both for a face in both ranges. -/
def Tally.score (tally : Tally) (face : Int64) : Int64 :=
  (if tally.success.contains face then 1 else 0) - (if tally.failure.contains face then 1 else 0)

namespace Modifier

inductive Role where
  | success
  | failure
  | critSuccess
  | critFailure
  | inert
deriving DecidableEq, Repr

/-- The bare threshold acts as a success modifier. -/
def role (modifier : Modifier) : Role :=
  match modifier.keyword with
  | none | some .success => .success
  | some .failure => .failure
  | some .critSuccess => .critSuccess
  | some .critFailure => .critFailure
  | some _ => .inert

def clause? (modifier : Modifier) : Option Clause :=
  modifier.condition.number.map (Clause.ofComparison modifier.condition.comparator)

def clauses (role : Role) (modifiers : List Modifier) : List Clause :=
  (modifiers.filter (·.role = role)).filterMap clause?

end Modifier

namespace Term

/-- The tally of a term that counts successes: it has a numbered success or failure modifier. -/
def tally? (term : Term) : Option Tally :=
  let success := Modifier.clauses .success term.modifiers
  let failure := Modifier.clauses .failure term.modifiers
  if success.isEmpty && failure.isEmpty then none else some ⟨⟨success⟩, ⟨failure⟩⟩

def critSuccess (term : Term) : FaceRange :=
  ⟨.above term.die.sides.toUInt64.toInt64 :: Modifier.clauses .critSuccess term.modifiers⟩

def critFailure (term : Term) : FaceRange :=
  ⟨.below 1 :: Modifier.clauses .critFailure term.modifiers⟩

def kind (term : Term) : Kind :=
  match term.tally? with
  | some _ => .success
  | none => .sum

def text (term : Term) : List Char :=
  Decimal.digits term.count.toNat ++ term.die.text ++ Modifier.textAll term.modifiers

end Term

end DiceNotation
