import DiceNotation.Term

/-!
# Throwing a term

A source answers how many sides came up when a die of so many sides is thrown, and may change its
state. A term throws its die as often as its count says, in order, and keeps the faces.
-/
namespace DiceNotation

/-- Answers a throw of a die with the given number of sides. -/
abbrev Source (σ : Type) := UInt64 → StateM σ UInt64

def Die.throw {σ : Type} (source : Source σ) (die : Die) : StateM σ Int64 := do
  let thrown ← source die.sides.toUInt64
  return die.face thrown

structure ThrownTerm where
  term : Term
  faces : List Int64
deriving DecidableEq, Repr

def Term.dice (term : Term) : List Die := List.replicate term.count.toNat term.die

def Term.throw {σ : Type} (source : Source σ) (term : Term) : StateM σ ThrownTerm := do
  let faces ← term.dice.mapM (Die.throw source)
  return ⟨term, faces⟩

namespace ThrownTerm

def total (thrown : ThrownTerm) : Total :=
  match thrown.term.tally? with
  | some tally => ⟨.success, Total.add (thrown.faces.map tally.score)⟩
  | none => ⟨.sum, Total.add thrown.faces⟩

def fateSymbol (face : Int64) : Char :=
  if face < 0 then '-' else if face = 0 then '0' else '+'

/-- A numbered face: stars around a critical success, then underscores around a critical
failure. -/
def markedFace (critSuccess critFailure : FaceRange) (face : Int64) : List Char :=
  let number := Decimal.ofInt face.toInt
  let starred := if critSuccess.contains face then ['*', '*'] ++ number ++ ['*', '*'] else number
  if critFailure.contains face then ['_', '_'] ++ starred ++ ['_', '_'] else starred

def text (thrown : ThrownTerm) : List Char :=
  let faces :=
    match thrown.term.die with
    | .fate => List.intercalate [' '] (thrown.faces.map fun face => [fateSymbol face])
    | .sided _ =>
      List.intercalate ['+']
        (thrown.faces.map (markedFace thrown.term.critSuccess thrown.term.critFailure))
  '(' :: faces ++ [')']

end ThrownTerm

end DiceNotation
