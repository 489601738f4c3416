import DiceNotation.Condition

/-!
# Face ranges

A range of faces is a list of clauses joined by "or". An empty range holds no face, and a
repeated clause changes nothing but the list.
-/
namespace DiceNotation

inductive Clause where
  | equals (n : Int64)
  | above (n : Int64)
  | below (n : Int64)
deriving DecidableEq, Repr

namespace Clause

def ofComparison : Comparator → Int64 → Clause
  | .greater, n => .above n
  | .less, n => .below n
  | .equal, n => .equals n

def holds : Clause → Int64 → Bool
  | .equals n, face => face == n
  | .above n, face => decide (n < face)
  | .below n, face => decide (face < n)

end Clause

structure FaceRange where
  clauses : List Clause := []
deriving DecidableEq, Repr

namespace FaceRange

def empty : FaceRange := {}

def contains (range : FaceRange) (face : Int64) : Bool := range.clauses.any (·.holds face)

def add (range : FaceRange) (clause : Clause) : FaceRange := ⟨range.clauses ++ [clause]⟩

/-- Ways to change a range: one more clause, or one clause in place of all others. -/
inductive Edit where
  | add (clause : Clause)
  | reset (clause : Clause)
deriving DecidableEq, Repr

def Edit.clause : Edit → Clause
  | .add clause => clause
  | .reset clause => clause

def apply (range : FaceRange) : Edit → FaceRange
  | .add clause => range.add clause
  | .reset clause => ⟨[clause]⟩

def ofEdits (edits : List Edit) : FaceRange := edits.foldl apply empty

end FaceRange

end DiceNotation
