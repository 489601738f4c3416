import DiceNotation.Blank
import DiceNotation.Expression.Reader
import DiceNotation.Expression.Throw

/-!
# Queries

A query is an expression and, behind the first colon, the reason for the roll. Only the text
before the colon decides what is thrown; the reason is carried along to the outcome.
-/
namespace DiceNotation

structure Query where
  text : List Char
  options : Options := {}
deriving DecidableEq, Repr

structure Outcome where
  thrown : ThrownExpression
  reason : Option (List Char)
deriving Repr

namespace Query

def head (query : Query) : List Char := query.text.takeWhile (· ≠ ':')

def expression (query : Query) : List Char := trim query.head

def reason? (query : Query) : Option (List Char) :=
  match query.text.dropWhile (· ≠ ':') with
  | [] => none
  | _ :: rest =>
    match trim rest with
    | [] => none
    | reason => some reason

def dropReason (query : Query) : Query := { query with text := query.head }

def parse (query : Query) : Except RollError Expression :=
  Expression.parse query.options query.expression

def solve {σ : Type} (source : Source σ) (query : Query) : StateM σ (Except RollError Outcome) :=
  match query.parse with
  | .error e => return .error e
  | .ok expression => do
    let thrown ← Expression.throw source expression
    return .ok ⟨thrown, query.reason?⟩

end Query

def Outcome.text (outcome : Outcome) : List Char :=
  ThrownExpression.text outcome.thrown ++ " = **".toList
    ++ (ThrownExpression.total outcome.thrown).text ++ "**".toList
    ++ match outcome.reason with
      | some reason => " *reason* `".toList ++ reason ++ "`".toList
      | none => []

end DiceNotation
