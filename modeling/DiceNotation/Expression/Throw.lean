import DiceNotation.Expression
import DiceNotation.Term.Throw

/-!
# Throwing an expression

The members of an expression are thrown from left to right, and those of a group in place, so
dice fall in the order in which they are written. Totals of nested parts are added up, and the
text of a group is that of its parts with no sign of the braces.
-/
namespace DiceNotation

inductive ThrownMember where
  | term (thrown : ThrownTerm)
  | group (parts : List (List ThrownMember)) (options : List Char)
deriving Repr

abbrev ThrownExpression := List ThrownMember

section

variable {σ : Type} (source : Source σ)

mutual

def Member.throw : Member → StateM σ ThrownMember
  | .term term => ThrownMember.term <$> term.throw source
  | .group parts options => do
    let thrown ← Expression.throwParts parts
    return .group thrown options

def Expression.throw : List Member → StateM σ (List ThrownMember)
  | [] => return []
  | member :: members => do
    let thrown ← member.throw
    let others ← Expression.throw members
    return thrown :: others

def Expression.throwParts : List (List Member) → StateM σ (List (List ThrownMember))
  | [] => return []
  | part :: parts => do
    let thrown ← Expression.throw part
    let others ← Expression.throwParts parts
    return thrown :: others

end

end

mutual

def ThrownMember.terms : ThrownMember → List ThrownTerm
  | .term thrown => [thrown]
  | .group parts _ => ThrownExpression.termsOfParts parts

def ThrownExpression.terms : List ThrownMember → List ThrownTerm
  | [] => []
  | member :: members => member.terms ++ ThrownExpression.terms members

def ThrownExpression.termsOfParts : List (List ThrownMember) → List ThrownTerm
  | [] => []
  | part :: parts => ThrownExpression.terms part ++ ThrownExpression.termsOfParts parts

end

def ThrownTerm.leadingKind (thrown : List ThrownTerm) : Kind :=
  Term.leadingKind (thrown.map ThrownTerm.term)

mutual

def ThrownMember.value : ThrownMember → Int64
  | .term thrown => thrown.total.value
  | .group parts _ => Total.add (ThrownExpression.valuesOfParts parts)

def ThrownExpression.values : List ThrownMember → List Int64
  | [] => []
  | member :: members => member.value :: ThrownExpression.values members

def ThrownExpression.valuesOfParts : List (List ThrownMember) → List Int64
  | [] => []
  | part :: parts =>
    Total.add (ThrownExpression.values part) :: ThrownExpression.valuesOfParts parts

end

def ThrownMember.total (member : ThrownMember) : Total :=
  ⟨ThrownTerm.leadingKind member.terms, member.value⟩

def ThrownExpression.total (thrown : ThrownExpression) : Total :=
  ⟨ThrownTerm.leadingKind (ThrownExpression.terms thrown),
    Total.add (ThrownExpression.values thrown)⟩

mutual

def ThrownMember.text : ThrownMember → List Char
  | .term thrown => thrown.text
  | .group parts _ => ThrownExpression.textOfParts parts

def ThrownExpression.text : List ThrownMember → List Char
  | [] => []
  | [member] => member.text
  | member :: members => member.text ++ '+' :: ThrownExpression.text members

def ThrownExpression.textOfParts : List (List ThrownMember) → List Char
  | [] => []
  | [part] => ThrownExpression.text part
  | part :: parts => ThrownExpression.text part ++ '+' :: ThrownExpression.textOfParts parts

end

end DiceNotation
