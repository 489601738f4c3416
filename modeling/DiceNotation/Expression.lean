import DiceNotation.Braces
import DiceNotation.Term

/-!
# Expressions

An expression is a sum of members, and a member is a dice term or a group: expressions in braces
with some text behind the closing brace, which is kept without effect. The kind of an expression
is that of its first term.
-/
namespace DiceNotation

inductive Member where
  | term (term : Term)
  | group (parts : List (List Member)) (options : List Char)
deriving Repr

abbrev Expression := List Member

mutual

def Member.terms : Member → List Term
  | .term term => [term]
  | .group parts _ => Expression.termsOfParts parts

def Expression.terms : List Member → List Term
  | [] => []
  | member :: members => member.terms ++ Expression.terms members

def Expression.termsOfParts : List (List Member) → List Term
  | [] => []
  | part :: parts => Expression.terms part ++ Expression.termsOfParts parts

end

def Term.leadingKind : List Term → Kind
  | [] => .sum
  | term :: _ => term.kind

def Member.kind (member : Member) : Kind := Term.leadingKind member.terms

def Expression.kind (expression : Expression) : Kind :=
  Term.leadingKind (Expression.terms expression)

mutual

def Member.text : Member → List Char
  | .term term => term.text
  | .group parts options => '{' :: Expression.textOfParts parts ++ '}' :: options

def Expression.text : List Member → List Char
  | [] => []
  | [member] => member.text
  | member :: members => member.text ++ '+' :: Expression.text members

def Expression.textOfParts : List (List Member) → List Char
  | [] => []
  | [part] => Expression.text part
  | part :: parts => Expression.text part ++ ',' :: Expression.textOfParts parts

end

mutual

def Member.depth : Member → Nat
  | .term _ => 0
  | .group parts _ => Expression.depthOfParts parts + 1

def Expression.depth : List Member → Nat
  | [] => 0
  | member :: members => max member.depth (Expression.depth members)

def Expression.depthOfParts : List (List Member) → Nat
  | [] => 0
  | part :: parts => max (Expression.depth part) (Expression.depthOfParts parts)

end

end DiceNotation
