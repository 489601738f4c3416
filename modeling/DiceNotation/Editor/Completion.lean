import DiceNotation.Editor.Position

/-!
# Completion

The keywords that extend what is typed behind a term are offered, longer ones first. What is
typed starts behind the last character that ends a term or another modifier, and nothing is
offered unless a `d` stands somewhere before.
-/
namespace DiceNotation.Editor

structure Completion where
  start : Nat
  words : List (List Char)
deriving DecidableEq, Repr

namespace Completion

def endsWord (c : Char) : Bool := c.isDigit || ['F', '<', '>', '=', '+', ' '].contains c

def vocabulary : List (List Char) :=
  [['!', '!'], ['!', 'p'], ['k', 'h'], ['k', 'l'], ['d', 'h'], ['d', 'l'], ['r', 'o'], ['s', 'a'],
    ['s', 'd'], ['c', 's'], ['c', 'f'], ['!'], ['k'], ['d'], ['r'], ['s'], ['f']]

def partialWord (line : List Char) : List Char :=
  (line.reverse.takeWhile fun c => !endsWord c).reverse

def settled (line : List Char) : List Char :=
  (line.reverse.dropWhile fun c => !endsWord c).reverse

theorem settled_append_partialWord (line : List Char) :
    settled line ++ partialWord line = line := by
  rw [settled, partialWord, ← List.reverse_append, List.takeWhile_append_dropWhile,
    List.reverse_reverse]

def candidates (line : List Char) : Completion :=
  let typed := partialWord line
  { start := byteSize (settled line)
    words :=
      if (settled line).contains 'd' then
        vocabulary.filter fun word => typed.isPrefixOf word && word != typed
      else
        [] }

def complete (line : List Char) (position : Nat) : Completion :=
  candidates (cutAt position line).1

end Completion

end DiceNotation.Editor
