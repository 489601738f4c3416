/-!
# Modifier keywords

Every modifier but the bare threshold starts with a keyword. Where several keywords match, the
longest one counts, so the table lists each keyword before those that it extends.
-/
namespace DiceNotation

inductive Keyword where
  | compound
  | penetrate
  | explode
  | keepHigh
  | keepLow
  | keep
  | dropHigh
  | dropLow
  | drop
  | rerollOnce
  | reroll
  | sortAscending
  | sortDescending
  | success
  | critSuccess
  | critFailure
  | failure
deriving DecidableEq, Repr

namespace Keyword

def text : Keyword → List Char
  | .compound => ['!', '!']
  | .penetrate => ['!', 'p']
  | .explode => ['!']
  | .keepHigh => ['k', 'h']
  | .keepLow => ['k', 'l']
  | .keep => ['k']
  | .dropHigh => ['d', 'h']
  | .dropLow => ['d', 'l']
  | .drop => ['d']
  | .rerollOnce => ['r', 'o']
  | .reroll => ['r']
  | .sortAscending => ['s', 'a']
  | .sortDescending => ['s', 'd']
  | .success => ['s']
  | .critSuccess => ['c', 's']
  | .critFailure => ['c', 'f']
  | .failure => ['f']

def all : List Keyword :=
  [.compound, .penetrate, .explode, .keepHigh, .keepLow, .keep, .dropHigh, .dropLow, .drop,
    .rerollOnce, .reroll, .sortAscending, .sortDescending, .success, .critSuccess, .critFailure,
    .failure]

def atFront? (text : List Char) : Option Keyword :=
  all.find? fun keyword => keyword.text.isPrefixOf text

theorem mem_all (keyword : Keyword) : keyword ∈ all := by
  cases keyword <;> decide

theorem length_text_pos (keyword : Keyword) : 0 < keyword.text.length := by
  cases keyword <;> decide

theorem text_injective {k l : Keyword} (h : k.text = l.text) : k = l := by
  revert h
  cases k <;> cases l <;> decide

end Keyword

end DiceNotation
