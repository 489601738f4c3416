import DiceNotation.Grapheme

/-!
# The line buffer

Lines that come from a pipe are collected in a buffer. One line end is taken off, and every
backspace erases the grapheme cluster before it.
-/
namespace DiceNotation.Editor.LineBuffer

def cutLineEnd (text : List Char) : List Char × List Char :=
  match text.reverse with
  | '\n' :: '\r' :: rest => (rest.reverse, ['\r', '\n'])
  | '\n' :: rest => (rest.reverse, ['\n'])
  | _ => (text, [])

/-- Erases with each backspace the cluster before it; `kept` holds the clusters so far, the last
one first. -/
def eraseFrom (kept : List (List Char)) : List (List Char) → List (List Char)
  | [] => kept.reverse
  | ['\x08'] :: rest => eraseFrom kept.tail rest
  | cluster :: rest => eraseFrom (cluster :: kept) rest

def applyBackspaces (text : List Char) : List Char :=
  if text.contains '\x08' then (eraseFrom [] (Grapheme.clusters text)).flatten else text

end DiceNotation.Editor.LineBuffer
