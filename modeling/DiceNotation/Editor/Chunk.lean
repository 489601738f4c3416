/-!
# Input in chunks

Piped input comes line by line, each line with the line feed that ends it. A line that is no text
can be told apart, but not read.
-/
namespace DiceNotation.Editor

inductive Chunk where
  | text (line : List Char)
  | garbled
deriving DecidableEq, Repr

namespace Chunk

/-- Cuts a list behind each element that ends a piece. A last piece without end is kept unless it
is empty. -/
def cutBehind {α : Type} (ends : α → Bool) : List α → List (List α)
  | [] => []
  | a :: rest =>
    if ends a then
      [a] :: cutBehind ends rest
    else
      match cutBehind ends rest with
      | [] => [[a]]
      | piece :: pieces => (a :: piece) :: pieces

def ofText (text : List Char) : List Chunk := (cutBehind (· = '\n') text).map .text

def ofBytes (bytes : List UInt8) : List Chunk :=
  (cutBehind (· = 10) bytes).map fun line =>
    match String.fromUTF8? ⟨line.toArray⟩ with
    | some decoded => .text decoded.toList
    | none => .garbled

end Chunk

end DiceNotation.Editor
