import DiceNotation.Editor.Position
import DiceNotation.Terminal

/-!
# Matching brackets

The bracket under the cursor, or else the one before it, is remembered, and the bracket that
matches it is highlighted. Each kind of bracket is matched on its own.
-/
namespace DiceNotation.Editor

structure Bracket where
  symbol : Char
  partner : Char
  opening : Bool
deriving DecidableEq, Repr

namespace Bracket

def ofChar? : Char → Option Bracket
  | '(' => some ⟨'(', ')', true⟩
  | '[' => some ⟨'[', ']', true⟩
  | '{' => some ⟨'{', '}', true⟩
  | ')' => some ⟨')', '(', false⟩
  | ']' => some ⟨']', '[', false⟩
  | '}' => some ⟨'}', '{', false⟩
  | _ => none

def atByte? (row : List (Option Char)) (position : Nat) : Option Bracket :=
  row[position]?.join.bind ofChar?

def hasRoom (bracket : Bracket) (position size : Nat) : Bool :=
  if bracket.opening then position + 1 ≠ size else position ≠ 0

/-- The bracket that the cursor points at, with its position. At the end of the line only a
bracket that closes there counts. -/
def atCursor? (line : List Char) (cursor : Nat) : Option (Bracket × Nat) :=
  let row := bytes line
  let size := row.length
  let usable (position : Nat) : Option (Bracket × Nat) :=
    ((atByte? row position).filter (hasRoom · position size)).map (·, position)
  if size ≤ cursor then
    ((atByte? row (size - 1)).filter (!·.opening)).map (·, size - 1)
  else if (atByte? row cursor).isSome then
    usable cursor
  else if cursor = 0 then
    none
  else
    usable (cursor - 1)

/-- How far off the partner of a bracket is, when `level` more pairs are open in between. -/
def seek (bracket : Bracket) : Nat → List (Option Char) → Option Nat
  | _, [] => none
  | level, byte :: rest =>
    if byte = some bracket.partner then
      match level with
      | 0 => some 0
      | level + 1 => (seek bracket level rest).map (· + 1)
    else if byte = some bracket.symbol then
      (seek bracket (level + 1) rest).map (· + 1)
    else
      (seek bracket level rest).map (· + 1)

def match? (line : List Char) (bracket : Bracket) (position : Nat) : Option Nat :=
  if bracket.opening then
    (seek bracket 0 ((bytes line).drop (position + 1))).map (position + 1 + ·)
  else
    (seek bracket 0 ((bytes line).take position).reverse).map (position - 1 - ·)

def highlight (remembered : Option (Bracket × Nat)) (line : List Char) : List Char :=
  if byteSize line ≤ 1 then
    line
  else
    match remembered.bind fun (bracket, position) => match? line bracket position with
    | none => line
    | some position =>
      let (before, behind) := cutAt position line
      before ++ Terminal.paint true "1;34" (behind.take 1) ++ behind.drop 1

end Bracket

end DiceNotation.Editor
