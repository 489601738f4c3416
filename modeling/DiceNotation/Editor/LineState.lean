import DiceNotation.Query

/-!
# The state of a line

Before a line is submitted it is read without throwing anything, so that errors show early. A line
is blank, has a brace still open, is ready to be thrown, or is rejected. Throwing a line reads it
in the same way.
-/
namespace DiceNotation.Editor

inductive LineState where
  | blank
  /-- More braces are opened than closed anywhere in the line. -/
  | unclosed
  | ready
  | rejected (error : RollError)
deriving DecidableEq, Repr

def LineState.check (options : Options) (line : List Char) : LineState :=
  if (trim line).isEmpty then
    .blank
  else if line.count '}' < line.count '{' then
    .unclosed
  else
    match Query.parse ⟨line, options⟩ with
    | .ok _ => .ready
    | .error e => .rejected e

def solveLine {σ : Type} (source : Source σ) (options : Options) (line : List Char) :
    StateM σ (Option (Except RollError Outcome)) :=
  match trim line with
  | [] => return none
  | query => some <$> Query.solve source ⟨query, options⟩

end DiceNotation.Editor
