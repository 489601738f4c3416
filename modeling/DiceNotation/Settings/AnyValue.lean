import DiceNotation.Settings.Lexical

/-!
# Values of unknown fields

A field that the settings do not know may hold any value: words, numbers, strings, characters,
lists, maps, tuples and records, nested up to a limit. Its value is passed over.
-/
namespace DiceNotation.Settings

def nestingLimit : Nat := 128

inductive Items where
  | values
  | fields
  | pairs
deriving DecidableEq, Repr

def startsField (text : List Char) : Option Bool :=
  match readName? text with
  | none => some false
  | some (_, rest) => do
    match ← skipGap rest with
    | [] => none
    | c :: _ => return c = ':'

def plainWords : List (List Char) :=
  [['t', 'r', 'u', 'e'], ['f', 'a', 'l', 's', 'e'], ['N', 'o', 'n', 'e'], ['i', 'n', 'f'],
    ['N', 'a', 'N']]

def skipScalar (text : List Char) : Option (List Char) :=
  match text with
  | c :: _ =>
    if c.isDigit || c = '+' || c = '-' then skipNumber text
    else if c = '.' then skipFraction text
    else if c = '"' || c = 'r' then (readString? text).map Prod.snd
    else if c = '\'' then skipChar text
    else none
  | [] => none

mutual

def skipValue : Nat → List Char → Option (List Char)
  | depth, text =>
    match plainWords.findSome? (skipWord · text), skipWord ['S', 'o', 'm', 'e'] text,
      readName? text with
    | some rest, _, _ => some rest
    | none, some rest, _ =>
      match depth with
      | 0 => none
      | depth + 1 => do
        let inside ← skipMark '(' (← skipGap rest)
        let (_, behind) ← skipComma (← skipValue depth inside)
        match behind with
        | ')' :: behind => return behind
        | _ => none
    | none, none, some (_, rest) => do
      match ← skipGap rest with
      | '(' :: inside => skipParenthesis depth inside
      | behind => return behind
    | none, none, none =>
      match text with
      | '(' :: inside => skipParenthesis depth inside
      | '[' :: inside =>
        match depth with
        | 0 => none
        | depth + 1 => skipItems depth .values ']' true inside
      | '{' :: inside =>
        match depth with
        | 0 => none
        | depth + 1 => skipItems depth .pairs '}' true inside
      | text => skipScalar text
termination_by depth _ => (depth, 1, 0)

def skipParenthesis : Nat → List Char → Option (List Char)
  | 0, text => if text.head? = some ')' then some text.tail else none
  | depth + 1, text => do
    let text ← skipGap text
    let items := if ← startsField text then Items.fields else Items.values
    skipItems depth items ')' true text
termination_by depth _ => (depth, 0, 0)

/-- The text behind the last of some items and the bracket that closes them. Between two items
stands a comma, and one more may stand behind the last. -/
def skipItems (depth : Nat) (items : Items) (close : Char) (separated : Bool) (text : List Char) :
    Option (List Char) := do
  let front ← skipGap text
  if front.head? = some close then
    return front.tail
  else if separated then
    let value ← match items with
      | .values => some front
      | .fields => do
        let (_, rest) ← readName? front
        skipMark ':' (← skipGap rest)
      | .pairs => do
        skipMark ':' (← skipGap (← skipValue depth front))
    let (separated, rest) ← skipComma (← skipValue depth value)
    if rest.length < text.length then
      skipItems depth items close separated rest
    else
      none
  else
    none
termination_by (depth, 2, text.length)

end

end DiceNotation.Settings
