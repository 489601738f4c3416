import DiceNotation.Settings
import DiceNotation.Settings.AnyValue

/-!
# Reading settings

A settings file is one record in parentheses, perhaps with the name `Config` before it and lines
that enable extensions before that. Known fields stand at most once, and fields that are not known
are passed over. A file that cannot be read at all gives the defaults.
-/
namespace DiceNotation.Settings

inductive SettingsError where
  | malformed
deriving DecidableEq, Repr

/-- The names of the extensions that a file may enable; none of them changes these settings. -/
def extensions : List (List Char) :=
  ["unwrap_newtypes".toList, "implicit_some".toList, "unwrap_variant_newtypes".toList]

def skipMarks : List Char → List Char → Option (List Char)
  | [], text => some text
  | mark :: marks, text => do skipMarks marks (← skipMark mark text)

def skipExtensions (text : List Char) : Option (List Char) := do
  let (name, rest) ← readName? text
  if extensions.contains name then
    let (separated, behind) ← skipComma rest
    let more := behind.head?.any continuesName
    if separated && more then
      if behind.length < text.length then skipExtensions behind else none
    else if more then
      none
    else
      return behind
  else
    none
termination_by text.length

def skipEnable (text : List Char) : Option (List Char) :=
  if "enable".toList.isPrefixOf text then skipGap (text.drop "enable".length) else none

def skipAttributes (text : List Char) : Option (List Char) := do
  if text.head? = some '#' then
    let names ← skipMarks ['('] (← skipEnable (← skipMarks ['#', '!', '['] text))
    let behind ← skipMarks [')', ']'] (← skipExtensions names)
    if behind.length < text.length then skipAttributes behind else none
  else
    return text
termination_by text.length

def skipRecordName (text : List Char) : Option (List Char) :=
  if text.head?.any continuesName then do
    let (name, rest) ← readName? text
    if name = "Config".toList then skipGap rest else none
  else
    some text

structure Fields where
  maxCount : Option UInt64 := none
  historyFile : Option (List Char) := none
deriving DecidableEq, Repr

def Fields.settings (fields : Fields) : Settings :=
  let default : Settings := {}
  ⟨fields.maxCount.getD default.maxCount, fields.historyFile.getD default.historyFile⟩

def Fields.readValue? (fields : Fields) (name text : List Char) : Option (Fields × List Char) :=
  if name = "max_count".toList then do
    if fields.maxCount.isSome then none
    let (n, rest) ← readNat? text
    return ({ fields with maxCount := some (← Decimal.toUInt64? n) }, rest)
  else if name = "history_file".toList then do
    if fields.historyFile.isSome then none
    let (file, rest) ← readString? text
    return ({ fields with historyFile := some file }, rest)
  else do
    return (fields, ← skipValue (nestingLimit - 1) text)

def readFields? (fields : Fields) (separated : Bool) (text : List Char) :
    Option (Fields × List Char) := do
  let front ← skipGap text
  if front.head? = some ')' then
    return (fields, front.tail)
  else if separated then
    let (name, rest) ← readName? front
    let (fields, rest) ← fields.readValue? name (← skipMark ':' (← skipGap rest))
    let (separated, rest) ← skipComma rest
    if rest.length < text.length then
      readFields? fields separated rest
    else
      none
  else
    none
termination_by text.length

def read? (text : List Char) : Option Settings := do
  let record ← skipRecordName (← skipAttributes (← skipGap text))
  match record with
  | '(' :: rest => do
    let (fields, behind) ← readFields? {} true rest
    if (← skipGap behind).isEmpty then some fields.settings else none
  | _ => none

def load : Option (List Char) → Except SettingsError Settings
  | none => .ok {}
  | some text =>
    match read? text with
    | some settings => .ok settings
    | none => .error .malformed

end DiceNotation.Settings
