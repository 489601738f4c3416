import DiceNotation.Decimal

/-!
# Lexical rules of settings files

Gaps are blanks, line comments and nested block comments. Identifiers, numbers, quoted strings
and characters are read from the front of a text, and reading one returns the text behind it.
-/
namespace DiceNotation.Settings

/-! ## Gaps -/

def isGap (c : Char) : Bool := [' ', '\n', '\t', '\r'].contains c

/-- Where the scan of a gap stands: outside comments, in a line comment, or under some block
comments inside one. -/
inductive Gap where
  | outside
  | line
  | block (level : Nat)
deriving DecidableEq, Repr

/-- The text behind the gap at its front. A slash that starts no comment, and a block comment that
does not end, are refused. -/
def skipGapFrom : Gap → List Char → Option (List Char)
  | .outside, '/' :: '/' :: rest => skipGapFrom .line rest
  | .outside, '/' :: '*' :: rest => skipGapFrom (.block 0) rest
  | .outside, '/' :: _ => none
  | .outside, c :: rest => if isGap c then skipGapFrom .outside rest else some (c :: rest)
  | .outside, [] => some []
  | .line, '\n' :: rest => skipGapFrom .outside rest
  | .line, _ :: rest => skipGapFrom .line rest
  | .line, [] => some []
  | .block level, '/' :: '*' :: rest => skipGapFrom (.block (level + 1)) rest
  | .block 0, '*' :: '/' :: rest => skipGapFrom .outside rest
  | .block (level + 1), '*' :: '/' :: rest => skipGapFrom (.block level) rest
  | .block level, _ :: rest => skipGapFrom (.block level) rest
  | .block _, [] => none

def skipGap (text : List Char) : Option (List Char) := skipGapFrom .outside text

def skipMark (mark : Char) : List Char → Option (List Char)
  | [] => none
  | c :: rest => if c = mark then skipGap rest else none

def skipComma (text : List Char) : Option (Bool × List Char) := do
  match ← skipGap text with
  | ',' :: rest => return (true, ← skipGap rest)
  | rest => return (false, rest)

/-! ## Identifiers -/

def startsName (c : Char) : Bool := c.isAlpha || c == '_'

def continuesName (c : Char) : Bool := startsName c || c.isDigit

def continuesRawName (c : Char) : Bool := continuesName c || ['.', '+', '-'].contains c

/-- The name at the front of a text, and the text behind it. A name that goes on with characters
of raw names has to be marked as raw, and what starts a raw string is no name. -/
def readName? (text : List Char) : Option (List Char × List Char) :=
  let plain :=
    if (text.takeWhile continuesRawName).length = (text.takeWhile continuesName).length then
      some (text.takeWhile continuesName, text.dropWhile continuesName)
    else
      none
  match text with
  | ['r'] => none
  | 'r' :: '"' :: _ => none
  | 'r' :: '#' :: rest =>
    match rest.takeWhile continuesRawName with
    | [] => none
    | name => some (name, rest.dropWhile continuesRawName)
  | c :: _ => if startsName c then plain else none
  | [] => none

def skipWord (word text : List Char) : Option (List Char) :=
  if word.isPrefixOf text then
    match text.drop word.length with
    | [] => some []
    | c :: rest => if continuesName c then none else some (c :: rest)
  else
    none

/-! ## Numbers -/

def hexValue? (c : Char) : Option Nat :=
  if c.isDigit then some (c.toNat - '0'.toNat)
  else if 'a' ≤ c && c ≤ 'f' then some (c.toNat - 'a'.toNat + 10)
  else if 'A' ≤ c && c ≤ 'F' then some (c.toNat - 'A'.toNat + 10)
  else none

def isIntegral (c : Char) : Bool := (hexValue? c).isSome || c == '_'

def digitsValue? (base : Nat) : Nat → List Char → Option Nat
  | value, [] => some value
  | value, c :: rest =>
    if c = '_' then
      digitsValue? base value rest
    else
      match hexValue? c with
      | some digit => if digit < base then digitsValue? base (value * base + digit) rest else none
      | none => none

def splitBase : List Char → Nat × List Char
  | '0' :: 'x' :: rest => (16, rest)
  | '0' :: 'b' :: rest => (2, rest)
  | '0' :: 'o' :: rest => (8, rest)
  | text => (10, text)

def readNat? (text : List Char) : Option (Nat × List Char) :=
  let (base, digits) := splitBase text
  match digits.takeWhile isIntegral with
  | [] => none
  | '_' :: _ => none
  | run => (digitsValue? base 0 run).map (·, digits.dropWhile isIntegral)

def isFractional (c : Char) : Bool := c.isDigit || ['e', 'E', '.', '+', '-', '_'].contains c

def dropSign : List Char → List Char
  | '+' :: rest => rest
  | '-' :: rest => rest
  | text => text

def isExponent : List Char → Bool
  | [] => true
  | c :: rest =>
    let digits := dropSign rest
    (c == 'e' || c == 'E') && !digits.isEmpty && digits.all Char.isDigit

/-- Whether a text is a number: digits with a point before, between or behind them, and perhaps a
sign and an exponent. -/
def isNumber (text : List Char) : Bool :=
  let unsigned := dropSign text
  match Decimal.afterRun unsigned with
  | '.' :: rest =>
    !((Decimal.run unsigned).isEmpty && (Decimal.run rest).isEmpty)
      && isExponent (Decimal.afterRun rest)
  | rest => !(Decimal.run unsigned).isEmpty && isExponent rest

def skipFraction (text : List Char) : Option (List Char) :=
  let unsigned := dropSign text
  let word := (skipWord ['i', 'n', 'f'] unsigned).or (skipWord ['N', 'a', 'N'] unsigned)
  word.or
    (if isNumber (text.takeWhile isFractional) then some (text.dropWhile isFractional) else none)

def skipNumber (text : List Char) : Option (List Char) :=
  let unsigned := dropSign text
  if (unsigned.takeWhile isIntegral).length < (unsigned.takeWhile isFractional).length then
    skipFraction text
  else
    ((readNat? unsigned).map Prod.snd).or (skipFraction text)

/-! ## Quoted text -/

def charOf? (n : Nat) : Option Char :=
  if n.isValidChar then some (Char.ofNat n) else none

/-- The character of an escape with one to six hexadecimal digits before a closing brace, of which
`left` more may come. -/
def readCodePoint? (left value : Nat) : List Char → Option (Char × List Char)
  | [] => none
  | '}' :: rest => if left = 6 then none else (charOf? value).map (·, rest)
  | c :: rest =>
    match left, hexValue? c with
    | left + 1, some digit => readCodePoint? left (value * 16 + digit) rest
    | _, _ => none

def readEscape? : List Char → Option (Char × List Char)
  | '\'' :: rest => some ('\'', rest)
  | '"' :: rest => some ('"', rest)
  | '\\' :: rest => some ('\\', rest)
  | 'n' :: rest => some ('\n', rest)
  | 'r' :: rest => some ('\r', rest)
  | 't' :: rest => some ('\t', rest)
  | 'x' :: h :: l :: rest => do
    let high ← hexValue? h
    let low ← hexValue? l
    return (← charOf? (high * 16 + low), rest)
  | 'u' :: '{' :: rest => readCodePoint? 6 0 rest
  | _ => none

def readQuoted? (text : List Char) : Option (List Char × List Char) :=
  match text with
  | [] => none
  | '"' :: rest => some ([], rest)
  | '\\' :: rest =>
    match readEscape? rest with
    | none => none
    | some (c, tail) =>
      if tail.length ≤ rest.length then
        (readQuoted? tail).map fun (string, behind) => (c :: string, behind)
      else
        none
  | c :: rest => (readQuoted? rest).map fun (string, behind) => (c :: string, behind)
termination_by text.length

def readRaw? (ending : List Char) : List Char → Option (List Char × List Char)
  | [] => none
  | c :: rest =>
    if ending.isPrefixOf (c :: rest) then
      some ([], (c :: rest).drop ending.length)
    else
      (readRaw? ending rest).map fun (string, behind) => (c :: string, behind)

/-- The string at the front of a text, and the text behind it. A raw string has no escapes and
ends at a quote with as many number signs behind it as stand before it. -/
def readString? : List Char → Option (List Char × List Char)
  | '"' :: rest => readQuoted? rest
  | 'r' :: rest =>
    match rest.dropWhile (· = '#') with
    | '"' :: body => readRaw? ('"' :: rest.takeWhile (· = '#')) body
    | _ => none
  | _ => none

def skipChar : List Char → Option (List Char)
  | '\'' :: '\\' :: rest =>
    match readEscape? rest with
    | some (_, '\'' :: behind) => some behind
    | _ => none
  | '\'' :: '\'' :: _ => none
  | '\'' :: _ :: '\'' :: rest => some rest
  | _ => none

end DiceNotation.Settings
