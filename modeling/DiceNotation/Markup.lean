import DiceNotation.Terminal

/-!
# Inline markup

Two stars around a text make it bold, one star slanted, two tildes struck out, and backquotes
make it code. Inside code only the closing backquote counts. A backslash takes the meaning from
the mark behind it. Each span of text is shown in the styles that are on where it stands.
-/
namespace DiceNotation.Markup

structure Style where
  bold : Bool := false
  slanted : Bool := false
  struck : Bool := false
  code : Bool := false
deriving DecidableEq, Repr

structure Span where
  style : Style
  text : List Char
deriving DecidableEq, Repr

/-- What the character before may still turn out to be. -/
inductive Pending where
  | nothing
  | star
  | tilde
  | backslash
deriving DecidableEq, Repr

def emit (style : Style) (text : List Char) (spans : List Span) : List Span :=
  if text.isEmpty then spans else ⟨style, text.reverse⟩ :: spans

/-- Reads a text behind a pending character. `text` holds the span so far in reverse, with the
pending character unless that is a star. -/
def scan (style : Style) (pending : Pending) (text : List Char) : List Char → List Span
  | [] =>
    if pending = .star && !style.slanted then emit style ('*' :: text) [] else emit style text []
  | c :: rest =>
    if style.code then
      if c = '\x60' then emit style text (scan { style with code := false } .nothing [] rest)
      else scan style .nothing (c :: text) rest
    else
      match pending with
      | .star =>
        let slanted := { style with slanted := !style.slanted }
        if c = '*' then emit style text (scan { style with bold := !style.bold } .nothing [] rest)
        else if c = '~' then emit style text (scan slanted .tilde [] rest)
        else if c = '\x60' then
          emit style text (scan { slanted with code := true } .nothing [] rest)
        else emit style text (scan slanted .nothing [c] rest)
      | .tilde =>
        if c = '*' then scan style .star text rest
        else if c = '~' then
          emit style text.tail (scan { style with struck := !style.struck } .nothing [] rest)
        else scan style .nothing (c :: text) rest
      | .backslash =>
        if ['*', '~', '|', '\x60'].contains c then
          emit style text.tail (scan style .nothing [c] rest)
        else scan style .nothing (c :: text) rest
      | .nothing =>
        if c = '*' then scan style .star text rest
        else if c = '~' then scan style .tilde (c :: text) rest
        else if c = '\\' then scan style .backslash (c :: text) rest
        else if c = '\x60' then
          emit style text (scan { style with code := true } .nothing [] rest)
        else scan style .nothing (c :: text) rest

def spans (text : List Char) : List Span := scan {} .nothing [] text

/-- A span with the escape sequences of its style: background, colour and attributes before it,
and behind it one reset, or the default colours if only colours were set. -/
def Span.render (span : Span) : List Char :=
  let style := span.style
  let background := if style.code then Terminal.escape "48;5;235" else []
  let colour :=
    if style.code then Terminal.escape "38;5;13"
    else if style.bold then Terminal.escape "38;5;11"
    else []
  let attributes :=
    (if style.bold then Terminal.escape "1" else [])
      ++ (if style.slanted then Terminal.escape "3" else [])
      ++ (if style.struck then Terminal.escape "9" else [])
  let ending :=
    if !attributes.isEmpty then Terminal.reset
    else if style.code then Terminal.escape "49" ++ Terminal.escape "39"
    else []
  background ++ colour ++ attributes ++ span.text ++ ending

def render (text : List Char) : List Char := (spans text).flatMap Span.render

end DiceNotation.Markup
