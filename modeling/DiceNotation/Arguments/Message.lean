import DiceNotation.Arguments
import DiceNotation.Terminal

/-!
# Messages about arguments

What the program prints instead of starting a session: its help, its version, or why the
arguments were refused, with a line on usage where that helps.
-/
namespace DiceNotation

inductive Ink where
  | plain
  | header
  | error
  | literal
  | valid
  | invalid
deriving DecidableEq, Repr

namespace Ink

def sequences : Ink → List Char
  | .plain => []
  | .header => Terminal.escape "1" ++ Terminal.escape "4"
  | .error => Terminal.escape "1" ++ Terminal.escape "31"
  | .literal => Terminal.escape "1"
  | .valid => Terminal.escape "32"
  | .invalid => Terminal.escape "33"

def paint (ink : Ink) (enabled : Bool) (text : List Char) : List Char :=
  if enabled && ink ≠ .plain then ink.sequences ++ text ++ Terminal.reset else text

end Ink

abbrev Message := List (Ink × List Char)

def Message.render (enabled : Bool) (message : Message) : List Char :=
  message.flatMap fun (ink, text) => ink.paint enabled text

namespace Arguments

def programName : String := "dicebag-repl"

def piece (ink : Ink) (text : String) : Message := [(ink, text.toList)]

def longName (switch : Switch) : List Char := '-' :: '-' :: switch.name.toList

def valueSuffix (switch : Switch) : List Char :=
  match switch.valueName? with
  | some name => " <".toList ++ name.toList ++ ['>']
  | none => []

def shown (switch : Switch) : List Char := longName switch ++ valueSuffix switch

def usage (used : List Switch) : Message :=
  piece .header "Usage:" ++ piece .plain " " ++ piece .literal programName ++
    match used.eraseDups with
    | [] => piece .plain " [OPTIONS]"
    | used => used.flatMap fun switch =>
        piece .plain " " ++ [(.literal, longName switch), (.plain, valueSuffix switch)]

def paragraph : Message := piece .plain "\n\n"

def seeHelp : Message :=
  paragraph ++ piece .plain "For more information, try '" ++ piece .literal "--help"
    ++ piece .plain "'.\n"

def failure (message : Message) : Message :=
  piece .error "error:" ++ piece .plain " " ++ message ++ seeHelp

def CountError.text : CountError → String
  | .empty => "cannot parse integer from empty string"
  | .notDigit => "invalid digit found in string"
  | .tooLarge => "number too large to fit in target type"

def helpText : Switch → String
  | .debug => "Enable Debug logging"
  | .maxCount => "Maximum amount of dices in a single term"
  | .config => "Path to a RON configuration file"
  | .help => "Print help"
  | .version => "Print version"

def helpLine (switch : Switch) : Message :=
  let width := (Switch.all.map fun switch => (shown switch).length).foldl max 0
  piece .plain "  " ++ [(.literal, ['-', switch.letter])] ++ piece .plain ", "
    ++ [(.literal, longName switch), (.plain, valueSuffix switch)]
    ++ [(.plain, List.replicate (width + 2 - (shown switch).length) ' ')]
    ++ piece .plain (helpText switch) ++ piece .plain "\n"

def help : Message :=
  piece .plain "Interactive dice notation roller" ++ paragraph ++ usage [] ++ paragraph
    ++ piece .header "Options:" ++ piece .plain "\n" ++ Switch.all.flatMap helpLine

def version : Message := piece .plain programName ++ piece .plain " 0.1.0\n"

def message : ArgumentError → Message
  | .unknown argument similar used =>
    let tip := match similar with
      | some switch =>
        paragraph ++ piece .plain "  " ++ piece .valid "tip:"
          ++ piece .plain " a similar argument exists: '" ++ [(.valid, longName switch)]
          ++ piece .plain "'"
      | none => []
    failure (piece .plain "unexpected argument '" ++ [(.invalid, argument)]
      ++ piece .plain "' found" ++ tip ++ paragraph ++ usage used)
  | .badCount text reason =>
    failure (piece .plain "invalid value '" ++ [(.invalid, text)] ++ piece .plain "' for '"
      ++ [(.literal, shown .maxCount)] ++ piece .plain "': "
      ++ piece .plain (CountError.text reason))
  | .missingValue switch =>
    failure (piece .plain "a value is required for '" ++ [(.literal, shown switch)]
      ++ piece .plain "' but none was supplied")
  | .repeated switch =>
    failure (piece .plain "the argument '" ++ [(.invalid, shown switch)]
      ++ piece .plain "' cannot be used multiple times" ++ paragraph ++ usage [])
  | .unexpectedValue switch value used =>
    failure (piece .plain "unexpected value '" ++ [(.invalid, value)] ++ piece .plain "' for '"
      ++ [(.literal, longName switch)] ++ piece .plain "' found; no more were expected"
      ++ paragraph ++ usage used)
  | .help => help
  | .version => version

def isRequest : ArgumentError → Bool
  | .help | .version => true
  | _ => false

end Arguments

end DiceNotation
