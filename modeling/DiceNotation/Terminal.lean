/-!
# Terminal styles

Styled text stands between an escape sequence that switches the style on and one that resets it.
Where styles are switched off the text is left as it is.
-/
namespace DiceNotation.Terminal

def escape (parameters : String) : List Char := '\x1b' :: '[' :: (parameters.toList ++ ['m'])

def reset : List Char := escape "0"

/-- Repeats a style behind each reset in a text. -/
def keepStyle (style : List Char) : List Char → List Char
  | '\x1b' :: '[' :: '0' :: 'm' :: rest => reset ++ style ++ keepStyle style rest
  | c :: rest => c :: keepStyle style rest
  | [] => []

def paint (enabled : Bool) (parameters : String) (text : List Char) : List Char :=
  if enabled then
    escape parameters ++ keepStyle (escape parameters) text ++ reset
  else
    text

def notice (enabled : Bool) (text : List Char) : List Char := paint enabled "1;33" text

def alarm (enabled : Bool) (text : List Char) : List Char := paint enabled "1;31" text

def dim (enabled : Bool) (text : List Char) : List Char := paint enabled "2" text

end DiceNotation.Terminal
