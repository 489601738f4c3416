/-!
# Settings

What a settings file can change about a session. A field that the file does not name keeps its
default.
-/
namespace DiceNotation

structure Settings where
  maxCount : UInt64 := 100
  historyFile : List Char := ['h', 'i', 's', 't', 'o', 'r', 'y']
deriving DecidableEq, Repr

end DiceNotation
