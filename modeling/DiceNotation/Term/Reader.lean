import DiceNotation.RollError
import DiceNotation.Term

/-!
# Reading a term

The term of a text is the first place where a digit run, the letter `d` and a digit or `F` stand
in a row. Text before it and text behind its modifiers is ignored. Of several faults the count
comes first, the size of the die second.
-/
namespace DiceNotation.Term

/-- The digits of a term's count, the digits of its size (none for a fate die), and the text
behind the die. -/
structure Heading where
  count : List Char
  size : Option (List Char)
  tail : List Char
deriving DecidableEq, Repr

namespace Heading

def atFront? (text : List Char) : Option Heading :=
  match Decimal.run text, Decimal.afterRun text with
  | c :: cs, 'd' :: rest =>
    match Decimal.run rest, rest with
    | d :: ds, _ => some ⟨c :: cs, some (d :: ds), Decimal.afterRun rest⟩
    | [], 'F' :: tail => some ⟨c :: cs, none, tail⟩
    | [], _ => none
  | _, _ => none

def find? : List Char → Option Heading
  | [] => none
  | c :: rest =>
    match atFront? (c :: rest) with
    | some heading => some heading
    | none => find? rest

def count? (heading : Heading) : Option UInt64 :=
  Decimal.toUInt64? (Decimal.value heading.count)

def die? (heading : Heading) : Option Die :=
  match heading.size with
  | none => some .fate
  | some digits => ((Decimal.toUInt32? (Decimal.value digits)).filter (· ≠ 0)).map .sided

end Heading

def limitCount (options : Options) (heading : Heading) : Except RollError UInt64 :=
  match heading.count? with
  | some count =>
    if count ≤ options.maxCount then .ok count else .error (.limitExceeded count options.maxCount)
  | none => .error (.limitExceeded (UInt64.ofNat (UInt64.size - 1)) options.maxCount)

def parse (options : Options) (text : List Char) : Except RollError Term :=
  match Heading.find? text with
  | none => .error .noTerm
  | some heading => do
    let count ← limitCount options heading
    match heading.die? with
    | none => .error .unusableSize
    | some die => .ok ⟨count, die, (Modifier.readAll heading.tail).1⟩

end DiceNotation.Term
