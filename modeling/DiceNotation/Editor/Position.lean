/-!
# Positions in a line

The cursor of the line editor is counted in bytes of UTF-8. A line is cut before the first
character that does not fit into the bytes asked for.
-/
namespace DiceNotation.Editor

def byteSize : List Char → Nat
  | [] => 0
  | c :: rest => c.utf8Size + byteSize rest

def cutAt : Nat → List Char → List Char × List Char
  | _, [] => ([], [])
  | size, c :: rest =>
    if c.utf8Size ≤ size then
      let (before, behind) := cutAt (size - c.utf8Size) rest
      (c :: before, behind)
    else
      ([], c :: rest)

theorem cutAt_byteSize (front back : List Char) :
    cutAt (byteSize front) (front ++ back) = (front, back) := by
  induction front with
  | nil =>
    cases back with
    | nil => rfl
    | cons c back =>
      have hpos := c.utf8Size_pos
      rw [List.nil_append, byteSize, cutAt, if_neg (by omega)]
  | cons c front ih =>
    rw [List.cons_append, byteSize, cutAt, if_pos (Nat.le_add_right ..), Nat.add_sub_cancel_left,
      ih]

/-- The bytes of a text: the character for a byte that is a character of its own, and nothing for
a byte of a longer one. -/
def bytes (text : List Char) : List (Option Char) :=
  text.flatMap fun c => if c.utf8Size = 1 then [some c] else List.replicate c.utf8Size none

end DiceNotation.Editor
