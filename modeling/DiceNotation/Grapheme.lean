import DiceNotation.Grapheme.Table

/-!
# Grapheme clusters

What a reader takes for one character may be several code points. A text is cut into extended
grapheme clusters by looking at each pair of neighbours and at two facts about the cluster so
far: whether it ends in a joined pictograph, and whether it ends in half a flag.
-/
namespace DiceNotation.Grapheme

inductive Break where
  | carriageReturn
  | lineFeed
  | control
  | extender
  | joiner
  | spacingMark
  | prepended
  | flagHalf
  | leading
  | vowel
  | trailing
  | openSyllable
  | closedSyllable
  | pictograph
  | other
deriving DecidableEq, Repr

def inRanges (ranges : List (Nat × Nat)) (n : Nat) : Bool :=
  ranges.any fun range => range.1 ≤ n && n ≤ range.2

def Break.ofCodePoint (n : Nat) : Break :=
  if n = 0x200d then .joiner
  else if 0xac00 ≤ n && n ≤ 0xd7a3 then
    if (n - 0xac00) % 28 = 0 then .openSyllable else .closedSyllable
  else if (0x1100 ≤ n && n ≤ 0x115f) || (0xa960 ≤ n && n ≤ 0xa97c) then .leading
  else if (0x1160 ≤ n && n ≤ 0x11a7) || (0xd7b0 ≤ n && n ≤ 0xd7c6) then .vowel
  else if (0x11a8 ≤ n && n ≤ 0x11ff) || (0xd7cb ≤ n && n ≤ 0xd7fb) then .trailing
  else if 0x1f1e6 ≤ n && n ≤ 0x1f1ff then .flagHalf
  else if inRanges extenders n then .extender
  else if inRanges spacingMarks n then .spacingMark
  else if inRanges pictographs n then .pictograph
  else if inRanges controls n then .control
  else if inRanges prependers n then .prepended
  else .other

def Break.ofChar (c : Char) : Break :=
  if c = '\r' then .carriageReturn
  else if c = '\n' then .lineFeed
  else if ' ' ≤ c && c ≤ '~' then .other
  else .ofCodePoint c.toNat

/-- Whether a pictograph, extenders and perhaps a joiner end the cluster so far. -/
inductive Picture where
  | absent
  | shown
  | joined
deriving DecidableEq, Repr

structure Edge where
  last : Break
  picture : Picture := .absent
  /-- The cluster ends in a flag half without its other half. -/
  halfFlag : Bool := false
deriving DecidableEq, Repr

namespace Edge

def start (first : Break) : Edge :=
  ⟨first, if first = .pictograph then .shown else .absent, first = .flagHalf⟩

def joins (edge : Edge) (next : Break) : Bool :=
  match edge.last, next with
  | .carriageReturn, .lineFeed => true
  | .carriageReturn, _ | .lineFeed, _ | .control, _ => false
  | _, .carriageReturn | _, .lineFeed | _, .control => false
  | _, .extender | _, .joiner | _, .spacingMark => true
  | .prepended, _ => true
  | .leading, .leading | .leading, .vowel => true
  | .leading, .openSyllable | .leading, .closedSyllable => true
  | .openSyllable, .vowel | .openSyllable, .trailing => true
  | .vowel, .vowel | .vowel, .trailing => true
  | .closedSyllable, .trailing | .trailing, .trailing => true
  | .joiner, .pictograph => edge.picture = .joined
  | .flagHalf, .flagHalf => edge.halfFlag
  | _, _ => false

def extend (edge : Edge) (next : Break) : Edge :=
  let picture := match next, edge.picture with
    | .pictograph, _ => .shown
    | .extender, .shown => .shown
    | .joiner, .shown => .joined
    | _, _ => .absent
  ⟨next, picture, next = .flagHalf && !edge.halfFlag⟩

end Edge

def takeCluster (edge : Edge) : List Char → List Char × List Char
  | [] => ([], [])
  | c :: rest =>
    let next := Break.ofChar c
    if edge.joins next then
      let (cluster, tail) := takeCluster (edge.extend next) rest
      (c :: cluster, tail)
    else
      ([], c :: rest)

theorem takeCluster_append (edge : Edge) (text : List Char) :
    (takeCluster edge text).1 ++ (takeCluster edge text).2 = text := by
  induction text generalizing edge with
  | nil => rfl
  | cons c rest ih =>
    rw [takeCluster]
    split
    · simpa using ih _
    · rfl

def clusters : List Char → List (List Char)
  | [] => []
  | c :: rest =>
    (c :: (takeCluster (.start (.ofChar c)) rest).1)
      :: clusters (takeCluster (.start (.ofChar c)) rest).2
termination_by text => text.length
decreasing_by
  have h := congrArg List.length (takeCluster_append (.start (.ofChar c)) rest)
  simp only [List.length_append] at h
  simp only [List.length_cons]
  omega

end DiceNotation.Grapheme
