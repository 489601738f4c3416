/-!
# Braces

A separator splits a text only where as many braces have closed as opened before it, so the
pieces joined by the separator give the text back. The deepest level of open braces bounds how
far groups can nest, and the brace that closes a group is the first one at the level of the
brace that opened it.
-/
namespace DiceNotation.Braces

def weight (c : Char) : Int :=
  if c = '{' then 1 else if c = '}' then -1 else 0

def balance : List Char → Int
  | [] => 0
  | c :: rest => weight c + balance rest

def splitFrom (separator : Char) : Int → List Char → List (List Char)
  | _, [] => [[]]
  | depth, c :: rest =>
    if c = separator ∧ depth = 0 then
      [] :: splitFrom separator 0 rest
    else
      (splitFrom separator (depth + weight c) rest).modifyHead (c :: ·)

/-- The pieces of a text between the separators outside all braces. There is always one piece,
and unbalanced braces hide every separator behind them. -/
def split (separator : Char) (text : List Char) : List (List Char) :=
  splitFrom separator 0 text

def join (separator : Char) (pieces : List (List Char)) : List Char :=
  List.intercalate [separator] pieces

/-- One step of the scan for the deepest level: the level now and the deepest level so far. A
closing brace without an opening one leaves the level at zero. -/
def deepen (levels : Nat × Nat) (c : Char) : Nat × Nat :=
  if c = '{' then (levels.1 + 1, max levels.2 (levels.1 + 1))
  else if c = '}' then (levels.1 - 1, levels.2)
  else levels

def nestingDepth (text : List Char) : Nat := (text.foldl deepen (0, 0)).2

/-- Cuts a text at the brace that closes `level` more levels and the one before the text: the part
inside, and the part behind the brace. -/
def cutAtClose : Nat → List Char → Option (List Char × List Char)
  | _, [] => none
  | level, c :: rest =>
    if c = '}' then
      match level with
      | 0 => some ([], rest)
      | level + 1 => (cutAtClose level rest).map fun parts => (c :: parts.1, parts.2)
    else
      (cutAtClose (if c = '{' then level + 1 else level) rest).map
        fun parts => (c :: parts.1, parts.2)

/-- The comma-separated pieces of the text behind an opening brace, and the text behind the brace
that closes it. An unclosed brace takes the whole text and leaves nothing behind. -/
def splitGroup (body : List Char) : List (List Char) × List Char :=
  match cutAtClose 0 body with
  | some (inside, behind) => (split ',' inside, behind)
  | none => (split ',' body, [])

theorem splitFrom_ne_nil (separator : Char) (depth : Int) (text : List Char) :
    splitFrom separator depth text ≠ [] := by
  induction text generalizing depth with
  | nil => simp [splitFrom]
  | cons c rest ih =>
    rw [splitFrom]
    split
    · simp
    · cases h : splitFrom separator (depth + weight c) rest with
      | nil => exact absurd h (ih _)
      | cons piece pieces => simp

theorem length_le_of_mem_splitFrom {separator : Char} {depth : Int} {text piece : List Char}
    (h : piece ∈ splitFrom separator depth text) : piece.length ≤ text.length := by
  induction text generalizing depth piece with
  | nil =>
    simp only [splitFrom, List.mem_singleton] at h
    simp [h]
  | cons c rest ih =>
    rw [splitFrom] at h
    split at h
    · rcases List.mem_cons.mp h with rfl | h
      · simp
      · exact Nat.le_succ_of_le (ih h)
    · cases hs : splitFrom separator (depth + weight c) rest with
      | nil => simp [hs] at h
      | cons first others =>
        simp only [hs, List.modifyHead_cons, List.mem_cons] at h
        rcases h with rfl | h
        · have := @ih (depth + weight c) first (by simp [hs])
          simpa using this
        · have := @ih (depth + weight c) piece (by simp [hs, h])
          simp only [List.length_cons]
          omega

theorem length_le_of_mem_split {separator : Char} {text piece : List Char}
    (h : piece ∈ split separator text) : piece.length ≤ text.length :=
  length_le_of_mem_splitFrom h

theorem splitGroup_ne_nil (body : List Char) : (splitGroup body).1 ≠ [] := by
  unfold splitGroup
  split
  · exact splitFrom_ne_nil _ _ _
  · exact splitFrom_ne_nil _ _ _

theorem length_le_of_cutAtClose {level : Nat} {text inside behind : List Char}
    (h : cutAtClose level text = some (inside, behind)) : inside.length ≤ text.length := by
  induction text generalizing level inside behind with
  | nil => simp [cutAtClose] at h
  | cons c rest ih =>
    rw [cutAtClose.eq_def] at h
    simp only at h
    split at h
    · split at h
      · simp only [Option.some.injEq, Prod.mk.injEq] at h
        simp [← h.1]
      · obtain ⟨⟨_, _⟩, hp, heq⟩ := Option.map_eq_some_iff.mp h
        simp only [Prod.mk.injEq] at heq
        simpa [← heq.1] using ih hp
    · obtain ⟨⟨_, _⟩, hp, heq⟩ := Option.map_eq_some_iff.mp h
      simp only [Prod.mk.injEq] at heq
      simpa [← heq.1] using ih hp

theorem length_le_of_mem_splitGroup {body piece : List Char}
    (h : piece ∈ (splitGroup body).1) : piece.length ≤ body.length := by
  unfold splitGroup at h
  split at h
  · next inside behind hc =>
    exact Nat.le_trans (length_le_of_mem_split h) (length_le_of_cutAtClose hc)
  · exact length_le_of_mem_split h

end DiceNotation.Braces
