import DiceNotation.Expression
import DiceNotation.Term.Reader

/-!
# Reading an expression

A text is split at the plus signs outside braces, and a piece that starts with a brace is a group
whose parts are split at commas. Pieces are read in order, the first piece settles the kind of
all, and the first error ends the reading. A group is read only after its braces were found to be
nested no deeper than allowed, and each step inside leaves a shorter text.
-/
namespace DiceNotation

def maxDepth : Nat := 16

/-- Reads pieces in order. Every piece must be of the kind of the first one. -/
def readPieces {ι α : Type} (read : ι → Except RollError α) (kindOf : α → Kind) :
    Option Kind → List ι → Except RollError (List α)
  | _, [] => .ok []
  | declared, piece :: pieces => do
    let item ← read piece
    if declared.all (· = kindOf item) then
      let items ← readPieces read kindOf (some (kindOf item)) pieces
      return item :: items
    else
      throw .mixedKinds

def admitGroup (options : Options) (text : List Char) : Except RollError Unit :=
  if options.groups then
    if maxDepth < Braces.nestingDepth text then .error .tooDeep else .ok ()
  else
    .error .groupsDisabled

mutual

def Member.parse (options : Options) (text : List Char) : Except RollError Member :=
  match text with
  | '{' :: body => do
    admitGroup options ('{' :: body)
    Member.parseGroup options body
  | text => Member.term <$> Term.parse options text
termination_by 3 * text.length

def Expression.parse (options : Options) (text : List Char) : Except RollError Expression :=
  let pieces := Braces.split '+' text
  readPieces (fun piece : { piece // piece ∈ pieces } => Member.parse options piece.1)
    Member.kind none pieces.attach
termination_by 3 * text.length + 1
decreasing_by
  have := Braces.length_le_of_mem_split piece.2
  omega

def Member.parseGroup (options : Options) (body : List Char) : Except RollError Member := do
  let pieces := (Braces.splitGroup body).1
  let parts ← readPieces
    (fun piece : { piece // piece ∈ pieces } => Expression.parse options piece.1)
    Expression.kind none pieces.attach
  return .group parts (Braces.splitGroup body).2
termination_by 3 * body.length + 2
decreasing_by
  have := Braces.length_le_of_mem_splitGroup piece.2
  omega

end

/-- Reads a group from a text of its own, where the opening brace may be missing. -/
def Member.parseLoneGroup (options : Options) (text : List Char) : Except RollError Member := do
  admitGroup options text
  Member.parseGroup options (match text with
    | '{' :: body => body
    | body => body)

theorem readPieces_attach {α β : Type} {read : α → Except RollError β} {kindOf : β → Kind}
    {declared : Option Kind} {pieces within : List α} (h : ∀ piece ∈ pieces, piece ∈ within) :
    readPieces (fun piece : { piece // piece ∈ within } => read piece.1) kindOf declared
        (pieces.attachWith (· ∈ within) h) =
      readPieces read kindOf declared pieces := by
  induction pieces generalizing declared with
  | nil => rfl
  | cons piece pieces ih =>
    simp only [List.attachWith_cons, readPieces]
    cases read piece with
    | error e => rfl
    | ok item =>
      simp only [bind, Except.bind]
      rw [ih]

theorem Member.parse_brace (options : Options) (body : List Char) :
    Member.parse options ('{' :: body) =
      (admitGroup options ('{' :: body) >>= fun _ => Member.parseGroup options body) := by
  rw [Member.parse]

theorem Member.parse_of_head?_ne {options : Options} {text : List Char}
    (h : text.head? ≠ some '{') :
    Member.parse options text = Member.term <$> Term.parse options text := by
  rw [Member.parse]
  rintro body rfl
  exact h rfl

theorem Expression.parse_eq (options : Options) (text : List Char) :
    Expression.parse options text =
      readPieces (Member.parse options) Member.kind none (Braces.split '+' text) := by
  rw [Expression.parse]
  exact readPieces_attach (fun _ h => h)

theorem Member.parseGroup_eq (options : Options) (body : List Char) :
    Member.parseGroup options body = do
      let parts ← readPieces (Expression.parse options) Expression.kind none
        (Braces.splitGroup body).1
      return .group parts (Braces.splitGroup body).2 := by
  rw [Member.parseGroup]
  have h := @readPieces_attach _ _ (Expression.parse options) Expression.kind none
    (Braces.splitGroup body).1 (Braces.splitGroup body).1 (fun _ h => h)
  simp only [List.attach]
  rw [h]

end DiceNotation
