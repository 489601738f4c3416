import DiceNotation.Blank
import DiceNotation.Editor.Position

/-!
# The history of lines

The history holds at most a hundred entries, the oldest first. Empty lines and lines equal to the
newest entry are not recorded, and a session also leaves out lines that start with a blank. The
file of a history starts with a line of its own that names the format, and in its entries line
feeds and backslashes are escaped. Older files are plain lines.
-/
namespace DiceNotation.Editor

structure History where
  entries : List (List Char) := []
  /-- How many of the newest entries are in no file yet. -/
  fresh : Nat := 0
  /-- How many entries the file holds, if new ones can be written behind them. -/
  inFile : Option Nat := none
  /-- Whether lines that start with a blank are left out. -/
  skipsBlank : Bool := false
deriving DecidableEq, Repr

namespace History

def capacity : Nat := 100

def ignores (history : History) (line : List Char) : Bool :=
  match line with
  | [] => true
  | c :: _ => (history.skipsBlank && isBlank c) || history.entries.getLast? = some line

def add (history : History) (line : List Char) : History :=
  if history.ignores line then
    history
  else
    let kept := history.entries.drop (history.entries.length + 1 - capacity)
    let entries := kept ++ [line]
    { history with entries := entries, fresh := min (history.fresh + 1) entries.length }

def hint? (history : History) (line : List Char) (cursor : Nat) : Option (List Char) :=
  if line.isEmpty || cursor < byteSize line then
    none
  else
    match history.entries.reverse.find? (line.isPrefixOf ·) with
    | none => none
    | some entry => if entry = line then none else some (cutAt cursor entry).2

def header : List Char := ['#', 'V', '2']

def encode : List Char → List Char
  | [] => []
  | '\n' :: rest => '\\' :: 'n' :: encode rest
  | '\\' :: rest => '\\' :: '\\' :: encode rest
  | c :: rest => c :: encode rest

def decode? : List Char → Option (List Char)
  | [] => some []
  | '\\' :: 'n' :: rest => (decode? rest).map ('\n' :: ·)
  | '\\' :: '\\' :: rest => (decode? rest).map ('\\' :: ·)
  | '\\' :: _ => none
  | c :: rest => (decode? rest).map (c :: ·)

theorem decode?_encode (entry : List Char) : decode? (encode entry) = some entry := by
  fun_induction encode entry with
  | case1 => rfl
  | case2 rest ih => simp [decode?, ih]
  | case3 rest ih => simp [decode?, ih]
  | case4 c rest _ plain ih =>
    rw [decode?, ih]
    · rfl
    · exact fun _ h => absurd h plain
    · exact fun _ h => absurd h plain
    · exact plain

/-- The lines of a file. A carriage return before a line feed belongs to the line end, and the
last line need not have one. -/
def lines (content : List Char) : List (List Char) :=
  go [] content
where
  /-- The line read so far is held in reverse. -/
  go (line : List Char) : List Char → List (List Char)
    | [] => if line.isEmpty then [] else [line.reverse]
    | '\n' :: rest =>
      (match line with
        | '\r' :: line => line.reverse
        | line => line.reverse) :: go [] rest
    | c :: rest => go (c :: line) rest

def addAll (history : History) (added : List (List Char)) : History × Bool :=
  added.foldl
    (fun (history, all) line => (history.add line, all && !history.ignores line))
    (history, true)

/-- Adds what a file holds. New entries can later be written behind those of the file if it is in
the format and every line of it was recorded. -/
def load (history : History) (content : List Char) : History :=
  let size := history.entries.length
  match lines content with
  | [] => { history with fresh := 0, inFile := none }
  | first :: rest =>
    let rest := rest.filter (!·.isEmpty)
    if first = header then
      let (loaded, all) := history.addAll (rest.map fun line => (decode? line).getD line)
      { loaded with
        fresh := 0
        inFile := if all then some (loaded.entries.length - size) else none }
    else
      let (loaded, _) := (history.add first).addAll rest
      { loaded with fresh := 0, inFile := none }

def freshEntries (history : History) : List (List Char) :=
  history.entries.drop (history.entries.length - history.fresh)

def encodeAll (entries : List (List Char)) : List Char :=
  entries.flatMap fun entry => encode entry ++ ['\n']

def fileOf (history : History) : List Char := header ++ '\n' :: encodeAll history.entries

/-- The file after the new entries were saved; `old` is what it held, if it was there. Entries are
written behind the old ones where that keeps the file within the capacity. Otherwise the old file
is read again and written anew with the new entries. -/
def save (history : History) (old : Option (List Char)) : List Char :=
  match old with
  | none => history.fileOf
  | some content =>
    if history.fresh = capacity then
      history.fileOf
    else
      let canAppend := match history.inFile with
        | some size => size < capacity && size + history.fresh ≤ capacity
        | none => false
      if canAppend then
        content ++ encodeAll history.freshEntries
      else
        let reread : History := { skipsBlank := history.skipsBlank }
        ((reread.load content).addAll history.freshEntries).1.fileOf

end History

end DiceNotation.Editor
