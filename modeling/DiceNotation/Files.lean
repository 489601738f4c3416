/-!
# Files

The files a session can see, by their paths. A path is a list of names; `.` and empty names in its
text count for nothing. A file can be written where it is, or in a directory that exists.
-/
namespace DiceNotation

inductive FileError where
  | notFound
  | isDirectory
  | notDirectory
  /-- The path holds the character that ends paths. -/
  | invalidName
  | garbled
deriving DecidableEq, Repr

inductive Entry where
  | text (content : List Char)
  | garbled
  | directory
deriving DecidableEq, Repr

/-- A path as names from the working directory, or from the root if it is absolute. -/
structure Path where
  absolute : Bool
  names : List (List Char)
deriving DecidableEq, Repr

structure Files where
  entries : List (Path × Entry) := []
deriving DecidableEq, Repr

namespace Path

def splitNames : List Char → List (List Char)
  | [] => [[]]
  | c :: rest =>
    if c = '/' then [] :: splitNames rest else (splitNames rest).modifyHead (c :: ·)

def ofText (text : List Char) : Path :=
  ⟨text.head? = some '/', (splitNames text).filter fun name => name ≠ [] ∧ name ≠ ['.']⟩

def text (path : Path) : List Char :=
  (if path.absolute then ['/'] else []) ++ List.intercalate ['/'] path.names

def ancestors (path : Path) : List Path :=
  (List.range path.names.length).map fun n => ⟨path.absolute, path.names.take n⟩

end Path

namespace Files

def entryAt? (files : Files) (path : Path) : Option Entry :=
  if path.names.isEmpty then some .directory
  else (files.entries.find? (·.1 = path)).map Prod.snd

def add (files : Files) (path : Path) (entry : Entry) : Files :=
  if files.entries.any (·.1 = path) then
    ⟨files.entries.map fun (other, old) => (other, if other = path then entry else old)⟩
  else
    ⟨files.entries ++ [(path, entry)]⟩

def ofTexts (texts : List (List Char × List Char)) : Files :=
  texts.foldl
    (fun files (name, content) =>
      let path := Path.ofText name
      let files := path.ancestors.foldl
        (fun files ancestor =>
          if ancestor.names.isEmpty then files else files.add ancestor .directory)
        files
      files.add path (.text content))
    {}

def texts (files : Files) : List (List Char × List Char) :=
  files.entries.filterMap fun (path, entry) =>
    match entry with
    | .text content => some (path.text, content)
    | _ => none

/-- Why nothing can be at a path: the first ancestor that is missing or no directory. -/
def blocked (files : Files) (path : Path) : Option FileError :=
  path.ancestors.findSome? fun ancestor =>
    match files.entryAt? ancestor with
    | some .directory => none
    | some _ => some .notDirectory
    | none => some .notFound

def locate (location : List Char) : Except FileError Path :=
  if location.isEmpty then .error .notFound
  else if location.contains '\x00' then .error .invalidName
  else .ok (.ofText location)

def read (files : Files) (location : List Char) : Except FileError (List Char) := do
  let path ← locate location
  match files.entryAt? path with
  | some (.text content) => .ok content
  | some .garbled => .error .garbled
  | some .directory => .error .isDirectory
  | none => .error ((files.blocked path).getD .notFound)

def write (files : Files) (location content : List Char) : Except FileError Files := do
  let path ← locate location
  match files.entryAt? path with
  | some .directory => .error .isDirectory
  | some _ => .ok (files.add path (.text content))
  | none =>
    match files.blocked path with
    | some e => .error e
    | none => .ok (files.add path (.text content))

end Files

end DiceNotation
