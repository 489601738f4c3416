import DiceNotation.Session

/-!
# The program

Reads the files that a session can see and the piped input, runs the session with random dice, and
writes what it leaves behind.
-/
namespace DiceNotation.Main

def randomSource : Source StdGen := fun sides generator =>
  let (thrown, generator) := randNat generator 1 sides.toNat
  (UInt64.ofNat thrown, generator)

/-- What is at a place, if anything. Only a directory refuses to be read for what it is. -/
def entryOf (place : Path) : IO (Option Entry) := do
  try
    let bytes ← IO.FS.readBinFile (String.ofList place.text)
    match String.fromUTF8? bytes with
    | some content => return some (.text content.toList)
    | none => return some .garbled
  catch
    | .inappropriateType .. => return some .directory
    | _ => return none

def look (files : Files) (location : List Char) : IO Files := do
  let path := Path.ofText location
  let mut files := files
  for place in path.ancestors ++ [path] do
    unless place.names.isEmpty do
      match ← entryOf place with
      | some .directory => files := files.add place .directory
      | some entry => return files.add place entry
      | none => return files
  return files

def lookAround (arguments : List (List Char)) : IO Files := do
  match Arguments.parse arguments with
  | .error _ => return {}
  | .ok arguments =>
    let files ← match arguments.config with
      | some location => look {} location
      | none => pure {}
    match Session.settings arguments files with
    | .error _ => return files
    | .ok settings => look files settings.historyFile

def coloured : IO Bool := do
  let forced := (← IO.getEnv "CLICOLOR_FORCE").any (· ≠ "0")
  let forbidden := (← IO.getEnv "NO_COLOR").isSome
  let terminal ← (← IO.getStdout).isTty
  return forced || (terminal && !forbidden)

end DiceNotation.Main

open DiceNotation in
def main (arguments : List String) : IO UInt32 := do
  let arguments := arguments.map String.toList
  let files ← Main.lookAround arguments
  let input ← (← IO.getStdin).readBinToEnd
  let seed ← IO.rand 0 UInt32.size
  let (report, _) := Session.run Main.randomSource (← Main.coloured) arguments files
    (Editor.Chunk.ofBytes input.toList) (mkStdGen seed)
  (← IO.getStdout).putStr (String.ofList report.output)
  (← IO.getStderr).putStr (String.ofList report.errors)
  for (name, content) in report.files.texts do
    unless files.texts.contains (name, content) do
      IO.FS.writeFile (String.ofList name) (String.ofList content)
  return report.exitCode
