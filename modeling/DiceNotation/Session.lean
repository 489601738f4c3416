import DiceNotation.Arguments.Message
import DiceNotation.Editor.Chunk
import DiceNotation.Editor.History
import DiceNotation.Editor.LineBuffer
import DiceNotation.Editor.LineState
import DiceNotation.Files
import DiceNotation.Markup
import DiceNotation.Settings.Reader

/-!
# Sessions

A session reads piped input line by line. A line that is ready is thrown, and its outcome goes to
the output. A line that is rejected stays in the buffer, so the next line is glued to it, and one
with a brace still open waits for the next line with its line end. Lines that were submitted are
recorded, and the history is saved at the end.
-/
namespace DiceNotation

open Editor

namespace Session

structure Talk where
  /-- The text of the line that is not submitted yet. -/
  buffer : List Char := []
  history : History := {}
  output : List Char := []
  errors : List Char := []
deriving DecidableEq, Repr

structure Setup (σ : Type) where
  source : Source σ
  options : Options
  coloured : Bool

section

variable {σ : Type} (setup : Setup σ)

def Talk.submit (talk : Talk) (line : List Char) : StateM σ Talk := do
  let talk := { talk with buffer := [], history := talk.history.add line }
  match ← solveLine setup.source setup.options line with
  | some (.ok outcome) =>
    return { talk with output := talk.output ++ (Markup.render outcome.text ++ ['\n']) }
  | some (.error e) =>
    let shown := Terminal.alarm setup.coloured e.message.toList ++ ['\n']
    return { talk with errors := talk.errors ++ shown }
  | none => return talk

def Talk.feed (talk : Talk) (chunk : List Char) : StateM σ Talk :=
  let (text, lineEnd) := LineBuffer.cutLineEnd (talk.buffer ++ chunk)
  let line := LineBuffer.applyBackspaces text
  match LineState.check setup.options line with
  | .blank | .ready => talk.submit setup line
  | .unclosed => return { talk with buffer := line ++ lineEnd }
  | .rejected e =>
    let shown := ' ' :: ' ' :: Terminal.alarm setup.coloured e.message.toList
    return { talk with buffer := line, errors := talk.errors ++ shown }

/-- Takes chunks up to the end of the input or to one that is no text. The flag tells whether all
were taken. -/
def Talk.feedAll (talk : Talk) : List Chunk → StateM σ (Talk × Bool)
  | [] => return (talk, true)
  | .garbled :: _ => return (talk, false)
  | .text chunk :: rest => do
    let talk ← talk.feed setup chunk
    talk.feedAll rest

end

structure Report where
  exitCode : UInt32
  output : List Char := []
  errors : List Char := []
  files : Files
deriving DecidableEq, Repr

def noHistory : String := "repl: warn: no previous history"

def endOfInput : String := "repl: signal: CTRL-D"

def garbledText : String :=
  "Io(Error \x7b kind: InvalidData, message: \"stream did not contain valid UTF-8\" \x7d)"

def failureText : FileError → String
  | .notFound =>
    "Io(Os \x7b code: 2, kind: NotFound, message: \"No such file or directory\" \x7d)"
  | .isDirectory => "Io(Os \x7b code: 21, kind: IsADirectory, message: \"Is a directory\" \x7d)"
  | .notDirectory =>
    "Io(Os \x7b code: 20, kind: NotADirectory, message: \"Not a directory\" \x7d)"
  | .invalidName =>
    "Io(Error \x7b kind: InvalidInput, "
      ++ "message: \"file name contained an unexpected NUL byte\" \x7d)"
  | .garbled => garbledText

/-- The settings of a session: those of the settings file, if one is named, under the arguments. -/
def settings (arguments : Arguments) (files : Files) :
    Except Settings.SettingsError Settings := do
  let settings ← match arguments.config with
    | none => pure {}
    | some location => Settings.load (files.read location).toOption
  match arguments.maxCount with
  | none => return settings
  | some maxCount => return { settings with maxCount := maxCount }

def saveHistory (history : History) (location : List Char) (files : Files) :
    Except FileError Files :=
  if history.fresh = 0 then
    .ok files
  else
    match files.read location with
    | .ok content => files.write location (history.save (some content))
    | .error .notFound | .error .notDirectory => files.write location (history.save none)
    | .error e => .error e

def Talk.opening (coloured : Bool) (settings : Settings) (files : Files) : Talk :=
  let fresh : History := { skipsBlank := true }
  match files.read settings.historyFile with
  | .ok content => { history := fresh.load content }
  | .error _ =>
    { history := fresh, errors := Terminal.notice coloured noHistory.toList ++ ['\n'] }

def Talk.conclude (coloured : Bool) (settings : Settings) (files : Files) (complete : Bool)
    (talk : Talk) : Report :=
  let farewell :=
    if complete then
      Terminal.notice coloured endOfInput.toList
    else
      Terminal.alarm coloured ("repl: error: `".toList ++ garbledText.toList ++ "`".toList)
  let errors := talk.errors ++ farewell ++ ['\n']
  match saveHistory talk.history settings.historyFile files with
  | .ok files => { exitCode := 0, output := talk.output, errors := errors, files := files }
  | .error e =>
    let shown := "Error: ".toList ++ (failureText e).toList ++ ['\n']
    { exitCode := 1, output := talk.output, errors := errors ++ shown, files := files }

/-- The setup of a session with the given settings. Groups are not allowed in it. -/
def setupOf {σ : Type} (source : Source σ) (coloured : Bool) (settings : Settings) : Setup σ :=
  ⟨source, { maxCount := settings.maxCount }, coloured⟩

def converse {σ : Type} (source : Source σ) (coloured : Bool) (settings : Settings)
    (files : Files) (input : List Chunk) : StateM σ Report := do
  let setup := setupOf source coloured settings
  let (talk, complete) ← (Talk.opening coloured settings files).feedAll setup input
  return talk.conclude coloured settings files complete

/-- The settings that a session runs with. Wrong arguments and settings end it before it starts,
and so does a request for help. -/
def prepare (coloured : Bool) (arguments : List (List Char)) (files : Files) :
    Except Report Settings :=
  match Arguments.parse arguments with
  | .error e =>
    let shown := Message.render coloured (Arguments.message e)
    if Arguments.isRequest e then
      .error { exitCode := 0, output := shown, files := files }
    else
      .error { exitCode := 2, errors := shown, files := files }
  | .ok arguments =>
    match settings arguments files with
    | .error _ => .error { exitCode := 101, files := files }
    | .ok settings => .ok settings

def run {σ : Type} (source : Source σ) (coloured : Bool) (arguments : List (List Char))
    (files : Files) (input : List Chunk) : StateM σ Report :=
  match prepare coloured arguments files with
  | .error report => return report
  | .ok settings => converse source coloured settings files input

end Session

end DiceNotation
