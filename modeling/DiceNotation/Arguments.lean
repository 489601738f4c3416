import DiceNotation.Decimal

/-!
# Command line arguments

Switches have a letter and a long name, and two of them take a value: behind an equals sign, glued
to the letter, or as the next argument. Arguments are taken from left to right, and the first
error ends the reading. A value that is the next argument is looked at only when the argument
after it has turned out to be known.
-/
namespace DiceNotation

inductive Switch where
  | debug
  | maxCount
  | config
  | help
  | version
deriving DecidableEq, Repr

namespace Switch

def all : List Switch := [.debug, .maxCount, .config, .help, .version]

def letter : Switch → Char
  | .debug => 'd'
  | .maxCount => 'm'
  | .config => 'c'
  | .help => 'h'
  | .version => 'V'

def name : Switch → String
  | .debug => "debug"
  | .maxCount => "max-count"
  | .config => "config"
  | .help => "help"
  | .version => "version"

def valueName? : Switch → Option String
  | .maxCount => some "MAX_COUNT"
  | .config => some "CONFIG"
  | _ => none

def ofLetter? (c : Char) : Option Switch := all.find? (·.letter = c)

def ofName? (name : List Char) : Option Switch := all.find? (·.name.toList = name)

end Switch

inductive CountError where
  | empty
  | notDigit
  | tooLarge
deriving DecidableEq, Repr

def countFrom (value : Nat) : List Char → Except CountError UInt64
  | [] => .ok (UInt64.ofNat value)
  | c :: rest =>
    if c.isDigit then
      let value := value * 10 + (c.toNat - '0'.toNat)
      if value < UInt64.size then countFrom value rest else .error .tooLarge
    else
      .error .notDigit

def readCount : List Char → Except CountError UInt64
  | [] => .error .empty
  | ['+'] => .error .notDigit
  | '+' :: rest => countFrom 0 rest
  | text => countFrom 0 text

inductive ArgumentError where
  /-- No such switch; perhaps there is one with a similar name. `used` are the switches to show
  in the usage line. -/
  | unknown (argument : List Char) (similar : Option Switch) (used : List Switch)
  | badCount (text : List Char) (reason : CountError)
  | missingValue (switch : Switch)
  | repeated (switch : Switch)
  | unexpectedValue (switch : Switch) (value : List Char) (used : List Switch)
  | help
  | version
deriving DecidableEq, Repr

structure Arguments where
  debug : Bool := false
  maxCount : Option UInt64 := none
  config : Option (List Char) := none
deriving DecidableEq, Repr

namespace Arguments

structure Waiting where
  switch : Switch
  value : Option (List Char) := none
deriving DecidableEq, Repr

structure Progress where
  settled : Arguments := {}
  used : List Switch := []
  waiting : Option Waiting := none
  ended : Bool := false
deriving DecidableEq, Repr

/-- Sets a switch with its value. The second part is what is known when an error ends this. -/
def Progress.set (progress : Progress) (switch : Switch) (value : Option (List Char)) :
    Except ArgumentError Progress × List Switch :=
  if switch.valueName?.isSome && value.isNone then
    (.error (.missingValue switch), progress.used)
  else if switch = .help then
    (.error .help, progress.used)
  else if switch = .version then
    (.error .version, progress.used)
  else if progress.used.contains switch then
    (.error (.repeated switch), progress.used.erase switch)
  else
    let used := progress.used ++ [switch]
    let done (settled : Arguments) : Except ArgumentError Progress :=
      .ok { progress with settled := settled, used := used }
    match switch, value with
    | .debug, _ => (done { progress.settled with debug := true }, used)
    | .maxCount, some text =>
      match readCount text with
      | .ok count => (done { progress.settled with maxCount := some count }, used)
      | .error reason => (.error (.badCount text reason), used)
    | .config, some path =>
      if path.isEmpty then (.error (.missingValue switch), used)
      else (done { progress.settled with config := some path }, used)
    | _, _ => (done progress.settled, used)

def Progress.settleBoth (progress : Progress) : Except ArgumentError Progress × List Switch :=
  match progress.waiting with
  | none => (.ok progress, progress.used)
  | some waiting => Progress.set { progress with waiting := none } waiting.switch waiting.value

def Progress.settle (progress : Progress) : Except ArgumentError Progress :=
  progress.settleBoth.1

/-- The switches used when a later argument is refused; what was wrong with the switch that waited
for its value does not matter then. -/
def Progress.usedSoFar (progress : Progress) : List Switch :=
  progress.settleBoth.2

def Progress.takeUp (progress : Progress) (switch : Switch) (attached : Option (List Char)) :
    Except ArgumentError Progress := do
  let progress ← progress.settle
  if switch.valueName?.isSome && attached.isNone then
    return { progress with waiting := some ⟨switch, none⟩ }
  else
    (progress.set switch attached).1

def Progress.takeLetters (progress : Progress) : List Char → Except ArgumentError Progress
  | [] => .ok progress
  | c :: rest =>
    match Switch.ofLetter? c with
    | none => .error (.unknown ['-', c] none [])
    | some switch =>
      if switch.valueName?.isSome then
        progress.takeUp switch
          (match rest with
          | [] => none
          | '=' :: value => some value
          | value => some value)
      else do
        let progress ← progress.takeUp switch none
        progress.takeLetters rest

/-! ## Similar names -/

/-- Which characters of the second text match those of the first: equal ones at most `range`
places apart, each matched once, from left to right. -/
def matchesFrom (range : Nat) (second : List Char) (taken : List Nat) :
    Nat → List Char → List (Nat × Nat)
  | _, [] => []
  | i, c :: rest =>
    let fits (j : Nat) : Bool :=
      i ≤ j + range && j ≤ i + range && second[j]? = some c && !taken.contains j
    match (List.range second.length).find? fits with
    | some j => (i, j) :: matchesFrom range second (j :: taken) (i + 1) rest
    | none => matchesFrom range second taken (i + 1) rest

/-- The similarity of two texts as a fraction: the mean of the shares of matched characters in
each text and of the matches that keep their order. -/
def similarity (first second : List Char) : Nat × Nat :=
  let n := first.length
  let m := second.length
  let range := max n m / 2 - 1
  let pairs := matchesFrom range second [] 0 first
  let k := pairs.length
  if n = 0 && m = 0 then (1, 1)
  else if k = 0 then (0, 1)
  else
    let inFirst := pairs.filterMap fun (i, _) => first[i]?
    let inSecond := ((List.range m).filter (pairs.map Prod.snd).contains).filterMap
      fun j => second[j]?
    let moved := ((inFirst.zip inSecond).filter fun (a, b) => a ≠ b).length / 2
    (k * m * k + k * n * k + (k - moved) * n * m, 3 * n * m * k)

def similar? (name : List Char) : Option Switch :=
  let scored := Switch.all.map fun switch => (switch, similarity name switch.name.toList)
  let close := scored.filter fun (_, a, b) => 7 * b < 10 * a
  (close.foldl
    (fun best (switch, a, b) =>
      match best with
      | some (_, p, q) => if p * b ≤ a * q then some (switch, a, b) else best
      | none => some (switch, a, b))
    (none : Option (Switch × Nat × Nat))).map Prod.fst

def Progress.takeName (progress : Progress) (argument : List Char) :
    Except ArgumentError Progress :=
  let name := argument.takeWhile (· ≠ '=')
  let value := match argument.dropWhile (· ≠ '=') with
    | [] => none
    | _ :: value => some value
  match Switch.ofName? name with
  | some switch =>
    match switch.valueName?, value with
    | none, some value =>
      .error (.unexpectedValue switch value (progress.used ++ [switch]))
    | _, _ => progress.takeUp switch value
  | none =>
    let similar := similar? name
    let used := progress.usedSoFar
    let shown := match similar with
      | some switch => if used.contains switch then used else used ++ [switch]
      | none => used
    .error (.unknown ('-' :: '-' :: name) similar shown)

def Progress.takeValue (progress : Progress) (argument : List Char) :
    Except ArgumentError Progress :=
  match progress.waiting with
  | some ⟨switch, none⟩ => .ok { progress with waiting := some ⟨switch, some argument⟩ }
  | _ => .error (.unknown argument none [])

def Progress.take (progress : Progress) (argument : List Char) : Except ArgumentError Progress :=
  if progress.ended then
    .error (.unknown argument none [])
  else
    match argument with
    | ['-', '-'] => .ok { progress with ended := true }
    | '-' :: '-' :: name => progress.takeName name
    | '-' :: c :: rest => progress.takeLetters (c :: rest)
    | argument => progress.takeValue argument

def parse (arguments : List (List Char)) : Except ArgumentError Arguments := do
  let progress ← arguments.foldlM Progress.take {}
  let progress ← progress.settle
  return progress.settled

end Arguments

end DiceNotation
