import DiceNotation.Proofs.LineVerdict
import DiceNotation.Session

/-!
# The events of a session

A session is what happens to the lines in its buffer: each chunk of input has a line submitted,
kept open or refused. What a session leaves behind follows from its events alone. Since a line is
judged as it is thrown, none that is submitted turns out to be in error.
-/
namespace DiceNotation.Session

open Editor

def shown : Option (Except RollError Outcome) → List Char
  | some (.ok outcome) => Markup.render outcome.text ++ ['\n']
  | _ => []

inductive Event where
  /-- A line was submitted and answered. -/
  | submitted (line : List Char) (answer : Option (Except RollError Outcome))
  /-- A line with a brace still open is kept, with its line end. -/
  | continued (text : List Char)
  /-- A rejected line is kept. -/
  | refused (line : List Char) (error : RollError)

namespace Event

def kept : Event → List Char
  | .submitted _ _ => []
  | .continued text => text
  | .refused line _ => line

def record (history : History) : Event → History
  | .submitted line _ => history.add line
  | .continued _ => history
  | .refused _ _ => history

def output : Event → List Char
  | .submitted _ answer => shown answer
  | .continued _ => []
  | .refused _ _ => []

def errors (coloured : Bool) : Event → List Char
  | .submitted _ (some (.error e)) => Terminal.alarm coloured e.message.toList ++ ['\n']
  | .refused _ e => ' ' :: ' ' :: Terminal.alarm coloured e.message.toList
  | _ => []

/-- A line was submitted only to be answered with an error. -/
def Failed (event : Event) : Prop := ∃ line e, event = .submitted line (some (.error e))

end Event

def Talk.after (coloured : Bool) (talk : Talk) (event : Event) : Talk where
  buffer := event.kept
  history := event.record talk.history
  output := talk.output ++ event.output
  errors := talk.errors ++ event.errors coloured

section

variable {σ : Type} (setup : Setup σ)

def Event.ofChunk (kept chunk : List Char) : StateM σ Event :=
  let (text, lineEnd) := LineBuffer.cutLineEnd (kept ++ chunk)
  let line := LineBuffer.applyBackspaces text
  match LineState.check setup.options line with
  | .blank | .ready => Event.submitted line <$> solveLine setup.source setup.options line
  | .unclosed => return .continued (line ++ lineEnd)
  | .rejected e => return .refused line e

def Event.ofInput (kept : List Char) : List Chunk → StateM σ (List Event)
  | [] => return []
  | .garbled :: _ => return []
  | .text chunk :: rest => do
    let event ← Event.ofChunk setup kept chunk
    let events ← Event.ofInput event.kept rest
    return event :: events

theorem Talk.submit_eq (talk : Talk) (line : List Char) :
    talk.submit setup line =
      (fun answer => talk.after setup.coloured (.submitted line answer)) <$>
        solveLine setup.source setup.options line := by
  rw [Talk.submit, map_eq_pure_bind]
  refine bind_congr fun answer => ?_
  rcases answer with _ | e | outcome <;>
    simp [Talk.after, Event.kept, Event.record, Event.output, Event.errors, shown]

theorem Talk.feed_eq (talk : Talk) (chunk : List Char) :
    talk.feed setup chunk =
      talk.after setup.coloured <$> Event.ofChunk setup talk.buffer chunk := by
  rw [Talk.feed, Event.ofChunk]
  dsimp only
  generalize LineBuffer.applyBackspaces (LineBuffer.cutLineEnd (talk.buffer ++ chunk)).1 = line
  cases LineState.check setup.options line with
  | blank | ready => simp [Talk.submit_eq]
  | unclosed | rejected e =>
    simp [Talk.after, Event.kept, Event.record, Event.output, Event.errors]

theorem Talk.feedAll_eq (talk : Talk) (input : List Chunk) :
    talk.feedAll setup input =
      (fun events => (events.foldl (Talk.after setup.coloured) talk,
        decide (Chunk.garbled ∉ input))) <$> Event.ofInput setup talk.buffer input := by
  induction input generalizing talk with
  | nil => simp [Talk.feedAll, Event.ofInput]
  | cons chunk rest ih =>
    cases chunk with
    | garbled => simp [Talk.feedAll, Event.ofInput]
    | text chunk =>
      simp only [Talk.feedAll, Event.ofInput, Talk.feed_eq, bind_map_left, map_bind, map_pure]
      refine bind_congr fun event => ?_
      rw [ih, map_eq_pure_bind]
      refine bind_congr fun events => ?_
      simp

theorem Event.not_failed_of_chunk (kept chunk : List Char) (s : σ) :
    ¬ ((Event.ofChunk setup kept chunk).run s).1.Failed := by
  rw [Event.ofChunk]
  dsimp only
  generalize LineBuffer.applyBackspaces (LineBuffer.cutLineEnd (kept ++ chunk)).1 = line
  rintro ⟨line', e, hevent⟩
  cases hverdict : LineState.check setup.options line with
  | blank | ready =>
    rw [hverdict] at hevent
    have hanswer : ((solveLine setup.source setup.options line).run s).1 = some (.error e) :=
      (Event.submitted.inj hevent).2
    -- Such an answer goes with a verdict that keeps the line from being submitted.
    have hcheck := check_of_answer_error setup.source hanswer
    simp [hverdict] at hcheck
  | unclosed | rejected e =>
    rw [hverdict] at hevent
    cases hevent

theorem Event.not_failed_of_input (kept : List Char) (input : List Chunk) (s : σ) :
    ∀ event ∈ ((Event.ofInput setup kept input).run s).1, ¬ event.Failed := by
  induction input generalizing kept s with
  | nil => exact List.forall_mem_nil _
  | cons chunk rest ih =>
    cases chunk with
    | garbled => exact List.forall_mem_nil _
    | text chunk =>
      exact List.forall_mem_cons.mpr ⟨Event.not_failed_of_chunk setup kept chunk s, ih _ _⟩

end

section

variable {σ : Type} (source : Source σ) (coloured : Bool) (arguments : List (List Char))
  (files : Files) (input : List Chunk)

def events : StateM σ (List Event) :=
  match prepare coloured arguments files with
  | .error _ => return []
  | .ok settings => Event.ofInput (setupOf source coloured settings) [] input

def reportOf (happened : List Event) : Report :=
  match prepare coloured arguments files with
  | .error report => report
  | .ok settings =>
    let talk := happened.foldl (Talk.after coloured) (Talk.opening coloured settings files)
    talk.conclude coloured settings files (decide (Chunk.garbled ∉ input))

theorem Talk.buffer_opening (settings : Settings) :
    (Talk.opening coloured settings files).buffer = [] := by
  rw [Talk.opening]
  split <;> rfl

theorem Talk.output_opening (settings : Settings) :
    (Talk.opening coloured settings files).output = [] := by
  rw [Talk.opening]
  split <;> rfl

theorem Talk.output_foldl_after (talk : Talk) (happened : List Event) :
    (happened.foldl (Talk.after coloured) talk).output =
      talk.output ++ happened.flatMap Event.output := by
  induction happened generalizing talk with
  | nil => simp
  | cons event happened ih => simp [ih, Talk.after]

theorem Talk.output_conclude (settings : Settings) (complete : Bool) (talk : Talk) :
    (talk.conclude coloured settings files complete).output = talk.output := by
  rw [Talk.conclude]
  dsimp only
  split <;> rfl

theorem run_eq_reportOf :
    run source coloured arguments files input =
      reportOf coloured arguments files input <$>
        events source coloured arguments files input := by
  rw [run, events]
  cases hprepare : prepare coloured arguments files with
  | error report =>
    have hreport : reportOf coloured arguments files input = fun _ => report := by
      funext happened
      rw [reportOf, hprepare]
    rw [hreport]
    rfl
  | ok settings =>
    have hreport : reportOf coloured arguments files input = fun happened =>
        (happened.foldl (Talk.after coloured) (Talk.opening coloured settings files)).conclude
          coloured settings files (decide (Chunk.garbled ∉ input)) := by
      funext happened
      rw [reportOf, hprepare]
    dsimp only
    rw [converse, Talk.feedAll_eq, Talk.buffer_opening, hreport]
    simp [setupOf]

theorem output_reportOf {settings : Settings}
    (hprepare : prepare coloured arguments files = .ok settings) (happened : List Event) :
    (reportOf coloured arguments files input happened).output = happened.flatMap Event.output := by
  rw [reportOf, hprepare]
  dsimp only
  rw [Talk.output_conclude, Talk.output_foldl_after, Talk.output_opening, List.nil_append]

theorem not_failed_of_mem_events (s : σ) :
    ∀ event ∈ ((events source coloured arguments files input).run s).1, ¬ event.Failed := by
  rw [events]
  cases prepare coloured arguments files with
  | error report => exact List.forall_mem_nil _
  | ok settings => exact Event.not_failed_of_input _ _ _ s

end

/-- The verdict on a line foretells the answer to it, whatever the dice show, except that a line
with more braces opened than closed is held open. Hence a session, which is told by its events,
never submits a line that is answered with an error. -/
theorem verdict_foretells_answer :
    (∀ {σ : Type} (source : Source σ) (options : Options) (line : List Char) (s : σ),
      let answer := ((solveLine source options line).run s).1
      (LineState.check options line = .blank ↔ answer = none) ∧
      (line.count '{' ≤ line.count '}' →
        (LineState.check options line = .ready ↔ ∃ outcome, answer = some (.ok outcome)) ∧
        ∀ e, LineState.check options line = .rejected e ↔ answer = some (.error e))) ∧
    ∀ {σ : Type} (source : Source σ) (coloured : Bool) (arguments : List (List Char))
      (files : Files) (input : List Chunk),
      let happened := events source coloured arguments files input
      run source coloured arguments files input =
        reportOf coloured arguments files input <$> happened ∧
      ∀ s, ∀ event ∈ (happened.run s).1, ¬ event.Failed := by
  constructor
  · intro σ source options line s answer
    refine ⟨check_eq_blank_iff_answer source s, fun hcount => ?_⟩
    have hclosed : ¬ Unclosed line := Nat.not_lt.mpr hcount
    exact ⟨check_eq_ready_iff_answer source hclosed s,
      check_eq_rejected_iff_answer source hclosed s⟩
  · intro σ source coloured arguments files input happened
    exact ⟨run_eq_reportOf source coloured arguments files input,
      not_failed_of_mem_events source coloured arguments files input⟩

/-- A rejected line, and a session that holds it back and then submits it in front of another. -/
theorem verdict_foretells_answer_rejected :
    let line := "21d6 : too many \x7b\x7d".toList
    let options : Options := { maxCount := 20 }
    let input : List Chunk := [.text ['3', 'd', '\n'], .text ['1', 'd', '1', '\n']]
    let happened (source : Source Nat) := events source false [] {} input
    line.count '{' ≤ line.count '}' ∧
      (∀ (source : Source Nat) (s : Nat),
        ((solveLine source options line).run s).1 = some (.error (.limitExceeded 21 20))) ∧
      (∀ (source : Source Nat) (s : Nat), ((happened source).run s).1.length = 2 ∧
        ∀ event ∈ ((happened source).run s).1, ¬ event.Failed) := by
  intro line options input happened
  have hcount : line.count '{' ≤ line.count '}' := by decide
  have hcheck : LineState.check options line = .rejected (.limitExceeded 21 20) := by
    unfold line options
    cbv
  refine ⟨hcount, ?_, ?_⟩
  · intro source s
    exact (((verdict_foretells_answer.1 source options line s).2 hcount).2 _).mp hcheck
  · intro source s
    refine ⟨?_, (verdict_foretells_answer.2 source false [] {} input).2 s⟩
    unfold happened input
    cbv

end DiceNotation.Session
