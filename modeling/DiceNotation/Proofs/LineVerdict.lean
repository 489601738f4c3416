import DiceNotation.Editor.LineState
import DiceNotation.Proofs.Trimming
import Mathlib

/-!
# The verdict on a line

A line is judged as it is thrown: both read the expression in front of the first colon, and blanks
around the line count for nothing. But braces are counted in the whole line, so those in a reason
can hold a line open or close it.
-/
namespace DiceNotation.Editor

def Unclosed (text : List Char) : Prop := text.count '}' < text.count '{'

instance (text : List Char) : Decidable (Unclosed text) :=
  inferInstanceAs (Decidable (text.count '}' < text.count '{'))

section

variable {options : Options} {line : List Char}

namespace LineState

/-- The state of a line that is neither blank nor unclosed. -/
def ofReading : Except RollError Expression → LineState
  | .ok _ => .ready
  | .error e => .rejected e

theorem check_of_blank (h : trim line = []) : check options line = .blank := by
  rw [check, h]
  rfl

theorem check_of_unclosed (h : trim line ≠ []) (hopen : Unclosed line) :
    check options line = .unclosed := by
  have hempty : ¬ (trim line).isEmpty = true := fun hnil => h (List.isEmpty_iff.mp hnil)
  rw [check, if_neg hempty]
  exact if_pos hopen

theorem check_of_closed (h : trim line ≠ []) (hclosed : ¬ Unclosed line) :
    check options line = ofReading (Query.parse ⟨line, options⟩) := by
  have hempty : ¬ (trim line).isEmpty = true := fun hnil => h (List.isEmpty_iff.mp hnil)
  rw [check, if_neg hempty]
  refine (if_neg hclosed).trans ?_
  cases Query.parse ⟨line, options⟩ <;> rfl

/-- The verdict on a line goes by three questions, asked in this order: whether it is blank, whether
it is unclosed, and whether it can be read. -/
theorem check_cases (options : Options) (line : List Char) :
    (trim line = [] ∧ check options line = .blank) ∨
    (trim line ≠ [] ∧ Unclosed line ∧ check options line = .unclosed) ∨
    (∃ e, trim line ≠ [] ∧ ¬ Unclosed line ∧ Query.parse ⟨line, options⟩ = .error e ∧
      check options line = .rejected e) ∨
    ∃ expression, trim line ≠ [] ∧ ¬ Unclosed line ∧
      Query.parse ⟨line, options⟩ = .ok expression ∧ check options line = .ready := by
  by_cases hblank : trim line = []
  · exact .inl ⟨hblank, check_of_blank hblank⟩
  · by_cases hopen : Unclosed line
    · exact .inr (.inl ⟨hblank, hopen, check_of_unclosed hblank hopen⟩)
    · have hcheck := @check_of_closed options line hblank hopen
      cases hread : Query.parse ⟨line, options⟩ with
      | error e =>
        rw [hread] at hcheck
        exact .inr (.inr (.inl ⟨e, hblank, hopen, rfl, hcheck⟩))
      | ok expression =>
        rw [hread] at hcheck
        exact .inr (.inr (.inr ⟨expression, hblank, hopen, rfl, hcheck⟩))

theorem check_eq_blank_iff : check options line = .blank ↔ trim line = [] := by
  rcases check_cases options line with ⟨hblank, hcheck⟩ | ⟨hblank, -, hcheck⟩ |
    ⟨e, hblank, -, -, hcheck⟩ | ⟨expression, hblank, -, -, hcheck⟩ <;>
  simp [hcheck, hblank]

theorem check_eq_unclosed_iff :
    check options line = .unclosed ↔ trim line ≠ [] ∧ Unclosed line := by
  rcases check_cases options line with ⟨hblank, hcheck⟩ | ⟨hblank, hopen, hcheck⟩ |
    ⟨e, -, hclosed, -, hcheck⟩ | ⟨expression, -, hclosed, -, hcheck⟩
  · simp [hcheck, hblank]
  · simp [hcheck, hblank, hopen]
  · simp [hcheck, hclosed]
  · simp [hcheck, hclosed]

theorem check_eq_rejected_iff {e : RollError} :
    check options line = .rejected e ↔
      trim line ≠ [] ∧ ¬ Unclosed line ∧ Query.parse ⟨line, options⟩ = .error e := by
  rcases check_cases options line with ⟨hblank, hcheck⟩ | ⟨-, hopen, hcheck⟩ |
    ⟨e', hblank, hclosed, hread, hcheck⟩ | ⟨expression, -, -, hread, hcheck⟩
  · simp [hcheck, hblank]
  · simp [hcheck, hopen]
  · simp [hcheck, hblank, hclosed, hread]
  · simp [hcheck, hread]

theorem check_eq_ready_iff :
    check options line = .ready ↔
      trim line ≠ [] ∧ ¬ Unclosed line ∧
        ∃ expression, Query.parse ⟨line, options⟩ = .ok expression := by
  rcases check_cases options line with ⟨hblank, hcheck⟩ | ⟨-, hopen, hcheck⟩ |
    ⟨e, -, -, hread, hcheck⟩ | ⟨expression, hblank, hclosed, hread, hcheck⟩
  · simp [hcheck, hblank]
  · simp [hcheck, hopen]
  · simp [hcheck, hread]
  · simp [hcheck, hblank, hclosed, hread]

end LineState

theorem parse_trim (line : List Char) :
    Query.parse ⟨trim line, options⟩ = Query.parse ⟨line, options⟩ := by
  rw [Query.parse, Query.parse, Query.expression_trim]

section

variable {σ : Type} (source : Source σ)

theorem solveLine_of_blank (h : trim line = []) : solveLine source options line = pure none := by
  rw [solveLine, h]

theorem solveLine_of_error (h : trim line ≠ []) {e : RollError}
    (hread : Query.parse ⟨line, options⟩ = .error e) :
    solveLine source options line = pure (some (.error e)) := by
  rw [← parse_trim] at hread
  rw [solveLine]
  split
  · next hnil => exact absurd hnil h
  · next hquery =>
    rw [Query.solve, hread]
    rfl

theorem solveLine_of_ok (h : trim line ≠ []) {expression : Expression}
    (hread : Query.parse ⟨line, options⟩ = .ok expression) :
    solveLine source options line =
      (fun thrown => some (.ok ⟨thrown, Query.reason? ⟨trim line, options⟩⟩)) <$>
        Expression.throw source expression := by
  rw [← parse_trim] at hread
  rw [solveLine]
  split
  · next hnil => exact absurd hnil h
  · next hquery =>
    rw [Query.solve, hread]
    simp

theorem solveLine_of_rejected {e : RollError} (h : LineState.check options line = .rejected e) :
    solveLine source options line = pure (some (.error e)) := by
  obtain ⟨hblank, -, hread⟩ := LineState.check_eq_rejected_iff.mp h
  exact solveLine_of_error source hblank hread

/-- What is answered to a line does not depend on the faces, up to the outcome itself. -/
theorem answer_cases (options : Options) (line : List Char) (s : σ) :
    let answer := ((solveLine source options line).run s).1
    (trim line = [] ∧ answer = none) ∨
    (∃ e, trim line ≠ [] ∧ Query.parse ⟨line, options⟩ = .error e ∧ answer = some (.error e)) ∨
    ∃ expression outcome, trim line ≠ [] ∧ Query.parse ⟨line, options⟩ = .ok expression ∧
      answer = some (.ok outcome) := by
  intro answer
  by_cases hblank : trim line = []
  · refine .inl ⟨hblank, ?_⟩
    simp only [answer, solveLine_of_blank source hblank]
    rfl
  · cases hread : Query.parse ⟨line, options⟩ with
    | error e =>
      refine .inr (.inl ⟨e, hblank, rfl, ?_⟩)
      simp only [answer, solveLine_of_error source hblank hread]
      rfl
    | ok expression =>
      refine .inr (.inr ⟨expression, ⟨((Expression.throw source expression).run s).1,
        Query.reason? ⟨trim line, options⟩⟩, hblank, rfl, ?_⟩)
      simp only [answer, solveLine_of_ok source hblank hread]
      rfl

theorem answer_eq_none_iff (s : σ) :
    ((solveLine source options line).run s).1 = none ↔ trim line = [] := by
  rcases answer_cases source options line s with ⟨hblank, hanswer⟩ |
    ⟨e, hblank, -, hanswer⟩ | ⟨expression, outcome, hblank, -, hanswer⟩
  · simp [hblank, hanswer]
  · simp [hblank, hanswer]
  · simp [hblank, hanswer]

theorem answer_eq_error_iff (s : σ) (e : RollError) :
    ((solveLine source options line).run s).1 = some (.error e) ↔
      trim line ≠ [] ∧ Query.parse ⟨line, options⟩ = .error e := by
  rcases answer_cases source options line s with ⟨hblank, hanswer⟩ |
    ⟨e', hblank, hread, hanswer⟩ | ⟨expression, outcome, -, hread, hanswer⟩
  · simp [hblank, hanswer]
  · simp [hblank, hread, hanswer]
  · simp [hread, hanswer]

theorem exists_answer_eq_ok_iff (s : σ) :
    (∃ outcome, ((solveLine source options line).run s).1 = some (.ok outcome)) ↔
      trim line ≠ [] ∧ ∃ expression, Query.parse ⟨line, options⟩ = .ok expression := by
  rcases answer_cases source options line s with ⟨hblank, hanswer⟩ |
    ⟨e, -, hread, hanswer⟩ | ⟨expression, outcome, hblank, hread, hanswer⟩
  · simp [hblank, hanswer]
  · simp [hread, hanswer]
  · simp [hblank, hread, hanswer]

theorem check_eq_blank_iff_answer (s : σ) :
    LineState.check options line = .blank ↔ ((solveLine source options line).run s).1 = none := by
  rw [LineState.check_eq_blank_iff, answer_eq_none_iff]

theorem check_eq_ready_iff_answer (h : ¬ Unclosed line) (s : σ) :
    LineState.check options line = .ready ↔
      ∃ outcome, ((solveLine source options line).run s).1 = some (.ok outcome) := by
  rw [LineState.check_eq_ready_iff, exists_answer_eq_ok_iff, and_iff_right h]

theorem check_eq_rejected_iff_answer (h : ¬ Unclosed line) (s : σ) (e : RollError) :
    LineState.check options line = .rejected e ↔
      ((solveLine source options line).run s).1 = some (.error e) := by
  rw [LineState.check_eq_rejected_iff, answer_eq_error_iff, and_iff_right h]

theorem check_of_answer_error {s : σ} {e : RollError}
    (h : ((solveLine source options line).run s).1 = some (.error e)) :
    LineState.check options line = .unclosed ∨ LineState.check options line = .rejected e := by
  obtain ⟨hblank, hread⟩ := (answer_eq_error_iff source s e).mp h
  by_cases hopen : Unclosed line
  · exact .inl (LineState.check_eq_unclosed_iff.mpr ⟨hblank, hopen⟩)
  · exact .inr (LineState.check_eq_rejected_iff.mpr ⟨hblank, hopen, hread⟩)

end

theorem trim_append_colon_ne_nil (front behind : List Char) :
    trim (front ++ ':' :: behind) ≠ [] := by
  intro h
  have hmem : ':' ∈ front ++ ':' :: behind := by simp
  exact colon_not_mem_of_blank (trim_eq_nil_iff.mp h) hmem

theorem parse_append_colon {front : List Char} (h : ':' ∉ front) (behind : List Char) :
    Query.parse ⟨front ++ ':' :: behind, options⟩ = Query.parse ⟨front, options⟩ := by
  rw [Query.parse, Query.parse, Query.expression_append_colon h, Query.expression_of_not_mem h]

theorem unclosed_append_colon (front behind : List Char) :
    Unclosed (front ++ ':' :: behind) ↔ Unclosed (front ++ behind) := by
  simp [Unclosed]

/-- A reason changes the verdict on a line exactly if its braces make the line unclosed, or close
it: its text is not read, but its braces are counted. -/
theorem LineState.check_append_reason {front : List Char} (hcolon : ':' ∉ front)
    (hblank : trim front ≠ []) (reason : List Char) :
    (check options (front ++ ':' :: reason) = check options front ↔
      (Unclosed (front ++ reason) ↔ Unclosed front)) ∧
    (check options (front ++ ':' :: reason) = .unclosed ↔ Unclosed (front ++ reason)) := by
  have hline := trim_append_colon_ne_nil front reason
  have hunclosed (text : List Char) (htext : trim text ≠ []) :
      check options text = .unclosed ↔ Unclosed text :=
    check_eq_unclosed_iff.trans (and_iff_right htext)
  rw [hunclosed _ hline, unclosed_append_colon]
  refine ⟨⟨?_, ?_⟩, Iff.rfl⟩
  · intro h
    rw [← unclosed_append_colon, ← hunclosed _ hline, h, hunclosed _ hblank]
  · intro h
    by_cases hopen : Unclosed front
    · have hwhole := (unclosed_append_colon front reason).mpr (h.mpr hopen)
      rw [check_of_unclosed hline hwhole, check_of_unclosed hblank hopen]
    · have hwhole : ¬ Unclosed (front ++ ':' :: reason) := by
        rwa [unclosed_append_colon, h]
      rw [check_of_closed hline hwhole, check_of_closed hblank hopen, parse_append_colon hcolon]

/-- Braces that match in a reason do no harm, blanks and all. -/
theorem LineState.check_append_reason_braced :
    let front := "2d6 + 1d4 ".toList
    let reason := " \x7bfire\x7d : damage".toList
    ':' ∉ front ∧ trim front ≠ [] ∧
      check {} (front ++ ':' :: reason) = .ready ∧ check {} front = .ready := by
  intro front reason
  have hcolon : ':' ∉ front := by decide
  have hblank : trim front ≠ [] := by decide
  have hready : check {} front = .ready := by
    unfold front
    cbv
  have hsame := (@check_append_reason {} front hcolon hblank reason).1.mpr (by decide)
  exact ⟨hcolon, hblank, hsame.trans hready, hready⟩

/-- One brace in the reason holds a ready line open, and one closes a line whose expression is
still open, so that it is rejected. -/
theorem LineState.check_counts_braces_of_reason :
    (check {} "1d6".toList = .ready ∧ check {} ("1d6".toList ++ ':' :: ['{']) = .unclosed) ∧
    (check {} "\x7b1d6".toList = .unclosed ∧
      check {} ("\x7b1d6".toList ++ ':' :: ['}']) = .rejected .groupsDisabled) := by
  refine ⟨⟨?_, ?_⟩, ?_, ?_⟩ <;> cbv

end

end DiceNotation.Editor
