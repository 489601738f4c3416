import DiceNotation.Proofs.FaceBounds
import DiceNotation.Proofs.ModifierInfluence

/-!
# Marked faces

A sided die shows no face above its sides and none below one, so the marks that come with the die
never show, and a face is marked for the modifiers that accept it alone. A fate die shows symbols,
and nothing marks them.
-/
namespace DiceNotation

instance : DecidablePred Modifier.MarksSuccess := fun modifier =>
  inferInstanceAs (Decidable (modifier.keyword = _))

instance : DecidablePred Modifier.MarksFailure := fun modifier =>
  inferInstanceAs (Decidable (modifier.keyword = _))

namespace Term

def meets (acts : Modifier → Prop) [DecidablePred acts] (term : Term) (face : Int64) : Bool :=
  term.modifiers.any fun modifier => decide (acts modifier) && modifier.condition.accepts face

theorem contains_append_clauses {role : Modifier.Role} {acts : Modifier → Prop}
    [DecidablePred acts] (hacts : ∀ modifier : Modifier, modifier.role = role ↔ acts modifier)
    (term : Term) {range : FaceRange} {face : Int64} (h : range.contains face = false) :
    FaceRange.contains ⟨range.clauses ++ Modifier.clauses role term.modifiers⟩ face =
      term.meets acts face := by
  have hadded : FaceRange.contains ⟨Modifier.clauses role term.modifiers⟩ face =
      term.meets acts face := by
    simp only [Modifier.contains_clauses, hacts, meets]
  rw [FaceRange.contains, List.any_append, ← hadded]
  exact congrArg (· || FaceRange.contains ⟨Modifier.clauses role term.modifiers⟩ face) h

/-- A face of a sided die as it is shown: its number, between stars if a crit success modifier
accepts it, and that between underscores if a crit failure modifier does. -/
def shownFace (term : Term) (face : Int64) : List Char :=
  let number := Decimal.digits face.toInt.toNat
  let starred :=
    if term.meets Modifier.MarksSuccess face then ['*', '*'] ++ number ++ ['*', '*'] else number
  if term.meets Modifier.MarksFailure face then ['_', '_'] ++ starred ++ ['_', '_'] else starred

end Term

inductive FateSymbol : Int64 → Char → Prop
  | minus : FateSymbol (-1) '-'
  | zero : FateSymbol 0 '0'
  | plus : FateSymbol 1 '+'

namespace ThrownTerm

variable {thrown : ThrownTerm}

theorem text_of_sided {n : UInt32} (hdie : thrown.term.die = .sided n) :
    thrown.text = '(' :: Braces.join '+'
      (thrown.faces.map (markedFace thrown.term.critSuccess thrown.term.critFailure)) ++ [')'] := by
  rw [text, hdie]
  rfl

theorem text_of_fate (hdie : thrown.term.die = .fate) :
    thrown.text = '(' :: Braces.join ' ' ((thrown.faces.map fateSymbol).map ([·])) ++ [')'] := by
  rw [text, hdie, List.map_map]
  rfl

end ThrownTerm

namespace Die.Shows

variable {face : Int64}

theorem not_contains_ofDie {n : UInt32} (h : (Die.sided n).Shows face) :
    (Ranges.ofDie (.sided n)).critSuccess.contains face = false ∧
      (Ranges.ofDie (.sided n)).critFailure.contains face = false := by
  obtain ⟨hpos, hle⟩ := h
  have hsides : n.toUInt64.toInt64.toInt = n.toNat := by
    have hlt := n.toNat_lt
    rw [toInt_toInt64, UInt32.toNat_toUInt64]
    rw [UInt32.toNat_toUInt64]
    omega
  have habove : ¬ n.toUInt64.toInt64 < face := by
    rw [Int64.lt_iff_toInt_lt, hsides]
    omega
  have hbelow : ¬ face < 1 := by
    have hone : (1 : Int64).toInt = 1 := rfl
    rw [Int64.lt_iff_toInt_lt, hone]
    omega
  simp [FaceRange.contains, Ranges.ofDie, Clause.holds, Die.sides, habove, hbelow]

theorem fateSymbol (h : Die.fate.Shows face) : FateSymbol face (ThrownTerm.fateSymbol face) := by
  obtain ⟨hlow, hhigh⟩ := h
  obtain hface | hface | hface : face = -1 ∨ face = 0 ∨ face = 1 := by
    have hall : face.toInt = -1 ∨ face.toInt = 0 ∨ face.toInt = 1 := by omega
    simpa [← Int64.toInt_inj] using hall
  · rw [hface]
    exact .minus
  · rw [hface]
    exact .zero
  · rw [hface]
    exact .plus

end Die.Shows

namespace Term

variable {term : Term} {n : UInt32}

theorem markedFace_of_shows (hdie : term.die = .sided n) {face : Int64}
    (h : (Die.sided n).Shows face) :
    ThrownTerm.markedFace term.critSuccess term.critFailure face = term.shownFace face := by
  obtain ⟨hsuccess, hfailure⟩ := h.not_contains_ofDie
  rw [← hdie] at hsuccess hfailure
  have hstarred : term.critSuccess.contains face = term.meets Modifier.MarksSuccess face :=
    contains_append_clauses Modifier.role_eq_critSuccess_iff term hsuccess
  have hunderlined : term.critFailure.contains face = term.meets Modifier.MarksFailure face :=
    contains_append_clauses Modifier.role_eq_critFailure_iff term hfailure
  have hnumber : Decimal.ofInt face.toInt = Decimal.digits face.toInt.toNat := by
    have hpos : 1 ≤ face.toInt := h.1
    have habs : face.toInt.natAbs = face.toInt.toNat := by omega
    rw [Decimal.ofInt_of_nonneg (by omega), habs]
  rw [ThrownTerm.markedFace, shownFace, hstarred, hunderlined, hnumber]

/-- Where a source keeps within the sides of the die, the ranges that come with a sided die hold no
face thrown, whatever its size, and every face is printed as its number, marked for the modifiers
that accept it. Faces of a fate die are printed as symbols, and with other modifiers the same
throws are printed alike. -/
theorem text_of_throw {σ : Type} {source : Source σ} {s : σ}
    (h : source.AnswersWithin term.sides s) :
    let thrown := ((term.throw source).run s).1
    (∀ n, term.die = .sided n →
      (∀ face ∈ thrown.faces, (Ranges.ofDie term.die).critSuccess.contains face = false ∧
        (Ranges.ofDie term.die).critFailure.contains face = false) ∧
      thrown.text = '(' :: Braces.join '+' (thrown.faces.map term.shownFace) ++ [')']) ∧
    (term.die = .fate →
      (∃ symbols : List Char, List.Forall₂ FateSymbol thrown.faces symbols ∧
        thrown.text = '(' :: Braces.join ' ' (symbols.map ([·])) ++ [')']) ∧
      ∀ modifiers,
        ((Term.throw source { term with modifiers }).run s).1.text = thrown.text) := by
  intro thrown
  have hshows : ∀ face ∈ thrown.faces, term.die.Shows face := (possible_of_throw h).shows
  constructor
  · intro n hdie
    rw [hdie] at hshows ⊢
    refine ⟨fun face hface => (hshows face hface).not_contains_ofDie, ?_⟩
    have hmarked := List.map_congr_left fun face hface =>
      markedFace_of_shows hdie (hshows face hface)
    rw [ThrownTerm.text_of_sided hdie, ← hmarked]
    rfl
  · intro hdie
    rw [hdie] at hshows
    refine ⟨⟨thrown.faces.map ThrownTerm.fateSymbol, ?_, ThrownTerm.text_of_fate hdie⟩, ?_⟩
    · rw [List.forall₂_map_right_iff, List.forall₂_same]
      exact fun face hface => (hshows face hface).fateSymbol
    · intro modifiers
      have hfaces : ((Term.throw source { term with modifiers }).run s).1.faces = thrown.faces :=
        congrArg (fun outcome => outcome.1.faces) (run_throw_congr rfl rfl source s)
      rw [ThrownTerm.text_of_fate hdie, ThrownTerm.text_of_fate hdie, hfaces]

/-- Two marks on one face, with a modifier that marks no face in front, and a fate die with
modifiers that would accept all of its faces. -/
theorem text_of_throw_marked :
    let numbered : Term := ⟨3, .sided 20, [⟨some .critSuccess, ⟨.less, none⟩⟩,
      ⟨some .critSuccess, ⟨.greater, some 18⟩⟩, ⟨some .critFailure, ⟨.equal, some 20⟩⟩,
      ⟨some .critFailure, ⟨.less, some 2⟩⟩]⟩
    let fate : Term := ⟨3, .fate, [⟨some .critSuccess, ⟨.greater, some 0⟩⟩,
      ⟨some .critFailure, ⟨.less, some 1⟩⟩]⟩
    Term.parse {} "3d20cs<cs>18cf=20cf<2".toList = .ok numbered ∧
      Source.alternating.AnswersWithin numbered.sides true ∧
      ((numbered.throw Source.alternating).run true).1.text =
        "(__**20**__+__1__+__**20**__)".toList ∧
      Term.parse {} "3dFcs>0cf<1".toList = .ok fate ∧
      Source.alternating.AnswersWithin fate.sides true ∧
      ((fate.throw Source.alternating).run true).1.text = "(+ - +)".toList := by
  intro numbered fate
  have hnumbered : Term.parse {} "3d20cs<cs>18cf=20cf<2".toList = .ok numbered := by
    unfold numbered
    cbv
  have hfate : Term.parse {} "3dFcs>0cf<1".toList = .ok fate := by
    unfold fate
    cbv
  have hnumberedSource := Source.alternating_inRange.answersWithin
    (one_le_sides (admissible_of_parse hnumbered)) true
  have hfateSource := Source.alternating_inRange.answersWithin
    (one_le_sides (admissible_of_parse hfate)) true
  refine ⟨hnumbered, hnumberedSource, ?_, hfate, hfateSource, ?_⟩
  · rw [((text_of_throw hnumberedSource).1 20 rfl).2]
    unfold numbered
    cbv
  · rw [← (text_of_throw hfateSource).2 rfl |>.2 []]
    unfold fate
    cbv

end Term

end DiceNotation
