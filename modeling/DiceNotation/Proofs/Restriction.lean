import DiceNotation.Proofs.PieceReading

/-!
# Readings that refuse more

One reading restricts another if it gives the same result or refuses with an error of its own. Since
the first error ends a reading, it is enough that the steps of the one restrict those of the other:
no error behind the place where they part comes to light.
-/
namespace DiceNotation

/-- The strict result is the loose one, or an error with the property `Cut` in its place. -/
def Restricts {α : Type} (Cut : RollError → Prop) (strict loose : Except RollError α) : Prop :=
  strict = loose ∨ ∃ e, Cut e ∧ strict = .error e

namespace Restricts

variable {α β ι : Type} {Cut : RollError → Prop} {strict loose : Except RollError α}

theorem refl (result : Except RollError α) : Restricts Cut result result := .inl rfl

theorem of_error {e : RollError} (h : Cut e) (loose : Except RollError α) :
    Restricts Cut (.error e) loose := .inr ⟨e, h, rfl⟩

theorem eq_ok {a : α} (h : Restricts Cut strict loose) (hok : strict = .ok a) :
    loose = .ok a := by
  rcases h with heq | ⟨e, -, herror⟩
  · exact heq.symm.trans hok
  · rw [hok] at herror
    cases herror

theorem eq_error {e : RollError} (h : Restricts Cut strict loose) (hcut : ¬ Cut e)
    (herror : strict = .error e) : loose = .error e := by
  rcases h with heq | ⟨e', hcut', herror'⟩
  · exact heq.symm.trans herror
  · rw [herror] at herror'
    cases herror'
    exact absurd hcut' hcut

theorem bind {next other : α → Except RollError β} (h : Restricts Cut strict loose)
    (hnext : ∀ a, Restricts Cut (next a) (other a)) :
    Restricts Cut (strict >>= next) (loose >>= other) := by
  rcases h with rfl | ⟨e, hcut, rfl⟩
  · cases strict with
    | error e => exact refl _
    | ok a => exact hnext a
  · exact of_error hcut _

theorem map (f : α → β) (h : Restricts Cut strict loose) :
    Restricts Cut (f <$> strict) (f <$> loose) := by
  rw [map_eq_pure_bind, map_eq_pure_bind]
  exact h.bind fun a => refl _

theorem readPieces {read other : ι → Except RollError α} {kindOf : α → Kind} {pieces : List ι}
    (h : ∀ piece ∈ pieces, Restricts Cut (read piece) (other piece)) (declared : Option Kind) :
    Restricts Cut (readPieces read kindOf declared pieces)
      (readPieces other kindOf declared pieces) := by
  induction pieces generalizing declared with
  | nil => exact refl _
  | cons piece pieces ih =>
    obtain ⟨hpiece, hpieces⟩ := List.forall_mem_cons.mp h
    rw [DiceNotation.readPieces, DiceNotation.readPieces]
    refine hpiece.bind ?_
    intro item
    split
    · exact (ih hpieces _).bind fun rest => refl _
    · exact refl _

/-- Declaring a kind in advance can only add an error about kinds. -/
theorem readPieces_some (read : ι → Except RollError α) (kindOf : α → Kind) (kind : Kind)
    (pieces : List ι) :
    Restricts (· = .mixedKinds) (DiceNotation.readPieces read kindOf (some kind) pieces)
      (DiceNotation.readPieces read kindOf none pieces) := by
  cases pieces with
  | nil => exact refl _
  | cons piece pieces =>
    rw [DiceNotation.readPieces, DiceNotation.readPieces]
    refine (refl _).bind ?_
    intro item
    by_cases hkind : kind = kindOf item
    · simp only [Option.all_some, Option.all_none, hkind, decide_true]
      exact refl _
    · have hrefused : ¬ Option.all (· = kindOf item) (some kind) = true := by simpa using hkind
      rw [if_neg hrefused]
      exact .inr ⟨_, rfl, rfl⟩

end Restricts

/-- Options under which terms and groups are refused more often refuse more expressions, and give
the same tree wherever they do not. -/
theorem Expression.parse_restricts {Cut : RollError → Prop} {strict loose : Options}
    (hterm : ∀ text, Restricts Cut (Term.parse strict text) (Term.parse loose text))
    (hgroup : ∀ text, Restricts Cut (admitGroup strict text) (admitGroup loose text))
    (text : List Char) :
    Restricts Cut (Expression.parse strict text) (Expression.parse loose text) := by
  revert text
  refine (Expression.text_induct
    (P := fun text => Restricts Cut (Member.parse strict text) (Member.parse loose text))
    ?_ ?_ ?_).2
  · intro text hbrace
    rw [Member.parse_of_head?_ne hbrace, Member.parse_of_head?_ne hbrace]
    exact (hterm text).map _
  · intro body ih
    rw [Member.parse_brace, Member.parse_brace, Member.parseGroup_eq, Member.parseGroup_eq]
    exact (hgroup _).bind fun _ => (Restricts.readPieces ih none).bind fun parts => .refl _
  · intro text ih
    rw [Expression.parse_eq, Expression.parse_eq]
    exact Restricts.readPieces ih none

theorem Expression.error_of_parse {P : RollError → Prop} {options : Options}
    (hterm : ∀ text e, Term.parse options text = .error e → P e)
    (hgroup : ∀ text e, admitGroup options text = .error e → P e) (hkinds : P .mixedKinds) :
    (∀ text e, Member.parse options text = .error e → P e) ∧
    ∀ text e, Expression.parse options text = .error e → P e := by
  have hpieces {α : Type} {read : List Char → Except RollError α} {kindOf : α → Kind}
      {pieces : List (List Char)} (h : ∀ piece ∈ pieces, ∀ e, read piece = .error e → P e)
      {e : RollError} (herror : readPieces read kindOf none pieces = .error e) : P e := by
    rcases error_of_readPieces herror with ⟨piece, hpiece, hread⟩ | rfl
    · exact h piece hpiece e hread
    · exact hkinds
  apply Expression.text_induct
  · intro text hbrace e herror
    rw [Member.parse_of_head?_ne hbrace, map_eq_pure_bind] at herror
    rcases RollError.bind_eq_error_iff.mp herror with hread | ⟨term, -, herror⟩
    · exact hterm text e hread
    · cases herror
  · intro body ih e herror
    rw [Member.parse_brace, Member.parseGroup_eq] at herror
    rcases RollError.bind_eq_error_iff.mp herror with hrefused | ⟨_, -, herror⟩
    · exact hgroup _ e hrefused
    · rcases RollError.bind_eq_error_iff.mp herror with hparts | ⟨parts, -, herror⟩
      · exact hpieces ih hparts
      · cases herror
  · intro text ih e herror
    rw [Expression.parse_eq] at herror
    exact hpieces ih herror

end DiceNotation
