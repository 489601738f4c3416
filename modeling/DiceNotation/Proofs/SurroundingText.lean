import DiceNotation.Proofs.DieLetter
import DiceNotation.Proofs.SpaceBoundary

/-!
# Text around a term

A text holds a die if a digit, the letter `d` and a digit or `F` stand in a row in it. Of two texts
with a space between them the first one is read if it holds a die, and otherwise the second one.
What stands on the other side of the space never matters.
-/
namespace DiceNotation.Term

def HoldsDie (text : List Char) : Prop :=
  ∃ c d : Char, c.isDigit = true ∧ (d.isDigit = true ∨ d = 'F') ∧ [c, 'd', d] <:+: text

theorem holdsDie_iff {text : List Char} :
    HoldsDie text ↔ ∃ before after, text = before ++ 'd' :: after ∧ DieLetter before after := by
  constructor
  · rintro ⟨c, d, hdigit, hsize, front, back, rfl⟩
    refine ⟨front ++ [c], d :: back, by simp, ⟨c, ?_, hdigit⟩, ⟨d, rfl, hsize⟩⟩
    rw [List.getLast?_concat]
    rfl
  · rintro ⟨before, after, rfl, ⟨c, hc, hdigit⟩, ⟨d, hd, hsize⟩⟩
    obtain ⟨front, rfl⟩ := List.getLast?_eq_some_iff.mp hc
    obtain ⟨back, rfl⟩ := List.head?_eq_some_iff.mp hd
    exact ⟨c, d, hdigit, hsize, front, back, by simp⟩

theorem holdsDie_iff_cut {text : List Char} :
    HoldsDie text ↔ ∃ before after, CutAtDie text before after := by
  rw [holdsDie_iff]
  constructor
  · rintro ⟨before, after, rfl, hletter⟩
    exact exists_cutAtDie hletter
  · rintro ⟨before, after, hcut⟩
    exact ⟨before, after, hcut.text_eq, hcut.letter⟩

theorem Heading.isSome_find?_iff {text : List Char} :
    (find? text).isSome = true ↔ HoldsDie text := by
  constructor
  · intro hsome
    by_contra hnone
    rw [find?_of_no_letter] at hsome
    · cases hsome
    · intro before after htext hletter
      exact hnone (holdsDie_iff.mpr ⟨before, after, htext, hletter⟩)
  · intro hholds
    obtain ⟨before, after, hcut⟩ := holdsDie_iff_cut.mp hholds
    rw [find?_of_cut hcut]
    rfl

instance (text : List Char) : Decidable (HoldsDie text) :=
  decidable_of_iff _ Heading.isSome_find?_iff

/-- A space keeps texts apart. Text in front of it counts for nothing if it holds no die, whatever
digits and letters it ends with, and text behind it counts for nothing if a die stands in front,
whatever would go on with the last modifier there. So the same term is read with and without it, or
the same error is given. -/
theorem parse_beside_space (options : Options) :
    (∀ front text, ¬ HoldsDie front →
      Term.parse options (front ++ ' ' :: text) = Term.parse options text) ∧
    ∀ text behind, HoldsDie text →
      Term.parse options (text ++ ' ' :: behind) = Term.parse options text := by
  constructor
  · intro front text hfront
    rw [parse_append_space, if_neg (mt Heading.isSome_find?_iff.mp hfront)]
  · intro text behind htext
    rw [parse_append_space, if_pos (Heading.isSome_find?_iff.mpr htext)]

/-- A die cut short and a count in front, a keyword cut short and another die behind. -/
theorem parse_beside_space_cut_short :
    let front := "3d 12".toList
    let text := "2d6!s>3c".toList
    let behind := "s4 9d8".toList
    let term : Term := ⟨2, .sided 6, [⟨some .explode, {}⟩, ⟨some .success, ⟨.greater, some 3⟩⟩]⟩
    ¬ HoldsDie front ∧ HoldsDie text ∧
      Term.parse {} (front ++ ' ' :: text) = .ok term ∧
      Term.parse {} (text ++ ' ' :: behind) = .ok term := by
  intro front text behind term
  have hfront : ¬ HoldsDie front := by decide
  have htext : HoldsDie text := by decide
  have hread : Term.parse {} text = .ok term := by
    unfold text term
    cbv
  obtain ⟨hskip, hignore⟩ := parse_beside_space {}
  refine ⟨hfront, htext, ?_, ?_⟩
  · rw [hskip front text hfront, hread]
  · rw [hignore text behind htext, hread]

end DiceNotation.Term
