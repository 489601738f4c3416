import DiceNotation.Proofs.ModifierText
import DiceNotation.Term.Reader
import Mathlib

/-!
# The canonical text of a term

A term within the limits is read back from its own text. Every term that was read is within the
limits, whatever text it was read from, so its canonical text stands for it.
-/
namespace DiceNotation

theorem Decimal.toUInt64?_toNat (n : UInt64) : Decimal.toUInt64? n.toNat = some n := by
  simp [Decimal.toUInt64?, n.toNat_lt_size]

theorem Decimal.toUInt32?_toNat (n : UInt32) : Decimal.toUInt32? n.toNat = some n := by
  simp [Decimal.toUInt32?, n.toNat_lt_size]

def Die.sizeDigits : Die → Option (List Char)
  | .sided n => some (Decimal.digits n.toNat)
  | .fate => none

namespace Term

/-- What a term must keep to, to be read under a limit: no more dice than that, a die with sides,
and no negative number. -/
structure Admissible (maxCount : UInt64) (term : Term) : Prop where
  count_le : term.count ≤ maxCount
  has_sides : term.die ≠ .sided 0
  writable : ∀ modifier ∈ term.modifiers, modifier.Writable

instance (maxCount : UInt64) (term : Term) : Decidable (term.Admissible maxCount) :=
  decidable_of_iff (term.count ≤ maxCount ∧ term.die ≠ .sided 0 ∧
      ∀ modifier ∈ term.modifiers, modifier.Writable)
    ⟨fun ⟨hc, hs, hw⟩ => ⟨hc, hs, hw⟩, fun h => ⟨h.count_le, h.has_sides, h.writable⟩⟩

namespace Heading

theorem atFront?_text (count : Nat) (die : Die) {tail : List Char} (h : Decimal.EndsRun tail) :
    atFront? (Decimal.digits count ++ (die.text ++ tail)) =
      some ⟨Decimal.digits count, die.sizeDigits, tail⟩ := by
  have hdie : Decimal.EndsRun (die.text ++ tail) := by
    cases die <;> exact Decimal.endsRun_cons rfl
  obtain ⟨c, cs, hcount⟩ := List.exists_cons_of_ne_nil (Decimal.digits_ne_nil count)
  have hrun := Decimal.run_digits_append count hdie
  have hafter := Decimal.afterRun_digits_append count hdie
  rw [atFront?, hrun, hafter, hcount]
  cases die with
  | fate =>
    have hfate : Decimal.run ('F' :: tail) = [] :=
      Decimal.run_of_endsRun (Decimal.endsRun_cons rfl)
    simp only [Die.text, List.cons_append, List.nil_append, hfate, Die.sizeDigits]
  | sided n =>
    obtain ⟨d, ds, hsize⟩ := List.exists_cons_of_ne_nil (Decimal.digits_ne_nil n.toNat)
    simp only [Die.text, List.cons_append, Decimal.run_digits_append n.toNat h,
      Decimal.afterRun_digits_append n.toNat h, Die.sizeDigits]
    rw [hsize]

theorem find?_of_atFront? {text : List Char} {heading : Heading}
    (h : atFront? text = some heading) : find? text = some heading := by
  cases text with
  | nil => cases h
  | cons c rest => rw [find?, h]

theorem die?_sizeDigits {die : Die} (h : die ≠ .sided 0) (count tail : List Char) :
    (⟨count, die.sizeDigits, tail⟩ : Heading).die? = some die := by
  cases die with
  | fate => rfl
  | sided n =>
    have hn : n ≠ 0 := fun h0 => h (by rw [h0])
    simp [die?, Die.sizeDigits, Decimal.value_digits, Decimal.toUInt32?_toNat, hn]

theorem has_sides_of_die? {heading : Heading} {die : Die} (h : heading.die? = some die) :
    die ≠ .sided 0 := by
  rintro rfl
  unfold die? at h
  split at h
  · cases h
  · simp at h

end Heading

/-- A term is read back from its own text, and from what stands behind it come more modifiers, if it
does not go on with a digit. -/
theorem parse_text_append {options : Options} {term : Term} (h : term.Admissible options.maxCount)
    {rest : List Char} (hrest : Decimal.EndsRun rest) :
    Term.parse options (term.text ++ rest) =
      .ok { term with modifiers := term.modifiers ++ (Modifier.readAll rest).1 } := by
  have htail := Modifier.endsRun_textAll_append term.modifiers hrest
  have hfind : Heading.find? (term.text ++ rest) = some ⟨Decimal.digits term.count.toNat,
      term.die.sizeDigits, Modifier.textAll term.modifiers ++ rest⟩ := by
    apply Heading.find?_of_atFront?
    rw [text, List.append_assoc, List.append_assoc]
    exact Heading.atFront?_text term.count.toNat term.die htail
  have hcount : limitCount options ⟨Decimal.digits term.count.toNat, term.die.sizeDigits,
      Modifier.textAll term.modifiers ++ rest⟩ = .ok term.count := by
    simp [limitCount, Heading.count?, Decimal.value_digits, Decimal.toUInt64?_toNat, h.count_le]
  rw [parse, hfind]
  simp only [hcount, bind, Except.bind, Heading.die?_sizeDigits h.has_sides,
    Modifier.readAll_textAll_append h.writable hrest]

theorem parse_text {options : Options} {term : Term} (h : term.Admissible options.maxCount) :
    Term.parse options term.text = .ok term := by
  have hend : Modifier.readAll [] = ([], []) := Modifier.readAll_of_none rfl
  have hread := parse_text_append h Decimal.endsRun_nil
  rwa [hend, List.append_nil, List.append_nil] at hread

theorem count_le_of_limitCount {options : Options} {heading : Heading} {count : UInt64}
    (h : limitCount options heading = .ok count) : count ≤ options.maxCount := by
  unfold limitCount at h
  split at h
  · split at h
    · cases h
      assumption
    · cases h
  · cases h

theorem admissible_of_parse {options : Options} {text : List Char} {term : Term}
    (h : Term.parse options text = .ok term) : term.Admissible options.maxCount := by
  unfold parse at h
  split at h
  · cases h
  · next heading hfind =>
    obtain ⟨count, hcount, h⟩ := RollError.bind_eq_ok_iff.mp h
    split at h
    · cases h
    · next die hdie =>
      cases h
      exact ⟨count_le_of_limitCount hcount, Heading.has_sides_of_die? hdie,
        fun _ => Modifier.writable_of_mem_readAll⟩

/-- Whatever text a term was read from, its canonical text is read as the very same term under
the same options. So nothing that a term decides changes: its ranges, its text, its throws. -/
theorem parse_canonical_text {options : Options} {text : List Char} {term : Term}
    (h : Term.parse options text = .ok term) : Term.parse options term.text = .ok term :=
  parse_text (admissible_of_parse h)

/-- Skipped words, leading zeros, a missing comparator, a number that is too large and a tail. -/
theorem parse_canonical_text_cluttered :
    let term : Term := ⟨7, .sided 6, [⟨some .success, ⟨.greater, some 3⟩⟩,
      ⟨some .keep, ⟨.equal, some 9223372036854775807⟩⟩]⟩
    Term.parse {} "roll 007d06s>3k99999999999999999999 junk".toList = .ok term ∧
      Term.parse {} term.text = .ok term := by
  intro term
  have h : Term.parse {} "roll 007d06s>3k99999999999999999999 junk".toList = .ok term := by cbv
  exact ⟨h, parse_canonical_text h⟩

end Term

end DiceNotation
