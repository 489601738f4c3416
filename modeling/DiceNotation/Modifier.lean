import DiceNotation.Condition
import DiceNotation.Keyword

/-!
# Modifiers

The text behind a die is read as a run of modifiers: a keyword, a comparator and a number, each
optional, but not all three missing. Reading takes the longest keyword and the whole digit run
and stops at the first place where none of the three stands.
-/
namespace DiceNotation

/-- A keyword, absent for the bare threshold, and the condition behind it. -/
structure Modifier where
  keyword : Option Keyword := none
  condition : Condition := {}
deriving DecidableEq, Repr

namespace Modifier

def text (modifier : Modifier) : List Char :=
  (modifier.keyword.elim [] Keyword.text) ++ modifier.condition.text

def takeKeyword (text : List Char) : Option Keyword × List Char :=
  match Keyword.atFront? text with
  | some keyword => (some keyword, text.drop keyword.text.length)
  | none => (none, text)

def takeComparator : List Char → Option Comparator × List Char
  | [] => (none, [])
  | c :: rest =>
    match Comparator.ofChar? c with
    | some comparator => (some comparator, rest)
    | none => (none, c :: rest)

def takeNumber (text : List Char) : Option Int64 × List Char :=
  let run := Decimal.run text
  (if run.isEmpty then none else some (Decimal.saturate (Decimal.value run)),
    Decimal.afterRun text)

def read? (text : List Char) : Option (Modifier × List Char) :=
  let (keyword, afterKeyword) := takeKeyword text
  let (comparator, afterComparator) := takeComparator afterKeyword
  let (number, rest) := takeNumber afterComparator
  if keyword.isNone && comparator.isNone && number.isNone then
    none
  else
    some (⟨keyword, comparator.getD default, number⟩, rest)

theorem takeKeyword_append (text : List Char) :
    (takeKeyword text).1.elim [] Keyword.text ++ (takeKeyword text).2 = text := by
  unfold takeKeyword
  split
  · next keyword h =>
    have hp := List.find?_some h
    rw [List.isPrefixOf_iff_prefix] at hp
    obtain ⟨rest, rfl⟩ := hp
    simp
  · rfl

theorem takeComparator_append (text : List Char) :
    (takeComparator text).1.elim [] (fun comparator => [comparator.symbol])
      ++ (takeComparator text).2 = text := by
  cases text with
  | nil => rfl
  | cons c rest =>
    rw [takeComparator]
    split
    · next comparator h => simp [Comparator.symbol_of_ofChar? h]
    · rfl

theorem takeNumber_isNone (text : List Char) :
    (takeNumber text).1.isNone = (Decimal.run text).isEmpty := by
  simp only [takeNumber]
  split <;> simp_all

theorem length_lt_of_read? {text rest : List Char} {modifier : Modifier}
    (h : read? text = some (modifier, rest)) : rest.length < text.length := by
  have hk := congrArg List.length (takeKeyword_append text)
  have hc := congrArg List.length (takeComparator_append (takeKeyword text).2)
  have hn := congrArg List.length
    (Decimal.run_append_afterRun (takeComparator (takeKeyword text).2).2)
  simp only [List.length_append] at hk hc hn
  simp only [read?, takeNumber_isNone] at h
  split at h
  · exact absurd h (by simp)
  · next hsome =>
    simp only [Option.some.injEq, Prod.mk.injEq, takeNumber] at h
    rw [← h.2]
    cases hkeyword : (takeKeyword text).1 with
    | some keyword =>
      have := Keyword.length_text_pos keyword
      simp only [hkeyword, Option.elim_some] at hk
      omega
    | none =>
      cases hcomparator : (takeComparator (takeKeyword text).2).1 with
      | some comparator =>
        simp only [hcomparator, Option.elim_some, List.length_singleton] at hc
        omega
      | none =>
        cases hrun : Decimal.run (takeComparator (takeKeyword text).2).2 with
        | nil => simp [hkeyword, hcomparator, hrun] at hsome
        | cons d ds =>
          simp only [hrun, List.length_cons] at hn
          omega

def readAll (text : List Char) : List Modifier × List Char :=
  match h : read? text with
  | none => ([], text)
  | some (modifier, rest) =>
    have := length_lt_of_read? h
    let (modifiers, tail) := readAll rest
    (modifier :: modifiers, tail)
termination_by text.length

theorem readAll_of_none {text : List Char} (h : read? text = none) : readAll text = ([], text) := by
  rw [readAll]
  split
  · rfl
  · next heq => simp [h] at heq

theorem readAll_of_some {text rest : List Char} {modifier : Modifier}
    (h : read? text = some (modifier, rest)) :
    readAll text = (modifier :: (readAll rest).1, (readAll rest).2) := by
  rw [readAll]
  split
  · next heq => simp [h] at heq
  · next found left heq =>
    rw [h] at heq
    cases heq
    rfl

def textAll (modifiers : List Modifier) : List Char := modifiers.flatMap text

end Modifier

end DiceNotation
