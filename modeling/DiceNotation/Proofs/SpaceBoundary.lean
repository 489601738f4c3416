import DiceNotation.Proofs.ModifierText
import DiceNotation.Term.Reader

/-!
# Spaces end what is read

No token holds a space. So a text is read up to a space as if nothing came behind it, and what
comes behind counts only where the text in front of the space holds no term.
-/
namespace DiceNotation

theorem isPrefixOf_append_of_not_mem {α : Type} [BEq α] [LawfulBEq α] {word : List α} {a : α}
    (h : a ∉ word) (text rest : List α) :
    word.isPrefixOf (text ++ a :: rest) = word.isPrefixOf text := by
  induction word generalizing text with
  | nil => simp
  | cons b word ih =>
    obtain ⟨hb, hword⟩ := not_or.mp (mt List.mem_cons.mpr h)
    cases text with
    | nil => simp [List.isPrefixOf, Ne.symm hb]
    | cons c text =>
      rw [List.cons_append, List.isPrefixOf_cons_cons, List.isPrefixOf_cons_cons, ih hword]

namespace Decimal

theorem run_append_space (text rest : List Char) : run (text ++ ' ' :: rest) = run text :=
  run_append_of_endsRun text (endsRun_cons rfl)

theorem afterRun_append_space (text rest : List Char) :
    afterRun (text ++ ' ' :: rest) = afterRun text ++ ' ' :: rest :=
  afterRun_append_of_endsRun text (endsRun_cons rfl)

end Decimal

theorem Keyword.space_not_mem_text (keyword : Keyword) : ' ' ∉ keyword.text := by
  cases keyword <;> decide

theorem Keyword.atFront?_append_space (text rest : List Char) :
    atFront? (text ++ ' ' :: rest) = atFront? text := by
  have h : ∀ keyword : Keyword, keyword.text.isPrefixOf (text ++ ' ' :: rest) =
      keyword.text.isPrefixOf text :=
    fun keyword => isPrefixOf_append_of_not_mem keyword.space_not_mem_text text rest
  simp only [atFront?, h]

namespace Modifier

theorem takeKeyword_append_space (text rest : List Char) :
    takeKeyword (text ++ ' ' :: rest) =
      ((takeKeyword text).1, (takeKeyword text).2 ++ ' ' :: rest) := by
  unfold takeKeyword
  rw [Keyword.atFront?_append_space]
  cases h : Keyword.atFront? text with
  | none => rfl
  | some keyword =>
    have hp := List.find?_some h
    rw [List.isPrefixOf_iff_prefix] at hp
    simp only [List.drop_append_of_le_length hp.length_le]

theorem takeComparator_append_space (text rest : List Char) :
    takeComparator (text ++ ' ' :: rest) =
      ((takeComparator text).1, (takeComparator text).2 ++ ' ' :: rest) := by
  cases text with
  | nil => rfl
  | cons c text =>
    rw [List.cons_append, takeComparator, takeComparator]
    cases Comparator.ofChar? c <;> rfl

theorem takeNumber_append_space (text rest : List Char) :
    takeNumber (text ++ ' ' :: rest) =
      ((takeNumber text).1, (takeNumber text).2 ++ ' ' :: rest) := by
  simp only [takeNumber, Decimal.run_append_space, Decimal.afterRun_append_space]

theorem read?_append_space (text rest : List Char) :
    read? (text ++ ' ' :: rest) =
      (read? text).map fun read => (read.1, read.2 ++ ' ' :: rest) := by
  simp only [read?, takeKeyword_append_space, takeComparator_append_space,
    takeNumber_append_space]
  split <;> rfl

theorem readAll_append_space (text rest : List Char) :
    readAll (text ++ ' ' :: rest) = ((readAll text).1, (readAll text).2 ++ ' ' :: rest) := by
  fun_induction readAll text with
  | case1 text hread =>
    have h := read?_append_space text rest
    rw [hread] at h
    exact readAll_of_none h
  | case2 text modifier tail hread hlt modifiers left hrest ih =>
    have h := read?_append_space text rest
    rw [hread] at h
    rw [readAll_of_some h, ih, hrest]

end Modifier

namespace Term

namespace Heading

theorem atFront?_append_space (text rest : List Char) :
    atFront? (text ++ ' ' :: rest) =
      (atFront? text).map fun heading => { heading with tail := heading.tail ++ ' ' :: rest } := by
  unfold atFront?
  rw [Decimal.run_append_space, Decimal.afterRun_append_space]
  rcases Decimal.run text with _ | ⟨c, cs⟩
  · rfl
  · rcases Decimal.afterRun text with _ | ⟨d, tail⟩
    · rfl
    · by_cases hd : d = 'd'
      · subst hd
        simp only [List.cons_append, Decimal.run_append_space, Decimal.afterRun_append_space]
        rcases Decimal.run tail with _ | ⟨n, ns⟩
        · rcases tail with _ | ⟨f, tail⟩
          · rfl
          · by_cases hf : f = 'F'
            · subst hf
              rfl
            · simp [hf]
        · rfl
      · simp [hd]

theorem find?_append_space (text rest : List Char) :
    find? (text ++ ' ' :: rest) =
      ((find? text).map fun heading => { heading with tail := heading.tail ++ ' ' :: rest }).or
        (find? rest) := by
  induction text with
  | nil => rfl
  | cons c text ih =>
    have h := atFront?_append_space (c :: text) rest
    rw [List.cons_append] at h
    rw [List.cons_append, find?, find?, h]
    cases atFront? (c :: text) with
    | none => exact ih
    | some heading => rfl

end Heading

/-- Behind a space only a text without a term makes room for another one. -/
theorem parse_append_space (options : Options) (text rest : List Char) :
    Term.parse options (text ++ ' ' :: rest) =
      if (Heading.find? text).isSome then Term.parse options text
      else Term.parse options rest := by
  rw [parse, parse, parse, Heading.find?_append_space]
  cases Heading.find? text with
  | none => rfl
  | some heading =>
    have hmodifiers := congrArg Prod.fst (Modifier.readAll_append_space heading.tail rest)
    simp only [Option.map_some, Option.some_or, Option.isSome_some, if_true, hmodifiers]
    rfl

end Term

end DiceNotation
