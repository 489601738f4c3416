import DiceNotation.Modifier
import Mathlib.Data.List.TakeWhile

/-!
# Modifiers written and read back

A modifier always writes its comparator. So a keyword never meets a letter that would lengthen it,
and a number never meets a digit: a written run of modifiers falls into the same tokens again.
-/
namespace DiceNotation

namespace Decimal

def EndsRun (text : List Char) : Prop := ∀ c ∈ text.head?, c.isDigit = false

theorem endsRun_nil : EndsRun [] := by
  intro c hc
  cases hc

theorem endsRun_cons {c : Char} {rest : List Char} (h : c.isDigit = false) :
    EndsRun (c :: rest) := by
  intro d hd
  cases hd
  exact h

theorem run_of_endsRun {rest : List Char} (h : EndsRun rest) : run rest = [] := by
  cases rest with
  | nil => rfl
  | cons c rest => simp [run, h c rfl]

theorem afterRun_of_endsRun {rest : List Char} (h : EndsRun rest) : afterRun rest = rest := by
  cases rest with
  | nil => rfl
  | cons c rest => simp [afterRun, h c rfl]

theorem endsRun_afterRun (text : List Char) : EndsRun (afterRun text) := by
  intro c hc
  have hnot := List.head?_dropWhile_not Char.isDigit text
  rw [← afterRun, Option.mem_def.mp hc] at hnot
  exact hnot

theorem run_append {digits rest : List Char} (hd : ∀ c ∈ digits, c.isDigit = true)
    (h : EndsRun rest) : run (digits ++ rest) = digits := by
  rw [run, List.takeWhile_append_of_pos hd, ← run, run_of_endsRun h, List.append_nil]

theorem afterRun_append {digits rest : List Char} (hd : ∀ c ∈ digits, c.isDigit = true)
    (h : EndsRun rest) : afterRun (digits ++ rest) = rest := by
  rw [afterRun, List.dropWhile_append_of_pos hd, ← afterRun, afterRun_of_endsRun h]

theorem EndsRun.append {text rest : List Char} (h : EndsRun text) (hrest : EndsRun rest) :
    EndsRun (text ++ rest) := by
  cases text with
  | nil => exact hrest
  | cons c text => exact endsRun_cons (h c rfl)

theorem isDigit_of_mem_run {text : List Char} {c : Char} (h : c ∈ run text) : c.isDigit = true :=
  List.mem_takeWhile_imp h

theorem run_append_of_endsRun (text : List Char) {rest : List Char} (h : EndsRun rest) :
    run (text ++ rest) = run text := by
  calc run (text ++ rest)
      = run (run text ++ (afterRun text ++ rest)) := by
        rw [← List.append_assoc, run_append_afterRun]
    _ = run text := run_append (fun _ => isDigit_of_mem_run) ((endsRun_afterRun text).append h)

theorem afterRun_append_of_endsRun (text : List Char) {rest : List Char} (h : EndsRun rest) :
    afterRun (text ++ rest) = afterRun text ++ rest := by
  calc afterRun (text ++ rest)
      = afterRun (run text ++ (afterRun text ++ rest)) := by
        rw [← List.append_assoc, run_append_afterRun]
    _ = afterRun text ++ rest :=
        afterRun_append (fun _ => isDigit_of_mem_run) ((endsRun_afterRun text).append h)

theorem run_digits_append (n : Nat) {rest : List Char} (h : EndsRun rest) :
    run (digits n ++ rest) = digits n :=
  run_append (fun _ => isDigit_of_mem_digits) h

theorem afterRun_digits_append (n : Nat) {rest : List Char} (h : EndsRun rest) :
    afterRun (digits n ++ rest) = rest :=
  afterRun_append (fun _ => isDigit_of_mem_digits) h

theorem digits_ne_nil (n : Nat) : digits n ≠ [] := Nat.toDigits_ne_nil

theorem ofInt_of_nonneg {n : Int} (h : 0 ≤ n) : ofInt n = digits n.natAbs := by
  simp [ofInt, Int.not_lt.mpr h]

theorem mem_ofInt {n : Int} {c : Char} (h : c ∈ ofInt n) : c.isDigit = true ∨ c = '-' := by
  rw [ofInt] at h
  split at h
  · rcases List.mem_cons.mp h with rfl | h
    · exact .inr rfl
    · exact .inl (isDigit_of_mem_digits h)
  · exact .inl (isDigit_of_mem_digits h)

theorem toInt_saturate (n : Nat) : (saturate n).toInt = min n maxInt64 := by
  have hm : maxInt64 < 2 ^ 63 := by decide
  exact Int64.toInt_ofNat_of_lt (by omega)

theorem saturate_nonneg (n : Nat) : 0 ≤ saturate n := by
  rw [Int64.le_iff_toInt_le, toInt_saturate, Int64.toInt_zero]
  exact Int.natCast_nonneg _

theorem saturate_natAbs {n : Int64} (h : 0 ≤ n) : saturate n.toInt.natAbs = n := by
  apply Int64.toInt.inj
  have hm : maxInt64 = 2 ^ 63 - 1 := by decide
  have hn := n.toInt_lt
  rw [Int64.le_iff_toInt_le, Int64.toInt_zero] at h
  rw [toInt_saturate]
  omega

end Decimal

namespace Modifier

/-- The number, if there is one, is not negative. Only such a number has a text that is read. -/
def Writable (modifier : Modifier) : Prop := ∀ n ∈ modifier.condition.number, 0 ≤ n

instance (modifier : Modifier) : Decidable modifier.Writable :=
  decidable_of_iff (modifier.condition.number.all (decide <| 0 ≤ ·) = true)
    (by cases h : modifier.condition.number <;> simp [Writable, h])

theorem takeKeyword_text (keyword : Option Keyword) (comparator : Comparator)
    (rest : List Char) :
    takeKeyword (keyword.elim [] Keyword.text ++ comparator.symbol :: rest) =
      (keyword, comparator.symbol :: rest) := by
  cases comparator with
  | greater | less | equal =>
    cases keyword with
    | none => rfl
    | some keyword => cases keyword <;> rfl

theorem takeComparator_symbol (comparator : Comparator) (rest : List Char) :
    takeComparator (comparator.symbol :: rest) = (some comparator, rest) := by
  rw [takeComparator, Comparator.ofChar?_symbol]

theorem takeNumber_of_endsRun {rest : List Char} (h : Decimal.EndsRun rest) :
    takeNumber rest = (none, rest) := by
  simp [takeNumber, Decimal.run_of_endsRun h, Decimal.afterRun_of_endsRun h]

theorem takeNumber_ofInt {n : Int64} (hn : 0 ≤ n) {rest : List Char} (h : Decimal.EndsRun rest) :
    takeNumber (Decimal.ofInt n.toInt ++ rest) = (some n, rest) := by
  have h0 : 0 ≤ n.toInt := by
    rwa [Int64.le_iff_toInt_le, Int64.toInt_zero] at hn
  rw [Decimal.ofInt_of_nonneg h0, takeNumber, Decimal.run_digits_append _ h,
    Decimal.afterRun_digits_append _ h, Decimal.value_digits, Decimal.saturate_natAbs hn]
  simp [Decimal.digits_ne_nil]

theorem read?_text_append {modifier : Modifier} (hm : modifier.Writable) {rest : List Char}
    (h : Decimal.EndsRun rest) : read? (modifier.text ++ rest) = some (modifier, rest) := by
  obtain ⟨keyword, comparator, number⟩ := modifier
  cases number with
  | none =>
    have ht : (⟨keyword, comparator, none⟩ : Modifier).text ++ rest =
        keyword.elim [] Keyword.text ++ comparator.symbol :: rest := by
      simp [text, Condition.text]
    simp only [ht, read?, takeKeyword_text, takeComparator_symbol, takeNumber_of_endsRun h]
    simp
  | some n =>
    have ht : (⟨keyword, comparator, some n⟩ : Modifier).text ++ rest =
        keyword.elim [] Keyword.text ++
          comparator.symbol :: (Decimal.ofInt n.toInt ++ rest) := by
      simp [text, Condition.text]
    simp only [ht, read?, takeKeyword_text, takeComparator_symbol, takeNumber_ofInt (hm n rfl) h]
    simp

/-- No modifier starts with a digit, because each starts with a keyword or a comparator. -/
theorem endsRun_text_append (modifier : Modifier) (rest : List Char) :
    Decimal.EndsRun (modifier.text ++ rest) := by
  obtain ⟨keyword, comparator, number⟩ := modifier
  cases keyword with
  | none => cases comparator <;> exact Decimal.endsRun_cons rfl
  | some keyword => cases keyword <;> exact Decimal.endsRun_cons rfl

theorem endsRun_textAll_append (modifiers : List Modifier) {rest : List Char}
    (h : Decimal.EndsRun rest) : Decimal.EndsRun (textAll modifiers ++ rest) := by
  cases modifiers with
  | nil => exact h
  | cons modifier modifiers =>
    rw [textAll, List.flatMap_cons, List.append_assoc]
    exact endsRun_text_append modifier _

theorem readAll_textAll_append {modifiers : List Modifier} (hm : ∀ m ∈ modifiers, m.Writable)
    {rest : List Char} (h : Decimal.EndsRun rest) :
    readAll (textAll modifiers ++ rest) = (modifiers ++ (readAll rest).1, (readAll rest).2) := by
  induction modifiers with
  | nil => rfl
  | cons modifier modifiers ih =>
    have htext : textAll (modifier :: modifiers) ++ rest =
        modifier.text ++ (textAll modifiers ++ rest) := by
      simp [textAll]
    have hfirst := read?_text_append (hm modifier (List.mem_cons_self ..))
      (endsRun_textAll_append modifiers h)
    rw [htext, readAll_of_some hfirst, ih fun m h => hm m (List.mem_cons_of_mem _ h)]
    rfl

theorem writable_of_read? {text rest : List Char} {modifier : Modifier}
    (h : read? text = some (modifier, rest)) : modifier.Writable := by
  simp only [read?] at h
  split at h
  · cases h
  · cases h
    intro n hn
    simp only [takeNumber] at hn
    split at hn
    · cases hn
    · cases hn
      exact Decimal.saturate_nonneg _

/-- A number that was read is never negative, so whatever was read can be written. -/
theorem writable_of_mem_readAll {text : List Char} {modifier : Modifier}
    (h : modifier ∈ (readAll text).1) : modifier.Writable := by
  fun_induction readAll text with
  | case1 text hread => cases h
  | case2 text first rest hread hlt modifiers tail hrest ih =>
    rcases List.mem_cons.mp h with rfl | h
    · exact writable_of_read? hread
    · exact ih (by simpa [hrest] using h)

end Modifier

end DiceNotation
