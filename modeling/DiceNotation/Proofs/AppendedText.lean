import DiceNotation.Proofs.GreedyTokens
import DiceNotation.Proofs.SurroundingText

/-!
# Text written behind a term

More text behind a text changes nothing in what was read before it: the first die letter stays the
first one, and each token stays what it was if the text ends with a character that no keyword holds
and no digit follows. Text without a digit and without an `F` does not complete a die either.
-/
namespace DiceNotation

section

variable {text rest more : List Char} {c : Char}

theorem prefix_append_iff_of_not_mem {α : Type} {word : List α} {a : α} (h : a ∉ word)
    {front : List α} (more : List α) : word <+: front ++ a :: more ↔ word <+: front := by
  classical
  rw [← List.isPrefixOf_iff_prefix, ← List.isPrefixOf_iff_prefix,
    isPrefixOf_append_of_not_mem h]

/-- What stands behind a character that no keyword holds does not make a keyword longer. -/
theorem Keyword.LongestAt.append {front : List Char} (hc : ∀ keyword : Keyword, c ∉ keyword.text)
    {keyword : Option Keyword} (h : LongestAt (front ++ [c]) keyword) (more : List Char) :
    LongestAt (front ++ c :: more) keyword := by
  have hsame : ∀ other : Keyword,
      other.text <+: front ++ c :: more ↔ other.text <+: front ++ [c] := by
    intro other
    rw [prefix_append_iff_of_not_mem (hc other), prefix_append_iff_of_not_mem (hc other)]
  cases keyword with
  | none =>
    intro other
    rw [hsame other]
    exact h other
  | some keyword =>
    refine ⟨(hsame keyword).mpr h.1, ?_⟩
    intro other hother
    exact h.2 other ((hsame other).mp hother)

namespace Modifier

/-- A token is taken from a text in the same way if more stands behind the text, unless that goes on
with the keyword or the digits of the token. -/
theorem Token.Greedy.append {token : Token} {front : List Char}
    (hc : ∀ keyword : Keyword, c ∉ keyword.text) (h : token.Greedy (front ++ [c]) rest)
    (hmore : Decimal.EndsRun more) : token.Greedy (front ++ c :: more) (rest ++ more) where
  text_eq := by
    have htext := h.text_eq
    rw [List.append_cons, htext, List.append_assoc]
  keyword := h.keyword.append hc more
  comparator := by
    intro hnone comparator
    have hne : token.digits ++ rest ≠ [] := by
      -- Otherwise the keyword would reach to the end of the text, where it has no letter.
      intro hempty
      have htext := h.text_eq
      rw [Token.text, hnone, Option.elim_none, List.nil_append, List.append_assoc, hempty,
        List.append_nil] at htext
      cases hkeyword : token.keyword with
      | none =>
        rw [hkeyword] at htext
        simp at htext
      | some keyword =>
        rw [hkeyword, Option.elim_some] at htext
        apply hc keyword
        rw [← htext]
        exact List.mem_append_right front (List.mem_singleton_self c)
    have hhead := h.comparator hnone comparator
    rwa [← List.append_assoc, List.head?_append_of_ne_nil _ hne]
  digits := h.digits
  digits_end := h.digits_end.append hmore

theorem Stuck.append {front : List Char} (hc : ∀ keyword : Keyword, c ∉ keyword.text)
    (h : Stuck (front ++ [c])) (hmore : Decimal.EndsRun more) : Stuck (front ++ c :: more) := by
  have hgreedy := (stuck_iff_greedy.mp h).append hc hmore
  rw [List.append_assoc, List.singleton_append] at hgreedy
  exact stuck_iff_greedy.mpr hgreedy

end Modifier

end

namespace Term

variable {text before after more : List Char}

theorem DieLetter.of_head? (h : DieLetter before after) {other : List Char}
    (hhead : other.head? = after.head?) : DieLetter before other where
  digit_before := h.digit_before
  size_behind := by
    rw [hhead]
    exact h.size_behind

theorem DieLetter.after_ne_nil (h : DieLetter before after) : after ≠ [] := by
  rintro rfl
  obtain ⟨c, hc, -⟩ := h.size_behind
  cases hc

theorem CutAtDie.append (h : CutAtDie text before after) (more : List Char) :
    CutAtDie (text ++ more) before (after ++ more) where
  text_eq := by rw [h.text_eq, List.append_assoc, List.cons_append]
  letter := h.letter.of_head? (List.head?_append_of_ne_nil _ h.letter.after_ne_nil)
  first := by
    intro front back hbefore hletter
    apply h.first front back hbefore
    apply hletter.of_head?
    cases back <;> rfl

theorem CutAtDie.behindDie_eq {before' after' : List Char} (h : CutAtDie text before after)
    (h' : CutAtDie text before' after') : behindDie after = behindDie after' := by
  have hheading := (Heading.find?_of_cut h).symm.trans (Heading.find?_of_cut h')
  exact congrArg Heading.tail (Option.some.inj hheading)

theorem behindDie_append (h : DieLetter before after) (hmore : Decimal.EndsRun more) :
    behindDie (after ++ more) = behindDie after ++ more := by
  obtain ⟨c, hc, hsize⟩ := h.size_behind
  obtain ⟨tail, rfl⟩ := List.head?_eq_some_iff.mp hc
  by_cases hfate : c = 'F'
  · subst hfate
    rfl
  · have hbehind : ∀ tail, behindDie (c :: tail) = Decimal.afterRun (c :: tail) := by
      intro tail
      simp [behindDie, hfate]
    rw [List.cons_append, hbehind, hbehind, ← List.cons_append,
      Decimal.afterRun_append_of_endsRun _ hmore]

theorem CutAtDie.behindDie_suffix (h : CutAtDie text before after) : behindDie after <:+ text := by
  have hafter : behindDie after <:+ after := by
    unfold behindDie
    split
    · exact List.suffix_cons _ _
    · exact List.dropWhile_suffix _
  rw [h.text_eq]
  exact hafter.trans ((List.suffix_cons 'd' after).trans (List.suffix_append before _))

/-- Text without a digit and without an `F` does not complete a die. -/
theorem HoldsDie.of_append (h : HoldsDie (text ++ more))
    (hmore : ∀ c ∈ more, c.isDigit = false ∧ c ≠ 'F') : HoldsDie text := by
  obtain ⟨c, d, hdigit, hsize, front, back, hrow⟩ := h
  rcases List.append_eq_append_iff.mp hrow with ⟨inside, htext, -⟩ | ⟨inside, hfront, hback⟩
  · exact ⟨c, d, hdigit, hsize, front, inside, htext.symm⟩
  · by_cases hempty : inside = []
    · rw [hempty, List.append_nil] at hfront
      exact ⟨c, d, hdigit, hsize, front, [], by rw [hfront, List.append_nil]⟩
    · have hlast := congrArg List.getLast? hfront
      rw [List.getLast?_append_of_ne_nil _ hempty] at hlast
      have hd : d ∈ inside := List.mem_of_getLast? (by rw [← hlast]; simp)
      obtain ⟨hnotDigit, hnotF⟩ := hmore d (by rw [hback]; exact List.mem_append_left _ hd)
      rcases hsize with hsize | hsize
      · rw [hnotDigit] at hsize
        cases hsize
      · exact absurd hsize hnotF

end Term

end DiceNotation
