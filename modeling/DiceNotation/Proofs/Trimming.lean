import DiceNotation.Query
import Mathlib.Data.List.TakeWhile

/-!
# Trimming

Trimming takes off all the blank characters around a text and nothing else. A colon is not blank,
so the expression of a query is the same whether blanks around the query are taken off or not, and
whatever stands behind the colon.
-/
namespace DiceNotation

section

variable {blanks text : List Char}

theorem trimEnd_append_of_blank (h : ∀ c ∈ blanks, isBlank c = true) (text : List Char) :
    trimEnd (text ++ blanks) = trimEnd text := by
  have hreverse : ∀ c ∈ blanks.reverse, isBlank c = true := fun c hc => h c (List.mem_reverse.mp hc)
  rw [trimEnd, trimEnd, List.reverse_append, List.dropWhile_append_of_pos hreverse]

theorem trim_blank_append (h : ∀ c ∈ blanks, isBlank c = true) (text : List Char) :
    trim (blanks ++ text) = trim text := by
  rw [trim, trim, List.dropWhile_append_of_pos h]

theorem trim_append_of_blank (h : ∀ c ∈ blanks, isBlank c = true) (text : List Char) :
    trim (text ++ blanks) = trim text := by
  rw [trim, trim, List.dropWhile_append]
  split
  · next hempty =>
    rw [List.isEmpty_iff.mp hempty, List.dropWhile_eq_nil_iff.mpr h]
  · exact trimEnd_append_of_blank h _

theorem exists_trimEnd_append (text : List Char) :
    ∃ blanks, (∀ c ∈ blanks, isBlank c = true) ∧ text = trimEnd text ++ blanks := by
  refine ⟨(text.reverse.takeWhile isBlank).reverse, ?_, ?_⟩
  · intro c hc
    exact List.mem_takeWhile_imp (List.mem_reverse.mp hc)
  · rw [trimEnd, ← List.reverse_append, List.takeWhile_append_dropWhile, List.reverse_reverse]

theorem exists_append_trim_append (text : List Char) :
    ∃ front back, (∀ c ∈ front, isBlank c = true) ∧ (∀ c ∈ back, isBlank c = true) ∧
      text = front ++ (trim text ++ back) := by
  obtain ⟨back, hback, hrest⟩ := exists_trimEnd_append (text.dropWhile isBlank)
  refine ⟨text.takeWhile isBlank, back, fun c hc => List.mem_takeWhile_imp hc, hback, ?_⟩
  rw [trim, ← hrest, List.takeWhile_append_dropWhile]

theorem trim_eq_nil_iff : trim text = [] ↔ ∀ c ∈ text, isBlank c = true := by
  constructor
  · intro h
    obtain ⟨front, back, hfront, hback, htext⟩ := exists_append_trim_append text
    rw [htext, h, List.nil_append]
    exact List.forall_mem_append.mpr ⟨hfront, hback⟩
  · intro h
    have htrim := trim_blank_append h []
    rw [List.append_nil] at htrim
    exact htrim

end

theorem forall_ne_colon {text : List Char} (h : ':' ∉ text) :
    ∀ c ∈ text, decide (c ≠ ':') = true := by
  intro c hc
  exact decide_eq_true (ne_of_mem_of_not_mem hc h)

theorem takeWhile_ne_colon_append {front : List Char} (h : ':' ∉ front) (behind : List Char) :
    (front ++ ':' :: behind).takeWhile (· ≠ ':') = front := by
  rw [List.takeWhile_append_of_pos (forall_ne_colon h)]
  simp

theorem colon_not_mem_of_blank {blanks : List Char} (h : ∀ c ∈ blanks, isBlank c = true) :
    ':' ∉ blanks := by
  intro hmem
  have hblank := h ':' hmem
  exact absurd hblank (by decide)

namespace Query

variable {options : Options}

theorem expression_append_colon {front : List Char} (h : ':' ∉ front) (behind : List Char) :
    expression ⟨front ++ ':' :: behind, options⟩ = trim front := by
  rw [expression, head, takeWhile_ne_colon_append h]

theorem expression_of_not_mem {text : List Char} (h : ':' ∉ text) :
    expression ⟨text, options⟩ = trim text := by
  rw [expression, head, List.takeWhile_eq_self_iff.mpr (forall_ne_colon h)]

theorem expression_between_blanks {front back : List Char} (hfront : ∀ c ∈ front, isBlank c = true)
    (hback : ∀ c ∈ back, isBlank c = true) (text : List Char) :
    expression ⟨front ++ (text ++ back), options⟩ = expression ⟨text, options⟩ := by
  have hclear := colon_not_mem_of_blank hfront
  by_cases hcolon : ':' ∈ text
  · obtain ⟨before, behind, rfl, hbefore⟩ := List.eq_append_cons_of_mem hcolon
    have hwhole : front ++ (before ++ ':' :: behind ++ back) =
        front ++ before ++ ':' :: (behind ++ back) := by simp
    rw [hwhole, expression_append_colon (List.not_mem_append hclear hbefore),
      expression_append_colon hbefore, trim_blank_append hfront]
  · have hrest : ':' ∉ text ++ back := List.not_mem_append hcolon (colon_not_mem_of_blank hback)
    rw [expression_of_not_mem (List.not_mem_append hclear hrest), expression_of_not_mem hcolon,
      trim_blank_append hfront, trim_append_of_blank hback]

theorem expression_trim (text : List Char) :
    expression ⟨trim text, options⟩ = expression ⟨text, options⟩ := by
  obtain ⟨front, back, hfront, hback, htext⟩ := exists_append_trim_append text
  have h := @expression_between_blanks options front back hfront hback (trim text)
  rw [← htext] at h
  exact h.symm

end Query

end DiceNotation
