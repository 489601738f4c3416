import DiceNotation.Proofs.Decomposition

/-!
# The pieces of a group

A group is taken apart in two scans: one looks for the brace that closes it, the other splits what
stands in front of that brace at commas. The first scan stops where braces match, so they match in
all that it hands on, and the second scan keeps it so in every piece. If the brace is missing, no
piece closes a brace that it did not open, but the last one may leave some open. In both cases the
pieces with the commas, the closing brace and the options make up the group again.
-/
namespace DiceNotation.Braces

variable {separator : Char} {text piece body inside earlier later options : List Char}
  {pieces : List (List Char)}

namespace Decomposition

/-- Braces match in front of each piece, so the text closes a brace that it did not open only if a
piece does. -/
theorem covered_iff (hs : weight separator = 0) (h : Decomposition separator text pieces) :
    Covered 0 text ↔ ∀ piece ∈ pieces, Covered 0 piece := by
  induction pieces generalizing text with
  | nil => exact absurd rfl h.ne_nil
  | cons piece pieces ih =>
    rw [← h.join_eq]
    cases pieces with
    | nil => rw [join_singleton, List.forall_mem_singleton]
    | cons next pieces =>
      obtain ⟨hbalance, htail⟩ := h.tail
      rw [join_cons_cons, covered_append, covered_cons, hbalance, hs, Int.add_zero, Int.add_zero,
        ih htail]
      simp only [Int.le_refl, true_and, List.forall_mem_cons]

/-- Only the last piece can leave braces open, and it leaves none open if the text does not. -/
theorem balance_eq_zero (hs : weight separator = 0) (h : Decomposition separator text pieces)
    (hbalance : balance text = 0) : ∀ piece ∈ pieces, balance piece = 0 := by
  induction pieces generalizing text with
  | nil => exact absurd rfl h.ne_nil
  | cons piece pieces ih =>
    rw [← h.join_eq] at hbalance
    cases pieces with
    | nil =>
      rw [join_singleton] at hbalance
      exact List.forall_mem_singleton.mpr hbalance
    | cons next pieces =>
      obtain ⟨hpiece, htail⟩ := h.tail
      rw [join_cons_cons, balance_append, balance, hpiece, hs, Int.zero_add, Int.zero_add]
        at hbalance
      exact List.forall_mem_cons.mpr ⟨hpiece, ih htail hbalance⟩

theorem balanced (hs : weight separator = 0) (h : Decomposition separator text pieces)
    (htext : Balanced text) : ∀ piece ∈ pieces, Balanced piece := by
  intro piece hp
  exact ⟨(h.covered_iff hs).mp htext.covered piece hp,
    h.balance_eq_zero hs htext.balance_eq piece hp⟩

end Decomposition

/-- The closing brace behind the text closes a brace in front of it: there the number of open
braces comes back to zero. -/
def Closes (inside : List Char) : Prop := balance ('{' :: inside ++ ['}']) = 0

instance : DecidablePred Closes := fun inside =>
  inferInstanceAs (Decidable (balance ('{' :: inside ++ ['}']) = 0))

theorem closes_iff : Closes inside ↔ balance inside = 0 := by
  have hopen : weight '{' = 1 := rfl
  have hclose : balance ['}'] = -1 := rfl
  rw [Closes, balance_append, balance, hopen, hclose]
  omega

def Closed (body : List Char) : Prop :=
  ∃ inside behind, body = inside ++ '}' :: behind ∧ Closes inside

theorem Covered.not_closes (h : Covered 0 (earlier ++ '}' :: later)) : ¬ Closes earlier := by
  intro hcloses
  have hbehind := (covered_cons.mp (covered_append.mp h).2).2.nonneg
  rw [closes_iff.mp hcloses] at hbehind
  cases hbehind

theorem Covered.not_closed (h : Covered 0 body) : ¬ Closed body := by
  rintro ⟨inside, behind, rfl, hcloses⟩
  exact h.not_closes hcloses

theorem splitGroup_cases (body : List Char) :
    (∃ inside behind, body = inside ++ '}' :: behind ∧ Balanced inside ∧
      splitGroup body = (split ',' inside, behind)) ∨
    (Covered 0 body ∧ splitGroup body = (split ',' body, [])) := by
  unfold splitGroup
  cases hcut : cutAtClose 0 body with
  | none => exact .inr ⟨cutAtClose_eq_none_iff.mp hcut, rfl⟩
  | some parts =>
    obtain ⟨hbody, hcovered, hbalance⟩ := cutAtClose_eq_some_iff.mp hcut
    exact .inl ⟨parts.1, parts.2, hbody, ⟨hcovered, by omega⟩, rfl⟩

/-- A group is taken apart without losing any of its text. If some brace closes it, the pieces with
commas between them, the first such brace and the options behind it make up the group, and braces
match in every piece. If none does, the pieces with commas between them make up the group, there
are no options, no piece closes a brace that it did not open, and braces match in all pieces but
the last. No piece shows a comma outside its own braces. -/
theorem splitGroup_keeps_text (hsplit : splitGroup body = (pieces, options)) :
    (Closed body →
      '{' :: join ',' pieces ++ '}' :: options = '{' :: body ∧
      Closes (join ',' pieces) ∧
      (∀ earlier later, join ',' pieces = earlier ++ '}' :: later → ¬ Closes earlier) ∧
      ∀ piece ∈ pieces, Balanced piece) ∧
    (¬ Closed body →
      '{' :: join ',' pieces = '{' :: body ∧
      options = [] ∧
      (∀ piece ∈ pieces, Covered 0 piece) ∧
      ∀ piece ∈ pieces.dropLast, piece.count '{' = piece.count '}') ∧
    ∀ piece ∈ pieces, ∀ before behind, piece = before ++ ',' :: behind →
      before.count '{' ≠ before.count '}' := by
  have hs : weight ',' = 0 := rfl
  rcases splitGroup_cases body with ⟨inside, behind, hbody, hinside, heq⟩ | ⟨hbody, heq⟩
  · obtain ⟨rfl, rfl⟩ := Prod.mk.inj (hsplit.symm.trans heq)
    have hpieces := Decomposition.of_split ',' inside
    have hcloses : Closes inside := closes_iff.mpr hinside.balance_eq
    refine ⟨?_, ?_, hpieces.hidden⟩
    · intro _
      rw [hpieces.join_eq]
      refine ⟨?_, hcloses, ?_, hpieces.balanced hs hinside⟩
      · rw [hbody, List.cons_append]
      · rintro earlier later rfl
        exact hinside.covered.not_closes
    · intro hopen
      exact absurd ⟨inside, options, hbody, hcloses⟩ hopen
  · obtain ⟨rfl, rfl⟩ := Prod.mk.inj (hsplit.symm.trans heq)
    have hpieces := Decomposition.of_split ',' body
    refine ⟨?_, ?_, hpieces.hidden⟩
    · intro hclosed
      exact absurd hclosed hbody.not_closed
    · intro _
      refine ⟨?_, rfl, (hpieces.covered_iff hs).mp hbody, hpieces.matched⟩
      rw [hpieces.join_eq]

/-- The first group is closed in front of its options, and a brace stands in them. The second one
stays open, and so does its last piece. -/
theorem splitGroup_keeps_text_nested :
    let body := "1d6,\x7b2d4,1d8\x7d\x7dkh1\x7d".toList
    let pieces := ["1d6".toList, "\x7b2d4,1d8\x7d".toList]
    let openBody := "\x7b1d6,2d4\x7d,\x7b1d8".toList
    let openPieces := ["\x7b1d6,2d4\x7d".toList, "\x7b1d8".toList]
    splitGroup body = (pieces, "kh1\x7d".toList) ∧
      Closed body ∧
      (∀ piece ∈ pieces, Balanced piece) ∧
      splitGroup openBody = (openPieces, []) ∧
      ¬ Closed openBody ∧
      (∀ piece ∈ openPieces, Covered 0 piece) ∧
      ∀ piece ∈ openPieces.dropLast, piece.count '{' = piece.count '}' := by
  intro body pieces openBody openPieces
  have hsplit : splitGroup body = (pieces, "kh1\x7d".toList) := by decide
  have hclosed : Closed body :=
    ⟨"1d6,\x7b2d4,1d8\x7d".toList, "kh1\x7d".toList, by decide, by decide⟩
  have hopenSplit : splitGroup openBody = (openPieces, []) := by decide
  have hcovered : Covered 0 openBody := by decide
  have hopen : ¬ Closed openBody := hcovered.not_closed
  obtain ⟨-, -, -, hbalanced⟩ := (splitGroup_keeps_text hsplit).1 hclosed
  obtain ⟨-, -, hpieces, hmatched⟩ := (splitGroup_keeps_text hopenSplit).2.1 hopen
  exact ⟨hsplit, hclosed, hbalanced, hopenSplit, hopen, hpieces, hmatched⟩

end DiceNotation.Braces
