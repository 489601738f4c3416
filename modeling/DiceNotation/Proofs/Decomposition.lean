import DiceNotation.Proofs.Splitting

/-!
# The only decomposition

A text falls into pieces in one way only, if the pieces joined by the separator are to give the text
back, braces match in all pieces but the last, and no piece shows the separator outside its own
braces. Splitting finds these pieces in every text, also where braces are closed that were never
opened or where the last piece stays open.
-/
namespace DiceNotation.Braces

/-- Pieces that a text can be taken apart into, told piece by piece and without the depth that the
pieces in front lead to. -/
structure Decomposition (separator : Char) (text : List Char) (pieces : List (List Char)) :
    Prop where
  ne_nil : pieces ≠ []
  join_eq : join separator pieces = text
  matched : ∀ piece ∈ pieces.dropLast, piece.count '{' = piece.count '}'
  hidden : ∀ piece ∈ pieces, ∀ before behind, piece = before ++ separator :: behind →
    before.count '{' ≠ before.count '}'

theorem hides_zero_iff {separator : Char} {piece : List Char} :
    Hides separator 0 piece ↔ ∀ before behind, piece = before ++ separator :: behind →
      before.count '{' ≠ before.count '}' := by
  simp only [Hides, Int.zero_add, ne_eq, balance_eq_zero_iff]

section

variable {separator : Char} {text piece : List Char} {pieces : List (List Char)}

/-- Either braces hide every separator, or the text is cut at the first one that they do not hide
and what stands behind it is split on its own. -/
theorem splitFrom_cases (separator : Char) (depth : Int) (text : List Char) :
    (Hides separator depth text ∧ splitFrom separator depth text = [text]) ∨
    ∃ front rest, text = front ++ separator :: rest ∧ Hides separator depth front ∧
      depth + balance front = 0 ∧
      splitFrom separator depth text = front :: split separator rest := by
  induction text generalizing depth with
  | nil => exact .inl ⟨hides_nil separator depth, rfl⟩
  | cons c text ih =>
    by_cases hcut : c = separator ∧ depth = 0
    · right
      obtain ⟨rfl, rfl⟩ := hcut
      refine ⟨[], text, rfl, hides_nil c 0, rfl, ?_⟩
      rw [splitFrom, if_pos ⟨rfl, rfl⟩, split]
    · rcases ih (depth + weight c) with
        ⟨hhides, hsplit⟩ | ⟨front, rest, rfl, hhides, hbalance, hsplit⟩
      · left
        refine ⟨hides_cons.mpr ⟨hcut, hhides⟩, ?_⟩
        rw [splitFrom, if_neg hcut, hsplit, List.modifyHead_cons]
      · right
        refine ⟨c :: front, rest, rfl, hides_cons.mpr ⟨hcut, hhides⟩, ?_, ?_⟩
        · rw [balance, ← Int.add_assoc]
          exact hbalance
        · rw [splitFrom, if_neg hcut, hsplit, List.modifyHead_cons]

namespace Decomposition

theorem hides (h : Decomposition separator text pieces) (hp : piece ∈ pieces) :
    Hides separator 0 piece :=
  hides_zero_iff.mpr (h.hidden piece hp)

theorem single (h : Hides separator 0 text) : Decomposition separator text [text] where
  ne_nil := List.cons_ne_nil text []
  join_eq := join_singleton separator text
  matched := by
    intro piece hp
    cases hp
  hidden := by
    intro piece hp
    rw [List.mem_singleton.mp hp]
    exact hides_zero_iff.mp h

theorem cons (hpiece : Hides separator 0 piece) (hbalance : balance piece = 0)
    (h : Decomposition separator text pieces) :
    Decomposition separator (piece ++ separator :: text) (piece :: pieces) := by
  obtain ⟨next, others, rfl⟩ := List.exists_cons_of_ne_nil h.ne_nil
  refine ⟨List.cons_ne_nil _ _, ?_, ?_, ?_⟩
  · rw [join_cons_cons, h.join_eq]
  · rw [List.dropLast_cons_cons]
    exact List.forall_mem_cons.mpr ⟨balance_eq_zero_iff.mp hbalance, h.matched⟩
  · exact List.forall_mem_cons.mpr ⟨hides_zero_iff.mp hpiece, h.hidden⟩

theorem tail {next : List Char} (h : Decomposition separator text (piece :: next :: pieces)) :
    balance piece = 0 ∧
      Decomposition separator (join separator (next :: pieces)) (next :: pieces) := by
  have hmatched := h.matched
  rw [List.dropLast_cons_cons] at hmatched
  obtain ⟨hpiece, hothers⟩ := List.forall_mem_cons.mp hmatched
  refine ⟨balance_eq_zero_iff.mpr hpiece, List.cons_ne_nil _ _, rfl, hothers, ?_⟩
  exact (List.forall_mem_cons.mp h.hidden).2

theorem of_split (separator : Char) (text : List Char) :
    Decomposition separator text (split separator text) := by
  -- The text behind the first cut is shorter, and it is split from depth zero again.
  induction hn : text.length using Nat.strongRecOn generalizing text with
  | ind n ih =>
    rcases splitFrom_cases separator 0 text with
      ⟨hhides, hsplit⟩ | ⟨front, rest, rfl, hhides, hbalance, hsplit⟩
    · rw [split, hsplit]
      exact single hhides
    · rw [split, hsplit]
      rw [Int.zero_add] at hbalance
      refine cons hhides hbalance (ih rest.length ?_ rest rfl)
      rw [← hn, List.length_append, List.length_cons]
      omega

theorem unique (hs : weight separator = 0) (h : Decomposition separator text pieces) :
    pieces = split separator text := by
  induction pieces generalizing text with
  | nil => exact absurd rfl h.ne_nil
  | cons piece pieces ih =>
    have hpiece := h.hides (List.mem_cons_self ..)
    rw [← h.join_eq]
    cases pieces with
    | nil => rw [join_singleton, split_of_hides hpiece]
    | cons next pieces =>
      obtain ⟨hbalance, htail⟩ := h.tail
      rw [join_cons_cons, split_append_separator hs hbalance, split_of_hides hpiece, ← ih htail,
        List.singleton_append]

end Decomposition

end

/-- Every text, whatever its braces, has exactly one decomposition, splitting finds it, and each of
its pieces is split no further. -/
theorem split_only_decomposition {separator : Char} (hopen : separator ≠ '{')
    (hclose : separator ≠ '}') (text : List Char) :
    Decomposition separator text (split separator text) ∧
    (∀ pieces, Decomposition separator text pieces → pieces = split separator text) ∧
    ∀ piece ∈ split separator text, split separator piece = [piece] := by
  have hfound := Decomposition.of_split separator text
  refine ⟨hfound, ?_, ?_⟩
  · intro pieces h
    exact h.unique (weight_of_ne hopen hclose)
  · intro piece hp
    exact split_of_hides (hfound.hides hp)

/-- Braces closed before they are opened match as well, and a brace that nothing opened hides all
separators to the end of the text. -/
theorem split_only_decomposition_crossed :
    let text := "1d6+\x7d2d4+\x7b1d8+\x7d+3d6".toList
    let pieces := ["1d6".toList, "\x7d2d4+\x7b1d8".toList, "\x7d+3d6".toList]
    '+' ≠ '{' ∧ '+' ≠ '}' ∧ Decomposition '+' text pieces ∧
      ∀ piece ∈ pieces, split '+' piece = [piece] := by
  intro text pieces
  have hopen : '+' ≠ '{' := by decide
  have hclose : '+' ≠ '}' := by decide
  have hsplit : split '+' text = pieces := by decide
  obtain ⟨hfound, -, hpieces⟩ := split_only_decomposition hopen hclose text
  rw [hsplit] at hfound hpieces
  exact ⟨hopen, hclose, hfound, hpieces⟩

end DiceNotation.Braces
