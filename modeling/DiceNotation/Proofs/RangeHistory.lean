import DiceNotation.FaceRange

/-!
# The history of a range

A range of faces is built by additions and resets, and all that stays of its history are the
clauses of the edits from the last reset on. So a face is in the range if one of these edits holds
of it. Among the additions that no reset follows neither order nor repetition matters, and one more
of them takes no face out of the range.
-/
namespace DiceNotation

def Comparator.Relates : Comparator → Int → Int → Prop
  | .greater, a, b => b < a
  | .less, a, b => a < b
  | .equal, a, b => a = b

namespace Clause

def Asks : Clause → Int → Prop
  | .equals n, value => value = n.toInt
  | .above n, value => n.toInt < value
  | .below n, value => value < n.toInt

instance (clause : Clause) (value : Int) : Decidable (clause.Asks value) :=
  match clause with
  | .equals n => inferInstanceAs (Decidable (value = n.toInt))
  | .above n => inferInstanceAs (Decidable (n.toInt < value))
  | .below n => inferInstanceAs (Decidable (value < n.toInt))

/-- Words compare as the integers that they stand for, up to the ends of their range. -/
theorem holds_iff (clause : Clause) (face : Int64) :
    clause.holds face = true ↔ clause.Asks face.toInt := by
  cases clause with
  | equals n => rw [holds, beq_iff_eq, Asks, Int64.toInt_inj]
  | above n => rw [holds, decide_eq_true_eq, Asks, Int64.lt_iff_toInt_lt]
  | below n => rw [holds, decide_eq_true_eq, Asks, Int64.lt_iff_toInt_lt]

theorem asks_ofComparison (comparator : Comparator) (n : Int64) (value : Int) :
    (ofComparison comparator n).Asks value ↔ comparator.Relates value n.toInt := by
  cases comparator <;> rfl

end Clause

namespace FaceRange

def Edit.isReset : Edit → Bool
  | .add _ => false
  | .reset _ => true

def Additions (edits : List Edit) : Prop := ∀ edit ∈ edits, edit.isReset = false

instance : DecidablePred Additions := fun edits =>
  inferInstanceAs (Decidable (∀ edit ∈ edits, edit.isReset = false))

/-- The edits from the last reset on, or all of them if there is no reset. -/
def sinceReset : List Edit → List Edit
  | [] => []
  | edit :: later => if Additions later then edit :: later else sinceReset later

variable {edit : Edit} {edits later additions : List Edit} {face : Int64}

theorem additions_cons : Additions (edit :: later) ↔ edit.isReset = false ∧ Additions later :=
  List.forall_mem_cons

theorem sinceReset_of_additions (h : Additions edits) : sinceReset edits = edits := by
  cases edits with
  | nil => rfl
  | cons edit later => rw [sinceReset, if_pos (additions_cons.mp h).2]

theorem mem_sinceReset_iff : edit ∈ sinceReset edits ↔
    ∃ before after, edits = before ++ edit :: after ∧ Additions after := by
  induction edits with
  | nil => simp [sinceReset]
  | cons first later ih =>
    rw [sinceReset]
    by_cases hlater : Additions later
    · rw [if_pos hlater, List.mem_cons]
      constructor
      · rintro (rfl | hmem)
        · exact ⟨[], later, rfl, hlater⟩
        · obtain ⟨before, after, rfl⟩ := List.append_of_mem hmem
          refine ⟨first :: before, after, rfl, ?_⟩
          intro other hother
          exact hlater other (List.mem_append_right before (List.mem_cons_of_mem edit hother))
      · rintro ⟨before, after, hsplit, -⟩
        rw [← List.mem_cons, hsplit]
        exact List.mem_append_right before (List.mem_cons_self ..)
    · rw [if_neg hlater, ih]
      constructor
      · rintro ⟨before, after, rfl, hafter⟩
        exact ⟨first :: before, after, rfl, hafter⟩
      · rintro ⟨before, after, hsplit, hafter⟩
        cases before with
        | nil =>
          obtain ⟨rfl, rfl⟩ := List.cons.inj hsplit
          exact absurd hafter hlater
        | cons second before =>
          obtain ⟨rfl, rfl⟩ := List.cons.inj hsplit
          exact ⟨before, after, rfl, hafter⟩

theorem clauses_apply (range : FaceRange) (edit : Edit) :
    (range.apply edit).clauses =
      (if edit.isReset then [] else range.clauses) ++ [edit.clause] := by
  cases edit <;> rfl

theorem clauses_foldl_apply (range : FaceRange) (edits : List Edit) :
    (edits.foldl apply range).clauses =
      (if Additions edits then range.clauses else []) ++ (sinceReset edits).map Edit.clause := by
  induction edits generalizing range with
  | nil => simp [sinceReset, Additions]
  | cons edit later ih =>
    rw [List.foldl_cons, ih, sinceReset]
    by_cases hlater : Additions later
    · rw [if_pos hlater, if_pos hlater, clauses_apply, sinceReset_of_additions hlater]
      cases hreset : edit.isReset <;> simp [additions_cons, hreset, hlater]
    · have hall : ¬ Additions (edit :: later) := fun h => hlater (additions_cons.mp h).2
      rw [if_neg hlater, if_neg hlater, if_neg hall]

theorem contains_foldl_apply (range : FaceRange) (edits : List Edit) (face : Int64) :
    (edits.foldl apply range).contains face = true ↔
      (Additions edits ∧ range.contains face = true) ∨
        ∃ edit ∈ sinceReset edits, edit.clause.Asks face.toInt := by
  have hleft : ((sinceReset edits).map Edit.clause).any (·.holds face) = true ↔
      ∃ edit ∈ sinceReset edits, edit.clause.Asks face.toInt := by
    simp only [List.any_map, List.any_eq_true, Function.comp_apply, Clause.holds_iff]
  rw [contains, clauses_foldl_apply, List.any_append, Bool.or_eq_true, hleft]
  by_cases hedits : Additions edits
  · rw [if_pos hedits, ← contains]
    simp only [hedits, true_and]
  · rw [if_neg hedits, List.any_nil]
    simp only [hedits, false_and, Bool.false_eq_true]

theorem ofEdits_append (edits later : List Edit) :
    ofEdits (edits ++ later) = later.foldl apply (ofEdits edits) :=
  List.foldl_append

theorem clauses_ofEdits (edits : List Edit) :
    (ofEdits edits).clauses = (sinceReset edits).map Edit.clause := by
  rw [ofEdits, clauses_foldl_apply]
  simp [empty]

theorem contains_ofEdits (edits : List Edit) (face : Int64) :
    (ofEdits edits).contains face = true ↔
      ∃ edit ∈ sinceReset edits, edit.clause.Asks face.toInt := by
  rw [ofEdits, contains_foldl_apply]
  simp [empty, contains]

theorem contains_insert_addition (clause : Clause)
    (h : (ofEdits (edits ++ later)).contains face = true) :
    (ofEdits (edits ++ .add clause :: later)).contains face = true := by
  rw [ofEdits_append, contains_foldl_apply] at h
  rw [ofEdits_append, List.foldl_cons, contains_foldl_apply]
  rcases h with ⟨hlater, hface⟩ | hlater
  · left
    refine ⟨hlater, ?_⟩
    rw [apply, contains, add, List.any_append, Bool.or_eq_true]
    exact .inl hface
  · exact .inr hlater

theorem contains_of_same_additions {others : List Edit} (h : Additions additions)
    (hsame : ∀ edit, edit ∈ others ↔ edit ∈ additions) (face : Int64) :
    (ofEdits (edits ++ others)).contains face = (ofEdits (edits ++ additions)).contains face := by
  have hothers : Additions others := fun edit hmem => h edit ((hsame edit).mp hmem)
  rw [Bool.eq_iff_iff, ofEdits_append, ofEdits_append, contains_foldl_apply, contains_foldl_apply,
    sinceReset_of_additions h, sinceReset_of_additions hothers]
  simp only [h, hothers, hsame]

/-- What a history of edits leaves in a range that held nothing at first. The clauses are those of
the edits from the last reset on, in their order, so a face is in the range if an edit with no
reset behind it asks for it, where an addition by a comparator asks what the comparator says. One
more addition, wherever it is made, takes no face out of the range. Additions behind the last reset
may be made in any order and any number of times. -/
theorem range_of_edits (edits : List Edit) :
    (ofEdits edits).clauses = (sinceReset edits).map Edit.clause ∧
    (∀ face, (ofEdits edits).contains face = true ↔
      ∃ before edit after, edits = before ++ edit :: after ∧ Additions after ∧
        edit.clause.Asks face.toInt) ∧
    (∀ comparator n face, (Clause.ofComparison comparator n).Asks face ↔
      comparator.Relates face n.toInt) ∧
    (∀ clause later face, (ofEdits (edits ++ later)).contains face = true →
      (ofEdits (edits ++ .add clause :: later)).contains face = true) ∧
    ∀ additions others, Additions additions →
      (∀ edit, edit ∈ others ↔ edit ∈ additions) →
      ∀ face, (ofEdits (edits ++ others)).contains face =
        (ofEdits (edits ++ additions)).contains face := by
  refine ⟨clauses_ofEdits edits, ?_, Clause.asks_ofComparison, ?_, ?_⟩
  · intro face
    rw [contains_ofEdits]
    constructor
    · rintro ⟨edit, hmem, hasks⟩
      obtain ⟨before, after, hsplit, hafter⟩ := mem_sinceReset_iff.mp hmem
      exact ⟨before, edit, after, hsplit, hafter, hasks⟩
    · rintro ⟨before, edit, after, hsplit, hafter, hasks⟩
      exact ⟨edit, mem_sinceReset_iff.mpr ⟨before, after, hsplit, hafter⟩, hasks⟩
  · intro clause later face
    exact contains_insert_addition clause
  · intro additions others hadditions hsame face
    exact contains_of_same_additions hadditions hsame face

/-- The reset takes back that four is in the range. No face is above the greatest one, so the last
addition of the first history adds a clause and no face. -/
theorem range_of_edits_reset :
    let edits : List Edit := [.add (.equals 4), .reset (.above 6)]
    let additions : List Edit := [.add (.ofComparison .less 2), .add (.above Int64.maxValue)]
    let others : List Edit := [.add (.above Int64.maxValue), .add (.below 2), .add (.below 2)]
    (ofEdits (edits ++ additions)).clauses = [.above 6, .below 2, .above Int64.maxValue] ∧
      (ofEdits (edits ++ additions)).contains 4 = false ∧
      (ofEdits (edits ++ additions)).contains 7 = true ∧
      (ofEdits (edits ++ .add (.equals 4) :: additions)).contains 7 = true ∧
      Additions additions ∧ (∀ edit, edit ∈ others ↔ edit ∈ additions) ∧
      ∀ face, (ofEdits (edits ++ others)).contains face =
        (ofEdits (edits ++ additions)).contains face := by
  intro edits additions others
  have hadditions : Additions additions := by decide
  have hsame : ∀ edit, edit ∈ others ↔ edit ∈ additions := by
    intro edit
    simp only [others, additions, Clause.ofComparison, List.mem_cons, List.not_mem_nil, or_false,
      or_self]
    exact Or.comm
  have hseven : (ofEdits (edits ++ additions)).contains 7 = true := by decide
  obtain ⟨hclauses, -, -, -, -⟩ := range_of_edits (edits ++ additions)
  obtain ⟨-, -, -, hinsert, hreorder⟩ := range_of_edits edits
  refine ⟨hclauses, by decide, hseven, ?_, hadditions, hsame, ?_⟩
  · exact hinsert (.equals 4) additions 7 hseven
  · exact hreorder additions others hadditions hsame

end FaceRange

end DiceNotation
