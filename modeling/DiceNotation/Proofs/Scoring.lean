import DiceNotation.Proofs.Totals
import DiceNotation.Term.Throw

/-!
# Scoring a term

A thrown term is scored by its modifiers. Those that count successes or failures with a number
make it a success count, whose total is the number of faces that meet a success modifier less the
number that meet a failure modifier. Without them the total is the sum of the faces.
-/
namespace DiceNotation

def Condition.accepts (condition : Condition) (face : Int64) : Bool :=
  match condition.number, condition.comparator with
  | none, _ => false
  | some n, .greater => decide (n < face)
  | some n, .less => decide (face < n)
  | some n, .equal => decide (face = n)

namespace Modifier

def CountsSuccess (modifier : Modifier) : Prop :=
  modifier.keyword = none ∨ modifier.keyword = some .success

def CountsFailure (modifier : Modifier) : Prop := modifier.keyword = some .failure

def Scores (modifier : Modifier) : Prop :=
  (modifier.CountsSuccess ∨ modifier.CountsFailure) ∧ modifier.condition.number.isSome

instance (modifier : Modifier) : Decidable modifier.CountsSuccess :=
  inferInstanceAs (Decidable (_ ∨ _))

instance (modifier : Modifier) : Decidable modifier.CountsFailure :=
  inferInstanceAs (Decidable (_ = _))

theorem role_eq_success_iff (modifier : Modifier) :
    modifier.role = .success ↔ modifier.CountsSuccess := by
  obtain ⟨keyword, condition⟩ := modifier
  rcases keyword with _ | keyword
  · simp [role, CountsSuccess]
  · cases keyword <;> simp [role, CountsSuccess]

theorem role_eq_failure_iff (modifier : Modifier) :
    modifier.role = .failure ↔ modifier.CountsFailure := by
  obtain ⟨keyword, condition⟩ := modifier
  rcases keyword with _ | keyword
  · simp [role, CountsFailure]
  · cases keyword <;> simp [role, CountsFailure]

theorem any_clause?_holds (modifier : Modifier) (face : Int64) :
    modifier.clause?.any (·.holds face) = modifier.condition.accepts face := by
  obtain ⟨keyword, comparator, number⟩ := modifier
  cases number with
  | none => rfl
  | some n => cases comparator <;> rfl

theorem clauses_eq_nil_iff {role : Role} {modifiers : List Modifier} :
    clauses role modifiers = [] ↔
      ∀ modifier ∈ modifiers, modifier.role = role → modifier.condition.number = none := by
  simp [clauses, clause?]

theorem contains_clauses (role : Role) (modifiers : List Modifier) (face : Int64) :
    FaceRange.contains ⟨clauses role modifiers⟩ face =
      modifiers.any fun modifier =>
        decide (modifier.role = role) && modifier.condition.accepts face := by
  rw [FaceRange.contains, clauses, List.any_filterMap, List.any_filter]
  congr 1
  funext modifier
  rw [← any_clause?_holds]
  cases modifier.clause? <;> rfl

end Modifier

namespace Term

theorem tally?_eq_none_iff (term : Term) :
    term.tally? = none ↔ ∀ modifier ∈ term.modifiers, ¬ modifier.Scores := by
  have hempty : term.tally? = none ↔ Modifier.clauses .success term.modifiers = [] ∧
      Modifier.clauses .failure term.modifiers = [] := by
    simp [tally?]
  rw [hempty, Modifier.clauses_eq_nil_iff, Modifier.clauses_eq_nil_iff]
  constructor
  · rintro ⟨hsuccess, hfailure⟩ modifier hmem ⟨hcounts, hnumber⟩
    rcases hcounts with hcounts | hcounts
    · have := hsuccess modifier hmem (modifier.role_eq_success_iff.mpr hcounts)
      simp [this] at hnumber
    · have := hfailure modifier hmem (modifier.role_eq_failure_iff.mpr hcounts)
      simp [this] at hnumber
  · intro hnone
    refine ⟨?_, ?_⟩
    · intro modifier hmem hrole
      have hcounts := modifier.role_eq_success_iff.mp hrole
      exact Option.not_isSome_iff_eq_none.mp fun hn => hnone modifier hmem ⟨.inl hcounts, hn⟩
    · intro modifier hmem hrole
      have hcounts := modifier.role_eq_failure_iff.mp hrole
      exact Option.not_isSome_iff_eq_none.mp fun hn => hnone modifier hmem ⟨.inr hcounts, hn⟩

theorem kind_eq_success_iff (term : Term) :
    term.kind = .success ↔ ∃ modifier ∈ term.modifiers, modifier.Scores := by
  unfold kind
  cases htally : term.tally? with
  | none =>
    have hnone := term.tally?_eq_none_iff.mp htally
    simp only [reduceCtorEq, false_iff]
    rintro ⟨modifier, hmem, hscores⟩
    exact hnone modifier hmem hscores
  | some tally =>
    simp only [true_iff]
    by_cases hex : ∃ modifier ∈ term.modifiers, modifier.Scores
    · exact hex
    · have hnone := term.tally?_eq_none_iff.mpr fun modifier hmem hscores =>
        hex ⟨modifier, hmem, hscores⟩
      rw [hnone] at htally
      cases htally

def succeeds (term : Term) (face : Int64) : Bool :=
  term.modifiers.any fun modifier =>
    decide modifier.CountsSuccess && modifier.condition.accepts face

def fails (term : Term) (face : Int64) : Bool :=
  term.modifiers.any fun modifier =>
    decide modifier.CountsFailure && modifier.condition.accepts face

theorem score_of_tally? {term : Term} {tally : Tally} (h : term.tally? = some tally)
    (face : Int64) : tally.score face =
      Int64.ofInt ((if term.succeeds face then 1 else 0) - (if term.fails face then 1 else 0)) := by
  have htally : tally =
      ⟨⟨Modifier.clauses .success term.modifiers⟩, ⟨Modifier.clauses .failure term.modifiers⟩⟩ := by
    simp only [tally?] at h
    split at h
    · cases h
    · exact (Option.some.inj h).symm
  subst htally
  simp only [Tally.score, Modifier.contains_clauses, Modifier.role_eq_success_iff,
    Modifier.role_eq_failure_iff]
  rw [Int64.ofInt_sub, succeeds, fails]
  split <;> split <;> rfl

end Term

namespace ThrownTerm

/-- What a thrown term contributes to a total of the given kind, without wrapping: the sum of its
faces, or the number that succeed less the number that fail. -/
def worth (thrown : ThrownTerm) : Kind → Int
  | .sum => (thrown.faces.map Int64.toInt).sum
  | .success => thrown.faces.countP thrown.term.succeeds - thrown.faces.countP thrown.term.fails

theorem sum_scores {α : Type} (p q : α → Bool) (items : List α) :
    (items.map fun item => (if p item then 1 else 0) - (if q item then 1 else 0 : Int)).sum =
      items.countP p - items.countP q := by
  induction items with
  | nil => rfl
  | cons item items ih =>
    rw [List.map_cons, List.sum_cons, ih, List.countP_cons, List.countP_cons]
    split <;> split <;> omega

theorem total_eq (thrown : ThrownTerm) :
    thrown.total = ⟨thrown.term.kind, Int64.ofInt (thrown.worth thrown.term.kind)⟩ := by
  unfold total Term.kind
  cases htally : thrown.term.tally? with
  | none =>
    have hfaces : thrown.faces = thrown.faces.map fun face => Int64.ofInt face.toInt := by simp
    simp only [worth]
    rw [← Total.add_map_ofInt, ← hfaces]
  | some tally =>
    simp only [worth]
    rw [List.map_congr_left fun face _ => Term.score_of_tally? htally face, Total.add_map_ofInt,
      sum_scores]

end ThrownTerm

end DiceNotation
