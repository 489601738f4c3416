import DiceNotation.Proofs.Scoring
import DiceNotation.Proofs.ThrowOrder
import DiceNotation.Term.Reader

/-!
# What modifiers can influence

The modifiers of a term are applied one after the other. Each numbered one adds a clause to a
range of faces, and all that is asked of a range later is which faces are in it. So what a throw
comes to depends on the set of success conditions and the set of failure conditions alone, and how
it is printed on the two sets of crit conditions besides. The order of the modifiers, their
repetitions and those without a number or an effect leave no trace.
-/
namespace DiceNotation

namespace Modifier

def MarksSuccess (modifier : Modifier) : Prop := modifier.keyword = some .critSuccess

def MarksFailure (modifier : Modifier) : Prop := modifier.keyword = some .critFailure

theorem role_eq_critSuccess_iff (modifier : Modifier) :
    modifier.role = .critSuccess ↔ modifier.MarksSuccess := by
  obtain ⟨keyword, condition⟩ := modifier
  rcases keyword with _ | keyword
  · simp [role, MarksSuccess]
  · cases keyword <;> simp [role, MarksSuccess]

theorem role_eq_critFailure_iff (modifier : Modifier) :
    modifier.role = .critFailure ↔ modifier.MarksFailure := by
  obtain ⟨keyword, condition⟩ := modifier
  rcases keyword with _ | keyword
  · simp [role, MarksFailure]
  · cases keyword <;> simp [role, MarksFailure]

theorem clauses_append_singleton (role : Role) (modifiers : List Modifier) (modifier : Modifier) :
    clauses role (modifiers ++ [modifier]) = clauses role modifiers ++
      if modifier.role = role then modifier.clause?.toList else [] := by
  rw [clauses, List.filter_append, List.filterMap_append, ← clauses]
  congr 1
  by_cases hrole : modifier.role = role
  · rw [if_pos hrole, List.filter_singleton, decide_eq_true hrole]
    cases hclause : modifier.clause? <;> simp [hclause]
  · rw [if_neg hrole, List.filter_singleton, decide_eq_false hrole]
    rfl

end Modifier

/-! ### The modifiers one by one -/

/-- What modifiers leave behind: the tally, once there is one, and the faces to mark. -/
structure Ranges where
  tally? : Option Tally
  critSuccess : FaceRange
  critFailure : FaceRange

namespace Ranges

def ofDie (die : Die) : Ranges :=
  ⟨none, ⟨[.above die.sides.toUInt64.toInt64]⟩, ⟨[.below 1]⟩⟩

/-- A modifier without a number changes nothing. The first success or failure clause creates the
tally. -/
def apply (ranges : Ranges) (modifier : Modifier) : Ranges :=
  let tally := ranges.tally?.getD {}
  match modifier.clause?, modifier.role with
  | some clause, .success =>
    { ranges with tally? := some { tally with success := tally.success.add clause } }
  | some clause, .failure =>
    { ranges with tally? := some { tally with failure := tally.failure.add clause } }
  | some clause, .critSuccess => { ranges with critSuccess := ranges.critSuccess.add clause }
  | some clause, .critFailure => { ranges with critFailure := ranges.critFailure.add clause }
  | some _, .inert | none, _ => ranges

end Ranges

namespace Term

def ranges (term : Term) : Ranges := ⟨term.tally?, term.critSuccess, term.critFailure⟩

theorem getD_tally? (term : Term) :
    term.tally?.getD {} = ⟨⟨Modifier.clauses .success term.modifiers⟩,
      ⟨Modifier.clauses .failure term.modifiers⟩⟩ := by
  simp only [tally?]
  split
  · next hnone =>
    rw [Bool.and_eq_true, List.isEmpty_iff, List.isEmpty_iff] at hnone
    rw [hnone.1, hnone.2]
    rfl
  · rfl

theorem ranges_append_singleton (count : UInt64) (die : Die) (modifiers : List Modifier)
    (modifier : Modifier) :
    ranges ⟨count, die, modifiers ++ [modifier]⟩ =
      (ranges ⟨count, die, modifiers⟩).apply modifier := by
  rw [Ranges.apply, ranges, ranges, getD_tally?]
  simp only [tally?, critSuccess, critFailure, Modifier.clauses_append_singleton]
  cases hclause : modifier.clause? with
  | none => simp
  | some clause => cases hrole : modifier.role <;> simp [FaceRange.add]

/-- Applying the modifiers from left to right leaves what is read off their list. -/
theorem foldl_apply_modifiers (term : Term) :
    term.modifiers.foldl Ranges.apply (.ofDie term.die) = term.ranges := by
  obtain ⟨count, die, modifiers⟩ := term
  induction modifiers using List.reverseRecOn with
  | nil => rfl
  | append_singleton modifiers modifier ih =>
    rw [List.foldl_append, List.foldl_cons, List.foldl_nil, ih, ranges_append_singleton]

end Term

/-! ### The modifiers as a set of conditions -/

namespace Condition

theorem exists_number_of_accepts {condition : Condition} {face : Int64}
    (h : condition.accepts face = true) : ∃ n, condition = ⟨condition.comparator, some n⟩ := by
  obtain ⟨comparator, number⟩ := condition
  cases number with
  | none => cases h
  | some n => exact ⟨n, rfl⟩

end Condition

namespace Term

def conditions (acts : Modifier → Prop) (term : Term) : Set (Comparator × Int64) :=
  {pair | ∃ modifier ∈ term.modifiers, acts modifier ∧ modifier.condition = ⟨pair.1, some pair.2⟩}

variable {role : Modifier.Role} {acts : Modifier → Prop} {first second : Term}

section

variable (hacts : ∀ modifier : Modifier, modifier.role = role ↔ acts modifier)
include hacts

theorem contains_clauses_iff (term : Term) (face : Int64) :
    FaceRange.contains ⟨Modifier.clauses role term.modifiers⟩ face = true ↔
      ∃ pair ∈ term.conditions acts, Condition.accepts ⟨pair.1, some pair.2⟩ face = true := by
  simp only [Modifier.contains_clauses, List.any_eq_true, Bool.and_eq_true, decide_eq_true_eq,
    hacts]
  constructor
  · rintro ⟨modifier, hmem, hmodifier, haccepts⟩
    obtain ⟨n, hn⟩ := Condition.exists_number_of_accepts haccepts
    rw [hn] at haccepts
    exact ⟨(modifier.condition.comparator, n), ⟨modifier, hmem, hmodifier, hn⟩, haccepts⟩
  · rintro ⟨pair, ⟨modifier, hmem, hmodifier, hcondition⟩, haccepts⟩
    rw [← hcondition] at haccepts
    exact ⟨modifier, hmem, hmodifier, haccepts⟩

theorem clauses_eq_nil_iff_conditions (term : Term) :
    Modifier.clauses role term.modifiers = [] ↔ term.conditions acts = ∅ := by
  rw [Modifier.clauses_eq_nil_iff, Set.eq_empty_iff_forall_notMem]
  constructor
  · rintro hnone pair ⟨modifier, hmem, hmodifier, hcondition⟩
    have hnumber := hnone modifier hmem ((hacts modifier).mpr hmodifier)
    rw [hcondition] at hnumber
    cases hnumber
  · intro hempty modifier hmem hrole
    by_contra hnumber
    obtain ⟨n, hn⟩ := Option.ne_none_iff_exists'.mp hnumber
    apply hempty (modifier.condition.comparator, n)
    exact ⟨modifier, hmem, (hacts modifier).mp hrole, by rw [← hn]⟩

theorem contains_clauses_congr (h : first.conditions acts = second.conditions acts) (face : Int64) :
    FaceRange.contains ⟨Modifier.clauses role first.modifiers⟩ face =
      FaceRange.contains ⟨Modifier.clauses role second.modifiers⟩ face := by
  rw [Bool.eq_iff_iff, contains_clauses_iff hacts, contains_clauses_iff hacts, h]

end

section

variable
  (hsuccess : first.conditions Modifier.CountsSuccess = second.conditions Modifier.CountsSuccess)
  (hfailure : first.conditions Modifier.CountsFailure = second.conditions Modifier.CountsFailure)
include hsuccess hfailure

theorem tally?_congr :
    (first.tally? = none ∧ second.tally? = none) ∨
      ∃ tally other, first.tally? = some tally ∧ second.tally? = some other ∧
        tally.score = other.score := by
  -- A tally is missing if there are no clauses, and there are none if there are no conditions.
  have hnoSuccess : Modifier.clauses .success first.modifiers = [] ↔
      Modifier.clauses .success second.modifiers = [] := by
    rw [clauses_eq_nil_iff_conditions Modifier.role_eq_success_iff,
      clauses_eq_nil_iff_conditions Modifier.role_eq_success_iff, hsuccess]
  have hnoFailure : Modifier.clauses .failure first.modifiers = [] ↔
      Modifier.clauses .failure second.modifiers = [] := by
    rw [clauses_eq_nil_iff_conditions Modifier.role_eq_failure_iff,
      clauses_eq_nil_iff_conditions Modifier.role_eq_failure_iff, hfailure]
  simp only [tally?, Bool.and_eq_true, List.isEmpty_iff, hnoSuccess, hnoFailure]
  split
  · exact .inl ⟨rfl, rfl⟩
  · refine .inr ⟨_, _, rfl, rfl, ?_⟩
    funext face
    rw [Tally.score, Tally.score, contains_clauses_congr Modifier.role_eq_success_iff hsuccess,
      contains_clauses_congr Modifier.role_eq_failure_iff hfailure]

theorem kind_congr : first.kind = second.kind := by
  unfold kind
  rcases tally?_congr hsuccess hfailure with
    ⟨hnone, hother⟩ | ⟨tally, other, htally, hother, -⟩
  · rw [hnone, hother]
  · rw [htally, hother]

theorem total_congr (faces : List Int64) :
    (ThrownTerm.mk first faces).total = (ThrownTerm.mk second faces).total := by
  unfold ThrownTerm.total
  rcases tally?_congr hsuccess hfailure with
    ⟨hnone, hother⟩ | ⟨tally, other, htally, hother, hscore⟩
  · simp only [hnone, hother]
  · simp only [htally, hother, hscore]

end

/-- The marks that the die itself makes are the same, so only added crit conditions matter. -/
theorem text_congr (hdie : first.die = second.die)
    (hsuccess : first.conditions Modifier.MarksSuccess = second.conditions Modifier.MarksSuccess)
    (hfailure : first.conditions Modifier.MarksFailure = second.conditions Modifier.MarksFailure)
    (faces : List Int64) :
    (ThrownTerm.mk first faces).text = (ThrownTerm.mk second faces).text := by
  have hcons : ∀ (clause : Clause) (clauses : List Clause) (face : Int64),
      FaceRange.contains ⟨clause :: clauses⟩ face =
        (clause.holds face || FaceRange.contains ⟨clauses⟩ face) :=
    fun clause clauses face => rfl
  have hmarked : ThrownTerm.markedFace first.critSuccess first.critFailure =
      ThrownTerm.markedFace second.critSuccess second.critFailure := by
    funext face
    rw [ThrownTerm.markedFace, ThrownTerm.markedFace, critSuccess, critSuccess, critFailure,
      critFailure, hcons, hcons, hcons, hcons, hdie,
      contains_clauses_congr Modifier.role_eq_critSuccess_iff hsuccess,
      contains_clauses_congr Modifier.role_eq_critFailure_iff hfailure]
  simp only [ThrownTerm.text, hdie, hmarked]

def asked {σ : Type} (source : Source σ) (term : Term) (s : σ) : List UInt64 :=
  ((term.throw source.logged).run (s, [])).2.2

theorem run_throw_congr (hcount : first.count = second.count) (hdie : first.die = second.die)
    {σ : Type} (source : Source σ) (s : σ) :
    let outcome := (second.throw source).run s
    (first.throw source).run s = (⟨first, outcome.1.faces⟩, outcome.2) := by
  have hsides : first.sides = second.sides := by
    rw [sides, sides, hcount, hdie]
  rw [throw_eq, throw_eq, hsides, hdie]
  rfl

/-- Whatever the source, two throws of the same dice differ in nothing that modifiers influence
if the numbered thresholds and successes form the same set of conditions and the numbered
failures do too. The source is asked for the same sides and left in the same state, and the faces,
the kind and the total agree. If the numbered crit modifiers form the same sets as well, the
thrown terms are printed alike. -/
theorem throw_of_same_conditions {first second : Term}
    (hcount : first.count = second.count) (hdie : first.die = second.die)
    (hsuccess : first.conditions Modifier.CountsSuccess =
      second.conditions Modifier.CountsSuccess)
    (hfailure : first.conditions Modifier.CountsFailure =
      second.conditions Modifier.CountsFailure)
    {σ : Type} (source : Source σ) (s : σ) :
    let one := (first.throw source).run s
    let other := (second.throw source).run s
    first.asked source s = second.asked source s ∧ one.2 = other.2 ∧
      one.1.faces = other.1.faces ∧ first.kind = second.kind ∧ one.1.total = other.1.total ∧
      (first.conditions Modifier.MarksSuccess = second.conditions Modifier.MarksSuccess →
        first.conditions Modifier.MarksFailure = second.conditions Modifier.MarksFailure →
        one.1.text = other.1.text) := by
  intro one other
  have hlogged := run_throw_congr hcount hdie source.logged (s, [])
  have hone : one = (⟨first, other.1.faces⟩, other.2) := run_throw_congr hcount hdie source s
  have hother : other = (⟨second, other.1.faces⟩, other.2) := run_throw_congr rfl rfl source s
  have hasked : first.asked source s = second.asked source s := by
    rw [asked, asked, hlogged]
  rw [hone, hother]
  refine ⟨hasked, rfl, rfl, kind_congr hsuccess hfailure, ?_, ?_⟩
  · exact total_congr hsuccess hfailure other.1.faces
  · intro hcritSuccess hcritFailure
    exact text_congr hdie hcritSuccess hcritFailure other.1.faces

/-- The second text repeats conditions, writes a threshold with its keyword, and adds modifiers
without a number or an effect. -/
theorem throw_of_same_conditions_reordered :
    let first : Term := ⟨3, .sided 6, [⟨none, ⟨.greater, some 4⟩⟩,
      ⟨some .failure, ⟨.equal, some 1⟩⟩, ⟨some .critSuccess, ⟨.greater, some 5⟩⟩]⟩
    let second : Term := ⟨3, .sided 6, [⟨some .keepHigh, ⟨.equal, some 2⟩⟩,
      ⟨some .critSuccess, ⟨.greater, some 5⟩⟩, ⟨some .failure, ⟨.equal, some 1⟩⟩,
      ⟨some .success, ⟨.greater, some 4⟩⟩, ⟨none, ⟨.greater, some 4⟩⟩,
      ⟨some .failure, ⟨.equal, some 1⟩⟩, ⟨some .success, ⟨.equal, none⟩⟩]⟩
    let source : Source UInt64 := fun _ thrown => (thrown + 4, thrown + 1)
    Term.parse {} "3d6>4f1cs>5".toList = .ok first ∧
      Term.parse {} "3d6kh2cs>5f1s>4>4f=1s".toList = .ok second ∧
      ((first.throw source).run 0).1.total = ((second.throw source).run 0).1.total ∧
      ((first.throw source).run 0).1.text = ((second.throw source).run 0).1.text := by
  intro first second source
  have hcount : first.count = second.count := rfl
  have hdie : first.die = second.die := rfl
  have hsuccess : first.conditions Modifier.CountsSuccess =
      second.conditions Modifier.CountsSuccess := by
    ext ⟨comparator, n⟩
    simp [conditions, first, second, Modifier.CountsSuccess]
  have hfailure : first.conditions Modifier.CountsFailure =
      second.conditions Modifier.CountsFailure := by
    ext ⟨comparator, n⟩
    simp [conditions, first, second, Modifier.CountsFailure]
  have hcritSuccess : first.conditions Modifier.MarksSuccess =
      second.conditions Modifier.MarksSuccess := by
    ext ⟨comparator, n⟩
    simp [conditions, first, second, Modifier.MarksSuccess]
  have hcritFailure : first.conditions Modifier.MarksFailure =
      second.conditions Modifier.MarksFailure := by
    ext ⟨comparator, n⟩
    simp [conditions, first, second, Modifier.MarksFailure]
  have hthrow := throw_of_same_conditions hcount hdie hsuccess hfailure source 0
  obtain ⟨-, -, -, -, htotal, htext⟩ := hthrow
  refine ⟨?_, ?_, htotal, htext hcritSuccess hcritFailure⟩
  · unfold first
    cbv
  · unfold second
    cbv

end Term

end DiceNotation
