import DiceNotation.Proofs.CanonicalTerm
import DiceNotation.Proofs.KindAgreement
import DiceNotation.Proofs.ThrowOrder

/-!
# Bounds on faces

Where a source answers every throw with a number from one to the sides of the die, a sided die shows
such a number and a fate die shows -1, 0 or 1. A thrown term has one face for each of its dice.
-/
namespace DiceNotation

theorem toInt_toInt64 {n : UInt64} (h : n.toNat < 2 ^ 63) : n.toInt64.toInt = n.toNat := by
  rw [toInt64_eq_ofInt, Int64.toInt_ofInt_of_le (by omega) (by omega)]

def Die.Shows (die : Die) (face : Int64) : Prop :=
  match die with
  | .sided n => 1 ≤ face.toInt ∧ face.toInt ≤ n.toNat
  | .fate => -1 ≤ face.toInt ∧ face.toInt ≤ 1

theorem Die.shows_face {die : Die} {answer : UInt64} (hpos : 1 ≤ answer)
    (hle : answer ≤ die.sides.toUInt64) : die.Shows (die.face answer) := by
  rw [UInt64.le_iff_toNat_le] at hpos hle
  rw [UInt32.toNat_toUInt64] at hle
  have hpos' : 1 ≤ answer.toNat := hpos
  cases die with
  | sided n =>
    have hle' : answer.toNat ≤ n.toNat := hle
    have hsides := n.toNat_lt
    rw [Shows, face_sided, Int64.toInt_ofInt_of_le (by omega) (by omega)]
    omega
  | fate =>
    have hle' : answer.toNat ≤ 3 := hle
    rw [Shows, face_fate, Int64.toInt_ofInt_of_le (by omega) (by omega)]
    omega

structure ThrownTerm.Possible (thrown : ThrownTerm) : Prop where
  length_faces : thrown.faces.length = thrown.term.count.toNat
  shows : ∀ face ∈ thrown.faces, thrown.term.die.Shows face

def WithinSides : List UInt64 → List UInt64 → Prop :=
  List.Forall₂ fun sides answer => 1 ≤ answer ∧ answer ≤ sides

theorem WithinSides.possible {term : Term} {answers : List UInt64}
    (h : WithinSides term.sides answers) :
    (ThrownTerm.mk term (answers.map term.die.face)).Possible := by
  have hshows : List.Forall₂ (fun _ answer => term.die.Shows (term.die.face answer))
      term.sides answers := by
    have hsides : ∀ n ∈ term.sides, n = term.die.sides.toUInt64 := fun n => List.eq_of_mem_replicate
    refine ((List.forall₂_and_left _ _).mpr ⟨hsides, h⟩).imp ?_
    rintro n answer ⟨rfl, hpos, hle⟩
    exact Die.shows_face hpos hle
  constructor
  · rw [List.length_map, ← h.length_eq, Term.sides, List.length_replicate]
  · rw [List.forall_mem_map]
    exact forall_right_of_forall₂ hshows

theorem WithinSides.possible_of_mem_deal {terms : List Term} {answers : List UInt64}
    (h : WithinSides (terms.flatMap Term.sides) answers) :
    ∀ thrown ∈ Term.deal terms answers, thrown.Possible := by
  induction terms generalizing answers with
  | nil => exact fun _ h => nomatch h
  | cons term terms ih =>
    have hlength : term.sides.length = term.count.toNat := List.length_replicate
    have htake := List.forall₂_take term.count.toNat h
    have hdrop := List.forall₂_drop term.count.toNat h
    rw [List.flatMap_cons, List.take_left' hlength] at htake
    rw [List.flatMap_cons, List.drop_left' hlength] at hdrop
    exact List.forall_mem_cons.mpr ⟨WithinSides.possible htake, ih hdrop⟩

/-! ### Sources that keep within the sides -/

section

variable {σ : Type} (source : Source σ)

/-- Asked for some sides in turn, the source answers each time with a number from one to the
sides. -/
def Source.AnswersWithin (sides : List UInt64) (s : σ) : Prop :=
  WithinSides sides ((sides.mapM source).run s).1

/-- Asked for a die with sides, the source answers with a number from one to the sides, whatever
its state. -/
def Source.InRange : Prop :=
  ∀ sides, 1 ≤ sides → ∀ s, 1 ≤ ((source sides).run s).1 ∧ ((source sides).run s).1 ≤ sides

variable {source}

theorem Source.InRange.answersWithin (h : source.InRange) {sides : List UInt64}
    (hsides : ∀ n ∈ sides, 1 ≤ n) (s : σ) : source.AnswersWithin sides s := by
  induction sides generalizing s with
  | nil => exact .nil
  | cons n sides ih =>
    obtain ⟨hn, hsides⟩ := List.forall_mem_cons.mp hsides
    rw [AnswersWithin, List.mapM_cons]
    exact .cons (h n hn s) (ih hsides _)

theorem Term.possible_of_throw {term : Term} {s : σ} (h : source.AnswersWithin term.sides s) :
    ((term.throw source).run s).1.Possible := by
  rw [Term.throw_eq]
  exact WithinSides.possible h

theorem Expression.possible_of_throw {members : List Member} {s : σ}
    (h : source.AnswersWithin (Expression.sides members) s) :
    ∀ thrown ∈ ThrownExpression.terms ((Expression.throw source members).run s).1,
      thrown.Possible := by
  rw [(Expression.run_throw source members s).1]
  exact WithinSides.possible_of_mem_deal h

end

theorem Term.one_le_sides {maxCount : UInt64} {term : Term} (h : term.Admissible maxCount) :
    ∀ n ∈ term.sides, 1 ≤ n := by
  intro n hn
  rw [List.eq_of_mem_replicate hn, UInt64.le_iff_toNat_le, UInt32.toNat_toUInt64]
  have hsides := h.has_sides
  cases hdie : term.die with
  | fate => exact Nat.le_of_ble_eq_true rfl
  | sided sides =>
    refine Nat.pos_of_ne_zero fun hzero => hsides ?_
    have hnone : sides = 0 := UInt32.toNat_inj.mp hzero
    rw [hdie, hnone]

theorem Expression.admissible_of_parse {options : Options} {text : List Char}
    {members : List Member} (h : Expression.parse options text = .ok members) :
    ∀ term ∈ Expression.terms members, term.Admissible options.maxCount := by
  refine Expression.parse_induct
    (P := fun _ member => ∀ term ∈ member.terms, term.Admissible options.maxCount)
    (Q := fun _ members => ∀ term ∈ Expression.terms members, term.Admissible options.maxCount)
    ?_ ?_ ?_ h
  · intro text term _ hterm other hother
    rw [List.mem_singleton.mp hother]
    exact Term.admissible_of_parse hterm
  · intro body parts _ hparts _ term hterm
    obtain ⟨part, hpart, hterm⟩ := Member.mem_terms_group.mp hterm
    exact forall_right_of_forall₂ hparts part hpart term hterm
  · intro text members hmembers _ term hterm
    obtain ⟨member, hmember, hterm⟩ := Expression.mem_terms.mp hterm
    exact forall_right_of_forall₂ hmembers member hmember term hterm

/-- A source in range answers within the sides of every expression that was read, since no die was
read that has no sides. -/
theorem Source.InRange.answersWithin_of_parse {σ : Type} {source : Source σ} (h : source.InRange)
    {options : Options} {text : List Char} {members : List Member}
    (hread : Expression.parse options text = .ok members) (s : σ) :
    source.AnswersWithin (Expression.sides members) s := by
  refine h.answersWithin ?_ s
  intro n hn
  obtain ⟨term, hterm, hn⟩ := List.mem_flatMap.mp hn
  exact Term.one_le_sides (Expression.admissible_of_parse hread term hterm) n hn

def Source.alternating : Source Bool := fun sides high => (if high then sides else 1, !high)

theorem Source.alternating_inRange : Source.alternating.InRange := by
  intro sides hsides high
  cases high with
  | false => exact ⟨UInt64.le_refl 1, hsides⟩
  | true => exact ⟨hsides, UInt64.le_refl sides⟩

end DiceNotation
