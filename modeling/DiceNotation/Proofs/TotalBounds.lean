import DiceNotation.Proofs.FaceBounds
import DiceNotation.Proofs.ThrowOutcome
import Mathlib

/-!
# Bounds on totals

What is added up for a term, a sum or a group never comes to more, in size, than the faces or
scores of the terms there. If these fit in signed 64 bits together, no addition wraps, in whatever
order and nesting, and a total is the integer it stands for.
-/
namespace DiceNotation

namespace Total

def magnitude (values : List Int64) : Nat := (values.map fun value => value.toInt.natAbs).sum

/-- However far the values are added up, the sum fits in signed 64 bits. -/
def NeverWraps (values : List Int64) : Prop :=
  ∀ front, front <+: values →
    -2 ^ 63 ≤ (front.map Int64.toInt).sum ∧ (front.map Int64.toInt).sum < 2 ^ 63

theorem natAbs_sum_le (values : List Int64) :
    (values.map Int64.toInt).sum.natAbs ≤ magnitude values := by
  have h := List.le_sum_of_subadditive Int.natAbs le_rfl Int.natAbs_add_le
    (values.map Int64.toInt)
  rwa [List.map_map] at h

theorem neverWraps_of_magnitude {values : List Int64} (h : magnitude values ≤ Decimal.maxInt64) :
    NeverWraps values := by
  rintro front ⟨back, rfl⟩
  have hfront : magnitude front ≤ magnitude (front ++ back) := by
    rw [magnitude, magnitude, List.map_append, List.sum_append]
    exact Nat.le_add_right _ _
  have hsum := natAbs_sum_le front
  have hmax : Decimal.maxInt64 = 2 ^ 63 - 1 := rfl
  omega

theorem natAbs_toInt_ofInt_le (n : Int) : (Int64.ofInt n).toInt.natAbs ≤ n.natAbs := by
  by_cases hfits : -2 ^ 63 ≤ n ∧ n < 2 ^ 63
  · rw [Int64.toInt_ofInt_of_le hfits.1 hfits.2]
  · have hlow := Int64.le_toInt (Int64.ofInt n)
    have hhigh := Int64.toInt_lt (Int64.ofInt n)
    omega

theorem natAbs_toInt_add_le (values : List Int64) :
    (add values).toInt.natAbs ≤ magnitude values := by
  have hadd : add values = Int64.ofInt (values.map Int64.toInt).sum := by
    rw [← add_map_ofInt, List.map_congr_left fun value _ => Int64.ofInt_toInt value, List.map_id']
  rw [hadd]
  exact (natAbs_toInt_ofInt_le _).trans (natAbs_sum_le values)

theorem magnitude_map_le {α β : Type} {valueOf : α → Int64} {partsOf : α → List β} {weigh : β → Nat}
    {items : List α}
    (h : ∀ item ∈ items, (valueOf item).toInt.natAbs ≤ ((partsOf item).map weigh).sum) :
    magnitude (items.map valueOf) ≤ ((items.flatMap partsOf).map weigh).sum := by
  induction items with
  | nil => exact le_rfl
  | cons item items ih =>
    obtain ⟨hitem, hitems⟩ := List.forall_mem_cons.mp h
    have hrest := ih hitems
    simp only [magnitude, List.map_cons, List.sum_cons] at hrest ⊢
    rw [List.flatMap_cons, List.map_append, List.sum_append]
    omega

end Total

/-- What is added up for a term, in the order of the throws: the scores of the faces if the term
counts successes, otherwise the faces. -/
def ThrownTerm.addends (thrown : ThrownTerm) : List Int64 :=
  match thrown.term.tally? with
  | some tally => thrown.faces.map tally.score
  | none => thrown.faces

namespace ThrownNode

def addends : ThrownNode → List Int64
  | .item (.term thrown) => thrown.addends
  | .item (.group parts _) => ThrownExpression.valuesOfParts parts
  | .sum members => ThrownExpression.values members

theorem value_total (node : ThrownNode) : node.total.value = Total.add node.addends := by
  rcases node with (thrown | ⟨parts, options⟩) | members
  · change thrown.total.value = Total.add thrown.addends
    unfold ThrownTerm.total ThrownTerm.addends
    cases thrown.term.tally? <;> rfl
  · rfl
  · rfl

theorem magnitude_addends_le (node : ThrownNode) :
    Total.magnitude node.addends ≤
      (node.terms.map fun thrown => Total.magnitude thrown.addends).sum := by
  have hvalue (node : ThrownNode) :
      node.total.value.toInt.natAbs ≤ Total.magnitude node.addends := by
    rw [value_total]
    exact Total.natAbs_toInt_add_le _
  have hall := ThrownExpression.induct
    (P := fun member => Total.magnitude (addends (.item member)) ≤
      (member.terms.map fun thrown => Total.magnitude thrown.addends).sum)
    (Q := fun members => Total.magnitude (addends (.sum members)) ≤
      ((ThrownExpression.terms members).map fun thrown => Total.magnitude thrown.addends).sum)
    ?_ ?_ ?_
  · cases node with
    | item member => exact hall.1 member
    | sum members => exact hall.2 members
  · intro thrown
    rw [ThrownMember.terms, List.map_singleton, List.sum_singleton]
    exact le_rfl
  · intro parts options ih
    rw [addends, ThrownExpression.valuesOfParts_eq_map, ThrownMember.terms,
      ThrownExpression.termsOfParts_eq_flatMap]
    exact Total.magnitude_map_le fun part hpart => (hvalue (.sum part)).trans (ih part hpart)
  · intro members ih
    rw [addends, ThrownExpression.values_eq_map, ThrownExpression.terms_eq_flatMap]
    exact Total.magnitude_map_le fun member hmember =>
      (hvalue (.item member)).trans (ih member hmember)

theorem terms_sublist_of_mem_children {node child : ThrownNode} (h : child ∈ node.children) :
    child.terms.Sublist node.terms := by
  rcases node with (_ | ⟨parts, options⟩) | members
  · cases h
  · obtain ⟨part, hpart, rfl⟩ := List.mem_map.mp h
    rw [terms, terms, ThrownMember.terms, ThrownExpression.termsOfParts_eq_flatMap]
    exact List.sublist_flatten_of_mem (List.mem_map_of_mem hpart)
  · obtain ⟨member, hmember, rfl⟩ := List.mem_map.mp h
    rw [terms, terms, ThrownExpression.terms_eq_flatMap]
    exact List.sublist_flatten_of_mem (List.mem_map_of_mem hmember)

theorem Within.terms_sublist {node root : ThrownNode} (h : node.Within root) :
    node.terms.Sublist root.terms := by
  induction h with
  | refl => exact .refl _
  | tail _ hchild ih => exact (terms_sublist_of_mem_children hchild).trans ih

theorem Within.neverWraps {node root : ThrownNode} (h : node.Within root)
    (hroot : (root.terms.map fun thrown => Total.magnitude thrown.addends).sum ≤
      Decimal.maxInt64) : Total.NeverWraps node.addends := by
  have hterms := (h.terms_sublist.map fun thrown => Total.magnitude thrown.addends).sum_le_sum
    fun _ _ => Nat.zero_le _
  exact Total.neverWraps_of_magnitude
    ((node.magnitude_addends_le.trans hterms).trans hroot)

end ThrownNode

/-- No addition for the expression, its groups and its terms leaves the signed 64-bit range. -/
def ThrownExpression.NeverWraps (thrown : ThrownExpression) : Prop :=
  ∀ node : ThrownNode, node.Within (.sum thrown) →
    node.total.value = Total.add node.addends ∧ Total.NeverWraps node.addends

def Term.least (term : Term) : Int :=
  match term.die with
  | .sided _ => term.count.toNat
  | .fate => -term.count.toNat

def Term.most (term : Term) : Nat :=
  match term.die with
  | .sided n => term.count.toNat * n.toNat
  | .fate => term.count.toNat

theorem Tally.natAbs_score_le (tally : Tally) (face : Int64) :
    (tally.score face).toInt.natAbs ≤ 1 := by
  unfold Tally.score
  split <;> split <;> decide

namespace ThrownTerm.Possible

variable {thrown : ThrownTerm}

theorem magnitude_map_le (h : thrown.Possible) {valueOf : Int64 → Int64} {bound : Nat}
    (hfaces : ∀ face ∈ thrown.faces, (valueOf face).toInt.natAbs ≤ bound) :
    Total.magnitude (thrown.faces.map valueOf) ≤ thrown.term.count.toNat * bound := by
  have hsum := List.sum_le_card_nsmul (thrown.faces.map fun face => (valueOf face).toInt.natAbs)
    bound (List.forall_mem_map.mpr hfaces)
  rw [List.length_map, h.length_faces, smul_eq_mul] at hsum
  rw [Total.magnitude, List.map_map]
  exact hsum

theorem magnitude_faces_le (h : thrown.Possible) :
    Total.magnitude thrown.faces ≤ thrown.term.most := by
  have hshows := h.shows
  rw [← thrown.faces.map_id', Term.most]
  cases hdie : thrown.term.die with
  | sided n =>
    refine h.magnitude_map_le fun face hface => ?_
    have hface := hshows face hface
    simp only [hdie, Die.Shows] at hface
    omega
  | fate =>
    rw [← Nat.mul_one thrown.term.count.toNat]
    refine h.magnitude_map_le fun face hface => ?_
    have hface := hshows face hface
    simp only [hdie, Die.Shows] at hface
    omega

theorem magnitude_addends_of_sum (h : thrown.Possible) (hkind : thrown.term.kind = .sum) :
    Total.magnitude thrown.addends ≤ thrown.term.most := by
  rw [Term.kind] at hkind
  unfold ThrownTerm.addends
  cases htally : thrown.term.tally? with
  | none => exact h.magnitude_faces_le
  | some tally =>
    rw [htally] at hkind
    cases hkind

theorem magnitude_addends_of_success (h : thrown.Possible) (hkind : thrown.term.kind = .success) :
    Total.magnitude thrown.addends ≤ thrown.term.count.toNat := by
  rw [Term.kind] at hkind
  unfold ThrownTerm.addends
  cases htally : thrown.term.tally? with
  | none =>
    rw [htally] at hkind
    cases hkind
  | some tally =>
    rw [← Nat.mul_one thrown.term.count.toNat]
    exact h.magnitude_map_le fun face _ => tally.natAbs_score_le face

theorem worth_sum_bounds (h : thrown.Possible) :
    thrown.term.least ≤ thrown.worth .sum ∧ thrown.worth .sum ≤ thrown.term.most := by
  have hbounds {low high : Int}
      (hfaces : ∀ face ∈ thrown.faces, low ≤ face.toInt ∧ face.toInt ≤ high) :
      thrown.term.count.toNat * low ≤ thrown.worth .sum ∧
        thrown.worth .sum ≤ thrown.term.count.toNat * high := by
    have hlow := List.card_nsmul_le_sum (thrown.faces.map Int64.toInt) low
      (List.forall_mem_map.mpr fun face hface => (hfaces face hface).1)
    have hhigh := List.sum_le_card_nsmul (thrown.faces.map Int64.toInt) high
      (List.forall_mem_map.mpr fun face hface => (hfaces face hface).2)
    rw [List.length_map, h.length_faces, nsmul_eq_mul] at hlow hhigh
    exact ⟨hlow, hhigh⟩
  have hshows := h.shows
  rw [Term.least, Term.most]
  cases hdie : thrown.term.die with
  | sided n =>
    simp only [hdie, Die.Shows] at hshows
    have hsum := hbounds hshows
    rw [Int.mul_one] at hsum
    push_cast
    exact hsum
  | fate =>
    simp only [hdie, Die.Shows] at hshows
    have hsum := hbounds hshows
    rw [Int.mul_one, Int.mul_neg_one] at hsum
    exact hsum

theorem worth_success_bounds (h : thrown.Possible) :
    -(thrown.term.count.toNat : Int) ≤ thrown.worth .success ∧
      thrown.worth .success ≤ thrown.term.count.toNat := by
  have hsucceed := thrown.faces.countP_le_length (p := thrown.term.succeeds)
  have hfail := thrown.faces.countP_le_length (p := thrown.term.fails)
  have hlength := h.length_faces
  rw [ThrownTerm.worth]
  omega

end ThrownTerm.Possible

/-- What is added up over the terms of a thrown tree is added up over the terms that were thrown. -/
theorem ThrownExpression.sum_map_terms {α : Type} [AddMonoid α] (valueOf : Term → α)
    (thrown : List ThrownMember) :
    ((terms thrown).map fun thrown => valueOf thrown.term).sum =
      ((Expression.terms (origin thrown)).map valueOf).sum := by
  rw [← map_term_terms.2, List.map_map]
  rfl

theorem ThrownExpression.sum_map_faces (thrown : List ThrownTerm) :
    ((thrown.flatMap ThrownTerm.faces).map Int64.toInt).sum =
      (thrown.map fun each => each.worth .sum).sum := by
  induction thrown with
  | nil => rfl
  | cons each thrown ih =>
    rw [List.flatMap_cons, List.map_append, List.sum_append, ih, List.map_cons, List.sum_cons]
    rfl

theorem natCast_sum_map {α : Type} (valueOf : α → Nat) (items : List α) :
    ((items.map valueOf).sum : Int) = (items.map fun item => (valueOf item : Int)).sum := by
  rw [Nat.cast_list_sum, List.map_map]
  rfl

theorem neg_natCast_sum_map {α : Type} (valueOf : α → Nat) (items : List α) :
    -((items.map valueOf).sum : Int) = (items.map fun item => -(valueOf item : Int)).sum := by
  rw [natCast_sum_map, List.sum_neg, List.map_map]
  rfl

theorem Term.neg_most_le_least (term : Term) : -(term.most : Int) ≤ term.least := by
  rw [most, least]
  cases term.die with
  | sided n =>
    have hmost : (0 : Int) ≤ (term.count.toNat * n.toNat : Nat) := Int.natCast_nonneg _
    have hcount : (0 : Int) ≤ term.count.toNat := Int.natCast_nonneg _
    exact (neg_nonpos.mpr hmost).trans hcount
  | fate => exact le_rfl

/-- Where each term weighs at least what is added up for it, and all terms together weigh no more
than the largest number, no addition wraps and the total is what the terms are worth. -/
theorem Expression.total_of_weight {members : List Member} {kind : Kind}
    (hof : Expression.OfKind kind members) {σ : Type} {source : Source σ} {s : σ}
    {weigh : Term → Nat} {low : Term → Int} (hlow : ∀ term, -(weigh term : Int) ≤ low term)
    (hterms : ∀ thrown ∈ ThrownExpression.terms ((Expression.throw source members).run s).1,
      Total.magnitude thrown.addends ≤ weigh thrown.term ∧
        low thrown.term ≤ thrown.worth kind ∧ thrown.worth kind ≤ weigh thrown.term)
    (hweight : ((Expression.terms members).map weigh).sum ≤ Decimal.maxInt64) :
    let outcome := ((Expression.throw source members).run s).1
    let total := ThrownExpression.total outcome
    ThrownExpression.NeverWraps outcome ∧ total.kind = kind ∧
      total.value.toInt =
        ((ThrownExpression.terms outcome).map fun thrown => thrown.worth kind).sum ∧
      ((Expression.terms members).map low).sum ≤ total.value.toInt ∧
      total.value.toInt ≤ ((Expression.terms members).map weigh).sum := by
  intro outcome total
  have horigin : ThrownExpression.origin outcome = members :=
    (Expression.origin_throw source).2 members s
  have htotal : total = ⟨kind, Int64.ofInt
      ((ThrownExpression.terms outcome).map fun thrown => thrown.worth kind).sum⟩ := by
    have hroot : (ThrownNode.sum outcome).origin.OfKind kind := by
      rw [ThrownNode.origin, horigin]
      exact hof
    exact ThrownNode.total_eq_worth hroot
  -- The bounds on each term add up to bounds on what is added up and on what the terms are worth.
  have hmagnitude := List.sum_le_sum fun thrown hthrown => (hterms thrown hthrown).1
  have hleast := List.sum_le_sum fun thrown hthrown => (hterms thrown hthrown).2.1
  have hmost := List.sum_le_sum fun thrown hthrown => (hterms thrown hthrown).2.2
  have hsize := List.sum_le_sum fun term (_ : term ∈ Expression.terms members) => hlow term
  rw [ThrownExpression.sum_map_terms weigh, horigin] at hmagnitude
  rw [ThrownExpression.sum_map_terms low, horigin] at hleast
  rw [ThrownExpression.sum_map_terms fun term => (weigh term : Int), horigin,
    ← natCast_sum_map] at hmost
  rw [← neg_natCast_sum_map] at hsize
  have hmax : Decimal.maxInt64 = 2 ^ 63 - 1 := rfl
  have hvalue : total.value.toInt =
      ((ThrownExpression.terms outcome).map fun thrown => thrown.worth kind).sum := by
    rw [htotal]
    exact Int64.toInt_ofInt_of_le (le_trans (by omega) hleast) (hmost.trans_lt (by omega))
  rw [hvalue]
  refine ⟨?_, congrArg Total.kind htotal, rfl, hleast, hmost⟩
  intro node hnode
  exact ⟨node.value_total, hnode.neverWraps (hmagnitude.trans hweight)⟩

/-- Totals stay in range. Where a source answers within the sides, an expression that was read and
counts successes over no more dice than the largest number comes to an exact number of successes
less failures, at most one for each die either way. An expression that adds faces up, whose dice at
their highest come to no more than the largest number, comes to the exact sum of its faces, between
its dice at their lowest and at their highest. No addition on the way wraps, at any place. -/
theorem Expression.total_in_range {options : Options} {text : List Char} {members : List Member}
    (h : Expression.parse options text = .ok members) {σ : Type} {source : Source σ} {s : σ}
    (hsource : source.AnswersWithin (Expression.sides members) s) :
    let terms := Expression.terms members
    let outcome := ((Expression.throw source members).run s).1
    let thrown := ThrownExpression.terms outcome
    let total := ThrownExpression.total outcome
    let dice := (terms.map fun term => term.count.toNat).sum
    let lowest := (terms.map Term.least).sum
    let highest := (terms.map Term.most).sum
    (Expression.kind members = .success → dice ≤ Decimal.maxInt64 →
      ThrownExpression.NeverWraps outcome ∧ total.kind = .success ∧
        total.value.toInt = (thrown.map fun each => each.worth .success).sum ∧
        -(dice : Int) ≤ total.value.toInt ∧ total.value.toInt ≤ dice) ∧
    (Expression.kind members = .sum → highest ≤ Decimal.maxInt64 →
      ThrownExpression.NeverWraps outcome ∧ total.kind = .sum ∧
        total.value.toInt = ((thrown.flatMap ThrownTerm.faces).map Int64.toInt).sum ∧
        lowest ≤ total.value.toInt ∧ total.value.toInt ≤ highest) := by
  intro terms outcome thrown total dice lowest highest
  have hof := Expression.ofKind_of_parse h
  have hpossible := Expression.possible_of_throw hsource
  have horigin : ThrownExpression.origin outcome = members :=
    (Expression.origin_throw source).2 members s
  have hkinds : ∀ each ∈ thrown, each.term.kind = Expression.kind members := by
    intro each heach
    refine forall_terms_of_formed.2 members hof _ ?_
    rw [← horigin, ← ThrownExpression.map_term_terms.2]
    exact List.mem_map_of_mem heach
  constructor
  · intro hkind hdice
    rw [hkind] at hof hkinds
    have hlow : ∀ term : Term, -(term.count.toNat : Int) ≤ -(term.count.toNat : Int) :=
      fun term => le_rfl
    have htotal := Expression.total_of_weight hof hlow (fun each heach =>
      ⟨(hpossible each heach).magnitude_addends_of_success (hkinds each heach),
        (hpossible each heach).worth_success_bounds⟩) hdice
    rwa [← neg_natCast_sum_map] at htotal
  · intro hkind hhighest
    rw [hkind] at hof hkinds
    rw [ThrownExpression.sum_map_faces]
    exact Expression.total_of_weight hof Term.neg_most_le_least (fun each heach =>
      ⟨(hpossible each heach).magnitude_addends_of_sum (hkinds each heach),
        (hpossible each heach).worth_sum_bounds⟩) hhighest

/-- A sum with fate dice in a group, and a success count, on a source that answers with the sides
and with one by turns. -/
theorem Expression.total_in_range_alternating :
    let sum : List Member := [.group [[.term ⟨2, .sided 6, []⟩], [.term ⟨3, .fate, []⟩]] ['k', 'h'],
      .term ⟨1, .sided 20, []⟩]
    let count : List Member := [.term ⟨3, .sided 6, [⟨none, ⟨.greater, some 4⟩⟩]⟩,
      .term ⟨2, .fate, [⟨some .failure, ⟨.greater, some 0⟩⟩]⟩]
    let thrown := fun members => ((Expression.throw Source.alternating members).run true).1
    let sumTotal := ThrownExpression.total (thrown sum)
    let countTotal := ThrownExpression.total (thrown count)
    Expression.parse { groups := true } "\x7b2d6,3dF\x7dkh+1d20".toList = .ok sum ∧
      Source.alternating.AnswersWithin (Expression.sides sum) true ∧
      Expression.parse {} "3d6>4+2dFf>0".toList = .ok count ∧
      Source.alternating.AnswersWithin (Expression.sides count) true ∧
      (0 ≤ sumTotal.value.toInt ∧ sumTotal.value.toInt ≤ 35) ∧
      (-5 ≤ countTotal.value.toInt ∧ countTotal.value.toInt ≤ 5) := by
  intro sum count thrown sumTotal countTotal
  have hsum : Expression.parse { groups := true } "\x7b2d6,3dF\x7dkh+1d20".toList = .ok sum := by
    unfold sum
    cbv
  have hcount : Expression.parse {} "3d6>4+2dFf>0".toList = .ok count := by
    unfold count
    cbv
  have hsumSource := Source.alternating_inRange.answersWithin_of_parse hsum true
  have hcountSource := Source.alternating_inRange.answersWithin_of_parse hcount true
  have hlowest : ((Expression.terms sum).map Term.least).sum = 0 := rfl
  have hhighest : ((Expression.terms sum).map Term.most).sum = 35 := rfl
  have hdice : ((Expression.terms count).map fun term => term.count.toNat).sum = 5 := rfl
  have hmax : Decimal.maxInt64 = 2 ^ 63 - 1 := rfl
  refine ⟨hsum, hsumSource, hcount, hcountSource, ?_, ?_⟩
  · have hrange := (Expression.total_in_range hsum hsumSource).2 rfl
    rw [hlowest, hhighest] at hrange
    exact (hrange (by omega)).2.2.2
  · have hrange := (Expression.total_in_range hcount hcountSource).1 rfl
    rw [hdice] at hrange
    exact (hrange (by omega)).2.2.2

end DiceNotation
