import DiceNotation.Expression.Throw
import DiceNotation.Proofs.ExpressionTree
import DiceNotation.Proofs.Splitting
import DiceNotation.Proofs.Totals

/-!
# Thrown expressions as trees

A thrown expression is the tree that was thrown with faces at its terms. Its total is that of its
terms from left to right, and so is its text where no sum and no group is empty.
-/
namespace DiceNotation

theorem ThrownExpression.induct {P : ThrownMember → Prop} {Q : List ThrownMember → Prop}
    (term : ∀ thrown, P (.term thrown))
    (group : ∀ parts options, (∀ part ∈ parts, Q part) → P (.group parts options))
    (sum : ∀ members, (∀ member ∈ members, P member) → Q members) :
    (∀ member, P member) ∧ ∀ members, Q members := by
  have hmember : ∀ member, P member :=
    @ThrownMember.rec P (fun parts => ∀ part ∈ parts, Q part) (fun members => ∀ m ∈ members, P m)
      term group (fun _ h => nomatch h)
      (fun part _ hpart hparts => List.forall_mem_cons.mpr ⟨sum part hpart, hparts⟩)
      (fun _ h => nomatch h)
      (fun _ _ hm hms => List.forall_mem_cons.mpr ⟨hm, hms⟩)
  exact ⟨hmember, fun members => sum members fun member _ => hmember member⟩

mutual

def ThrownMember.origin : ThrownMember → Member
  | .term thrown => .term thrown.term
  | .group parts options => .group (ThrownExpression.originOfParts parts) options

def ThrownExpression.origin : List ThrownMember → List Member
  | [] => []
  | member :: members => member.origin :: ThrownExpression.origin members

def ThrownExpression.originOfParts : List (List ThrownMember) → List (List Member)
  | [] => []
  | part :: parts => ThrownExpression.origin part :: ThrownExpression.originOfParts parts

end

namespace ThrownExpression

theorem origin_eq_map (members : List ThrownMember) :
    origin members = members.map ThrownMember.origin := by
  induction members with
  | nil => rfl
  | cons member members ih => rw [origin, ih, List.map_cons]

theorem originOfParts_eq_map (parts : List (List ThrownMember)) :
    originOfParts parts = parts.map origin := by
  induction parts with
  | nil => rfl
  | cons part parts ih => rw [originOfParts, ih, List.map_cons]

theorem terms_eq_flatMap (members : List ThrownMember) :
    terms members = members.flatMap ThrownMember.terms := by
  induction members with
  | nil => rfl
  | cons member members ih => rw [terms, ih, List.flatMap_cons]

theorem termsOfParts_eq_flatMap (parts : List (List ThrownMember)) :
    termsOfParts parts = parts.flatMap terms := by
  induction parts with
  | nil => rfl
  | cons part parts ih => rw [termsOfParts, ih, List.flatMap_cons]

theorem values_eq_map (members : List ThrownMember) :
    values members = members.map ThrownMember.value := by
  induction members with
  | nil => rfl
  | cons member members ih => rw [values, ih, List.map_cons]

theorem valuesOfParts_eq_map (parts : List (List ThrownMember)) :
    valuesOfParts parts = parts.map fun part => Total.add (values part) := by
  induction parts with
  | nil => rfl
  | cons part parts ih => rw [valuesOfParts, ih, List.map_cons]

theorem text_eq_join (members : List ThrownMember) :
    text members = Braces.join '+' (members.map ThrownMember.text) := by
  induction members with
  | nil => rfl
  | cons member members ih =>
    cases members with
    | nil => simp [text, Braces.join_singleton]
    | cons next members =>
      rw [text, ih]
      · simp only [List.map_cons, Braces.join_cons_cons]
      · exact fun h => nomatch h

theorem textOfParts_eq_join (parts : List (List ThrownMember)) :
    textOfParts parts = Braces.join '+' (parts.map text) := by
  induction parts with
  | nil => rfl
  | cons part parts ih =>
    cases parts with
    | nil => simp [textOfParts, Braces.join_singleton]
    | cons next parts =>
      rw [textOfParts, ih]
      · simp only [List.map_cons, Braces.join_cons_cons]
      · exact fun h => nomatch h

theorem map_term_terms :
    (∀ member : ThrownMember, member.terms.map ThrownTerm.term = member.origin.terms) ∧
    ∀ members : List ThrownMember,
      (terms members).map ThrownTerm.term = Expression.terms (origin members) := by
  apply ThrownExpression.induct
  · intro thrown
    rfl
  · intro parts options ih
    rw [ThrownMember.terms, ThrownMember.origin, Member.terms, termsOfParts_eq_flatMap,
      originOfParts_eq_map, Expression.termsOfParts_eq_flatMap, List.map_flatMap,
      List.flatMap_map]
    exact List.flatMap_congr ih
  · intro members ih
    rw [terms_eq_flatMap, origin_eq_map, Expression.terms_eq_flatMap, List.map_flatMap,
      List.flatMap_map]
    exact List.flatMap_congr ih

theorem value_eq_add_terms :
    (∀ member : ThrownMember,
      member.value = Total.add (member.terms.map fun thrown => thrown.total.value)) ∧
    ∀ members : List ThrownMember, Total.add (values members) =
      Total.add ((terms members).map fun thrown => thrown.total.value) := by
  apply ThrownExpression.induct
  · intro thrown
    rw [ThrownMember.value, ThrownMember.terms, List.map_singleton, Total.add_cons]
    exact (Int64.add_zero _).symm
  · intro parts options ih
    rw [ThrownMember.value, ThrownMember.terms, valuesOfParts_eq_map, termsOfParts_eq_flatMap,
      List.map_flatMap, Total.add_flatMap, List.map_congr_left ih]
  · intro members ih
    rw [values_eq_map, terms_eq_flatMap, List.map_flatMap, Total.add_flatMap,
      List.map_congr_left ih]

theorem total_eq (members : List ThrownMember) :
    total members = ⟨Term.leadingKind (Expression.terms (origin members)),
      Total.add ((terms members).map fun thrown => thrown.total.value)⟩ := by
  rw [total, ThrownTerm.leadingKind, map_term_terms.2, value_eq_add_terms.2]

theorem terms_ne_nil {T : Term → Prop} {O : List Char → Prop} :
    (∀ member : ThrownMember, member.origin.Formed T O → member.terms ≠ []) ∧
    ∀ members : List ThrownMember, Expression.Formed T O (origin members) →
      terms members ≠ [] := by
  constructor
  · intro member h hnil
    refine terms_ne_nil_of_formed.1 _ h ?_
    rw [← map_term_terms.1, hnil, List.map_nil]
  · intro members h hnil
    refine terms_ne_nil_of_formed.2 _ h ?_
    rw [← map_term_terms.2, hnil, List.map_nil]

theorem text_eq_join_terms {T : Term → Prop} {O : List Char → Prop} :
    (∀ member : ThrownMember, member.origin.Formed T O →
      member.text = Braces.join '+' (member.terms.map ThrownTerm.text)) ∧
    ∀ members : List ThrownMember, Expression.Formed T O (origin members) →
      text members = Braces.join '+' ((terms members).map ThrownTerm.text) := by
  apply ThrownExpression.induct
  · intro thrown _
    rw [ThrownMember.text, ThrownMember.terms, List.map_singleton, Braces.join_singleton]
  · intro parts options ih h
    have hparts : ∀ part ∈ parts, Expression.Formed T O (origin part) := by
      rw [ThrownMember.origin, originOfParts_eq_map] at h
      obtain _ | ⟨-, hparts, -⟩ := h
      exact List.forall_mem_map.mp hparts
    have hne : ∀ part ∈ parts, (terms part).map ThrownTerm.text ≠ [] := by
      intro part hp hnil
      exact terms_ne_nil.2 part (hparts part hp) (List.map_eq_nil_iff.mp hnil)
    rw [ThrownMember.text, ThrownMember.terms, textOfParts_eq_join, termsOfParts_eq_flatMap,
      List.map_flatMap, Braces.join_flatMap hne,
      List.map_congr_left fun part hp => ih part hp (hparts part hp)]
  · intro members ih h
    have hmembers : ∀ member ∈ members, member.origin.Formed T O := by
      rw [origin_eq_map] at h
      obtain ⟨-, hmembers⟩ := h
      exact List.forall_mem_map.mp hmembers
    have hne : ∀ member ∈ members, member.terms.map ThrownTerm.text ≠ [] := by
      intro member hm hnil
      exact terms_ne_nil.1 member (hmembers member hm) (List.map_eq_nil_iff.mp hnil)
    rw [text_eq_join, terms_eq_flatMap, List.map_flatMap, Braces.join_flatMap hne,
      List.map_congr_left fun member hm => ih member hm (hmembers member hm)]

end ThrownExpression

end DiceNotation
