import DiceNotation.Proofs.KindAgreement
import DiceNotation.Proofs.ThrowOrder

/-!
# What a throw comes to

Each place of a thrown expression has the kind of the whole, and its total is what its own terms
are worth, however deep they stand in it.
-/
namespace DiceNotation

inductive ThrownNode where
  | item (member : ThrownMember)
  | sum (members : List ThrownMember)

namespace ThrownNode

def terms : ThrownNode → List ThrownTerm
  | .item member => member.terms
  | .sum members => ThrownExpression.terms members

def total : ThrownNode → Total
  | .item member => member.total
  | .sum members => ThrownExpression.total members

def children : ThrownNode → List ThrownNode
  | .item (.term _) => []
  | .item (.group parts _) => parts.map .sum
  | .sum members => members.map .item

def Within (node root : ThrownNode) : Prop :=
  Relation.ReflTransGen (fun outer inner => inner ∈ outer.children) root node

def origin : ThrownNode → Node
  | .item member => .item member.origin
  | .sum members => .sum (ThrownExpression.origin members)

theorem origin_mem_children {node child : ThrownNode} (h : child ∈ node.children) :
    child.origin ∈ node.origin.children := by
  rcases node with (_ | ⟨parts, options⟩) | members
  · cases h
  · obtain ⟨part, hp, rfl⟩ := List.mem_map.mp h
    have hpart := List.mem_map_of_mem (f := ThrownExpression.origin) hp
    rw [← ThrownExpression.originOfParts_eq_map] at hpart
    exact List.mem_map_of_mem hpart
  · obtain ⟨member, hm, rfl⟩ := List.mem_map.mp h
    have hmember := List.mem_map_of_mem (f := ThrownMember.origin) hm
    rw [← ThrownExpression.origin_eq_map] at hmember
    exact List.mem_map_of_mem hmember

theorem Within.origin {node root : ThrownNode} (h : node.Within root) :
    node.origin.Within root.origin := by
  induction h with
  | refl => exact .refl
  | tail _ hchild ih => exact ih.tail (origin_mem_children hchild)

theorem map_term_terms (node : ThrownNode) :
    node.terms.map ThrownTerm.term = node.origin.terms := by
  cases node with
  | item member => exact ThrownExpression.map_term_terms.1 member
  | sum members => exact ThrownExpression.map_term_terms.2 members

theorem total_eq_add (node : ThrownNode) :
    node.total = ⟨node.origin.kind,
      Total.add (node.terms.map fun thrown => thrown.total.value)⟩ := by
  have hkind : node.origin.kind = ThrownTerm.leadingKind node.terms := by
    rw [ThrownTerm.leadingKind, map_term_terms]
    cases node <;> rfl
  rw [hkind]
  cases node with
  | item member => exact congrArg (Total.mk _) (ThrownExpression.value_eq_add_terms.1 member)
  | sum members => exact congrArg (Total.mk _) (ThrownExpression.value_eq_add_terms.2 members)

theorem total_eq_worth {kind : Kind} {node : ThrownNode} (h : node.origin.OfKind kind) :
    node.total = ⟨kind, Int64.ofInt (node.terms.map fun thrown => thrown.worth kind).sum⟩ := by
  have hterms : ∀ thrown ∈ node.terms, thrown.term.kind = kind := by
    intro thrown hthrown
    apply h.kind_of_mem_terms
    rw [← map_term_terms]
    exact List.mem_map_of_mem hthrown
  have hvalues : ∀ thrown ∈ node.terms,
      thrown.total.value = Int64.ofInt (thrown.worth kind) := by
    intro thrown hthrown
    rw [thrown.total_eq, hterms thrown hthrown]
  rw [total_eq_add, h.kind_eq, List.map_congr_left hvalues, Total.add_map_ofInt]

end ThrownNode

/-- What throwing an expression that was read does, on any source. The expression is of one kind
at each place, which is a success count if a modifier in it scores. The source is asked for the
sides of the terms in order, and its answers are dealt to the terms and are their faces, less two
for fate dice. The total at each place is what the terms there are worth. -/
theorem Expression.throw_of_parse {options : Options} {text : List Char} {members : List Member}
    (h : Expression.parse options text = .ok members) :
    let kind := Expression.kind members
    (∀ node : Node, node.Within (.sum members) → node.kind = kind) ∧
    (kind = .success ↔
      ∃ term ∈ Expression.terms members, ∃ modifier ∈ term.modifiers, modifier.Scores) ∧
    ∀ {σ : Type} (source : Source σ) (s : σ),
      let answers := ((Expression.sides members).mapM source).run s
      let outcome := (Expression.throw source members).run s
      Expression.asked source members s = Expression.sides members ∧
      outcome.2 = answers.2 ∧
      ThrownExpression.origin outcome.1 = members ∧
      ThrownExpression.terms outcome.1 = Term.deal (Expression.terms members) answers.1 ∧
      Term.Dealt (Expression.asked source members s) answers.1
        (ThrownExpression.terms outcome.1) ∧
      ∀ node : ThrownNode, node.Within (.sum outcome.1) →
        node.total = ⟨kind, Int64.ofInt (node.terms.map fun thrown => thrown.worth kind).sum⟩ := by
  have hkind := Expression.ofKind_of_parse h
  intro kind
  refine ⟨?_, hkind.kind_eq_success_iff, ?_⟩
  · intro node hnode
    have hroot : (Node.sum members).OfKind kind := hkind
    exact (hroot.of_within hnode).kind_eq
  · intro σ source s answers outcome
    obtain ⟨hterms, hleft⟩ := Expression.run_throw source members s
    have horigin := (Expression.origin_throw source).2 members s
    have hasked := Expression.asked_eq_sides source members s
    have hdealt : Term.Dealt (Expression.asked source members s) answers.1
        (ThrownExpression.terms outcome.1) := by
      rw [hasked, hterms]
      exact Term.dealt_deal (Source.length_answers source (Expression.sides members) s)
    refine ⟨hasked, hleft, horigin, hterms, hdealt, ?_⟩
    intro node hnode
    have hroot : (ThrownNode.sum outcome.1).origin.OfKind kind := by
      rw [ThrownNode.origin, horigin]
      exact hkind
    exact ThrownNode.total_eq_worth (hroot.of_within hnode.origin)

/-- A group beside a term. The source answers with how many throws came before, plus one, and the
fate die takes two off the third answer. -/
theorem Expression.throw_of_parse_counting :
    let members : List Member :=
      [.group [[.term ⟨2, .sided 6, [⟨none, ⟨.greater, some 4⟩⟩,
          ⟨some .failure, ⟨.equal, some 1⟩⟩]⟩], [.term ⟨1, .fate, [⟨none, ⟨.less, some 2⟩⟩]⟩]]
        ['k', 'h'],
        .term ⟨3, .sided 4, [⟨some .success, ⟨.greater, some 4⟩⟩]⟩]
    let source : Source UInt64 := fun _ thrown => (thrown + 1, thrown + 1)
    let outcome := (Expression.throw source members).run 0
    let answers := ((Expression.asked source members 0).mapM source).run 0
    Expression.parse { groups := true } "\x7b2d6>4f=1,1dF<2\x7dkh+3d4s>4".toList = .ok members ∧
      Expression.asked source members 0 = [6, 6, 3, 4, 4, 4] ∧
      answers.1 = [1, 2, 3, 4, 5, 6] ∧
      Term.Dealt [6, 6, 3, 4, 4, 4] [1, 2, 3, 4, 5, 6] (ThrownExpression.terms outcome.1) ∧
      (ThrownExpression.terms outcome.1).map ThrownTerm.faces = [[1, 2], [1], [4, 5, 6]] ∧
      ThrownExpression.total outcome.1 = ⟨.success, 2⟩ := by
  intro members source outcome answers
  have h : Expression.parse { groups := true } "\x7b2d6>4f=1,1dF<2\x7dkh+3d4s>4".toList =
      .ok members := by
    unfold members
    cbv
  obtain ⟨hasked, -, -, hterms, hdealt, htotal⟩ := (Expression.throw_of_parse h).2.2 source 0
  have hsides : Expression.sides members = [6, 6, 3, 4, 4, 4] := by
    unfold members
    cbv
  rw [hsides] at hasked hterms hdealt
  have hanswers : (([6, 6, 3, 4, 4, 4].mapM source).run 0).1 = [1, 2, 3, 4, 5, 6] := by
    unfold source
    cbv
  rw [hasked, hanswers] at hdealt
  refine ⟨h, hasked, ?_, hdealt, ?_, (htotal (.sum outcome.1) .refl).trans ?_⟩
  · unfold answers
    rw [hasked, hanswers]
  · rw [hterms, hanswers]
    unfold members
    cbv
  · unfold outcome members source
    cbv

end DiceNotation
