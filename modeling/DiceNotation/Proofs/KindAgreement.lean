import DiceNotation.Proofs.ExpressionTree
import DiceNotation.Proofs.PieceReading
import DiceNotation.Proofs.Scoring
import Mathlib.Logic.Relation

/-!
# Agreement of kinds

Reading compares the kinds of neighbours only, member by member and part by part. Since nothing
that is read is empty, the kinds of all terms agree, and with them those of all sums and groups.
-/
namespace DiceNotation

def Member.OfKind (kind : Kind) : Member → Prop :=
  Member.Formed (fun term => term.kind = kind) (fun _ => True)

def Expression.OfKind (kind : Kind) : List Member → Prop :=
  Expression.Formed (fun term => term.kind = kind) (fun _ => True)

theorem Member.OfKind.kind_eq {kind : Kind} {member : Member} (h : member.OfKind kind) :
    member.kind = kind :=
  Term.leadingKind_of_forall (terms_ne_nil_of_formed.1 member h) (forall_terms_of_formed.1 member h)

theorem Expression.OfKind.kind_eq {kind : Kind} {members : List Member}
    (h : Expression.OfKind kind members) : Expression.kind members = kind :=
  Term.leadingKind_of_forall (terms_ne_nil_of_formed.2 members h)
    (forall_terms_of_formed.2 members h)

theorem forall_right_of_forall₂ {α β : Type} {P : β → Prop} {xs : List α} {ys : List β}
    (h : List.Forall₂ (fun _ y => P y) xs ys) : ∀ y ∈ ys, P y := by
  induction h with
  | nil => exact fun _ h => nomatch h
  | cons hy _ ih => exact List.forall_mem_cons.mpr ⟨hy, ih⟩

theorem ne_nil_of_forall₂ {α β : Type} {R : α → β → Prop} {xs : List α} {ys : List β}
    (h : List.Forall₂ R xs ys) (hne : xs ≠ []) : ys ≠ [] := by
  rintro rfl
  exact hne (List.forall₂_nil_right_iff.mp h)

theorem Expression.ofKind_of_parse {options : Options} {text : List Char}
    {members : List Member} (h : Expression.parse options text = .ok members) :
    Expression.OfKind (Expression.kind members) members := by
  refine Expression.parse_induct (P := fun _ member => member.OfKind member.kind)
    (Q := fun _ members => Expression.OfKind (Expression.kind members) members) ?_ ?_ ?_ h
  · intro text term _ _
    exact .term rfl
  · rintro body parts - hparts ⟨kind, hkind⟩
    have hne := ne_nil_of_forall₂ hparts (Braces.splitGroup_ne_nil body)
    have hall : (Member.group parts (Braces.splitGroup body).2).OfKind kind := by
      refine .group hne ?_ trivial
      intro part hp
      have hpart := forall_right_of_forall₂ hparts part hp
      rwa [hkind part hp] at hpart
    rw [hall.kind_eq]
    exact hall
  · rintro text members hmembers ⟨kind, hkind⟩
    have hne := ne_nil_of_forall₂ hmembers (Braces.splitFrom_ne_nil '+' 0 text)
    have hall : Expression.OfKind kind members := by
      refine .sum hne ?_
      intro member hm
      have hmember := forall_right_of_forall₂ hmembers member hm
      rwa [hkind member hm] at hmember
    rw [hall.kind_eq]
    exact hall

theorem Expression.OfKind.kind_eq_success_iff {members : List Member}
    (h : Expression.OfKind (Expression.kind members) members) :
    Expression.kind members = .success ↔
      ∃ term ∈ Expression.terms members, ∃ modifier ∈ term.modifiers, modifier.Scores := by
  have hkinds := forall_terms_of_formed.2 members h
  constructor
  · intro hsuccess
    obtain ⟨term, hterm⟩ := List.exists_mem_of_ne_nil _ (terms_ne_nil_of_formed.2 members h)
    exact ⟨term, hterm, term.kind_eq_success_iff.mp ((hkinds term hterm).trans hsuccess)⟩
  · rintro ⟨term, hterm, hscores⟩
    exact (hkinds term hterm).symm.trans (term.kind_eq_success_iff.mpr hscores)

inductive Node where
  | item (member : Member)
  | sum (members : List Member)

namespace Node

def terms : Node → List Term
  | .item member => member.terms
  | .sum members => Expression.terms members

def kind : Node → Kind
  | .item member => member.kind
  | .sum members => Expression.kind members

def children : Node → List Node
  | .item (.term _) => []
  | .item (.group parts _) => parts.map .sum
  | .sum members => members.map .item

def Within (node root : Node) : Prop :=
  Relation.ReflTransGen (fun outer inner => inner ∈ outer.children) root node

def OfKind (kind : Kind) : Node → Prop
  | .item member => member.OfKind kind
  | .sum members => Expression.OfKind kind members

theorem OfKind.kind_eq {kind : Kind} {node : Node} (h : node.OfKind kind) : node.kind = kind := by
  cases node with
  | item member =>
    have hmember : member.OfKind kind := h
    exact hmember.kind_eq
  | sum members =>
    have hmembers : Expression.OfKind kind members := h
    exact hmembers.kind_eq

theorem OfKind.kind_of_mem_terms {kind : Kind} {node : Node} (h : node.OfKind kind) :
    ∀ term ∈ node.terms, term.kind = kind := by
  cases node with
  | item member => exact forall_terms_of_formed.1 member h
  | sum members => exact forall_terms_of_formed.2 members h

theorem OfKind.of_mem_children {kind : Kind} {node child : Node} (h : node.OfKind kind)
    (hchild : child ∈ node.children) : child.OfKind kind := by
  rcases node with (_ | ⟨parts, options⟩) | members
  · cases hchild
  · obtain ⟨part, hp, rfl⟩ := List.mem_map.mp hchild
    obtain _ | ⟨-, hparts, -⟩ := h
    exact hparts part hp
  · obtain ⟨member, hm, rfl⟩ := List.mem_map.mp hchild
    obtain ⟨-, hmembers⟩ := h
    exact hmembers member hm

theorem OfKind.of_within {kind : Kind} {node root : Node} (h : root.OfKind kind)
    (hnode : node.Within root) : node.OfKind kind := by
  induction hnode with
  | refl => exact h
  | tail _ hchild ih => exact ih.of_mem_children hchild

end Node

end DiceNotation
