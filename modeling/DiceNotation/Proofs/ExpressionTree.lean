import DiceNotation.Expression

/-!
# Expressions as trees

What is computed of an expression is computed of the list of its members, and of a group of the
list of its parts. An induction on expressions has one case for a term, one for a group and one
for a sum.
-/
namespace DiceNotation

/-- Induction on the tree: over the parts of a group and over the members of a sum. -/
theorem Expression.induct {P : Member → Prop} {Q : List Member → Prop}
    (term : ∀ term, P (.term term))
    (group : ∀ parts options, (∀ part ∈ parts, Q part) → P (.group parts options))
    (sum : ∀ members, (∀ member ∈ members, P member) → Q members) :
    (∀ member, P member) ∧ ∀ members, Q members := by
  have hmember : ∀ member, P member :=
    @Member.rec P (fun parts => ∀ part ∈ parts, Q part) (fun members => ∀ m ∈ members, P m)
      term group (fun _ h => nomatch h)
      (fun part _ hpart hparts => List.forall_mem_cons.mpr ⟨sum part hpart, hparts⟩)
      (fun _ h => nomatch h)
      (fun _ _ hm hms => List.forall_mem_cons.mpr ⟨hm, hms⟩)
  exact ⟨hmember, fun members => sum members fun member _ => hmember member⟩

namespace Expression

theorem terms_eq_flatMap (members : List Member) :
    Expression.terms members = members.flatMap Member.terms := by
  induction members with
  | nil => rfl
  | cons member members ih => rw [Expression.terms, ih, List.flatMap_cons]

theorem termsOfParts_eq_flatMap (parts : List (List Member)) :
    Expression.termsOfParts parts = parts.flatMap Expression.terms := by
  induction parts with
  | nil => rfl
  | cons part parts ih => rw [Expression.termsOfParts, ih, List.flatMap_cons]

theorem terms_flatten (sums : List (List Member)) :
    Expression.terms sums.flatten = sums.flatMap Expression.terms := by
  induction sums with
  | nil => rfl
  | cons sum sums ih =>
    rw [List.flatten_cons, terms_eq_flatMap, List.flatMap_append, ← terms_eq_flatMap,
      ← terms_eq_flatMap, ih, List.flatMap_cons]

theorem depth_le_iff {members : List Member} {n : Nat} :
    Expression.depth members ≤ n ↔ ∀ member ∈ members, member.depth ≤ n := by
  induction members with
  | nil => simp [Expression.depth]
  | cons member members ih => rw [Expression.depth, Nat.max_le, ih, List.forall_mem_cons]

theorem depthOfParts_le_iff {parts : List (List Member)} {n : Nat} :
    Expression.depthOfParts parts ≤ n ↔ ∀ part ∈ parts, Expression.depth part ≤ n := by
  induction parts with
  | nil => simp [Expression.depthOfParts]
  | cons part parts ih => rw [Expression.depthOfParts, Nat.max_le, ih, List.forall_mem_cons]

end Expression

section

variable (T : Term → Prop) (O : List Char → Prop)

mutual

/-- A member without an empty sum or group, whose terms fulfil `T` and whose texts behind closing
braces fulfil `O`. -/
inductive Member.Formed : Member → Prop
  | term {term : Term} (h : T term) : Member.Formed (.term term)
  | group {parts : List (List Member)} {options : List Char} (hne : parts ≠ [])
      (hparts : ∀ part ∈ parts, Expression.Formed part) (hoptions : O options) :
      Member.Formed (.group parts options)

inductive Expression.Formed : List Member → Prop
  | sum {members : List Member} (hne : members ≠ [])
      (hmembers : ∀ member ∈ members, Member.Formed member) : Expression.Formed members

end

end

theorem Member.mem_terms_group {parts : List (List Member)} {options : List Char} {term : Term} :
    term ∈ (Member.group parts options).terms ↔ ∃ part ∈ parts, term ∈ Expression.terms part := by
  rw [Member.terms, Expression.termsOfParts_eq_flatMap, List.mem_flatMap]

theorem Expression.mem_terms {members : List Member} {term : Term} :
    term ∈ Expression.terms members ↔ ∃ member ∈ members, term ∈ member.terms := by
  rw [Expression.terms_eq_flatMap, List.mem_flatMap]

section

variable {T : Term → Prop} {O : List Char → Prop}

theorem terms_ne_nil_of_formed :
    (∀ member : Member, member.Formed T O → member.terms ≠ []) ∧
    ∀ members : List Member, Expression.Formed T O members → Expression.terms members ≠ [] := by
  apply Expression.induct
  · intro term _
    exact List.cons_ne_nil _ _
  · rintro parts options ih (_ | ⟨hne, hparts, -⟩)
    obtain ⟨part, parts, rfl⟩ := List.exists_cons_of_ne_nil hne
    have hmem : part ∈ part :: parts := List.mem_cons_self ..
    rw [Member.terms, Expression.termsOfParts]
    exact List.append_ne_nil_of_left_ne_nil (ih part hmem (hparts part hmem)) _
  · rintro members ih ⟨hne, hmembers⟩
    obtain ⟨member, members, rfl⟩ := List.exists_cons_of_ne_nil hne
    have hmem : member ∈ member :: members := List.mem_cons_self ..
    rw [Expression.terms]
    exact List.append_ne_nil_of_left_ne_nil (ih member hmem (hmembers member hmem)) _

theorem forall_terms_of_formed :
    (∀ member : Member, member.Formed T O → ∀ term ∈ member.terms, T term) ∧
    ∀ members : List Member, Expression.Formed T O members →
      ∀ term ∈ Expression.terms members, T term := by
  apply Expression.induct
  · rintro term (hterm | _) other hother
    rwa [List.mem_singleton.mp hother]
  · rintro parts options ih (_ | ⟨-, hparts, -⟩) term hterm
    obtain ⟨part, hp, hterm⟩ := Member.mem_terms_group.mp hterm
    exact ih part hp (hparts part hp) term hterm
  · rintro members ih ⟨-, hmembers⟩ term hterm
    obtain ⟨member, hm, hterm⟩ := Expression.mem_terms.mp hterm
    exact ih member hm (hmembers member hm) term hterm

end

theorem Term.leadingKind_of_forall {terms : List Term} {kind : Kind} (hne : terms ≠ [])
    (h : ∀ term ∈ terms, term.kind = kind) : Term.leadingKind terms = kind := by
  cases terms with
  | nil => exact absurd rfl hne
  | cons term terms => exact h term (List.mem_cons_self ..)

end DiceNotation
