import DiceNotation.Proofs.ThrowOrder

/-!
# Observing a throw

All that can be seen of a throw is settled by the terms of the expression from left to right. How
they are gathered in sums and groups does not show.
-/
namespace DiceNotation

/-- What can be seen of a throw: the sides the source was asked for, the state it is left in, the
total and the text. -/
structure Observation (σ : Type) where
  asked : List UInt64
  left : σ
  total : Total
  text : List Char

section

variable {σ : Type} (source : Source σ)

def Expression.observe (members : List Member) (s : σ) : Observation σ :=
  let outcome := (Expression.throw source members).run s
  { asked := Expression.asked source members s
    left := outcome.2
    total := ThrownExpression.total outcome.1
    text := ThrownExpression.text outcome.1 }

def Observation.ofTerms (terms : List Term) (s : σ) : Observation σ :=
  let answers := ((terms.flatMap Term.sides).mapM source).run s
  let thrown := Term.deal terms answers.1
  { asked := terms.flatMap Term.sides
    left := answers.2
    total := ⟨Term.leadingKind terms, Total.add (thrown.map fun thrown => thrown.total.value)⟩
    text := Braces.join '+' (thrown.map ThrownTerm.text) }

theorem Expression.observe_eq_ofTerms {T : Term → Prop} {O : List Char → Prop}
    {members : List Member} (h : Expression.Formed T O members) (s : σ) :
    Expression.observe source members s =
      Observation.ofTerms source (Expression.terms members) s := by
  obtain ⟨hterms, hleft⟩ := Expression.run_throw source members s
  have horigin := (Expression.origin_throw source).2 members s
  have htotal := ThrownExpression.total_eq ((Expression.throw source members).run s).1
  have htext := ThrownExpression.text_eq_join_terms.2 _ (horigin.symm ▸ h)
  rw [horigin, hterms] at htotal
  rw [hterms] at htext
  rw [Expression.observe, Observation.mk.injEq]
  exact ⟨Expression.asked_eq_sides source members s, hleft, htotal, htext⟩

theorem Expression.observe_congr {T : Term → Prop} {O : List Char → Prop}
    {members others : List Member} (h : Expression.Formed T O members)
    (ho : Expression.Formed T O others)
    (hterms : Expression.terms members = Expression.terms others) :
    Expression.observe source members = Expression.observe source others := by
  funext s
  rw [observe_eq_ofTerms source h, observe_eq_ofTerms source ho, hterms]

end

end DiceNotation
