import DiceNotation.Proofs.KindAgreement
import DiceNotation.Proofs.Observation
import DiceNotation.Proofs.Restriction

/-!
# Sums of sums

A plus sign behind matching braces puts two expressions side by side. The first one is read as it is
on its own and declares the kind for the second one. The sum is thrown by throwing the first one and
then the second one with what the first one left of the source.
-/
namespace DiceNotation

theorem Expression.OfKind.ne_nil {kind : Kind} {members : List Member}
    (h : Expression.OfKind kind members) : members ≠ [] := by
  obtain ⟨hne, -⟩ := h
  exact hne

theorem Expression.OfKind.kind_of_mem {kind : Kind} {members : List Member}
    (h : Expression.OfKind kind members) : ∀ member ∈ members, member.kind = kind := by
  obtain ⟨-, hmembers⟩ := h
  intro member hmember
  have hof : member.OfKind kind := hmembers member hmember
  exact hof.kind_eq

section

variable {options : Options} {front back : List Char} {members others : List Member}

/-- The pieces behind the plus sign are read under the kind of the expression in front of it. -/
theorem Expression.parse_append_plus_of_ok (hbalance : Braces.balance front = 0)
    (hfront : Expression.parse options front = .ok members) :
    Expression.parse options (front ++ '+' :: back) = do
      let rest ← readPieces (Member.parse options) Member.kind (some (Expression.kind members))
        (Braces.split '+' back)
      return members ++ rest := by
  have hof := Expression.ofKind_of_parse hfront
  have hdeclared := declaredAfter_of_forall hof.ne_nil hof.kind_of_mem none
  rw [Expression.parse_eq] at hfront
  rw [Expression.parse_eq, Braces.split_append_separator rfl hbalance, readPieces_append, hfront]
  simp only [bind, Except.bind, hdeclared]

theorem Expression.parse_append_plus_of_error (hbalance : Braces.balance front = 0) {e : RollError}
    (hfront : Expression.parse options front = .error e) (back : List Char) :
    Expression.parse options (front ++ '+' :: back) = .error e := by
  rw [Expression.parse_eq] at hfront
  rw [Expression.parse_eq, Braces.split_append_separator rfl hbalance, readPieces_append, hfront]
  rfl

theorem Expression.parse_append_plus_of_kind (hbalance : Braces.balance front = 0)
    (hfront : Expression.parse options front = .ok members)
    (hback : Expression.parse options back = .ok others)
    (hkind : Expression.kind members = Expression.kind others) :
    Expression.parse options (front ++ '+' :: back) = .ok (members ++ others) := by
  have hof := Expression.ofKind_of_parse hback
  have hpieces := (Expression.parse_eq_ok_iff.mp hback).1
  have hdeclared : ∀ k ∈ some (Expression.kind members), k = Expression.kind others := by
    rintro k ⟨⟩
    exact hkind
  have hrest := readPieces_eq_ok_iff.mpr ⟨hpieces, _, hdeclared, hof.kind_of_mem⟩
  rw [Expression.parse_append_plus_of_ok hbalance hfront, hrest]
  rfl

theorem Expression.parse_append_plus_of_kind_ne (hbalance : Braces.balance front = 0)
    (hfront : Expression.parse options front = .ok members)
    (hback : Expression.parse options back = .ok others)
    (hkind : Expression.kind members ≠ Expression.kind others) :
    Expression.parse options (front ++ '+' :: back) = .error .mixedKinds := by
  have hof := Expression.ofKind_of_parse hback
  rw [Expression.parse_eq] at hback
  rw [Expression.parse_append_plus_of_ok hbalance hfront]
  rcases Restricts.readPieces_some (Member.parse options) Member.kind (Expression.kind members)
    (Braces.split '+' back) with hsame | ⟨_, rfl, herror⟩
  · -- The declared kind would be that of a member behind the plus sign.
    rw [hback] at hsame
    obtain ⟨-, kind, hdeclared, hkinds⟩ := readPieces_eq_ok_iff.mp hsame
    obtain ⟨member, hmember⟩ := List.exists_mem_of_ne_nil _ hof.ne_nil
    have hfirst := hdeclared _ rfl
    rw [← hkinds member hmember, hof.kind_of_mem member hmember] at hfirst
    exact absurd hfirst hkind
  · rw [herror]
    rfl

theorem Expression.parse_append_plus_of_back_error (hbalance : Braces.balance front = 0)
    (hfront : Expression.parse options front = .ok members) {e : RollError}
    (hback : Expression.parse options back = .error e) :
    Expression.parse options (front ++ '+' :: back) = .error .mixedKinds ∨
      Expression.parse options (front ++ '+' :: back) = .error e := by
  rw [Expression.parse_eq] at hback
  rw [Expression.parse_append_plus_of_ok hbalance hfront]
  rcases Restricts.readPieces_some (Member.parse options) Member.kind (Expression.kind members)
    (Braces.split '+' back) with hsame | ⟨_, rfl, herror⟩
  · rw [hsame, hback]
    exact .inr rfl
  · rw [herror]
    exact .inl rfl

end

/-- What is seen when another throw follows: the sides asked for in turn, both values added to a
total of the first kind, and both texts with a plus sign between them. -/
def Observation.followedBy {σ : Type} (first second : Observation σ) : Observation σ where
  asked := first.asked ++ second.asked
  left := second.left
  total := ⟨first.total.kind, first.total.value + second.total.value⟩
  text := first.text ++ '+' :: second.text

section

variable {σ : Type} (source : Source σ) {kind : Kind} {members others : List Member}

theorem Expression.run_throw_append (members others : List Member) (s : σ) :
    let first := (Expression.throw source members).run s
    let second := (Expression.throw source others).run first.2
    (Expression.throw source (members ++ others)).run s = (first.1 ++ second.1, second.2) := by
  rw [Expression.throw_eq_mapM, Expression.throw_eq_mapM, Expression.throw_eq_mapM,
    List.mapM_append]
  rfl

theorem Expression.sides_append (members others : List Member) :
    Expression.sides (members ++ others) = Expression.sides members ++ Expression.sides others := by
  simp only [Expression.sides, Expression.terms_eq_flatMap, List.flatMap_append]

theorem ThrownExpression.terms_append (first second : List ThrownMember) :
    ThrownExpression.terms (first ++ second) =
      ThrownExpression.terms first ++ ThrownExpression.terms second := by
  simp only [ThrownExpression.terms_eq_flatMap, List.flatMap_append]

theorem ThrownExpression.total_append {first : List ThrownMember}
    (hne : ThrownExpression.terms first ≠ []) (second : List ThrownMember) :
    ThrownExpression.total (first ++ second) = ⟨(ThrownExpression.total first).kind,
      (ThrownExpression.total first).value + (ThrownExpression.total second).value⟩ := by
  obtain ⟨term, terms, hterms⟩ := List.exists_cons_of_ne_nil hne
  rw [Total.mk.injEq]
  constructor
  · simp only [ThrownExpression.total, terms_append, hterms]
    rfl
  · simp only [ThrownExpression.total, ThrownExpression.values_eq_map, List.map_append,
      Total.add_append]

theorem ThrownExpression.text_append {first second : List ThrownMember} (hfirst : first ≠ [])
    (hsecond : second ≠ []) :
    ThrownExpression.text (first ++ second) =
      ThrownExpression.text first ++ '+' :: ThrownExpression.text second := by
  have hfirst' : first.map ThrownMember.text ≠ [] := fun h => hfirst (List.map_eq_nil_iff.mp h)
  have hsecond' : second.map ThrownMember.text ≠ [] := fun h => hsecond (List.map_eq_nil_iff.mp h)
  rw [text_eq_join, text_eq_join, text_eq_join, List.map_append,
    Braces.join_append hfirst' hsecond']

theorem Expression.observe_append (h : Expression.OfKind kind members)
    (ho : Expression.OfKind kind others) (s : σ) :
    let first := Expression.observe source members s
    Expression.observe source (members ++ others) s =
      first.followedBy (Expression.observe source others first.left) := by
  have hthrow := Expression.run_throw_append source members others s
  have horigin := (Expression.origin_throw source).2 members s
  have hother := (Expression.origin_throw source).2 others
    ((Expression.throw source members).run s).2
  have hterms := ThrownExpression.terms_ne_nil.2 _ (horigin.symm ▸ h)
  have hfirst : ((Expression.throw source members).run s).1 ≠ [] := by
    intro hnil
    rw [hnil] at horigin
    exact h.ne_nil horigin.symm
  have hsecond : ((Expression.throw source others).run
      ((Expression.throw source members).run s).2).1 ≠ [] := by
    intro hnil
    rw [hnil] at hother
    exact ho.ne_nil hother.symm
  simp only [Expression.observe, Observation.followedBy, Expression.asked_eq_sides, hthrow,
    Expression.sides_append, ThrownExpression.total_append hterms,
    ThrownExpression.text_append hfirst hsecond]

end

/-- A plus sign behind matching braces composes expressions. An error in front of it is the error of
the whole. Otherwise two expressions of one kind are read as their members in a row, and throwing
these is throwing the first expression and then the second one; two of different kinds are refused
for that, and an error behind the sign stays unless kinds were found to differ before it. -/
theorem Expression.parse_append_plus {options : Options} {front : List Char}
    (hbraces : front.count '{' = front.count '}') (back : List Char) :
    let whole := Expression.parse options (front ++ '+' :: back)
    (∀ e, Expression.parse options front = .error e → whole = .error e) ∧
    ∀ members, Expression.parse options front = .ok members →
      (∀ others, Expression.parse options back = .ok others →
        Expression.kind members = Expression.kind others →
        whole = .ok (members ++ others) ∧
        ∀ {σ : Type} (source : Source σ) (s : σ),
          let first := (Expression.throw source members).run s
          let second := (Expression.throw source others).run first.2
          (Expression.throw source (members ++ others)).run s =
              (first.1 ++ second.1, second.2) ∧
            Expression.observe source (members ++ others) s =
              (Expression.observe source members s).followedBy
                (Expression.observe source others first.2)) ∧
      (∀ others, Expression.parse options back = .ok others →
        Expression.kind members ≠ Expression.kind others → whole = .error .mixedKinds) ∧
      ∀ e, Expression.parse options back = .error e →
        whole = .error .mixedKinds ∨ whole = .error e := by
  have hbalance : Braces.balance front = 0 := by
    rw [Braces.balance_eq_count, hbraces, Int.sub_self]
  intro whole
  refine ⟨fun e hfront => Expression.parse_append_plus_of_error hbalance hfront back, ?_⟩
  intro members hfront
  refine ⟨?_, ?_, ?_⟩
  · intro others hback hkind
    refine ⟨Expression.parse_append_plus_of_kind hbalance hfront hback hkind, ?_⟩
    intro σ source s first second
    have hmembers := Expression.ofKind_of_parse hfront
    have hothers := Expression.ofKind_of_parse hback
    rw [← hkind] at hothers
    exact ⟨Expression.run_throw_append source members others s,
      Expression.observe_append source hmembers hothers s⟩
  · intro others hback hkind
    exact Expression.parse_append_plus_of_kind_ne hbalance hfront hback hkind
  · intro e hback
    exact Expression.parse_append_plus_of_back_error hbalance hfront hback

/-- Braces in the wrong order hide the plus sign between them, not the one behind. -/
theorem Expression.parse_append_plus_crossed :
    let front := "2d6\x7d+1d4\x7b".toList
    let back := "1d8+1dF".toList
    let members : Expression := [.term ⟨2, .sided 6, []⟩]
    let others : Expression := [.term ⟨1, .sided 8, []⟩, .term ⟨1, .fate, []⟩]
    let source : Source UInt64 := fun _ thrown => (thrown + 1, thrown + 1)
    front.count '{' = front.count '}' ∧ Expression.parse {} front = .ok members ∧
      Expression.parse {} back = .ok others ∧
      Expression.parse {} (front ++ '+' :: back) = .ok (members ++ others) ∧
      (Expression.observe source (members ++ others) 0).total = ⟨.sum, 8⟩ := by
  intro front back members others source
  have hbraces : front.count '{' = front.count '}' := by decide
  have hfront : Expression.parse {} front = .ok members := by
    unfold front members
    cbv
  have hback : Expression.parse {} back = .ok others := by
    unfold back others
    cbv
  obtain ⟨hwhole, hthrow⟩ :=
    ((Expression.parse_append_plus hbraces back).2 members hfront).1 others hback rfl
  refine ⟨hbraces, hfront, hback, hwhole, ?_⟩
  rw [(hthrow source 0).2]
  unfold source members others
  cbv

end DiceNotation
