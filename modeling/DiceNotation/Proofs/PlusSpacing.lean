import DiceNotation.Proofs.KindAgreement
import DiceNotation.Proofs.NestingDepth
import DiceNotation.Proofs.Observation
import DiceNotation.Proofs.SpaceBoundary

/-!
# Spaces around a plus sign

Spaces in front of a plus sign go to the ignored tail of a term or to the text behind a group, and
spaces behind it are skipped in front of a term. Only in front of a group do they count: a piece
that does not start with its brace is read as a term.
-/
namespace DiceNotation

section

variable {options : Options} {spaces : List Char}

theorem weight_of_spaces (h : ∀ c ∈ spaces, c = ' ') : ∀ c ∈ spaces, Braces.weight c = 0 := by
  intro c hc
  rw [h c hc]
  rfl

theorem balance_of_spaces (h : ∀ c ∈ spaces, c = ' ') : Braces.balance spaces = 0 :=
  (Braces.balanced_of_weight (weight_of_spaces h)).balance_eq

theorem plus_not_mem_of_spaces (h : ∀ c ∈ spaces, c = ' ') : '+' ∉ spaces := by
  intro hmem
  cases h _ hmem

theorem Term.parse_spaces_append (h : ∀ c ∈ spaces, c = ' ') (text : List Char) :
    Term.parse options (spaces ++ text) = Term.parse options text := by
  induction spaces with
  | nil => rfl
  | cons c spaces ih =>
    obtain ⟨rfl, hspaces⟩ := List.forall_mem_cons.mp h
    have hskip := parse_append_space options [] (spaces ++ text)
    exact hskip.trans (ih hspaces)

theorem Term.parse_append_spaces (h : ∀ c ∈ spaces, c = ' ') (text : List Char) :
    Term.parse options (text ++ spaces) = Term.parse options text := by
  cases spaces with
  | nil => rw [List.append_nil]
  | cons c spaces =>
    obtain ⟨rfl, hspaces⟩ := List.forall_mem_cons.mp h
    have hnone := @parse_spaces_append options _ hspaces []
    rw [List.append_nil] at hnone
    rw [parse_append_space, hnone]
    cases hfind : Heading.find? text with
    | some heading => rfl
    | none =>
      rw [parse, parse, hfind]
      rfl

theorem Member.parse_spaces_append (h : ∀ c ∈ spaces, c = ' ') {text : List Char}
    (htext : spaces = [] ∨ text.head? ≠ some '{') :
    Member.parse options (spaces ++ text) = Member.parse options text := by
  cases spaces with
  | nil => rfl
  | cons c spaces =>
    have hc : c = ' ' := h c (List.mem_cons_self ..)
    have hbrace : (c :: spaces ++ text).head? ≠ some '{' := by simp [hc]
    have hhead := htext.resolve_left (List.cons_ne_nil c spaces)
    rw [parse_of_head?_ne hbrace, parse_of_head?_ne hhead, Term.parse_spaces_append h]

/-- Spaces behind a piece with matching braces change at most the text behind a group. -/
theorem Member.terms_parse_append_spaces (h : ∀ c ∈ spaces, c = ' ')
    {text : List Char} (hbalance : Braces.balance text = 0) :
    Member.terms <$> Member.parse options (text ++ spaces) =
      Member.terms <$> Member.parse options text := by
  by_cases hbrace : text.head? = some '{'
  · obtain ⟨body, rfl⟩ := List.head?_eq_some_iff.mp hbrace
    have hbody : Braces.balance body < 0 := by
      have hopen : Braces.weight '{' = 1 := rfl
      rw [Braces.balance, hopen] at hbalance
      omega
    have hadmit : admitGroup options ('{' :: (body ++ spaces)) =
        admitGroup options ('{' :: body) := by
      rw [admitGroup, admitGroup, ← List.cons_append,
        Braces.nestingDepth_append_of_weight _ (weight_of_spaces h)]
    rw [List.cons_append, parse_brace, parse_brace, hadmit, parseGroup_eq, parseGroup_eq,
      Braces.splitGroup_append_right hbody]
    simp only [map_bind, map_pure, Member.terms]
  · have happend : (text ++ spaces).head? ≠ some '{' := by
      cases text with
      | nil =>
        intro hhead
        cases h _ (List.mem_of_mem_head? hhead)
      | cons c text => exact hbrace
    rw [parse_of_head?_ne hbrace, parse_of_head?_ne happend, Term.parse_append_spaces h]

def Member.SameTerms (options : Options) (piece other : List Char) : Prop :=
  Member.terms <$> Member.parse options piece = Member.terms <$> Member.parse options other

theorem Expression.terms_parse_congr {text other : List Char}
    (h : List.Forall₂ (Member.SameTerms options) (Braces.split '+' text)
      (Braces.split '+' other)) :
    Expression.terms <$> Expression.parse options text =
      Expression.terms <$> Expression.parse options other := by
  have hterms : Expression.terms = List.flatten ∘ List.map Member.terms := by
    funext members
    rw [Expression.terms_eq_flatMap, List.flatMap_def]
    rfl
  have hpieces := @readPieces_congr _ _ _ Term.leadingKind _ _ h none
  have hkind : ∀ member : Member, member.kind = Term.leadingKind member.terms := fun _ => rfl
  rw [← map_readPieces hkind, ← map_readPieces hkind] at hpieces
  rw [hterms, comp_map, comp_map, Expression.parse_eq, Expression.parse_eq]
  exact congrArg (List.flatten <$> ·) hpieces

theorem Member.sameTerms_split_append_spaces (h : ∀ c ∈ spaces, c = ' ') {text : List Char}
    (hbalance : Braces.balance text = 0) :
    List.Forall₂ (Member.SameTerms options) (Braces.split '+' (text ++ spaces))
      (Braces.split '+' text) := by
  obtain ⟨front, last, htext, happend, hlast⟩ :=
    Braces.exists_splitFrom_append rfl (plus_not_mem_of_spaces h) 0 text
  rw [hbalance, ite_self, Int.add_zero] at hlast
  rw [Braces.split, Braces.split, htext, happend]
  have hfront : List.Forall₂ (Member.SameTerms options) front front :=
    List.forall₂_same.mpr fun piece _ => rfl
  exact List.rel_append hfront (.cons (Member.terms_parse_append_spaces h hlast) .nil)

theorem Member.sameTerms_split_spaces_append (h : ∀ c ∈ spaces, c = ' ') {text : List Char}
    (htext : spaces = [] ∨ text.head? ≠ some '{') :
    List.Forall₂ (Member.SameTerms options) (Braces.split '+' (spaces ++ text))
      (Braces.split '+' text) := by
  have hhides : Braces.Hides '+' 0 spaces := Braces.hides_of_not_mem (plus_not_mem_of_spaces h) 0
  have hsplit := Braces.splitFrom_append_of_hides hhides text
  rw [balance_of_spaces h, Int.add_zero] at hsplit
  rw [Braces.split, Braces.split, hsplit]
  cases hpieces : Braces.splitFrom '+' 0 text with
  | nil => exact .nil
  | cons piece pieces =>
    have hpiece : spaces = [] ∨ piece.head? ≠ some '{' := by
      refine htext.imp_right fun hhead hbrace => hhead ?_
      obtain ⟨body, rfl⟩ := List.head?_eq_some_iff.mp hbrace
      obtain ⟨rest, hrest⟩ := Braces.prefix_of_splitFrom hpieces
      rw [← hrest]
      rfl
    exact .cons (congrArg _ (Member.parse_spaces_append h hpiece))
      (List.forall₂_same.mpr fun piece _ => rfl)

/-- The terms of an expression that is read do not depend on spaces around a plus sign, unless
the ones behind it stand in front of a group. -/
theorem Expression.terms_parse_spaces_around_plus {before behind front back : List Char}
    (hbalance : Braces.balance front = 0) (hbefore : ∀ c ∈ before, c = ' ')
    (hbehind : ∀ c ∈ behind, c = ' ') (hback : behind = [] ∨ back.head? ≠ some '{') :
    Expression.terms <$> Expression.parse options (front ++ before ++ '+' :: (behind ++ back)) =
      Expression.terms <$> Expression.parse options (front ++ '+' :: back) := by
  have hspaces : Braces.balance (front ++ before) = 0 := by
    rw [Braces.balance_append, hbalance, balance_of_spaces hbefore]
    rfl
  apply Expression.terms_parse_congr
  rw [Braces.split_append_separator rfl hspaces, Braces.split_append_separator rfl hbalance]
  exact List.rel_append (Member.sameTerms_split_append_spaces hbefore hbalance)
    (Member.sameTerms_split_spaces_append hbehind hback)

end

/-- Two texts are read alike: both are refused with one error, or what is read is of one kind and
looks the same when it is thrown, on any source. -/
def Expression.ReadAlike (options : Options) (text other : List Char) : Prop :=
  (∃ e, Expression.parse options text = .error e ∧ Expression.parse options other = .error e) ∨
  ∃ members others, Expression.parse options text = .ok members ∧
    Expression.parse options other = .ok others ∧
    Expression.kind members = Expression.kind others ∧
    ∀ {σ : Type} (source : Source σ) (s : σ),
      Expression.observe source members s = Expression.observe source others s

theorem Expression.readAlike_of_terms {options : Options} {text other : List Char}
    (h : Expression.terms <$> Expression.parse options text =
      Expression.terms <$> Expression.parse options other) :
    Expression.ReadAlike options text other := by
  cases htext : Expression.parse options text with
  | error e =>
    cases hother : Expression.parse options other with
    | error e' =>
      rw [htext, hother] at h
      cases h
      exact .inl ⟨e, htext, hother⟩
    | ok others =>
      rw [htext, hother] at h
      cases h
  | ok members =>
    cases hother : Expression.parse options other with
    | error e =>
      rw [htext, hother] at h
      cases h
    | ok others =>
      rw [htext, hother] at h
      have hterms : Expression.terms members = Expression.terms others := Except.ok.inj h
      have hkind : Expression.kind members = Expression.kind others := by
        rw [Expression.kind, Expression.kind, hterms]
      have hmembers := Expression.ofKind_of_parse htext
      have hothers := Expression.ofKind_of_parse hother
      rw [← hkind] at hothers
      refine .inr ⟨members, others, htext, hother, hkind, ?_⟩
      intro σ source s
      exact congrFun (Expression.observe_congr source hmembers hothers hterms) s

/-- Spaces around a plus sign outside all braces do not matter, whatever stands on both sides,
unless spaces behind it stand in front of a group. -/
theorem Expression.spaces_around_plus {options : Options} {front before behind back : List Char}
    (hbraces : front.count '{' = front.count '}') (hbefore : ∀ c ∈ before, c = ' ')
    (hbehind : ∀ c ∈ behind, c = ' ') (hback : behind = [] ∨ back.head? ≠ some '{') :
    Expression.ReadAlike options (front ++ before ++ '+' :: (behind ++ back))
      (front ++ '+' :: back) := by
  have hbalance : Braces.balance front = 0 := by
    rw [Braces.balance_eq_count, hbraces, Int.sub_self]
  exact Expression.readAlike_of_terms
    (Expression.terms_parse_spaces_around_plus hbalance hbefore hbehind hback)

/-- A group in front, whose text behind the brace takes the spaces, and a term behind. -/
theorem Expression.spaces_around_plus_group :
    let front := "\x7b1d4,2d6\x7dk".toList
    let members : Expression := [.group [[.term ⟨1, .sided 4, []⟩], [.term ⟨2, .sided 6, []⟩]]
      ['k', ' ', ' '], .term ⟨3, .sided 8, []⟩]
    Expression.parse { groups := true } (front ++ [' ', ' '] ++ '+' :: ([' '] ++ "3d8".toList)) =
        .ok members ∧
      ∃ others, Expression.parse { groups := true } (front ++ '+' :: "3d8".toList) = .ok others ∧
        ∀ (source : Source Nat) (s : Nat),
          Expression.observe source members s = Expression.observe source others s := by
  intro front members
  have hread : Expression.parse { groups := true }
      (front ++ [' ', ' '] ++ '+' :: ([' '] ++ "3d8".toList)) = .ok members := by
    unfold front members
    cbv
  refine ⟨hread, ?_⟩
  have halike := @Expression.spaces_around_plus { groups := true } front [' ', ' '] [' ']
    "3d8".toList (by decide) (by simp) (by simp) (.inr (by decide))
  rcases halike with ⟨e, herror, -⟩ | ⟨_, others, hok, hothers, -, hsame⟩
  · rw [hread] at herror
    cases herror
  · rw [hread] at hok
    cases hok
    exact ⟨others, hothers, fun source s => hsame source s⟩

/-- Spaces in front of a group make a term of it: its first term is read and the rest of it is
lost. Without groups such an expression is even read at all. -/
theorem Expression.spaced_group_read_as_term :
    ¬ Expression.ReadAlike {} "1d6+ \x7b1d6\x7d".toList "1d6+\x7b1d6\x7d".toList ∧
    ¬ Expression.ReadAlike { groups := true } "1d6+ \x7b1d6,1d4\x7d".toList
      "1d6+\x7b1d6,1d4\x7d".toList := by
  constructor
  · have hread : Expression.parse {} "1d6+ \x7b1d6\x7d".toList =
        .ok [.term ⟨1, .sided 6, []⟩, .term ⟨1, .sided 6, []⟩] := by cbv
    have hrefused : Expression.parse {} "1d6+\x7b1d6\x7d".toList = .error .groupsDisabled := by cbv
    rintro (⟨e, herror, -⟩ | ⟨members, others, -, hok, -⟩)
    · rw [hread] at herror
      cases herror
    · rw [hrefused] at hok
      cases hok
  · have hread : Expression.parse { groups := true } "1d6+ \x7b1d6,1d4\x7d".toList =
        .ok [.term ⟨1, .sided 6, []⟩, .term ⟨1, .sided 6, []⟩] := by cbv
    have hgroup : Expression.parse { groups := true } "1d6+\x7b1d6,1d4\x7d".toList =
        .ok [.term ⟨1, .sided 6, []⟩,
          .group [[.term ⟨1, .sided 6, []⟩], [.term ⟨1, .sided 4, []⟩]] []] := by cbv
    rintro (⟨e, herror, -⟩ | ⟨members, others, hok, hother, -, hsame⟩)
    · rw [hread] at herror
      cases herror
    · rw [hread] at hok
      rw [hgroup] at hother
      cases hok
      cases hother
      have hasked := congrArg Observation.asked (hsame (fun _ => pure 1) ())
      simp only [Expression.observe, Expression.asked_eq_sides] at hasked
      exact absurd hasked (by decide)

end DiceNotation
