import DiceNotation.Proofs.Restriction
import Mathlib

/-!
# What the options allow

Options refuse expressions and never change what is read. Where groups are not allowed the first
group ends the reading, and a lower limit ends it at the first term with more dice. Up to that place
a text is read as it is under options that allow more.
-/
namespace DiceNotation

section

variable {options strict loose : Options} {text : List Char}

theorem Term.parse_congr (h : strict.maxCount = loose.maxCount) (text : List Char) :
    Term.parse strict text = Term.parse loose text := by
  unfold parse limitCount
  rw [h]

theorem Term.error_of_limitCount {heading : Heading} {e : RollError}
    (h : limitCount options heading = .error e) :
    ∃ count, e = .limitExceeded count options.maxCount := by
  unfold limitCount at h
  split at h
  · split at h
    · cases h
    · cases h
      exact ⟨_, rfl⟩
  · cases h
    exact ⟨_, rfl⟩

theorem Term.error_of_parse {e : RollError} (h : Term.parse options text = .error e) :
    e = .noTerm ∨ (∃ count, e = .limitExceeded count options.maxCount) ∨ e = .unusableSize := by
  unfold parse at h
  split at h
  · cases h
    exact .inl rfl
  · rcases RollError.bind_eq_error_iff.mp h with hcount | ⟨count, -, h⟩
    · exact .inr (.inl (error_of_limitCount hcount))
    · split at h
      · cases h
        exact .inr (.inr rfl)
      · cases h

theorem Term.parse_ne_groupsDisabled : Term.parse options text ≠ .error .groupsDisabled := by
  intro h
  rcases error_of_parse h with h | ⟨count, h⟩ | h <;> cases h

theorem Term.limitCount_restricts (h : strict.maxCount ≤ loose.maxCount) (heading : Heading) :
    Restricts (fun e => ∃ count, e = .limitExceeded count strict.maxCount)
      (limitCount strict heading) (limitCount loose heading) := by
  unfold limitCount
  cases heading.count? with
  | none => exact .of_error ⟨_, rfl⟩ _
  | some count =>
    by_cases hcount : count ≤ strict.maxCount
    · simp only [if_pos hcount, if_pos (UInt64.le_trans hcount h)]
      exact .refl _
    · simp only [if_neg hcount]
      exact .of_error ⟨_, rfl⟩ _

theorem Term.parse_restricts (h : strict.maxCount ≤ loose.maxCount) (text : List Char) :
    Restricts (fun e => ∃ count, e = .limitExceeded count strict.maxCount)
      (Term.parse strict text) (Term.parse loose text) := by
  unfold parse
  split
  · exact .refl _
  · exact (limitCount_restricts h _).bind fun count => .refl _

theorem admitGroup_of_disabled (h : options.groups = false) (text : List Char) :
    admitGroup options text = .error .groupsDisabled := by
  rw [admitGroup, h]
  rfl

theorem admitGroup_ne_groupsDisabled (h : options.groups = true) (text : List Char) :
    admitGroup options text ≠ .error .groupsDisabled := by
  rw [admitGroup, if_pos h]
  split <;> exact fun h => nomatch h

def Expression.Flat (members : List Member) : Prop :=
  ∀ member ∈ members, ∃ term, member = .term term

theorem Member.parse_brace_of_disabled (h : options.groups = false) (body : List Char) :
    Member.parse options ('{' :: body) = .error .groupsDisabled := by
  rw [parse_brace, admitGroup_of_disabled h]
  rfl

theorem Member.exists_term_of_parse (h : options.groups = false) {member : Member}
    (hread : Member.parse options text = .ok member) : ∃ term, member = .term term := by
  by_cases hbrace : text.head? = some '{'
  · obtain ⟨body, rfl⟩ := List.head?_eq_some_iff.mp hbrace
    rw [parse_brace_of_disabled h] at hread
    cases hread
  · obtain ⟨term, -, rfl⟩ := (parse_term_eq_ok_iff hbrace).mp hread
    exact ⟨term, rfl⟩

theorem Expression.flat_of_forall₂ (h : options.groups = false) {pieces : List (List Char)}
    {members : List Member}
    (hread : List.Forall₂ (fun piece member => Member.parse options piece = .ok member)
      pieces members) : Expression.Flat members := by
  induction hread with
  | nil => exact fun _ h => nomatch h
  | cons hpiece _ ih => exact List.forall_mem_cons.mpr ⟨Member.exists_term_of_parse h hpiece, ih⟩

theorem readPieces_ne_groupsDisabled {pieces : List (List Char)} {declared : Option Kind}
    (h : ∀ piece ∈ pieces, piece.head? ≠ some '{') :
    readPieces (Member.parse options) Member.kind declared pieces ≠ .error .groupsDisabled := by
  intro herror
  rcases error_of_readPieces herror with ⟨piece, hpiece, hread⟩ | hkinds
  · rw [Member.parse_of_head?_ne (h piece hpiece), map_eq_pure_bind] at hread
    rcases RollError.bind_eq_error_iff.mp hread with hterm | ⟨term, -, hterm⟩
    · exact Term.parse_ne_groupsDisabled hterm
    · cases hterm
  · cases hkinds

/-- Without groups a text is refused for a group exactly if the pieces in front of its first group
are terms of one kind. -/
theorem Expression.parse_eq_groupsDisabled_iff (h : options.groups = false) :
    Expression.parse options text = .error .groupsDisabled ↔
      ∃ before body after members,
        Braces.split '+' text = before ++ ('{' :: body) :: after ∧
        List.Forall₂ (fun piece member => Member.parse options piece = .ok member)
          before members ∧
        OneKind Member.kind members := by
  rw [Expression.parse_eq]
  constructor
  · intro herror
    cases hfind : (Braces.split '+' text).find? fun piece => piece.head? = some '{' with
    | none =>
      refine absurd herror (readPieces_ne_groupsDisabled ?_)
      intro piece hpiece
      simpa using List.find?_eq_none.mp hfind piece hpiece
    | some piece =>
      -- The reading gets to the first group only through terms, and they are not to blame.
      obtain ⟨hbrace, before, after, hpieces, hbefore⟩ := List.find?_eq_some_iff_append.mp hfind
      obtain ⟨body, rfl⟩ := List.head?_eq_some_iff.mp (of_decide_eq_true hbrace)
      have hterms : ∀ piece ∈ before, piece.head? ≠ some '{' := by
        intro piece hpiece
        simpa using hbefore piece hpiece
      rw [hpieces, readPieces_append] at herror
      rcases RollError.bind_eq_error_iff.mp herror with hrefused | ⟨members, hread, -⟩
      · exact absurd hrefused (readPieces_ne_groupsDisabled hterms)
      · obtain ⟨hall, hkind⟩ := readPieces_none_eq_ok_iff.mp hread
        exact ⟨before, body, after, members, hpieces, hall, hkind⟩
  · rintro ⟨before, body, after, members, hpieces, hall, hkind⟩
    have hread := readPieces_none_eq_ok_iff.mpr ⟨hall, hkind⟩
    rw [hpieces, readPieces_append, hread]
    simp only [bind, Except.bind, readPieces, Member.parse_brace_of_disabled h]

end

/-- Groups that are not allowed take nothing away but the texts with groups, and are told of only
where the reading comes to one. A text without groups is read as it is where groups are allowed, or
refused with the same error. -/
theorem Expression.parse_without_groups (options : Options) (text : List Char) :
    let plain := { options with groups := false }
    let grouped := { options with groups := true }
    (∀ members, Expression.parse plain text = .ok members →
      Expression.parse grouped text = .ok members ∧ Expression.Flat members) ∧
    (∀ e, e ≠ .groupsDisabled → Expression.parse plain text = .error e →
      Expression.parse grouped text = .error e) ∧
    (∀ inner, Member.parse grouped inner ≠ .error .groupsDisabled ∧
      Expression.parse grouped inner ≠ .error .groupsDisabled) ∧
    (Expression.parse plain text = .error .groupsDisabled ↔
      ∃ before body after members,
        Braces.split '+' text = before ++ ('{' :: body) :: after ∧
        List.Forall₂ (fun piece member => Member.parse plain piece = .ok member)
          before members ∧
        Expression.Flat members ∧ OneKind Member.kind members) := by
  intro plain grouped
  have hrestricts := @Expression.parse_restricts (· = .groupsDisabled) plain grouped
    (fun text => .inl (Term.parse_congr rfl text))
    (fun text => .inr ⟨_, rfl, admitGroup_of_disabled rfl text⟩) text
  have hnever := @Expression.error_of_parse (· ≠ .groupsDisabled) grouped
    (fun text e herror he => Term.parse_ne_groupsDisabled (he ▸ herror))
    (fun text e herror he => admitGroup_ne_groupsDisabled rfl text (he ▸ herror))
    (fun h => nomatch h)
  refine ⟨?_, ?_, ?_, ?_⟩
  · intro members hread
    exact ⟨hrestricts.eq_ok hread,
      Expression.flat_of_forall₂ rfl (Expression.parse_eq_ok_iff.mp hread).1⟩
  · intro e he herror
    exact hrestricts.eq_error he herror
  · intro inner
    exact ⟨fun herror => hnever.1 inner _ herror rfl, fun herror => hnever.2 inner _ herror rfl⟩
  · rw [Expression.parse_eq_groupsDisabled_iff rfl]
    constructor
    · rintro ⟨before, body, after, members, hpieces, hall, hkind⟩
      exact ⟨before, body, after, members, hpieces, hall, Expression.flat_of_forall₂ rfl hall,
        hkind⟩
    · rintro ⟨before, body, after, members, hpieces, hall, -, hkind⟩
      exact ⟨before, body, after, members, hpieces, hall, hkind⟩

/-- A group hides that a later piece holds no term, and kinds that differ hide a group. -/
theorem Expression.parse_without_groups_first_fault :
    Expression.parse {} "1d6+\x7b2d4\x7d+hello".toList = .error .groupsDisabled ∧
    Expression.parse {} "1d6+1d4>3+\x7b2d4\x7d".toList = .error .mixedKinds ∧
    Expression.parse { groups := true } "1d6+1d4>3+\x7b2d4\x7d".toList = .error .mixedKinds := by
  have hterm : Member.parse {} "1d6".toList = .ok (.term ⟨1, .sided 6, []⟩) := by cbv
  have hkinds : Expression.parse {} "1d6+1d4>3+\x7b2d4\x7d".toList = .error .mixedKinds := by cbv
  refine ⟨?_, hkinds, ?_⟩
  · have hgroup := (Expression.parse_without_groups {} "1d6+\x7b2d4\x7d+hello".toList).2.2.2
    refine hgroup.mpr ⟨["1d6".toList], "2d4\x7d".toList, ["hello".toList], _, by cbv,
      .cons hterm .nil, ?_, .sum, ?_⟩
    · simp [Expression.Flat]
    · intro member hmember
      rw [List.mem_singleton.mp hmember]
      rfl
  · have hsame := (Expression.parse_without_groups {} "1d6+1d4>3+\x7b2d4\x7d".toList).2.1
    exact hsame .mixedKinds (by decide) hkinds

/-- A lower limit filters: an expression is read as under the higher limit, or refused for too many
dice. So a higher limit changes no tree and no other error. -/
theorem Expression.parse_under_limits {limit higher : UInt64} (h : limit ≤ higher)
    (options : Options) (text : List Char) :
    let strict := Expression.parse { options with maxCount := limit } text
    let loose := Expression.parse { options with maxCount := higher } text
    (strict = loose ∨ ∃ count, strict = .error (.limitExceeded count limit)) ∧
    (∀ members, strict = .ok members → loose = .ok members) ∧
    ∀ e, (∀ count, e ≠ .limitExceeded count limit) → strict = .error e → loose = .error e := by
  intro strict loose
  have hrestricts := Expression.parse_restricts
    (fun text => @Term.parse_restricts { options with maxCount := limit }
      { options with maxCount := higher } h text)
    (fun text => .refl (admitGroup options text)) text
  refine ⟨?_, fun members hread => hrestricts.eq_ok hread, ?_⟩
  · refine hrestricts.imp_right ?_
    rintro ⟨_, ⟨count, rfl⟩, herror⟩
    exact ⟨count, herror⟩
  · intro e he herror
    refine hrestricts.eq_error ?_ herror
    rintro ⟨count, rfl⟩
    exact he count rfl

/-- A group that fits both limits, and one whose kinds differ. -/
theorem Expression.parse_under_limits_nested :
    let fits := "\x7b1d6,\x7b2d8\x7d\x7dk+0dF".toList
    let differs := "\x7b2d6,2d8>5\x7d+9d4".toList
    (2 : UInt64) ≤ 5 ∧
      (∃ members, Expression.parse ⟨2, true⟩ fits = .ok members ∧
        Expression.parse ⟨5, true⟩ fits = .ok members) ∧
      Expression.parse ⟨2, true⟩ differs = .error .mixedKinds ∧
      Expression.parse ⟨5, true⟩ differs = .error .mixedKinds := by
  intro fits differs
  have hle : (2 : UInt64) ≤ 5 := by decide
  have hfits : Expression.parse ⟨2, true⟩ fits = .ok [.group [[.term ⟨1, .sided 6, []⟩],
      [.group [[.term ⟨2, .sided 8, []⟩]] []]] ['k'], .term ⟨0, .fate, []⟩] := by
    unfold fits
    cbv
  have hdiffers : Expression.parse ⟨2, true⟩ differs = .error .mixedKinds := by
    unfold differs
    cbv
  have hother : ∀ count, RollError.mixedKinds ≠ .limitExceeded count 2 := by
    intro count h
    cases h
  refine ⟨hle, ⟨_, hfits, ?_⟩, hdiffers, ?_⟩
  · exact (Expression.parse_under_limits hle { groups := true } fits).2.1 _ hfits
  · exact (Expression.parse_under_limits hle { groups := true } differs).2.2 _ hother hdiffers

end DiceNotation
