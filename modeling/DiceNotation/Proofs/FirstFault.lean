import DiceNotation.Proofs.KindAgreement

/-!
# The first fault

Pieces are read from left to right, and the first piece settles the kind of all. A piece is at fault
if it is not read or if it is of another kind, and the first one at fault decides how the reading
ends: with the error of the piece, or with kinds that differ. What stands behind it is not looked
at.
-/
namespace DiceNotation

section

variable {ι α β : Type} (read : ι → Except RollError α) (kindOf : α → Kind)

/-- The piece is not read, or is of another kind than the first of the pieces. -/
def Faulty (pieces : List ι) (piece : ι) : Prop :=
  (∃ e, read piece = .error e) ∨
    ∃ first lead item, pieces.head? = some first ∧ read first = .ok lead ∧ read piece = .ok item ∧
      kindOf item ≠ kindOf lead

/-- How a reading ends that comes to what its pieces come to. Without a fault every piece is read,
and the whole is of the kind of the first item. Otherwise the first piece at fault decides. -/
structure FirstFaultWins (pieces : List ι) (build : List α → β) (kindOfWhole : β → Kind)
    (outcome : Except RollError β) : Prop where
  of_sound : (∀ piece ∈ pieces, ¬ Faulty read kindOf pieces piece) →
    ∃ lead rest, List.Forall₂ (fun piece item => read piece = .ok item) pieces (lead :: rest) ∧
      (∀ item ∈ rest, kindOf item = kindOf lead) ∧ outcome = .ok (build (lead :: rest)) ∧
      kindOfWhole (build (lead :: rest)) = kindOf lead
  of_error : ∀ before piece after e, pieces = before ++ piece :: after →
    (∀ other ∈ before, ¬ Faulty read kindOf pieces other) → read piece = .error e →
    outcome = .error e
  of_kind : ∀ before piece after item, pieces = before ++ piece :: after →
    (∀ other ∈ before, ¬ Faulty read kindOf pieces other) → Faulty read kindOf pieces piece →
    read piece = .ok item → outcome = .error .mixedKinds

def SameUpToFault (pieces others : List ι) : Prop :=
  ∃ before piece after behind, pieces = before ++ piece :: after ∧
    others = before ++ piece :: behind ∧ (∀ other ∈ before, ¬ Faulty read kindOf pieces other) ∧
    Faulty read kindOf pieces piece

end

section

variable {ι α β : Type} {read : ι → Except RollError α} {kindOf : α → Kind} {pieces : List ι}

theorem not_faulty_iff {first piece : ι} {lead : α} (hfirst : pieces.head? = some first)
    (hlead : read first = .ok lead) :
    ¬ Faulty read kindOf pieces piece ↔
      ∃ item, read piece = .ok item ∧ kindOf item = kindOf lead := by
  constructor
  · intro h
    rw [Faulty, not_or] at h
    cases hread : read piece with
    | error e => exact absurd ⟨e, hread⟩ h.1
    | ok item =>
      refine ⟨item, rfl, ?_⟩
      by_contra hkind
      exact h.2 ⟨first, lead, item, hfirst, hlead, hread, hkind⟩
  · rintro ⟨item, hread, hkind⟩ (⟨e, herror⟩ | ⟨_, other, found, hhead, hother, hfound, hne⟩)
    · rw [hread] at herror
      cases herror
    · cases hfirst.symm.trans hhead
      cases hlead.symm.trans hother
      cases hread.symm.trans hfound
      exact hne hkind

theorem exists_items_of_forall {P : α → Prop}
    (h : ∀ piece ∈ pieces, ∃ item, read piece = .ok item ∧ P item) :
    ∃ items, List.Forall₂ (fun piece item => read piece = .ok item) pieces items ∧
      ∀ item ∈ items, P item := by
  induction pieces with
  | nil => exact ⟨[], .nil, fun _ h => nomatch h⟩
  | cons piece pieces ih =>
    obtain ⟨⟨item, hread, hitem⟩, hpieces⟩ := List.forall_mem_cons.mp h
    obtain ⟨items, hall, hitems⟩ := ih hpieces
    exact ⟨item :: items, .cons hread hall, List.forall_mem_cons.mpr ⟨hitem, hitems⟩⟩

theorem exists_items_of_sound {first : ι} {others : List ι} (hfirst : pieces.head? = some first)
    (h : ∀ piece ∈ first :: others, ¬ Faulty read kindOf pieces piece) :
    ∃ lead rest, read first = .ok lead ∧
      List.Forall₂ (fun piece item => read piece = .ok item) others rest ∧
      (∀ item ∈ rest, kindOf item = kindOf lead) ∧
      readPieces read kindOf none (first :: others) = .ok (lead :: rest) := by
  obtain ⟨hsound, hothers⟩ := List.forall_mem_cons.mp h
  obtain ⟨lead, hlead⟩ : ∃ lead, read first = .ok lead := by
    cases hread : read first with
    | error e => exact absurd (.inl ⟨e, hread⟩) hsound
    | ok lead => exact ⟨lead, rfl⟩
  obtain ⟨rest, hall, hkinds⟩ := exists_items_of_forall fun piece hpiece =>
    (not_faulty_iff hfirst hlead).mp (hothers piece hpiece)
  refine ⟨lead, rest, hlead, hall, hkinds, readPieces_none_eq_ok_iff.mpr ⟨.cons hlead hall, ?_⟩⟩
  exact ⟨kindOf lead, List.forall_mem_cons.mpr ⟨rfl, hkinds⟩⟩

theorem readPieces_of_first_fault {before after : List ι} {piece : ι}
    (hbefore : ∀ other ∈ before, ¬ Faulty read kindOf (before ++ piece :: after) other)
    (hpiece : Faulty read kindOf (before ++ piece :: after) piece) :
    readPieces read kindOf none (before ++ piece :: after) =
      (read piece >>= fun _ => .error .mixedKinds) := by
  cases before with
  | nil =>
    -- The first piece is of its own kind, so it is not read.
    rcases hpiece with ⟨e, hread⟩ | ⟨first, lead, item, hfirst, hlead, hread, hkind⟩
    · rw [List.nil_append, readPieces, hread]
      rfl
    · cases hfirst
      rw [hlead] at hread
      cases hread
      exact absurd rfl hkind
  | cons first others =>
    obtain ⟨lead, rest, hlead, -, hkinds, hread⟩ := exists_items_of_sound rfl hbefore
    have hdeclared := declaredAfter_of_forall (List.cons_ne_nil lead rest)
      (List.forall_mem_cons.mpr ⟨rfl, hkinds⟩) none
    rw [readPieces_append, hread]
    simp only [bind, Except.bind, hdeclared]
    rw [readPieces]
    cases hitem : read piece with
    | error e => rfl
    | ok item =>
      have hkind : kindOf lead ≠ kindOf item := fun hkind =>
        (not_faulty_iff rfl hlead).mpr ⟨item, hitem, hkind.symm⟩ hpiece
      have hdiffers : ¬ (some (kindOf lead)).all (· = kindOf item) = true := by
        simpa using hkind
      simp only [bind, Except.bind, if_neg hdiffers]
      rfl

theorem firstFaultWins_of_readPieces (hne : pieces ≠ []) {build : List α → β}
    {kindOfWhole : β → Kind}
    (hkind : ∀ lead rest, readPieces read kindOf none pieces = .ok (lead :: rest) →
      kindOfWhole (build (lead :: rest)) = kindOf lead) :
    FirstFaultWins read kindOf pieces build kindOfWhole
      (build <$> readPieces read kindOf none pieces) where
  of_sound hsound := by
    obtain ⟨first, others, rfl⟩ := List.exists_cons_of_ne_nil hne
    obtain ⟨lead, rest, hlead, hall, hkinds, hread⟩ := exists_items_of_sound rfl hsound
    refine ⟨lead, rest, .cons hlead hall, hkinds, ?_, hkind lead rest hread⟩
    rw [hread]
    rfl
  of_error := by
    rintro before piece after e rfl hbefore hread
    rw [readPieces_of_first_fault hbefore (.inl ⟨e, hread⟩), hread]
    rfl
  of_kind := by
    rintro before piece after item rfl hbefore hpiece hread
    rw [readPieces_of_first_fault hbefore hpiece, hread]
    rfl

theorem FirstFaultWins.congr {others : List ι} {build buildOther : List α → β}
    {kindOfWhole : β → Kind} {outcome other : Except RollError β}
    (h : FirstFaultWins read kindOf pieces build kindOfWhole outcome)
    (hother : FirstFaultWins read kindOf others buildOther kindOfWhole other)
    (hsame : SameUpToFault read kindOf pieces others) : other = outcome := by
  obtain ⟨before, piece, after, behind, rfl, rfl, hbefore, hpiece⟩ := hsame
  -- Whether a piece is at fault depends on the first piece alone.
  have hfaulty : Faulty read kindOf (before ++ piece :: behind) =
      Faulty read kindOf (before ++ piece :: after) := by
    funext other
    rw [Faulty, Faulty, List.head?_append, List.head?_append]
    rfl
  have hbefore' := hbefore
  have hpiece' := hpiece
  rw [← hfaulty] at hbefore' hpiece'
  cases hread : read piece with
  | error e =>
    rw [h.of_error before piece after e rfl hbefore hread,
      hother.of_error before piece behind e rfl hbefore' hread]
  | ok item =>
    rw [h.of_kind before piece after item rfl hbefore hpiece hread,
      hother.of_kind before piece behind item rfl hbefore' hpiece' hread]

end

/-! ### Sums and groups -/

theorem Term.leadingKind_append {terms : List Term} (h : terms ≠ []) (others : List Term) :
    Term.leadingKind (terms ++ others) = Term.leadingKind terms := by
  cases terms with
  | nil => exact absurd rfl h
  | cons term terms => rfl

def Braces.behindOpening : List Char → List Char
  | '{' :: body => body
  | body => body

theorem Member.parseLoneGroup_eq {options : Options} {text : List Char}
    (h : admitGroup options text = .ok ()) :
    Member.parseLoneGroup options text =
      (Member.group · (Braces.splitGroup (Braces.behindOpening text)).2) <$>
        readPieces (Expression.parse options) Expression.kind none
          (Braces.splitGroup (Braces.behindOpening text)).1 := by
  unfold Member.parseLoneGroup
  rw [h]
  exact Member.parseGroup_eq options (Braces.behindOpening text)

theorem Expression.firstFaultWins (options : Options) (text : List Char) :
    FirstFaultWins (Member.parse options) Member.kind (Braces.split '+' text) id Expression.kind
      (Expression.parse options text) := by
  rw [Expression.parse_eq, ← id_map (readPieces _ _ _ _)]
  have hne : Braces.split '+' text ≠ [] := Braces.splitFrom_ne_nil '+' 0 text
  refine firstFaultWins_of_readPieces hne ?_
  intro lead rest hread
  rw [← Expression.parse_eq] at hread
  obtain ⟨-, hmembers⟩ := Expression.ofKind_of_parse hread
  exact Term.leadingKind_append
    (terms_ne_nil_of_formed.1 lead (hmembers lead (List.mem_cons_self ..))) _

theorem Member.firstFaultWins {options : Options} {text : List Char}
    (h : admitGroup options text = .ok ()) :
    FirstFaultWins (Expression.parse options) Expression.kind
      (Braces.splitGroup (Braces.behindOpening text)).1
      (Member.group · (Braces.splitGroup (Braces.behindOpening text)).2) Member.kind
      (Member.parseLoneGroup options text) := by
  rw [Member.parseLoneGroup_eq h]
  refine firstFaultWins_of_readPieces (Braces.splitGroup_ne_nil _) ?_
  intro lead rest hread
  obtain ⟨hall, -⟩ := readPieces_none_eq_ok_iff.mp hread
  obtain ⟨first, others, hlead, -, hpieces⟩ := List.forall₂_cons_right_iff.mp hall
  exact Term.leadingKind_append
    (terms_ne_nil_of_formed.2 lead (Expression.ofKind_of_parse hlead)) _

/-- The first fault wins. The pieces of a sum are those between the plus signs, and those of a group
that is allowed and not nested too deep stand between its commas. Text behind the first fault does
not change how the reading ends. -/
theorem first_fault_wins (options : Options) (text : List Char) :
    let groupPieces := fun text => (Braces.splitGroup (Braces.behindOpening text)).1
    let trailing := (Braces.splitGroup (Braces.behindOpening text)).2
    (FirstFaultWins (Member.parse options) Member.kind (Braces.split '+' text) id Expression.kind
        (Expression.parse options text) ∧
      ∀ other, SameUpToFault (Member.parse options) Member.kind (Braces.split '+' text)
          (Braces.split '+' other) →
        Expression.parse options other = Expression.parse options text) ∧
    (options.groups = true → Braces.nestingDepth text ≤ maxDepth →
      FirstFaultWins (Expression.parse options) Expression.kind (groupPieces text)
        (Member.group · trailing) Member.kind (Member.parseLoneGroup options text) ∧
      ∀ other, Braces.nestingDepth other ≤ maxDepth →
        SameUpToFault (Expression.parse options) Expression.kind (groupPieces text)
          (groupPieces other) →
        Member.parseLoneGroup options other = Member.parseLoneGroup options text) := by
  intro groupPieces trailing
  refine ⟨⟨Expression.firstFaultWins options text, ?_⟩, ?_⟩
  · intro other hsame
    exact (Expression.firstFaultWins options text).congr (Expression.firstFaultWins options other)
      hsame
  · intro hgroups hdepth
    have htext := Member.firstFaultWins (admitGroup_eq_ok_iff.mpr ⟨hgroups, hdepth⟩)
    refine ⟨htext, ?_⟩
    intro other hother hsame
    have hwins := Member.firstFaultWins (admitGroup_eq_ok_iff.mpr ⟨hgroups, hother⟩)
    exact htext.congr hwins hsame

/-- An error in front of a piece of another kind, such a piece in front of an error, a group whose
second part has parts of two kinds, and a group without a fault. -/
theorem first_fault_wins_competing :
    let options : Options := { groups := true }
    Expression.parse options "1d6+xyz+1d6>3".toList = .error .noTerm ∧
      Expression.parse options "1d6+1d6>3+xyz".toList = .error .mixedKinds ∧
      Member.parseLoneGroup options "\x7b1d6,\x7b2d6,1d4>2\x7d,xyz\x7d".toList =
        .error .mixedKinds ∧
      Member.parseLoneGroup options "\x7b1d6,2d6\x7dkh".toList =
        .ok (.group [[.term ⟨1, .sided 6, []⟩], [.term ⟨2, .sided 6, []⟩]] ['k', 'h']) := by
  intro options
  have hmember : Member.parse options "1d6".toList = .ok (.term ⟨1, .sided 6, []⟩) := by
    unfold options
    cbv
  have hpart : Expression.parse options "1d6".toList = .ok [.term ⟨1, .sided 6, []⟩] := by
    unfold options
    cbv
  have hsound : ∀ rest, ∀ other ∈ ["1d6".toList],
      ¬ Faulty (Member.parse options) Member.kind ("1d6".toList :: rest) other := by
    intro rest other hother
    rw [List.mem_singleton.mp hother, not_faulty_iff rfl hmember]
    exact ⟨_, hmember, rfl⟩
  refine ⟨?_, ?_, ?_, ?_⟩
  · have hread : Member.parse options "xyz".toList = .error .noTerm := by
      unfold options
      cbv
    exact (first_fault_wins options "1d6+xyz+1d6>3".toList).1.1.of_error ["1d6".toList] _
      ["1d6>3".toList] _ rfl (hsound _) hread
  · have hread : Member.parse options "1d6>3".toList =
        .ok (.term ⟨1, .sided 6, [⟨none, ⟨.greater, some 3⟩⟩]⟩) := by
      unfold options
      cbv
    exact (first_fault_wins options "1d6+1d6>3+xyz".toList).1.1.of_kind ["1d6".toList] _
      ["xyz".toList] _ rfl (hsound _) (.inr ⟨_, _, _, rfl, hmember, hread, by decide⟩) hread
  · have hread : Expression.parse options "\x7b2d6,1d4>2\x7d".toList = .error .mixedKinds := by
      unfold options
      cbv
    have hwins := ((first_fault_wins options "\x7b1d6,\x7b2d6,1d4>2\x7d,xyz\x7d".toList).2 rfl
      (by decide)).1
    refine hwins.of_error ["1d6".toList] _ ["xyz".toList] _ rfl ?_ hread
    intro other hother
    rw [List.mem_singleton.mp hother, not_faulty_iff rfl hpart]
    exact ⟨_, hpart, rfl⟩
  · have hread : Expression.parse options "2d6".toList = .ok [.term ⟨2, .sided 6, []⟩] := by
      unfold options
      cbv
    have hwins := ((first_fault_wins options "\x7b1d6,2d6\x7dkh".toList).2 rfl (by decide)).1
    have hsound : ∀ piece ∈ ["1d6".toList, "2d6".toList], ¬ Faulty (Expression.parse options)
        Expression.kind ["1d6".toList, "2d6".toList] piece := by
      intro piece hpiece
      rw [not_faulty_iff rfl hpart]
      obtain rfl | rfl := List.mem_pair.mp hpiece
      · exact ⟨_, hpart, rfl⟩
      · exact ⟨_, hread, rfl⟩
    obtain ⟨lead, rest, hall, -, houtcome, -⟩ := hwins.of_sound hsound
    obtain ⟨_, _, hlead, hall, ⟨⟩⟩ := List.forall₂_cons_right_iff.mp hall
    obtain ⟨second, _, hsecond, ⟨⟩, rfl⟩ := List.forall₂_cons_left_iff.mp hall
    cases hpart.symm.trans hlead
    cases hread.symm.trans hsecond
    exact houtcome

end DiceNotation
