import DiceNotation.Proofs.KindAgreement
import DiceNotation.Proofs.NestingDepth
import DiceNotation.Proofs.Observation

/-!
# Groups and flat sums

A group is the sum of its parts. Its text is read by cutting out its parts and reading each one as
a sum, the flat sum by splitting at all plus signs at once, but the same pieces are read and their
kinds are found to agree in the same cases.
-/
namespace DiceNotation

theorem forall₂_imp_of_mem {α β : Type} {R S : α → β → Prop} {xs : List α} {ys : List β}
    (h : List.Forall₂ R xs ys) (himp : ∀ x, ∀ y ∈ ys, R x y → S x y) : List.Forall₂ S xs ys := by
  induction h with
  | nil => exact .nil
  | cons hxy _ ih =>
    obtain ⟨hy, hys⟩ := List.forall_mem_cons.mp fun y hy x => himp x y hy
    exact .cons (hy _ hxy) (ih fun x y hmem => hys y hmem x)

theorem forall₂_flatMap_iff {α β γ : Type} {R : β → γ → Prop} {piecesOf : α → List β}
    {xs : List α} {ys : List γ} :
    List.Forall₂ R (xs.flatMap piecesOf) ys ↔
      ∃ cuts, List.Forall₂ (fun x cut => List.Forall₂ R (piecesOf x) cut) xs cuts ∧
        ys = cuts.flatten := by
  induction xs generalizing ys with
  | nil =>
    constructor
    · intro h
      cases h
      exact ⟨[], .nil, rfl⟩
    · rintro ⟨cuts, h, rfl⟩
      cases h
      exact .nil
  | cons x xs ih =>
    rw [List.flatMap_cons]
    constructor
    · intro h
      have htake := List.forall₂_take (piecesOf x).length h
      have hdrop := List.forall₂_drop (piecesOf x).length h
      rw [List.take_left] at htake
      rw [List.drop_left] at hdrop
      obtain ⟨cuts, hcuts, hflat⟩ := ih.mp hdrop
      refine ⟨ys.take (piecesOf x).length :: cuts, .cons htake hcuts, ?_⟩
      rw [List.flatten_cons, ← hflat, List.take_append_drop]
    · rintro ⟨cuts, h, rfl⟩
      cases h with
      | cons hcut hcuts =>
        rw [List.flatten_cons]
        exact List.rel_append hcut (ih.mpr ⟨_, hcuts, rfl⟩)

theorem oneKind_flatten_iff {sums : List (List Member)}
    (h : ∀ sum ∈ sums, Expression.OfKind (Expression.kind sum) sum) :
    OneKind Member.kind sums.flatten ↔ OneKind Expression.kind sums := by
  constructor
  · rintro ⟨kind, hkind⟩
    refine ⟨kind, ?_⟩
    intro sum hsum
    obtain ⟨hne, hmembers⟩ := h sum hsum
    obtain ⟨member, hmember⟩ := List.exists_mem_of_ne_nil _ hne
    have hof : member.OfKind (Expression.kind sum) := hmembers member hmember
    rw [← hof.kind_eq]
    exact hkind member (List.mem_flatten.mpr ⟨sum, hsum, hmember⟩)
  · rintro ⟨kind, hkind⟩
    refine ⟨kind, ?_⟩
    intro member hmember
    obtain ⟨sum, hsum, hmember⟩ := List.mem_flatten.mp hmember
    obtain ⟨-, hmembers⟩ := h sum hsum
    have hof : member.OfKind (Expression.kind sum) := hmembers member hmember
    rw [hof.kind_eq, hkind sum hsum]

section

variable {options : Options} {parts : List (List Char)} {members : List Member}

theorem Expression.parse_join_plus_iff (hne : parts ≠ [])
    (hparts : ∀ part ∈ parts, Braces.balance part = 0) :
    Expression.parse options (Braces.join '+' parts) = .ok members ↔
      ∃ sums, List.Forall₂ (fun part sum => Expression.parse options part = .ok sum) parts sums ∧
        OneKind Expression.kind sums ∧ members = sums.flatten := by
  rw [Expression.parse_eq_ok_iff, Braces.split_join rfl hne hparts, forall₂_flatMap_iff]
  constructor
  · rintro ⟨⟨sums, hall, rfl⟩, kind, hkind⟩
    have hread : List.Forall₂ (fun part sum => Expression.parse options part = .ok sum)
        parts sums := by
      refine forall₂_imp_of_mem hall ?_
      intro part sum hsum hpieces
      refine Expression.parse_eq_ok_iff.mpr ⟨hpieces, kind, ?_⟩
      intro member hmember
      exact hkind member (List.mem_flatten.mpr ⟨sum, hsum, hmember⟩)
    have hof := forall_right_of_forall₂ (hread.imp fun _ _ => Expression.ofKind_of_parse)
    exact ⟨sums, hread, (oneKind_flatten_iff hof).mp ⟨kind, hkind⟩, rfl⟩
  · rintro ⟨sums, hread, hkind, rfl⟩
    have hof := forall_right_of_forall₂ (hread.imp fun _ _ => Expression.ofKind_of_parse)
    refine ⟨⟨sums, ?_, rfl⟩, (oneKind_flatten_iff hof).mpr hkind⟩
    exact hread.imp fun _ _ hsum => (Expression.parse_eq_ok_iff.mp hsum).1

theorem Expression.parse_group_text_iff {behind : List Char} (hgroups : options.groups = true)
    (hne : parts ≠ []) (hparts : ∀ part ∈ parts, Braces.FitsGroup (maxDepth - 1) part)
    (hbehind : ∀ c ∈ behind, c ≠ '{' ∧ c ≠ '}' ∧ c ≠ '+') :
    Expression.parse options ('{' :: Braces.join ',' parts ++ '}' :: behind) = .ok members ↔
      ∃ sums, List.Forall₂ (fun part sum => Expression.parse options part = .ok sum) parts sums ∧
        OneKind Expression.kind sums ∧ members = [.group sums behind] := by
  have hbal : Braces.Balanced (Braces.join ',' parts) :=
    Braces.balanced_join rfl hne fun part hp => (hparts part hp).balanced
  have hweight : ∀ c ∈ behind, Braces.weight c = 0 := by
    intro c hc
    obtain ⟨hopen, hclose, -⟩ := hbehind c hc
    exact Braces.weight_of_ne hopen hclose
  have hhides : Braces.Hides '+' 0 ('{' :: Braces.join ',' parts ++ '}' :: behind) :=
    Braces.hides_braced rfl hbal fun hc => (hbehind _ hc).2.2 rfl
  have hallowed : admitGroup options ('{' :: (Braces.join ',' parts ++ '}' :: behind)) = .ok () :=
    admitGroup_eq_ok_iff.mpr ⟨hgroups, Braces.nestingDepth_group_le hne hparts hweight⟩
  rw [Expression.parse_eq_ok_iff, Braces.split_of_hides hhides, List.forall₂_cons_left_iff]
  simp only [List.cons_append, Member.parse_brace_eq_ok_iff, hallowed,
    Braces.splitGroup_join hne hparts, List.forall₂_nil_left_iff]
  constructor
  · rintro ⟨⟨_, _, ⟨-, sums, hread, hkind, rfl⟩, rfl, rfl⟩, -⟩
    exact ⟨sums, hread, hkind, rfl⟩
  · rintro ⟨sums, hread, hkind, rfl⟩
    refine ⟨⟨_, _, ⟨trivial, sums, hread, hkind, rfl⟩, rfl, rfl⟩,
      (Member.group sums behind).kind, ?_⟩
    intro member hmember
    rw [List.mem_singleton.mp hmember]

theorem Expression.exists_parse_group_iff {behind : List Char} (hgroups : options.groups = true)
    (hne : parts ≠ []) (hparts : ∀ part ∈ parts, Braces.FitsGroup (maxDepth - 1) part)
    (hbehind : ∀ c ∈ behind, c ≠ '{' ∧ c ≠ '}' ∧ c ≠ '+') :
    (∃ group,
      Expression.parse options ('{' :: Braces.join ',' parts ++ '}' :: behind) = .ok group) ↔
      ∃ flat, Expression.parse options (Braces.join '+' parts) = .ok flat := by
  have hgroup := fun members =>
    @parse_group_text_iff options parts members behind hgroups hne hparts hbehind
  have hflat := fun members => @parse_join_plus_iff options parts members hne
    fun part hp => (hparts part hp).balanced.balance_eq
  constructor
  · rintro ⟨group, hread⟩
    obtain ⟨sums, hsums, hkind, -⟩ := (hgroup group).mp hread
    exact ⟨sums.flatten, (hflat _).mpr ⟨sums, hsums, hkind, rfl⟩⟩
  · rintro ⟨flat, hread⟩
    obtain ⟨sums, hsums, hkind, -⟩ := (hflat flat).mp hread
    exact ⟨[.group sums behind], (hgroup _).mpr ⟨sums, hsums, hkind, rfl⟩⟩

theorem Expression.terms_group_eq_flat {behind : List Char} (hgroups : options.groups = true)
    (hne : parts ≠ []) (hparts : ∀ part ∈ parts, Braces.FitsGroup (maxDepth - 1) part)
    (hbehind : ∀ c ∈ behind, c ≠ '{' ∧ c ≠ '}' ∧ c ≠ '+') {group flat : Expression}
    (hgroup : Expression.parse options ('{' :: Braces.join ',' parts ++ '}' :: behind) =
      .ok group)
    (hflat : Expression.parse options (Braces.join '+' parts) = .ok flat) :
    Expression.terms group = Expression.terms flat := by
  obtain ⟨sums, hsums, -, rfl⟩ :=
    (Expression.parse_group_text_iff hgroups hne hparts hbehind).mp hgroup
  obtain ⟨others, hothers, -, rfl⟩ := (Expression.parse_join_plus_iff hne
    fun part hp => (hparts part hp).balanced.balance_eq).mp hflat
  have hsame : sums = others := by
    refine List.right_unique_forall₂' ?_ hsums hothers
    intro part sum other hsum hother
    exact Except.ok.inj (hsum.symm.trans hother)
  calc Expression.terms [.group sums behind]
      = Expression.termsOfParts sums := by
        rw [Expression.terms_eq_flatMap, List.flatMap_singleton, Member.terms]
    _ = others.flatMap Expression.terms := by
        rw [hsame, Expression.termsOfParts_eq_flatMap]
    _ = Expression.terms others.flatten := (Expression.terms_flatten others).symm

/-- A group and the flat sum of its parts are read in the same cases. What is read is of the same
kind and looks the same when it is thrown, on any source. -/
theorem Expression.group_like_flat_sum {behind : List Char} (hgroups : options.groups = true)
    (hne : parts ≠ []) (hparts : ∀ part ∈ parts, Braces.FitsGroup (maxDepth - 1) part)
    (hbehind : ∀ c ∈ behind, c ≠ '{' ∧ c ≠ '}' ∧ c ≠ '+') :
    let groupRead := Expression.parse options ('{' :: Braces.join ',' parts ++ '}' :: behind)
    let flatRead := Expression.parse options (Braces.join '+' parts)
    ((∃ group, groupRead = .ok group) ↔ ∃ flat, flatRead = .ok flat) ∧
    ∀ group flat, groupRead = .ok group → flatRead = .ok flat →
      Expression.kind group = Expression.kind flat ∧
      ∀ {σ : Type} (source : Source σ) (s : σ),
        Expression.observe source group s = Expression.observe source flat s := by
  refine ⟨Expression.exists_parse_group_iff hgroups hne hparts hbehind, ?_⟩
  intro group flat hgroup hflat
  have hterms := Expression.terms_group_eq_flat hgroups hne hparts hbehind hgroup hflat
  have hkind : Expression.kind group = Expression.kind flat := by
    rw [Expression.kind, Expression.kind, hterms]
  refine ⟨hkind, ?_⟩
  intro σ source s
  have hgroupOf := Expression.ofKind_of_parse hgroup
  have hflatOf := Expression.ofKind_of_parse hflat
  rw [← hkind] at hflatOf
  exact congrFun (Expression.observe_congr source hgroupOf hflatOf hterms) s

/-- A part that holds a group itself, and a comma behind the closing brace. -/
theorem Expression.group_like_flat_sum_nested :
    let parts := ["2d6+\x7b1d4,1dF\x7dx".toList, "1d8".toList]
    let group : Expression := [.group [[.term ⟨2, .sided 6, []⟩,
      .group [[.term ⟨1, .sided 4, []⟩], [.term ⟨1, .fate, []⟩]] ['x']],
      [.term ⟨1, .sided 8, []⟩]] [',', 'k']]
    Expression.parse { groups := true } ('{' :: Braces.join ',' parts ++ '}' :: [',', 'k']) =
        .ok group ∧
      ∃ flat, Expression.parse { groups := true } (Braces.join '+' parts) = .ok flat ∧
        ∀ (source : Source Nat) (s : Nat),
          Expression.observe source group s = Expression.observe source flat s := by
  intro parts group
  have hread : Expression.parse { groups := true }
      ('{' :: Braces.join ',' parts ++ '}' :: [',', 'k']) = .ok group := by
    unfold parts group
    cbv
  obtain ⟨hiff, hsame⟩ := @Expression.group_like_flat_sum { groups := true } parts [',', 'k'] rfl
    (by decide) (by decide) (by simp)
  obtain ⟨flat, hflat⟩ := hiff.mp ⟨group, hread⟩
  exact ⟨hread, flat, hflat, (hsame group flat hread hflat).2⟩

end

end DiceNotation
