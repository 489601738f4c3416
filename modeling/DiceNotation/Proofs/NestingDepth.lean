import DiceNotation.Proofs.Splitting

/-!
# The deepest level of braces

A part of a text is nested no deeper than the whole. Balanced texts are scanned independently of
each other: side by side the deeper one decides, and braces around one add a level.
-/
namespace DiceNotation.Braces

theorem foldl_deepen_max (text : List Char) (level m n : Nat) :
    text.foldl deepen (level, max m n) =
      ((text.foldl deepen (level, n)).1, max m (text.foldl deepen (level, n)).2) := by
  induction text generalizing level n with
  | nil => rfl
  | cons c text ih =>
    simp only [List.foldl_cons, deepen]
    split
    · rw [Nat.max_assoc, ih]
    · split <;> rw [ih]

theorem le_foldl_deepen (levels : Nat × Nat) (text : List Char) :
    levels.2 ≤ (text.foldl deepen levels).2 := by
  induction text generalizing levels with
  | nil => exact Nat.le_refl _
  | cons c text ih =>
    refine Nat.le_trans ?_ (ih (deepen levels c))
    unfold deepen
    split
    · exact Nat.le_max_left _ _
    · split <;> exact Nat.le_refl _

theorem foldl_deepen_mono {level higher deepest deeper : Nat} (hlevel : level ≤ higher)
    (hdeepest : deepest ≤ deeper) (text : List Char) :
    (text.foldl deepen (level, deepest)).2 ≤ (text.foldl deepen (higher, deeper)).2 := by
  induction text generalizing level higher deepest deeper with
  | nil => exact hdeepest
  | cons c text ih =>
    simp only [List.foldl_cons, deepen]
    split
    · exact ih (by omega) (by omega)
    · split
      · exact ih (by omega) hdeepest
      · exact ih hlevel hdeepest

theorem nestingDepth_le_of_infix {inner text : List Char} (h : inner <:+: text) :
    nestingDepth inner ≤ nestingDepth text := by
  obtain ⟨before, after, rfl⟩ := h
  rw [nestingDepth, nestingDepth, List.foldl_append, List.foldl_append]
  refine Nat.le_trans ?_ (le_foldl_deepen _ after)
  exact foldl_deepen_mono (Nat.zero_le _) (Nat.zero_le _) inner

/-- More open braces in front of a covered text lift the whole scan. -/
theorem foldl_deepen_add {text : List Char} {level : Nat} (h : Covered level text)
    (deepest more : Nat) :
    text.foldl deepen (level + more, deepest + more) =
      ((text.foldl deepen (level, deepest)).1 + more,
        (text.foldl deepen (level, deepest)).2 + more) := by
  induction text generalizing level deepest with
  | nil => rfl
  | cons c text ih =>
    have hc := (covered_cons.mp h).2
    simp only [List.foldl_cons, deepen]
    by_cases hopen : c = '{'
    · subst hopen
      have hl : ((level + 1 : Nat) : Int) = level + weight '{' := rfl
      rw [← hl] at hc
      simp only [if_true]
      rw [← ih hc, Nat.add_right_comm level, Nat.add_max_add_right]
    · by_cases hclose : c = '}'
      · subst hclose
        cases level with
        | zero =>
          have := hc [] List.nil_prefix
          simp [balance, weight] at this
        | succ level =>
          have hw : weight '}' = -1 := rfl
          have hl : ((level + 1 : Nat) : Int) + weight '}' = level := by omega
          rw [hl] at hc
          have hm : level + 1 + more - 1 = level + more := by omega
          simp only [if_neg hopen, if_true, Nat.add_sub_cancel, hm]
          exact ih hc deepest
      · have hw : weight c = 0 := by simp [weight, hopen, hclose]
        rw [hw, Int.add_zero] at hc
        simp only [if_neg hopen, if_neg hclose]
        exact ih hc deepest

theorem foldl_deepen_fst {text : List Char} {level : Nat} (h : Covered level text)
    (deepest : Nat) : ((text.foldl deepen (level, deepest)).1 : Int) = level + balance text := by
  induction text generalizing level deepest with
  | nil => simp [balance]
  | cons c text ih =>
    have hc := (covered_cons.mp h).2
    have hnext : ((deepen (level, deepest) c).1 : Int) = level + weight c := by
      have h0 := hc [] List.nil_prefix
      by_cases hopen : c = '{'
      · simp [deepen, weight, hopen]
      · by_cases hclose : c = '}'
        · simp only [weight, hclose, balance] at h0
          simp only [deepen, weight, hclose]
          simp at h0 ⊢
          omega
        · simp [deepen, weight, hopen, hclose]
    rw [← hnext] at hc
    rw [List.foldl_cons, balance, ← Int.add_assoc, ← hnext]
    exact ih hc _

theorem foldl_deepen_balanced {text : List Char} (h : Balanced text) :
    text.foldl deepen (0, 0) = (0, nestingDepth text) := by
  have hcov : Covered (0 : Nat) text := h.covered
  have hfst := foldl_deepen_fst hcov 0
  rw [h.balance_eq] at hfst
  exact Prod.ext (by omega) rfl

theorem nestingDepth_append {text : List Char} (h : Balanced text) (rest : List Char) :
    nestingDepth (text ++ rest) = max (nestingDepth text) (nestingDepth rest) := by
  have hmax := foldl_deepen_max rest 0 (nestingDepth text) 0
  rw [Nat.max_zero] at hmax
  rw [nestingDepth, List.foldl_append, foldl_deepen_balanced h, hmax]
  rfl

theorem nestingDepth_braced {inside : List Char} (h : Balanced inside) (behind : List Char) :
    nestingDepth ('{' :: inside ++ '}' :: behind) =
      max (nestingDepth inside + 1) (nestingDepth behind) := by
  have hin : inside.foldl deepen (0 + 1, 0 + 1) = (0 + 1, nestingDepth inside + 1) := by
    rw [foldl_deepen_add h.covered 0 1, foldl_deepen_balanced h]
  have hmax := foldl_deepen_max behind 0 (nestingDepth inside + 1) 0
  rw [Nat.max_zero] at hmax
  calc nestingDepth ('{' :: inside ++ '}' :: behind)
      = (behind.foldl deepen (deepen (inside.foldl deepen (0 + 1, 0 + 1)) '}')).2 := by
        rw [nestingDepth, List.cons_append, List.foldl_cons, List.foldl_append, List.foldl_cons]
        rfl
    _ = (behind.foldl deepen (0, nestingDepth inside + 1)).2 := by
        rw [hin]
        rfl
    _ = max (nestingDepth inside + 1) (nestingDepth behind) := by
        rw [hmax]
        rfl

theorem foldl_deepen_of_weight {text : List Char} (h : ∀ c ∈ text, weight c = 0)
    (levels : Nat × Nat) : text.foldl deepen levels = levels := by
  induction text with
  | nil => rfl
  | cons c text ih =>
    obtain ⟨hc, htext⟩ := List.forall_mem_cons.mp h
    have hstep : deepen levels c = levels := by
      by_cases hopen : c = '{'
      · simp [weight, hopen] at hc
      · by_cases hclose : c = '}'
        · simp [weight, hclose] at hc
        · simp [deepen, hopen, hclose]
    rw [List.foldl_cons, hstep, ih htext]

theorem nestingDepth_append_of_weight (text : List Char) {rest : List Char}
    (h : ∀ c ∈ rest, weight c = 0) : nestingDepth (text ++ rest) = nestingDepth text := by
  rw [nestingDepth, List.foldl_append, foldl_deepen_of_weight h, nestingDepth]

theorem nestingDepth_of_weight {text : List Char} (h : ∀ c ∈ text, weight c = 0) :
    nestingDepth text = 0 := by
  rw [nestingDepth, foldl_deepen_of_weight h]

theorem nestingDepth_join_le {separator : Char} (hs : weight separator = 0)
    {pieces : List (List Char)} {deepest : Nat} (hne : pieces ≠ [])
    (hb : ∀ piece ∈ pieces, Balanced piece) (hd : ∀ piece ∈ pieces, nestingDepth piece ≤ deepest) :
    nestingDepth (join separator pieces) ≤ deepest := by
  have hboth : Balanced (join separator pieces) ∧
      nestingDepth (join separator pieces) ≤ deepest := by
    refine join_induction (P := fun text => Balanced text ∧ nestingDepth text ≤ deepest) hne
      (fun piece h => ⟨hb piece h, hd piece h⟩) ?_
    rintro piece rest ⟨hpb, hpd⟩ ⟨hrb, hrd⟩
    have hflat : ∀ c ∈ [separator], weight c = 0 := by simpa using hs
    have hsep := balanced_of_weight hflat
    have hdepth : nestingDepth (separator :: rest) = nestingDepth rest := by
      rw [← List.singleton_append, nestingDepth_append hsep, nestingDepth_of_weight hflat]
      exact Nat.zero_max _
    refine ⟨hpb.append (hsep.append hrb), ?_⟩
    rw [nestingDepth_append hpb, hdepth]
    exact Nat.max_le.mpr ⟨hpd, hrd⟩
  exact hboth.2

/-- A text that can be a part of a group: its braces match and are nested no deeper than `depth`,
and none of its commas stands outside them. -/
structure FitsGroup (depth : Nat) (text : List Char) : Prop where
  balanced : Balanced text
  hides_comma : Hides ',' 0 text
  depth_le : nestingDepth text ≤ depth

instance (depth : Nat) (text : List Char) : Decidable (FitsGroup depth text) :=
  decidable_of_iff (Balanced text ∧ Hides ',' 0 text ∧ nestingDepth text ≤ depth)
    ⟨fun h => ⟨h.1, h.2.1, h.2.2⟩, fun h => ⟨h.balanced, h.hides_comma, h.depth_le⟩⟩

theorem FitsGroup.mono {depth depth' : Nat} {text : List Char} (h : FitsGroup depth text)
    (hd : depth ≤ depth') : FitsGroup depth' text :=
  ⟨h.balanced, h.hides_comma, h.depth_le.trans hd⟩

theorem fitsGroup_of_weight {text : List Char} (h : ∀ c ∈ text, weight c = 0)
    (hcomma : ',' ∉ text) (depth : Nat) : FitsGroup depth text where
  balanced := balanced_of_weight h
  hides_comma := hides_of_not_mem hcomma 0
  depth_le := by
    rw [nestingDepth_of_weight h]
    exact Nat.zero_le depth

theorem nestingDepth_group_le {depth : Nat} {parts : List (List Char)} (hne : parts ≠ [])
    (h : ∀ part ∈ parts, FitsGroup depth part) {behind : List Char}
    (hb : ∀ c ∈ behind, weight c = 0) :
    nestingDepth ('{' :: join ',' parts ++ '}' :: behind) ≤ depth + 1 := by
  have hbal : Balanced (join ',' parts) :=
    balanced_join rfl hne fun part hp => (h part hp).balanced
  have hle : nestingDepth (join ',' parts) ≤ depth :=
    nestingDepth_join_le rfl hne (fun part hp => (h part hp).balanced)
      fun part hp => (h part hp).depth_le
  rw [nestingDepth_braced hbal, nestingDepth_of_weight hb, Nat.max_zero]
  exact Nat.succ_le_succ hle

theorem fitsGroup_group {depth : Nat} {parts : List (List Char)} (hne : parts ≠ [])
    (h : ∀ part ∈ parts, FitsGroup depth part) {behind : List Char}
    (hb : ∀ c ∈ behind, weight c = 0) (hcomma : ',' ∉ behind) :
    FitsGroup (depth + 1) ('{' :: join ',' parts ++ '}' :: behind) where
  balanced := (balanced_join rfl hne fun part hp => (h part hp).balanced).braced
    (balanced_of_weight hb)
  hides_comma := hides_braced rfl
    (balanced_join rfl hne fun part hp => (h part hp).balanced) hcomma
  depth_le := nestingDepth_group_le hne h hb

theorem splitGroup_join {depth : Nat} {parts : List (List Char)} (hne : parts ≠ [])
    (h : ∀ part ∈ parts, FitsGroup depth part) (behind : List Char) :
    splitGroup (join ',' parts ++ '}' :: behind) = (parts, behind) := by
  have hbal : Balanced (join ',' parts) :=
    balanced_join rfl hne fun part hp => (h part hp).balanced
  rw [splitGroup_append hbal, split_join_of_hides rfl hne
    (fun part hp => (h part hp).balanced.balance_eq) fun part hp => (h part hp).hides_comma]

theorem fitsGroup_join_plus {depth : Nat} {pieces : List (List Char)} (hne : pieces ≠ [])
    (h : ∀ piece ∈ pieces, FitsGroup depth piece) : FitsGroup depth (join '+' pieces) where
  balanced := balanced_join rfl hne fun piece hp => (h piece hp).balanced
  hides_comma := by
    have hboth : balance (join '+' pieces) = 0 ∧ Hides ',' 0 (join '+' pieces) := by
      refine join_induction (P := fun text => balance text = 0 ∧ Hides ',' 0 text) hne
        (fun piece hp => ⟨(h piece hp).balanced.balance_eq, (h piece hp).hides_comma⟩) ?_
      rintro piece rest ⟨hpb, hpc⟩ ⟨hrb, hrc⟩
      refine ⟨by rw [balance_append, balance, hpb, hrb]; rfl, ?_⟩
      rw [hides_append, hides_cons, hpb]
      exact ⟨hpc, fun hc => absurd hc.1 (by decide), hrc⟩
    exact hboth.2
  depth_le := nestingDepth_join_le rfl hne (fun piece hp => (h piece hp).balanced)
    fun piece hp => (h piece hp).depth_le

end DiceNotation.Braces
