import DiceNotation.Proofs.BraceBalance

/-!
# Splitting and joining

A separator splits a text where the braces in front of it match, so texts with matching braces
can be joined and split again. The brace that closes a group is found behind a balanced text.
-/
namespace DiceNotation.Braces

/-- Every separator in the text stands inside braces, if `depth` are open in front of it. -/
def Hides (separator : Char) (depth : Int) (text : List Char) : Prop :=
  ∀ before behind, text = before ++ separator :: behind → depth + balance before ≠ 0

theorem hides_nil (separator : Char) (depth : Int) : Hides separator depth [] := by
  intro before behind h
  simp at h

theorem hides_cons {separator : Char} {depth : Int} {c : Char} {rest : List Char} :
    Hides separator depth (c :: rest) ↔
      ¬ (c = separator ∧ depth = 0) ∧ Hides separator (depth + weight c) rest := by
  constructor
  · intro h
    constructor
    · rintro ⟨rfl, h0⟩
      exact h [] rest rfl (by simp [balance, h0])
    · intro before behind ht
      have hc := h (c :: before) behind (by rw [ht, List.cons_append])
      rwa [balance, ← Int.add_assoc] at hc
  · rintro ⟨hc, h⟩ before behind ht
    cases before with
    | nil =>
      obtain ⟨rfl, rfl⟩ := List.cons.inj ht
      intro h0
      exact hc ⟨rfl, by simpa [balance] using h0⟩
    | cons d before =>
      obtain ⟨rfl, rfl⟩ := List.cons.inj ht
      rw [balance, ← Int.add_assoc]
      exact h before behind rfl

instance Hides.instDecidable (separator : Char) :
    (depth : Int) → (text : List Char) → Decidable (Hides separator depth text)
  | depth, [] => .isTrue (hides_nil separator depth)
  | depth, c :: rest =>
    have := Hides.instDecidable separator (depth + weight c) rest
    decidable_of_iff _ hides_cons.symm

theorem hides_append {separator : Char} {depth : Int} {text rest : List Char} :
    Hides separator depth (text ++ rest) ↔
      Hides separator depth text ∧ Hides separator (depth + balance text) rest := by
  induction text generalizing depth with
  | nil => simp [hides_nil, balance]
  | cons c text ih =>
    rw [List.cons_append, hides_cons, hides_cons, ih, balance, Int.add_assoc, and_assoc]

theorem hides_of_not_mem {separator : Char} {text : List Char} (h : separator ∉ text)
    (depth : Int) : Hides separator depth text := by
  rintro before behind rfl
  simp at h

/-- Behind one more open brace than it needs, a text shows no separator at all. -/
theorem Covered.hides {depth : Int} {text : List Char} (h : Covered depth text)
    (separator : Char) : Hides separator (depth + 1) text := by
  intro before behind ht
  have := h before ⟨separator :: behind, ht.symm⟩
  omega

theorem hides_braced {separator : Char} (hs : weight separator = 0) {inside behind : List Char}
    (h : Balanced inside) (hb : separator ∉ behind) :
    Hides separator 0 ('{' :: inside ++ '}' :: behind) := by
  have hopen : '{' ≠ separator := by
    rintro rfl
    cases hs
  have hclose : '}' ≠ separator := by
    rintro rfl
    cases hs
  rw [hides_append, hides_cons, hides_cons]
  exact ⟨⟨fun hc => hopen hc.1, h.covered.hides separator⟩, fun hc => hclose hc.1,
    hides_of_not_mem hb _⟩

theorem splitFrom_append_of_hides {separator : Char} {depth : Int} {text : List Char}
    (h : Hides separator depth text) (rest : List Char) :
    splitFrom separator depth (text ++ rest) =
      (splitFrom separator (depth + balance text) rest).modifyHead (text ++ ·) := by
  induction text generalizing depth with
  | nil =>
    cases hs : splitFrom separator depth rest with
    | nil => exact absurd hs (splitFrom_ne_nil _ _ _)
    | cons piece pieces => simp [balance, hs]
  | cons c text ih =>
    obtain ⟨hc, ht⟩ := hides_cons.mp h
    rw [List.cons_append, splitFrom, if_neg hc, ih ht, List.modifyHead_modifyHead, balance,
      Int.add_assoc]
    rfl

theorem split_of_hides {separator : Char} {text : List Char} (h : Hides separator 0 text) :
    split separator text = [text] := by
  have hs := splitFrom_append_of_hides h []
  rw [List.append_nil] at hs
  simp [split, hs, splitFrom]

theorem splitFrom_append_separator {separator : Char} (hs : weight separator = 0) {depth : Int}
    {text : List Char} (h : depth + balance text = 0) (rest : List Char) :
    splitFrom separator depth (text ++ separator :: rest) =
      splitFrom separator depth text ++ split separator rest := by
  induction text generalizing depth with
  | nil =>
    have h0 : depth = 0 := by simpa [balance] using h
    simp [splitFrom, split, h0]
  | cons c text ih =>
    rw [balance, ← Int.add_assoc] at h
    rw [List.cons_append, splitFrom, splitFrom]
    split
    · next hc =>
      rw [hc.1, hc.2, hs, Int.add_zero] at h
      rw [ih h, List.cons_append]
    · rw [ih h]
      cases hp : splitFrom separator (depth + weight c) text with
      | nil => exact absurd hp (splitFrom_ne_nil _ _ _)
      | cons piece pieces => rfl

theorem split_append_separator {separator : Char} (hs : weight separator = 0) {text : List Char}
    (h : balance text = 0) (rest : List Char) :
    split separator (text ++ separator :: rest) = split separator text ++ split separator rest :=
  splitFrom_append_separator hs (by rw [h]; rfl) rest

theorem join_cons_cons (separator : Char) (piece next : List Char) (pieces : List (List Char)) :
    join separator (piece :: next :: pieces) =
      piece ++ separator :: join separator (next :: pieces) := by
  simp [join, List.intercalate_cons_cons]

theorem join_singleton (separator : Char) (piece : List Char) : join separator [piece] = piece :=
  List.intercalate_singleton

/-- A property that holds of texts side by side with a separator between them holds of a join. -/
theorem join_induction {separator : Char} {P : List Char → Prop} {pieces : List (List Char)}
    (hne : pieces ≠ []) (hp : ∀ piece ∈ pieces, P piece)
    (hj : ∀ {piece rest}, P piece → P rest → P (piece ++ separator :: rest)) :
    P (join separator pieces) := by
  induction pieces with
  | nil => exact absurd rfl hne
  | cons piece pieces ih =>
    cases pieces with
    | nil =>
      rw [join_singleton]
      exact hp piece (List.mem_cons_self ..)
    | cons next pieces =>
      rw [join_cons_cons]
      exact hj (hp piece (List.mem_cons_self ..))
        (ih (List.cons_ne_nil _ _) fun p h => hp p (List.mem_cons_of_mem _ h))

theorem join_append {separator : Char} {pieces others : List (List Char)} (hp : pieces ≠ [])
    (ho : others ≠ []) :
    join separator (pieces ++ others) =
      join separator pieces ++ separator :: join separator others := by
  induction pieces with
  | nil => exact absurd rfl hp
  | cons piece pieces ih =>
    cases pieces with
    | nil =>
      obtain ⟨next, others, rfl⟩ := List.exists_cons_of_ne_nil ho
      rw [List.singleton_append, join_cons_cons, join_singleton]
    | cons next pieces =>
      have htail := ih (List.cons_ne_nil _ _)
      rw [List.cons_append] at htail
      rw [List.cons_append, List.cons_append, join_cons_cons, htail, join_cons_cons,
        List.append_assoc, List.cons_append]

theorem join_flatMap {α : Type} {separator : Char} {piecesOf : α → List (List Char)}
    {items : List α} (h : ∀ item ∈ items, piecesOf item ≠ []) :
    join separator (items.flatMap piecesOf) =
      join separator (items.map fun item => join separator (piecesOf item)) := by
  induction items with
  | nil => rfl
  | cons item items ih =>
    obtain ⟨hitem, hitems⟩ := List.forall_mem_cons.mp h
    cases items with
    | nil => simp [join_singleton]
    | cons next items =>
      have hne : (next :: items).flatMap piecesOf ≠ [] := by
        rw [List.flatMap_cons]
        exact List.append_ne_nil_of_left_ne_nil (hitems next (List.mem_cons_self ..)) _
      rw [List.flatMap_cons, join_append hitem hne, ih hitems, List.map_cons, List.map_cons,
        List.map_cons, join_cons_cons]

theorem balanced_join {separator : Char} (hs : weight separator = 0) {pieces : List (List Char)}
    (hne : pieces ≠ []) (h : ∀ piece ∈ pieces, Balanced piece) :
    Balanced (join separator pieces) := by
  refine join_induction hne h ?_
  intro piece rest hp hr
  have hseparator : Balanced [separator] := balanced_of_weight (by simpa using hs)
  exact hp.append (hseparator.append hr)

theorem split_join {separator : Char} (hs : weight separator = 0) {pieces : List (List Char)}
    (hne : pieces ≠ []) (h : ∀ piece ∈ pieces, balance piece = 0) :
    split separator (join separator pieces) = pieces.flatMap (split separator) := by
  induction pieces with
  | nil => exact absurd rfl hne
  | cons piece pieces ih =>
    cases pieces with
    | nil => simp [join_singleton]
    | cons next pieces =>
      rw [join_cons_cons, split_append_separator hs (h piece (List.mem_cons_self ..)),
        ih (List.cons_ne_nil _ _) fun p hp => h p (List.mem_cons_of_mem _ hp), ← List.flatMap_cons]

theorem split_join_of_hides {separator : Char} (hs : weight separator = 0)
    {pieces : List (List Char)} (hne : pieces ≠ []) (h : ∀ piece ∈ pieces, balance piece = 0)
    (hh : ∀ piece ∈ pieces, Hides separator 0 piece) :
    split separator (join separator pieces) = pieces := by
  rw [split_join hs hne h, List.flatMap_congr fun piece hp => split_of_hides (hh piece hp)]
  exact List.flatMap_singleton' pieces

theorem cutAtClose_cons {level next : Nat} {c : Char} (h : (next : Int) = level + weight c)
    (text : List Char) : cutAtClose level (c :: text) =
      (cutAtClose next text).map fun parts => (c :: parts.1, parts.2) := by
  rw [cutAtClose.eq_def]
  by_cases hclose : c = '}'
  · subst hclose
    have hw : weight '}' = -1 := rfl
    obtain rfl : level = next + 1 := by omega
    simp
  · have hnext : (if c = '{' then level + 1 else level) = next := by
      by_cases hopen : c = '{'
      · simp only [weight, hopen, if_true] at h ⊢
        omega
      · simp only [weight, hopen, hclose, if_false] at h ⊢
        omega
    simp [hclose, hnext]

/-- The level falls below zero only at a closing brace, and there the search ends. -/
theorem exists_next_level {level : Nat} {c : Char} (h : ¬ (c = '}' ∧ level = 0)) :
    ∃ next : Nat, (next : Int) = level + weight c := by
  have hlevel : 0 ≤ level + weight c := by
    unfold weight
    by_cases hclose : c = '}'
    · have hpos : level ≠ 0 := fun hzero => h ⟨hclose, hzero⟩
      rw [if_neg (by simp [hclose]), if_pos hclose]
      omega
    · rw [if_neg hclose]
      split <;> omega
  obtain ⟨next, hnext⟩ := Int.eq_ofNat_of_zero_le hlevel
  exact ⟨next, hnext.symm⟩

theorem cutAtClose_append {level : Nat} {inside : List Char} (h : Covered level inside)
    (hb : level + balance inside = 0) (behind : List Char) :
    cutAtClose level (inside ++ '}' :: behind) = some (inside, behind) := by
  induction inside generalizing level with
  | nil =>
    have h0 : level = 0 := by
      simp only [balance] at hb
      omega
    simp [cutAtClose, h0]
  | cons c inside ih =>
    rw [balance, ← Int.add_assoc] at hb
    have hc := (covered_cons.mp h).2
    obtain ⟨next, hnext⟩ := Int.eq_ofNat_of_zero_le hc.nonneg
    rw [hnext] at hc hb
    rw [List.cons_append, cutAtClose_cons hnext.symm, ih hc hb, Option.map_some]

theorem splitGroup_append {inside : List Char} (h : Balanced inside) (behind : List Char) :
    splitGroup (inside ++ '}' :: behind) = (split ',' inside, behind) := by
  have hc : cutAtClose 0 (inside ++ '}' :: behind) = some (inside, behind) :=
    cutAtClose_append h.covered (by rw [h.balance_eq]; rfl) behind
  rw [splitGroup, hc]

theorem cutAtClose_eq_some_iff {level : Nat} {text inside behind : List Char} :
    cutAtClose level text = some (inside, behind) ↔
      text = inside ++ '}' :: behind ∧ Covered level inside ∧ level + balance inside = 0 := by
  constructor
  · intro h
    induction text generalizing level inside behind with
    | nil => cases h
    | cons c text ih =>
      by_cases hend : c = '}' ∧ level = 0
      · obtain ⟨rfl, rfl⟩ := hend
        cases h
        exact ⟨rfl, covered_nil.mpr (Int.le_refl 0), rfl⟩
      · obtain ⟨next, hnext⟩ := exists_next_level hend
        rw [cutAtClose_cons hnext] at h
        obtain ⟨⟨inner, tail⟩, hcut, heq⟩ := Option.map_eq_some_iff.mp h
        cases heq
        obtain ⟨rfl, hcovered, hbalance⟩ := ih hcut
        rw [hnext] at hcovered hbalance
        refine ⟨rfl, covered_cons.mpr ⟨Int.natCast_nonneg level, hcovered⟩, ?_⟩
        rw [balance, ← Int.add_assoc]
        exact hbalance
  · rintro ⟨rfl, hcovered, hbalance⟩
    exact cutAtClose_append hcovered hbalance behind

theorem cutAtClose_eq_none_iff {level : Nat} {text : List Char} :
    cutAtClose level text = none ↔ Covered level text := by
  constructor
  · intro h
    induction text generalizing level with
    | nil => exact covered_nil.mpr (Int.natCast_nonneg level)
    | cons c text ih =>
      by_cases hend : c = '}' ∧ level = 0
      · obtain ⟨rfl, rfl⟩ := hend
        cases h
      · obtain ⟨next, hnext⟩ := exists_next_level hend
        rw [cutAtClose_cons hnext, Option.map_eq_none_iff] at h
        have hcovered := ih h
        rw [hnext] at hcovered
        exact covered_cons.mpr ⟨Int.natCast_nonneg level, hcovered⟩
  · intro h
    cases hcut : cutAtClose level text with
    | none => rfl
    | some parts =>
      obtain ⟨rfl, -, hbalance⟩ := cutAtClose_eq_some_iff.mp hcut
      have hbehind := (covered_cons.mp (covered_append.mp h).2).2.nonneg
      have hclose : weight '}' = -1 := rfl
      omega

theorem exists_cutAtClose {level : Nat} {text : List Char} (h : level + balance text < 0) :
    ∃ inside behind, cutAtClose level text = some (inside, behind) := by
  cases hcut : cutAtClose level text with
  | none =>
    have hopen := cutAtClose_eq_none_iff.mp hcut text List.prefix_rfl
    omega
  | some parts => exact ⟨parts.1, parts.2, rfl⟩

theorem cutAtClose_append_right {level : Nat} {text inside behind : List Char}
    (h : cutAtClose level text = some (inside, behind)) (rest : List Char) :
    cutAtClose level (text ++ rest) = some (inside, behind ++ rest) := by
  obtain ⟨rfl, hcovered, hbalance⟩ := cutAtClose_eq_some_iff.mp h
  rw [List.append_assoc, List.cons_append]
  exact cutAtClose_append hcovered hbalance (behind ++ rest)

/-- Once the brace in front is closed, more text only goes behind the closing brace. -/
theorem splitGroup_append_right {body : List Char} (h : balance body < 0) (rest : List Char) :
    splitGroup (body ++ rest) = ((splitGroup body).1, (splitGroup body).2 ++ rest) := by
  obtain ⟨inside, behind, hcut⟩ := @exists_cutAtClose 0 body (by omega)
  rw [splitGroup, splitGroup, hcut, cutAtClose_append_right hcut rest]

/-- Text without a separator goes to the last piece, whose braces match if all others do. -/
theorem exists_splitFrom_append {separator : Char} (hs : weight separator = 0)
    {rest : List Char} (hrest : separator ∉ rest) (depth : Int) (text : List Char) :
    ∃ front last, splitFrom separator depth text = front ++ [last] ∧
      splitFrom separator depth (text ++ rest) = front ++ [last ++ rest] ∧
      balance last = (if front = [] then 0 else depth) + balance text := by
  induction text generalizing depth with
  | nil =>
    have h := splitFrom_append_of_hides (hides_of_not_mem hrest depth) []
    rw [List.append_nil] at h
    exact ⟨[], [], rfl, by simp [h, splitFrom], by simp⟩
  | cons c text ih =>
    rw [List.cons_append, splitFrom, splitFrom]
    by_cases hc : c = separator ∧ depth = 0
    · obtain ⟨front, last, htext, happend, hbalance⟩ := ih 0
      refine ⟨[] :: front, last, ?_, ?_, ?_⟩
      · rw [if_pos hc, htext, List.cons_append]
      · rw [if_pos hc, happend, List.cons_append]
      · simp [hbalance, balance, hc, hs]
    · obtain ⟨front, last, htext, happend, hbalance⟩ := ih (depth + weight c)
      rw [if_neg hc, if_neg hc, htext, happend]
      cases front with
      | nil =>
        refine ⟨[], c :: last, rfl, rfl, ?_⟩
        simp [hbalance, balance]
      | cons piece front =>
        refine ⟨(c :: piece) :: front, last, rfl, rfl, ?_⟩
        simp [hbalance, balance, Int.add_assoc]

theorem prefix_of_splitFrom {separator : Char} {depth : Int} {text piece : List Char}
    {pieces : List (List Char)} (h : splitFrom separator depth text = piece :: pieces) :
    piece <+: text := by
  induction text generalizing depth piece pieces with
  | nil =>
    cases h
    exact List.prefix_rfl
  | cons c text ih =>
    rw [splitFrom] at h
    split at h
    · cases h
      exact List.nil_prefix
    · cases hsplit : splitFrom separator (depth + weight c) text with
      | nil => exact absurd hsplit (splitFrom_ne_nil _ _ _)
      | cons first others =>
        rw [hsplit] at h
        cases h
        exact (List.prefix_cons_inj c).mpr (ih hsplit)

theorem infix_of_mem_splitFrom {separator : Char} {depth : Int} {text piece : List Char}
    (h : piece ∈ splitFrom separator depth text) : piece <:+: text := by
  induction text generalizing depth piece with
  | nil =>
    rw [splitFrom, List.mem_singleton] at h
    rw [h]
  | cons c text ih =>
    rw [splitFrom] at h
    split at h
    · rcases List.mem_cons.mp h with rfl | h
      · exact List.nil_infix
      · exact List.infix_cons (ih h)
    · cases hsplit : splitFrom separator (depth + weight c) text with
      | nil => exact absurd hsplit (splitFrom_ne_nil _ _ _)
      | cons first others =>
        rw [hsplit, List.modifyHead_cons, List.mem_cons] at h
        rcases h with rfl | h
        · exact ((List.prefix_cons_inj c).mpr (prefix_of_splitFrom hsplit)).isInfix
        · refine List.infix_cons (@ih (depth + weight c) piece ?_)
          rw [hsplit]
          exact List.mem_cons_of_mem first h

theorem infix_of_mem_split {separator : Char} {text piece : List Char}
    (h : piece ∈ split separator text) : piece <:+: text :=
  infix_of_mem_splitFrom h

end DiceNotation.Braces
