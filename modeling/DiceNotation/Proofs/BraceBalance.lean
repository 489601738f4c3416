import DiceNotation.Braces
import Mathlib.Data.List.Infix

/-!
# Braces that match

A text is balanced if it closes all braces it opens and never more than it has opened. Balanced
texts can be put side by side and between braces.
-/
namespace DiceNotation.Braces

theorem weight_of_ne {c : Char} (hopen : c ≠ '{') (hclose : c ≠ '}') : weight c = 0 := by
  rw [weight, if_neg hopen, if_neg hclose]

theorem balance_append (text rest : List Char) :
    balance (text ++ rest) = balance text + balance rest := by
  induction text with
  | nil => simp [balance]
  | cons c text ih => simp only [List.cons_append, balance, ih, Int.add_assoc]

theorem balance_eq_count (text : List Char) :
    balance text = text.count '{' - text.count '}' := by
  induction text with
  | nil => rfl
  | cons c text ih =>
    rw [balance, ih, weight, List.count_cons, List.count_cons]
    by_cases hopen : c = '{'
    · subst hopen
      simp
      omega
    · by_cases hclose : c = '}'
      · subst hclose
        simp
        omega
      · simp [hopen, hclose]

theorem balance_eq_zero_iff {text : List Char} :
    balance text = 0 ↔ text.count '{' = text.count '}' := by
  rw [balance_eq_count]
  omega

/-- With `depth` braces open in front of it, a text never closes more than are open. -/
def Covered (depth : Int) (text : List Char) : Prop :=
  ∀ before, before <+: text → 0 ≤ depth + balance before

theorem Covered.nonneg {depth : Int} {text : List Char} (h : Covered depth text) : 0 ≤ depth := by
  simpa [balance] using h [] List.nil_prefix

theorem covered_nil {depth : Int} : Covered depth [] ↔ 0 ≤ depth := by
  constructor
  · exact Covered.nonneg
  · intro h before hb
    rw [List.prefix_nil.mp hb]
    simpa [balance] using h

theorem covered_cons {depth : Int} {c : Char} {rest : List Char} :
    Covered depth (c :: rest) ↔ 0 ≤ depth ∧ Covered (depth + weight c) rest := by
  constructor
  · intro h
    refine ⟨h.nonneg, ?_⟩
    intro before hb
    have hc := h (c :: before) ((List.prefix_cons_inj c).mpr hb)
    rwa [balance, ← Int.add_assoc] at hc
  · rintro ⟨h0, h⟩ before hb
    rcases List.prefix_cons_iff.mp hb with rfl | ⟨tail, rfl, ht⟩
    · simpa [balance] using h0
    · have hc := h tail ht
      rwa [balance, ← Int.add_assoc]

theorem covered_append {depth : Int} {text rest : List Char} :
    Covered depth (text ++ rest) ↔ Covered depth text ∧ Covered (depth + balance text) rest := by
  induction text generalizing depth with
  | nil =>
    simp only [List.nil_append, covered_nil, balance, Int.add_zero]
    exact ⟨fun h => ⟨h.nonneg, h⟩, fun h => h.2⟩
  | cons c text ih =>
    rw [List.cons_append, covered_cons, covered_cons, ih, balance, Int.add_assoc, and_assoc]

theorem Covered.mono {depth depth' : Int} {text : List Char} (h : Covered depth text)
    (hd : depth ≤ depth') : Covered depth' text := by
  intro before hb
  have := h before hb
  omega

instance Covered.instDecidable : (depth : Int) → (text : List Char) → Decidable (Covered depth text)
  | _, [] => decidable_of_iff _ covered_nil.symm
  | depth, c :: rest =>
    have := Covered.instDecidable (depth + weight c) rest
    decidable_of_iff _ covered_cons.symm

structure Balanced (text : List Char) : Prop where
  covered : Covered 0 text
  balance_eq : balance text = 0

instance (text : List Char) : Decidable (Balanced text) :=
  decidable_of_iff (Covered 0 text ∧ balance text = 0)
    ⟨fun h => ⟨h.1, h.2⟩, fun h => ⟨h.covered, h.balance_eq⟩⟩

theorem Balanced.append {text rest : List Char} (h : Balanced text) (hr : Balanced rest) :
    Balanced (text ++ rest) where
  covered := by
    rw [covered_append, h.balance_eq]
    exact ⟨h.covered, hr.covered⟩
  balance_eq := by
    rw [balance_append, h.balance_eq, hr.balance_eq]
    rfl

theorem balanced_of_weight {text : List Char} (h : ∀ c ∈ text, weight c = 0) :
    Balanced text := by
  induction text with
  | nil => exact ⟨covered_nil.mpr (Int.le_refl 0), rfl⟩
  | cons c text ih =>
    obtain ⟨hcov, hbal⟩ := ih fun d hd => h d (List.mem_cons_of_mem _ hd)
    have hc := h c (List.mem_cons_self ..)
    constructor
    · rw [covered_cons, hc]
      exact ⟨Int.le_refl 0, hcov⟩
    · rw [balance, hc, hbal]
      rfl

theorem Balanced.braced {inside : List Char} (h : Balanced inside) {behind : List Char}
    (hb : Balanced behind) : Balanced ('{' :: inside ++ '}' :: behind) where
  covered := by
    rw [covered_append, covered_cons, covered_cons]
    have hopen : balance ('{' :: inside) = 1 := by
      rw [balance, h.balance_eq]
      rfl
    rw [hopen]
    exact ⟨⟨Int.le_refl 0, h.covered.mono (by decide)⟩, by decide, hb.covered⟩
  balance_eq := by
    rw [balance_append, balance, balance, h.balance_eq, hb.balance_eq]
    rfl

end DiceNotation.Braces
