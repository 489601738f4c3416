import DiceNotation.Proofs.CanonicalTerm
import Mathlib.Data.List.DropRight

/-!
# The first die letter

A text holds a term if a die letter stands in it: a `d` between a digit and another digit or an
`F`. The first such letter settles the term, whatever else is in the text. The whole digit run
before it is the count, and the die stands right behind it.
-/
namespace DiceNotation.Term

structure DieLetter (before after : List Char) : Prop where
  digit_before : ∃ c ∈ before.getLast?, c.isDigit = true
  size_behind : ∃ c ∈ after.head?, c.isDigit = true ∨ c = 'F'

instance (before after : List Char) : Decidable (DieLetter before after) :=
  decidable_of_iff (before.getLast?.any Char.isDigit = true ∧
      after.head?.any (fun c => c.isDigit || c == 'F') = true)
    ⟨fun ⟨hb, ha⟩ => ⟨by simpa [Option.any_eq_true] using hb,
        by simpa [Option.any_eq_true] using ha⟩,
      fun h => ⟨by simpa [Option.any_eq_true] using h.digit_before,
        by simpa [Option.any_eq_true] using h.size_behind⟩⟩

structure CutAtDie (text before after : List Char) : Prop where
  text_eq : text = before ++ 'd' :: after
  letter : DieLetter before after
  first : ∀ front back, before = front ++ 'd' :: back → ¬ DieLetter front (back ++ 'd' :: after)

def behindDie : List Char → List Char
  | 'F' :: tail => tail
  | after => Decimal.afterRun after

theorem forall_append_cons_iff {c : Char} {text : List Char} {P : List Char → List Char → Prop} :
    (∀ front back, text = front ++ c :: back → P front back) ↔
      ∀ i : Fin text.length, text[i] = c → P (text.take i) (text.drop (i + 1)) := by
  constructor
  · intro h i hi
    apply h
    have hdrop := List.drop_eq_getElem_cons i.isLt
    rw [← hi, Fin.getElem_fin, ← hdrop, List.take_append_drop]
  · rintro h front back rfl
    have hlt : front.length < (front ++ c :: back).length := by simp
    simpa using h ⟨front.length, hlt⟩ (by simp)

instance (text before after : List Char) : Decidable (CutAtDie text before after) :=
  decidable_of_iff (text = before ++ 'd' :: after ∧ DieLetter before after ∧
      ∀ i : Fin before.length, before[i] = 'd' →
        ¬ DieLetter (before.take i) (before.drop (i + 1) ++ 'd' :: after))
    ⟨fun ⟨htext, hletter, hfirst⟩ => ⟨htext, hletter, forall_append_cons_iff.mpr hfirst⟩,
      fun h => ⟨h.text_eq, h.letter, forall_append_cons_iff.mp h.first⟩⟩

theorem DieLetter.cons {before after : List Char} (h : DieLetter before after) (c : Char) :
    DieLetter (c :: before) after where
  digit_before := by
    obtain ⟨d, hd, hdigit⟩ := h.digit_before
    exact ⟨d, by simp [List.getLast?_cons, Option.mem_def.mp hd], hdigit⟩
  size_behind := h.size_behind

theorem DieLetter.ne_nil {before after : List Char} (h : DieLetter before after) :
    before ≠ [] := by
  rintro rfl
  obtain ⟨c, hc, -⟩ := h.digit_before
  cases hc

theorem DieLetter.of_digits {digits after : List Char} (hne : digits ≠ [])
    (hdigits : ∀ c ∈ digits, c.isDigit = true)
    (h : ∃ c ∈ after.head?, c.isDigit = true ∨ c = 'F') : DieLetter digits after where
  digit_before :=
    ⟨digits.getLast hne, List.getLast?_eq_some_getLast hne, hdigits _ (List.getLast_mem hne)⟩
  size_behind := h

theorem exists_cutAtDie {before after : List Char} (h : DieLetter before after) :
    ∃ before' after', CutAtDie (before ++ 'd' :: after) before' after' := by
  induction hn : before.length using Nat.strongRecOn generalizing before after with
  | ind n ih =>
    by_cases hearlier : ∃ front back, before = front ++ 'd' :: back ∧
        DieLetter front (back ++ 'd' :: after)
    · obtain ⟨front, back, rfl, hletter⟩ := hearlier
      rw [List.append_assoc, List.cons_append]
      refine ih front.length ?_ hletter rfl
      rw [← hn, List.length_append, List.length_cons]
      omega
    · refine ⟨before, after, rfl, h, ?_⟩
      intro front back hbefore hletter
      exact hearlier ⟨front, back, hbefore, hletter⟩

namespace Heading

def around (before after : List Char) : Heading where
  count := before.rtakeWhile Char.isDigit
  size := if after.head? = some 'F' then none else some (Decimal.run after)
  tail := behindDie after

theorem around_cons {c : Char} {before : List Char}
    (h : ¬ ∀ d ∈ c :: before, d.isDigit = true) (after : List Char) :
    around (c :: before) after = around before after := by
  have hrun : (c :: before).rtakeWhile Char.isDigit = before.rtakeWhile Char.isDigit := by
    rw [List.rtakeWhile, List.rtakeWhile, List.reverse_cons, List.takeWhile_append]
    split
    · next hlength =>
      have hall := (List.takeWhile_prefix Char.isDigit).eq_of_length hlength
      have hc : c.isDigit = false := by
        by_contra hc
        apply h
        rw [Bool.not_eq_false] at hc
        simpa [hc] using List.takeWhile_eq_self_iff.mp hall
      rw [hall, List.takeWhile_cons_of_neg (by simp [hc]), List.append_nil]
    · rfl
  rw [around, around, hrun]

theorem atFront?_of_digits {digits after : List Char} (hne : digits ≠ [])
    (hdigits : ∀ c ∈ digits, c.isDigit = true)
    (h : ∃ c ∈ after.head?, c.isDigit = true ∨ c = 'F') :
    atFront? (digits ++ 'd' :: after) = some (around digits after) := by
  have hend : Decimal.EndsRun ('d' :: after) := Decimal.endsRun_cons rfl
  have hrun := Decimal.run_append hdigits hend
  have hafter := Decimal.afterRun_append hdigits hend
  have hcount : digits.rtakeWhile Char.isDigit = digits :=
    List.rtakeWhile_eq_self_iff.mpr hdigits
  obtain ⟨c, cs, rfl⟩ := List.exists_cons_of_ne_nil hne
  obtain ⟨d, hd, hsize⟩ := h
  obtain ⟨rest, rfl⟩ := List.head?_eq_some_iff.mp (Option.mem_def.mp hd)
  rw [atFront?, hrun, hafter, around, hcount]
  rcases hsize with hdigit | rfl
  · have hF : d ≠ 'F' := by
      rintro rfl
      cases hdigit
    obtain ⟨ds, hds⟩ : ∃ ds, Decimal.run (d :: rest) = d :: ds :=
      ⟨_, List.takeWhile_cons_of_pos hdigit⟩
    simp [hds, hF, behindDie]
  · rfl

theorem exists_of_atFront? {text : List Char} {heading : Heading}
    (h : atFront? text = some heading) :
    ∃ digits after, text = digits ++ 'd' :: after ∧ (∀ c ∈ digits, c.isDigit = true) ∧
      DieLetter digits after := by
  have htext := Decimal.run_append_afterRun text
  have hdigits : ∀ c ∈ Decimal.run text, c.isDigit = true := fun _ => Decimal.isDigit_of_mem_run
  unfold atFront? at h
  split at h
  · next c cs after hrun hafter =>
    have hne : Decimal.run text ≠ [] := by
      rw [hrun]
      exact List.cons_ne_nil c cs
    refine ⟨Decimal.run text, after, by rw [← hafter, htext], hdigits, .of_digits hne hdigits ?_⟩
    split at h
    · next after _ _ d ds hsize =>
      have hd : d ∈ Decimal.run after := by
        rw [hsize]
        exact List.mem_cons_self ..
      have hhead := Decimal.run_append_afterRun after
      rw [hsize, List.cons_append] at hhead
      exact ⟨d, by rw [← hhead]; rfl, .inl (Decimal.isDigit_of_mem_run hd)⟩
    · exact ⟨'F', rfl, .inr rfl⟩
    · cases h
  · cases h

/-- Before the digits in front of the first die letter no heading is found. -/
theorem atFront?_of_cut {c : Char} {before after : List Char}
    (hcut : CutAtDie (c :: before ++ 'd' :: after) (c :: before) after)
    (h : ¬ ∀ d ∈ c :: before, d.isDigit = true) :
    atFront? (c :: before ++ 'd' :: after) = none := by
  cases hfront : atFront? (c :: before ++ 'd' :: after) with
  | none => rfl
  | some heading =>
    exfalso
    obtain ⟨digits, rest, htext, hdigits, hletter⟩ := exists_of_atFront? hfront
    rcases List.append_eq_append_iff.mp htext with ⟨back, hrun, -⟩ | ⟨back, hbefore, hrest⟩
    · apply h
      intro d hd
      apply hdigits
      rw [hrun]
      exact List.mem_append_left back hd
    · cases back with
      | nil =>
        rw [List.append_nil] at hbefore
        rw [hbefore] at h
        exact h hdigits
      | cons d back =>
        obtain ⟨rfl, rfl⟩ := List.cons.inj hrest
        exact hcut.first digits back hbefore hletter

theorem find?_of_cut {text before after : List Char} (h : CutAtDie text before after) :
    find? text = some (around before after) := by
  induction before generalizing text with
  | nil => exact absurd rfl h.letter.ne_nil
  | cons c before ih =>
    obtain ⟨rfl, hletter, hfirst⟩ := h
    by_cases hdigits : ∀ d ∈ c :: before, d.isDigit = true
    · exact find?_of_atFront? (atFront?_of_digits (List.cons_ne_nil c before) hdigits
        hletter.size_behind)
    · have hnone := atFront?_of_cut ⟨rfl, hletter, hfirst⟩ hdigits
      -- The digit before the letter is not `c`, so the cut lies in the rest.
      have hne : before ≠ [] := by
        rintro rfl
        obtain ⟨d, hd, hdigit⟩ := hletter.digit_before
        cases hd
        exact hdigits (by simpa using hdigit)
      have hrest : CutAtDie (before ++ 'd' :: after) before after := by
        refine ⟨rfl, ⟨?_, hletter.size_behind⟩, ?_⟩
        · obtain ⟨d, hd, hdigit⟩ := hletter.digit_before
          rw [List.getLast?_cons_of_ne_nil hne] at hd
          exact ⟨d, hd, hdigit⟩
        · rintro front back rfl hearlier
          exact hfirst (c :: front) back rfl (hearlier.cons c)
      rw [List.cons_append] at hnone ⊢
      rw [find?, hnone, around_cons hdigits]
      exact ih hrest

theorem find?_of_no_letter {text : List Char}
    (h : ∀ before after, text = before ++ 'd' :: after → ¬ DieLetter before after) :
    find? text = none := by
  induction text with
  | nil => rfl
  | cons c text ih =>
    have hnone : atFront? (c :: text) = none := by
      cases hfront : atFront? (c :: text) with
      | none => rfl
      | some heading =>
        obtain ⟨digits, after, htext, -, hletter⟩ := exists_of_atFront? hfront
        exact absurd hletter (h digits after htext)
    rw [find?, hnone]
    apply ih
    rintro before after rfl hletter
    exact h (c :: before) after rfl (hletter.cons c)

theorem die?_around_fate {before after : List Char} (h : after.head? = some 'F') :
    (around before after).die? = some .fate := by
  rw [die?, around, if_pos h]

theorem die?_around_sided {before after : List Char} (h : after.head? ≠ some 'F')
    (hpos : 0 < Decimal.value (Decimal.run after))
    (hlt : Decimal.value (Decimal.run after) < UInt32.size) :
    (around before after).die? =
      some (.sided (UInt32.ofNat (Decimal.value (Decimal.run after)))) := by
  have hne : UInt32.ofNat (Decimal.value (Decimal.run after)) ≠ 0 := by
    intro h0
    have hsize := congrArg UInt32.toNat h0
    rw [UInt32.toNat_ofNat_of_lt' hlt, UInt32.toNat_zero] at hsize
    omega
  simp [die?, around, h, Decimal.toUInt32?, hlt, hne]

theorem die?_around_unusable {before after : List Char} (h : after.head? ≠ some 'F')
    (hsize : Decimal.value (Decimal.run after) = 0 ∨
      UInt32.size ≤ Decimal.value (Decimal.run after)) :
    (around before after).die? = none := by
  rcases hsize with h0 | hlarge
  · have hlt : 0 < UInt32.size := by decide
    simp [die?, around, h, Decimal.toUInt32?, h0, hlt]
  · simp [die?, around, h, Decimal.toUInt32?, Nat.not_lt.mpr hlarge]

end Heading

theorem limitCount_around (options : Options) (before after : List Char) :
    let count := Decimal.value (before.rtakeWhile Char.isDigit)
    limitCount options (Heading.around before after) =
      if count ≤ options.maxCount.toNat then .ok (UInt64.ofNat count)
      else .error (.limitExceeded (UInt64.ofNat (min count (UInt64.size - 1)))
        options.maxCount) := by
  intro count
  have hmax := options.maxCount.toNat_lt_size
  have hheading : (Heading.around before after).count? = Decimal.toUInt64? count := rfl
  rw [limitCount, hheading, Decimal.toUInt64?]
  by_cases hfits : count < UInt64.size
  · have hmin : min count (UInt64.size - 1) = count := by omega
    have hle : UInt64.ofNat count ≤ options.maxCount ↔ count ≤ options.maxCount.toNat := by
      rw [UInt64.le_iff_toNat_le, UInt64.toNat_ofNat_of_lt' hfits]
    simp only [if_pos hfits, hmin, hle]
  · have hmin : min count (UInt64.size - 1) = UInt64.size - 1 := by omega
    have hexceeds : ¬ count ≤ options.maxCount.toNat := by omega
    simp only [if_neg hfits, if_neg hexceeds, hmin]

section

variable {options : Options} {text before after : List Char}

theorem parse_of_cut (h : CutAtDie text before after) :
    Term.parse options text =
      limitCount options (Heading.around before after) >>= fun count =>
        match (Heading.around before after).die? with
        | none => .error .unusableSize
        | some die => .ok ⟨count, die, (Modifier.readAll (behindDie after)).1⟩ := by
  rw [parse, Heading.find?_of_cut h]
  rfl

theorem parse_of_die (h : CutAtDie text before after)
    (hcount : Decimal.value (before.rtakeWhile Char.isDigit) ≤ options.maxCount.toNat) {die : Die}
    (hdie : (Heading.around before after).die? = some die) :
    ∃ term, Term.parse options text = .ok term ∧
      term.count.toNat = Decimal.value (before.rtakeWhile Char.isDigit) ∧ term.die = die ∧
      term.modifiers = (Modifier.readAll (behindDie after)).1 := by
  have hfits := Nat.lt_of_le_of_lt hcount options.maxCount.toNat_lt_size
  rw [parse_of_cut h, limitCount_around, if_pos hcount, hdie]
  exact ⟨_, rfl, UInt64.toNat_ofNat_of_lt' hfits, rfl, rfl⟩

end

/-- Which texts are terms, and which error the others give. A text without a die letter holds no
term. Otherwise its first die letter decides: a count above the limit is an error whatever the size
is, then a size of zero or beyond 32 bits, and in all other cases the term has the count in front of
the letter and the die behind it. -/
theorem parse_at_first_die (options : Options) (text : List Char) :
    let parsed := Term.parse options text
    let limit := options.maxCount.toNat
    ((∀ before after, text = before ++ 'd' :: after → ¬ DieLetter before after) →
      parsed = .error .noTerm) ∧
    ((∃ before after, text = before ++ 'd' :: after ∧ DieLetter before after) →
      ∃ before after, CutAtDie text before after) ∧
    ∀ before after, CutAtDie text before after →
      let count := Decimal.value (before.rtakeWhile Char.isDigit)
      let size := Decimal.value (after.takeWhile Char.isDigit)
      (limit < count →
        parsed = .error (.limitExceeded (UInt64.ofNat (min count (2 ^ 64 - 1)))
          options.maxCount)) ∧
      (count ≤ limit → after.head? ≠ some 'F' → size = 0 ∨ 2 ^ 32 ≤ size →
        parsed = .error .unusableSize) ∧
      (count ≤ limit → after.head? = some 'F' →
        ∃ term, parsed = .ok term ∧ term.count.toNat = count ∧ term.die = .fate) ∧
      (count ≤ limit → after.head? ≠ some 'F' → 0 < size → size < 2 ^ 32 →
        ∃ term sides, parsed = .ok term ∧ term.count.toNat = count ∧
          term.die = .sided sides ∧ sides.toNat = size) := by
  intro parsed limit
  refine ⟨?_, ?_, ?_⟩
  · intro hnone
    unfold parsed
    rw [parse, Heading.find?_of_no_letter hnone]
  · rintro ⟨before, after, rfl, hletter⟩
    exact exists_cutAtDie hletter
  · intro before after hcut count size
    refine ⟨?_, ?_, ?_, ?_⟩
    · intro hcount
      unfold parsed
      rw [parse_of_cut hcut, limitCount_around, if_neg (Nat.not_le.mpr hcount)]
      rfl
    · intro hcount hsided hsize
      unfold parsed
      rw [parse_of_cut hcut, limitCount_around, if_pos hcount,
        Heading.die?_around_unusable hsided hsize]
      rfl
    · intro hcount hfate
      obtain ⟨term, hread, hterm, hdie, -⟩ :=
        parse_of_die hcut hcount (Heading.die?_around_fate hfate)
      exact ⟨term, hread, hterm, hdie⟩
    · intro hcount hsided hpos hlt
      obtain ⟨term, hread, hterm, hdie, -⟩ :=
        parse_of_die hcut hcount (Heading.die?_around_sided hsided hpos hlt)
      exact ⟨term, _, hread, hterm, hdie, UInt32.toNat_ofNat_of_lt' hlt⟩

/-- No letter at all, a letter behind two that start nothing, and a count that hides a bad size. -/
theorem parse_at_first_die_late :
    Term.parse {} "d6 3d+6".toList = .error .noTerm ∧
      (∃ term, Term.parse {} "d6 3dx 007d012d8".toList = .ok term ∧ term.count = 7 ∧
        term.die = .sided 12) ∧
      Term.parse { maxCount := 7 } "8d0 1d6".toList = .error (.limitExceeded 8 7) ∧
      Term.parse {} "8d0 1d6".toList = .error .unusableSize := by
  have hlate : CutAtDie "d6 3dx 007d012d8".toList "d6 3dx 007".toList "012d8".toList := by
    decide
  have hfirst : CutAtDie "8d0 1d6".toList ['8'] "0 1d6".toList := by decide
  refine ⟨?_, ?_, ?_, ?_⟩
  · refine (parse_at_first_die {} _).1 ?_
    exact forall_append_cons_iff.mpr (by decide)
  · obtain ⟨term, sides, hread, hcount, hdie, hsides⟩ :=
      ((parse_at_first_die {} _).2.2 _ _ hlate).2.2.2 (by decide) (by decide) (by decide)
        (by decide)
    refine ⟨term, hread, UInt64.toNat.inj hcount, ?_⟩
    rw [hdie, UInt32.toNat.inj (hsides.trans (by decide : _ = (12 : UInt32).toNat))]
  · exact ((parse_at_first_die { maxCount := 7 } _).2.2 _ _ hfirst).1 (by decide)
  · exact ((parse_at_first_die {} _).2.2 _ _ hfirst).2.1 (by decide) (by decide)
      (.inl (by decide))

end DiceNotation.Term
