import DiceNotation.Proofs.DieLetter

/-!
# Greedy tokens

The text behind a die falls into tokens in one way only: each token takes the longest keyword, then
a comparator, then all digits that stand there. The tokens follow one another without a gap, each is
read as one modifier, and they end where none of the three stands.
-/
namespace DiceNotation

namespace Keyword

/-- The longest keyword that the text starts with, if it starts with any. -/
def LongestAt (text : List Char) : Option Keyword → Prop
  | none => ∀ keyword : Keyword, ¬ keyword.text <+: text
  | some keyword => keyword.text <+: text ∧
      ∀ other : Keyword, other.text <+: text → other.text.length ≤ keyword.text.length

theorem pairwise_all : all.Pairwise fun first later => ¬ first.text <+: later.text := by
  decide

theorem longestAt_atFront? (text : List Char) : LongestAt text (atFront? text) := by
  cases hfront : atFront? text with
  | none =>
    intro keyword hstarts
    have hnone := List.find?_eq_none.mp hfront keyword (mem_all keyword)
    exact hnone (List.isPrefixOf_iff_prefix.mpr hstarts)
  | some keyword =>
    obtain ⟨hstarts, before, after, hall, hbefore⟩ := List.find?_eq_some_iff_append.mp hfront
    rw [List.isPrefixOf_iff_prefix] at hstarts
    refine ⟨hstarts, ?_⟩
    intro other hother
    have hmem := mem_all other
    have hpairs := pairwise_all
    rw [hall] at hmem hpairs
    rcases List.mem_append.mp hmem with hearlier | hlater
    · have hno := hbefore other hearlier
      rw [List.isPrefixOf_iff_prefix.mpr hother] at hno
      cases hno
    · rcases List.mem_cons.mp hlater with rfl | hlater
      · exact Nat.le_refl _
      · -- A later keyword does not extend this one, so it is itself a prefix of this one.
        have hpair := (List.pairwise_cons.mp (List.pairwise_append.mp hpairs).2.1).1 other hlater
        rcases List.prefix_or_prefix_of_prefix hstarts hother with hshort | hlong
        · exact absurd hshort hpair
        · exact hlong.length_le

theorem LongestAt.unique {text : List Char} {keyword other : Option Keyword}
    (h : LongestAt text keyword) (ho : LongestAt text other) : keyword = other := by
  cases keyword with
  | none =>
    cases other with
    | none => rfl
    | some other => exact absurd ho.1 (h other)
  | some keyword =>
    cases other with
    | none => exact absurd h.1 (ho keyword)
    | some other =>
      have hle := h.2 other ho.1
      have hge := ho.2 keyword h.1
      have htext := List.prefix_of_prefix_length_le h.1 ho.1 hge
      rw [text_injective (htext.eq_of_length (by omega))]

end Keyword

theorem Comparator.ofChar?_eq_none_iff {c : Char} :
    ofChar? c = none ↔ ∀ comparator : Comparator, c ≠ comparator.symbol := by
  constructor
  · rintro hnone comparator rfl
    rw [ofChar?_symbol] at hnone
    cases hnone
  · intro h
    cases hc : ofChar? c with
    | none => rfl
    | some comparator => exact absurd (symbol_of_ofChar? hc).symm (h comparator)

namespace Modifier

structure Token where
  keyword : Option Keyword
  comparator : Option Comparator
  digits : List Char
deriving DecidableEq, Repr

namespace Token

def text (token : Token) : List Char :=
  token.keyword.elim [] Keyword.text ++
    (token.comparator.elim [] (fun comparator => [comparator.symbol]) ++ token.digits)

def number? (digits : List Char) : Option Int64 :=
  if digits = [] then none
  else if Decimal.value digits < 2 ^ 63 then some (Int64.ofNat (Decimal.value digits))
  else some Int64.maxValue

def modifier (token : Token) : Modifier :=
  ⟨token.keyword, ⟨token.comparator.getD .equal, number? token.digits⟩⟩

/-- What a text starts with if each piece is taken as far as it goes, and the text behind it. -/
structure Greedy (text : List Char) (token : Token) (rest : List Char) : Prop where
  text_eq : text = token.text ++ rest
  keyword : Keyword.LongestAt text token.keyword
  comparator : token.comparator = none →
    ∀ comparator : Comparator, (token.digits ++ rest).head? ≠ some comparator.symbol
  digits : ∀ c ∈ token.digits, c.isDigit = true
  digits_end : Decimal.EndsRun rest

end Token

structure Stuck (text : List Char) : Prop where
  keyword : ∀ keyword : Keyword, ¬ keyword.text <+: text
  comparator : ∀ comparator : Comparator, text.head? ≠ some comparator.symbol
  digit : Decimal.EndsRun text

/-- The text is cut into greedy tokens, none of them empty, up to a tail where none starts. -/
inductive Tokenized : List Char → List Token → List Char → Prop
  | done {tail : List Char} (h : Stuck tail) : Tokenized tail [] tail
  | token {text rest tail : List Char} {token : Token} {tokens : List Token}
      (h : token.Greedy text rest) (hne : token.text ≠ []) (hrest : Tokenized rest tokens tail) :
      Tokenized text (token :: tokens) tail

theorem takeKeyword_fst (text : List Char) : (takeKeyword text).1 = Keyword.atFront? text := by
  unfold takeKeyword
  split
  · next keyword h => rw [h]
  · next h => rw [h]

theorem takeKeyword_of_longest {keyword : Option Keyword} {rest : List Char}
    (h : Keyword.LongestAt (keyword.elim [] Keyword.text ++ rest) keyword) :
    takeKeyword (keyword.elim [] Keyword.text ++ rest) = (keyword, rest) := by
  have hfirst := (Keyword.longestAt_atFront? _).unique h
  rw [← takeKeyword_fst] at hfirst
  have hrest := takeKeyword_append (keyword.elim [] Keyword.text ++ rest)
  rw [hfirst] at hrest
  exact Prod.ext hfirst (List.append_cancel_left hrest)

theorem takeComparator_of_next {comparator : Option Comparator} {rest : List Char}
    (h : comparator = none → ∀ other : Comparator, rest.head? ≠ some other.symbol) :
    takeComparator (comparator.elim [] (fun comparator => [comparator.symbol]) ++ rest) =
      (comparator, rest) := by
  cases comparator with
  | some comparator => exact takeComparator_symbol comparator rest
  | none =>
    cases rest with
    | nil => rfl
    | cons c rest =>
      have hnone : Comparator.ofChar? c = none := by
        rw [Comparator.ofChar?_eq_none_iff]
        intro other hc
        exact h rfl other (congrArg some hc)
      rw [Option.elim_none, List.nil_append, takeComparator, hnone]

theorem head?_of_takeComparator {text : List Char} (h : (takeComparator text).1 = none)
    (comparator : Comparator) : (takeComparator text).2.head? ≠ some comparator.symbol := by
  cases text with
  | nil => exact fun hhead => nomatch hhead
  | cons c rest =>
    rw [takeComparator] at h ⊢
    cases hc : Comparator.ofChar? c with
    | some found =>
      rw [hc] at h
      cases h
    | none =>
      intro hhead
      exact Comparator.ofChar?_eq_none_iff.mp hc comparator (Option.some.inj hhead)

namespace Token

def front (text : List Char) : Token × List Char :=
  let afterKeyword := (takeKeyword text).2
  let afterComparator := (takeComparator afterKeyword).2
  (⟨(takeKeyword text).1, (takeComparator afterKeyword).1, Decimal.run afterComparator⟩,
    Decimal.afterRun afterComparator)

theorem greedy_front (text : List Char) : (front text).1.Greedy text (front text).2 := by
  have hkeyword := takeKeyword_append text
  have hcomparator := takeComparator_append (takeKeyword text).2
  have hdigits := Decimal.run_append_afterRun (takeComparator (takeKeyword text).2).2
  refine ⟨?_, ?_, ?_, fun _ => Decimal.isDigit_of_mem_run, Decimal.endsRun_afterRun _⟩
  · rw [← hdigits] at hcomparator
    rw [← hcomparator] at hkeyword
    simpa only [front, Token.text, List.append_assoc] using hkeyword.symm
  · rw [front, takeKeyword_fst]
    exact Keyword.longestAt_atFront? text
  · intro hnone comparator
    have hhead := head?_of_takeComparator hnone comparator
    rwa [← hdigits] at hhead

theorem Greedy.front_eq {token : Token} {text rest : List Char} (h : token.Greedy text rest) :
    front text = (token, rest) := by
  obtain ⟨rfl, hkeyword, hnext, hdigits, hend⟩ := h
  rw [Token.text, List.append_assoc] at hkeyword
  have hafterKeyword := takeKeyword_of_longest hkeyword
  rw [List.append_assoc] at hafterKeyword
  have hafterComparator := takeComparator_of_next hnext
  rw [front, Token.text, List.append_assoc, List.append_assoc, hafterKeyword]
  simp only [hafterComparator, Decimal.run_append hdigits hend,
    Decimal.afterRun_append hdigits hend]

instance (token : Token) (text rest : List Char) : Decidable (token.Greedy text rest) :=
  decidable_of_iff (front text = (token, rest))
    ⟨fun h => by
        have hgreedy := greedy_front text
        rwa [h] at hgreedy,
      Greedy.front_eq⟩

theorem Greedy.unique {token other : Token} {text rest rest' : List Char}
    (h : token.Greedy text rest) (ho : other.Greedy text rest') : token = other ∧ rest = rest' :=
  Prod.mk.inj (h.front_eq.symm.trans ho.front_eq)

theorem text_eq_nil_iff {token : Token} : token.text = [] ↔ token = ⟨none, none, []⟩ := by
  obtain ⟨keyword, comparator, digits⟩ := token
  have hkeyword : ∀ keyword : Keyword, keyword.text ≠ [] := fun keyword =>
    List.ne_nil_of_length_pos keyword.length_text_pos
  cases keyword <;> cases comparator <;> simp [Token.text, hkeyword]

end Token

theorem stuck_iff_greedy {text : List Char} :
    Stuck text ↔ (⟨none, none, []⟩ : Token).Greedy text text :=
  ⟨fun h => ⟨rfl, h.keyword, fun _ => h.comparator, fun _ => nofun, h.digit⟩,
    fun h => ⟨h.keyword, h.comparator rfl, h.digits_end⟩⟩

instance (text : List Char) : Decidable (Stuck text) :=
  decidable_of_iff _ stuck_iff_greedy.symm

theorem takeNumber_eq (text : List Char) :
    takeNumber text = (Token.number? (Decimal.run text), Decimal.afterRun text) := by
  have hmax : Decimal.maxInt64 = 2 ^ 63 - 1 := by decide
  rw [takeNumber, Token.number?, Decimal.saturate, hmax]
  by_cases hempty : Decimal.run text = []
  · simp [hempty]
  · by_cases hlt : Decimal.value (Decimal.run text) < 2 ^ 63
    · have hmin : min (Decimal.value (Decimal.run text)) (2 ^ 63 - 1) =
          Decimal.value (Decimal.run text) := by omega
      simp only [List.isEmpty_iff, if_neg hempty, if_pos hlt, hmin]
    · have hmin : min (Decimal.value (Decimal.run text)) (2 ^ 63 - 1) = 2 ^ 63 - 1 := by omega
      simp only [List.isEmpty_iff, if_neg hempty, if_neg hlt, hmin]
      rfl

theorem read?_eq (text : List Char) :
    read? text =
      if (Token.front text).1.text = [] then none
      else some ((Token.front text).1.modifier, (Token.front text).2) := by
  have hempty : (Token.front text).1.text = [] ↔ ((takeKeyword text).1.isNone &&
      (takeComparator (takeKeyword text).2).1.isNone &&
      (takeNumber (takeComparator (takeKeyword text).2).2).1.isNone) = true := by
    rw [Token.text_eq_nil_iff, takeNumber_isNone]
    simp [Token.front, and_assoc]
  simp only [read?, hempty, takeNumber_eq]
  rfl

theorem read?_of_greedy {token : Token} {text rest : List Char} (h : token.Greedy text rest)
    (hne : token.text ≠ []) : read? text = some (token.modifier, rest) := by
  rw [read?_eq, h.front_eq, if_neg hne]

theorem read?_of_stuck {text : List Char} (h : Stuck text) : read? text = none := by
  rw [read?_eq, (stuck_iff_greedy.mp h).front_eq]
  rfl

theorem stuck_or_greedy (text : List Char) :
    Stuck text ∨
      ∃ (token : Token) (rest : List Char), token.Greedy text rest ∧ token.text ≠ [] := by
  have hgreedy := Token.greedy_front text
  by_cases hempty : (Token.front text).1.text = []
  · left
    have hrest := hgreedy.text_eq
    rw [hempty, List.nil_append] at hrest
    rw [Token.text_eq_nil_iff.mp hempty, ← hrest] at hgreedy
    exact stuck_iff_greedy.mpr hgreedy
  · exact .inr ⟨_, _, hgreedy, hempty⟩

theorem exists_tokenized (text : List Char) : ∃ tokens tail, Tokenized text tokens tail := by
  induction hn : text.length using Nat.strongRecOn generalizing text with
  | ind n ih =>
    rcases stuck_or_greedy text with hstuck | ⟨token, rest, hgreedy, hne⟩
    · exact ⟨[], text, .done hstuck⟩
    · have hlength := congrArg List.length hgreedy.text_eq
      have hpos := List.length_pos_of_ne_nil hne
      rw [List.length_append] at hlength
      obtain ⟨tokens, tail, hrest⟩ := ih rest.length (by omega) rest rfl
      exact ⟨token :: tokens, tail, .token hgreedy hne hrest⟩

theorem Stuck.text_eq_nil {text rest : List Char} {token : Token} (h : Stuck text)
    (hgreedy : token.Greedy text rest) : token.text = [] :=
  Token.text_eq_nil_iff.mpr (hgreedy.unique (stuck_iff_greedy.mp h)).1

theorem Tokenized.unique {text tail rest : List Char} {tokens others : List Token}
    (h : Tokenized text tokens tail) (ho : Tokenized text others rest) :
    others = tokens ∧ rest = tail := by
  induction h generalizing others rest with
  | done hstuck =>
    cases ho with
    | done _ => exact ⟨rfl, rfl⟩
    | token hgreedy hne _ => exact absurd (hstuck.text_eq_nil hgreedy) hne
  | token hgreedy hne _ ih =>
    cases ho with
    | done hstuck => exact absurd (hstuck.text_eq_nil hgreedy) hne
    | token hother _ hothers =>
      obtain ⟨rfl, rfl⟩ := hgreedy.unique hother
      obtain ⟨rfl, rfl⟩ := ih hothers
      exact ⟨rfl, rfl⟩

theorem Tokenized.text_eq {text tail : List Char} {tokens : List Token}
    (h : Tokenized text tokens tail) : text = tokens.flatMap Token.text ++ tail := by
  induction h with
  | done _ => rfl
  | token hgreedy _ _ ih =>
    rw [hgreedy.text_eq, List.flatMap_cons, List.append_assoc, ← ih]

theorem Tokenized.stuck_tail {text tail : List Char} {tokens : List Token}
    (h : Tokenized text tokens tail) : Stuck tail := by
  induction h with
  | done hstuck => exact hstuck
  | token _ _ _ ih => exact ih

theorem readAll_of_tokenized {text tail : List Char} {tokens : List Token}
    (h : Tokenized text tokens tail) : readAll text = (tokens.map Token.modifier, tail) := by
  induction h with
  | done hstuck => exact readAll_of_none (read?_of_stuck hstuck)
  | token hgreedy hne _ ih =>
    rw [readAll_of_some (read?_of_greedy hgreedy hne), ih, List.map_cons]

end Modifier

open Modifier (Token Tokenized Stuck)

/-- Any text behind a die is cut into greedy tokens in exactly one way. The tokens make up the text
up to the first place where none starts, and the modifiers of a term are those that the tokens stand
for. -/
theorem Term.modifiers_tokenized (behind : List Char) :
    ∃ tokens tail, Tokenized behind tokens tail ∧
      (∀ others rest, Tokenized behind others rest → others = tokens ∧ rest = tail) ∧
      behind = tokens.flatMap Token.text ++ tail ∧ Stuck tail ∧
      ∀ options text before after term, Term.CutAtDie text before after →
        Term.behindDie after = behind → Term.parse options text = .ok term →
        term.modifiers = tokens.map Token.modifier := by
  obtain ⟨tokens, tail, htokens⟩ := Modifier.exists_tokenized behind
  refine ⟨tokens, tail, htokens, fun _ _ => htokens.unique, htokens.text_eq,
    htokens.stuck_tail, ?_⟩
  rintro options text before after term hcut rfl hread
  have hmodifiers := congrArg Prod.fst (Modifier.readAll_of_tokenized htokens)
  rw [Term.parse_of_cut hcut] at hread
  obtain ⟨count, -, hread⟩ := RollError.bind_eq_ok_iff.mp hread
  split at hread
  · cases hread
  · cases hread
    exact hmodifiers

/-- Keywords that begin alike, a number that is too large, and a drop modifier that looks like the
start of a die. -/
theorem Term.modifiers_tokenized_overlapping :
    let behind := "!!!ps>99999999999999999999d3x<2".toList
    let tokens : List Token := [⟨some .compound, none, []⟩, ⟨some .penetrate, none, []⟩,
      ⟨some .success, some .greater, "99999999999999999999".toList⟩, ⟨some .drop, none, ['3']⟩]
    Tokenized behind tokens "x<2".toList ∧
      ∃ term, Term.parse {} ('2' :: 'd' :: 'F' :: behind) = .ok term ∧
        term.modifiers = [⟨some .compound, ⟨.equal, none⟩⟩, ⟨some .penetrate, ⟨.equal, none⟩⟩,
          ⟨some .success, ⟨.greater, some Int64.maxValue⟩⟩, ⟨some .drop, ⟨.equal, some 3⟩⟩] := by
  intro behind tokens
  have hcompound : Token.Greedy behind ⟨some .compound, none, []⟩
      "!ps>99999999999999999999d3x<2".toList := by decide
  have hpenetrate : Token.Greedy "!ps>99999999999999999999d3x<2".toList
      ⟨some .penetrate, none, []⟩ "s>99999999999999999999d3x<2".toList := by decide
  have hsuccess : Token.Greedy "s>99999999999999999999d3x<2".toList
      ⟨some .success, some .greater, "99999999999999999999".toList⟩ "d3x<2".toList := by decide
  have hdrop : Token.Greedy "d3x<2".toList ⟨some .drop, none, ['3']⟩ "x<2".toList := by decide
  have hstuck : Stuck "x<2".toList := by decide
  have htokens : Tokenized behind tokens "x<2".toList :=
    .token hcompound (by decide) (.token hpenetrate (by decide)
      (.token hsuccess (by decide) (.token hdrop (by decide) (.done hstuck))))
  have hcut : Term.CutAtDie ('2' :: 'd' :: 'F' :: behind) ['2'] ('F' :: behind) := by decide
  obtain ⟨term, hread, -⟩ := @Term.parse_of_die {} _ _ _ hcut (by decide) _ rfl
  obtain ⟨found, tail, -, hunique, -, -, hmodifiers⟩ := Term.modifiers_tokenized behind
  obtain ⟨rfl, rfl⟩ := hunique _ _ htokens
  refine ⟨htokens, term, hread, ?_⟩
  rw [hmodifiers _ _ _ _ _ hcut rfl hread]
  decide

end DiceNotation
