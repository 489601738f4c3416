import DiceNotation.Proofs.AppendedText
import DiceNotation.Proofs.Decomposition
import DiceNotation.Proofs.KeywordCompletion

/-!
# Where words are offered

An offered word goes on with the last piece of the line. It becomes the last modifier of a term
exactly if that piece, up to the place of the word, is a term of which nothing is ignored: a keyword
behind a settled text is a token of its own, and it neither completes a die nor revives an ignored
tail. A letter `d` somewhere in the line does not make such a piece.
-/
namespace DiceNotation

open Editor.Completion (Settled endsWord_of_mem_keyword endsRun_keyword)

namespace Braces

def lastPiece (separator : Char) (text : List Char) : List Char :=
  (split separator text).getLast (splitFrom_ne_nil separator 0 text)

theorem lastPiece_append {separator : Char} (hs : weight separator = 0) (text : List Char)
    {rest : List Char} (hrest : separator ∉ rest) :
    lastPiece separator (text ++ rest) = lastPiece separator text ++ rest := by
  obtain ⟨front, last, htext, happend, -⟩ := exists_splitFrom_append hs hrest 0 text
  simp [lastPiece, split, htext, happend]

theorem getLast_suffix_join (separator : Char) {pieces : List (List Char)} (hne : pieces ≠ []) :
    pieces.getLast hne <:+ join separator pieces := by
  induction pieces with
  | nil => exact absurd rfl hne
  | cons piece pieces ih =>
    cases pieces with
    | nil => rw [join_singleton, List.getLast_singleton]
    | cons next pieces =>
      rw [join_cons_cons, List.getLast_cons_cons]
      have hrest := ih (List.cons_ne_nil next pieces)
      exact hrest.trans ((List.suffix_cons separator _).trans (List.suffix_append piece _))

theorem lastPiece_suffix (separator : Char) (text : List Char) :
    lastPiece separator text <:+ text := by
  have hlast : lastPiece separator text <:+ join separator (split separator text) :=
    getLast_suffix_join separator (splitFrom_ne_nil separator 0 text)
  rwa [(Decomposition.of_split separator text).join_eq] at hlast

end Braces

theorem Editor.Completion.Settled.exists_last {text : List Char} (h : Settled text)
    (hne : text ≠ []) :
    ∃ front c, text = front ++ [c] ∧ ∀ keyword : Keyword, c ∉ keyword.text := by
  refine ⟨text.dropLast, text.getLast hne, (List.dropLast_concat_getLast hne).symm, ?_⟩
  intro keyword hc
  have hends := h _ (List.getLast?_eq_some_getLast hne)
  rw [endsWord_of_mem_keyword hc] at hends
  cases hends

namespace Modifier

theorem tokenized_keyword (keyword : Keyword) :
    Tokenized keyword.text [⟨some keyword, none, []⟩] [] := by
  have hgreedy : Token.Greedy keyword.text ⟨some keyword, none, []⟩ [] := by
    cases keyword <;> decide
  have hne : Token.text ⟨some keyword, none, []⟩ ≠ [] := by
    cases keyword <;> decide
  exact .token hgreedy hne (.done (by decide))

/-- A keyword behind a settled text is one more token, unless the tokens end before it. -/
theorem Tokenized.append_keyword {text tail : List Char} {tokens : List Token}
    (h : Tokenized text tokens tail) (hs : Settled text) (keyword : Keyword) :
    Tokenized (text ++ keyword.text)
      (tokens ++ if tail = [] then [⟨some keyword, none, []⟩] else [])
      (if tail = [] then [] else tail ++ keyword.text) := by
  induction h with
  | @done tail hstuck =>
    by_cases hempty : tail = []
    · rw [if_pos hempty, if_pos hempty, hempty]
      exact tokenized_keyword keyword
    · obtain ⟨front, c, rfl, hc⟩ := hs.exists_last hempty
      rw [if_neg hempty, if_neg hempty, List.append_assoc, List.singleton_append]
      exact .done (hstuck.append hc (endsRun_keyword keyword))
  | @token text rest tail token tokens hgreedy hne _ ih =>
    have htext := hgreedy.text_eq
    have hrest : Settled rest := hs.of_suffix ⟨token.text, htext.symm⟩
    obtain ⟨front, c, rfl, hc⟩ := hs.exists_last fun hempty => by
      rw [hempty] at htext
      exact hne (List.append_eq_nil_iff.mp htext.symm).1
    rw [List.append_assoc, List.singleton_append]
    exact .token (hgreedy.append hc (endsRun_keyword keyword)) hne (ih hrest)

theorem readAll_append_keyword_iff {text : List Char} (hs : Settled text) (keyword : Keyword)
    {modifiers : List Modifier} :
    readAll (text ++ keyword.text) = (modifiers, []) ↔
      ∃ earlier, readAll text = (earlier, []) ∧
        modifiers = earlier ++ [⟨some keyword, ⟨.equal, none⟩⟩] := by
  obtain ⟨tokens, tail, htokens⟩ := exists_tokenized text
  rw [readAll_of_tokenized (htokens.append_keyword hs keyword), readAll_of_tokenized htokens]
  by_cases hempty : tail = []
  · rw [if_pos hempty, if_pos hempty, List.map_append, hempty]
    constructor
    · intro h
      exact ⟨_, rfl, (Prod.mk.inj h).1.symm⟩
    · rintro ⟨earlier, h, rfl⟩
      rw [(Prod.mk.inj h).1]
      rfl
  · rw [if_neg hempty, if_neg hempty]
    constructor
    · intro h
      exact absurd (List.append_eq_nil_iff.mp (Prod.mk.inj h).2).1 hempty
    · rintro ⟨earlier, h, -⟩
      exact absurd (Prod.mk.inj h).2 hempty

end Modifier

namespace Term

/-- The text holds a die, and behind the die nothing but these modifiers: nothing is ignored. -/
def ReadToEnd (text : List Char) (modifiers : List Modifier) : Prop :=
  ∃ before after, CutAtDie text before after ∧
    Modifier.readAll (behindDie after) = (modifiers, [])

/-- The text is a term with a last modifier of this keyword, and nothing behind it is ignored. -/
def EndsIn (text : List Char) (keyword : Keyword) : Prop :=
  ∃ modifiers condition, ReadToEnd text (modifiers ++ [⟨some keyword, condition⟩])

theorem readToEnd_iff {text : List Char} {modifiers : List Modifier} :
    ReadToEnd text modifiers ↔
      (Heading.find? text).map (fun heading => Modifier.readAll heading.tail) =
        some (modifiers, []) := by
  constructor
  · rintro ⟨before, after, hcut, hread⟩
    rw [Heading.find?_of_cut hcut, Option.map_some]
    exact congrArg some hread
  · intro h
    obtain ⟨heading, hfind, hread⟩ := Option.map_eq_some_iff.mp h
    have hholds : HoldsDie text := by
      rw [← Heading.isSome_find?_iff, hfind]
      rfl
    obtain ⟨before, after, hcut⟩ := holdsDie_iff_cut.mp hholds
    rw [Heading.find?_of_cut hcut] at hfind
    cases hfind
    exact ⟨before, after, hcut, hread⟩

theorem EndsIn.ignored_eq {text : List Char} {keyword : Keyword} (h : EndsIn text keyword) :
    (Heading.find? text).map (fun heading => (Modifier.readAll heading.tail).2) = some [] := by
  obtain ⟨modifiers, condition, hwhole⟩ := h
  have htail := congrArg (Option.map Prod.snd) (readToEnd_iff.mp hwhole)
  rwa [Option.map_map] at htail

theorem HoldsDie.of_append_keyword {text : List Char} {keyword : Keyword}
    (h : HoldsDie (text ++ keyword.text)) : HoldsDie text := by
  apply h.of_append
  intro c hc
  have hword := endsWord_of_mem_keyword hc
  rw [Editor.Completion.endsWord, Bool.or_eq_false_iff] at hword
  refine ⟨hword.1, ?_⟩
  rintro rfl
  cases hword.2

/-- A keyword behind a settled text is the last modifier of a term with nothing behind it exactly if
the text is itself such a term. -/
theorem readToEnd_append_keyword {text : List Char} (hs : Settled text) (keyword : Keyword)
    {modifiers : List Modifier} :
    ReadToEnd (text ++ keyword.text) modifiers ↔
      ∃ earlier, ReadToEnd text earlier ∧
        modifiers = earlier ++ [⟨some keyword, ⟨.equal, none⟩⟩] := by
  have hread {before after : List Char} (hcut : CutAtDie text before after) :
      Modifier.readAll (behindDie (after ++ keyword.text)) = (modifiers, []) ↔
        ∃ earlier, Modifier.readAll (behindDie after) = (earlier, []) ∧
          modifiers = earlier ++ [⟨some keyword, ⟨.equal, none⟩⟩] := by
    rw [behindDie_append hcut.letter (endsRun_keyword keyword)]
    exact Modifier.readAll_append_keyword_iff (hs.of_suffix hcut.behindDie_suffix) keyword
  constructor
  · rintro ⟨before', after', hcut', hwhole⟩
    -- The die of the longer text stands in the shorter one, and so at the same place.
    have hholds := holdsDie_iff_cut.mpr ⟨before', after', hcut'⟩
    obtain ⟨before, after, hcut⟩ := holdsDie_iff_cut.mp hholds.of_append_keyword
    rw [hcut'.behindDie_eq (hcut.append keyword.text), hread hcut] at hwhole
    obtain ⟨earlier, hearlier, hlast⟩ := hwhole
    exact ⟨earlier, ⟨before, after, hcut, hearlier⟩, hlast⟩
  · rintro ⟨earlier, ⟨before, after, hcut, hearlier⟩, hlast⟩
    exact ⟨before, after ++ keyword.text, hcut.append keyword.text,
      (hread hcut).mpr ⟨earlier, hearlier, hlast⟩⟩

end Term

namespace Editor.Completion

theorem plus_not_mem_keyword (keyword : Keyword) : '+' ∉ keyword.text := by
  cases keyword <;> decide

theorem cutAt_start (line : List Char) :
    cutAt (candidates line).start line = (settled line, partialWord line) := by
  have hcut := cutAt_byteSize (settled line) (partialWord line)
  rwa [settled_append_partialWord] at hcut

/-- An offered word is a keyword, and its place is between two characters of the line. Written
there, it is the last modifier of the last term of the line, with nothing behind it to ignore,
exactly if the line up to that place ends with a term of which nothing is ignored. -/
theorem offered_word_fits_iff {line word : List Char} (h : word ∈ (candidates line).words) :
    let front := (cutAt (candidates line).start line).1
    byteSize front = (candidates line).start ∧
    ∃ keyword : Keyword, keyword.text = word ∧
      (Term.EndsIn (Braces.lastPiece '+' (front ++ word)) keyword ↔
        ∃ modifiers, Term.ReadToEnd (Braces.lastPiece '+' front) modifiers) := by
  intro front
  have hfront : front = settled line := congrArg Prod.fst (cutAt_start line)
  obtain ⟨-, ⟨keyword, rfl⟩, -⟩ := mem_words_iff.mp h
  refine ⟨congrArg byteSize hfront, keyword, rfl, ?_⟩
  have hpiece : Settled (Braces.lastPiece '+' front) := by
    rw [hfront]
    exact (settled_settled line).of_suffix (Braces.lastPiece_suffix '+' _)
  rw [Braces.lastPiece_append rfl front (plus_not_mem_keyword keyword)]
  constructor
  · rintro ⟨modifiers, condition, hwhole⟩
    obtain ⟨earlier, hearlier, -⟩ := (Term.readToEnd_append_keyword hpiece keyword).mp hwhole
    exact ⟨earlier, hearlier⟩
  · rintro ⟨earlier, hearlier⟩
    exact ⟨earlier, _, (Term.readToEnd_append_keyword hpiece keyword).mpr ⟨earlier, hearlier, rfl⟩⟩

/-- The second term of a sum, with a keyword cut short behind a threshold. -/
theorem offered_word_fits_iff_sum :
    let line := "2d6 + 4d8>3k".toList
    ['k', 'h'] ∈ (candidates line).words ∧
      Term.ReadToEnd (Braces.lastPiece '+' "2d6 + 4d8>3".toList) [⟨none, ⟨.greater, some 3⟩⟩] ∧
      Term.EndsIn (Braces.lastPiece '+' "2d6 + 4d8>3kh".toList) .keepHigh := by
  intro line
  have hoffered : ['k', 'h'] ∈ (candidates line).words := by
    unfold line
    decide
  have hwhole : Term.ReadToEnd (Braces.lastPiece '+' "2d6 + 4d8>3".toList)
      [⟨none, ⟨.greater, some 3⟩⟩] := by
    rw [Term.readToEnd_iff]
    cbv
  obtain ⟨-, keyword, htext, hfits⟩ := offered_word_fits_iff hoffered
  obtain rfl : keyword = .keepHigh := Keyword.text_injective htext
  refine ⟨hoffered, hwhole, ?_⟩
  have hfront : (cutAt (candidates line).start line).1 = "2d6 + 4d8>3".toList := by
    unfold line
    decide
  rw [hfront] at hfits
  exact hfits.mpr ⟨_, hwhole⟩

/-- Keywords are offered behind a die without a count, behind a plus sign and behind a space, where
none of them can be read. -/
theorem offered_without_term :
    let misplaced (line : List Char) : Prop := ['k'] ∈ (candidates line).words ∧
      ¬ Term.EndsIn (Braces.lastPiece '+' ((cutAt (candidates line).start line).1 ++ ['k'])) .keep
    misplaced "d12".toList ∧ misplaced "1d6+".toList ∧ misplaced "1d6 ".toList := by
  intro misplaced
  refine ⟨⟨by decide, ?_⟩, ⟨by decide, ?_⟩, ⟨by decide, ?_⟩⟩
  · intro hends
    have hread : (Term.Heading.find? "d12k".toList).map
        (fun heading => (Modifier.readAll heading.tail).2) = none := by cbv
    exact absurd (hread.symm.trans hends.ignored_eq) (by decide)
  · intro hends
    have hread : (Term.Heading.find? "k".toList).map
        (fun heading => (Modifier.readAll heading.tail).2) = none := by cbv
    exact absurd (hread.symm.trans hends.ignored_eq) (by decide)
  · intro hends
    have hread : (Term.Heading.find? "1d6 k".toList).map
        (fun heading => (Modifier.readAll heading.tail).2) = some " k".toList := by cbv
    exact absurd (hread.symm.trans hends.ignored_eq) (by decide)

end Editor.Completion

end DiceNotation
