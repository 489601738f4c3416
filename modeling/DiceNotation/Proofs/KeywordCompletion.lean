import DiceNotation.Editor.Completion
import DiceNotation.Proofs.CanonicalTerm

/-!
# Words offered behind a term

A keyword can be typed behind a text that is settled: one that ends with a digit, an `F`, a
comparator, a plus sign or a space. The canonical text of a term is settled, no keyword holds a
character that settles a text, and the words in the vocabulary are those that modifiers start with.
So behind a term every keyword that goes on with what is typed is offered, and each of them is read
as one more modifier.
-/
namespace DiceNotation.Editor.Completion

def Settled (text : List Char) : Prop := ∀ c ∈ text.getLast?, endsWord c = true

theorem Settled.of_suffix {text rest : List Char} (h : Settled text) (hrest : rest <:+ text) :
    Settled rest := by
  obtain ⟨front, rfl⟩ := hrest
  intro c hc
  apply h c
  rw [List.getLast?_append, Option.mem_def.mp hc]
  rfl

theorem settled_append {text rest : List Char} (h : Settled rest)
    (htext : rest = [] → Settled text) : Settled (text ++ rest) := by
  by_cases hempty : rest = []
  · rw [hempty, List.append_nil]
    exact htext hempty
  · intro c hc
    rw [List.getLast?_append_of_ne_nil text hempty] at hc
    exact h c hc

theorem settled_settled (line : List Char) : Settled (settled line) := by
  intro c hc
  by_cases hne : settled line = []
  · rw [hne] at hc
    cases hc
  · have hlast := List.rdropWhile_last_not (fun c => !endsWord c) line hne
    rw [List.getLast?_eq_some_getLast hne] at hc
    cases hc
    rw [Bool.not_eq_true, Bool.not_eq_false'] at hlast
    exact hlast

theorem settled_append_word {text typed : List Char} (h : Settled text)
    (htyped : ∀ c ∈ typed, endsWord c = false) : settled (text ++ typed) = text := by
  have hself : text.rdropWhile (fun c => !endsWord c) = text := by
    rw [List.rdropWhile_eq_self_iff]
    intro hne
    have hlast := h _ (List.getLast?_eq_some_getLast hne)
    simp [hlast]
  rw [settled, List.reverse_append, List.dropWhile_append_of_pos]
  · exact hself
  · intro c hc
    simp [htyped c (List.mem_reverse.mp hc)]

theorem partialWord_append_word {text typed : List Char} (h : Settled text)
    (htyped : ∀ c ∈ typed, endsWord c = false) : partialWord (text ++ typed) = typed := by
  have hparts := settled_append_partialWord (text ++ typed)
  rw [settled_append_word h htyped] at hparts
  exact List.append_cancel_left hparts

theorem endsWord_of_isDigit {c : Char} (h : c.isDigit = true) : endsWord c = true := by
  rw [endsWord, h, Bool.true_or]

theorem settled_digits (n : Nat) : Settled (Decimal.digits n) := by
  intro c hc
  exact endsWord_of_isDigit (Decimal.isDigit_of_mem_digits (List.mem_of_getLast? hc))

theorem settled_ofInt (i : Int) : Settled (Decimal.ofInt i) := by
  have hdigits := settled_digits i.natAbs
  rw [Decimal.ofInt]
  split
  · refine @settled_append ['-'] _ hdigits fun hempty => ?_
    exact absurd hempty (Decimal.digits_ne_nil _)
  · exact hdigits

theorem settled_symbol (comparator : Comparator) : Settled [comparator.symbol] := by
  intro c hc
  cases hc
  cases comparator <;> rfl

theorem settled_die (die : Die) : Settled die.text := by
  cases die with
  | sided n =>
    refine @settled_append ['d'] _ (settled_digits n.toNat) fun hempty => ?_
    exact absurd hempty (Decimal.digits_ne_nil _)
  | fate =>
    intro c hc
    cases hc
    rfl

/-- A modifier is written with its comparator or its number at the end. -/
theorem settled_modifier (modifier : Modifier) : Settled modifier.text := by
  obtain ⟨keyword, comparator, number⟩ := modifier
  have hcondition : Settled (Condition.text ⟨comparator, number⟩) := by
    cases number with
    | none => exact settled_symbol comparator
    | some n =>
      exact @settled_append [comparator.symbol] _ (settled_ofInt n.toInt)
        fun _ => settled_symbol comparator
  exact settled_append hcondition fun hempty => absurd hempty (List.cons_ne_nil _ _)

theorem settled_textAll (modifiers : List Modifier) : Settled (Modifier.textAll modifiers) := by
  induction modifiers with
  | nil =>
    intro c hc
    cases hc
  | cons modifier modifiers ih =>
    rw [Modifier.textAll, List.flatMap_cons]
    exact settled_append ih fun _ => settled_modifier modifier

theorem settled_term (term : Term) : Settled term.text := by
  apply settled_append (settled_textAll term.modifiers)
  intro _
  exact settled_append (settled_die term.die) fun _ => settled_digits term.count.toNat

theorem d_mem_term (term : Term) : 'd' ∈ term.text := by
  have hdie : 'd' ∈ term.die.text := by
    cases term.die <;> exact List.mem_cons_self ..
  rw [Term.text]
  exact List.mem_append_left _ (List.mem_append_right _ hdie)

theorem mem_vocabulary_iff {word : List Char} :
    word ∈ vocabulary ↔ ∃ keyword : Keyword, keyword.text = word := by
  constructor
  · have hall : ∀ word ∈ vocabulary, ∃ keyword ∈ Keyword.all, keyword.text = word := by decide
    intro hword
    obtain ⟨keyword, -, htext⟩ := hall word hword
    exact ⟨keyword, htext⟩
  · rintro ⟨keyword, rfl⟩
    cases keyword <;> decide

theorem nodup_vocabulary : vocabulary.Nodup := by
  decide

theorem pairwise_vocabulary :
    vocabulary.Pairwise fun first later => later.length ≤ first.length := by
  decide

theorem mem_words_iff {line word : List Char} :
    word ∈ (candidates line).words ↔
      'd' ∈ settled line ∧ (∃ keyword : Keyword, keyword.text = word) ∧
        partialWord line <+: word ∧ partialWord line ≠ word := by
  by_cases hd : 'd' ∈ settled line
  · have hcontains : (settled line).contains 'd' = true := by rwa [List.contains_iff_mem]
    simp only [candidates, hcontains, if_true, List.mem_filter, mem_vocabulary_iff,
      Bool.and_eq_true, List.isPrefixOf_iff_prefix, bne_iff_ne, hd, true_and]
    rw [ne_comm]
  · simp [candidates, hd]

theorem words_sublist (line : List Char) : (candidates line).words.Sublist vocabulary := by
  rw [candidates]
  split
  · exact List.filter_sublist
  · exact List.nil_sublist _

theorem endsWord_of_mem_keyword {keyword : Keyword} {c : Char} (h : c ∈ keyword.text) :
    endsWord c = false := by
  have hall : keyword.text.all (fun c => !endsWord c) = true := by cases keyword <;> rfl
  simpa using List.all_eq_true.mp hall c h

theorem endsRun_keyword (keyword : Keyword) : Decimal.EndsRun keyword.text := by
  cases keyword <;> exact Decimal.endsRun_cons rfl

theorem readAll_keyword (keyword : Keyword) :
    Modifier.readAll keyword.text = ([⟨some keyword, ⟨.equal, none⟩⟩], []) := by
  have hread : Modifier.read? keyword.text = some (⟨some keyword, ⟨.equal, none⟩⟩, []) := by
    cases keyword <;> rfl
  rw [Modifier.readAll_of_some hread, Modifier.readAll_of_none rfl]

/-- Behind the canonical text of a term and the start of a word, exactly the keywords that go on
with the word are offered in its place, none of them twice and no shorter one before a longer one.
Whichever is taken, the term is read as it was with one more modifier. -/
theorem candidates_behind_term {options : Options} {text typed : List Char} {term : Term}
    (hread : Term.parse options text = .ok term)
    (htyped : ∀ c ∈ typed, c.isDigit = false ∧ c ∉ ['F', '<', '>', '=', '+', ' ']) :
    let offered := candidates (term.text ++ typed)
    offered.start = byteSize term.text ∧
    (∀ word, word ∈ offered.words ↔
      (∃ keyword : Keyword, keyword.text = word) ∧ typed <+: word ∧ typed ≠ word) ∧
    offered.words.Nodup ∧
    offered.words.Pairwise (fun first later => later.length ≤ first.length) ∧
    ∀ keyword : Keyword, keyword.text ∈ offered.words →
      Term.parse options (term.text ++ keyword.text) =
        .ok { term with modifiers := term.modifiers ++ [⟨some keyword, ⟨.equal, none⟩⟩] } := by
  intro offered
  have hword : ∀ c ∈ typed, endsWord c = false := by
    intro c hc
    obtain ⟨hdigit, hother⟩ := htyped c hc
    simp only [endsWord, hdigit, Bool.false_or, List.contains_eq_mem, decide_eq_false_iff_not]
    exact hother
  have hsettled := settled_append_word (settled_term term) hword
  have hpartial := partialWord_append_word (settled_term term) hword
  have hsublist := words_sublist (term.text ++ typed)
  refine ⟨?_, ?_, hsublist.nodup nodup_vocabulary, pairwise_vocabulary.sublist hsublist, ?_⟩
  · exact congrArg byteSize hsettled
  · intro word
    rw [mem_words_iff, hsettled, hpartial, and_iff_right (d_mem_term term)]
  · intro keyword _
    have hadmissible := Term.admissible_of_parse hread
    rw [Term.parse_text_append hadmissible (endsRun_keyword keyword), readAll_keyword]

/-- A term read from a text with more in it, and a drop modifier whose second letter is missing. -/
theorem candidates_behind_term_drop :
    let text := "roll 4d6s>3kh, then".toList
    let term : Term := ⟨4, .sided 6, [⟨some .success, ⟨.greater, some 3⟩⟩,
      ⟨some .keepHigh, ⟨.equal, none⟩⟩]⟩
    Term.parse {} text = .ok term ∧
      (∀ c ∈ ['d'], c.isDigit = false ∧ c ∉ ['F', '<', '>', '=', '+', ' ']) ∧
      candidates (term.text ++ ['d']) = ⟨9, [['d', 'h'], ['d', 'l']]⟩ ∧
      Term.parse {} (term.text ++ ['d', 'l']) =
        .ok ⟨4, .sided 6, term.modifiers ++ [⟨some .dropLow, ⟨.equal, none⟩⟩]⟩ := by
  intro text term
  have hread : Term.parse {} text = .ok term := by
    unfold text term
    cbv
  have htyped : ∀ c ∈ ['d'], c.isDigit = false ∧ c ∉ ['F', '<', '>', '=', '+', ' '] := by
    simp
  have hoffered : candidates (term.text ++ ['d']) = ⟨9, [['d', 'h'], ['d', 'l']]⟩ := by
    unfold term
    cbv
  obtain ⟨-, hwords, -, -, htaken⟩ := candidates_behind_term hread htyped
  refine ⟨hread, htyped, hoffered, htaken .dropLow ?_⟩
  exact (hwords _).mpr ⟨⟨.dropLow, rfl⟩, by decide, by decide⟩

end DiceNotation.Editor.Completion
