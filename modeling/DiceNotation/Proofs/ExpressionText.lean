import DiceNotation.Proofs.CanonicalTerm
import DiceNotation.Proofs.ExpressionTree
import DiceNotation.Proofs.NestingDepth
import DiceNotation.Proofs.PieceReading

/-!
# The text of an expression

An expression that keeps to the limits is read back from its text. Its terms hold no separator and
no brace, so the text splits where the members and parts were joined.
-/
namespace DiceNotation

def Plain (c : Char) : Prop := c ≠ '{' ∧ c ≠ '}' ∧ c ≠ '+' ∧ c ≠ ','

instance (c : Char) : Decidable (Plain c) :=
  inferInstanceAs (Decidable (_ ∧ _ ∧ _ ∧ _))

def PlainText (text : List Char) : Prop := ∀ c ∈ text, Plain c

instance (text : List Char) : Decidable (PlainText text) := List.decidableBAll Plain text

theorem Plain.weight_eq {c : Char} (h : Plain c) : Braces.weight c = 0 :=
  Braces.weight_of_ne h.1 h.2.1

theorem plain_of_isDigit {c : Char} (h : c.isDigit = true) : Plain c := by
  refine ⟨?_, ?_, ?_, ?_⟩ <;>
    · rintro rfl
      revert h
      decide

theorem Decimal.plain_ofInt (n : Int) : PlainText (Decimal.ofInt n) := by
  intro c hc
  rcases Decimal.mem_ofInt hc with hdigit | rfl
  · exact plain_of_isDigit hdigit
  · decide

theorem Die.plain_text (die : Die) : PlainText die.text := by
  cases die with
  | fate => decide
  | sided n =>
    intro c hc
    rcases List.mem_cons.mp hc with rfl | hc
    · decide
    · exact plain_of_isDigit (Decimal.isDigit_of_mem_digits hc)

theorem Keyword.plain_text (keyword : Keyword) : PlainText keyword.text := by
  cases keyword <;> decide

theorem Comparator.plain_symbol (comparator : Comparator) : Plain comparator.symbol := by
  cases comparator <;> decide

theorem Condition.plain_text (condition : Condition) : PlainText condition.text := by
  obtain ⟨comparator, number⟩ := condition
  intro c hc
  rcases List.mem_cons.mp hc with rfl | hc
  · exact comparator.plain_symbol
  · cases number with
    | none => cases hc
    | some n => exact Decimal.plain_ofInt _ c hc

theorem Modifier.plain_text (modifier : Modifier) : PlainText modifier.text := by
  obtain ⟨keyword, condition⟩ := modifier
  intro c hc
  rcases List.mem_append.mp hc with hc | hc
  · cases keyword with
    | none => cases hc
    | some keyword => exact keyword.plain_text c hc
  · exact condition.plain_text c hc

theorem Term.plain_text (term : Term) : PlainText term.text := by
  intro c hc
  rcases List.mem_append.mp hc with hc | hc
  · rcases List.mem_append.mp hc with hc | hc
    · exact plain_of_isDigit (Decimal.isDigit_of_mem_digits hc)
    · exact term.die.plain_text c hc
  · obtain ⟨modifier, -, hc⟩ := List.mem_flatMap.mp hc
    exact modifier.plain_text c hc

/-- A member that can be printed under a limit: nothing in it is empty, its terms are within the
limit, and the texts behind its closing braces are plain. -/
def Member.Printable (maxCount : UInt64) : Member → Prop :=
  Member.Formed (Term.Admissible maxCount) PlainText

def Expression.Printable (maxCount : UInt64) : List Member → Prop :=
  Expression.Formed (Term.Admissible maxCount) PlainText

theorem Expression.text_eq_join (members : List Member) :
    Expression.text members = Braces.join '+' (members.map Member.text) := by
  induction members with
  | nil => rfl
  | cons member members ih =>
    cases members with
    | nil => simp [Expression.text, Braces.join_singleton]
    | cons next members =>
      rw [Expression.text, ih]
      · simp only [List.map_cons, Braces.join_cons_cons]
      · exact fun h => nomatch h

theorem Expression.textOfParts_eq_join (parts : List (List Member)) :
    Expression.textOfParts parts = Braces.join ',' (parts.map Expression.text) := by
  induction parts with
  | nil => rfl
  | cons part parts ih =>
    cases parts with
    | nil => simp [Expression.textOfParts, Braces.join_singleton]
    | cons next parts =>
      rw [Expression.textOfParts, ih]
      · simp only [List.map_cons, Braces.join_cons_cons]
      · exact fun h => nomatch h

theorem Member.text_group (parts : List (List Member)) (options : List Char) :
    (Member.group parts options).text =
      '{' :: Braces.join ',' (parts.map Expression.text) ++ '}' :: options := by
  rw [Member.text, Expression.textOfParts_eq_join]

variable {maxCount : UInt64}

theorem fitsGroup_of_parts {parts : List (List Member)}
    (h : ∀ part ∈ parts, Braces.FitsGroup (Expression.depth part) (Expression.text part)) :
    ∀ text ∈ parts.map Expression.text,
      Braces.FitsGroup (Expression.depthOfParts parts) text := by
  intro text ht
  obtain ⟨part, hp, rfl⟩ := List.mem_map.mp ht
  exact (h part hp).mono (Expression.depthOfParts_le_iff.mp (Nat.le_refl _) part hp)

theorem fitsGroup_text :
    (∀ member : Member, member.Printable maxCount →
      Braces.FitsGroup member.depth member.text) ∧
    ∀ members : List Member, Expression.Printable maxCount members →
      Braces.FitsGroup (Expression.depth members) (Expression.text members) := by
  apply Expression.induct
  · intro term _
    have hplain := term.plain_text
    exact Braces.fitsGroup_of_weight (fun c hc => (hplain c hc).weight_eq)
      (fun hc => (hplain _ hc).2.2.2 rfl) _
  · rintro parts options ih (_ | ⟨hne, hparts, hoptions⟩)
    rw [Member.text_group]
    exact Braces.fitsGroup_group (by simpa using hne)
      (fitsGroup_of_parts fun part hp => ih part hp (hparts part hp))
      (fun c hc => (hoptions c hc).weight_eq) fun hc => (hoptions _ hc).2.2.2 rfl
  · rintro members ih ⟨hne, hmembers⟩
    rw [Expression.text_eq_join]
    refine Braces.fitsGroup_join_plus (by simpa using hne) ?_
    intro text ht
    obtain ⟨member, hm, rfl⟩ := List.mem_map.mp ht
    exact (ih member hm (hmembers member hm)).mono
      (Expression.depth_le_iff.mp (Nat.le_refl _) member hm)

theorem Member.Printable.hides_plus {member : Member} (h : member.Printable maxCount) :
    Braces.Hides '+' 0 member.text := by
  cases h with
  | @term term _ => exact Braces.hides_of_not_mem (fun hc => (term.plain_text _ hc).2.2.1 rfl) 0
  | @group parts options hne hparts hoptions =>
    have hfit := fitsGroup_of_parts fun part hp => fitsGroup_text.2 part (hparts part hp)
    have hbal : Braces.Balanced (Braces.join ',' (parts.map Expression.text)) :=
      Braces.balanced_join rfl (by simpa using hne) fun text ht => (hfit text ht).balanced
    rw [Member.text_group]
    exact Braces.hides_braced rfl hbal fun hc => (hoptions _ hc).2.2.1 rfl

theorem Expression.Printable.split_text {members : List Member}
    (h : Expression.Printable maxCount members) :
    Braces.split '+' (Expression.text members) = members.map Member.text := by
  obtain ⟨hne, hmembers⟩ := h
  rw [Expression.text_eq_join]
  apply Braces.split_join_of_hides rfl (by simpa using hne)
  · intro text ht
    obtain ⟨member, hm, rfl⟩ := List.mem_map.mp ht
    exact (fitsGroup_text.1 member (hmembers member hm)).balanced.balance_eq
  · intro text ht
    obtain ⟨member, hm, rfl⟩ := List.mem_map.mp ht
    exact Member.Printable.hides_plus (hmembers member hm)

theorem forall₂_map_text {α : Type} {read : List Char → Except RollError α}
    {text : α → List Char} {items : List α} (h : ∀ item ∈ items, read (text item) = .ok item) :
    List.Forall₂ (fun piece item => read piece = .ok item) (items.map text) items := by
  rw [List.forall₂_map_left_iff, List.forall₂_same]
  exact h

theorem Member.parse_text_group {options : Options} {parts : List (List Member)}
    {behind : List Char} (hne : parts ≠ [])
    (hparts : ∀ part ∈ parts, Expression.Printable maxCount part)
    (hbehind : PlainText behind) (hgroups : options.groups = true)
    (hdepth : Expression.depthOfParts parts + 1 ≤ maxDepth)
    (hread : ∀ part ∈ parts, Expression.parse options (Expression.text part) = .ok part)
    (hkind : OneKind Expression.kind parts) :
    Member.parse options (Member.group parts behind).text = .ok (.group parts behind) := by
  have hne' : parts.map Expression.text ≠ [] := by simpa using hne
  have hfit := fitsGroup_of_parts fun part hp => fitsGroup_text.2 part (hparts part hp)
  have hnest := Braces.nestingDepth_group_le hne' hfit fun c hc => (hbehind c hc).weight_eq
  have hsplit := Braces.splitGroup_join hne' hfit behind
  rw [Member.text_group, List.cons_append]
  refine Member.parse_brace_eq_ok_iff.mpr ⟨?_, parts, ?_, hkind, ?_⟩
  · exact admitGroup_eq_ok_iff.mpr ⟨hgroups, hnest.trans hdepth⟩
  · rw [hsplit]
    exact forall₂_map_text hread
  · rw [hsplit]

theorem Expression.parse_text_sum {options : Options} {members : List Member}
    (hprint : Expression.Printable maxCount members)
    (hread : ∀ member ∈ members, Member.parse options member.text = .ok member)
    (hkind : OneKind Member.kind members) :
    Expression.parse options (Expression.text members) = .ok members := by
  refine Expression.parse_eq_ok_iff.mpr ⟨?_, hkind⟩
  rw [hprint.split_text]
  exact forall₂_map_text hread

theorem parse_text_of_kind (options : Options) (kind : Kind) :
    (∀ member : Member, member.Printable options.maxCount → member.depth ≤ maxDepth →
      (options.groups = false → member.depth = 0) → (∀ term ∈ member.terms, term.kind = kind) →
      Member.parse options member.text = .ok member) ∧
    ∀ members : List Member, Expression.Printable options.maxCount members →
      Expression.depth members ≤ maxDepth →
      (options.groups = false → Expression.depth members = 0) →
      (∀ term ∈ Expression.terms members, term.kind = kind) →
      Expression.parse options (Expression.text members) = .ok members := by
  apply Expression.induct
  · rintro term (hterm | _) - - -
    have hhead : term.text.head? ≠ some '{' := fun h =>
      (term.plain_text _ (List.mem_of_mem_head? h)).1 rfl
    exact (Member.parse_term_eq_ok_iff hhead).mpr ⟨term, Term.parse_text hterm, rfl⟩
  · rintro parts behind ih (_ | ⟨hne, hparts, hbehind⟩) hdepth hgroups hkind
    rw [Member.depth] at hdepth hgroups
    have hon : options.groups = true := by
      by_contra hoff
      exact absurd (hgroups (Bool.eq_false_iff.mpr hoff)) (Nat.succ_ne_zero _)
    have hkinds : ∀ part ∈ parts, ∀ term ∈ Expression.terms part, term.kind = kind :=
      fun part hp term ht => hkind term (Member.mem_terms_group.mpr ⟨part, hp, ht⟩)
    refine Member.parse_text_group hne hparts hbehind hon hdepth ?_ ⟨kind, ?_⟩
    · intro part hp
      have hle := Expression.depthOfParts_le_iff.mp (Nat.le_refl _) part hp
      exact ih part hp (hparts part hp) (by omega)
        (fun hoff => absurd (hon.symm.trans hoff) (by decide)) (hkinds part hp)
    · intro part hp
      exact Term.leadingKind_of_forall (terms_ne_nil_of_formed.2 part (hparts part hp))
        (hkinds part hp)
  · rintro members ih ⟨hne, hmembers⟩ hdepth hgroups hkind
    have hkinds : ∀ member ∈ members, ∀ term ∈ member.terms, term.kind = kind :=
      fun member hm term ht => hkind term (Expression.mem_terms.mpr ⟨member, hm, ht⟩)
    refine Expression.parse_text_sum (.sum hne hmembers) ?_ ⟨kind, ?_⟩
    · intro member hm
      refine ih member hm (hmembers member hm) (Expression.depth_le_iff.mp hdepth member hm) ?_
        (hkinds member hm)
      intro hoff
      exact Nat.le_zero.mp (Expression.depth_le_iff.mp (Nat.le_of_eq (hgroups hoff)) member hm)
    · intro member hm
      exact Term.leadingKind_of_forall (terms_ne_nil_of_formed.1 member (hmembers member hm))
        (hkinds member hm)

/-- Reading undoes printing. What is printed may be any tree of sums and groups whose terms are
of one kind, with groups nested as deep as is allowed, and with none where they are disabled. -/
theorem Expression.parse_printed_text {options : Options} {expression : Expression}
    (hprint : Expression.Printable options.maxCount expression)
    (hkind : ∀ s ∈ Expression.terms expression, ∀ t ∈ Expression.terms expression,
      s.kind = t.kind)
    (hdepth : Expression.depth expression ≤ maxDepth)
    (hgroups : options.groups = false → Expression.depth expression = 0) :
    Expression.parse options (Expression.text expression) = .ok expression := by
  obtain ⟨term, hterm⟩ := List.exists_mem_of_ne_nil _
    (terms_ne_nil_of_formed.2 expression hprint)
  exact (parse_text_of_kind options term.kind).2 expression hprint hdepth hgroups
    fun t ht => hkind t ht term hterm

/-- A group in a group, with a bare threshold behind a keyword without number, and a fate die. -/
theorem Expression.parse_printed_text_nested :
    let inner : Member := .group [[.term ⟨4, .fate, [⟨some .success, ⟨.less, none⟩⟩,
      ⟨none, ⟨.equal, some 1⟩⟩]⟩]] ['k', 'h']
    let expression : Expression := [.group [[.term ⟨2, .sided 6, [⟨some .failure, ⟨.equal, some 1⟩⟩,
      ⟨some .drop, ⟨.equal, some 3⟩⟩]⟩, inner], [inner]] []]
    Expression.text expression = ("\x7b2d6f=1d=3+\x7b4dFs<=1\x7dkh,\x7b4dFs<=1\x7dkh\x7d").toList ∧
      Expression.parse { groups := true } (Expression.text expression) = .ok expression := by
  intro inner expression
  have hfate : Term.Admissible 100 ⟨4, .fate, [⟨some .success, ⟨.less, none⟩⟩,
      ⟨none, ⟨.equal, some 1⟩⟩]⟩ := by decide
  have hsided : Term.Admissible 100 ⟨2, .sided 6, [⟨some .failure, ⟨.equal, some 1⟩⟩,
      ⟨some .drop, ⟨.equal, some 3⟩⟩]⟩ := by decide
  have hinner : inner.Printable 100 :=
    .group (by decide) (by simpa using .sum (by simp) (by simpa using .term hfate)) (by decide)
  have hprint : Expression.Printable 100 expression := by
    refine .sum (by simp [expression]) ?_
    simp only [expression, List.mem_singleton, forall_eq]
    refine .group (by simp) ?_ (by decide)
    simp only [List.mem_cons, forall_eq_or_imp, List.not_mem_nil]
    refine ⟨.sum (by simp) ?_, .sum (by simp) ?_, fun _ h => nomatch h⟩
    · simp only [List.mem_cons, forall_eq_or_imp, List.not_mem_nil]
      exact ⟨.term hsided, hinner, fun _ h => nomatch h⟩
    · simp only [List.mem_singleton, forall_eq]
      exact hinner
  exact ⟨by decide, Expression.parse_printed_text hprint (by decide) (by decide) (by decide)⟩

end DiceNotation
