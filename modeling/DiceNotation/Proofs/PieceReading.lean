import DiceNotation.Expression.Reader
import Mathlib.Data.List.Forall2

/-!
# Reading in pieces

A text is read if each of its pieces is read and all pieces are of one kind. What holds of every
expression that is read follows by induction on the reading, whose steps are the term, the group
and the sum.
-/
namespace DiceNotation

def OneKind {α : Type} (kindOf : α → Kind) (items : List α) : Prop :=
  ∃ kind, ∀ item ∈ items, kindOf item = kind

section

variable {ι α : Type} {read : ι → Except RollError α} {kindOf : α → Kind}
  {declared : Option Kind} {pieces : List ι} {items : List α}

theorem readPieces_cons_eq_ok_iff {piece : ι} :
    readPieces read kindOf declared (piece :: pieces) = .ok items ↔
      ∃ item rest, read piece = .ok item ∧ (∀ k ∈ declared, k = kindOf item) ∧
        readPieces read kindOf (some (kindOf item)) pieces = .ok rest ∧ items = item :: rest := by
  have hall : ∀ kind, (declared.all (· = kind) = true) ↔ ∀ k ∈ declared, k = kind := by
    intro kind
    cases declared <;> simp
  rw [readPieces, RollError.bind_eq_ok_iff]
  constructor
  · rintro ⟨item, hread, h⟩
    split at h
    · next hkind =>
      obtain ⟨rest, hrest, h⟩ := RollError.bind_eq_ok_iff.mp h
      cases h
      exact ⟨item, rest, hread, (hall _).mp hkind, hrest, rfl⟩
    · cases h
  · rintro ⟨item, rest, hread, hkind, hrest, rfl⟩
    refine ⟨item, hread, ?_⟩
    rw [if_pos ((hall _).mpr hkind)]
    exact RollError.bind_eq_ok_iff.mpr ⟨rest, hrest, rfl⟩

theorem readPieces_eq_ok_iff :
    readPieces read kindOf declared pieces = .ok items ↔
      List.Forall₂ (fun piece item => read piece = .ok item) pieces items ∧
        ∃ kind, (∀ k ∈ declared, k = kind) ∧ ∀ item ∈ items, kindOf item = kind := by
  induction pieces generalizing declared items with
  | nil =>
    constructor
    · intro h
      cases h
      refine ⟨.nil, declared.getD .sum, ?_, fun _ h => nomatch h⟩
      rintro k rfl
      rfl
    · rintro ⟨h, -⟩
      cases h
      rfl
  | cons piece pieces ih =>
    rw [readPieces_cons_eq_ok_iff]
    constructor
    · rintro ⟨item, rest, hread, hdeclared, hrest, rfl⟩
      obtain ⟨hall, kind, hfirst, hkinds⟩ := ih.mp hrest
      have hitem : kindOf item = kind := hfirst _ rfl
      refine ⟨.cons hread hall, kind, ?_, List.forall_mem_cons.mpr ⟨hitem, hkinds⟩⟩
      intro k hk
      exact (hdeclared k hk).trans hitem
    · rintro ⟨hall, kind, hdeclared, hkinds⟩
      cases hall with
      | @cons _ item _ rest hread hrest =>
        obtain ⟨hitem, hkinds⟩ := List.forall_mem_cons.mp hkinds
        refine ⟨item, rest, hread, ?_, ih.mpr ⟨hrest, kind, ?_, hkinds⟩, rfl⟩
        · intro k hk
          exact (hdeclared k hk).trans hitem.symm
        · intro k hk
          cases hk
          exact hitem

theorem readPieces_none_eq_ok_iff :
    readPieces read kindOf none pieces = .ok items ↔
      List.Forall₂ (fun piece item => read piece = .ok item) pieces items ∧
        OneKind kindOf items := by
  rw [readPieces_eq_ok_iff]
  simp [OneKind]

theorem readPieces_congr {others : List ι}
    (h : List.Forall₂ (fun piece other => read piece = read other) pieces others)
    (declared : Option Kind) :
    readPieces read kindOf declared pieces = readPieces read kindOf declared others := by
  induction h generalizing declared with
  | nil => rfl
  | cons hpiece _ ih => simp only [readPieces, hpiece, ih]

theorem readPieces_congr_read {other : ι → Except RollError α}
    (h : ∀ piece ∈ pieces, read piece = other piece) (declared : Option Kind) :
    readPieces read kindOf declared pieces = readPieces other kindOf declared pieces := by
  induction pieces generalizing declared with
  | nil => rfl
  | cons piece pieces ih =>
    obtain ⟨hpiece, hpieces⟩ := List.forall_mem_cons.mp h
    simp only [readPieces, hpiece, ih hpieces]

/-- A view that shows the kind of an item can be taken of each item that is read. -/
theorem map_readPieces {β : Type} {view : α → β} {kindOfView : β → Kind}
    (hkind : ∀ item, kindOf item = kindOfView (view item)) (declared : Option Kind)
    (pieces : List ι) :
    List.map view <$> readPieces read kindOf declared pieces =
      readPieces (fun piece => view <$> read piece) kindOfView declared pieces := by
  induction pieces generalizing declared with
  | nil => rfl
  | cons piece pieces ih =>
    rw [readPieces, readPieces, map_bind, bind_map_left]
    congr 1
    funext item
    rw [← hkind item, ← ih]
    by_cases hdeclared : declared.all (· = kindOf item) = true
    · rw [if_pos hdeclared, if_pos hdeclared, map_bind, bind_map_left]
      simp only [map_pure, List.map_cons]
    · rw [if_neg hdeclared, if_neg hdeclared]
      rfl

def declaredAfter (kindOf : α → Kind) (declared : Option Kind) (items : List α) : Option Kind :=
  items.foldl (fun _ item => some (kindOf item)) declared

theorem declaredAfter_of_forall {kind : Kind} (hne : items ≠ [])
    (h : ∀ item ∈ items, kindOf item = kind) (declared : Option Kind) :
    declaredAfter kindOf declared items = some kind := by
  induction items generalizing declared with
  | nil => exact absurd rfl hne
  | cons item items ih =>
    obtain ⟨hitem, hitems⟩ := List.forall_mem_cons.mp h
    cases items with
    | nil => exact congrArg some hitem
    | cons next items => exact ih (List.cons_ne_nil _ _) hitems (some (kindOf item))

theorem readPieces_append (declared : Option Kind) (pieces others : List ι) :
    readPieces read kindOf declared (pieces ++ others) = do
      let items ← readPieces read kindOf declared pieces
      let rest ← readPieces read kindOf (declaredAfter kindOf declared items) others
      return items ++ rest := by
  induction pieces generalizing declared with
  | nil => exact (bind_pure _).symm
  | cons piece pieces ih =>
    rw [List.cons_append, readPieces, readPieces, bind_assoc]
    congr 1
    funext item
    split
    · rw [ih]
      simp only [bind_assoc, pure_bind, List.cons_append]
      rfl
    · rfl

theorem error_of_readPieces {e : RollError}
    (h : readPieces read kindOf declared pieces = .error e) :
    (∃ piece ∈ pieces, read piece = .error e) ∨ e = .mixedKinds := by
  induction pieces generalizing declared with
  | nil => cases h
  | cons piece pieces ih =>
    rw [readPieces, RollError.bind_eq_error_iff] at h
    rcases h with hread | ⟨item, -, h⟩
    · exact .inl ⟨piece, List.mem_cons_self .., hread⟩
    · split at h
      · rcases RollError.bind_eq_error_iff.mp h with hrest | ⟨rest, -, h⟩
        · refine (ih hrest).imp_left ?_
          rintro ⟨other, hother, hread⟩
          exact ⟨other, List.mem_cons_of_mem _ hother, hread⟩
        · cases h
      · cases h
        exact .inr rfl

end

theorem admitGroup_eq_ok_iff {options : Options} {text : List Char} :
    admitGroup options text = .ok () ↔
      options.groups = true ∧ Braces.nestingDepth text ≤ maxDepth := by
  unfold admitGroup
  by_cases hg : options.groups = true
  · by_cases hd : maxDepth < Braces.nestingDepth text
    · simp [hg, hd, Nat.not_le.mpr hd]
    · simp [hg, hd, Nat.not_lt.mp hd]
  · simp [hg]

theorem Expression.parse_eq_ok_iff {options : Options} {text : List Char}
    {members : List Member} :
    Expression.parse options text = .ok members ↔
      List.Forall₂ (fun piece member => Member.parse options piece = .ok member)
          (Braces.split '+' text) members ∧
        OneKind Member.kind members := by
  rw [Expression.parse_eq, readPieces_none_eq_ok_iff]

theorem Member.parse_brace_eq_ok_iff {options : Options} {body : List Char} {member : Member} :
    Member.parse options ('{' :: body) = .ok member ↔
      admitGroup options ('{' :: body) = .ok () ∧
        ∃ parts, List.Forall₂ (fun piece part => Expression.parse options piece = .ok part)
            (Braces.splitGroup body).1 parts ∧
          OneKind Expression.kind parts ∧ member = .group parts (Braces.splitGroup body).2 := by
  rw [Member.parse_brace, Member.parseGroup_eq, RollError.bind_eq_ok_iff]
  constructor
  · rintro ⟨_, hallowed, h⟩
    obtain ⟨parts, hparts, h⟩ := RollError.bind_eq_ok_iff.mp h
    cases h
    obtain ⟨hall, hkind⟩ := readPieces_none_eq_ok_iff.mp hparts
    exact ⟨hallowed, parts, hall, hkind, rfl⟩
  · rintro ⟨hallowed, parts, hall, hkind, rfl⟩
    have hparts := readPieces_none_eq_ok_iff.mpr ⟨hall, hkind⟩
    exact ⟨(), hallowed, RollError.bind_eq_ok_iff.mpr ⟨parts, hparts, rfl⟩⟩

theorem Member.parse_term_eq_ok_iff {options : Options} {text : List Char} {member : Member}
    (h : text.head? ≠ some '{') :
    Member.parse options text = .ok member ↔
      ∃ term, Term.parse options text = .ok term ∧ member = .term term := by
  rw [Member.parse_of_head?_ne h]
  cases hterm : Term.parse options text with
  | error e => simp [Functor.map, Except.map]
  | ok term => simp [Functor.map, Except.map, eq_comm]

/-- Induction on the texts that a reading meets, whether it succeeds or not: `P` is about pieces
that are members and `Q` about sums. A piece of a sum may be the whole text, so the induction goes
by the length of sums, which only groups make shorter. -/
theorem Expression.text_induct {P Q : List Char → Prop}
    (term : ∀ text, text.head? ≠ some '{' → P text)
    (group : ∀ body, (∀ piece ∈ (Braces.splitGroup body).1, Q piece) → P ('{' :: body))
    (sum : ∀ text, (∀ piece ∈ Braces.split '+' text, P piece) → Q text) :
    (∀ text, P text) ∧ ∀ text, Q text := by
  have hmember : ∀ text, (∀ part : List Char, part.length < text.length → Q part) → P text := by
    intro text h
    by_cases hbrace : text.head? = some '{'
    · obtain ⟨body, rfl⟩ := List.head?_eq_some_iff.mp hbrace
      refine group body ?_
      intro piece hpiece
      have hle := Braces.length_le_of_mem_splitGroup hpiece
      exact h piece (Nat.lt_succ_of_le hle)
    · exact term text hbrace
  have hsum : ∀ text, Q text := by
    intro text
    induction hn : text.length using Nat.strongRecOn generalizing text with
    | ind n ih =>
      refine sum text ?_
      intro piece hpiece
      have hle := Braces.length_le_of_mem_split hpiece
      refine hmember piece ?_
      intro part hpart
      exact ih part.length (by omega) part rfl
  exact ⟨fun text => hmember text fun part _ => hsum part, hsum⟩

section

variable {options : Options} {P : List Char → Member → Prop} {Q : List Char → List Member → Prop}

theorem Expression.parse_induct
    (term : ∀ text term, text.head? ≠ some '{' → Term.parse options text = .ok term →
      P text (.term term))
    (group : ∀ body parts, admitGroup options ('{' :: body) = .ok () →
      List.Forall₂ Q (Braces.splitGroup body).1 parts → OneKind Expression.kind parts →
      P ('{' :: body) (.group parts (Braces.splitGroup body).2))
    (sum : ∀ text members, List.Forall₂ P (Braces.split '+' text) members →
      OneKind Member.kind members → Q text members)
    {text : List Char} {members : List Member} (h : Expression.parse options text = .ok members) :
    Q text members := by
  have hread := Expression.text_induct
    (P := fun text => ∀ member, Member.parse options text = .ok member → P text member)
    (Q := fun text => ∀ members, Expression.parse options text = .ok members → Q text members)
    ?_ ?_ ?_
  · exact hread.2 text members h
  · intro piece hbrace member hpiece
    obtain ⟨found, hterm, rfl⟩ := (Member.parse_term_eq_ok_iff hbrace).mp hpiece
    exact term piece found hbrace hterm
  · intro body ih member hgroup
    obtain ⟨hallowed, parts, hparts, hkinds, rfl⟩ := Member.parse_brace_eq_ok_iff.mp hgroup
    have hinner := (List.forall₂_and_left _ _).mpr ⟨ih, hparts⟩
    exact group body parts hallowed (hinner.imp fun _ part h => h.1 part h.2) hkinds
  · intro sumText ih members hsum
    obtain ⟨hall, hkind⟩ := Expression.parse_eq_ok_iff.mp hsum
    have hpieces := (List.forall₂_and_left _ _).mpr ⟨ih, hall⟩
    exact sum sumText members (hpieces.imp fun _ member h => h.1 member h.2) hkind

end

end DiceNotation
