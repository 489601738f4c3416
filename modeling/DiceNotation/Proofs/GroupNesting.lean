import DiceNotation.Proofs.Allowance
import DiceNotation.Proofs.KindAgreement
import DiceNotation.Proofs.NestingDepth

/-!
# Groups inside groups

A group is read by splitting the text behind its brace, and what it is split into may hold groups
again. The braces of such an inner group are nested less deep than those of the outer one, whether
or not the braces match: all of it stands where the outer brace is still open. So groups that are
open at one time get shallower, and once the outermost one was found to be shallow enough the limit
holds for all inside it.
-/
namespace DiceNotation

namespace Braces

/-- The text up to the brace that closes `level` more levels and the one before the text, or all of
it if there is no such brace. -/
def beforeClose (level : Nat) (text : List Char) : List Char :=
  (cutAtClose level text).elim text Prod.fst

theorem splitGroup_fst (body : List Char) :
    (splitGroup body).1 = split ',' (beforeClose 0 body) := by
  unfold splitGroup beforeClose
  split
  · next hcut => rw [hcut, Option.elim_some]
  · next hcut => rw [hcut, Option.elim_none]

theorem covered_beforeClose (level : Nat) (text : List Char) :
    Covered level (beforeClose level text) ∧ beforeClose level text <+: text := by
  unfold beforeClose
  cases hcut : cutAtClose level text with
  | none => exact ⟨cutAtClose_eq_none_iff.mp hcut, List.prefix_rfl⟩
  | some parts =>
    obtain ⟨rfl, hcovered, -⟩ := cutAtClose_eq_some_iff.mp hcut
    exact ⟨hcovered, List.prefix_append parts.1 _⟩

/-- Whatever a group is split into lies below its brace. -/
theorem nestingDepth_lt_of_mem {body part piece : List Char} (hpart : part ∈ (splitGroup body).1)
    (hpiece : piece ∈ split '+' part) : nestingDepth piece < nestingDepth ('{' :: body) := by
  obtain ⟨hcovered, hbody⟩ := covered_beforeClose 0 body
  rw [splitGroup_fst] at hpart
  have hinfix : piece <:+: beforeClose 0 body :=
    (infix_of_mem_split hpiece).trans (infix_of_mem_split hpart)
  -- Up to the closing brace the scan stays one level above that of the text inside.
  have hopen : nestingDepth ('{' :: beforeClose 0 body) = nestingDepth (beforeClose 0 body) + 1 :=
    congrArg Prod.snd (foldl_deepen_add hcovered 0 1)
  have hfront : '{' :: beforeClose 0 body <:+: '{' :: body :=
    ((List.prefix_cons_inj '{').mpr hbody).isInfix
  calc nestingDepth piece
      ≤ nestingDepth (beforeClose 0 body) := nestingDepth_le_of_infix hinfix
    _ < nestingDepth ('{' :: beforeClose 0 body) := by omega
    _ ≤ nestingDepth ('{' :: body) := nestingDepth_le_of_infix hfront

theorem nestingDepth_cons_open_pos (body : List Char) : 0 < nestingDepth ('{' :: body) :=
  le_foldl_deepen (1, 1) body

/-- Reading the outer text as a group comes to the inner text, which is to be read as a group as
well. -/
inductive Nests : List Char → List Char → Prop where
  | intro {body part inner : List Char} (hpart : part ∈ (splitGroup body).1)
      (hinner : '{' :: inner ∈ split '+' part) : Nests ('{' :: body) ('{' :: inner)

theorem Nests.nestingDepth_lt {outer inner : List Char} (h : Nests outer inner) :
    nestingDepth inner < nestingDepth outer := by
  cases h with
  | intro hpart hinner => exact nestingDepth_lt_of_mem hpart hinner

theorem nestingDepth_lt_of_transGen {outer inner : List Char}
    (h : Relation.TransGen Nests outer inner) : nestingDepth inner < nestingDepth outer := by
  induction h with
  | single h => exact h.nestingDepth_lt
  | tail _ h ih => exact h.nestingDepth_lt.trans ih

theorem wellFounded_nests : WellFounded fun inner outer => Nests outer inner :=
  Subrelation.wf Nests.nestingDepth_lt (measure nestingDepth).wf

end Braces

open Braces (Nests nestingDepth)

/-! ### The groups that are open at one time -/

/-- The groups that can be open at one time while a sum is read, the innermost first. A group that
is a member of the sum is opened first, and one inside an open group only if that one was
admitted. -/
inductive Expression.Opened (options : Options) (text : List Char) : List (List Char) → Prop where
  | outside : Opened options text []
  | member {body : List Char} (h : '{' :: body ∈ Braces.split '+' text) :
      Opened options text ['{' :: body]
  | inside {outer inner : List Char} {groups : List (List Char)}
      (hopened : Opened options text (outer :: groups))
      (hadmitted : admitGroup options outer = .ok ()) (hnests : Nests outer inner) :
      Opened options text (inner :: outer :: groups)

namespace Expression.Opened

variable {options : Options} {text group : List Char} {groups : List (List Char)}

theorem starts_with_brace (h : Opened options text (group :: groups)) :
    ∃ body, group = '{' :: body := by
  cases h with
  | member _ => exact ⟨_, rfl⟩
  | inside _ _ hnests =>
    cases hnests with
    | intro _ _ => exact ⟨_, rfl⟩

/-- Each group that is opened inside another one is nested at least one level less deep. -/
theorem nestingDepth_add_length_le (h : Opened options text (group :: groups))
    (hinside : groups ≠ []) : nestingDepth group + groups.length ≤ maxDepth := by
  generalize hall : group :: groups = all at h
  induction h generalizing group groups with
  | outside => cases hall
  | member _ =>
    cases hall
    exact absurd rfl hinside
  | @inside outer inner others hopened hadmitted hnests ih =>
    cases hall
    have hlt := hnests.nestingDepth_lt
    rw [List.length_cons]
    -- The outermost group was admitted, and each group inside makes up for its place by a level.
    by_cases hothers : others = []
    · have hle := (admitGroup_eq_ok_iff.mp hadmitted).2
      rw [hothers, List.length_nil]
      omega
    · have hle := ih hothers rfl
      omega

/-- The limit never refuses a group that was opened inside another one. -/
theorem admitted_of_inside (h : Opened options text (group :: groups)) (hinside : groups ≠ []) :
    admitGroup options group = .ok () := by
  have hle := h.nestingDepth_add_length_le hinside
  cases h with
  | member _ => exact absurd rfl hinside
  | inside _ hadmitted _ =>
    have hgroups := (admitGroup_eq_ok_iff.mp hadmitted).1
    exact admitGroup_eq_ok_iff.mpr ⟨hgroups, by omega⟩

theorem length_le (h : Opened options text groups) : groups.length ≤ maxDepth := by
  cases groups with
  | nil => exact Nat.zero_le _
  | cons group groups =>
    by_cases hinside : groups = []
    · have hone : 1 ≤ maxDepth := by decide
      rw [hinside]
      exact hone
    · have hle := h.nestingDepth_add_length_le hinside
      obtain ⟨body, rfl⟩ := h.starts_with_brace
      have hpos := Braces.nestingDepth_cons_open_pos body
      rw [List.length_cons]
      omega

end Expression.Opened

/-! ### Reading with room for so many groups -/

/-- Reads a member with room for so many groups that are open at one time. A group that there is
no room for is left to `beyond`. -/
def Member.parseWithin (options : Options) (beyond : List Char → Except RollError Member) :
    Nat → List Char → Except RollError Member
  | 0, '{' :: body => beyond ('{' :: body)
  | room + 1, '{' :: body => do
    admitGroup options ('{' :: body)
    let parts ← readPieces
      (fun part => readPieces (Member.parseWithin options beyond room) Member.kind none
        (Braces.split '+' part))
      Expression.kind none (Braces.splitGroup body).1
    return .group parts (Braces.splitGroup body).2
  | _, text => Member.term <$> Term.parse options text

def Expression.parseWithin (options : Options) (beyond : List Char → Except RollError Member)
    (room : Nat) (text : List Char) : Except RollError Expression :=
  readPieces (Member.parseWithin options beyond room) Member.kind none (Braces.split '+' text)

section

variable {options : Options} {beyond : List Char → Except RollError Member} {room : Nat}
  {text : List Char}

theorem Member.parseWithin_of_head?_ne (h : text.head? ≠ some '{') :
    Member.parseWithin options beyond room text = Member.parse options text := by
  rw [Member.parse_of_head?_ne h]
  cases text with
  | nil => cases room <;> rfl
  | cons c rest =>
    have hc : c ≠ '{' := fun hc => h (congrArg some hc)
    cases room <;> simp [Member.parseWithin, hc]

theorem Member.parseWithin_brace (body : List Char) :
    Member.parseWithin options beyond (room + 1) ('{' :: body) = do
      admitGroup options ('{' :: body)
      let parts ← readPieces (Expression.parseWithin options beyond room) Expression.kind none
        (Braces.splitGroup body).1
      return .group parts (Braces.splitGroup body).2 := rfl

/-- There is room for every group in a text if there is room for its deepest brace. -/
theorem Member.parseWithin_eq_parse (h : nestingDepth text ≤ room) :
    Member.parseWithin options beyond room text = Member.parse options text := by
  induction room generalizing text with
  | zero =>
    refine parseWithin_of_head?_ne ?_
    intro hbrace
    obtain ⟨body, rfl⟩ := List.head?_eq_some_iff.mp hbrace
    have hpos := Braces.nestingDepth_cons_open_pos body
    omega
  | succ room ih =>
    by_cases hbrace : text.head? = some '{'
    · obtain ⟨body, rfl⟩ := List.head?_eq_some_iff.mp hbrace
      have hparts : ∀ part ∈ (Braces.splitGroup body).1,
          Expression.parseWithin options beyond room part = Expression.parse options part := by
        intro part hpart
        rw [Expression.parseWithin, Expression.parse_eq]
        refine readPieces_congr_read ?_ none
        intro piece hpiece
        have hlt := Braces.nestingDepth_lt_of_mem hpart hpiece
        exact ih (by omega)
      rw [parseWithin_brace, parse_brace, parseGroup_eq, readPieces_congr_read hparts]
    · exact parseWithin_of_head?_ne hbrace

theorem Expression.parseWithin_maxDepth (options : Options)
    (beyond : List Char → Except RollError Member) (text : List Char) :
    Expression.parseWithin options beyond maxDepth text = Expression.parse options text := by
  rw [Expression.parseWithin, Expression.parse_eq]
  refine readPieces_congr_read ?_ none
  intro piece hpiece
  by_cases hdepth : nestingDepth piece ≤ maxDepth
  · exact Member.parseWithin_eq_parse hdepth
  · by_cases hbrace : piece.head? = some '{'
    · -- A member that is nested too deep is refused before anything in it is read.
      obtain ⟨body, rfl⟩ := List.head?_eq_some_iff.mp hbrace
      rw [maxDepth, Member.parseWithin_brace, Member.parse_brace]
      cases hadmit : admitGroup options ('{' :: body) with
      | error e => rfl
      | ok _ => exact absurd (admitGroup_eq_ok_iff.mp hadmit).2 hdepth
    · exact Member.parseWithin_of_head?_ne hbrace

end

/-! ### The limit and the tree -/

theorem nestingDepth_of_admitGroup {options : Options} {text : List Char}
    (h : admitGroup options text = .error .tooDeep) : maxDepth < nestingDepth text := by
  unfold admitGroup at h
  split at h
  · split at h
    · next hdepth => exact hdepth
    · cases h
  · cases h

theorem Expression.tooDeep_of_parse {options : Options} {text : List Char}
    (h : Expression.parse options text = .error .tooDeep) :
    ∃ body, '{' :: body ∈ Braces.split '+' text ∧ maxDepth < nestingDepth ('{' :: body) := by
  have hread := Expression.text_induct
    (P := fun text => Member.parse options text = .error .tooDeep →
      ∃ body, text = '{' :: body ∧ maxDepth < nestingDepth ('{' :: body))
    (Q := fun text => Expression.parse options text = .error .tooDeep →
      ∃ body, '{' :: body ∈ Braces.split '+' text ∧ maxDepth < nestingDepth ('{' :: body))
    ?_ ?_ ?_
  · exact hread.2 text h
  · intro text hbrace herror
    rw [Member.parse_of_head?_ne hbrace, map_eq_pure_bind] at herror
    rcases RollError.bind_eq_error_iff.mp herror with hterm | ⟨term, -, herror⟩
    · rcases Term.error_of_parse hterm with h | ⟨count, h⟩ | h <;> cases h
    · cases herror
  · intro body ih herror
    refine ⟨body, rfl, ?_⟩
    rw [Member.parse_brace, Member.parseGroup_eq] at herror
    rcases RollError.bind_eq_error_iff.mp herror with hrefused | ⟨_, -, herror⟩
    · exact nestingDepth_of_admitGroup hrefused
    · rcases RollError.bind_eq_error_iff.mp herror with hparts | ⟨parts, -, herror⟩
      · rcases error_of_readPieces hparts with ⟨part, hpart, hread⟩ | hkinds
        · obtain ⟨inner, hinner, hdepth⟩ := ih part hpart hread
          exact hdepth.trans (Braces.nestingDepth_lt_of_mem hpart hinner)
        · cases hkinds
      · cases herror
  · intro text ih herror
    rw [Expression.parse_eq] at herror
    rcases error_of_readPieces herror with ⟨piece, hpiece, hread⟩ | hkinds
    · obtain ⟨body, rfl, hdepth⟩ := ih piece hpiece hread
      exact ⟨body, hpiece, hdepth⟩
    · cases hkinds

/-- A tree that is read nests groups no deeper than the text nests braces, and so within the
limit. -/
theorem Expression.depth_le_of_parse {options : Options} {text : List Char} {members : List Member}
    (h : Expression.parse options text = .ok members) : Expression.depth members ≤ maxDepth := by
  have hread := Expression.parse_induct
    (P := fun text member => member.depth ≤ nestingDepth text ∧ member.depth ≤ maxDepth)
    (Q := fun text members =>
      (∀ deepest, (∀ piece ∈ Braces.split '+' text, nestingDepth piece ≤ deepest) →
        Expression.depth members ≤ deepest) ∧ Expression.depth members ≤ maxDepth)
    ?_ ?_ ?_ h
  · exact hread.2
  · intro text term _ _
    exact ⟨Nat.zero_le _, Nat.zero_le _⟩
  · intro body parts hadmitted hparts _
    have hlimit := (admitGroup_eq_ok_iff.mp hadmitted).2
    have hpos := Braces.nestingDepth_cons_open_pos body
    have hbelow : ∀ part ∈ (Braces.splitGroup body).1, ∀ piece ∈ Braces.split '+' part,
        nestingDepth piece ≤ nestingDepth ('{' :: body) - 1 := by
      intro part hpart piece hpiece
      have hlt := Braces.nestingDepth_lt_of_mem hpart hpiece
      omega
    have hboth := (List.forall₂_and_left _ _).mpr ⟨hbelow, hparts⟩
    have hdepth : Expression.depthOfParts parts ≤ nestingDepth ('{' :: body) - 1 :=
      Expression.depthOfParts_le_iff.mpr
        (forall_right_of_forall₂ (hboth.imp fun _ part h => h.2.1 _ h.1))
    rw [Member.depth]
    omega
  · intro text members hmembers _
    refine ⟨?_, ?_⟩
    · intro deepest hdeepest
      have hboth := (List.forall₂_and_left _ _).mpr ⟨hdeepest, hmembers⟩
      exact Expression.depth_le_iff.mpr
        (forall_right_of_forall₂ (hboth.imp fun _ member h => h.2.1.trans h.1))
    · exact Expression.depth_le_iff.mpr
        (forall_right_of_forall₂ (hmembers.imp fun _ member h => h.2))

/-- Reading groups inside groups is bounded, whatever braces the text has. The braces of an inner
group are nested less deep than those of every group around it, so no chain of groups goes on for
ever. Of the groups that are open at one time all but the outermost are within the limit, so only a
member of the outermost sum is refused for its depth, and there are never more of them than the
limit says: with room for so many the text is read to the end, and what would be done beyond is
never asked for. A tree that is read nests groups no deeper either. -/
theorem Expression.group_nesting (options : Options) (text : List Char) :
    (∀ outer inner, Relation.TransGen Nests outer inner →
      nestingDepth inner < nestingDepth outer) ∧
    (WellFounded fun inner outer => Nests outer inner) ∧
    (∀ group groups, Expression.Opened options text (group :: groups) → groups ≠ [] →
      admitGroup options group = .ok ()) ∧
    (Expression.parse options text = .error .tooDeep →
      ∃ body, '{' :: body ∈ Braces.split '+' text ∧ maxDepth < nestingDepth ('{' :: body)) ∧
    (∀ groups, Expression.Opened options text groups → groups.length ≤ maxDepth) ∧
    (∀ beyond, Expression.parseWithin options beyond maxDepth text =
      Expression.parse options text) ∧
    ∀ members, Expression.parse options text = .ok members →
      Expression.depth members ≤ maxDepth := by
  refine ⟨?_, Braces.wellFounded_nests, ?_, Expression.tooDeep_of_parse, ?_, ?_, ?_⟩
  · intro outer inner hnests
    exact Braces.nestingDepth_lt_of_transGen hnests
  · intro group groups hopened hinside
    exact hopened.admitted_of_inside hinside
  · intro groups hopened
    exact hopened.length_le
  · intro beyond
    exact Expression.parseWithin_maxDepth options beyond text
  · intro members hread
    exact Expression.depth_le_of_parse hread

/-- Three groups are open where the innermost one is read, and none of the three is ever closed. -/
theorem Expression.group_nesting_unclosed :
    let options : Options := { groups := true }
    let text := "\x7b\x7b1d6\x7d+\x7b\x7b2d4,1d8".toList
    let middle := "\x7b\x7b2d4,1d8".toList
    let inner := "\x7b2d4,1d8".toList
    let members : List Member := [.group [[.group [[.term ⟨1, .sided 6, []⟩]] [],
      .group [[.group [[.term ⟨2, .sided 4, []⟩], [.term ⟨1, .sided 8, []⟩]] []]] []]] []]
    nestingDepth inner < nestingDepth text ∧
      Expression.Opened options text [inner, middle, text] ∧
      admitGroup options inner = .ok () ∧
      Expression.parse options text = .ok members ∧ Expression.depth members ≤ maxDepth := by
  intro options text middle inner members
  have hmiddle : Nests text middle :=
    @Nests.intro "\x7b1d6\x7d+\x7b\x7b2d4,1d8".toList "\x7b1d6\x7d+\x7b\x7b2d4,1d8".toList
      "\x7b2d4,1d8".toList (by decide) (by decide)
  have hinner : Nests middle inner :=
    @Nests.intro "\x7b2d4,1d8".toList "\x7b2d4,1d8".toList "2d4,1d8".toList (by decide) (by decide)
  have hoptions : options.groups = true := rfl
  have houter : admitGroup options text = .ok () :=
    admitGroup_eq_ok_iff.mpr ⟨hoptions, by decide⟩
  have hsecond : admitGroup options middle = .ok () :=
    admitGroup_eq_ok_iff.mpr ⟨hoptions, by decide⟩
  have hmember : text ∈ Braces.split '+' text := by decide
  have hopened : Expression.Opened options text [inner, middle, text] :=
    .inside (.inside (.member hmember) houter hmiddle) hsecond hinner
  obtain ⟨hnested, -, hadmitted, -, -, -, hdepth⟩ := Expression.group_nesting options text
  have hread : Expression.parse options text = .ok members := by
    unfold options text members
    cbv
  refine ⟨?_, hopened, ?_, hread, hdepth members hread⟩
  · exact hnested text inner ((Relation.TransGen.single hmiddle).tail hinner)
  · exact hadmitted inner [middle, text] hopened (List.cons_ne_nil _ _)

end DiceNotation
