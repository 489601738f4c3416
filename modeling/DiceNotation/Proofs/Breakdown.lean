import DiceNotation.Proofs.MarkedFaces

/-!
# The breakdown of a throw

The text of a thrown expression gives back the faces of its terms. A face is read back from its
number or its symbol, no face shows the separator of the faces beside it, and only the end of a
term shows a closing parenthesis, so a term is told from what stands behind it.
-/
namespace DiceNotation

namespace Braces

theorem join_inj {separator : Char} {pieces others : List (List Char)}
    (hlength : pieces.length = others.length) (hpieces : ∀ piece ∈ pieces, separator ∉ piece)
    (hothers : ∀ piece ∈ others, separator ∉ piece)
    (h : join separator pieces = join separator others) : pieces = others := by
  by_cases hnil : pieces = []
  · rw [hnil, List.length_nil] at hlength
    rw [hnil, List.length_eq_zero_iff.mp hlength.symm]
  · have hother : others ≠ [] := by
      rintro rfl
      exact hnil (List.length_eq_zero_iff.mp hlength)
    calc pieces
        = (join separator pieces).splitOn separator :=
          (List.splitOn_intercalate separator hpieces hnil).symm
      _ = (join separator others).splitOn separator := by rw [h]
      _ = others := List.splitOn_intercalate separator hothers hother

theorem notMem_join {separator c : Char} {pieces : List (List Char)} (hc : c ≠ separator)
    (h : ∀ piece ∈ pieces, c ∉ piece) : c ∉ join separator pieces := by
  by_cases hnil : pieces = []
  · rw [hnil]
    exact List.not_mem_nil
  · refine join_induction (P := (c ∉ ·)) hnil h ?_
    intro piece rest hpiece hrest hmem
    rcases List.mem_append.mp hmem with hmem | hmem
    · exact hpiece hmem
    · exact (List.mem_cons.mp hmem).elim hc hrest

end Braces

/-- A text up to the first place of a character, and what stands behind the place. -/
theorem append_cons_inj {c : Char} {one other rest behind : List Char} (hone : c ∉ one)
    (hother : c ∉ other) (h : one ++ c :: rest = other ++ c :: behind) :
    one = other ∧ rest = behind := by
  have hfront : ∀ {front : List Char}, c ∉ front → ∀ back,
      (front ++ c :: back).takeWhile (· ≠ c) = front := by
    intro front hc back
    have hall : ∀ d ∈ front, decide (d ≠ c) = true := by
      rintro d hd
      exact decide_eq_true (ne_of_mem_of_not_mem hd hc)
    rw [List.takeWhile_append_of_pos hall, List.takeWhile_cons_of_neg (by simp), List.append_nil]
  have hsame : one = other := by
    rw [← hfront hone rest, h, hfront hother behind]
  rw [hsame] at h
  exact ⟨hsame, (List.cons.inj (List.append_cancel_left h)).2⟩

/-! ### The faces of a term -/

def Die.separator : Die → Char
  | .fate => ' '
  | .sided _ => '+'

theorem Die.close_ne_separator (die : Die) : ')' ≠ die.separator := by
  cases die with
  | fate => decide
  | sided n =>
    rw [separator]
    decide

def Term.faceText (term : Term) (face : Int64) : List Char :=
  match term.die with
  | .fate => [ThrownTerm.fateSymbol face]
  | .sided _ => ThrownTerm.markedFace term.critSuccess term.critFailure face

/-- Reads a face back: the symbol of a fate die, the digits of other dice without the marks around
them. -/
def Die.readFace (die : Die) (text : List Char) : Int64 :=
  match die with
  | .fate => if text = ['-'] then -1 else if text = ['0'] then 0 else 1
  | .sided _ => Int64.ofNat (Decimal.value (text.filter Char.isDigit))

namespace ThrownTerm

theorem filter_isDigit_markedFace (critSuccess critFailure : FaceRange) (face : Int64) :
    (markedFace critSuccess critFailure face).filter Char.isDigit =
      Decimal.digits face.toInt.natAbs := by
  have hdigits : (Decimal.digits face.toInt.natAbs).filter Char.isDigit =
      Decimal.digits face.toInt.natAbs :=
    List.filter_eq_self.mpr fun c hc => Decimal.isDigit_of_mem_digits hc
  have hnumber : (Decimal.ofInt face.toInt).filter Char.isDigit =
      Decimal.digits face.toInt.natAbs := by
    rw [Decimal.ofInt]
    split
    · rw [List.filter_cons_of_neg (by decide), hdigits]
    · exact hdigits
  have hstars : ['*', '*'].filter Char.isDigit = [] := rfl
  have hlines : ['_', '_'].filter Char.isDigit = [] := rfl
  rw [markedFace]
  split <;> split <;> simp only [List.filter_append, hnumber, hstars, hlines, List.nil_append,
    List.append_nil]

theorem mem_markedFace {critSuccess critFailure : FaceRange} {face : Int64} {c : Char}
    (h : c ∈ markedFace critSuccess critFailure face) :
    c.isDigit = true ∨ c = '-' ∨ c = '*' ∨ c = '_' := by
  have hnumber : c ∈ Decimal.ofInt face.toInt → c.isDigit = true ∨ c = '-' := Decimal.mem_ofInt
  rw [markedFace] at h
  split at h <;> split at h <;> grind

theorem fateSymbol_cases (face : Int64) :
    fateSymbol face = '-' ∨ fateSymbol face = '0' ∨ fateSymbol face = '+' := by
  rw [fateSymbol]
  split
  · exact .inl rfl
  · split
    · exact .inr (.inl rfl)
    · exact .inr (.inr rfl)

end ThrownTerm

namespace Term

theorem mem_faceText {term : Term} {face : Int64} {c : Char} (h : c ∈ term.faceText face) :
    c ≠ term.die.separator ∧ c ≠ ')' := by
  rw [faceText] at h
  cases hdie : term.die with
  | fate =>
    rw [hdie] at h
    rw [List.mem_singleton.mp h, Die.separator]
    rcases ThrownTerm.fateSymbol_cases face with hsymbol | hsymbol | hsymbol <;>
      · rw [hsymbol]
        decide
  | sided n =>
    rw [hdie] at h
    have hmark := ThrownTerm.mem_markedFace h
    rw [Die.separator]
    constructor <;>
      · rintro rfl
        revert hmark
        decide

end Term

theorem Die.readFace_faceText {term : Term} {face : Int64} (h : term.die.Shows face) :
    term.die.readFace (term.faceText face) = face := by
  rw [Term.faceText]
  cases hdie : term.die with
  | fate =>
    rw [hdie] at h
    dsimp only
    cases h.fateSymbol <;> rfl
  | sided n =>
    rw [hdie] at h
    have hnat : (face.toInt.natAbs : Int) = face.toInt := by
      have hpos := h.1
      omega
    rw [readFace, ThrownTerm.filter_isDigit_markedFace, Decimal.value_digits]
    rw [← Int64.ofInt_eq_ofNat, hnat, Int64.ofInt_toInt]

namespace ThrownTerm

variable {one other : ThrownTerm}

def shown (thrown : ThrownTerm) : List Char :=
  Braces.join thrown.term.die.separator (thrown.faces.map thrown.term.faceText)

theorem text_eq (thrown : ThrownTerm) : thrown.text = '(' :: thrown.shown ++ [')'] := by
  rw [shown]
  cases hdie : thrown.term.die with
  | fate =>
    have hface : thrown.term.faceText = fun face => [fateSymbol face] := by
      funext face
      rw [Term.faceText, hdie]
    rw [text_of_fate hdie, hface, List.map_map]
    rfl
  | sided n =>
    have hface : thrown.term.faceText =
        markedFace thrown.term.critSuccess thrown.term.critFailure := by
      funext face
      rw [Term.faceText, hdie]
    rw [text_of_sided hdie, hface]
    rfl

theorem close_notMem_shown (thrown : ThrownTerm) : ')' ∉ thrown.shown := by
  refine Braces.notMem_join thrown.term.die.close_ne_separator ?_
  intro piece hpiece hclose
  obtain ⟨face, -, rfl⟩ := List.mem_map.mp hpiece
  exact (Term.mem_faceText hclose).2 rfl

theorem separator_notMem_pieces (thrown : ThrownTerm) :
    ∀ piece ∈ thrown.faces.map thrown.term.faceText, thrown.term.die.separator ∉ piece := by
  intro piece hpiece hseparator
  obtain ⟨face, -, rfl⟩ := List.mem_map.mp hpiece
  exact (Term.mem_faceText hseparator).1 rfl

theorem Possible.map_readFace {thrown : ThrownTerm} (h : thrown.Possible) :
    (thrown.faces.map thrown.term.faceText).map thrown.term.die.readFace = thrown.faces := by
  rw [List.map_map]
  refine Eq.trans (List.map_congr_left fun face hface => ?_) (List.map_id' thrown.faces)
  exact Die.readFace_faceText (h.shows face hface)

theorem Possible.faces_of_shown (hone : one.Possible) (hterm : one.term = other.term)
    (hother : other.Possible) (h : one.shown = other.shown) : one.faces = other.faces := by
  have hlength : (one.faces.map one.term.faceText).length =
      (other.faces.map other.term.faceText).length := by
    rw [List.length_map, List.length_map, hone.length_faces, hother.length_faces, hterm]
  have hseparator : one.term.die.separator = other.term.die.separator := by rw [hterm]
  have hpieces : one.faces.map one.term.faceText = other.faces.map other.term.faceText := by
    rw [shown, shown, ← hseparator] at h
    exact Braces.join_inj hlength one.separator_notMem_pieces
      (hseparator ▸ other.separator_notMem_pieces) h
  rw [← hone.map_readFace, ← hother.map_readFace, hpieces, hterm]

theorem Possible.faces_of_text_append (hone : one.Possible) (hterm : one.term = other.term)
    (hother : other.Possible) {rest behind : List Char}
    (h : one.text ++ rest = other.text ++ behind) : one.faces = other.faces ∧ rest = behind := by
  rw [text_eq, text_eq, List.append_assoc, List.append_assoc] at h
  obtain ⟨hshown, hrest⟩ := append_cons_inj one.close_notMem_shown other.close_notMem_shown
    (List.cons.inj h).2
  exact ⟨hone.faces_of_shown hterm hother hshown, hrest⟩

theorem map_faces_of_join {ones others : List ThrownTerm}
    (hterms : ones.map term = others.map term) (hones : ∀ thrown ∈ ones, thrown.Possible)
    (hothers : ∀ thrown ∈ others, thrown.Possible)
    (h : Braces.join '+' (ones.map text) = Braces.join '+' (others.map text)) :
    ones.map faces = others.map faces := by
  have hpairs : List.Forall₂ (fun one other => one.term = other.term) ones others := by
    have hequal : List.Forall₂ (· = ·) (ones.map term) (others.map term) := by
      rw [List.forall₂_eq_eq_eq]
      exact hterms
    rwa [List.forall₂_map_left_iff, List.forall₂_map_right_iff] at hequal
  clear hterms
  induction hpairs with
  | nil => rfl
  | @cons one other ones others hterm htail ih =>
    obtain ⟨hone, hones⟩ := List.forall_mem_cons.mp hones
    obtain ⟨hother, hothers⟩ := List.forall_mem_cons.mp hothers
    cases htail with
    | nil =>
      have htext : one.text ++ [] = other.text ++ [] := by
        simpa only [List.map_singleton, Braces.join_singleton, List.append_nil] using h
      rw [List.map_singleton, (hone.faces_of_text_append hterm hother htext).1, List.map_singleton]
    | cons =>
      rw [List.map_cons, List.map_cons, List.map_cons, List.map_cons, Braces.join_cons_cons,
        Braces.join_cons_cons] at h
      obtain ⟨hfaces, hrest⟩ := hone.faces_of_text_append hterm hother h
      exact congrArg₂ List.cons hfaces (ih hones hothers (List.cons.inj hrest).2)

theorem eq_of_map_eq {ones others : List ThrownTerm} (hterms : ones.map term = others.map term)
    (hfaces : ones.map faces = others.map faces) : ones = others := by
  have hzip : ∀ thrown : List ThrownTerm,
      List.zipWith ThrownTerm.mk (thrown.map term) (thrown.map faces) = thrown := by
    intro thrown
    rw [List.zipWith_map, List.zipWith_self]
    exact List.map_id' thrown
  rw [← hzip ones, ← hzip others, hterms, hfaces]

end ThrownTerm

/-- The breakdown loses nothing. Where two sources keep within the sides, two throws of an
expression that was read are printed alike if and only if every term shows the same faces in
both. -/
theorem Expression.text_eq_iff_faces_eq {options : Options} {text : List Char}
    {members : List Member} (h : Expression.parse options text = .ok members) {σ τ : Type}
    {source : Source σ} {s : σ} (hsource : source.AnswersWithin (Expression.sides members) s)
    {other : Source τ} {t : τ} (hother : other.AnswersWithin (Expression.sides members) t) :
    let first := ((Expression.throw source members).run s).1
    let second := ((Expression.throw other members).run t).1
    ThrownExpression.text first = ThrownExpression.text second ↔
      (ThrownExpression.terms first).map ThrownTerm.faces =
        (ThrownExpression.terms second).map ThrownTerm.faces := by
  intro first second
  have hof := Expression.ofKind_of_parse h
  have hfirst : ThrownExpression.origin first = members :=
    (Expression.origin_throw source).2 members s
  have hsecond : ThrownExpression.origin second = members :=
    (Expression.origin_throw other).2 members t
  have hterms : (ThrownExpression.terms first).map ThrownTerm.term =
      (ThrownExpression.terms second).map ThrownTerm.term := by
    rw [ThrownExpression.map_term_terms.2, ThrownExpression.map_term_terms.2, hfirst, hsecond]
  have hfirstText := ThrownExpression.text_eq_join_terms.2 first (hfirst.symm ▸ hof)
  have hsecondText := ThrownExpression.text_eq_join_terms.2 second (hsecond.symm ▸ hof)
  constructor
  · intro htext
    rw [hfirstText, hsecondText] at htext
    exact ThrownTerm.map_faces_of_join hterms (Expression.possible_of_throw hsource)
      (Expression.possible_of_throw hother) htext
  · intro hfaces
    rw [hfirstText, hsecondText, ThrownTerm.eq_of_map_eq hterms hfaces]

/-- Marked and unmarked numbers, symbols, a term without dice, and a group that is not seen in the
text. -/
theorem Expression.text_eq_iff_faces_eq_alternating :
    let members : List Member := [.group
        [[.term ⟨2, .sided 6, [⟨some .critSuccess, ⟨.equal, some 6⟩⟩]⟩], [.term ⟨3, .fate, []⟩]]
        ['k', 'h'],
      .term ⟨0, .sided 4, []⟩, .term ⟨1, .sided 20, [⟨some .critFailure, ⟨.less, some 2⟩⟩]⟩]
    let first := ((Expression.throw Source.alternating members).run true).1
    let second := ((Expression.throw Source.alternating members).run false).1
    Expression.parse { groups := true } "\x7b2d6cs=6,3dF\x7dkh+0d4+1d20cf<2".toList = .ok members ∧
      Source.alternating.AnswersWithin (Expression.sides members) true ∧
      Source.alternating.AnswersWithin (Expression.sides members) false ∧
      ThrownExpression.text first = "(**6**+1)+(+ - +)+()+(__1__)".toList ∧
      ThrownExpression.text first ≠ ThrownExpression.text second := by
  intro members first second
  have hread : Expression.parse { groups := true } "\x7b2d6cs=6,3dF\x7dkh+0d4+1d20cf<2".toList =
      .ok members := by
    unfold members
    cbv
  have hhigh := Source.alternating_inRange.answersWithin_of_parse hread true
  have hlow := Source.alternating_inRange.answersWithin_of_parse hread false
  refine ⟨hread, hhigh, hlow, ?_, ?_⟩
  · unfold first members
    cbv
  · intro htext
    have hfaces := (Expression.text_eq_iff_faces_eq hread hhigh hlow).mp htext
    unfold members at hfaces
    revert hfaces
    decide +kernel

end DiceNotation
