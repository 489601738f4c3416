import DiceNotation.Proofs.ThrownTree

/-!
# The order of throws

Throwing an expression asks the source for the dice of its terms, term by term from left to right
and die by die. The answers are handed out to the terms in the same order.
-/
namespace DiceNotation

def Term.sides (term : Term) : List UInt64 :=
  List.replicate term.count.toNat term.die.sides.toUInt64

def Expression.sides (members : List Member) : List UInt64 :=
  (Expression.terms members).flatMap Term.sides

/-- Hands answers out to terms in order. Each term takes as many as it has dice and turns them
into faces. -/
def Term.deal : List Term → List UInt64 → List ThrownTerm
  | [], _ => []
  | term :: terms, answers =>
    ⟨term, (answers.take term.count.toNat).map term.die.face⟩ ::
      Term.deal terms (answers.drop term.count.toNat)

/-- The sides that a source is asked for and its answers go to thrown terms in order, as many to
each as it has dice. A sided die is asked for with its own sides and shows the answer. A fate die
is asked for with three sides and shows the answer less two. Faces are signed 64-bit numbers. -/
inductive Term.Dealt : List UInt64 → List UInt64 → List ThrownTerm → Prop where
  | nil : Dealt [] [] []
  | sided {count : UInt64} {n : UInt32} {modifiers : List Modifier} {own : List UInt64}
      {asked answers : List UInt64} {thrown : List ThrownTerm}
      (hown : own.length = count.toNat) (hrest : Dealt asked answers thrown) :
      Dealt (List.replicate count.toNat n.toUInt64 ++ asked) (own ++ answers)
        (⟨⟨count, .sided n, modifiers⟩, own.map fun answer => Int64.ofInt answer.toNat⟩ :: thrown)
  | fate {count : UInt64} {modifiers : List Modifier} {own : List UInt64}
      {asked answers : List UInt64} {thrown : List ThrownTerm}
      (hown : own.length = count.toNat) (hrest : Dealt asked answers thrown) :
      Dealt (List.replicate count.toNat 3 ++ asked) (own ++ answers)
        (⟨⟨count, .fate, modifiers⟩,
          own.map fun answer => Int64.ofInt ((answer.toNat : Int) - 2)⟩ :: thrown)

theorem toInt64_eq_ofInt (n : UInt64) : n.toInt64 = Int64.ofInt n.toNat := by
  calc n.toInt64
      = (UInt64.ofNat n.toNat).toInt64 := by rw [UInt64.ofNat_toNat]
    _ = Int64.ofInt n.toNat := by rw [UInt64.toInt64_ofNat', Int64.ofInt_eq_ofNat]

theorem Die.face_sided (n : UInt32) :
    Die.face (.sided n) = fun answer => Int64.ofInt answer.toNat := by
  funext answer
  exact toInt64_eq_ofInt answer

theorem Die.face_fate :
    Die.face .fate = fun answer => Int64.ofInt ((answer.toNat : Int) - 2) := by
  funext answer
  rw [Die.face, toInt64_eq_ofInt, Int64.ofInt_sub]
  rfl

theorem flatMap_map_mapM {α β γ δ : Type} {m : Type → Type} [Monad m] [LawfulMonad m]
    {act : α → m β} {resultsOf : β → List δ} {piecesOf : α → List γ} {each : γ → m δ}
    {items : List α}
    (h : ∀ item ∈ items, resultsOf <$> act item = (piecesOf item).mapM each) :
    List.flatMap resultsOf <$> items.mapM act = (items.flatMap piecesOf).mapM each := by
  induction items with
  | nil => simp
  | cons item items ih =>
    obtain ⟨hitem, hitems⟩ := List.forall_mem_cons.mp h
    rw [List.flatMap_cons, List.mapM_append, ← hitem, ← ih hitems]
    simp

theorem map_run_mapM {α β σ : Type} {act : α → StateM σ β} {back : β → α} {items : List α}
    (h : ∀ item ∈ items, ∀ s, back ((act item).run s).1 = item) (s : σ) :
    ((items.mapM act).run s).1.map back = items := by
  induction items generalizing s with
  | nil => rfl
  | cons item items ih =>
    obtain ⟨hitem, hitems⟩ := List.forall_mem_cons.mp h
    rw [List.mapM_cons]
    exact congrArg₂ List.cons (hitem s) (ih hitems _)

/-- What is done with a logged source comes to what is done with the source itself, and adds `sides`
to the log. -/
def Logs {σ α : Type} (sides : List UInt64) (logged : StateM (σ × List UInt64) α)
    (plain : StateM σ α) : Prop :=
  ∀ s log, logged.run (s, log) = ((plain.run s).1, ((plain.run s).2, log ++ sides))

namespace Logs

variable {σ α β : Type} {sides others : List UInt64} {logged : StateM (σ × List UInt64) α}
  {plain : StateM σ α}

theorem pure (a : α) : Logs (σ := σ) [] (Pure.pure a) (Pure.pure a) := by
  intro s log
  rw [List.append_nil]
  rfl

theorem bind {next : α → StateM (σ × List UInt64) β} {plainNext : α → StateM σ β}
    (h : Logs sides logged plain) (hnext : ∀ a, Logs others (next a) (plainNext a)) :
    Logs (sides ++ others) (logged >>= next) (plain >>= plainNext) := by
  intro s log
  have hrest := hnext (plain.run s).1 (plain.run s).2 (log ++ sides)
  rw [List.append_assoc] at hrest
  rw [StateT.run_bind, h s log]
  exact hrest

theorem map (f : α → β) (h : Logs sides logged plain) :
    Logs sides (f <$> logged) (f <$> plain) := by
  intro s log
  rw [StateT.run_map, h s log]
  rfl

theorem mapM {ι : Type} {act : ι → StateM (σ × List UInt64) β} {plainAct : ι → StateM σ β}
    {sidesOf : ι → List UInt64} {items : List ι}
    (h : ∀ item ∈ items, Logs (sidesOf item) (act item) (plainAct item)) :
    Logs (items.flatMap sidesOf) (items.mapM act) (items.mapM plainAct) := by
  induction items with
  | nil => exact Logs.pure []
  | cons item items ih =>
    obtain ⟨hitem, hitems⟩ := List.forall_mem_cons.mp h
    rw [List.mapM_cons, List.mapM_cons, List.flatMap_cons]
    exact hitem.bind fun result => (ih hitems).map (result :: ·)

end Logs

section

variable {σ : Type} (source : Source σ)

def Source.logged : Source (σ × List UInt64) := fun sides state =>
  let (answer, s) := (source sides).run state.1
  (answer, (s, state.2 ++ [sides]))

def Expression.asked (members : List Member) (s : σ) : List UInt64 :=
  ((Expression.throw source.logged members).run (s, [])).2.2

theorem Die.mapM_throw_replicate (die : Die) (n : Nat) :
    (List.replicate n die).mapM (Die.throw source) =
      List.map die.face <$> (List.replicate n die.sides.toUInt64).mapM source := by
  induction n with
  | zero => simp
  | succ n ih => simp [List.replicate_succ, ih, Die.throw]

theorem Term.throw_eq (term : Term) :
    term.throw source =
      (fun answers => ThrownTerm.mk term (answers.map term.die.face)) <$>
        term.sides.mapM source := by
  simp [Term.throw, Term.dice, Term.sides, Die.mapM_throw_replicate]

theorem Source.length_answers (sides : List UInt64) (s : σ) :
    ((sides.mapM source).run s).1.length = sides.length := by
  induction sides generalizing s with
  | nil => rfl
  | cons n sides ih =>
    have htail := ih ((source n).run s).2
    rw [List.mapM_cons, List.length_cons, ← htail]
    rfl

theorem Term.deal_append {term : Term} {answers : List UInt64}
    (h : answers.length = term.sides.length) (terms : List Term) (others : List UInt64) :
    Term.deal (term :: terms) (answers ++ others) =
      ⟨term, answers.map term.die.face⟩ :: Term.deal terms others := by
  rw [Term.sides, List.length_replicate] at h
  rw [Term.deal, List.take_left' h, List.drop_left' h]

/-- Answers to all sides of some terms are dealt without one missing or left over. -/
theorem Term.dealt_deal {terms : List Term} {answers : List UInt64}
    (h : answers.length = (terms.flatMap Term.sides).length) :
    Term.Dealt (terms.flatMap Term.sides) answers (Term.deal terms answers) := by
  induction terms generalizing answers with
  | nil =>
    rw [List.eq_nil_of_length_eq_zero h]
    exact .nil
  | cons term terms ih =>
    rw [List.flatMap_cons, List.length_append] at h
    obtain ⟨own, others, rfl, hown⟩ : ∃ own others, answers = own ++ others ∧
        own.length = term.sides.length := by
      refine ⟨_, _, (List.take_append_drop term.sides.length answers).symm, ?_⟩
      rw [List.length_take]
      omega
    rw [List.length_append, hown] at h
    have hrest := ih (Nat.add_left_cancel h)
    rw [Term.deal_append hown, List.flatMap_cons]
    rw [Term.sides, List.length_replicate] at hown
    obtain ⟨count, die, modifiers⟩ := term
    cases die with
    | sided n =>
      rw [Die.face_sided]
      exact .sided hown hrest
    | fate =>
      rw [Die.face_fate]
      exact .fate hown hrest

theorem Term.mapM_throw (terms : List Term) :
    terms.mapM (Term.throw source) =
      Term.deal terms <$> (terms.flatMap Term.sides).mapM source := by
  induction terms with
  | nil => simp [Term.deal]
  | cons term terms ih =>
    apply StateT.ext
    intro s
    have hlen := Source.length_answers source term.sides s
    rw [List.mapM_cons, List.flatMap_cons, List.mapM_append, ih, Term.throw_eq]
    exact Prod.ext (Term.deal_append hlen terms _).symm rfl

theorem Expression.throw_eq_mapM (members : List Member) :
    Expression.throw source members = members.mapM (Member.throw source) := by
  induction members with
  | nil => simp [Expression.throw]
  | cons member members ih => rw [Expression.throw, ih, List.mapM_cons]

theorem Expression.throwParts_eq_mapM (parts : List (List Member)) :
    Expression.throwParts source parts = parts.mapM (Expression.throw source) := by
  induction parts with
  | nil => simp [Expression.throwParts]
  | cons part parts ih => rw [Expression.throwParts, ih, List.mapM_cons]

theorem Expression.terms_throw :
    (∀ member : Member, ThrownMember.terms <$> member.throw source =
      member.terms.mapM (Term.throw source)) ∧
    ∀ members : List Member, ThrownExpression.terms <$> Expression.throw source members =
      (Expression.terms members).mapM (Term.throw source) := by
  apply Expression.induct
  · intro term
    simp [Member.throw, Member.terms, ThrownMember.terms]
  · intro parts options ih
    have hparts := flatMap_map_mapM ih
    rw [← Expression.throwParts_eq_mapM, ← Expression.termsOfParts_eq_flatMap] at hparts
    rw [Member.terms, ← hparts]
    simp [Member.throw, ThrownMember.terms, ThrownExpression.termsOfParts_eq_flatMap]
  · intro members ih
    have hterms : ThrownExpression.terms = List.flatMap ThrownMember.terms :=
      funext ThrownExpression.terms_eq_flatMap
    rw [Expression.throw_eq_mapM, Expression.terms_eq_flatMap, hterms]
    exact flatMap_map_mapM ih

theorem Expression.run_throw (members : List Member) (s : σ) :
    let outcome := (Expression.throw source members).run s
    let answers := ((Expression.sides members).mapM source).run s
    ThrownExpression.terms outcome.1 = Term.deal (Expression.terms members) answers.1 ∧
      outcome.2 = answers.2 := by
  have hdeal : ThrownExpression.terms <$> Expression.throw source members =
      Term.deal (Expression.terms members) <$> (Expression.sides members).mapM source := by
    rw [(Expression.terms_throw source).2, Term.mapM_throw, Expression.sides]
  have hrun := congrArg (fun throwing => throwing.run s) hdeal
  exact ⟨congrArg Prod.fst hrun, congrArg Prod.snd hrun⟩

theorem Source.logs_mapM (sides : List UInt64) :
    Logs sides (sides.mapM source.logged) (sides.mapM source) := by
  have hall : Logs (sides.flatMap fun n => [n]) (sides.mapM source.logged) (sides.mapM source) :=
    Logs.mapM fun n _ s log => rfl
  rwa [List.flatMap_singleton'] at hall

theorem Expression.logs_throw :
    (∀ member : Member, Logs (member.terms.flatMap Term.sides) (member.throw source.logged)
      (member.throw source)) ∧
    ∀ members : List Member, Logs (Expression.sides members)
      (Expression.throw source.logged members) (Expression.throw source members) := by
  apply Expression.induct
  · intro term
    rw [Member.terms, List.flatMap_singleton, Member.throw, Member.throw, Term.throw_eq,
      Term.throw_eq]
    exact ((Source.logs_mapM source term.sides).map _).map _
  · intro parts options ih
    have hparts := Logs.mapM ih
    rw [Member.terms, Expression.termsOfParts_eq_flatMap, List.flatMap_assoc, Member.throw,
      Member.throw, Expression.throwParts_eq_mapM, Expression.throwParts_eq_mapM, bind_pure_comp,
      bind_pure_comp]
    exact hparts.map _
  · intro members ih
    have hmembers := Logs.mapM ih
    rw [Expression.sides, Expression.terms_eq_flatMap, List.flatMap_assoc,
      Expression.throw_eq_mapM, Expression.throw_eq_mapM]
    exact hmembers

theorem Expression.asked_eq_sides (members : List Member) (s : σ) :
    Expression.asked source members s = Expression.sides members := by
  rw [Expression.asked, (Expression.logs_throw source).2 members s []]
  rfl

theorem Expression.origin_throw :
    (∀ (member : Member) (s : σ), ((member.throw source).run s).1.origin = member) ∧
    ∀ (members : List Member) (s : σ),
      ThrownExpression.origin ((Expression.throw source members).run s).1 = members := by
  apply Expression.induct
  · intro term s
    rfl
  · intro parts options ih s
    have hparts := map_run_mapM ih s
    rw [← ThrownExpression.originOfParts_eq_map, ← Expression.throwParts_eq_mapM] at hparts
    exact congrArg (Member.group · options) hparts
  · intro members ih s
    rw [Expression.throw_eq_mapM, ThrownExpression.origin_eq_map]
    exact map_run_mapM ih s

end

end DiceNotation
