import DiceNotation.Proofs.ThrowOrder
import DiceNotation.Proofs.Trimming
import DiceNotation.Query.Steps

/-!
# Runs of steps on a query

Only dropping the reason changes a query, and it leaves the text in front of the first colon as it
is. So in whatever order steps are done, the expression, what it is read as and its dice stay the
same, and the source is asked for these dice once for each throw that succeeds.
-/
namespace DiceNotation.Query

section

variable {options : Options} {query : Query}

theorem colon_not_mem_head (query : Query) : ':' ∉ query.head := by
  intro h
  have hne := List.mem_takeWhile_imp h
  simp at hne

theorem reason?_of_not_mem {text : List Char} (h : ':' ∉ text) :
    reason? ⟨text, options⟩ = none := by
  rw [reason?, List.dropWhile_eq_nil_iff.mpr (forall_ne_colon h)]

theorem reason?_append_colon {front : List Char} (h : ':' ∉ front) (behind : List Char) :
    reason? ⟨front ++ ':' :: behind, options⟩ =
      if trim behind = [] then none else some (trim behind) := by
  rw [reason?, List.dropWhile_append_of_pos (forall_ne_colon h)]
  cases hreason : trim behind with
  | nil => simp [hreason]
  | cons c reason => simp [hreason]

theorem reason?_eq_some_iff {reason : List Char} :
    query.reason? = some reason ↔
      reason ≠ [] ∧
        ∃ front behind, ':' ∉ front ∧ query.text = front ++ ':' :: behind ∧
          trim behind = reason := by
  obtain ⟨text, options⟩ := query
  constructor
  · intro h
    by_cases hcolon : ':' ∈ text
    · obtain ⟨front, behind, rfl, hfront⟩ := List.eq_append_cons_of_mem hcolon
      rw [reason?_append_colon hfront] at h
      split at h
      · cases h
      · next hblank =>
        cases h
        exact ⟨hblank, front, behind, hfront, rfl, rfl⟩
    · rw [reason?_of_not_mem hcolon] at h
      cases h
  · rintro ⟨hne, front, behind, hfront, rfl, rfl⟩
    rw [reason?_append_colon hfront, if_neg hne]

theorem head_dropReason (query : Query) : query.dropReason.head = query.head :=
  List.takeWhile_idem

theorem dropReason_dropReason (query : Query) : query.dropReason.dropReason = query.dropReason :=
  congrArg (Query.mk · query.options) query.head_dropReason

theorem reason?_dropReason (query : Query) : query.dropReason.reason? = none :=
  reason?_of_not_mem query.colon_not_mem_head

/-- What holds of a query that a run from `start` has come to; `dropped` tells whether the reason
was dropped on the way. -/
structure ReachedFrom (start : Query) (dropped : Bool) (query : Query) : Prop where
  head_eq : query.head = start.head
  options_eq : query.options = start.options
  reason_eq : query.reason? = if dropped then none else start.reason?
  dropReason_eq : dropped = true → query.dropReason = query

def dice (options : Options) (head : List Char) : List UInt64 :=
  match Expression.parse options (trim head) with
  | .ok members => Expression.sides members
  | .error _ => []

theorem dice_of_error {head : List Char} {e : RollError}
    (h : Expression.parse options (trim head) = .error e) : dice options head = [] := by
  rw [dice, h]

def Answer.isOutcome : Answer → Bool
  | .solved (.ok _) => true
  | _ => false

def Answer.Due (options : Options) (head : List Char) (reason : Option (List Char)) :
    Step → Answer → Prop
  | .text, .text found => found.takeWhile (· ≠ ':') = head
  | .expression, .text found => found = trim head
  | .reason, .reason found => found = reason
  | .options, .options found => found = options
  | .dropReason, .text found => found = head
  | .parse, .parsed result => result = Expression.parse options (trim head)
  | .solve, .solved (.ok outcome) =>
    Expression.parse options (trim head) = .ok (ThrownExpression.origin outcome.thrown) ∧
      outcome.reason = reason
  | .solve, .solved (.error e) => Expression.parse options (trim head) = .error e
  | _, _ => False

end

namespace ReachedFrom

theorem self (query : Query) : query.ReachedFrom false query :=
  ⟨rfl, rfl, rfl, fun h => nomatch h⟩

section

variable {σ : Type} (source : Source σ) {start query : Query} {dropped : Bool}

theorem expression_eq (h : start.ReachedFrom dropped query) :
    query.expression = trim start.head := by
  rw [expression, h.head_eq]

theorem parse_eq (h : start.ReachedFrom dropped query) :
    query.parse = Expression.parse start.options (trim start.head) := by
  rw [parse, h.expression_eq, h.options_eq]

theorem solve_of_error (h : start.ReachedFrom dropped query) {e : RollError}
    (herror : Expression.parse start.options (trim start.head) = .error e) :
    query.solve source = pure (.error e) := by
  rw [← h.parse_eq] at herror
  rw [solve, herror]

theorem solve_of_ok (h : start.ReachedFrom dropped query) {members : List Member}
    (hread : Expression.parse start.options (trim start.head) = .ok members) :
    query.solve source =
      (fun thrown => .ok ⟨thrown, query.reason?⟩) <$> Expression.throw source members := by
  rw [← h.parse_eq] at hread
  rw [solve, hread]
  rfl

/-- Solving asks for the dice of the expression, the same at each place of a run. -/
theorem logs_solve (h : start.ReachedFrom dropped query) :
    Logs (dice start.options start.head) (query.solve source.logged) (query.solve source) := by
  rw [dice]
  cases hread : Expression.parse start.options (trim start.head) with
  | error e =>
    rw [h.solve_of_error _ hread, h.solve_of_error _ hread]
    exact .pure _
  | ok members =>
    rw [h.solve_of_ok _ hread, h.solve_of_ok _ hread]
    exact ((Expression.logs_throw source).2 members).map _

theorem perform (h : start.ReachedFrom dropped query) (step : Step) (s : σ) :
    start.ReachedFrom (dropped || decide (.dropReason = step))
      ((query.perform source step).run s).1.2 := by
  cases step with
  | dropReason =>
    have hdropped : (dropped || decide (Step.dropReason = .dropReason)) = true := by simp
    rw [hdropped]
    exact {
      head_eq := query.head_dropReason.trans h.head_eq
      options_eq := h.options_eq
      reason_eq := query.reason?_dropReason
      dropReason_eq := fun _ => query.dropReason_dropReason }
  | _ =>
    rw [decide_eq_false (by decide), Bool.or_false]
    exact h

theorem due_perform (h : start.ReachedFrom dropped query) (step : Step) (s : σ) :
    Answer.Due start.options start.head (if dropped then none else start.reason?) step
      ((query.perform source step).run s).1.1 := by
  cases step with
  | text => exact h.head_eq
  | expression => exact h.expression_eq
  | reason => exact h.reason_eq
  | options => exact h.options_eq
  | dropReason => exact h.head_eq
  | parse => exact h.parse_eq
  | solve =>
    rw [Query.perform]
    cases hread : Expression.parse start.options (trim start.head) with
    | error e =>
      rw [h.solve_of_error source hread]
      exact hread
    | ok members =>
      rw [h.solve_of_ok source hread]
      have horigin := (Expression.origin_throw source).2 members s
      exact ⟨hread.trans (congrArg Except.ok horigin.symm), h.reason_eq⟩

theorem run_perform_logged (h : start.ReachedFrom dropped query) (step : Step) (s : σ)
    (log : List UInt64) :
    let outcome := (query.perform source step).run s
    (query.perform source.logged step).run (s, log) =
      (outcome.1, (outcome.2, log ++
        if outcome.1.1.isOutcome then dice start.options start.head else [])) := by
  cases step with
  | solve =>
    have hlogs : Logs (dice start.options start.head ++ []) (query.perform source.logged .solve)
        (query.perform source .solve) := (h.logs_solve source).bind fun result => .pure _
    have hasked : (if ((query.perform source .solve).run s).1.1.isOutcome then
        dice start.options start.head else []) = dice start.options start.head := by
      rw [Query.perform]
      cases hread : Expression.parse start.options (trim start.head) with
      | error e =>
        rw [h.solve_of_error source hread, dice_of_error hread]
        rfl
      | ok members =>
        rw [h.solve_of_ok source hread]
        rfl
    rw [List.append_nil] at hlogs
    intro outcome
    rw [hlogs s log]
    exact congrArg (fun asked => (outcome.1, (outcome.2, log ++ asked))) hasked.symm
  | _ => exact Logs.pure _ s log

end

end ReachedFrom

section

variable {σ : Type} (source : Source σ) {start query : Query} {dropped : Bool}

theorem run_performAll_cons (query : Query) (step : Step) (steps : List Step) (s : σ) :
    let first := (query.perform source step).run s
    let rest := (first.1.2.performAll source steps).run first.2
    (query.performAll source (step :: steps)).run s =
      ((first.1.1 :: rest.1.1, rest.1.2), rest.2) := rfl

theorem run_performAll_append (query : Query) (before after : List Step) (s : σ) :
    let sofar := (query.performAll source before).run s
    let rest := (sofar.1.2.performAll source after).run sofar.2
    (query.performAll source (before ++ after)).run s =
      ((sofar.1.1 ++ rest.1.1, rest.1.2), rest.2) := by
  induction before generalizing query s with
  | nil => rfl
  | cons step before ih =>
    simp only [List.cons_append, run_performAll_cons, ih]

theorem length_performAll (query : Query) (steps : List Step) (s : σ) :
    ((query.performAll source steps).run s).1.1.length = steps.length := by
  induction steps generalizing query s with
  | nil => rfl
  | cons step steps ih => exact congrArg (· + 1) (ih _ _)

theorem ReachedFrom.performAll (h : start.ReachedFrom dropped query) (steps : List Step) (s : σ) :
    start.ReachedFrom (dropped || decide (.dropReason ∈ steps))
      ((query.performAll source steps).run s).1.2 := by
  induction steps generalizing query dropped s with
  | nil =>
    rw [decide_eq_false List.not_mem_nil, Bool.or_false]
    exact h
  | cons step steps ih =>
    have hmem : (decide (.dropReason = step) || decide (.dropReason ∈ steps)) =
        decide (Step.dropReason ∈ step :: steps) := by simp
    have hrest := ih (h.perform source step s) ((query.perform source step).run s).2
    rwa [Bool.or_assoc, hmem] at hrest

theorem ReachedFrom.run_performAll_logged (h : start.ReachedFrom dropped query)
    (steps : List Step) (s : σ) (log : List UInt64) :
    let outcome := (query.performAll source steps).run s
    (query.performAll source.logged steps).run (s, log) =
      (outcome.1, (outcome.2, log ++ (List.replicate (outcome.1.1.countP Answer.isOutcome)
        (dice start.options start.head)).flatten)) := by
  induction steps generalizing query dropped s log with
  | nil => exact Logs.pure _ s log
  | cons step steps ih =>
    -- The log grows in front of the rest of the run, so the induction leaves it free.
    have hfirst := h.run_perform_logged source step s log
    have hrest := fun log => ih (h.perform source step s) ((query.perform source step).run s).2 log
    simp only [run_performAll_cons, hfirst, hrest, List.append_assoc, List.countP_cons]
    cases ((query.perform source step).run s).1.1.isOutcome with
    | false => simp
    | true => simp [List.replicate_succ]

end

/-- What a run of steps on a query comes to, whatever the steps are. The query that is left after
some of them has the options of the first one and reads and throws the same expression, and its
reason is the one behind the first colon until it is dropped for good. The source was asked for the
dice of the expression once for each throw with success. The next step is answered accordingly. -/
theorem answers_of_steps {σ : Type} (source : Source σ) (query : Query) (before : List Step)
    (s : σ) :
    let sofar := (query.performAll source before).run s
    let left := sofar.1.2
    let dropped := decide (.dropReason ∈ before)
    let reason := if dropped then none else query.reason?
    let read := Expression.parse query.options (trim query.head)
    let sides := dice query.options query.head
    (left.options = query.options ∧ left.expression = trim query.head ∧ left.parse = read ∧
      left.reason? = reason ∧ (dropped = true → left.dropReason = left)) ∧
    (∀ reason, query.reason? = some reason ↔ reason ≠ [] ∧
      ∃ front behind, ':' ∉ front ∧ query.text = front ++ ':' :: behind ∧ trim behind = reason) ∧
    (∀ log, (query.performAll source.logged before).run (s, log) =
      (sofar.1, (sofar.2, log ++
        (List.replicate (sofar.1.1.countP Answer.isOutcome) sides).flatten))) ∧
    Logs sides (left.solve source.logged) (left.solve source) ∧
    (∀ e, read = .error e → sides = [] ∧ left.solve source = pure (.error e)) ∧
    sofar.1.1.length = before.length ∧
    ∀ step after, ∃ answer rest,
      ((query.performAll source (before ++ step :: after)).run s).1.1 =
          sofar.1.1 ++ answer :: rest ∧
        Answer.Due query.options query.head reason step answer := by
  intro sofar left dropped reason read sides
  have h : query.ReachedFrom dropped left := by
    have hrun := (ReachedFrom.self query).performAll source before s
    rwa [Bool.false_or] at hrun
  refine ⟨⟨h.options_eq, h.expression_eq, h.parse_eq, h.reason_eq, h.dropReason_eq⟩,
    fun _ => reason?_eq_some_iff, ?_, h.logs_solve source, ?_,
    length_performAll source query before s, ?_⟩
  · intro log
    exact (ReachedFrom.self query).run_performAll_logged source before s log
  · intro e herror
    exact ⟨dice_of_error herror, h.solve_of_error source herror⟩
  · intro step after
    exact ⟨_, _, congrArg (·.1.1) (run_performAll_append source query before (step :: after) s),
      h.due_perform source step sofar.2⟩

/-- A reason with a colon of its own, dropped between two throws. -/
theorem answers_of_steps_dropped :
    let source : Source Nat := fun _ thrown => (1, thrown + 1)
    let query : Query := ⟨" 2d6+1d4 : fire : x".toList, {}⟩
    let before : List Step := [.solve, .dropReason, .reason, .solve]
    query.reason? = some "fire : x".toList ∧
      ((query.performAll source before).run 0).1.2.reason? = none ∧
      ((query.performAll source.logged before).run (0, [])).2 = (6, [6, 6, 4, 6, 6, 4]) := by
  intro source query before
  obtain ⟨hleft, hreason, hlogged, -⟩ := answers_of_steps source query before 0
  refine ⟨(hreason _).mpr ⟨by decide, " 2d6+1d4 ".toList, " fire : x".toList, ?_⟩, ?_, ?_⟩
  · exact ⟨by decide, by rfl, by decide⟩
  · exact hleft.2.2.2.1
  · rw [hlogged []]
    unfold source query before
    cbv

end DiceNotation.Query
