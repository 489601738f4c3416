/-!
# Options and errors

What a caller allows, and why an expression is refused.
-/
namespace DiceNotation

structure Options where
  /-- The most dice a single term may throw. -/
  maxCount : UInt64 := 100
  /-- Whether groups in braces are allowed. -/
  groups : Bool := false
deriving DecidableEq, Repr

inductive RollError where
  /-- The text holds no dice term. -/
  | noTerm
  /-- The die has no sides, or more than fit in 32 bits. -/
  | unusableSize
  /-- Groups are nested deeper than allowed. -/
  | tooDeep
  /-- A term throws more dice than allowed; a count beyond 64 bits is given as the largest. -/
  | limitExceeded (count max : UInt64)
  /-- Sums and success counts stand in one expression. -/
  | mixedKinds
  /-- Groups are not allowed. -/
  | groupsDisabled
deriving DecidableEq, Repr

def RollError.message : RollError → String
  | .noTerm | .unusableSize | .tooDeep => "Error: invalid roll command."
  | .limitExceeded _ _ => "Error: max number of dice exceeded."
  | .mixedKinds => "Error: mixed sum and success roll types."
  | .groupsDisabled => "Error: grouped rolls not yet supported."

theorem RollError.bind_eq_ok_iff {α β : Type} {first : Except RollError α}
    {next : α → Except RollError β} {b : β} :
    first >>= next = .ok b ↔ ∃ a, first = .ok a ∧ next a = .ok b := by
  cases first with
  | error e => simp [bind, Except.bind]
  | ok a => simp [bind, Except.bind]

theorem RollError.bind_eq_error_iff {α β : Type} {first : Except RollError α}
    {next : α → Except RollError β} {e : RollError} :
    first >>= next = .error e ↔ first = .error e ∨ ∃ a, first = .ok a ∧ next a = .error e := by
  cases first with
  | error e' => simp [bind, Except.bind]
  | ok a => simp [bind, Except.bind]

end DiceNotation
