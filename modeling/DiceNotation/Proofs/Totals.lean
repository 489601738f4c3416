import DiceNotation.Total
import Mathlib

/-!
# Adding up totals

Values are added in signed 64-bit arithmetic, so a total is the sum of the integers that the
values stand for, wrapped once at the end. How the values were grouped makes no difference.
-/
namespace DiceNotation.Total

theorem foldl_add (start : Int64) (values : List Int64) :
    values.foldl (· + ·) start = start + add values := by
  induction values generalizing start with
  | nil => exact (Int64.add_zero start).symm
  | cons value values ih =>
    have htail : add (value :: values) = 0 + value + add values := ih (0 + value)
    rw [List.foldl_cons, ih, htail, Int64.zero_add, Int64.add_assoc]

theorem add_cons (value : Int64) (values : List Int64) :
    add (value :: values) = value + add values := by
  have h : add (value :: values) = 0 + value + add values := foldl_add (0 + value) values
  rw [h, Int64.zero_add]

theorem add_append (values others : List Int64) :
    add (values ++ others) = add values + add others := by
  induction values with
  | nil => exact (Int64.zero_add _).symm
  | cons value values ih =>
    rw [List.cons_append, add_cons, add_cons, ih, Int64.add_assoc]

theorem add_flatMap {α : Type} (valuesOf : α → List Int64) (items : List α) :
    add (items.flatMap valuesOf) = add (items.map fun item => add (valuesOf item)) := by
  induction items with
  | nil => rfl
  | cons item items ih =>
    rw [List.flatMap_cons, List.map_cons, add_append, add_cons, ih]

/-- A total wraps the sum of integers once. -/
theorem add_map_ofInt {α : Type} (valueOf : α → Int) (items : List α) :
    add (items.map fun item => Int64.ofInt (valueOf item)) =
      Int64.ofInt (items.map valueOf).sum := by
  induction items with
  | nil => rfl
  | cons item items ih =>
    rw [List.map_cons, add_cons, ih, List.map_cons, List.sum_cons, Int64.ofInt_add]

end DiceNotation.Total
