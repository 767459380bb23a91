import Mathlib.Data.List.Basic
import Mathlib.Order.Basic
import Mathlib.Algebra.Order.Group.Int

/-!
# Consecutive intervals

A list of intervals of integers, each of which starts where the one before it ended.
-/

namespace Intervals

/-- The intervals are not empty, the first starts at `start`, each of the others next to the one
before it, and the last ends before `next`. -/
inductive Consecutive : Int → List (Int × Int) → Int → Prop where
  | nil (start : Int) : Consecutive start [] start
  | cons {start stop next : Int} {rest : List (Int × Int)} : start ≤ stop →
      Consecutive (stop + 1) rest next → Consecutive start ((start, stop) :: rest) next

/-- An integer lies in an interval. -/
def Contains (x : Int) (interval : Int × Int) : Prop := interval.1 ≤ x ∧ x ≤ interval.2

instance (x : Int) (interval : Int × Int) : Decidable (Contains x interval) :=
  inferInstanceAs (Decidable (_ ∧ _))

/-- The number of integers in an interval. -/
def size (interval : Int × Int) : Int := interval.2 - interval.1 + 1

variable {start next : Int} {intervals : List (Int × Int)}

theorem Consecutive.le (h : Consecutive start intervals next) : start ≤ next
  := by
  induction h with
  | nil => exact le_rfl
  | cons hle _ ih => omega

/-- One interval reaches from end to end. -/
theorem Consecutive.eq_of_singleton {interval : Int × Int}
    (h : Consecutive start [interval] next) :
  interval = (start, next - 1)
  := by
  cases h with
  | cons hle hrest =>
      cases hrest
      rw [Int.add_sub_cancel]

/-- An interval lies within the ends. -/
theorem Consecutive.bounds (h : Consecutive start intervals next) {interval : Int × Int}
    (hmem : interval ∈ intervals) :
  start ≤ interval.1 ∧ interval.1 ≤ interval.2 ∧ interval.2 < next
  := by
  induction h with
  | nil => cases hmem
  | @cons start stop next rest hle hrest ih =>
      have hnext := hrest.le
      obtain rfl | hmem := List.mem_cons.mp hmem
      · simp only
        omega
      · obtain ⟨h₁, h₂, h₃⟩ := ih hmem
        omega

/-- Every integer between the ends is in one interval, and no other integer is in any. -/
theorem Consecutive.countP (h : Consecutive start intervals next) (x : Int) :
  intervals.countP (Contains x ·) = if start ≤ x ∧ x < next then 1 else 0
  := by
  induction h with
  | nil => simp
  | @cons start stop next rest hle hrest ih =>
      have hnext := hrest.le
      rw [List.countP_cons, ih]
      by_cases hx : x ≤ stop
      · have hbefore : ¬ (stop + 1 ≤ x ∧ x < next) := by omega
        have hwithin : start ≤ x ∧ x < next ↔ start ≤ x := by omega
        simp [hbefore, hwithin, Contains, hx]
      · have hbehind : stop + 1 ≤ x ∧ x < next ↔ start ≤ x ∧ x < next := by omega
        have hnone : decide (Contains x (start, stop)) = false := by simp [Contains, hx]
        rw [if_congr hbehind rfl rfl, hnone]
        rfl

end Intervals
