import AnalyticsDB.Lib.SqlValue

/-!
# The truth of conditions

A condition is true, false or NULL.  A row passes a WHERE clause when its condition is true there.
-/

namespace Sql

/-- Whether a condition is true. -/
def Cell.isTrue (cell : Cell) : Bool := cell == some (.boolean true)

def Cell.and : Cell → Cell → Cell
  | some (.boolean false), _ | _, some (.boolean false) => some (.boolean false)
  | some (.boolean true), some (.boolean true) => some (.boolean true)
  | _, _ => none

def Cell.or : Cell → Cell → Cell
  | some (.boolean true), _ | _, some (.boolean true) => some (.boolean true)
  | some (.boolean false), some (.boolean false) => some (.boolean false)
  | _, _ => none

def Cell.not : Cell → Cell
  | some (.boolean b) => some (.boolean !b)
  | _ => none

/-- Whether one of some conditions is true. -/
def Cell.any (cells : List Cell) : Cell := cells.foldr Cell.or (some (.boolean false))

@[simp]
theorem Cell.isTrue_boolean (b : Bool) : Cell.isTrue (some (.boolean b)) = b
  := by
  cases b <;> rfl

theorem Cell.isTrue_and (a b : Cell) : (a.and b).isTrue = (a.isTrue && b.isTrue)
  := by
  unfold Cell.and
  split
  · simp
  · simp
  · rfl
  · rename_i hfalse hfalse' htrue
    apply Eq.symm
    apply Bool.eq_false_iff.mpr
    intro h
    simp only [Cell.isTrue, Bool.and_eq_true, beq_iff_eq] at h
    exact htrue h.1 h.2

/-- Conditions that are true or false have a disjunction that is. -/
theorem Cell.any_boolean {α : Type} (f : α → Bool) (l : List α) :
  Cell.any (l.map (fun x => some (.boolean (f x)))) = some (.boolean (l.any f))
  := by
  induction l with
  | nil => rfl
  | cons x l ih =>
      rw [List.map_cons, Cell.any, List.foldr_cons, ← Cell.any, ih, List.any_cons]
      cases f x with
      | true => rfl
      | false => cases l.any f <;> rfl

end Sql
