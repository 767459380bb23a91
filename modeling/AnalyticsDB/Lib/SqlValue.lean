import Mathlib.Algebra.Order.Field.Rat
import Mathlib.Data.Rat.Defs
import Mathlib.Data.String.Basic
import Mathlib.Data.Sum.Order
import Mathlib.Algebra.BigOperators.Ring.Finset
import Mathlib.Tactic.FieldSimp
import Mathlib.Tactic.Positivity

/-!
# Values and aggregates of SQL

Integers and decimals are exact, a NULL is the absence of a value.  The sum of no values is NULL,
and so are their minimum, maximum and average; the quotient of two integers is truncated, while
their average is not.

The aggregates of a list that comes in parts can be computed from those of the parts: the sum of
the counts is the count, and so for the other aggregates, but not for the average of integers when
it is computed as the quotient of a sum and a count.
-/

namespace Sql

inductive Value where
  | boolean (b : Bool)
  | integer (i : ℤ)
  | decimal (q : ℚ)
  | text (s : String)
  deriving DecidableEq

/-- A cell of a row; `none` is NULL. -/
abbrev Cell := Option Value

namespace Value

/-- The values of different types in some order. -/
def rank : Value → Bool ⊕ₗ (ℤ ⊕ₗ (ℚ ⊕ₗ String))
  | boolean b => Sum.inlₗ b
  | integer i => Sum.inrₗ (Sum.inlₗ i)
  | decimal q => Sum.inrₗ (Sum.inrₗ (Sum.inlₗ q))
  | text s => Sum.inrₗ (Sum.inrₗ (Sum.inrₗ s))

theorem rank_injective : Function.Injective rank
  := by
  intro a b h
  cases a <;> cases b <;> simp_all [rank, Sum.inlₗ, Sum.inrₗ]

instance : LinearOrder Value := LinearOrder.lift' rank rank_injective

theorem text_le_text {s t : String} : text s ≤ text t ↔ s ≤ t
  := by
  change rank (text s) ≤ rank (text t) ↔ _
  simp only [rank, Sum.Lex.inr_le_inr_iff]

/-- The number a value is. -/
def toRat : Value → ℚ
  | integer i => i
  | decimal q => q
  | boolean _ | text _ => 0

/-- The number as an integer when it is one. -/
def ofRat (q : ℚ) : Value := if q.den = 1 then integer q.num else decimal q

/-- The sum of two integers is an integer, every other sum a decimal. -/
def add : Value → Value → Value
  | integer i, integer j => integer (i + j)
  | a, b => decimal (a.toRat + b.toRat)

/-- The quotient of two integers is truncated, every other quotient is exact. -/
def div : Value → Value → Value
  | integer i, integer j => integer (i.tdiv j)
  | a, b => decimal (a.toRat / b.toRat)

def isInteger : Value → Bool
  | integer _ => true
  | boolean _ | decimal _ | text _ => false

theorem toRat_add (a b : Value) : (a.add b).toRat = a.toRat + b.toRat
  := by
  cases a <;> cases b <;> simp [add, toRat]

theorem isInteger_add (a b : Value) : (a.add b).isInteger = (a.isInteger && b.isInteger)
  := by
  cases a <;> cases b <;> rfl

/-- A sum is given by its type and its number. -/
theorem add_eq_add {a b c d : Value} (htype : (a.add b).isInteger = (c.add d).isInteger)
    (hnumber : (a.add b).toRat = (c.add d).toRat) :
  a.add b = c.add d
  := by
  cases a <;> cases b <;> cases c <;> cases d <;> simp_all [add, toRat, isInteger]
  exact_mod_cast hnumber

theorem add_assoc (a b c : Value) : (a.add b).add c = a.add (b.add c)
  := by
  apply add_eq_add
  · simp only [isInteger_add, Bool.and_assoc]
  · simp only [toRat_add, Rat.add_assoc]

end Value

/-! ### Aggregates -/

/-- The values of the cells that are not NULL, put together from the right. -/
def fold (f : Value → Value → Value) (cells : List Cell) : Cell :=
  cells.foldr (Option.merge f) none

def sum (cells : List Cell) : Cell := fold Value.add cells

def min (cells : List Cell) : Cell := fold Min.min cells

def max (cells : List Cell) : Cell := fold Max.max cells

/-- The number of cells that are not NULL. -/
def count (cells : List Cell) : Nat := (cells.filter Option.isSome).length

/-- The average of integers is not truncated. -/
def avg (cells : List Cell) : Cell :=
  (sum cells).map (fun total =>
    if total.isInteger then
      .ofRat (total.toRat / count cells)
    else
      .decimal (total.toRat / count cells))

/-- The quotient of two cells; NULL if one of them is. -/
def quotient : Cell → Cell → Cell
  | some a, some b => some (a.div b)
  | _, _ => none

section

variable {f : Value → Value → Value}

theorem fold_append (hassoc : ∀ a b c, f (f a b) c = f a (f b c)) (xs ys : List Cell) :
  fold f (xs ++ ys) = Option.merge f (fold f xs) (fold f ys)
  := by
  have hmerge : ∀ a b c : Cell, Option.merge f (Option.merge f a b) c
      = Option.merge f a (Option.merge f b c) := by
    intro a b c
    cases a <;> cases b <;> cases c <;> simp [hassoc]
  induction xs with
  | nil => simp [fold]
  | cons x xs ih =>
      rw [List.cons_append, fold, List.foldr_cons, ← fold, ih, ← hmerge]
      rfl

/-- The aggregate of all cells is that of the aggregates of the parts. -/
theorem fold_flatten (hassoc : ∀ a b c, f (f a b) c = f a (f b c)) (parts : List (List Cell)) :
  fold f (parts.map (fold f)) = fold f parts.flatten
  := by
  induction parts with
  | nil => rfl
  | cons part parts ih =>
      rw [List.flatten_cons, fold_append hassoc, ← ih]
      rfl

end

theorem sum_map_sum (parts : List (List Cell)) : sum (parts.map sum) = sum parts.flatten
  := fold_flatten Value.add_assoc parts

theorem min_map_min (parts : List (List Cell)) : min (parts.map min) = min parts.flatten
  := fold_flatten min_assoc parts

theorem max_map_max (parts : List (List Cell)) : max (parts.map max) = max parts.flatten
  := fold_flatten max_assoc parts

theorem sum_integers (numbers : List ℤ) (h : numbers ≠ []) :
  sum (numbers.map (fun i => some (.integer i))) = some (.integer numbers.sum)
  := by
  induction numbers with
  | nil => exact absurd rfl h
  | cons i numbers ih =>
      rw [List.map_cons, sum, fold, List.foldr_cons, ← fold, ← sum]
      cases numbers with
      | nil => simp [sum, fold]
      | cons j numbers =>
          rw [ih (List.cons_ne_nil _ _), List.sum_cons]
          rfl

/-- The count of all cells is the sum of the counts of the parts, of which there is one. -/
theorem sum_map_count (parts : List (List Cell)) (h : parts ≠ []) :
  sum (parts.map (fun part => some (.integer (count part))))
    = some (.integer (count parts.flatten))
  := by
  have hsum := sum_integers (parts.map (fun part => (count part : ℤ))) (by simpa using h)
  rw [List.map_map] at hsum
  rw [show (fun part : List Cell => some (Value.integer (count part)))
    = (fun i => some (Value.integer i)) ∘ (fun part => (count part : ℤ)) from rfl, hsum]
  have hcount : (parts.map (fun part => (count part : ℤ))).sum = (count parts.flatten : ℤ) := by
    simp [count, List.filter_flatten, List.length_flatten, Function.comp_def, Nat.cast_list_sum]
  rw [hcount]

/-- There is a sum exactly when some cell is not NULL. -/
theorem count_pos_of_sum {cells : List Cell} {total : Value} (h : sum cells = some total) :
  0 < count cells
  := by
  induction cells generalizing total with
  | nil => cases h
  | cons cell cells ih =>
      cases cell with
      | some value => simp [count]
      | none =>
          rw [sum, fold, List.foldr_cons, Option.merge_none_left] at h
          simpa [count] using ih h

theorem ofRat_div_eq_iff {i : ℤ} {n : Nat} (hn : 0 < n) :
  Value.integer (i.tdiv n) = Value.ofRat (i / n) ↔ (n : ℤ) ∣ i
  := by
  have hn' : (n : ℚ) ≠ 0 := by positivity
  constructor
  · intro h
    unfold Value.ofRat at h
    split at h
    · rename_i hden
      -- The quotient is its numerator, and the dividend is a multiple of the divisor.
      have hquotient : (i : ℚ) / n = ((i : ℚ) / n).num := (Rat.den_eq_one_iff _).mp hden |>.symm
      rw [div_eq_iff hn'] at hquotient
      exact ⟨((i : ℚ) / n).num, by rw [mul_comm]; exact_mod_cast hquotient⟩
    · cases h
  · rintro ⟨k, rfl⟩
    have hquotient : (((n : ℤ) * k : ℤ) : ℚ) / n = (k : ℤ) := by
      push_cast
      field_simp
    rw [hquotient, Value.ofRat, if_pos (Rat.den_intCast k), Rat.num_intCast,
      Int.mul_tdiv_cancel_left _ (by exact_mod_cast hn.ne')]

/-- The quotient of the sum and the count is the average exactly when the values are not all
integers, or their count divides their sum. -/
theorem quotient_eq_avg_iff (cells : List Cell) :
  quotient (sum cells) (some (.integer (count cells))) = avg cells
    ↔ ∀ i, sum cells = some (.integer i) → (count cells : ℤ) ∣ i
  := by
  cases htotal : sum cells with
  | none => simp [quotient, avg, htotal]
  | some total =>
      have hpos := count_pos_of_sum htotal
      cases total with
      | integer i =>
          simp [quotient, avg, htotal, Value.isInteger, Value.div, Value.toRat,
            ofRat_div_eq_iff hpos]
      | decimal q => simp [quotient, avg, htotal, Value.isInteger, Value.div, Value.toRat]
      | boolean b => simp [quotient, avg, htotal, Value.isInteger, Value.div, Value.toRat]
      | text s => simp [quotient, avg, htotal, Value.isInteger, Value.div, Value.toRat]

end Sql
