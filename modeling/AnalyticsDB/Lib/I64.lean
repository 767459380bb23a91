import Mathlib.Data.Int.DivMod
import Mathlib.Data.Nat.Digits.Defs

/-!
# Signed integers of 64 bits

An operation whose result does not fit either stops the program or wraps around, depending on how
the program was built.  An integer is read from the text of its digits.
-/

namespace I64

/-- The greatest integer of 64 bits. -/
def MAX : Int := 2 ^ 63 - 1

/-- An integer fits into 64 bits. -/
def InRange (x : Int) : Prop := -2 ^ 63 ≤ x ∧ x ≤ 2 ^ 63 - 1

instance (x : Int) : Decidable (InRange x) := inferInstanceAs (Decidable (_ ∧ _))

/-- A cast to 64 bits, which drops the bits above. -/
def cast (x : Int) : Int := x.bmod (2 ^ 64)

/-- The result of an operation, in a build with checks for overflows or without. -/
def result (checks : Bool) (x : Int) : Option Int :=
  if InRange x then some x else if checks then none else some (cast x)

def add (checks : Bool) (x y : Int) : Option Int := result checks (x + y)

def sub (checks : Bool) (x y : Int) : Option Int := result checks (x - y)

/-- The number decimal digits stand for. -/
def ofDigits (digits : List Char) : Option Nat :=
  if digits ≠ [] ∧ digits.all Char.isDigit = true then some (Nat.ofDigitChars 10 digits 0) else none

/-- The number digits with an optional sign stand for. -/
def ofSigned : List Char → Option Int
  | '-' :: digits => (ofDigits digits).map (fun n : Nat => -(n : Int))
  | '+' :: digits => (ofDigits digits).map (fun n : Nat => (n : Int))
  | digits => (ofDigits digits).map (fun n : Nat => (n : Int))

/-- Read an integer of 64 bits: digits, with an optional sign. -/
def parse (text : String) : Option Int :=
  (ofSigned text.toList).filter (fun x => InRange x)

theorem inRange_cast (x : Int) : InRange (cast x)
  := by
  have hle : -((2 ^ 64 : Nat) : Int) / 2 ≤ cast x := Int.le_bmod (by decide)
  have hlt : cast x < (((2 ^ 64 : Nat) : Int) + 1) / 2 := Int.bmod_lt (by decide)
  constructor <;> omega

theorem cast_of_inRange {x : Int} (h : InRange x) : cast x = x
  := by
  obtain ⟨hmin, hmax⟩ := h
  apply Int.bmod_eq_of_le <;> omega

/-- A cast finds the integer that fits. -/
theorem cast_eq {x y : Int} (k : Int) (h : InRange y) (hx : x = y + k * 2 ^ 64) : cast x = y
  := by
  rw [hx]
  have hcast : cast (y + k * ((2 ^ 64 : Nat) : Int)) = cast y := Int.add_mul_bmod_self_right y k _
  exact hcast.trans (cast_of_inRange h)

@[simp] theorem cast_cast (x : Int) : cast (cast x) = cast x
  := by
  simp [cast]

theorem cast_cast_add (x y : Int) : cast (cast x + y) = cast (x + y)
  := by
  simp [cast]

theorem cast_cast_sub (x y : Int) : cast (cast x - y) = cast (x - y)
  := by
  simp [cast]

theorem result_of_inRange {checks : Bool} {x : Int} (h : InRange x) : result checks x = some x
  := if_pos h

/-- With checks an operation whose result does not fit stops the program. -/
theorem result_checked {x : Int} (h : ¬ InRange x) : result true x = none
  := by
  rw [result, if_neg h, if_pos rfl]

/-- Without checks every operation has a result. -/
theorem result_unchecked (x : Int) : result false x = some (cast x)
  := by
  rw [result]
  split
  · rename_i h
    rw [cast_of_inRange h]
  · rfl

/-- The result of an operation that does not stop the program. -/
theorem result_eq_cast {checks : Bool} {x : Int} (h : checks = true → InRange x) :
  result checks x = some (cast x)
  := by
  cases checks with
  | true => rw [result_of_inRange (h rfl), cast_of_inRange (h rfl)]
  | false => exact result_unchecked x

/-! ### Texts of integers -/

theorem isDigit_of_mem {n : Nat} {c : Char} (h : c ∈ Nat.toDigits 10 n) : c.isDigit = true
  := Nat.isDigit_of_mem_toDigits (by decide) (by decide) h

theorem ofDigits_toDigits (n : Nat) : ofDigits (Nat.toDigits 10 n) = some n
  := by
  rw [ofDigits, if_pos ⟨Nat.toDigits_ne_nil, List.all_eq_true.mpr (fun _ => isDigit_of_mem)⟩,
    Nat.ofDigitChars_ten_toDigits]

/-- The digits of a number start with no sign. -/
theorem toDigits_eq_cons (n : Nat) :
  ∃ d digits, Nat.toDigits 10 n = d :: digits ∧ d ≠ '-' ∧ d ≠ '+'
  := by
  cases hdigits : Nat.toDigits 10 n with
  | nil => exact absurd hdigits Nat.toDigits_ne_nil
  | cons d digits =>
      have hd : d.isDigit = true := isDigit_of_mem (n := n) (hdigits ▸ List.mem_cons_self)
      refine ⟨d, digits, rfl, ?_, ?_⟩ <;>
      · rintro rfl
        cases hd

/-- What is read fits, and is negative only after a sign. -/
theorem parse_bounds {text : String} {x : Int} (h : parse text = some x) :
  InRange x ∧ (text.toList.head? ≠ some '-' → 0 ≤ x)
  := by
  obtain ⟨hread, hrange⟩ := Option.filter_eq_some_iff.mp h
  refine ⟨by simpa using hrange, ?_⟩
  intro hsign
  rw [ofSigned.eq_def] at hread
  split at hread
  · rename_i htext
    rw [htext] at hsign
    exact absurd rfl hsign
  · obtain ⟨n, -, rfl⟩ := Option.map_eq_some_iff.mp hread
    exact Int.natCast_nonneg n
  · obtain ⟨n, -, rfl⟩ := Option.map_eq_some_iff.mp hread
    exact Int.natCast_nonneg n

/-- A number is read back from its digits. -/
theorem parse_digits {text : String} {n : Nat} (htext : text.toList = Nat.toDigits 10 n)
    (hn : InRange n) :
  parse text = some (n : Int)
  := by
  obtain ⟨d, digits, hdigits, hminus, hplus⟩ := toDigits_eq_cons n
  have hread : ofDigits (d :: digits) = some n := hdigits ▸ ofDigits_toDigits n
  apply Option.filter_eq_some_iff.mpr
  refine ⟨?_, by simpa using hn⟩
  rw [htext, hdigits, ofSigned.eq_def]
  split
  · rename_i heq
    exact absurd (List.cons.inj heq).1 hminus
  · rename_i heq
    exact absurd (List.cons.inj heq).1 hplus
  · rw [hread]
    rfl

end I64
