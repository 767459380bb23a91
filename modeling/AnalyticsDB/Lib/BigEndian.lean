import Std.Data.ExtTreeMap
import Mathlib.Tactic.Linarith
import Mathlib.Tactic.Ring

/-!
# Big-endian bytes

The big-endian bytes of a natural number of a fixed width.  What is proved is that the bytes
determine the number, and that byte sequences are ordered as the numbers are, so that a map keyed
by bytes is iterated in the order of the numbers.
-/

namespace BigEndian

/-- The `width` bytes of a number, the highest first. -/
def toBytes : Nat → Nat → List UInt8
  | 0, _ => []
  | width + 1, n => UInt8.ofNat (n / 256 ^ width) :: toBytes width n

/-- The number with these bytes. -/
def ofBytes (bytes : List UInt8) : Nat := bytes.foldl (fun n byte => n * 256 + byte.toNat) 0

@[simp]
theorem length_toBytes (width n : Nat) :
  (toBytes width n).length = width
  := by
  induction width with
  | zero => rfl
  | succ width ih => simp [toBytes, ih]

/-- The bytes depend on the number below the width. -/
theorem toBytes_mod (width n : Nat) :
  toBytes width (n % 256 ^ width) = toBytes width n
  := by
  induction width generalizing n with
  | zero => rfl
  | succ width ih =>
      have hlow : n % 256 ^ (width + 1) % 256 ^ width = n % 256 ^ width := by
        apply Nat.mod_mod_of_dvd
        exact pow_dvd_pow 256 (Nat.le_succ width)
      have hhigh : n % 256 ^ (width + 1) / 256 ^ width = n / 256 ^ width % 256 := by
        rw [pow_succ, Nat.mod_mul_right_div_self]
      rw [toBytes, toBytes, hhigh, ← ih (n % 256 ^ (width + 1)), hlow, ih]
      congr 1
      apply UInt8.toNat_inj.mp
      simp

theorem foldl_toBytes (width n high : Nat) (hn : n < 256 ^ width) :
  (toBytes width n).foldl (fun n byte => n * 256 + byte.toNat) high = high * 256 ^ width + n
  := by
  induction width generalizing n high with
  | zero =>
      have : n = 0 := by simpa using hn
      simp [toBytes, this]
  | succ width ih =>
      have hbyte : n / 256 ^ width < 256 := by
        apply Nat.div_lt_of_lt_mul
        rw [← pow_succ]
        exact hn
      have hlow : n % 256 ^ width < 256 ^ width := Nat.mod_lt _ (Nat.pos_of_neZero _)
      have hsplit := Nat.div_add_mod n (256 ^ width)
      rw [toBytes, List.foldl_cons, ← toBytes_mod, ih _ _ hlow]
      have hnat : (UInt8.ofNat (n / 256 ^ width)).toNat = n / 256 ^ width := by
        simpa using hbyte
      rw [hnat, pow_succ]
      linarith [hsplit]

/-- A number is read back from its bytes. -/
theorem ofBytes_toBytes {width n : Nat} (hn : n < 256 ^ width) :
  ofBytes (toBytes width n) = n
  := by
  rw [ofBytes, foldl_toBytes width n 0 hn, Nat.zero_mul, Nat.zero_add]

theorem toBytes_inj {width n m : Nat} (hn : n < 256 ^ width) (hm : m < 256 ^ width) :
  toBytes width n = toBytes width m ↔ n = m
  := by
  constructor
  · intro h
    rw [← ofBytes_toBytes hn, h, ofBytes_toBytes hm]
  · rintro rfl
    rfl

/-- Numbers are compared by their quotients first, and then by their remainders. -/
theorem compare_eq_div_mod (n m k : Nat) :
  compare n m = (compare (n / k) (m / k)).then (compare (n % k) (m % k))
  := by
  have hn := Nat.div_add_mod n k
  have hm := Nat.div_add_mod m k
  obtain hlt | heq | hgt := Nat.lt_trichotomy (n / k) (m / k)
  · have hnm : n < m := Nat.lt_of_div_lt_div hlt
    rw [Nat.compare_eq_lt.mpr hlt, Nat.compare_eq_lt.mpr hnm]
    rfl
  · rw [heq, Nat.compare_eq_eq.mpr rfl, Ordering.eq_then]
    rw [heq] at hn
    obtain hlt | hsame | hgt := Nat.lt_trichotomy (n % k) (m % k)
    · have hnm : n < m := by omega
      rw [Nat.compare_eq_lt.mpr hlt, Nat.compare_eq_lt.mpr hnm]
    · have hnm : n = m := by omega
      rw [Nat.compare_eq_eq.mpr hsame, Nat.compare_eq_eq.mpr hnm]
    · have hnm : m < n := by omega
      rw [Nat.compare_eq_gt.mpr hgt, Nat.compare_eq_gt.mpr hnm]
  · have hnm : m < n := Nat.lt_of_div_lt_div hgt
    rw [Nat.compare_eq_gt.mpr hgt, Nat.compare_eq_gt.mpr hnm]
    rfl

theorem compare_ofNat {n m : Nat} (hn : n < 256) (hm : m < 256) :
  compare (UInt8.ofNat n) (UInt8.ofNat m) = compare n m
  := by
  have hn' : (UInt8.ofNat n).toNat = n := by simpa using hn
  have hm' : (UInt8.ofNat m).toNat = m := by simpa using hm
  obtain hlt | heq | hgt := Nat.lt_trichotomy n m
  · rw [Nat.compare_eq_lt.mpr hlt, Std.compare_eq_lt, UInt8.lt_iff_toNat_lt, hn', hm']
    exact hlt
  · subst heq
    simp
  · rw [Nat.compare_eq_gt.mpr hgt, Std.compare_eq_gt, UInt8.lt_iff_toNat_lt, hn', hm']
    exact hgt

/-- Bytes are ordered as the numbers are. -/
theorem compare_toBytes {width n m : Nat} (hn : n < 256 ^ width) (hm : m < 256 ^ width) :
  compare (toBytes width n) (toBytes width m) = compare n m
  := by
  induction width generalizing n m with
  | zero =>
      have hzero : n = m := by
        have : n = 0 := by simpa using hn
        have : m = 0 := by simpa using hm
        omega
      subst hzero
      simp [toBytes]
  | succ width ih =>
      have hpos : 0 < 256 ^ width := Nat.pos_of_neZero _
      have hhigh : n / 256 ^ width < 256 := by
        apply Nat.div_lt_of_lt_mul
        rw [← pow_succ]
        exact hn
      have hhigh' : m / 256 ^ width < 256 := by
        apply Nat.div_lt_of_lt_mul
        rw [← pow_succ]
        exact hm
      rw [toBytes, toBytes, ← toBytes_mod, ← toBytes_mod width m, List.compare_cons_cons,
        ih (Nat.mod_lt _ hpos) (Nat.mod_lt _ hpos), compare_ofNat hhigh hhigh']
      exact (compare_eq_div_mod n m (256 ^ width)).symm

end BigEndian
