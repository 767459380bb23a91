import AnalyticsDB.Lib.I64
import AnalyticsDB.Lib.Intervals

/-!
# Slices of a range of integers

The range of a `generate_series` is cut into slices, one for each worker, whose sizes differ by at
most one.  Its ends are any integers of 64 bits that a literal can have, and the number of its
elements and the place after its last element need not fit into 64 bits.
-/

open Intervals

/-- The slices from the one of this number on, of which this many are left. -/
def sliceFrom (checks : Bool) (base remainder : Nat) :
    Nat → Nat → Int → Option (List (Int × Int))
  | 0, _, _ => some []
  | left + 1, i, cursor => do
    let extra := if i < remainder then 1 else 0
    let size := I64.cast ((base + extra : Nat) : Int)
    let chunkEnd ← I64.sub checks (← I64.add checks cursor size) 1
    let next ← I64.add checks chunkEnd 1
    let rest ← sliceFrom checks base remainder left (i + 1) next
    return (cursor, chunkEnd) :: rest

/-- Cuts a range into slices for the workers; none is a program that an overflow stops. -/
def sliceIntRange (checks : Bool) (start stop : Int) (numWorkers : Nat) :
    Option (List (Int × Int)) :=
  if numWorkers = 0 ∨ stop < start then some [] else do
    let count ← I64.add checks (← I64.sub checks stop start) 1
    -- a cast to 128 bits extends the sign
    let total := (count % 2 ^ 128).toNat
    let workers := min numWorkers total
    let base := total / workers
    let remainder := total - base * workers
    sliceFrom checks base remainder workers 0 start

/-- The slices are as many as there are workers, or elements when these are fewer; they are not
empty and consecutive, and their sizes differ by at most one. -/
structure Sliced (start stop : Int) (numWorkers : Nat) (chunks : List (Int × Int)) : Prop where
  length : chunks.length = min numWorkers (stop - start + 1).toNat
  consecutive : Consecutive start chunks (stop + 1)
  balanced : ∀ chunk ∈ chunks, ∀ chunk' ∈ chunks, size chunk ≤ size chunk' + 1

/-- A range has more elements than an integer of 64 bits can say. -/
def Wide (start stop : Int) : Prop := I64.MAX ≤ stop - start

instance (start stop : Int) : Decidable (Wide start stop) := inferInstanceAs (Decidable (_ ≤ _))

section

variable (checks : Bool) {base remainder left i : Nat} {cursor stop : Int}

/-- The elements the slices that are left have. -/
def leftSize (base remainder left i : Nat) : Nat :=
  left * base + min left (remainder - i)

theorem leftSize_succ (base remainder left i : Nat) :
  leftSize base remainder (left + 1) i
    = base + (if i < remainder then 1 else 0) + leftSize base remainder left (i + 1)
  := by
  rw [leftSize, leftSize, Nat.succ_mul]
  split <;> omega

/-- One slice: its end is found although the place after it may not fit. -/
theorem sliceFrom_succ {size : Nat} (hsize : size = base + if i < remainder then 1 else 0)
    (hpos : 0 < size) (hcursor : -2 ^ 63 ≤ cursor) (hmax : size < 2 ^ 63)
    (hend : cursor + size ≤ 2 ^ 63) (hchecks : checks = true → cursor + size < 2 ^ 63) :
  sliceFrom checks base remainder (left + 1) i cursor
    = (sliceFrom checks base remainder left (i + 1) (I64.cast (cursor + size))).map
      ((cursor, cursor + size - 1) :: ·)
  := by
  have hnext : checks = true → I64.InRange (cursor + size) := by
    intro h
    have := hchecks h
    constructor <;> omega
  have hcast : I64.cast (size : Int) = size := by
    apply I64.cast_of_inRange
    constructor <;> omega
  have hadd : I64.add checks cursor size = some (I64.cast (cursor + size)) :=
    I64.result_eq_cast hnext
  have hsub : I64.sub checks (I64.cast (cursor + size)) 1 = some (cursor + size - 1) := by
    rw [I64.sub, I64.result_eq_cast, I64.cast_cast_sub, I64.cast_of_inRange]
    · constructor <;> omega
    · intro h
      rw [I64.cast_of_inRange (hnext h)]
      constructor <;> omega
  have hcursor' : I64.add checks (cursor + size - 1) 1 = some (I64.cast (cursor + size)) := by
    rw [I64.add, Int.sub_add_cancel, I64.result_eq_cast hnext]
  rw [sliceFrom]
  simp only [← hsize, hcast, hadd, hsub, hcursor', Option.bind_eq_bind, Option.bind_some]
  cases sliceFrom checks base remainder left (i + 1) (I64.cast (cursor + size)) <;> rfl

/-- The slices that are left are consecutive and have the sizes there are. -/
theorem sliceFrom_sliced (hbase : 0 < base) (hcursor : -2 ^ 63 ≤ cursor)
    (hmax : leftSize base remainder left i < 2 ^ 63)
    (hstop : cursor + leftSize base remainder left i = stop + 1)
    (hend : stop < 2 ^ 63) (hchecks : checks = true → stop + 1 < 2 ^ 63) :
  ∃ chunks, sliceFrom checks base remainder left i cursor = some chunks ∧ chunks.length = left
    ∧ Consecutive cursor chunks (stop + 1)
    ∧ ∀ chunk ∈ chunks, size chunk = base ∨ size chunk = base + 1
  := by
  induction left generalizing i cursor with
  | zero =>
      have hempty : cursor = stop + 1 := by simpa [leftSize] using hstop
      exact ⟨[], rfl, rfl, hempty ▸ .nil _, by simp⟩
  | succ left ih =>
      rw [leftSize_succ] at hmax hstop
      set chunk : Nat := base + if i < remainder then 1 else 0 with hchunk
      have hpos : 0 < chunk := by omega
      have hbound : chunk = base ∨ chunk = base + 1 := by
        rw [hchunk]
        split <;> simp
      have hfits : checks = true → cursor + chunk < 2 ^ 63 := by
        intro h
        have := hchecks h
        omega
      rw [sliceFrom_succ checks hchunk hpos hcursor (by omega) (by omega) hfits]
      by_cases hlast : left = 0
      · subst hlast
        have hstop' : cursor + chunk = stop + 1 := by simpa [leftSize] using hstop
        refine ⟨[(cursor, cursor + chunk - 1)], rfl, rfl, ?_, ?_⟩
        · apply Consecutive.cons (by omega)
          rw [Int.sub_add_cancel, hstop']
          exact .nil _
        · intro interval hmem
          obtain rfl := List.mem_singleton.mp hmem
          simp only [size]
          omega
      · have hmore : 0 < leftSize base remainder left (i + 1) := by
          have := Nat.mul_pos (Nat.pos_of_ne_zero hlast) hbase
          rw [leftSize]
          omega
        have hcast : I64.cast (cursor + chunk) = cursor + chunk := by
          apply I64.cast_of_inRange
          constructor <;> omega
        have hcovers : cursor + chunk + leftSize base remainder left (i + 1) = stop + 1 := by omega
        rw [hcast]
        obtain ⟨chunks, hchunks, hlength, hconsecutive, hsizes⟩ :=
          ih (by omega) (by omega) hcovers
        refine ⟨(cursor, cursor + chunk - 1) :: chunks, ?_, ?_, ?_, ?_⟩
        · rw [hchunks]
          rfl
        · rw [List.length_cons, hlength]
        · apply Consecutive.cons (by omega)
          rw [Int.sub_add_cancel]
          exact hconsecutive
        · intro interval hmem
          obtain rfl | hmem := List.mem_cons.mp hmem
          · simp only [size]
            omega
          · exact hsizes interval hmem

/-- The place after the greatest integer does not fit: the slice that ends there stops the
program. -/
theorem sliceFrom_overflows (hbase : 0 < base) (hcursor : -2 ^ 63 ≤ cursor)
    (hmax : leftSize base remainder (left + 1) i < 2 ^ 63)
    (hstop : cursor + leftSize base remainder (left + 1) i = 2 ^ 63) :
  sliceFrom true base remainder (left + 1) i cursor = none
  := by
  induction left generalizing i cursor with
  | zero =>
      rw [leftSize_succ] at hmax hstop
      set chunk : Nat := base + if i < remainder then 1 else 0 with hchunk
      have hstop' : cursor + chunk = 2 ^ 63 := by simpa [leftSize] using hstop
      have hcast : I64.cast (chunk : Int) = chunk := by
        apply I64.cast_of_inRange
        constructor <;> omega
      have hnone : I64.add true cursor chunk = none := by
        apply I64.result_checked
        rintro ⟨-, h⟩
        omega
      rw [sliceFrom]
      simp only [← hchunk, hcast, hnone, Option.bind_eq_bind, Option.bind_none]
  | succ left ih =>
      rw [leftSize_succ] at hmax hstop
      set chunk : Nat := base + if i < remainder then 1 else 0 with hchunk
      have hmore : 0 < leftSize base remainder (left + 1) (i + 1) := by
        have : 0 < (left + 1) * base := Nat.mul_pos (by omega) hbase
        rw [leftSize]
        omega
      rw [sliceFrom_succ true hchunk (by omega) hcursor (by omega) (by omega) (by omega)]
      have hcast : I64.cast (cursor + chunk) = cursor + chunk := by
        apply I64.cast_of_inRange
        constructor <;> omega
      rw [hcast, ih (by omega) (by omega) (by omega)]
      rfl

/-- The number of elements is split into the sizes of the slices. -/
theorem leftSize_split (total : Nat) {workers : Nat} (hworkers : 0 < workers) :
  leftSize (total / workers) (total - total / workers * workers) workers 0 = total
  := by
  have hdiv := Nat.div_add_mod total workers
  have hmod := Nat.mod_lt total hworkers
  rw [leftSize, Nat.mul_comm workers, Nat.sub_zero]
  rw [Nat.mul_comm] at hdiv
  omega

end

section

variable (checks : Bool) {start stop : Int} {numWorkers : Nat}

/-- A range that is not wide is cut by its number of elements. -/
theorem sliceIntRange_eq (hworkers : 0 < numWorkers) (hle : start ≤ stop)
    (hwide : ¬ Wide start stop) :
  ∃ total workers : Nat, (total : Int) = stop - start + 1 ∧ workers = min numWorkers total
    ∧ 0 < total
    ∧ sliceIntRange checks start stop numWorkers
      = sliceFrom checks (total / workers) (total - total / workers * workers) workers 0 start
  := by
  rw [Wide, I64.MAX] at hwide
  have hsub : I64.sub checks stop start = some (stop - start) := by
    apply I64.result_of_inRange
    constructor <;> omega
  have hadd : I64.add checks (stop - start) 1 = some (stop - start + 1) := by
    apply I64.result_of_inRange
    constructor <;> omega
  have htotal : ((stop - start + 1) % 2 ^ 128).toNat = (stop - start + 1).toNat := by
    rw [Int.emod_eq_of_lt] <;> omega
  refine ⟨(stop - start + 1).toNat, _, by omega, rfl, by omega, ?_⟩
  rw [sliceIntRange, if_neg (by omega), hsub]
  simp only [Option.bind_eq_bind, Option.bind_some, hadd, htotal]

/-- A range that is not wide is cut as it should be, although the place after its end may not fit
in a build that does not check. -/
theorem sliceIntRange_sliced (hworkers : 0 < numWorkers) (hstart : -2 ^ 63 ≤ start)
    (hle : start ≤ stop) (hstop : stop ≤ I64.MAX) (hwide : ¬ Wide start stop)
    (hchecks : checks = true → stop < I64.MAX) :
  ∃ chunks, sliceIntRange checks start stop numWorkers = some chunks
    ∧ Sliced start stop numWorkers chunks
  := by
  obtain ⟨total, workers, htotal, rfl, hpos, heq⟩ :=
    sliceIntRange_eq checks hworkers hle hwide
  have hsplit := leftSize_split total (show 0 < min numWorkers total by omega)
  rw [Wide] at hwide
  rw [I64.MAX] at hwide hstop hchecks
  have hbase : 0 < total / min numWorkers total := Nat.div_pos (by omega) (by omega)
  have hfits : checks = true → stop + 1 < 2 ^ 63 := by
    intro h
    have := hchecks h
    omega
  have hcovers : start + leftSize (total / min numWorkers total)
      (total - total / min numWorkers total * min numWorkers total) (min numWorkers total) 0
      = stop + 1 := by
    omega
  obtain ⟨chunks, hchunks, hlength, hconsecutive, hsizes⟩ :=
    sliceFrom_sliced checks hbase hstart (by omega) hcovers (by omega) hfits
  refine ⟨chunks, heq.trans hchunks, ?_, hconsecutive, ?_⟩
  · rw [hlength]
    omega
  · intro chunk hchunk chunk' hchunk'
    have := hsizes chunk hchunk
    have := hsizes chunk' hchunk'
    omega

/-- The number of elements of a wide range does not fit. -/
theorem sliceIntRange_wide (hworkers : 0 < numWorkers) (hle : start ≤ stop)
    (hwide : Wide start stop) :
  sliceIntRange true start stop numWorkers = none
  := by
  rw [sliceIntRange, if_neg (by omega)]
  rw [Wide, I64.MAX] at hwide
  by_cases hsub : I64.InRange (stop - start)
  · have hadd : I64.add true (stop - start) 1 = none := by
      apply I64.result_checked
      rintro ⟨-, h⟩
      omega
    rw [I64.sub, I64.result_of_inRange hsub]
    simp only [Option.bind_eq_bind, Option.bind_some, hadd, Option.bind_none]
  · rw [I64.sub, I64.result_checked hsub]
    rfl

/-- The place after the greatest integer does not fit. -/
theorem sliceIntRange_max (hworkers : 0 < numWorkers) (hle : start ≤ I64.MAX)
    (hwide : ¬ Wide start I64.MAX) :
  sliceIntRange true start I64.MAX numWorkers = none
  := by
  obtain ⟨total, workers, htotal, rfl, hpos, heq⟩ := sliceIntRange_eq true hworkers hle hwide
  have hsplit := leftSize_split total (show 0 < min numWorkers total by omega)
  rw [Wide] at hwide
  rw [I64.MAX] at hwide htotal
  have hbase : 0 < total / min numWorkers total := Nat.div_pos (by omega) (by omega)
  rw [heq]
  obtain ⟨left, hleft⟩ := Nat.exists_eq_add_one.mpr (show 0 < min numWorkers total by omega)
  rw [hleft] at hsplit hbase ⊢
  exact sliceFrom_overflows hbase (by omega) (by omega) (by omega)

/-- In a build with checks a range is cut just when it has at most `I64.MAX` elements and does not
end with the greatest integer; then it is cut as it should be. -/
theorem sliceIntRange_iff (hworkers : 0 < numWorkers) (hstart : -I64.MAX ≤ start)
    (hle : start ≤ stop) (hstop : stop ≤ I64.MAX) :
  (∃ chunks, sliceIntRange true start stop numWorkers = some chunks
      ∧ Sliced start stop numWorkers chunks)
    ↔ ¬ Wide start stop ∧ stop < I64.MAX
  := by
  constructor
  · rintro ⟨chunks, hchunks, -⟩
    have hwide : ¬ Wide start stop := by
      intro hwide
      rw [sliceIntRange_wide hworkers hle hwide] at hchunks
      cases hchunks
    refine ⟨hwide, lt_of_le_of_ne hstop ?_⟩
    rintro rfl
    rw [sliceIntRange_max hworkers hle hwide] at hchunks
    cases hchunks
  · rintro ⟨hwide, hlt⟩
    have hmin : -2 ^ 63 ≤ start := by
      rw [I64.MAX] at hstart
      omega
    exact sliceIntRange_sliced true hworkers hmin hle hstop hwide (fun _ => hlt)

/-- Ten elements for three workers. -/
example : sliceIntRange true 1 10 3 = some [(1, 4), (5, 7), (8, 10)] := by decide

theorem sliceIntRange_ten :
  ∃ chunks, sliceIntRange true 1 10 3 = some chunks ∧ Sliced 1 10 3 chunks
  := (sliceIntRange_iff (by decide) (by decide) (by decide) (by decide)).mpr
    ⟨by decide, by decide⟩

/-- The greatest integer alone is not cut: the place after it does not fit. -/
theorem not_sliced :
  ¬ ∀ (start stop : Int) (numWorkers : Nat), 0 < numWorkers → -I64.MAX ≤ start → start ≤ stop →
    stop ≤ I64.MAX → ∃ chunks, sliceIntRange true start stop numWorkers = some chunks
      ∧ Sliced start stop numWorkers chunks
  := by
  intro h
  obtain ⟨chunks, hchunks, -⟩ := h I64.MAX I64.MAX 1 (by decide) (by decide) (by decide) (by decide)
  have hnone : sliceIntRange true I64.MAX I64.MAX 1 = none := by decide
  rw [hnone] at hchunks
  cases hchunks

/-! ### Wide ranges in a build without checks -/

/-- Without checks every slice is computed. -/
theorem sliceFrom_unchecked (base remainder left i : Nat) (cursor : Int) :
  ∃ chunks, sliceFrom false base remainder left i cursor = some chunks ∧ chunks.length = left
  := by
  induction left generalizing i cursor with
  | zero => exact ⟨[], rfl, rfl⟩
  | succ left ih =>
      simp only [sliceFrom, I64.add, I64.sub, I64.result_unchecked, Option.bind_eq_bind,
        Option.bind_some]
      obtain ⟨chunks, hchunks, hlength⟩ := ih (i + 1) _
      exact ⟨_, congrArg (Option.bind · _) hchunks, by simp [hlength]⟩

/-- The number of elements of a wide range wraps around. -/
theorem sliceIntRange_unchecked (hworkers : 0 < numWorkers) (hstart : -I64.MAX ≤ start)
    (hstop : stop ≤ I64.MAX) (hwide : Wide start stop) :
  ∃ total workers : Nat, (total : Int) = stop - start + 1 + (2 ^ 128 - 2 ^ 64)
    ∧ workers = min numWorkers total
    ∧ sliceIntRange false start stop numWorkers
      = sliceFrom false (total / workers) (total - total / workers * workers) workers 0 start
  := by
  rw [I64.MAX] at hstart hstop
  rw [Wide, I64.MAX] at hwide
  have hcast : I64.cast (stop - start + 1) = stop - start + 1 - 2 ^ 64 := by
    apply I64.cast_eq 1
    · constructor <;> omega
    · omega
  have htotal : I64.cast (stop - start + 1) % 2 ^ 128 = stop - start + 1 + (2 ^ 128 - 2 ^ 64) := by
    rw [hcast]
    omega
  refine ⟨(stop - start + 1 + (2 ^ 128 - 2 ^ 64)).toNat, _, by omega, rfl, ?_⟩
  rw [sliceIntRange, if_neg (by omega), I64.sub, I64.result_unchecked]
  simp only [I64.add, I64.result_unchecked, Option.bind_eq_bind, Option.bind_some,
    I64.cast_cast_add, htotal]

/-- A wide range is cut for at least two workers when there are as many. -/
theorem two_le_length_of_wide (hworkers : 2 ≤ numWorkers) (hstart : -I64.MAX ≤ start)
    (hstop : stop ≤ I64.MAX) (hwide : Wide start stop) :
  ∃ chunks, sliceIntRange false start stop numWorkers = some chunks ∧ 2 ≤ chunks.length
    ∧ chunks.length ≤ numWorkers
  := by
  have hpos : 0 < numWorkers := by omega
  obtain ⟨total, workers, htotal, rfl, heq⟩ :=
    sliceIntRange_unchecked hpos hstart hstop hwide
  obtain ⟨chunks, hchunks, hlength⟩ := sliceFrom_unchecked (total / min numWorkers total)
    (total - total / min numWorkers total * min numWorkers total) (min numWorkers total) 0 start
  rw [I64.MAX] at hstart hstop
  rw [Wide, I64.MAX] at hwide
  exact ⟨chunks, heq.trans hchunks, by omega, by omega⟩

/-- One worker gets the whole of a wide range. -/
theorem sliceIntRange_one (hstart : -I64.MAX ≤ start) (hstop : stop ≤ I64.MAX)
    (hwide : Wide start stop) :
  sliceIntRange false start stop 1 = some [(start, stop)]
  := by
  obtain ⟨total, workers, htotal, rfl, heq⟩ :=
    sliceIntRange_unchecked Nat.one_pos hstart hstop hwide
  rw [I64.MAX] at hstart hstop
  rw [Wide, I64.MAX] at hwide
  have hone : min 1 total = 1 := by omega
  have hsize : I64.cast total = stop - start + 1 - 2 ^ 64 := by
    apply I64.cast_eq (2 ^ 64)
    · constructor <;> omega
    · omega
  have hend : I64.cast (start + I64.cast total - 1) = stop := by
    rw [hsize]
    apply I64.cast_eq (-1)
    · constructor <;> omega
    · omega
  rw [heq, hone]
  simp only [sliceFrom, I64.add, I64.sub, I64.result_unchecked, Option.bind_eq_bind,
    Option.bind_some, I64.cast_cast_sub, Nat.div_one, Nat.mul_one, Nat.sub_self, Nat.not_lt_zero,
    if_false, Nat.add_zero, hend, Option.pure_def]

end
