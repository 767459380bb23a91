import Mathlib.Data.List.Basic
import Mathlib.Data.Bool.Basic

/-!
# Multiplying and dividing intervals

The functions `multiply_interval` and `divide_interval` take an argument as an array, with a cell for
each row, or as a scalar that stands for all rows, and have a branch for each combination.  Only with
two arrays do they agree with what the rows give for all arguments: a scalar that is NULL is an error
in each other branch, and a scalar divisor of zero is an error also when no row has an interval to
divide.  The floating-point arithmetic of a row is a parameter.
-/

/-- The arithmetic of intervals `ι` and floating-point numbers `φ`. -/
structure IntervalArithmetic (ι φ : Type) where
  multiply : ι → φ → ι
  divide : ι → φ → ι
  /-- `factor == 0.0`. -/
  isZero : φ → Bool
  ofInt64 : Int → φ
  /-- The number of an unscaled value and its scale. -/
  ofDecimal128 : Int → Int → φ

section

variable (ι φ : Type)

/-- A value of one of the types the functions know, or of another one. -/
inductive ScalarValue where
  | intervalMonthDayNano (value : Option ι)
  | float64 (value : Option φ)
  | int64 (value : Option Int)
  | decimal128 (value : Option Int) (scale : Int)
  | other (text : String)

inductive ArrayValue where
  | intervalMonthDayNano (cells : List (Option ι))
  | float64 (cells : List (Option φ))
  | other (text : String)

inductive ColumnarValue where
  | scalar (value : ScalarValue ι φ)
  | array (values : ArrayValue ι φ)

/-- What tells the two functions apart: what they compute, the factors they refuse, and the texts
of their errors. -/
structure IntervalFunc where
  compute : ι → φ → ι
  refuses : φ → Bool
  refusal : String
  expectedInterval : ScalarValue ι φ → String
  expectedFactor : ScalarValue ι φ → String
  mismatchedLengths : String

end

section

variable {ι φ : Type} (arithmetic : IntervalArithmetic ι φ) (debug : ScalarValue ι φ → String)

def multiplyInterval : IntervalFunc ι φ where
  compute := arithmetic.multiply
  refuses := fun _ => false
  refusal := ""
  expectedInterval := fun s => s!"Expected interval, found {debug s}"
  expectedFactor := fun f => s!"Expected numeric factor, found {debug f}"
  mismatchedLengths := "Mismatched array lengths in multiply_interval"

def divideInterval : IntervalFunc ι φ where
  compute := arithmetic.divide
  refuses := arithmetic.isZero
  refusal := "Division by zero in divide_interval"
  expectedInterval := fun _ => "Expected interval"
  expectedFactor := fun _ => "Expected numeric factor"
  mismatchedLengths := "Mismatched array lengths in divide_interval"

/-- The interval of a scalar. -/
def ScalarValue.interval (message : String) : ScalarValue ι φ → Except String ι
  | .intervalMonthDayNano (some v) => .ok v
  | _ => .error message

/-- The factor of a scalar. -/
def ScalarValue.factor (message : String) : ScalarValue ι φ → Except String φ
  | .float64 (some v) => .ok v
  | .int64 (some v) => .ok (arithmetic.ofInt64 v)
  | .decimal128 (some v) scale => .ok (arithmetic.ofDecimal128 v scale)
  | _ => .error message

def ArrayValue.intervals : ArrayValue ι φ → Except String (List (Option ι))
  | .intervalMonthDayNano cells => .ok cells
  | _ => .error "Expected IntervalMonthDayNanoArray"

def ArrayValue.floats : ArrayValue ι φ → Except String (List (Option φ))
  | .float64 cells => .ok cells
  | _ => .error "Expected Float64Array"

namespace IntervalFunc

variable (func : IntervalFunc ι φ)

/-- Refuse a factor. -/
def check (factor : φ) : Except String Unit :=
  if func.refuses factor then .error func.refusal else .ok ()

/-- The cell of a row with an interval and a factor, either of which may be NULL. -/
def computeRow : Option ι × Option φ → Except String (Option ι)
  | (some interval, some factor) => do
    func.check factor
    return some (func.compute interval factor)
  | _ => .ok none

def invokeWithArgs : ColumnarValue ι φ → ColumnarValue ι φ →
    Except String (ColumnarValue ι φ)
  | .scalar s, .scalar f => do
    let interval ← s.interval (func.expectedInterval s)
    let factor ← f.factor arithmetic (func.expectedFactor f)
    func.check factor
    return .scalar (.intervalMonthDayNano (some (func.compute interval factor)))
  | .array s, .array f => do
    let s ← s.intervals
    let f ← f.floats
    if s.length ≠ f.length then
      throw func.mismatchedLengths
    let results ← (s.zip f).mapM func.computeRow
    return .array (.intervalMonthDayNano results)
  | .array s, .scalar f => do
    let s ← s.intervals
    let factor ← f.factor arithmetic "Expected numeric factor"
    func.check factor
    return .array (.intervalMonthDayNano
      (s.map (fun cell => cell.map (fun interval => func.compute interval factor))))
  | .scalar s, .array f => do
    let interval ← s.interval "Expected interval"
    let f ← f.floats
    let results ← (f.map (some interval, ·)).mapM func.computeRow
    return .array (.intervalMonthDayNano results)

end IntervalFunc

end

/-! ### Rows -/

/-- A column as an argument: an array of its cells, or the scalar all of them are equal to. -/
inductive ColumnShape (α : Type) where
  | array (cells : List (Option α))
  | scalar (cell : Option α)

namespace ColumnShape

variable {α : Type}

/-- The cells of a column with a number of rows. -/
def cells (rows : Nat) : ColumnShape α → List (Option α)
  | array cells => cells
  | scalar cell => List.replicate rows cell

/-- The column has a number of rows. -/
def HasRows (rows : Nat) (column : ColumnShape α) : Prop := (column.cells rows).length = rows

end ColumnShape

section

variable {ι φ : Type}

/-- A column of intervals as an argument. -/
def ColumnShape.intervals : ColumnShape ι → ColumnarValue ι φ
  | array cells => .array (.intervalMonthDayNano cells)
  | scalar cell => .scalar (.intervalMonthDayNano cell)

/-- A column of factors as an argument. -/
def ColumnShape.factors : ColumnShape φ → ColumnarValue ι φ
  | array cells => .array (.float64 cells)
  | scalar cell => .scalar (.float64 cell)

/-- The cells of a result with a number of rows, when it is of intervals. -/
def ColumnarValue.intervalCells (rows : Nat) : ColumnarValue ι φ → Option (List (Option ι))
  | .array (.intervalMonthDayNano cells) => some cells
  | .scalar (.intervalMonthDayNano cell) => some (List.replicate rows cell)
  | _ => none

variable (arithmetic : IntervalArithmetic ι φ) (func : IntervalFunc ι φ) (rows : Nat)
  (intervals : ColumnShape ι) (factors : ColumnShape φ)

/-- Some row has an interval and a factor that is refused. -/
def HasRefusedRow : Prop :=
  ∃ interval factor,
    (some interval, some factor) ∈ (intervals.cells rows).zip (factors.cells rows)
      ∧ func.refuses factor = true

/-- The function fails exactly when some row has an interval and a factor that is refused, and else
gives the cell of each row: NULL when one of its arguments is. -/
def AgreesWithRows : Prop :=
  match func.invokeWithArgs arithmetic intervals.intervals factors.factors with
  | .error _ => HasRefusedRow func rows intervals factors
  | .ok value =>
    ¬ HasRefusedRow func rows intervals factors
      ∧ value.intervalCells rows = some (List.zipWith
          (fun interval factor => interval.bind (fun interval => factor.map (func.compute interval)))
          (intervals.cells rows) (factors.cells rows))

/-- No argument is a scalar NULL, and a scalar factor is refused only for the interval of a row. -/
structure ShapeSafe : Prop where
  interval : intervals ≠ .scalar none
  factor : factors ≠ .scalar none
  refused : ∀ factor, factors = .scalar (some factor) → func.refuses factor = true →
    ∃ interval, some interval ∈ intervals.cells rows

end

/-! ### The branches -/

section

variable {ι φ : Type} (func : IntervalFunc ι φ)

/-- A row has an interval and a factor that is refused. -/
def refusedRow : Option ι × Option φ → Bool
  | (some _, some factor) => func.refuses factor
  | _ => false

/-- The cell of a row that is not refused. -/
def rowValue (row : Option ι × Option φ) : Option ι :=
  row.1.bind (fun interval => row.2.map (func.compute interval))

theorem computeRow_eq (row : Option ι × Option φ) :
  func.computeRow row
    = if refusedRow func row then .error func.refusal else .ok (rowValue func row)
  := by
  obtain ⟨interval, factor⟩ := row
  cases interval with
  | none => rfl
  | some interval =>
      cases factor with
      | none => rfl
      | some factor =>
          rw [IntervalFunc.computeRow, IntervalFunc.check, refusedRow]
          split
          · rfl
          · rfl

/-- What the rows give, when none is refused. -/
theorem mapM_computeRow (cells : List (Option ι × Option φ)) :
  cells.mapM func.computeRow
    = if cells.any (refusedRow func) then .error func.refusal
      else .ok (cells.map (rowValue func))
  := by
  induction cells with
  | nil => rfl
  | cons row cells ih =>
      rw [List.mapM_cons, computeRow_eq, ih, List.any_cons]
      cases refusedRow func row with
      | true => rfl
      | false =>
          cases cells.any (refusedRow func) with
          | true => rfl
          | false => rfl

variable {func} {arithmetic : IntervalArithmetic ι φ} {rows : Nat} {intervals : ColumnShape ι}
  {factors : ColumnShape φ}

theorem hasRefusedRow_iff :
  HasRefusedRow func rows intervals factors
    ↔ ((intervals.cells rows).zip (factors.cells rows)).any (refusedRow func) = true
  := by
  rw [HasRefusedRow, List.any_eq_true]
  constructor
  · rintro ⟨interval, factor, hmem, hrefused⟩
    exact ⟨_, hmem, hrefused⟩
  · rintro ⟨⟨interval, factor⟩, hmem, hrefused⟩
    cases interval with
    | none => cases hrefused
    | some interval =>
        cases factor with
        | none => cases hrefused
        | some factor => exact ⟨interval, factor, hmem, hrefused⟩

/-- A function that gives what the rows give agrees with them. -/
theorem agreesWithRows_of_mapM (value : List (Option ι) → ColumnarValue ι φ)
    (hvalue : ∀ cells, ((intervals.cells rows).zip (factors.cells rows)).mapM func.computeRow
      = .ok cells → (value cells).intervalCells rows = some cells)
    (h : func.invokeWithArgs arithmetic intervals.intervals factors.factors
      = (((intervals.cells rows).zip (factors.cells rows)).mapM func.computeRow).map value) :
  AgreesWithRows arithmetic func rows intervals factors
  := by
  rw [AgreesWithRows, h]
  rw [mapM_computeRow] at hvalue ⊢
  split
  · rename_i heq
    split at heq
    · rename_i hany
      exact hasRefusedRow_iff.mpr hany
    · cases heq
  · rename_i heq
    split at heq
    · cases heq
    · rename_i hany
      cases heq
      refine ⟨fun hrefused => hany (hasRefusedRow_iff.mp hrefused), ?_⟩
      rw [hvalue _ (if_neg hany), List.zip, List.map_zipWith]
      rfl

/-- An error agrees with the rows when one of them is refused. -/
theorem agreesWithRows_error {message : String}
    (h : func.invokeWithArgs arithmetic intervals.intervals factors.factors = .error message) :
  AgreesWithRows arithmetic func rows intervals factors
    ↔ HasRefusedRow func rows intervals factors
  := by
  rw [AgreesWithRows, h]

/-- Without a factor no row is refused. -/
theorem not_hasRefusedRow_factor (intervals : ColumnShape ι) :
  ¬ HasRefusedRow func rows intervals (.scalar none)
  := by
  rintro ⟨interval, factor, hmem, -⟩
  have hfactor := (List.of_mem_zip hmem).2
  rw [ColumnShape.cells, List.mem_replicate] at hfactor
  cases hfactor.2

theorem not_hasRefusedRow_interval (factors : ColumnShape φ) :
  ¬ HasRefusedRow func rows (.scalar none) factors
  := by
  rintro ⟨interval, factor, hmem, -⟩
  have hinterval := (List.of_mem_zip hmem).1
  rw [ColumnShape.cells, List.mem_replicate] at hinterval
  cases hinterval.2

/-- The rows of a column beside those of a scalar. -/
theorem zip_replicate_right {α β : Type} (cells : List α) (cell : β) :
  cells.zip (List.replicate cells.length cell) = cells.map (fun other => (other, cell))
  := by
  rw [← List.map_const', ← List.map_prod_left_eq_zip]

theorem zip_replicate_left {α β : Type} (cells : List β) (cell : α) :
  (List.replicate cells.length cell).zip cells = cells.map (fun other => (cell, other))
  := by
  rw [← List.map_const', ← List.map_prod_right_eq_zip]

theorem cells_zip_scalar (hrows : intervals.HasRows rows) (factor : Option φ) :
  (intervals.cells rows).zip ((ColumnShape.scalar factor).cells rows)
    = (intervals.cells rows).map (fun cell => (cell, factor))
  := by
  have hlength : (intervals.cells rows).length = rows := hrows
  have hzip := zip_replicate_right (intervals.cells rows) factor
  rw [hlength] at hzip
  exact hzip

/-- With a scalar factor a row is refused when the factor is and the row has an interval. -/
theorem hasRefusedRow_scalar_iff (hrows : intervals.HasRows rows) (factor : φ) :
  HasRefusedRow func rows intervals (.scalar (some factor))
    ↔ func.refuses factor = true ∧ ∃ interval, some interval ∈ intervals.cells rows
  := by
  rw [HasRefusedRow, cells_zip_scalar hrows]
  constructor
  · rintro ⟨interval, other, hmem, hrefused⟩
    obtain ⟨cell, hcell, hpair⟩ := List.mem_map.mp hmem
    cases hpair
    exact ⟨hrefused, interval, hcell⟩
  · rintro ⟨hrefused, interval, hinterval⟩
    exact ⟨interval, factor, List.mem_map_of_mem hinterval, hrefused⟩

/-- With a scalar factor that is not refused, each row is computed. -/
theorem mapM_computeRow_scalar {factor : φ} (hrefused : func.refuses factor = false)
    (cells : List (Option ι)) :
  (cells.map (fun cell => (cell, some factor))).mapM func.computeRow
    = .ok (cells.map (fun cell => cell.map (fun interval => func.compute interval factor)))
  := by
  rw [mapM_computeRow, if_neg, List.map_map]
  · congr 2
    funext cell
    cases cell with
    | none => rfl
    | some interval => rfl
  · rw [List.any_map, List.any_eq_true]
    rintro ⟨cell, -, hcell⟩
    cases cell with
    | none => cases hcell
    | some interval =>
        rw [Function.comp_apply, refusedRow, hrefused] at hcell
        cases hcell

/-- An array of factors is taken row by row. -/
theorem agreesWithRows_array_iff {factorCells : List (Option φ)}
    (hintervals : intervals.HasRows rows)
    (hfactors : (ColumnShape.array factorCells).HasRows rows) :
  AgreesWithRows arithmetic func rows intervals (.array factorCells) ↔ intervals ≠ .scalar none
  := by
  have hlength : factorCells.length = rows := hfactors
  cases intervals with
  | array intervalCells =>
      refine iff_of_true ?_ (by rintro ⟨⟩)
      apply agreesWithRows_of_mapM (fun cells => .array (.intervalMonthDayNano cells))
        (fun _ _ => rfl)
      have hsame : ¬ intervalCells.length ≠ factorCells.length :=
        fun h => h (Eq.trans hintervals hlength.symm)
      change (if intervalCells.length ≠ factorCells.length then _ else _) = _
      rw [if_neg hsame]
      rfl
  | scalar cell =>
      cases cell with
      | none =>
          refine iff_of_false ?_ (fun h => h rfl)
          rw [agreesWithRows_error rfl]
          exact not_hasRefusedRow_interval _
      | some interval =>
          refine iff_of_true ?_ (by rintro ⟨⟩)
          apply agreesWithRows_of_mapM (fun cells => .array (.intervalMonthDayNano cells))
            (fun _ _ => rfl)
          rw [ColumnShape.cells, ColumnShape.cells, ← hlength, zip_replicate_left]
          rfl

/-- A scalar factor is refused, or each row is computed with it. -/
theorem agreesWithRows_scalar_iff {factor : φ} (hintervals : intervals.HasRows rows) :
  AgreesWithRows arithmetic func rows intervals (.scalar (some factor))
    ↔ intervals ≠ .scalar none
      ∧ (func.refuses factor = true → ∃ interval, some interval ∈ intervals.cells rows)
  := by
  by_cases hnull : intervals = .scalar none
  · subst hnull
    refine iff_of_false ?_ (fun h => h.1 rfl)
    rw [agreesWithRows_error rfl]
    exact not_hasRefusedRow_interval _
  · by_cases hrefused : func.refuses factor = true
    · -- the factor is refused before the rows are looked at
      have hcheck : func.check factor = .error func.refusal := by
        rw [IntervalFunc.check, if_pos hrefused]
      have herror : func.invokeWithArgs arithmetic intervals.intervals
          (ColumnShape.scalar (some factor)).factors = .error func.refusal := by
        cases intervals with
        | array cells =>
            change (func.check factor >>= fun _ => _) = _
            rw [hcheck]
            rfl
        | scalar cell =>
            cases cell with
            | none => exact absurd rfl hnull
            | some interval =>
                change (func.check factor >>= fun _ => _) = _
                rw [hcheck]
                rfl
      rw [agreesWithRows_error herror, hasRefusedRow_scalar_iff hintervals]
      exact ⟨fun h => ⟨hnull, fun _ => h.2⟩, fun h => ⟨hrefused, h.2 hrefused⟩⟩
    · refine iff_of_true ?_ ⟨hnull, fun h => absurd h hrefused⟩
      have hcheck : func.check factor = .ok () := by
        rw [IntervalFunc.check, if_neg hrefused]
      have hrows := mapM_computeRow_scalar (Bool.eq_false_iff.mpr hrefused) (intervals.cells rows)
      rw [← cells_zip_scalar hintervals] at hrows
      cases intervals with
      | array cells =>
          apply agreesWithRows_of_mapM (fun cells => .array (.intervalMonthDayNano cells))
            (fun _ _ => rfl)
          rw [hrows]
          change (func.check factor >>= fun _ => _) = _
          rw [hcheck]
          rfl
      | scalar cell =>
          cases cell with
          | none => exact absurd rfl hnull
          | some interval =>
              apply agreesWithRows_of_mapM (fun _ =>
                .scalar (.intervalMonthDayNano (some (func.compute interval factor))))
              · intro cells hcells
                rw [hrows] at hcells
                cases hcells
                rw [ColumnarValue.intervalCells, ColumnShape.cells, List.map_replicate]
                rfl
              · rw [hrows]
                change (func.check factor >>= fun _ => _) = _
                rw [hcheck]
                rfl

/-- A function agrees with the rows exactly when no scalar is NULL and a scalar factor is not refused
without an interval. -/
theorem agreesWithRows_iff (hintervals : intervals.HasRows rows) (hfactors : factors.HasRows rows) :
  AgreesWithRows arithmetic func rows intervals factors
    ↔ ShapeSafe func rows intervals factors
  := by
  cases factors with
  | array factorCells =>
      rw [agreesWithRows_array_iff hintervals hfactors]
      refine ⟨fun h => ⟨h, by rintro ⟨⟩, ?_⟩, fun h => h.interval⟩
      rintro factor ⟨⟩
  | scalar cell =>
      cases cell with
      | none =>
          refine iff_of_false ?_ (fun h => h.factor rfl)
          have herror : ∃ message, func.invokeWithArgs arithmetic intervals.intervals
              (ColumnShape.scalar none).factors = .error message := by
            cases intervals with
            | array cells => exact ⟨_, rfl⟩
            | scalar cell =>
                cases cell with
                | none => exact ⟨_, rfl⟩
                | some interval => exact ⟨_, rfl⟩
          obtain ⟨message, herror⟩ := herror
          rw [agreesWithRows_error herror]
          exact not_hasRefusedRow_factor _
      | some factor =>
          rw [agreesWithRows_scalar_iff hintervals]
          constructor
          · rintro ⟨hinterval, hrefused⟩
            refine ⟨hinterval, by rintro ⟨⟩, ?_⟩
            rintro other ⟨⟩
            exact hrefused
          · intro h
            exact ⟨h.interval, h.refused factor rfl⟩

/-- For columns with the same number of rows, as arrays or as scalars, the product agrees with what
the rows give exactly when no scalar is NULL, and the quotient when besides a scalar divisor of zero
comes with an interval in some row. -/
theorem intervalFunctions_agree_iff (arithmetic : IntervalArithmetic ι φ)
    (debug : ScalarValue ι φ → String) {rows : Nat} {intervals : ColumnShape ι}
    {factors : ColumnShape φ} (hintervals : intervals.HasRows rows)
    (hfactors : factors.HasRows rows) :
  (AgreesWithRows arithmetic (multiplyInterval arithmetic debug) rows intervals factors
      ↔ intervals ≠ .scalar none ∧ factors ≠ .scalar none)
    ∧ (AgreesWithRows arithmetic (divideInterval arithmetic) rows intervals factors
      ↔ ShapeSafe (divideInterval arithmetic) rows intervals factors)
  := by
  refine ⟨?_, agreesWithRows_iff hintervals hfactors⟩
  rw [agreesWithRows_iff hintervals hfactors]
  refine ⟨fun h => ⟨h.interval, h.factor⟩, fun h => ⟨h.1, h.2, ?_⟩⟩
  rintro factor - ⟨⟩

end

/-- Intervals that are numbers. -/
def sampleArithmetic : IntervalArithmetic Int Int where
  multiply := (· * ·)
  divide := (· / ·)
  isZero := (· = 0)
  ofInt64 := id
  ofDecimal128 := fun value _ => value

theorem intervalFunctions_agree_sample :
  AgreesWithRows sampleArithmetic (divideInterval sampleArithmetic) 2
    (.array [some 6, none]) (.scalar (some 0))
  := by
  have hintervals : (ColumnShape.array [some (6 : Int), none]).HasRows 2 := rfl
  have hfactors : (ColumnShape.scalar (some (0 : Int))).HasRows 2 := rfl
  refine (intervalFunctions_agree_iff sampleArithmetic (fun _ => "") hintervals hfactors).2.mpr
    ⟨by rintro ⟨⟩, by rintro ⟨⟩, ?_⟩
  intro factor _ _
  exact ⟨6, by simp [ColumnShape.cells]⟩

/-- A NULL interval times a factor is NULL for arrays and an error for scalars, and a NULL interval
divided by zero is NULL for arrays and an error for a scalar divisor. -/
theorem intervalFunctions_differ :
  (multiplyInterval sampleArithmetic (fun _ => "")).invokeWithArgs sampleArithmetic
      (ColumnShape.array [none]).intervals (ColumnShape.array [some 2]).factors
      = .ok (.array (.intervalMonthDayNano [none]))
    ∧ ¬ AgreesWithRows sampleArithmetic (multiplyInterval sampleArithmetic (fun _ => "")) 1
      (.scalar none) (.scalar (some 2))
    ∧ (divideInterval sampleArithmetic).invokeWithArgs sampleArithmetic
      (ColumnShape.array [none]).intervals (ColumnShape.array [some 0]).factors
      = .ok (.array (.intervalMonthDayNano [none]))
    ∧ ¬ AgreesWithRows sampleArithmetic (divideInterval sampleArithmetic) 1
      (.array [none]) (.scalar (some 0))
  := by
  refine ⟨rfl, ?_, rfl, ?_⟩
  · rw [agreesWithRows_error rfl]
    exact not_hasRefusedRow_interval _
  · have hintervals : (ColumnShape.array [(none : Option Int)]).HasRows 1 := rfl
    rw [agreesWithRows_error rfl, hasRefusedRow_scalar_iff hintervals]
    rintro ⟨-, interval, hinterval⟩
    simp [ColumnShape.cells] at hinterval
