import AnalyticsDB.Catalog.State
import AnalyticsDB.Engine.IndexLiterals
import AnalyticsDB.Lib.Elementwise
import Mathlib.Data.List.MinMax
import Mathlib.Data.List.Pairwise

/-!
# Index predicates

A select whose WHERE clause compares columns with literals is answered from an index.  The clause
is turned into one predicate for each column: a text the column is equal to, some texts one of which
it is, or a range between two texts.
-/

namespace IndexedSelect

/-! ### The predicates of a WHERE clause -/

/-- The predicate of a column, of what is kept of the literals. -/
inductive IndexPredicate (τ : Type) where
  | eq (value : τ)
  | inList (values : List τ)
  | range (lower upper : Option (τ × Bool))

def indexPredicateColumn : Expr → Option String
  | .identifier display => some display
  | .compoundIdentifier parts => parts.getLast?
  | _ => none

section

variable {τ : Type} (literal : Expr → Option τ)

def storeEqPredicate (predicates : KeyMap (IndexPredicate τ)) (columnExpr valueExpr : Expr) :
    Option (KeyMap (IndexPredicate τ)) := do
  let column ← indexPredicateColumn columnExpr
  let value ← literal valueExpr
  if predicates.contains column then none
  else some (predicates.insert column (.eq value))

def storeInPredicate (predicates : KeyMap (IndexPredicate τ)) (expr : Expr) (list : List Expr) :
    Option (KeyMap (IndexPredicate τ)) := do
  let column ← indexPredicateColumn expr
  if predicates.contains column then none
  else do
    let values ← list.mapM literal
    some (predicates.insert column (.inList values))

/-- The bounds that a comparison with a value sets. -/
def rangeBounds (operator : BinaryOperator) (columnOnLeft : Bool) (value : τ) :
    Option (Option (τ × Bool) × Option (τ × Bool)) :=
  match operator, columnOnLeft with
  | .gt, true | .lt, false => some (some (value, false), none)
  | .gtEq, true | .ltEq, false => some (some (value, true), none)
  | .lt, true | .gt, false => some (none, some (value, false))
  | .ltEq, true | .gtEq, false => some (none, some (value, true))
  | _, _ => none

/-- A bound beside one there may be already; there are no two. -/
def mergeBound (existing bound : Option (τ × Bool)) : Option (Option (τ × Bool)) :=
  match existing, bound with
  | existing, none => some existing
  | none, some bound => some (some bound)
  | some _, some _ => none

def storeRangeBinaryPredicate (predicates : KeyMap (IndexPredicate τ)) (columnExpr : Expr)
    (operator : BinaryOperator) (valueExpr : Expr) (columnOnLeft : Bool) :
    Option (KeyMap (IndexPredicate τ)) := do
  let column ← indexPredicateColumn columnExpr
  let value ← literal valueExpr
  let (lower, upper) ← rangeBounds operator columnOnLeft value
  match predicates[column]? with
  | none => some (predicates.insert column (.range lower upper))
  | some (.range existingLower existingUpper) => do
    let newLower ← mergeBound existingLower lower
    let newUpper ← mergeBound existingUpper upper
    some (predicates.insert column (.range newLower newUpper))
  | some _ => none

/-- The predicates of an expression beside those there are; none when the expression is not one of
comparisons with literals. -/
def extractIndexPredicates :
    Expr → KeyMap (IndexPredicate τ) → Option (KeyMap (IndexPredicate τ))
  | .binaryOp left .and right, predicates =>
    (extractIndexPredicates left predicates).bind (extractIndexPredicates right)
  | .binaryOp left .eq right, predicates =>
    (storeEqPredicate literal predicates left right).or
      (storeEqPredicate literal predicates right left)
  | .binaryOp _ .other _, _ => none
  | .binaryOp left op right, predicates =>
    (storeRangeBinaryPredicate literal predicates left op right true).or
      (storeRangeBinaryPredicate literal predicates right op left false)
  | .inList expr list false, predicates => storeInPredicate literal predicates expr list
  | .nested inner, predicates => extractIndexPredicates inner predicates
  | _, _ => none

end

/-! ### What a WHERE clause and its predicates mean -/

inductive Comparison where
  | eq | gt | gtEq | lt | ltEq
  deriving DecidableEq

/-- The comparison with the sides exchanged. -/
def Comparison.flip : Comparison → Comparison
  | .eq => .eq
  | .gt => .lt
  | .gtEq => .ltEq
  | .lt => .gt
  | .ltEq => .gtEq

def BinaryOperator.comparison : BinaryOperator → Option Comparison
  | .eq => some .eq
  | .gt => some .gt
  | .gtEq => some .gtEq
  | .lt => some .lt
  | .ltEq => some .ltEq
  | .and | .other => none

/-- How cells compare with values; none is unknown.  Nothing is known of a comparison with NULL. -/
structure Comparisons (Cell : Type) where
  compare : Comparison → Cell → LiteralValue → Option Bool
  compare_null : ∀ op cell, compare op cell .null = none

/-- A comparison of a column with literals: one of them compares. -/
structure Atom where
  column : String
  op : Comparison
  literals : List Expr

/-- The comparison that an operator makes of two sides, if one is a column and the other one a
literal. -/
def comparisonAtom (left : Expr) (op : BinaryOperator) (right : Expr) : Option Atom := do
  let op ← op.comparison
  match indexPredicateColumn left, literalIndexValue right with
  | some column, some _ => some ⟨column, op, [right]⟩
  | _, _ =>
    match indexPredicateColumn right, literalIndexValue left with
    | some column, some _ => some ⟨column, op.flip, [left]⟩
    | _, _ => none

/-- Three-valued conjunction. -/
def and3 : Option Bool → Option Bool → Option Bool
  | some true, b => b
  | some false, _ => some false
  | none, some false => some false
  | none, _ => none

/-- Three-valued disjunction. -/
def or3 : List (Option Bool) → Option Bool
  | [] => some false
  | some true :: _ => some true
  | some false :: rest => or3 rest
  | none :: rest => if or3 rest = some true then some true else none

section

variable {Cell : Type} (S : Comparisons Cell) (row : String → Cell)

/-- The truth of a comparison. -/
def Atom.truth (atom : Atom) : Option Bool :=
  or3 (atom.literals.map (fun literal =>
    S.compare atom.op (row atom.column) (literalValue literal)))

/-- The truth of an expression in a row; other expressions may have any. -/
def evaluate (others : Expr → Option Bool) : Expr → Option Bool
  | .binaryOp left .and right => and3 (evaluate others left) (evaluate others right)
  | .binaryOp left op right =>
    match comparisonAtom left op right with
    | some atom => atom.truth S row
    | none => others (.binaryOp left op right)
  | .inList expr list false =>
    match indexPredicateColumn expr, list.all (fun item => (literalIndexValue item).isSome) with
    | some column, true => Atom.truth S row ⟨column, .eq, list⟩
    | _, _ => others (.inList expr list false)
  | .nested inner => evaluate others inner
  | expr => others expr

/-- What is kept of a literal beside the literal. -/
def withText (literal : Expr) : Option (Expr × String) :=
  (literalIndexValue literal).map (literal, ·)

/-- The texts of literals are read back, and one of the values compares. -/
def KeptHolds (op : Comparison) (cell : Cell) (kept : List (Expr × String)) : Prop :=
  (∀ k ∈ kept, ∃ value, readBack k.1 k.2 = some value)
    ∧ ∃ k ∈ kept, ∃ value, readBack k.1 k.2 = some value ∧ S.compare op cell value = some true

def IndexPredicate.Satisfied (cell : Cell) : IndexPredicate (Expr × String) → Prop
  | .eq kept => KeptHolds S .eq cell [kept]
  | .inList kept => KeptHolds S .eq cell kept
  | .range lower upper =>
    (∀ kept inclusive, lower = some (kept, inclusive) →
        KeptHolds S (if inclusive then .gtEq else .gt) cell [kept])
      ∧ ∀ kept inclusive, upper = some (kept, inclusive) →
        KeptHolds S (if inclusive then .ltEq else .lt) cell [kept]

/-- A row satisfies the predicates of its columns. -/
def SatisfiesAll (predicates : KeyMap (IndexPredicate (Expr × String))) : Prop :=
  ∀ (column : String) (predicate : IndexPredicate (Expr × String)),
    predicates[column]? = some predicate → predicate.Satisfied S (row column)

end

/-- The texts of a predicate. -/
def IndexPredicate.texts : IndexPredicate (Expr × String) → IndexPredicate String
  | .eq kept => .eq kept.2
  | .inList kept => .inList (kept.map (·.2))
  | .range lower upper =>
    .range (lower.map (fun (kept, inclusive) => (kept.2, inclusive)))
      (upper.map (fun (kept, inclusive) => (kept.2, inclusive)))

/-- The predicates keep the meaning of an expression: whatever cells and values compare as, a row
satisfies the expression just when it satisfies the predicates, with each text read back as the
literal it came from. -/
def Preserves (expr : Expr) (predicates : KeyMap (IndexPredicate String)) : Prop :=
  ∃ kept, extractIndexPredicates withText expr ∅ = some kept
    ∧ (∀ column : String, predicates[column]? = kept[column]?.map IndexPredicate.texts)
    ∧ ∀ (Cell : Type) (S : Comparisons Cell) (row : String → Cell) (others : Expr → Option Bool),
      evaluate S row others expr = some true ↔ SatisfiesAll S row kept

/-- The comparisons of an expression. -/
def atoms : Expr → List Atom
  | .binaryOp left .and right => atoms left ++ atoms right
  | .binaryOp left op right => (comparisonAtom left op right).toList
  | .inList expr list false => (indexPredicateColumn expr).toList.map (⟨·, .eq, list⟩)
  | .nested inner => atoms inner
  | _ => []

/-! ### Storing a comparison -/

/-- The places of the bounds of a column; a value takes all of them. -/
inductive Slot where
  | point | lower | upper
  deriving DecidableEq

def Comparison.slot : Comparison → Slot
  | .eq => .point
  | .gt | .gtEq => .lower
  | .lt | .ltEq => .upper

def Atom.slot (atom : Atom) : String × Slot := (atom.column, atom.op.slot)

def IndexPredicate.takes {τ : Type} (slot : Slot) : IndexPredicate τ → Bool
  | .eq _ | .inList _ => true
  | .range lower upper =>
    match slot with
    | .point => true
    | .lower => lower.isSome
    | .upper => upper.isSome

/-- A place is taken. -/
def Taken (predicates : KeyMap (IndexPredicate (Expr × String))) (slot : String × Slot) : Prop :=
  ∃ predicate, predicates[slot.1]? = some predicate ∧ predicate.takes slot.2 = true

/-- The texts of the literals of a comparison are read back, and one of the values compares. -/
def Atom.KeptHolds {Cell : Type} (S : Comparisons Cell) (row : String → Cell) (atom : Atom) : Prop :=
  ∃ kept, atom.literals.mapM withText = some kept
    ∧ IndexedSelect.KeptHolds S atom.op (row atom.column) kept

/-- Comparisons are stored beside the predicates there are, each in a place of its own. -/
structure Stored (before : KeyMap (IndexPredicate (Expr × String))) (stored : List Atom)
    (after : KeyMap (IndexPredicate (Expr × String))) : Prop where
  satisfies : ∀ (Cell : Type) (S : Comparisons Cell) (row : String → Cell),
    SatisfiesAll S row after
      ↔ SatisfiesAll S row before ∧ ∀ atom ∈ stored, atom.KeptHolds S row
  free : ∀ atom ∈ stored, ¬ Taken before atom.slot
  taken : ∀ slot, Taken before slot ∨ (∃ atom ∈ stored, atom.slot = slot) → Taken after slot
  distinct : stored.Pairwise (fun a b => a.slot ≠ b.slot)
  literals : ∀ atom ∈ stored, ∀ literal ∈ atom.literals, (literalIndexValue literal).isSome

section

variable {before after : KeyMap (IndexPredicate (Expr × String))}

theorem not_taken_of_none {slot : String × Slot} (h : before[slot.1]? = none) :
  ¬ Taken before slot
  := by
  rintro ⟨predicate, hget, -⟩
  rw [h] at hget
  cases hget

/-- A predicate is stored in the place of the one of its column, if there was one, which holds
wherever the new one does. -/
theorem satisfiesAll_insert {Cell : Type} (S : Comparisons Cell) (row : String → Cell)
    {column : String} {predicate : IndexPredicate (Expr × String)}
    (h : predicate.Satisfied S (row column) →
      ∀ old, before[column]? = some old → old.Satisfied S (row column)) :
  SatisfiesAll S row (before.insert column predicate)
    ↔ SatisfiesAll S row before ∧ predicate.Satisfied S (row column)
  := by
  constructor
  · intro hall
    have hnew : predicate.Satisfied S (row column) := by
      apply hall
      rw [KeyMap.get_insert, if_pos rfl]
    refine ⟨?_, hnew⟩
    intro other old hold
    by_cases hother : column = other
    · subst hother
      exact h hnew old hold
    · apply hall
      rw [KeyMap.get_insert, if_neg hother, hold]
  · rintro ⟨hbefore, hnew⟩ other stored hstored
    rw [KeyMap.get_insert] at hstored
    split at hstored
    · rename_i hother
      subst hother
      cases hstored
      exact hnew
    · exact hbefore other stored hstored

/-- A comparison is stored by a predicate that holds when the one before and the comparison do. -/
theorem stored_insert (atom : Atom) {predicate : IndexPredicate (Expr × String)}
    (hsatisfied : ∀ (Cell : Type) (S : Comparisons Cell) (row : String → Cell),
      predicate.Satisfied S (row atom.column)
        ↔ (∀ old, before[atom.column]? = some old → old.Satisfied S (row atom.column))
          ∧ atom.KeptHolds S row)
    (hfree : ∀ old, before[atom.column]? = some old → old.takes atom.op.slot = false)
    (htaken : ∀ old slot, before[atom.column]? = some old → old.takes slot = true →
      predicate.takes slot = true)
    (hslot : predicate.takes atom.op.slot = true)
    (hliterals : ∀ literal ∈ atom.literals, (literalIndexValue literal).isSome) :
  Stored before [atom] (before.insert atom.column predicate)
  := by
  refine ⟨?_, ?_, ?_, List.pairwise_singleton _ _, ?_⟩
  · intro Cell S row
    have hold := fun h => ((hsatisfied Cell S row).mp h).1
    rw [satisfiesAll_insert S row hold, hsatisfied, List.forall_mem_singleton]
    constructor
    · rintro ⟨hbefore, -, hatom⟩
      exact ⟨hbefore, hatom⟩
    · rintro ⟨hbefore, hatom⟩
      exact ⟨hbefore, fun old hget => hbefore _ old hget, hatom⟩
  · rw [List.forall_mem_singleton]
    rintro ⟨old, hget, htakes⟩
    rw [Atom.slot, hfree old hget] at htakes
    cases htakes
  · rintro ⟨column, slot⟩ (⟨old, hget, htakes⟩ | ⟨stored, hstored, hslots⟩)
    · by_cases hcolumn : atom.column = column
      · subst hcolumn
        refine ⟨predicate, ?_, htaken old slot hget htakes⟩
        rw [KeyMap.get_insert, if_pos rfl]
      · refine ⟨old, ?_, htakes⟩
        rw [KeyMap.get_insert, if_neg hcolumn]
        exact hget
    · rw [List.mem_singleton] at hstored
      subst hstored
      cases hslots
      refine ⟨predicate, ?_, hslot⟩
      rw [KeyMap.get_insert, if_pos rfl]
  · rw [List.forall_mem_singleton]
    exact hliterals

theorem withText_eq_some {literal : Expr} {kept : Expr × String} :
  withText literal = some kept
    ↔ kept.1 = literal ∧ literalIndexValue literal = some kept.2
  := by
  obtain ⟨expr, text⟩ := kept
  rw [withText, Option.map_eq_some_iff]
  simp only [Prod.mk.injEq]
  grind

theorem withText_eq_none {literal : Expr} :
  withText literal = none ↔ literalIndexValue literal = none
  := Option.map_eq_none_iff

theorem isSome_of_withText {literal : Expr} {kept : Expr × String}
    (h : withText literal = some kept) :
  (literalIndexValue literal).isSome
  := by
  rw [(withText_eq_some.mp h).2]
  rfl

/-- A comparison with one literal. -/
theorem keptHolds_singleton {Cell : Type} (S : Comparisons Cell) (row : String → Cell)
    (column : String) (op : Comparison) {literal : Expr} {kept : Expr × String}
    (h : withText literal = some kept) :
  Atom.KeptHolds S row ⟨column, op, [literal]⟩ ↔ KeptHolds S op (row column) [kept]
  := by
  simp [Atom.KeptHolds, h]

theorem storeEq_stored {columnExpr valueExpr : Expr}
    (h : storeEqPredicate withText before columnExpr valueExpr = some after) :
  ∃ column, indexPredicateColumn columnExpr = some column
    ∧ (literalIndexValue valueExpr).isSome ∧ Stored before [⟨column, .eq, [valueExpr]⟩] after
  := by
  rw [storeEqPredicate, Option.bind_eq_bind, Option.bind_eq_some_iff] at h
  obtain ⟨column, hcolumn, h⟩ := h
  rw [Option.bind_eq_bind, Option.bind_eq_some_iff] at h
  obtain ⟨kept, hkept, h⟩ := h
  split at h
  · cases h
  rename_i hcontains
  cases h
  have hnone : before[column]? = none := KeyMap.get_eq_none before (Bool.eq_false_of_not_eq_true hcontains)
  refine ⟨column, hcolumn, isSome_of_withText hkept, ?_⟩
  apply stored_insert ⟨column, .eq, [valueExpr]⟩
  · intro Cell S row
    rw [keptHolds_singleton S row column .eq hkept]
    simp [hnone, IndexPredicate.Satisfied]
  · simp [hnone]
  · simp [hnone]
  · rfl
  · rw [List.forall_mem_singleton]
    exact isSome_of_withText hkept

theorem storeIn_stored {expr : Expr} {list : List Expr}
    (h : storeInPredicate withText before expr list = some after) :
  ∃ column, indexPredicateColumn expr = some column
    ∧ (∀ literal ∈ list, (literalIndexValue literal).isSome)
    ∧ Stored before [⟨column, .eq, list⟩] after
  := by
  rw [storeInPredicate, Option.bind_eq_bind, Option.bind_eq_some_iff] at h
  obtain ⟨column, hcolumn, h⟩ := h
  split at h
  · cases h
  rename_i hcontains
  rw [Option.bind_eq_bind, Option.bind_eq_some_iff] at h
  obtain ⟨kept, hkept, h⟩ := h
  cases h
  have hnone : before[column]? = none := KeyMap.get_eq_none before (Bool.eq_false_of_not_eq_true hcontains)
  have hliterals : ∀ literal ∈ list, (literalIndexValue literal).isSome := by
    intro literal hliteral
    apply Option.isSome_iff_ne_none.mpr
    intro hnone
    have hfailed : list.mapM withText = none := by
      rw [List.mapM_none_iff, List.any_eq_true]
      exact ⟨literal, hliteral, by rw [withText_eq_none.mpr hnone]; rfl⟩
    rw [hkept] at hfailed
    cases hfailed
  refine ⟨column, hcolumn, hliterals, ?_⟩
  apply stored_insert ⟨column, .eq, list⟩
  · intro Cell S row
    simp [hnone, IndexPredicate.Satisfied, Atom.KeptHolds, hkept]
  · simp [hnone]
  · simp [hnone]
  · rfl
  · exact hliterals

/-- The bounds that a comparison with a value sets. -/
inductive Bounds {τ : Type} (value : τ) : Comparison → Option (τ × Bool) → Option (τ × Bool) → Prop
  | lower (inclusive : Bool) :
    Bounds value (if inclusive then .gtEq else .gt) (some (value, inclusive)) none
  | upper (inclusive : Bool) :
    Bounds value (if inclusive then .ltEq else .lt) none (some (value, inclusive))

/-- The comparison that an operator makes of a column with a value at its right or its left. -/
def comparisonWith (operator : BinaryOperator) (columnOnLeft : Bool) : Option Comparison :=
  if columnOnLeft then operator.comparison else operator.comparison.map .flip

theorem rangeBounds_eq_some {τ : Type} {operator : BinaryOperator} {columnOnLeft : Bool}
    {value : τ} {lower upper : Option (τ × Bool)}
    (h : rangeBounds operator columnOnLeft value = some (lower, upper)) :
  ∃ op, comparisonWith operator columnOnLeft = some op ∧ Bounds value op lower upper
  := by
  cases operator <;> cases columnOnLeft <;> cases h
  · exact ⟨.lt, rfl, .upper false⟩
  · exact ⟨.gt, rfl, .lower false⟩
  · exact ⟨.ltEq, rfl, .upper true⟩
  · exact ⟨.gtEq, rfl, .lower true⟩
  · exact ⟨.gt, rfl, .lower false⟩
  · exact ⟨.lt, rfl, .upper false⟩
  · exact ⟨.gtEq, rfl, .lower true⟩
  · exact ⟨.ltEq, rfl, .upper true⟩

section

variable {τ : Type} {existing bound merged : Option (τ × Bool)}

theorem mergeBound_eq_some (h : mergeBound existing bound = some merged) :
  (bound = none ∧ merged = existing) ∨ (existing = none ∧ merged = bound)
  := by
  cases existing <;> cases bound <;> simp_all [mergeBound]

/-- Merged bounds are those there are and the new ones. -/
theorem forall_mergeBound (h : mergeBound existing bound = some merged) (P : τ → Bool → Prop) :
  (∀ value inclusive, merged = some (value, inclusive) → P value inclusive)
    ↔ (∀ value inclusive, existing = some (value, inclusive) → P value inclusive)
      ∧ ∀ value inclusive, bound = some (value, inclusive) → P value inclusive
  := by
  obtain ⟨rfl, rfl⟩ | ⟨rfl, rfl⟩ := mergeBound_eq_some h <;> simp

theorem isSome_mergeBound (h : mergeBound existing bound = some merged) :
  merged.isSome = (existing.isSome || bound.isSome)
    ∧ (bound.isSome = true → existing.isSome = false)
  := by
  obtain ⟨rfl, rfl⟩ | ⟨rfl, rfl⟩ := mergeBound_eq_some h <;> simp

end

section

variable {τ : Type} {value : τ} {op : Comparison}
variable {lower upper existingLower existingUpper newLower newUpper : Option (τ × Bool)}

/-- A range with merged bounds takes the places of both. -/
theorem range_takes_merge (hlower : mergeBound existingLower lower = some newLower)
    (hupper : mergeBound existingUpper upper = some newUpper) (slot : Slot) :
  (IndexPredicate.range newLower newUpper).takes slot
    = ((IndexPredicate.range existingLower existingUpper).takes slot
      || (IndexPredicate.range lower upper).takes slot)
  := by
  cases slot with
  | point => rfl
  | lower => exact (isSome_mergeBound hlower).1
  | upper => exact (isSome_mergeBound hupper).1

theorem Bounds.takes (h : Bounds value op lower upper) :
  (IndexPredicate.range lower upper).takes op.slot = true
  := by
  cases h with
  | lower inclusive => cases inclusive <;> rfl
  | upper inclusive => cases inclusive <;> rfl

/-- The place of a comparison was free before its bounds were merged. -/
theorem Bounds.free (h : Bounds value op lower upper)
    (hlower : mergeBound existingLower lower = some newLower)
    (hupper : mergeBound existingUpper upper = some newUpper) :
  (IndexPredicate.range existingLower existingUpper).takes op.slot = false
  := by
  cases h with
  | lower inclusive => cases inclusive <;> exact (isSome_mergeBound hlower).2 rfl
  | upper inclusive => cases inclusive <;> exact (isSome_mergeBound hupper).2 rfl

end

section

variable {Cell : Type} (S : Comparisons Cell) (cell : Cell)

/-- The bounds of a comparison hold when the comparison does. -/
theorem Bounds.satisfied {op : Comparison} {kept : Expr × String}
    {lower upper : Option ((Expr × String) × Bool)} (h : Bounds kept op lower upper) :
  IndexPredicate.Satisfied S cell (.range lower upper) ↔ KeptHolds S op cell [kept]
  := by
  cases h <;> simp [IndexPredicate.Satisfied]

/-- A range with merged bounds. -/
theorem range_satisfied_merge
    {lower upper existingLower existingUpper newLower newUpper : Option ((Expr × String) × Bool)}
    (hlower : mergeBound existingLower lower = some newLower)
    (hupper : mergeBound existingUpper upper = some newUpper) :
  IndexPredicate.Satisfied S cell (.range newLower newUpper)
    ↔ IndexPredicate.Satisfied S cell (.range existingLower existingUpper)
      ∧ IndexPredicate.Satisfied S cell (.range lower upper)
  := by
  rw [IndexPredicate.Satisfied, forall_mergeBound hlower, forall_mergeBound hupper]
  exact and_and_and_comm

end

/-- The bounds of a range that a column has already. -/
structure Existing (before : KeyMap (IndexPredicate (Expr × String))) (column : String)
    (lower upper : Option ((Expr × String) × Bool)) : Prop where
  only : ∀ old, before[column]? = some old → old = .range lower upper
  unbounded : before[column]? = none → lower = none ∧ upper = none

theorem Existing.satisfied_iff {Cell : Type} (S : Comparisons Cell) (cell : Cell) {column : String}
    {lower upper : Option ((Expr × String) × Bool)} (h : Existing before column lower upper) :
  IndexPredicate.Satisfied S cell (.range lower upper)
    ↔ ∀ old, before[column]? = some old → old.Satisfied S cell
  := by
  cases hget : before[column]? with
  | none =>
      obtain ⟨rfl, rfl⟩ := h.unbounded hget
      simp [IndexPredicate.Satisfied]
  | some old =>
      obtain rfl := h.only old hget
      simp

/-- A range whose bounds are merged with those of a comparison. -/
theorem stored_range {column : String} {op : Comparison} {literal : Expr} {kept : Expr × String}
    {lower upper existingLower existingUpper newLower newUpper : Option ((Expr × String) × Bool)}
    (hkept : withText literal = some kept) (hbounds : Bounds kept op lower upper)
    (hexisting : Existing before column existingLower existingUpper)
    (hlower : mergeBound existingLower lower = some newLower)
    (hupper : mergeBound existingUpper upper = some newUpper) :
  Stored before [⟨column, op, [literal]⟩] (before.insert column (.range newLower newUpper))
  := by
  apply stored_insert ⟨column, op, [literal]⟩
  · intro Cell S row
    rw [keptHolds_singleton S row column op hkept, ← hbounds.satisfied,
      range_satisfied_merge S _ hlower hupper, hexisting.satisfied_iff]
  · intro old hold
    rw [hexisting.only old hold]
    exact hbounds.free hlower hupper
  · intro old slot hold htakes
    rw [hexisting.only old hold] at htakes
    rw [range_takes_merge hlower hupper, htakes, Bool.true_or]
  · rw [range_takes_merge hlower hupper, hbounds.takes, Bool.or_true]
  · rw [List.forall_mem_singleton]
    exact isSome_of_withText hkept

theorem storeRange_stored {columnExpr valueExpr : Expr} {operator : BinaryOperator}
    {columnOnLeft : Bool}
    (h : storeRangeBinaryPredicate withText before columnExpr operator valueExpr columnOnLeft
      = some after) :
  ∃ column op, indexPredicateColumn columnExpr = some column
    ∧ comparisonWith operator columnOnLeft = some op ∧ (literalIndexValue valueExpr).isSome
    ∧ Stored before [⟨column, op, [valueExpr]⟩] after
  := by
  rw [storeRangeBinaryPredicate, Option.bind_eq_bind, Option.bind_eq_some_iff] at h
  obtain ⟨column, hcolumn, h⟩ := h
  rw [Option.bind_eq_bind, Option.bind_eq_some_iff] at h
  obtain ⟨kept, hkept, h⟩ := h
  rw [Option.bind_eq_bind, Option.bind_eq_some_iff] at h
  obtain ⟨⟨lower, upper⟩, hbounds, h⟩ := h
  obtain ⟨op, hop, hbounds⟩ := rangeBounds_eq_some hbounds
  refine ⟨column, op, hcolumn, hop, isSome_of_withText hkept, ?_⟩
  dsimp only at h
  split at h
  · rename_i hnone
    cases h
    have hexisting : Existing before column none none :=
      ⟨fun old hold => absurd (hnone.symm.trans hold) (by simp), fun _ => ⟨rfl, rfl⟩⟩
    apply stored_range hkept hbounds hexisting
    · cases lower <;> rfl
    · cases upper <;> rfl
  · rename_i existingLower existingUpper hsome
    rw [Option.bind_eq_bind, Option.bind_eq_some_iff] at h
    obtain ⟨newLower, hlower, h⟩ := h
    obtain ⟨newUpper, hupper, h⟩ := Option.bind_eq_some_iff.mp h
    cases h
    apply stored_range hkept hbounds _ hlower hupper
    refine ⟨?_, fun hnone => absurd (hsome.symm.trans hnone) (by simp)⟩
    intro old hold
    rw [hsome] at hold
    cases hold
    rfl
  · cases h

/-- Comparisons that are stored one after the other. -/
theorem Stored.append {middle : KeyMap (IndexPredicate (Expr × String))} {first second : List Atom}
    (hfirst : Stored before first middle) (hsecond : Stored middle second after) :
  Stored before (first ++ second) after
  := by
  refine ⟨?_, ?_, ?_, ?_, ?_⟩
  · intro Cell S row
    rw [hsecond.satisfies, hfirst.satisfies, List.forall_mem_append, and_assoc]
  · rw [List.forall_mem_append]
    refine ⟨hfirst.free, ?_⟩
    intro atom hatom htaken
    exact hsecond.free atom hatom (hfirst.taken _ (.inl htaken))
  · rintro slot (htaken | ⟨atom, hatom, hslot⟩)
    · exact hsecond.taken slot (.inl (hfirst.taken slot (.inl htaken)))
    · apply hsecond.taken
      obtain hatom | hatom := List.mem_append.mp hatom
      · exact .inl (hfirst.taken slot (.inr ⟨atom, hatom, hslot⟩))
      · exact .inr ⟨atom, hatom, hslot⟩
  · rw [List.pairwise_append]
    refine ⟨hfirst.distinct, hsecond.distinct, ?_⟩
    intro a ha b hb heq
    exact hsecond.free b hb (hfirst.taken _ (.inr ⟨a, ha, heq⟩))
  · rw [List.forall_mem_append]
    exact ⟨hfirst.literals, hsecond.literals⟩

end

/-! ### The comparisons of an expression -/

theorem column_of_literal {expr : Expr} (h : (literalIndexValue expr).isSome) :
  indexPredicateColumn expr = none
  := by
  cases expr with
  | identifier | compoundIdentifier => simp [literalIndexValue] at h
  | _ => rfl

theorem comparisonAtom_left {left right : Expr} {operator : BinaryOperator} {op : Comparison}
    {column : String} (hop : comparisonWith operator true = some op)
    (hcolumn : indexPredicateColumn left = some column)
    (hliteral : (literalIndexValue right).isSome) :
  comparisonAtom left operator right = some ⟨column, op, [right]⟩
  := by
  obtain ⟨text, htext⟩ := Option.isSome_iff_exists.mp hliteral
  rw [comparisonWith, if_pos rfl] at hop
  simp [comparisonAtom, hop, hcolumn, htext]

theorem comparisonAtom_right {left right : Expr} {operator : BinaryOperator} {op : Comparison}
    {column : String} (hop : comparisonWith operator false = some op)
    (hcolumn : indexPredicateColumn right = some column)
    (hliteral : (literalIndexValue left).isSome) :
  comparisonAtom left operator right = some ⟨column, op, [left]⟩
  := by
  obtain ⟨text, htext⟩ := Option.isSome_iff_exists.mp hliteral
  obtain ⟨comparison, hcomparison, rfl⟩ := Option.map_eq_some_iff.mp hop
  simp [comparisonAtom, hcomparison, hcolumn, htext, column_of_literal hliteral]

theorem and3_eq_true (a b : Option Bool) :
  and3 a b = some true ↔ a = some true ∧ b = some true
  := by
  cases a with
  | none => cases b with
    | none => simp [and3]
    | some b => cases b <;> simp [and3]
  | some a => cases a <;> simp [and3]

theorem or3_eq_true (truths : List (Option Bool)) : or3 truths = some true ↔ some true ∈ truths
  := by
  fun_induction or3 truths with
  | case1 => simp
  | case2 rest => simp
  | case3 rest ih => simp [ih]
  | case4 rest hrest ih => simpa using ih.mp hrest
  | case5 rest hrest ih => simpa using fun h => hrest (ih.mpr h)

/-- What the extraction does with an expression: its comparisons are stored, and the expression
holds when they all do. -/
structure Extracted (expr : Expr) (before after : KeyMap (IndexPredicate (Expr × String))) :
    Prop where
  stored : Stored before (atoms expr) after
  evaluate : ∀ {Cell : Type} (S : Comparisons Cell) (row : String → Cell)
    (others : Expr → Option Bool),
    evaluate S row others expr = some true ↔ ∀ atom ∈ atoms expr, atom.truth S row = some true

/-- A comparison of two sides is stored as one of a column with a literal. -/
theorem stored_comparison {left right : Expr} {op : BinaryOperator} (hop : op ≠ .and)
    {before after : KeyMap (IndexPredicate (Expr × String))}
    (h : extractIndexPredicates withText (.binaryOp left op right) before = some after) :
  ∃ atom, comparisonAtom left op right = some atom ∧ Stored before [atom] after
  := by
  have hrange (h : (storeRangeBinaryPredicate withText before left op right true).or
      (storeRangeBinaryPredicate withText before right op left false) = some after) :
      ∃ atom, comparisonAtom left op right = some atom ∧ Stored before [atom] after := by
    rw [Option.or_eq_some_iff] at h
    obtain h | ⟨-, h⟩ := h
    · obtain ⟨column, op', hcolumn, hop', hliteral, hstored⟩ := storeRange_stored h
      exact ⟨_, comparisonAtom_left hop' hcolumn hliteral, hstored⟩
    · obtain ⟨column, op', hcolumn, hop', hliteral, hstored⟩ := storeRange_stored h
      exact ⟨_, comparisonAtom_right hop' hcolumn hliteral, hstored⟩
  cases op with
  | and => exact absurd rfl hop
  | other => cases h
  | eq =>
      rw [extractIndexPredicates, Option.or_eq_some_iff] at h
      obtain h | ⟨-, h⟩ := h
      · obtain ⟨column, hcolumn, hliteral, hstored⟩ := storeEq_stored h
        exact ⟨_, comparisonAtom_left rfl hcolumn hliteral, hstored⟩
      · obtain ⟨column, hcolumn, hliteral, hstored⟩ := storeEq_stored h
        exact ⟨_, comparisonAtom_right rfl hcolumn hliteral, hstored⟩
  | gt | gtEq | lt | ltEq => exact hrange h

theorem evaluate_comparison {Cell : Type} (S : Comparisons Cell) (row : String → Cell)
    (others : Expr → Option Bool) {left right : Expr} {op : BinaryOperator} (hop : op ≠ .and)
    {atom : Atom} (h : comparisonAtom left op right = some atom) :
  evaluate S row others (.binaryOp left op right) = atom.truth S row
  := by
  cases op with
  | and => exact absurd rfl hop
  | _ => simp [evaluate, h]

theorem atoms_comparison {left right : Expr} {op : BinaryOperator} (hop : op ≠ .and) :
  atoms (.binaryOp left op right) = (comparisonAtom left op right).toList
  := by
  cases op with
  | and => exact absurd rfl hop
  | _ => rfl

theorem extracted {expr : Expr} {before after : KeyMap (IndexPredicate (Expr × String))}
    (h : extractIndexPredicates withText expr before = some after) :
  Extracted expr before after
  := by
  induction expr using atoms.induct generalizing before after with
  | case1 left right ihleft ihright =>
      obtain ⟨middle, hmiddle, h⟩ := Option.bind_eq_some_iff.mp h
      have hleft := ihleft hmiddle
      have hright := ihright h
      refine ⟨hleft.stored.append hright.stored, ?_⟩
      intro Cell S row others
      rw [evaluate, and3_eq_true, hleft.evaluate, hright.evaluate, atoms, List.forall_mem_append]
  | case2 left op right hop =>
      obtain ⟨atom, hatom, hstored⟩ := stored_comparison hop h
      have hatoms : atoms (.binaryOp left op right) = [atom] := by
        rw [atoms_comparison hop, hatom, Option.toList_some]
      refine ⟨by rwa [hatoms], ?_⟩
      intro Cell S row others
      rw [hatoms, evaluate_comparison S row others hop hatom, List.forall_mem_singleton]
  | case3 expr list =>
      obtain ⟨column, hcolumn, hliterals, hstored⟩ := storeIn_stored h
      have hatoms : atoms (.inList expr list false) = [⟨column, .eq, list⟩] := by
        rw [atoms, hcolumn]
        rfl
      refine ⟨by rwa [hatoms], ?_⟩
      intro Cell S row others
      have hall : list.all (fun item => (literalIndexValue item).isSome) = true :=
        List.all_eq_true.mpr hliterals
      rw [hatoms, List.forall_mem_singleton, evaluate, hcolumn, hall]
  | case4 inner ih =>
      have hinner := ih h
      exact ⟨hinner.stored, hinner.evaluate⟩
  | case5 expr hand hbinary hin hnested =>
      rw [extractIndexPredicates.eq_def] at h
      split at h <;> first | cases h | simp_all

/-! ### Texts -/

/-- The predicates with the texts alone. -/
def textsOf (kept : KeyMap (IndexPredicate (Expr × String))) : KeyMap (IndexPredicate String) :=
  kept.map (fun _ predicate => predicate.texts)

theorem textsOf_get (kept : KeyMap (IndexPredicate (Expr × String))) (column : String) :
  (textsOf kept)[column]? = kept[column]?.map IndexPredicate.texts
  := Std.ExtTreeMap.getElem?_map

theorem textsOf_contains (kept : KeyMap (IndexPredicate (Expr × String))) (column : String) :
  (textsOf kept).contains column = kept.contains column
  := Std.ExtTreeMap.contains_map

theorem textsOf_insert (kept : KeyMap (IndexPredicate (Expr × String))) (column : String)
    (predicate : IndexPredicate (Expr × String)) :
  textsOf (kept.insert column predicate) = (textsOf kept).insert column predicate.texts
  := by
  apply Std.ExtTreeMap.ext_getElem?
  intro other
  rw [textsOf_get, KeyMap.get_insert, KeyMap.get_insert, textsOf_get]
  split <;> rfl

theorem textsOf_empty : textsOf ∅ = ∅
  := by
  apply Std.ExtTreeMap.ext_getElem?
  intro column
  rw [textsOf_get]
  simp

theorem literalIndexValue_eq (literal : Expr) :
  literalIndexValue literal = (withText literal).map (·.2)
  := by
  rw [withText, Option.map_map]
  exact (Option.map_id_fun' ▸ rfl)

theorem mapM_literalIndexValue (list : List Expr) :
  list.mapM literalIndexValue = (list.mapM withText).map (·.map (·.2))
  := by
  induction list with
  | nil => rfl
  | cons literal list ih =>
      rw [List.mapM_cons, List.mapM_cons, ih, literalIndexValue_eq]
      cases withText literal with
      | none => rfl
      | some kept => cases list.mapM withText <;> rfl

section

variable (kept : KeyMap (IndexPredicate (Expr × String)))

theorem storeEq_texts (columnExpr valueExpr : Expr) :
  storeEqPredicate literalIndexValue (textsOf kept) columnExpr valueExpr
    = (storeEqPredicate withText kept columnExpr valueExpr).map textsOf
  := by
  rw [storeEqPredicate, storeEqPredicate, literalIndexValue_eq]
  cases indexPredicateColumn columnExpr with
  | none => rfl
  | some column =>
      cases withText valueExpr with
      | none => rfl
      | some value =>
          simp only [Option.map_some, Option.bind_eq_bind, Option.bind_some, textsOf_contains]
          split
          · rfl
          · rw [Option.map_some, textsOf_insert]
            rfl

theorem storeIn_texts (expr : Expr) (list : List Expr) :
  storeInPredicate literalIndexValue (textsOf kept) expr list
    = (storeInPredicate withText kept expr list).map textsOf
  := by
  rw [storeInPredicate, storeInPredicate, mapM_literalIndexValue]
  cases indexPredicateColumn expr with
  | none => rfl
  | some column =>
      simp only [Option.bind_eq_bind, Option.bind_some, textsOf_contains]
      split
      · rfl
      · cases list.mapM withText with
        | none => rfl
        | some values =>
            simp only [Option.map_some, Option.bind_some, textsOf_insert]
            rfl

/-- The text of a bound. -/
def boundText (bound : Option ((Expr × String) × Bool)) : Option (String × Bool) :=
  bound.map (fun (kept, inclusive) => (kept.2, inclusive))

theorem rangeBounds_texts (operator : BinaryOperator) (columnOnLeft : Bool)
    (value : Expr × String) :
  rangeBounds operator columnOnLeft value.2
    = (rangeBounds operator columnOnLeft value).map
      (fun (lower, upper) => (boundText lower, boundText upper))
  := by
  cases operator <;> cases columnOnLeft <;> rfl

theorem mergeBound_texts (existing bound : Option ((Expr × String) × Bool)) :
  mergeBound (boundText existing) (boundText bound) = (mergeBound existing bound).map boundText
  := by
  cases existing <;> cases bound <;> rfl

theorem storeRange_texts (columnExpr : Expr) (operator : BinaryOperator) (valueExpr : Expr)
    (columnOnLeft : Bool) :
  storeRangeBinaryPredicate literalIndexValue (textsOf kept) columnExpr operator valueExpr
      columnOnLeft
    = (storeRangeBinaryPredicate withText kept columnExpr operator valueExpr columnOnLeft).map
      textsOf
  := by
  rw [storeRangeBinaryPredicate, storeRangeBinaryPredicate, literalIndexValue_eq]
  cases indexPredicateColumn columnExpr with
  | none => rfl
  | some column =>
      cases withText valueExpr with
      | none => rfl
      | some value =>
          simp only [Option.map_some, Option.bind_eq_bind, Option.bind_some, rangeBounds_texts,
            textsOf_get]
          cases rangeBounds operator columnOnLeft value with
          | none => rfl
          | some bounds =>
              obtain ⟨lower, upper⟩ := bounds
              simp only [Option.map_some, Option.bind_some]
              cases kept[column]? with
              | none =>
                  simp only [Option.map_none, Option.map_some, textsOf_insert]
                  rfl
              | some predicate =>
                  cases predicate with
                  | eq | inList => rfl
                  | range existingLower existingUpper =>
                      change (mergeBound (boundText existingLower) (boundText lower)).bind
                        (fun newLower => (mergeBound (boundText existingUpper)
                          (boundText upper)).bind (fun newUpper =>
                            some ((textsOf kept).insert column (.range newLower newUpper)))) = _
                      rw [mergeBound_texts, mergeBound_texts]
                      dsimp only
                      cases mergeBound existingLower lower with
                      | none => rfl
                      | some newLower =>
                          cases mergeBound existingUpper upper with
                          | none => rfl
                          | some newUpper =>
                              exact congrArg some
                                (textsOf_insert kept column (.range newLower newUpper)).symm

end

/-- The extraction does with texts alone what it does with the literals beside them. -/
theorem extract_texts (expr : Expr) (kept : KeyMap (IndexPredicate (Expr × String))) :
  extractIndexPredicates literalIndexValue expr (textsOf kept)
    = (extractIndexPredicates withText expr kept).map textsOf
  := by
  induction expr using atoms.induct generalizing kept with
  | case1 left right ihleft ihright =>
      rw [extractIndexPredicates, extractIndexPredicates, ihleft]
      cases extractIndexPredicates withText left kept with
      | none => rfl
      | some middle => exact ihright middle
  | case2 left op right hop =>
      cases op with
      | and => exact absurd rfl hop
      | other => rfl
      | eq =>
          rw [extractIndexPredicates, extractIndexPredicates, storeEq_texts, storeEq_texts,
            Option.map_or]
      | gt | gtEq | lt | ltEq =>
          rw [extractIndexPredicates, extractIndexPredicates, storeRange_texts, storeRange_texts,
            Option.map_or]
          all_goals simp
  | case3 expr list => exact storeIn_texts kept expr list
  | case4 inner ih => exact ih kept
  | case5 expr hand hbinary hin hnested =>
      rw [extractIndexPredicates.eq_def, extractIndexPredicates.eq_def]
      split <;> first | rfl | simp_all

/-! ### The values that are kept -/

/-- The value that is kept of a literal. -/
def keptValue (literal : Expr) : Option LiteralValue :=
  (literalIndexValue literal).bind (readBack literal)

theorem faithful_iff_keptValue (literal : Expr) :
  Faithful literal ↔ keptValue literal = some (literalValue literal)
  := Option.bind_eq_some_iff.symm

section

variable {Cell : Type} (S : Comparisons Cell) (row : String → Cell)

theorem Atom.truth_iff (atom : Atom) :
  atom.truth S row = some true
    ↔ ∃ literal ∈ atom.literals,
      S.compare atom.op (row atom.column) (literalValue literal) = some true
  := by
  rw [Atom.truth, or3_eq_true, List.mem_map]

theorem keptHolds_map_iff (op : Comparison) (cell : Cell) (literals : List Expr)
    (kept : List (Expr × String))
    (h : List.Forall₂ (fun literal k => withText literal = some k) literals kept) :
  IndexedSelect.KeptHolds S op cell kept
    ↔ (∀ literal ∈ literals, (keptValue literal).isSome)
      ∧ ∃ literal ∈ literals, ∃ value, keptValue literal = some value
        ∧ S.compare op cell value = some true
  := by
  have hvalue {literal : Expr} {k : Expr × String} (hk : withText literal = some k) :
      keptValue literal = readBack k.1 k.2 := by
    obtain ⟨hliteral, htext⟩ := withText_eq_some.mp hk
    rw [keptValue, htext, hliteral]
    rfl
  apply and_congr
  · induction h with
    | nil => simp
    | cons hk _ ih =>
        rw [List.forall_mem_cons, List.forall_mem_cons, ih, hvalue hk, Option.isSome_iff_exists]
  · induction h with
    | nil => simp
    | cons hk _ ih => rw [List.exists_mem_cons_iff, List.exists_mem_cons_iff, ih, hvalue hk]

/-- What is kept of a comparison holds when the values that are kept of all its literals can be
read, and one of them compares. -/
theorem Atom.keptHolds_iff (atom : Atom) :
  atom.KeptHolds S row
    ↔ (∀ literal ∈ atom.literals, (keptValue literal).isSome)
      ∧ ∃ literal ∈ atom.literals, ∃ value, keptValue literal = some value
        ∧ S.compare atom.op (row atom.column) value = some true
  := by
  constructor
  · rintro ⟨kept, hkept, hholds⟩
    exact (keptHolds_map_iff S _ _ _ _ (List.mapM_some_iff.mp hkept)).mp hholds
  · intro h
    cases hkept : atom.literals.mapM withText with
    | none =>
        rw [List.mapM_none_iff, List.any_eq_true] at hkept
        obtain ⟨literal, hliteral, hnone⟩ := hkept
        have htext := withText_eq_none.mp (Option.isNone_iff_eq_none.mp hnone)
        have hvalue := h.1 literal hliteral
        rw [keptValue, htext] at hvalue
        cases hvalue
    | some kept =>
        exact ⟨kept, hkept, (keptHolds_map_iff S _ _ _ _ (List.mapM_some_iff.mp hkept)).mpr h⟩

end

/-- A comparison with NULL alone. -/
def Atom.NullOnly (atom : Atom) : Prop :=
  ∀ literal ∈ atom.literals, literalValue literal = .null

/-- Nothing is lost of the literals of a comparison. -/
def Atom.Plain (atom : Atom) : Prop :=
  ∀ literal ∈ atom.literals, IndexedSelect.Plain literal

section

variable {Cell : Type} (S : Comparisons Cell) (row : String → Cell) {atom : Atom}

/-- A comparison with NULL alone holds in no row, and neither does what is kept of it. -/
theorem Atom.NullOnly.fails (h : atom.NullOnly) :
  atom.truth S row ≠ some true ∧ ¬ atom.KeptHolds S row
  := by
  rw [ne_eq, Atom.truth_iff, Atom.keptHolds_iff]
  constructor
  · rintro ⟨literal, hliteral, htrue⟩
    rw [h literal hliteral, S.compare_null] at htrue
    cases htrue
  · rintro ⟨-, literal, hliteral, value, hvalue, htrue⟩
    rw [keptValue, literalIndexValue_of_null (h literal hliteral), Option.bind_some, readBack,
      h literal hliteral] at hvalue
    dsimp only at hvalue
    split at hvalue
    · cases hvalue
      rw [S.compare_null] at htrue
      cases htrue
    · cases hvalue

/-- A comparison of whose literals nothing is lost holds when what is kept of it does. -/
theorem Atom.Plain.holds_iff (h : atom.Plain) :
  atom.truth S row = some true ↔ atom.KeptHolds S row
  := by
  have hkept : ∀ literal ∈ atom.literals, keptValue literal = some (literalValue literal) := by
    intro literal hliteral
    rw [← faithful_iff_keptValue, faithful_iff_plain]
    exact h literal hliteral
  rw [Atom.truth_iff, Atom.keptHolds_iff]
  constructor
  · rintro ⟨literal, hliteral, htrue⟩
    refine ⟨?_, literal, hliteral, _, hkept literal hliteral, htrue⟩
    intro other hother
    rw [hkept other hother]
    rfl
  · rintro ⟨-, literal, hliteral, value, hvalue, htrue⟩
    rw [hkept literal hliteral] at hvalue
    cases hvalue
    exact ⟨literal, hliteral, htrue⟩

end

/-! ### The literals that tell the two apart -/

/-- Comparisons that hold with the values of a property, and are unknown with NULL only. -/
noncomputable def comparisonsOf {Cell : Type} (P : Comparison → Cell → LiteralValue → Prop) :
    Comparisons Cell where
  compare op cell value :=
    match value with
    | .null => none
    | value => by classical exact some (decide (P op cell value))
  compare_null := fun _ _ => rfl

theorem comparisonsOf_eq_true {Cell : Type} {P : Comparison → Cell → LiteralValue → Prop}
    {op : Comparison} {cell : Cell} {value : LiteralValue} :
  (comparisonsOf P).compare op cell value = some true ↔ value ≠ .null ∧ P op cell value
  := by
  cases value <;> simp [comparisonsOf]

/-- The strings of a comparison of which something is lost. -/
def lostLength (literal : Expr) : Nat :=
  match literalValue literal with
  | .string s => s.toList.length
  | _ => 0

theorem exists_longest {literals : List Expr} {P : Expr → Prop}
    (h : ∃ literal ∈ literals, P literal) :
  ∃ literal ∈ literals, P literal
    ∧ ∀ other ∈ literals, P other → lostLength other ≤ lostLength literal
  := by
  classical
  obtain ⟨literal, hliteral, hP⟩ := h
  have hne : literals.filter (fun l => decide (P l)) ≠ [] := by
    apply List.ne_nil_of_mem (a := literal)
    simpa using ⟨hliteral, hP⟩
  obtain ⟨longest, hlongest⟩ := Option.ne_none_iff_exists'.mp
    (mt List.argmax_eq_none.mp hne : List.argmax lostLength _ ≠ none)
  have hmem := List.argmax_mem hlongest
  rw [List.mem_filter, decide_eq_true_eq] at hmem
  refine ⟨longest, hmem.1, hmem.2, ?_⟩
  intro other hother hPother
  apply List.le_of_mem_argmax _ hlongest
  rw [List.mem_filter, decide_eq_true_eq]
  exact ⟨hother, hPother⟩

section

variable {stored : List Atom}

/-- Comparisons mean what is kept of them. -/
def Kept (stored : List Atom) : Prop :=
  ∀ (Cell : Type) (S : Comparisons Cell) (row : String → Cell),
    (∀ atom ∈ stored, atom.truth S row = some true) ↔ ∀ atom ∈ stored, atom.KeptHolds S row

/-- All texts are read back when the comparisons mean what is kept of them: they all hold when
every value compares. -/
theorem Kept.isSome (h : Kept stored) (hnull : ∀ atom ∈ stored, ¬ atom.NullOnly) {atom : Atom}
    (hatom : atom ∈ stored) :
  ∀ literal ∈ atom.literals, (keptValue literal).isSome
  := by
  have htruth : ∀ a ∈ stored,
      a.truth (comparisonsOf (fun _ _ _ => True)) (fun _ => ()) = some true := by
    intro a ha
    have hnot := hnull a ha
    rw [Atom.NullOnly] at hnot
    push Not at hnot
    obtain ⟨literal, hliteral, hne⟩ := hnot
    rw [Atom.truth_iff]
    exact ⟨literal, hliteral, comparisonsOf_eq_true.mpr ⟨hne, trivial⟩⟩
  have hkept := (h Unit _ _).mp htruth atom hatom
  exact ((Atom.keptHolds_iff _ _ atom).mp hkept).1

/-- Nothing is lost when the comparisons mean what is kept of them: the longest string of which
something is lost would be kept of a longer one. -/
theorem Kept.plain (h : Kept stored) (hdistinct : stored.Pairwise (fun a b => a.slot ≠ b.slot))
    (hnull : ∀ atom ∈ stored, ¬ atom.NullOnly) {atom : Atom} (hatom : atom ∈ stored) :
  atom.Plain
  := by
  by_contra hplain
  have hlost : ∃ literal ∈ atom.literals, ¬ Faithful literal := by
    rw [Atom.Plain] at hplain
    push Not at hplain
    obtain ⟨literal, hliteral, hnot⟩ := hplain
    exact ⟨literal, hliteral, mt (faithful_iff_plain literal).mp hnot⟩
  obtain ⟨literal, hliteral, hunfaithful, hlongest⟩ := exists_longest hlost
  have hread {l : Expr} (hl : l ∈ atom.literals) :
      ∃ text value, literalIndexValue l = some text ∧ readBack l text = some value := by
    obtain ⟨value, hvalue⟩ := Option.isSome_iff_exists.mp (h.isSome hnull hatom l hl)
    obtain ⟨text, htext, hread⟩ := Option.bind_eq_some_iff.mp hvalue
    exact ⟨text, value, htext, hread⟩
  obtain ⟨text, value, htext, hvalue⟩ := hread hliteral
  obtain ⟨s, hs, -, -⟩ := string_of_not_faithful htext hvalue hunfaithful
  -- in the place of the comparison, the string alone compares
  let S : Comparisons String := comparisonsOf (fun op column value =>
    (column, op.slot) = atom.slot → value = .string s)
  have htruth : ∀ a ∈ stored, a.truth S id = some true := by
    intro a ha
    rw [Atom.truth_iff]
    by_cases heq : a = atom
    · subst heq
      refine ⟨literal, hliteral, comparisonsOf_eq_true.mpr ⟨?_, fun _ => hs⟩⟩
      rw [hs]
      exact LiteralValue.noConfusion
    · have hsymm : Std.Symm (fun a b : Atom => a.slot ≠ b.slot) := ⟨fun _ _ hne => hne.symm⟩
      have hslot : a.slot ≠ atom.slot := hdistinct.forall ha hatom heq
      have hnot := hnull a ha
      rw [Atom.NullOnly] at hnot
      push Not at hnot
      obtain ⟨other, hother, hne⟩ := hnot
      exact ⟨other, hother, comparisonsOf_eq_true.mpr ⟨hne, fun h => absurd h hslot⟩⟩
  have hkept := (h String S id).mp htruth atom hatom
  obtain ⟨-, other, hother, kept, hkept, hcompare⟩ := (Atom.keptHolds_iff S id atom).mp hkept
  obtain rfl := (comparisonsOf_eq_true.mp hcompare).2 rfl
  obtain ⟨text', htext', hread'⟩ := Option.bind_eq_some_iff.mp hkept
  by_cases hfaithful : Faithful other
  · have hother' := (faithful_iff_keptValue other).mp hfaithful
    rw [hkept] at hother'
    have heq := eq_of_literalValue_string (Option.some.inj hother').symm
    rw [← eq_of_literalValue_string hs] at heq
    exact hunfaithful (heq ▸ hfaithful)
  · obtain ⟨s', hs', heq, hne⟩ := string_of_not_faithful htext' hread' hfaithful
    have hlength := hlongest other hother hfaithful
    rw [lostLength, lostLength, hs, hs'] at hlength
    have hchars : s.toList = keptChars s'.toList := by
      rw [LiteralValue.string.inj heq, String.toList_ofList]
    have hsublist := keptChars_sublist s'.toList
    rw [← hchars] at hsublist hne
    exact hne (hsublist.eq_of_length_le hlength)

end

/-- Comparisons in different places mean what is kept of them just when one is with NULL alone, or
nothing is lost of any literal. -/
theorem kept_iff {stored : List Atom} (hdistinct : stored.Pairwise (fun a b => a.slot ≠ b.slot)) :
  Kept stored ↔ (∃ atom ∈ stored, atom.NullOnly) ∨ ∀ atom ∈ stored, atom.Plain
  := by
  constructor
  · intro h
    by_cases hnull : ∃ atom ∈ stored, atom.NullOnly
    · exact .inl hnull
    · push Not at hnull
      exact .inr (fun atom hatom => h.plain hdistinct hnull hatom)
  · rintro (⟨atom, hatom, hnull⟩ | hplain) Cell S row
    · exact iff_of_false (fun h => (hnull.fails S row).1 (h atom hatom))
        (fun h => (hnull.fails S row).2 (h atom hatom))
    · exact forall₂_congr (fun atom hatom => (hplain atom hatom).holds_iff S row)

/-- `id >= -5 AND (7 > id)`. -/
def boundedId : Expr :=
  .binaryOp
    (.binaryOp (.identifier "id") .gtEq
      (.unaryOp .minus (.value (.number ⟨"5", by decide, forall_mem_of_all (by decide)⟩))))
    .and
    (.nested (.binaryOp (.value (.number ⟨"7", by decide, forall_mem_of_all (by decide)⟩)) .gt (.identifier "id")))

/-- Texts that are equal to strings. -/
def textComparisons : Comparisons String where
  compare
    | .eq, cell, .string s => some (cell = s)
    | _, _, _ => none
  compare_null := fun _ _ => by simp

end IndexedSelect
