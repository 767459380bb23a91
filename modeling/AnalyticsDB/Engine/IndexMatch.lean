import AnalyticsDB.Engine.Dml
import AnalyticsDB.Engine.IndexPredicates
import AnalyticsDB.Lib.Best
import Mathlib.Data.List.Nodup

/-!
# The best index of a select

An index can answer a select when its columns, one after the other up to a range, have as many
predicates as there are.  The rows of its snapshot are filtered by all predicates, and the row ids
of those that are left are what is read.  The best of the indexes that can is taken.
-/

namespace IndexedSelect

/-- The data of a snapshot: the names of its columns, and its rows. -/
structure SnapshotData (Cell : Type) where
  columns : List String
  rows : List (List Cell)

/-- What is stored of the indexes and what DataFusion does with it: how a name of a column is read,
how cells compare with texts, what collecting fails with, the order of the rows it yields, and the
texts of cells. -/
structure Lookup (Cell : Type) where
  readIndexSnapshot : String → Except String (Option String)
  readData : String → String → Except String (Option (SnapshotData Cell))
  column : String → String
  compare : Comparison → Cell → String → Option Bool
  collectError : KeyMap (IndexPredicate String) → SnapshotData Cell → Option String
  collect : List (List Cell) → List (List Cell)
  collect_perm : ∀ rows, (collect rows).Perm rows
  text : Cell → Option String

/-! ### The predicates of the columns of an index -/

def findIndexPredicate (predicates : KeyMap (IndexPredicate String)) (column : String) :
    Option (IndexPredicate String) :=
  (predicates.toList.find? (fun entry => eqIgnoreAsciiCase entry.1 column)).map (·.2)

/-- How far the columns of an index have predicates. -/
structure Coverage where
  matchedPrefixLen : Nat
  hasRange : Bool
  coveredPredicateColumns : Nat

def coverage (predicates : KeyMap (IndexPredicate String)) : List String → Coverage → Coverage
  | [], covered => covered
  | column :: columns, covered =>
    match findIndexPredicate predicates column with
    | none => covered
    | some (.range _ _) =>
      { covered with
        hasRange := true
        coveredPredicateColumns := covered.coveredPredicateColumns + 1 }
    | some _ =>
      coverage predicates columns
        { covered with
          matchedPrefixLen := covered.matchedPrefixLen + 1
          coveredPredicateColumns := covered.coveredPredicateColumns + 1 }

section

variable {Cell : Type} (L : Lookup Cell)

/-! ### The candidate of an index -/

/-- The truth of a predicate for a cell. -/
def filterTruth (cell : Cell) : IndexPredicate String → Option Bool
  | .eq value => L.compare .eq cell value
  | .inList values => or3 (values.map (L.compare .eq cell))
  | .range lower upper =>
    let above := match lower with
      | none => some true
      | some (value, inclusive) =>
        and3 (some true) (L.compare (if inclusive then .gtEq else .gt) cell value)
    match upper with
    | none => above
    | some (value, inclusive) =>
      and3 above (L.compare (if inclusive then .ltEq else .lt) cell value)

/-- The cell of a row in a column. -/
def SnapshotData.cell (data : SnapshotData Cell) (row : List Cell) (column : String) :
    Option Cell :=
  (data.columns.idxOf? column).bind (row[·]?)

/-- The rows that the predicates leave, one after the other; a column that there is not is an
error. -/
def filterRows (data : SnapshotData Cell) :
    List (String × IndexPredicate String) → List (List Cell) → Except String (List (List Cell))
  | [], rows => .ok rows
  | (name, predicate) :: rest, rows =>
    if L.column name ∈ data.columns then
      filterRows data rest (rows.filter (fun row =>
        (data.cell row (L.column name)).bind (filterTruth L · predicate) = some true))
    else .error ("No field named " ++ L.column name)

/-- What an index offers: the row ids, and how good it is. -/
structure Candidate where
  index : CatalogIndex
  rowIds : List String
  score : Nat
  hasRange : Bool

/-- The ids of the rows that the predicates leave. -/
def filteredRowIds (predicates : KeyMap (IndexPredicate String)) (data : SnapshotData Cell) :
    Except String (List String) := do
  let rows ← filterRows L data predicates.toList data.rows
  if "_row_id" ∉ data.columns then .error "No field named _row_id"
  else
    match L.collectError predicates data with
    | some e => .error e
    | none => .ok ((L.collect rows).filterMap (fun row => (data.cell row "_row_id").bind L.text))

def candidateRowIdsFromSnapshot (predicates : KeyMap (IndexPredicate String))
    (index : CatalogIndex) (version : String) : Except String (Option Candidate) :=
  let covered := coverage predicates index.columns ⟨0, false, 0⟩
  if covered.matchedPrefixLen = 0 ∧ covered.hasRange = false then .ok none
  else if covered.coveredPredicateColumns ≠ predicates.size then .ok none
  else do
    match ← L.readData index.name version with
    | none => .ok none
    | some data => do
      let rowIds ← filteredRowIds L predicates data
      .ok (some ⟨index, rowIds, covered.matchedPrefixLen, covered.hasRange⟩)

def candidate (predicates : KeyMap (IndexPredicate String)) (index : CatalogIndex) :
    Except String (Option Candidate) := do
  match ← L.readIndexSnapshot index.name with
  | none => .ok none
  | some version => candidateRowIdsFromSnapshot L predicates index version

/-- Whether a candidate takes the place of the best one. -/
def Candidate.replaces (new best : Candidate) : Bool :=
  decide (best.score < new.score)
    || (new.score = best.score && !new.hasRange && best.hasRange)
    || (new.score = best.score && new.hasRange = best.hasRange
      && new.index.isUnique && !best.index.isUnique)
    || (new.score = best.score && new.hasRange = best.hasRange
      && new.index.isUnique = best.index.isUnique
      && new.rowIds.length < best.rowIds.length)

def bestIndexMatch (predicates : KeyMap (IndexPredicate String)) (indexes : List CatalogIndex) :
    Except String (Option (CatalogIndex × List String)) := do
  let best ← Best.search (candidate L predicates) Candidate.replaces none indexes
  .ok (best.map (fun found => (found.index, found.rowIds)))

/-! ### What a match should be -/

/-- A row of a table satisfies the predicates. -/
def satisfies (predicates : KeyMap (IndexPredicate String)) (row : String → Cell) : Bool :=
  predicates.toList.all (fun entry =>
    filterTruth L (row (L.column entry.1)) entry.2 = some true)

/-- The ids of the rows that satisfy the predicates. -/
def matchingIds (predicates : KeyMap (IndexPredicate String)) (rows : List (String → Cell)) :
    List String :=
  (rows.filter (satisfies L predicates)).filterMap (fun row => L.text (row "_row_id"))

/-- A snapshot holds the keys and the ids of the rows of a table; the id is no key. -/
structure SnapshotOf (index : CatalogIndex) (rows : List (String → Cell))
    (data : SnapshotData Cell) : Prop where
  columns : data.columns = index.columns ++ ["_row_id"]
  entries : data.rows.Perm (rows.map (fun row => data.columns.map row))
  rowId : "_row_id" ∉ index.columns

/-- The snapshots of indexes are those of a table. -/
def Snapshots (rows : List (String → Cell)) (indexes : List CatalogIndex) : Prop :=
  ∀ index ∈ indexes, ∀ version data, L.readIndexSnapshot index.name = .ok (some version) →
    L.readData index.name version = .ok (some data) → SnapshotOf index rows data

/-- The same rows are found, or none, or finding them fails. -/
def SameRows : Except String (Option (CatalogIndex × List String)) →
    Except String (Option (CatalogIndex × List String)) → Prop
  | .error _, .error _ => True
  | .ok none, .ok none => True
  | .ok (some found), .ok (some found') => found.2.Perm found'.2
  | _, _ => False

/-- Whichever index is taken, in any order of the indexes, its row ids are those of the rows that
satisfy the predicates, the columns of the predicates are its own, and the rows are the same in any
order. -/
structure Sound (predicates : KeyMap (IndexPredicate String)) (rows : List (String → Cell))
    (indexes : List CatalogIndex) : Prop where
  exact : ∀ order : List CatalogIndex, order.Perm indexes → ∀ index rowIds,
    bestIndexMatch L predicates order = .ok (some (index, rowIds)) →
      index ∈ indexes ∧ rowIds.Perm (matchingIds L predicates rows)
  belongs : ∀ order : List CatalogIndex, order.Perm indexes → ∀ index rowIds,
    bestIndexMatch L predicates order = .ok (some (index, rowIds)) →
      ∀ name ∈ predicates, L.column name ∈ index.columns
  order : ∀ order : List CatalogIndex, order.Perm indexes →
    SameRows (bestIndexMatch L predicates order) (bestIndexMatch L predicates indexes)

/-! ### When an index can answer -/

/-- The columns of an index that are counted: those up to the first one without a predicate, or to
a first range. -/
def countedColumns (predicates : KeyMap (IndexPredicate String)) : List String → List String
  | [] => []
  | column :: columns =>
    match findIndexPredicate predicates column with
    | none => []
    | some (.range _ _) => [column]
    | some _ => column :: countedColumns predicates columns

/-- As many columns of an index are counted as there are predicates. -/
def Counted (predicates : KeyMap (IndexPredicate String)) (index : CatalogIndex) : Prop :=
  (countedColumns predicates index.columns).length = predicates.size ∧ predicates.size ≠ 0

/-- The data that is there to be filtered for an index. -/
def Filtered (predicates : KeyMap (IndexPredicate String)) (index : CatalogIndex)
    (data : SnapshotData Cell) : Prop :=
  Counted predicates index ∧ ∃ version, L.readIndexSnapshot index.name = .ok (some version)
    ∧ L.readData index.name version = .ok (some data)

/-- An index cannot be asked: reading it fails, or filtering it does, as when a column of the
predicates is not in its snapshot. -/
def Fails (predicates : KeyMap (IndexPredicate String)) (index : CatalogIndex) : Prop :=
  (∃ e, L.readIndexSnapshot index.name = .error e)
    ∨ (Counted predicates index ∧ ∃ version, L.readIndexSnapshot index.name = .ok (some version)
      ∧ ∃ e, L.readData index.name version = .error e)
    ∨ ∃ data, Filtered L predicates index data ∧ ((∃ name ∈ predicates, L.column name ∉ data.columns)
      ∨ "_row_id" ∉ data.columns ∨ (L.collectError predicates data).isSome)

/-! ### The counted columns -/

/-- The walk along the columns of an index counts its columns. -/
theorem coverage_counted (predicates : KeyMap (IndexPredicate String)) (columns : List String)
    (covered : Coverage) :
  (coverage predicates columns covered).coveredPredicateColumns
      = covered.coveredPredicateColumns + (countedColumns predicates columns).length
    ∧ ((coverage predicates columns covered).matchedPrefixLen = 0
        ∧ (coverage predicates columns covered).hasRange = false
      ↔ (covered.matchedPrefixLen = 0 ∧ covered.hasRange = false)
        ∧ countedColumns predicates columns = [])
  := by
  induction columns generalizing covered with
  | nil => simp [coverage, countedColumns]
  | cons column columns ih =>
      rw [coverage, countedColumns]
      cases findIndexPredicate predicates column with
      | none => simp
      | some predicate =>
          cases predicate with
          | range lower upper => simp
          | eq value =>
              simp only [ih, List.length_cons]
              refine ⟨by omega, ?_⟩
              simp
          | inList values =>
              simp only [ih, List.length_cons]
              refine ⟨by omega, ?_⟩
              simp

/-- An index is turned down before its data is read when its columns are not counted. -/
theorem candidateRowIds_of_not_counted {predicates : KeyMap (IndexPredicate String)}
    {index : CatalogIndex} {version : String} (h : ¬ Counted predicates index) :
  candidateRowIdsFromSnapshot L predicates index version = .ok none
  := by
  obtain ⟨hcovered, hnone⟩ := coverage_counted predicates index.columns ⟨0, false, 0⟩
  rw [candidateRowIdsFromSnapshot]
  split
  · rfl
  · rename_i hsome
    rw [hnone] at hsome
    rw [if_pos]
    intro heq
    rw [hcovered, Nat.zero_add] at heq
    refine h ⟨heq, ?_⟩
    intro hsize
    rw [hsize, List.length_eq_zero_iff] at heq
    exact hsome ⟨⟨rfl, rfl⟩, heq⟩

/-- An index offers candidates when its columns are counted and its data is there. -/
theorem candidateRowIds_of_counted {predicates : KeyMap (IndexPredicate String)}
    {index : CatalogIndex} {version : String} (h : Counted predicates index) :
  candidateRowIdsFromSnapshot L predicates index version = (do
    match ← L.readData index.name version with
    | none => .ok none
    | some data => do
      let rowIds ← filteredRowIds L predicates data
      .ok (some ⟨index, rowIds, (coverage predicates index.columns ⟨0, false, 0⟩).matchedPrefixLen,
        (coverage predicates index.columns ⟨0, false, 0⟩).hasRange⟩))
  := by
  obtain ⟨hcovered, hnone⟩ := coverage_counted predicates index.columns ⟨0, false, 0⟩
  rw [candidateRowIdsFromSnapshot, if_neg, if_neg]
  · rw [hcovered, Nat.zero_add, h.1]
    exact not_not_intro rfl
  · rw [hnone]
    rintro ⟨-, hempty⟩
    rw [Counted, hempty] at h
    exact h.2 h.1.symm

theorem filterRows_ok_iff (data : SnapshotData Cell) (entries : List (String × IndexPredicate String))
    (rows left : List (List Cell)) :
  filterRows L data entries rows = .ok left
    ↔ (∀ entry ∈ entries, L.column entry.1 ∈ data.columns)
      ∧ left = rows.filter (fun row => entries.all (fun entry =>
        (data.cell row (L.column entry.1)).bind (filterTruth L · entry.2) = some true))
  := by
  induction entries generalizing rows with
  | nil => simp [filterRows, eq_comm]
  | cons entry entries ih =>
      rw [filterRows, List.forall_mem_cons]
      split
      · rename_i hmem
        rw [ih, List.filter_filter, and_iff_right hmem]
        simp only [List.all_cons, Bool.and_comm]
      · rename_i hmem
        simp [hmem]

/-- Filtering a snapshot. -/
theorem filteredRowIds_ok_iff {predicates : KeyMap (IndexPredicate String)}
    {data : SnapshotData Cell} {rowIds : List String} :
  filteredRowIds L predicates data = .ok rowIds
    ↔ (∀ entry ∈ predicates.toList, L.column entry.1 ∈ data.columns) ∧ "_row_id" ∈ data.columns
      ∧ L.collectError predicates data = none
      ∧ rowIds = (L.collect (data.rows.filter (fun row => predicates.toList.all (fun entry =>
          (data.cell row (L.column entry.1)).bind (filterTruth L · entry.2) = some true)))).filterMap
          (fun row => (data.cell row "_row_id").bind L.text)
  := by
  rw [filteredRowIds, Except.bind_eq_ok_iff]
  simp only [filterRows_ok_iff]
  constructor
  · rintro ⟨rows, ⟨hknown, rfl⟩, h⟩
    split at h
    · cases h
    · rename_i hid
      split at h
      · cases h
      · rename_i hcollect
        cases h
        exact ⟨hknown, not_not.mp hid, hcollect, rfl⟩
  · rintro ⟨hknown, hid, hcollect, rfl⟩
    refine ⟨_, ⟨hknown, rfl⟩, ?_⟩
    rw [if_neg (not_not_intro hid), hcollect]

theorem forall_toList_iff (predicates : KeyMap (IndexPredicate String)) (P : String → Prop) :
  (∀ entry ∈ predicates.toList, P entry.1) ↔ ∀ name ∈ predicates, P name
  := by
  constructor
  · intro h name hname
    obtain ⟨predicate, hpredicate⟩ := Option.isSome_iff_exists.mp
      (Std.ExtTreeMap.isSome_getElem?_iff_mem.mpr hname)
    exact h (name, predicate) (Std.ExtTreeMap.mem_toList_iff_getElem?_eq_some.mpr hpredicate)
  · rintro h ⟨name, predicate⟩ hentry
    apply h name
    rw [← Std.ExtTreeMap.isSome_getElem?_iff_mem,
      Std.ExtTreeMap.mem_toList_iff_getElem?_eq_some.mp hentry]
    rfl

/-- The cells of a row of a snapshot are those of the row of the table. -/
theorem cell_map (data : SnapshotData Cell) (row : String → Cell) {column : String}
    (h : column ∈ data.columns) :
  data.cell (data.columns.map row) column = some (row column)
  := by
  rw [← List.isSome_idxOf?, Option.isSome_iff_exists] at h
  obtain ⟨i, hi⟩ := h
  obtain ⟨hlt, hget, -⟩ := List.idxOf?_eq_some_iff.mp hi
  rw [SnapshotData.cell, hi, Option.bind_some, List.getElem?_map, List.getElem?_eq_getElem hlt, hget]
  rfl

/-- What is left of a snapshot of a table is what the table has. -/
theorem filteredRowIds_perm {predicates : KeyMap (IndexPredicate String)} {index : CatalogIndex}
    {rows : List (String → Cell)} {data : SnapshotData Cell} (hdata : SnapshotOf index rows data)
    {rowIds : List String} (h : filteredRowIds L predicates data = .ok rowIds) :
  rowIds.Perm (matchingIds L predicates rows)
  := by
  obtain ⟨hknown, hid, -, rfl⟩ := (filteredRowIds_ok_iff L).mp h
  refine ((L.collect_perm _).filterMap _).trans ?_
  refine ((hdata.entries.filter _).filterMap _).trans (List.Perm.of_eq ?_)
  rw [List.filter_map, List.filterMap_map, matchingIds]
  have hsatisfies : ∀ row : String → Cell,
      predicates.toList.all (fun entry => (data.cell (data.columns.map row) (L.column entry.1)).bind
        (filterTruth L · entry.2) = some true) = satisfies L predicates row := by
    intro row
    rw [satisfies, Bool.eq_iff_iff, List.all_eq_true, List.all_eq_true]
    apply forall₂_congr
    intro entry hentry
    rw [cell_map data row (hknown entry hentry), Option.bind_some]
  congr 1
  · funext row
    rw [Function.comp_apply, cell_map data row hid, Option.bind_some]
  · apply List.filter_congr
    intro row _
    exact hsatisfies row

/-- Filtering a snapshot fails. -/
theorem filteredRowIds_error_iff {predicates : KeyMap (IndexPredicate String)}
    {data : SnapshotData Cell} :
  (¬ ∃ rowIds, filteredRowIds L predicates data = .ok rowIds)
    ↔ (∃ name ∈ predicates, L.column name ∉ data.columns) ∨ "_row_id" ∉ data.columns
      ∨ (L.collectError predicates data).isSome
  := by
  simp only [filteredRowIds_ok_iff, exists_and_left, exists_eq, and_true,
    forall_toList_iff predicates (fun name => L.column name ∈ data.columns), not_and_or,
    Option.isSome_iff_ne_none]
  simp

section

variable {predicates : KeyMap (IndexPredicate String)} {index : CatalogIndex}

theorem candidate_of_version {version : String}
    (h : L.readIndexSnapshot index.name = .ok (some version)) :
  candidate L predicates index = candidateRowIdsFromSnapshot L predicates index version
  := by
  rw [candidate, h]
  rfl

/-- What an index offers is what is left of its data. -/
theorem candidate_some {found : Candidate} (h : candidate L predicates index = .ok (some found)) :
  found.index = index ∧ ∃ data, Filtered L predicates index data
    ∧ filteredRowIds L predicates data = .ok found.rowIds
  := by
  cases hversion : L.readIndexSnapshot index.name with
  | error e =>
      rw [candidate, hversion] at h
      cases h
  | ok snapshot =>
      cases snapshot with
      | none =>
          rw [candidate, hversion] at h
          cases h
      | some version =>
          rw [candidate_of_version L hversion] at h
          by_cases hcounted : Counted predicates index
          · rw [candidateRowIds_of_counted L hcounted] at h
            obtain ⟨read, hread, h⟩ := Except.bind_eq_ok_iff.mp h
            cases read with
            | none => cases h
            | some data =>
                obtain ⟨rowIds, hrowIds, h⟩ := Except.bind_eq_ok_iff.mp h
                cases h
                exact ⟨rfl, data, ⟨hcounted, version, hversion, hread⟩, hrowIds⟩
          · rw [candidateRowIds_of_not_counted L hcounted] at h
            cases h

/-- An index whose data is filtered offers what is left. -/
theorem candidate_of_filtered {data : SnapshotData Cell} {rowIds : List String}
    (hfiltered : Filtered L predicates index data)
    (hrowIds : filteredRowIds L predicates data = .ok rowIds) :
  ∃ found, candidate L predicates index = .ok (some found)
  := by
  obtain ⟨hcounted, version, hversion, hread⟩ := hfiltered
  rw [candidate_of_version L hversion, candidateRowIds_of_counted L hcounted, hread]
  simp [bind, Except.bind, hrowIds]

theorem candidate_ok_iff :
  (∃ asked, candidate L predicates index = .ok asked) ↔ ¬ Fails L predicates index
  := by
  constructor
  · rintro ⟨asked, hasked⟩ (⟨e, he⟩ | ⟨hcounted, version, hversion, e, he⟩ | ⟨data, hfiltered, hfails⟩)
    · rw [candidate, he] at hasked
      cases hasked
    · rw [candidate_of_version L hversion, candidateRowIds_of_counted L hcounted, he] at hasked
      cases hasked
    · rw [← filteredRowIds_error_iff] at hfails
      obtain ⟨hcounted, version, hversion, hread⟩ := hfiltered
      rw [candidate_of_version L hversion, candidateRowIds_of_counted L hcounted, hread] at hasked
      obtain ⟨read, hsome, hasked⟩ := Except.bind_eq_ok_iff.mp hasked
      cases hsome
      obtain ⟨rowIds, hrowIds, -⟩ := Except.bind_eq_ok_iff.mp hasked
      exact hfails ⟨rowIds, hrowIds⟩
  · intro h
    cases hversion : L.readIndexSnapshot index.name with
    | error e => exact absurd (.inl ⟨e, hversion⟩) h
    | ok snapshot =>
        cases snapshot with
        | none => exact ⟨none, by rw [candidate, hversion]; rfl⟩
        | some version =>
            by_cases hcounted : Counted predicates index
            · cases hread : L.readData index.name version with
              | error e => exact absurd (.inr (.inl ⟨hcounted, version, hversion, e, hread⟩)) h
              | ok read =>
                  cases read with
                  | none =>
                      refine ⟨none, ?_⟩
                      rw [candidate_of_version L hversion, candidateRowIds_of_counted L hcounted,
                        hread]
                      rfl
                  | some data =>
                      have hfiltered : Filtered L predicates index data :=
                        ⟨hcounted, version, hversion, hread⟩
                      have hrowIds : ∃ rowIds, filteredRowIds L predicates data = .ok rowIds := by
                        by_contra hnot
                        exact h (.inr (.inr ⟨data, hfiltered,
                          (filteredRowIds_error_iff L).mp hnot⟩))
                      obtain ⟨rowIds, hrowIds⟩ := hrowIds
                      obtain ⟨found, hfound⟩ := candidate_of_filtered L hfiltered hrowIds
                      exact ⟨some found, hfound⟩
            · refine ⟨none, ?_⟩
              rw [candidate_of_version L hversion, candidateRowIds_of_not_counted L hcounted]

/-- Something is left of the data of an index that can be asked. -/
theorem filteredRowIds_of_not_fails {data : SnapshotData Cell}
    (hfiltered : Filtered L predicates index data) (h : ¬ Fails L predicates index) :
  ∃ rowIds, filteredRowIds L predicates data = .ok rowIds
  := by
  by_contra hnot
  exact h (.inr (.inr ⟨data, hfiltered, (filteredRowIds_error_iff L).mp hnot⟩))

end

/-! ### The best match -/

section

variable {predicates : KeyMap (IndexPredicate String)} {indexes : List CatalogIndex}

theorem bestIndexMatch_ok_iff {best : Option (CatalogIndex × List String)} :
  bestIndexMatch L predicates indexes = .ok best
    ↔ ∃ found, Best.search (candidate L predicates) Candidate.replaces none indexes = .ok found
      ∧ best = found.map (fun found => (found.index, found.rowIds))
  := by
  rw [bestIndexMatch, Except.bind_eq_ok_iff]
  simp [eq_comm]

/-- A match fails just when an index cannot be asked. -/
theorem bestIndexMatch_total :
  (∃ best, bestIndexMatch L predicates indexes = .ok best)
    ↔ ∀ index ∈ indexes, ¬ Fails L predicates index
  := by
  simp only [← candidate_ok_iff, ← Best.search_ok_iff (candidate L predicates)
    Candidate.replaces none, bestIndexMatch_ok_iff]
  constructor
  · rintro ⟨best, found, hfound, -⟩
    exact ⟨found, hfound⟩
  · rintro ⟨found, hfound⟩
    exact ⟨_, found, hfound, rfl⟩

/-- The index of a match was filtered, and the row ids are what was left. -/
theorem bestIndexMatch_some {index : CatalogIndex} {rowIds : List String}
    (h : bestIndexMatch L predicates indexes = .ok (some (index, rowIds))) :
  index ∈ indexes ∧ ∃ data, Filtered L predicates index data
    ∧ filteredRowIds L predicates data = .ok rowIds
  := by
  obtain ⟨found, hfound, hbest⟩ := (bestIndexMatch_ok_iff L).mp h
  obtain ⟨c, rfl, hc⟩ := Option.map_eq_some_iff.mp hbest.symm
  cases hc
  obtain hnone | ⟨index', hmem, hasked⟩ := Best.mem_of_search hfound
  · cases hnone
  · obtain ⟨rfl, hdata⟩ := candidate_some L hasked
    exact ⟨hmem, hdata⟩

/-- An index is found just when no index fails and the data of one is filtered. -/
theorem bestIndexMatch_finds :
  (∃ found, bestIndexMatch L predicates indexes = .ok (some found))
    ↔ (∀ index ∈ indexes, ¬ Fails L predicates index)
      ∧ ∃ index ∈ indexes, ∃ data, Filtered L predicates index data
  := by
  constructor
  · rintro ⟨⟨index, rowIds⟩, hfound⟩
    obtain ⟨hmem, data, hfiltered, -⟩ := bestIndexMatch_some L hfound
    exact ⟨(bestIndexMatch_total L).mp ⟨_, hfound⟩, index, hmem, data, hfiltered⟩
  · rintro ⟨hok, index, hmem, data, hfiltered⟩
    obtain ⟨rowIds, hrowIds⟩ := filteredRowIds_of_not_fails L hfiltered (hok index hmem)
    obtain ⟨found, hfound⟩ := candidate_of_filtered L hfiltered hrowIds
    have hasked : ∀ index ∈ indexes, ∃ asked, candidate L predicates index = .ok asked :=
      fun index hindex => (candidate_ok_iff L).mpr (hok index hindex)
    obtain ⟨best, hbest⟩ := (Best.search_finds (candidate L predicates)
      Candidate.replaces).mpr ⟨hasked, index, hmem, found, hfound⟩
    exact ⟨_, (bestIndexMatch_ok_iff L).mpr ⟨some best, hbest, rfl⟩⟩

/-- The row ids of a match are those of the rows that satisfy the predicates, and the columns of the
predicates are in the snapshot of its index. -/
theorem bestIndexMatch_exact {rows : List (String → Cell)} (hsnapshots : Snapshots L rows indexes)
    {index : CatalogIndex} {rowIds : List String}
    (h : bestIndexMatch L predicates indexes = .ok (some (index, rowIds))) :
  rowIds.Perm (matchingIds L predicates rows)
    ∧ ∀ name ∈ predicates, L.column name ∈ index.columns ∨ L.column name = "_row_id"
  := by
  obtain ⟨hmem, data, hfiltered, hrowIds⟩ := bestIndexMatch_some L h
  obtain ⟨-, version, hversion, hread⟩ := hfiltered
  have hdata := hsnapshots index hmem version data hversion hread
  refine ⟨filteredRowIds_perm L hdata hrowIds, ?_⟩
  have hknown := ((filteredRowIds_ok_iff L).mp hrowIds).1
  rw [forall_toList_iff predicates (fun name => L.column name ∈ data.columns)] at hknown
  intro name hname
  have hcolumn := hknown name hname
  rwa [hdata.columns, List.mem_append, List.mem_singleton] at hcolumn

theorem Snapshots.perm {rows : List (String → Cell)} (h : Snapshots L rows indexes)
    {order : List CatalogIndex} (horder : order.Perm indexes) :
  Snapshots L rows order
  := fun index hindex => h index (horder.mem_iff.mp hindex)

/-- The rows that are found are the same in any order of the indexes. -/
theorem bestIndexMatch_sameRows {rows : List (String → Cell)} (h : Snapshots L rows indexes)
    {order : List CatalogIndex} (horder : order.Perm indexes) :
  SameRows (bestIndexMatch L predicates order) (bestIndexMatch L predicates indexes)
  := by
  have htotal : (∃ best, bestIndexMatch L predicates order = .ok best)
      ↔ ∃ best, bestIndexMatch L predicates indexes = .ok best := by
    rw [bestIndexMatch_total, bestIndexMatch_total]
    exact forall_congr' (fun index => imp_congr_left horder.mem_iff)
  have hfinds : (∃ found, bestIndexMatch L predicates order = .ok (some found))
      ↔ ∃ found, bestIndexMatch L predicates indexes = .ok (some found) := by
    rw [bestIndexMatch_finds, bestIndexMatch_finds]
    apply and_congr
    · exact forall_congr' (fun index => imp_congr_left horder.mem_iff)
    · exact exists_congr (fun index => and_congr_left' horder.mem_iff)
  cases horder' : bestIndexMatch L predicates order with
  | error e =>
      rw [horder'] at htotal
      cases hindexes : bestIndexMatch L predicates indexes with
      | error e' => trivial
      | ok best =>
          obtain ⟨_, h⟩ := htotal.mpr ⟨best, hindexes⟩
          cases h
  | ok best =>
      obtain ⟨best', hbest'⟩ := htotal.mp ⟨best, horder'⟩
      rw [hbest']
      rw [horder', hbest'] at hfinds
      cases best with
      | none =>
          cases best' with
          | none => trivial
          | some found' =>
              obtain ⟨_, h⟩ := hfinds.mpr ⟨found', rfl⟩
              cases h
      | some found =>
          cases best' with
          | none =>
              obtain ⟨_, h⟩ := hfinds.mp ⟨found, rfl⟩
              cases h
          | some found' =>
              exact (bestIndexMatch_exact L (h.perm L horder) horder').1.trans
                (bestIndexMatch_exact L h hbest').1.symm

/-- Matches are sound just when there is no predicate of the row id, or the data of no index is
filtered, or an index cannot be asked. -/
theorem sound_iff {rows : List (String → Cell)} (h : Snapshots L rows indexes) :
  Sound L predicates rows indexes
    ↔ (∀ name ∈ predicates, L.column name ≠ "_row_id")
      ∨ (∀ index ∈ indexes, ∀ data, ¬ Filtered L predicates index data)
      ∨ ∃ index ∈ indexes, Fails L predicates index
  := by
  constructor
  · intro hsound
    by_contra hnot
    push Not at hnot
    obtain ⟨⟨name, hname, hrowId⟩, hfiltered, hok⟩ := hnot
    obtain ⟨⟨index, rowIds⟩, hfound⟩ := (bestIndexMatch_finds L).mpr ⟨hok, hfiltered⟩
    have hbelongs := hsound.belongs indexes (List.Perm.refl _) index rowIds hfound name hname
    obtain ⟨hmem, data, ⟨-, version, hversion, hread⟩, -⟩ := bestIndexMatch_some L hfound
    rw [hrowId] at hbelongs
    exact (h index hmem version data hversion hread).rowId hbelongs
  · intro hcondition
    refine ⟨?_, ?_, fun order horder => bestIndexMatch_sameRows L h horder⟩
    · intro order horder index rowIds hfound
      exact ⟨horder.mem_iff.mp (bestIndexMatch_some L hfound).1,
        (bestIndexMatch_exact L (h.perm L horder) hfound).1⟩
    · intro order horder index rowIds hfound name hname
      obtain hcolumn | hrowId := (bestIndexMatch_exact L (h.perm L horder) hfound).2 name hname
      · exact hcolumn
      obtain ⟨hmem, data, hfiltered, -⟩ := bestIndexMatch_some L hfound
      obtain hnone | hunfiltered | ⟨failing, hfailing, hfails⟩ := hcondition
      · exact absurd hrowId (hnone name hname)
      · exact absurd hfiltered (hunfiltered index (horder.mem_iff.mp hmem) data)
      · exact absurd hfails ((bestIndexMatch_total L).mp ⟨_, hfound⟩ failing
          (horder.mem_iff.mpr hfailing))

end

end

/-! ### Columns that differ in more than case -/

/-- The columns of an index differ in more than the case of their letters, and from the row id. -/
def Distinguished (index : CatalogIndex) : Prop :=
  ("_row_id" :: index.columns).Pairwise (fun a b => eqIgnoreAsciiCase a b = false)

section

variable {predicates : KeyMap (IndexPredicate String)}

theorem findIndexPredicate_eq_some {column : String} {predicate : IndexPredicate String}
    (h : findIndexPredicate predicates column = some predicate) :
  ∃ name ∈ predicates, eqIgnoreAsciiCase name column = true
  := by
  obtain ⟨⟨name, predicate'⟩, hfind, -⟩ := Option.map_eq_some_iff.mp h
  have hname := List.find?_some hfind
  refine ⟨name, ?_, hname⟩
  have hentry := Std.ExtTreeMap.mem_toList_iff_getElem?_eq_some.mp (List.mem_of_find?_eq_some hfind)
  rw [← Std.ExtTreeMap.isSome_getElem?_iff_mem, hentry]
  rfl

variable (predicates) in
/-- Each counted column has a predicate. -/
theorem countedColumns_names (columns : List String) :
  ∃ names : List String, List.Forall₂ (fun column name => name ∈ predicates
    ∧ eqIgnoreAsciiCase name column = true) (countedColumns predicates columns) names
  := by
  induction columns with
  | nil => exact ⟨[], .nil⟩
  | cons column columns ih =>
      rw [countedColumns]
      cases hfind : findIndexPredicate predicates column with
      | none => exact ⟨[], .nil⟩
      | some predicate =>
          obtain ⟨name, hname⟩ := findIndexPredicate_eq_some hfind
          cases predicate with
          | range lower upper => exact ⟨[name], .cons hname .nil⟩
          | eq | inList =>
              obtain ⟨names, hnames⟩ := ih
              exact ⟨name :: names, .cons hname hnames⟩

variable (predicates) in
theorem countedColumns_sublist (columns : List String) :
  (countedColumns predicates columns).Sublist columns
  := by
  induction columns with
  | nil => exact List.Sublist.refl _
  | cons column columns ih =>
      rw [countedColumns]
      split
      · exact List.nil_sublist _
      · exact (List.nil_sublist columns).cons_cons column
      · exact ih.cons_cons column

/-- Columns that differ in more than case have predicates of different names. -/
theorem nodup_of_names {columns names : List String}
    (h : List.Forall₂ (fun column name => name ∈ predicates
      ∧ eqIgnoreAsciiCase name column = true) columns names)
    (hcolumns : columns.Pairwise (fun a b => eqIgnoreAsciiCase a b = false)) :
  names.Nodup
  := by
  induction h with
  | nil => exact List.nodup_nil
  | @cons column name columns names hname htail ih =>
      rw [List.pairwise_cons] at hcolumns
      rw [List.nodup_cons]
      refine ⟨?_, ih hcolumns.2⟩
      intro hmem
      obtain ⟨other, hother, -, heq⟩ := htail.flip.exists_mem hmem
      have hne := hcolumns.1 other hother
      rw [eqIgnoreAsciiCase, decide_eq_false_iff_not] at hne
      rw [eqIgnoreAsciiCase, decide_eq_true_eq] at heq hname
      exact hne (hname.2.symm.trans heq)

/-- The counted columns of an index are those of all predicates when its columns differ in more than
case. -/
theorem Counted.covers {index : CatalogIndex} (h : Counted predicates index)
    (hindex : Distinguished index) :
  ∀ name ∈ predicates, ∃ column ∈ index.columns, eqIgnoreAsciiCase name column = true
  := by
  have hsublist := countedColumns_sublist predicates index.columns
  obtain ⟨names, hnames⟩ := countedColumns_names predicates index.columns
  have hnodup := nodup_of_names hnames ((List.pairwise_cons.mp hindex).2.sublist hsublist)
  have hsubset : names ⊆ predicates.keys := by
    intro name hname
    obtain ⟨column, -, hmem, -⟩ := hnames.flip.exists_mem hname
    exact Std.ExtTreeMap.mem_keys.mpr hmem
  have hlength : predicates.keys.length ≤ names.length := by
    rw [Std.ExtTreeMap.length_keys, ← hnames.length_eq, h.1]
  have hperm := (List.subperm_of_subset hnodup hsubset).perm_of_length_le hlength
  intro name hname
  obtain ⟨column, hcolumn, -, heq⟩ := hnames.flip.exists_mem
    (hperm.mem_iff.mpr (Std.ExtTreeMap.mem_keys.mpr hname))
  exact ⟨column, hsublist.subset hcolumn, heq⟩

/-- Matches are sound when the columns of every index differ in more than case, and names are read
as they are but for case. -/
theorem sound_of_distinguished {Cell : Type} (L : Lookup Cell) {rows : List (String → Cell)}
    {indexes : List CatalogIndex} (h : Snapshots L rows indexes)
    (hindexes : ∀ index ∈ indexes, Distinguished index)
    (hnames : ∀ name ∈ predicates, eqIgnoreAsciiCase name (L.column name) = true) :
  Sound L predicates rows indexes
  := by
  rw [sound_iff L h]
  by_cases hrowId : ∃ name ∈ predicates, L.column name = "_row_id"
  · obtain ⟨name, hname, hcolumn⟩ := hrowId
    refine .inr (.inl ?_)
    rintro index hindex data ⟨hcounted, -⟩
    obtain ⟨column, hmem, heq⟩ := hcounted.covers (hindexes index hindex) name hname
    have hne := (List.pairwise_cons.mp (hindexes index hindex)).1 column hmem
    have hread := hnames name hname
    rw [hcolumn] at hread
    rw [eqIgnoreAsciiCase, decide_eq_false_iff_not] at hne
    rw [eqIgnoreAsciiCase, decide_eq_true_eq] at heq hread
    exact hne (hread.symm.trans heq)
  · push Not at hrowId
    exact .inl hrowId

end

/-! ### An index of columns that differ in case -/

/-- A table of the columns `a` and `A` has two rows. -/
def twoRows : List (String → String) :=
  [fun column => if column = "a" then "1" else if column = "A" then "x" else "r1",
    fun column => if column = "a" then "2" else if column = "A" then "y" else "r2"]

/-- The index on both of its columns. -/
def bothColumns : CatalogIndex := ⟨"t_a_A", ["a", "A"], false, false⟩

/-- What is stored of it. -/
def storedBoth : Lookup String where
  readIndexSnapshot _ := .ok (some "v1")
  readData _ _ := .ok (some ⟨["a", "A", "_row_id"], [["1", "x", "r1"], ["2", "y", "r2"]]⟩)
  column := asciiLowercase
  compare
    | .eq, cell, text => some (cell = text)
    | _, _, _ => none
  collectError _ _ := none
  collect rows := rows
  collect_perm := List.Perm.refl
  text := some

theorem storedBoth_snapshots : Snapshots storedBoth twoRows [bothColumns]
  := by
  intro index hindex version data _ hread
  obtain rfl := List.mem_singleton.mp hindex
  cases hread
  exact ⟨rfl, List.Perm.of_eq (by decide), by decide⟩

theorem bothColumns_sound :
  Sound storedBoth ((∅ : KeyMap (IndexPredicate String)).insert "a" (.eq "1")) twoRows [bothColumns]
  := by
  apply (sound_iff storedBoth storedBoth_snapshots).mpr
  left
  intro name hname
  rw [← Std.ExtTreeMap.isSome_getElem?_iff_mem, KeyMap.get_insert] at hname
  split at hname
  · rename_i heq
    subst heq
    decide
  · simp at hname

/-- `a = 1 AND _row_id = 'r1'`: the index is taken, and it has no column of row ids. -/
theorem not_sound :
  Snapshots storedBoth twoRows [bothColumns]
    ∧ ¬ Sound storedBoth (((∅ : KeyMap (IndexPredicate String)).insert "a" (.eq "1")).insert "_row_id"
      (.eq "r1")) twoRows [bothColumns]
  := by
  refine ⟨storedBoth_snapshots, ?_⟩
  intro h
  have hfound : bestIndexMatch storedBoth (((∅ : KeyMap (IndexPredicate String)).insert "a"
      (.eq "1")).insert "_row_id" (.eq "r1")) [bothColumns] = .ok (some (bothColumns, ["r1"])) := by
    rfl
  have hbelongs := h.belongs [bothColumns] (List.Perm.refl _) _ _ hfound "_row_id" (by simp)
  revert hbelongs
  decide

end IndexedSelect
