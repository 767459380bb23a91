import AnalyticsDB.Engine.Select
import AnalyticsDB.Lib.Dotted
import AnalyticsDB.Lib.Elementwise

/-!
# Keys of unique indexes

Before rows are written, the keys of a unique index in them are compared.  A key is one text: the
values of the columns, joined by a separator.  Different values can be joined to the same text.
-/

/-- Whether two texts agree up to the case of their ASCII letters. -/
def eqIgnoreAsciiCase (a b : String) : Bool := asciiLowercase a = asciiLowercase b

/-- The texts of the cells of rows; a cell without one has an empty text. -/
def recordBatchRows {α : Type} (text : α → Option String) (rows : List (List α)) :
    List (List String) :=
  rows.map (fun row => row.map (fun cell => (text cell).getD ""))

/-- The position of the column an index names, up to case. -/
def indexColumnPosition (relation : CatalogRelation) (column : String) : Except String Nat :=
  match relation.columns.findIdx? (fun c => eqIgnoreAsciiCase c.name column) with
  | some position => .ok position
  | none => .error
    s!"Column '{column}' not found in table '{relation.database}.{relation.schema}.{relation.name}'"

/-- The character that separates the values of a key. -/
def keySeparator : Char := Char.ofNat 0x1f

/-- The key of an index in a row. -/
def uniqueKey (positions : List Nat) (row : List String) : String :=
  (String.singleton keySeparator).intercalate
    (positions.map (fun position => row[position]?.getD ""))

/-- A key that occurs more than once. -/
def duplicateKey (keys : List String) : Option String :=
  keys.find? (fun key => 1 < keys.count key)

/-- No two rows may have the same key in a unique index. -/
def validateUniqueIndexRows (relation : CatalogRelation) (index : CatalogIndex)
    (rows : List (List String)) : Except String Unit :=
  if !index.isUnique && !index.isPrimary then .ok ()
  else do
    let positions ← index.columns.mapM (indexColumnPosition relation)
    match duplicateKey (rows.map (uniqueKey positions)) with
    | some key =>
      let shown := String.ofList (key.toList.map (fun c => if c = keySeparator then ',' else c))
      throw s!"Unique index '{index.name}' on '{relation.database}.{relation.schema}.{relation.name}' would contain duplicate key '{shown}'"
    | none => return ()

def validateUniqueIndexesForRows (relation : CatalogRelation) (rows : List (List String)) :
    List CatalogIndex → Except String Unit
  | [] => .ok ()
  | index :: indexes => do
    if index.isUnique || index.isPrimary then
      validateUniqueIndexRows relation index rows
    validateUniqueIndexesForRows relation rows indexes

namespace UniqueKeys

/-! ### Rows that agree -/

section

variable {α : Type} (text : α → Option String) (relation : CatalogRelation) (index : CatalogIndex)

/-- The value of a row in a column; none is missing. -/
def columnValue (row : List α) (column : String) : Option String :=
  ((relation.columns.findIdx? (fun c => c.name = column)).bind (row[·]?)).bind text

/-- Two rows agree on every column of an index. -/
def Agree (row row' : List α) : Prop :=
  ∀ column ∈ index.columns, columnValue text relation row column
    = columnValue text relation row' column

/-- The value of a row in the first column of a name, up to case. -/
def foundValue (row : List α) (column : String) : Option String :=
  ((relation.columns.findIdx? (fun c => eqIgnoreAsciiCase c.name column)).bind (row[·]?)).bind text

/-- The pieces of a row: its values one after the other, a missing one empty, cut where they contain
the separator. -/
def keyPieces (row : List α) : List (List Char) :=
  index.columns.flatMap (fun column =>
    ((foundValue text relation row column).getD "").toList.splitOn keySeparator)

/-- Two different rows are related. -/
def TwoRows (R : List α → List α → Prop) (rows : List (List α)) : Prop :=
  ∃ (i j : Nat) (row row' : List α), i < j ∧ rows[i]? = some row ∧ rows[j]? = some row' ∧ R row row'

/-- The check fails just when two different rows agree on every column of the index. -/
def Exact (rows : List (List α)) : Prop :=
  (∃ e, validateUniqueIndexRows relation index (recordBatchRows text rows) = .error e)
    ↔ TwoRows (Agree text relation index) rows

end

/-! ### Keys that are the same -/

theorem duplicateKey_isSome_iff (keys : List String) : (duplicateKey keys).isSome ↔ ¬ keys.Nodup
  := by
  rw [duplicateKey, List.find?_isSome, List.nodup_iff_count_le_one]
  simp only [decide_eq_true_eq, not_forall, not_le]
  constructor
  · rintro ⟨key, -, hcount⟩
    exact ⟨key, hcount⟩
  · rintro ⟨key, hcount⟩
    exact ⟨key, List.count_pos_iff.mp (by omega), hcount⟩

section

variable {α : Type} {text : α → Option String} {relation : CatalogRelation} {index : CatalogIndex}

theorem not_nodup_map_iff (f : List α → String) (rows : List (List α)) :
  ¬ (rows.map f).Nodup ↔ TwoRows (fun row row' => f row = f row') rows
  := by
  rw [List.nodup_iff_getElem?_ne_getElem?]
  constructor
  · intro h
    push Not at h
    obtain ⟨i, j, hij, hj, heq⟩ := h
    rw [List.length_map] at hj
    rw [List.getElem?_map, List.getElem?_map, List.getElem?_eq_getElem (hij.trans hj),
      List.getElem?_eq_getElem hj] at heq
    exact ⟨i, j, _, _, hij, List.getElem?_eq_getElem (hij.trans hj), List.getElem?_eq_getElem hj,
      Option.some.inj heq⟩
  · rintro ⟨i, j, row, row', hij, hi, hj, heq⟩ h
    apply h i j hij
    · rw [List.length_map]
      exact (List.getElem?_eq_some_iff.mp hj).1
    · rw [List.getElem?_map, List.getElem?_map, hi, hj, Option.map_some, Option.map_some, heq]

theorem indexColumnPosition_ok_iff {column : String} {position : Nat} :
  indexColumnPosition relation column = .ok position
    ↔ relation.columns.findIdx? (fun c => eqIgnoreAsciiCase c.name column) = some position
  := by
  rw [indexColumnPosition]
  split
  · rename_i found hfound
    rw [hfound]
    simp
  · rename_i hnone
    rw [hnone]
    simp

/-- The columns of an index are found when the relation has them, up to case. -/
theorem exists_positions {columns : List String}
    (h : ∀ column ∈ columns, ∃ c ∈ relation.columns, eqIgnoreAsciiCase c.name column = true) :
  ∃ positions, columns.mapM (indexColumnPosition relation) = .ok positions
  := by
  induction columns with
  | nil => exact ⟨[], rfl⟩
  | cons column columns ih =>
      rw [List.forall_mem_cons] at h
      obtain ⟨positions, hpositions⟩ := ih h.2
      have hposition := indexColumnPosition_ok_iff.mpr (List.findIdx?_eq_some_of_exists h.1)
      rw [List.mapM_cons, hposition, hpositions]
      exact ⟨_, rfl⟩

/-- The key of a row joins its values in the columns of the index. -/
theorem uniqueKey_toList {positions : List Nat}
    (h : index.columns.mapM (indexColumnPosition relation) = .ok positions) (row : List α) :
  (uniqueKey positions (row.map (fun cell => (text cell).getD ""))).toList
    = [keySeparator].intercalate (index.columns.map (fun column =>
      ((foundValue text relation row column).getD "").toList))
  := by
  have hvalue : ∀ {column : String} {position : Nat},
      indexColumnPosition relation column = .ok position →
      ((row.map (fun cell => (text cell).getD ""))[position]?.getD "")
        = (foundValue text relation row column).getD "" := by
    intro column position hposition
    rw [foundValue, indexColumnPosition_ok_iff.mp hposition, Option.bind_some, List.getElem?_map]
    cases row[position]? <;> rfl
  have hvalues : positions.map (fun position =>
        (row.map (fun cell => (text cell).getD ""))[position]?.getD "")
      = index.columns.map (fun column => (foundValue text relation row column).getD "") := by
    have hpositions := List.mapM_ok_iff.mp h
    clear h
    generalize index.columns = columns at hpositions
    induction hpositions with
    | nil => rfl
    | cons hposition _ ih => rw [List.map_cons, List.map_cons, hvalue hposition, ih]
  rw [uniqueKey, String.toList_intercalate, hvalues, List.map_map, String.toList_singleton]
  rfl

/-- Keys are the same when the pieces are. -/
theorem uniqueKey_eq_iff {positions : List Nat}
    (h : index.columns.mapM (indexColumnPosition relation) = .ok positions) (row row' : List α) :
  uniqueKey positions (row.map (fun cell => (text cell).getD ""))
      = uniqueKey positions (row'.map (fun cell => (text cell).getD ""))
    ↔ keyPieces text relation index row = keyPieces text relation index row'
  := by
  rw [← String.toList_inj, uniqueKey_toList h, uniqueKey_toList h, keyPieces, keyPieces]
  cases hcolumns : index.columns with
  | nil => simp
  | cons column columns =>
      rw [Dotted.intercalate_eq_iff _ (by simp) (by simp), List.flatMap_map, List.flatMap_map]

/-- The check fails just when two rows have the same pieces. -/
theorem validateUniqueIndexRows_error_iff (hunique : index.isUnique = true ∨ index.isPrimary = true)
    (hknown : ∀ column ∈ index.columns, ∃ c ∈ relation.columns, c.name = column)
    (rows : List (List α)) :
  (∃ e, validateUniqueIndexRows relation index (recordBatchRows text rows) = .error e)
    ↔ TwoRows (fun row row' => keyPieces text relation index row
      = keyPieces text relation index row') rows
  := by
  have hpositions : ∃ positions,
      index.columns.mapM (indexColumnPosition relation) = .ok positions := by
    apply exists_positions
    intro column hcolumn
    obtain ⟨c, hc, hname⟩ := hknown column hcolumn
    exact ⟨c, hc, by simp [eqIgnoreAsciiCase, hname]⟩
  obtain ⟨positions, hpositions⟩ := hpositions
  have hkeys : (recordBatchRows text rows).map (uniqueKey positions)
      = rows.map (fun row => uniqueKey positions (row.map (fun cell => (text cell).getD ""))) := by
    rw [recordBatchRows, List.map_map]
    rfl
  have hnot : (!index.isUnique && !index.isPrimary) = false := by
    obtain h | h := hunique <;> simp [h]
  have hduplicate := duplicateKey_isSome_iff ((recordBatchRows text rows).map (uniqueKey positions))
  rw [hkeys, not_nodup_map_iff, ← hkeys] at hduplicate
  simp only [uniqueKey_eq_iff hpositions] at hduplicate
  rw [← hduplicate, validateUniqueIndexRows, if_neg (by simp [hnot]), hpositions]
  cases hkey : duplicateKey ((recordBatchRows text rows).map (uniqueKey positions)) with
  | none => simp [bind, Except.bind, pure, Except.pure, hkey]
  | some key => simp [bind, Except.bind, throw, throwThe, MonadExceptOf.throw, hkey]

theorem findIdx?_congr {β : Type} {p q : β → Bool} {list : List β}
    (h : ∀ b ∈ list, p b = q b) :
  list.findIdx? p = list.findIdx? q
  := by
  induction list with
  | nil => rfl
  | cons b list ih =>
      rw [List.forall_mem_cons] at h
      rw [List.findIdx?_cons, List.findIdx?_cons, h.1, ih h.2]

/-- Two rows that agree have the same pieces when the columns of the relation differ in more than
case. -/
theorem keyPieces_of_agree
    (hdistinct : ∀ c ∈ relation.columns, ∀ c' ∈ relation.columns,
      eqIgnoreAsciiCase c.name c'.name = true → c.name = c'.name)
    (hknown : ∀ column ∈ index.columns, ∃ c ∈ relation.columns, c.name = column)
    {row row' : List α} (h : Agree text relation index row row') :
  keyPieces text relation index row = keyPieces text relation index row'
  := by
  have hvalue : ∀ column ∈ index.columns, ∀ row : List α,
      foundValue text relation row column = columnValue text relation row column := by
    intro column hcolumn row
    obtain ⟨c, hc, rfl⟩ := hknown column hcolumn
    rw [foundValue, columnValue]
    congr 2
    apply findIdx?_congr
    intro c' hc'
    rw [Bool.eq_iff_iff, decide_eq_true_iff]
    constructor
    · exact hdistinct c' hc' c hc
    · intro heq
      simp [eqIgnoreAsciiCase, heq]
  rw [keyPieces, keyPieces]
  apply List.flatMap_congr
  intro column hcolumn
  rw [hvalue column hcolumn, hvalue column hcolumn, h column hcolumn]

end

/-! ### A key with a separator in a value -/

/-- A table of two columns of texts. -/
def pairsTable : CatalogRelation where
  database := "default"
  schema := "public"
  name := "pairs"
  kind := .table
  definitionSql := none
  storagePath := none
  externalFormat := none
  columns := [⟨"a", "TEXT", true, none⟩, ⟨"b", "TEXT", true, none⟩]
  constraints := []
  indexes := []

/-- A unique index on both. -/
def pairsKey : CatalogIndex := ⟨"pairs_key", ["a", "b"], true, false⟩

theorem twoRows_pair {α : Type} {R : List α → List α → Prop} {row row' : List α} :
  TwoRows R [row, row'] ↔ R row row'
  := by
  constructor
  · rintro ⟨i, j, first, second, hij, hi, hj, h⟩
    match i, j with
    | 0, 1 =>
        cases hi
        cases hj
        exact h
    | i, j + 2 => cases hj
    | i + 1, 1 => omega
    | i, 0 => omega
  · exact fun h => ⟨0, 1, row, row', Nat.one_pos, rfl, rfl, h⟩

end UniqueKeys
