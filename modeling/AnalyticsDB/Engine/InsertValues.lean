import AnalyticsDB.Engine.ColumnTypes
import AnalyticsDB.Engine.Mutations
import AnalyticsDB.Lib.Elementwise

/-!
# The values of an INSERT

A value of an `INSERT` reaches the engine as the text of an expression.  The engine takes the
quotes off the text and casts it to the type of the column.  Without a list of columns it takes
the value at the position of the column among all columns, and the row id is one of them.  The
cells that are stored are compared with what the statement says: the value written for a column,
as that column's type, or the default.
-/

/-- The texts for which the current time is the default. -/
def isCurrentTime (raw : String) : Bool :=
  eqIgnoreAsciiCase raw "CURRENT_TIMESTAMP()" || eqIgnoreAsciiCase raw "CURRENT_TIMESTAMP"
    || eqIgnoreAsciiCase raw "NOW()"

/-- An expression: its text, and, if it is a literal, the text of its value, which is none for
NULL.  Nothing but NULL is written like NULL. -/
structure ValueExpr where
  text : String
  literal : Option (Option String)
  null_iff : eqIgnoreAsciiCase (trimWhiteSpace text) "NULL" = true ↔ literal = some none

/-- How texts are read: as cells, where a text that cannot be read becomes NULL, and as the
expressions of defaults. -/
structure TextReading (x : Execution) where
  parse : DataType → String → Option Value
  castText_eq : ∀ dataType text, x.castText dataType text = .ok (text.bind (parse dataType))
  default : String → ValueExpr
  default_text : ∀ raw, (default raw).text = raw

/-- The default of a column, as the catalogue has it; empty if there is none. -/
def defaultText (columns : List CatalogColumn) (name : String) : String :=
  match columns.find? (·.name = name) with
  | none => ""
  | some column => trimWhiteSpace (column.defaultValue.getD
      (if eqIgnoreAsciiCase name "created_at" then "CURRENT_TIMESTAMP" else ""))

/-- The file that the manifest of the table at `base` lists last. -/
def lastFile (store : ObjectStore) (base : OPath) : Option RecordBatch :=
  match store[manifestKey base]? with
  | some (.manifest m) =>
    match m.files.getLast?.bind (fun entry => store[entry.key base]?) with
    | some (.parquet batch) => some batch
    | _ => none
  | _ => none

/-- The number of user columns before a position. -/
def userRank (schema : Schema) (i : Nat) : Nat :=
  ((schema.take i).filter (·.name ≠ "_row_id")).length

section

variable {x : Execution} (o : Outside) (reading : TextReading x) (columns : List CatalogColumn)

/-! ### What the statement says -/

/-- The cell a literal is in a column of a type, if it is one that can be converted. -/
def TextReading.literalCell (dataType : DataType) (value : ValueExpr) : Option Cell :=
  match value.literal with
  | none => none
  | some none => some none
  | some (some text) => (reading.parse dataType text).map some

/-- The value at position `j` of a row is written for a column: by name, or by position among the
user columns. -/
def WrittenAt (target : Option (List String)) (rank : Nat) (name : String) (j : Nat) : Prop :=
  match target with
  | none => j = rank
  | some names => ∃ written, names[j]? = some written ∧ assignmentNames written name = true

/-- The cell of a column for which no value is written. -/
def OmittedAs (field : ArrowField) (cell : Cell) : Prop :=
  let raw := defaultText columns field.name
  if raw = "" then
    cell = none
  else if isCurrentTime raw then
    ∃ n, cell = reading.parse field.dataType (x.rfc3339 (o.now n))
  else
    reading.literalCell field.dataType (reading.default raw) = some cell

/-- A stored cell is the value written for its column, or the default. -/
structure StoredRight (target : Option (List String)) (rank : Nat) (row : List ValueExpr)
    (field : ArrowField) (cell : Cell) : Prop where
  written : ∀ j, WrittenAt target rank field.name j →
    ∃ value, row[j]? = some value ∧ reading.literalCell field.dataType value = some cell
  omitted : (∀ j, ¬ WrittenAt target rank field.name j) →
    OmittedAs o reading columns field cell

/-- Every name of the list is the name of one user column, and no two of them of the same. -/
structure NamesRight (schema : Schema) (names : List String) : Prop where
  one : ∀ name ∈ names, ∃ i field, schema[i]? = some field ∧ field.name ≠ "_row_id"
    ∧ assignmentNames name field.name = true
    ∧ ∀ (k : Nat) other, schema[k]? = some other → other.name ≠ "_row_id" →
      assignmentNames name other.name = true → k = i
  distinct : ∀ (j k : Nat) name other (i : Nat) field, names[j]? = some name →
    names[k]? = some other → schema[i]? = some field → field.name ≠ "_row_id" →
    assignmentNames name field.name = true → assignmentNames other field.name = true → j = k

/-- The rows that are stored for the rows of the statement. -/
structure RowsRight (target : Option (List String)) (rows : List (List ValueExpr))
    (stored : List Row) : Prop where
  names : ∀ names ∈ target, NamesRight (buildArrowSchemaFromDefinitions columns) names
  cells : List.Forall₂ (fun row cells => ∀ (i : Nat) field,
    (buildArrowSchemaFromDefinitions columns)[i]? = some field → field.name ≠ "_row_id" →
    ∃ cell, cells[i]? = some cell
      ∧ StoredRight o reading columns target
        (userRank (buildArrowSchemaFromDefinitions columns) i) row field cell) rows stored

/-- The manifest of the table at `base` lists, last, a file with the right rows. -/
def InsertedRight (target : Option (List String)) (rows : List (List ValueExpr))
    (store : ObjectStore) (base : OPath) : Prop :=
  ∃ batch ∈ lastFile store base, RowsRight o reading columns target rows batch.rows

/-! ### When the engine does so -/

/-- The cell that the engine makes of a value. -/
def TextReading.readCell (dataType : DataType) (value : ValueExpr) : Cell :=
  if value.literal = some none then none
  else reading.parse dataType (normalizeInsertValue value.text)

/-- The value is a literal that can be converted, and its text without the quotes is read as its
value. -/
def TextReading.ReadsAsWritten (dataType : DataType) (value : ValueExpr) : Prop :=
  value.literal = some none ∨ ∃ text, value.literal = some (some text)
    ∧ (reading.parse dataType text).isSome
    ∧ reading.parse dataType (normalizeInsertValue value.text) = reading.parse dataType text

/-- The column has no default, the current time, or a literal that can be converted and whose text
without the quotes is read as its value. -/
def DefaultRight (field : ArrowField) : Prop :=
  let raw := defaultText columns field.name
  let cell := reading.parse field.dataType (normalizeInsertValue raw)
  raw = "" ∨ isCurrentTime raw = true ∨ ((reading.default raw).literal = some none ∧ cell = none)
    ∨ ∃ text, (reading.default raw).literal = some (some text) ∧ cell.isSome
      ∧ reading.parse field.dataType text = cell

/-- A value converts to the cell that the engine makes of the value at another position, or of the
default where there is no such value. -/
def ShiftHarmless (row : List ValueExpr) (i : Nat) (field : ArrowField) (value : ValueExpr) :
    Prop :=
  let raw := defaultText columns field.name
  match row[i]? with
  | some other => reading.literalCell field.dataType value
      = some (reading.readCell field.dataType other)
  | none =>
    if raw = "" then reading.literalCell field.dataType value = some none
    else isCurrentTime raw = false ∧ reading.literalCell field.dataType value
      = some (reading.parse field.dataType (normalizeInsertValue raw))

/-- The condition on the value of a row for the column at position `i`. -/
def ColumnFaithful (target : Option (List String)) (rank : Nat) (row : List ValueExpr) (i : Nat)
    (field : ArrowField) : Prop :=
  match target with
  | some _ =>
    (∀ j, WrittenAt target rank field.name j → ∀ value, row[j]? = some value →
      reading.ReadsAsWritten field.dataType value)
      ∧ ((∀ j, ¬ WrittenAt target rank field.name j) → DefaultRight reading columns field)
  | none => ∀ value, row[rank]? = some value →
      if rank = i then reading.ReadsAsWritten field.dataType value
      else ShiftHarmless reading columns row i field value

/-- The condition under which the rows of a statement are stored as written. -/
structure InsertFaithful (target : Option (List String)) (rows : List (List ValueExpr)) :
    Prop where
  names : ∀ names ∈ target, NamesRight (buildArrowSchemaFromDefinitions columns) names
  values : ∀ row ∈ rows, ∀ (i : Nat) field,
    (buildArrowSchemaFromDefinitions columns)[i]? = some field → field.name ≠ "_row_id" →
    ColumnFaithful reading columns target
      (userRank (buildArrowSchemaFromDefinitions columns) i) row i field

/-- A user column behind the row id whose default is the current time. -/
def TimeBehindRowId : Prop :=
  ∃ (i : Nat) (field : ArrowField), (buildArrowSchemaFromDefinitions columns)[i]? = some field
    ∧ userRank (buildArrowSchemaFromDefinitions columns) i ≠ i
    ∧ isCurrentTime (defaultText columns field.name) = true

end

/-! ### What the engine takes -/

section

open Eff

variable {x : Execution} (o : Outside) (reading : TextReading x) (columns : List CatalogColumn)

/-- The cell the engine makes for a column without a value. -/
def DefaultTaken (field : ArrowField) (cell : Cell) : Prop :=
  let raw := defaultText columns field.name
  if raw = "" then
    cell = none
  else if isCurrentTime raw then
    ∃ n, cell = reading.parse field.dataType (x.rfc3339 (o.now n))
  else
    cell = reading.parse field.dataType (normalizeInsertValue raw)

/-- The cell the engine makes of the value at a position, if there is one. -/
def Taken (field : ArrowField) (position : Option Nat) (row : List ValueExpr) (cell : Cell) :
    Prop :=
  match position.bind (row[·]?) with
  | some value => cell = reading.readCell field.dataType value
  | none => DefaultTaken o reading columns field cell

theorem defaultValueForColumn_returns (field : ArrowField) (w : World) :
  Returns (defaultValueForColumn o x columns field.name) w (fun text _ =>
    (text = none → defaultText columns field.name = "")
      ∧ (text ≠ none →
        DefaultTaken o reading columns field (text.bind (reading.parse field.dataType))))
  := by
  unfold defaultValueForColumn DefaultTaken defaultText
  cases columns.find? (·.name = field.name) with
  | none => simp
  | some column =>
      dsimp only
      generalize trimWhiteSpace _ = raw
      by_cases hempty : raw = ""
      · simp [hempty]
      · have hnot : raw.isEmpty = false := by
          simpa using hempty
        simp only [hnot, Bool.false_eq_true, if_false, hempty]
        by_cases htime : isCurrentTime raw = true
        · have htime' := htime
          unfold isCurrentTime at htime'
          simp only [htime', htime, if_true, returns_bind, returns_outsideCall, returns_pure]
          exact ⟨by simp, fun _ => ⟨w.calls, rfl⟩⟩
        · have htime' := htime
          unfold isCurrentTime at htime'
          simp only [htime', htime, Bool.false_eq_true, if_false, returns_pure]
          exact ⟨by simp, fun _ => rfl⟩

/-- The text of a column in a row is cast to the cell the engine takes. -/
theorem insertText_returns (field : ArrowField) (position : Option Nat) (row : List ValueExpr)
    (w : World) :
  Returns (insertText o x columns field position (row.map (·.text))) w (fun text _ =>
    Taken o reading columns field position row (text.bind (reading.parse field.dataType)))
  := by
  have hget : position.bind ((row.map (·.text))[·]?)
      = (position.bind (row[·]?)).map (·.text) := by
    cases position with
    | none => rfl
    | some j => simp
  unfold insertText Taken
  simp only [hget]
  cases position.bind (row[·]?) with
  | some value =>
      simp only [Option.map_some]
      by_cases hnull : eqIgnoreAsciiCase (trimWhiteSpace value.text) "NULL" = true
      · have hliteral := value.null_iff.mp hnull
        simp only [hnull, if_true]
        split
        · simp [TextReading.readCell, hliteral]
        · apply returns_bail
      · have hliteral := value.null_iff.not.mp hnull
        simp only [hnull, Bool.false_eq_true, if_false, returns_pure]
        simp [TextReading.readCell, hliteral]
  | none =>
      simp only [Option.map_none]
      rw [returns_bind]
      refine Returns.mono (defaultValueForColumn_returns o reading columns field w) ?_
      rintro text w₁ ⟨hnone, hsome⟩
      cases text with
      | some text =>
          rw [returns_pure]
          exact hsome (by simp)
      | none =>
          dsimp only
          split
          · rw [returns_pure]
            simp [DefaultTaken, hnone rfl]
          · apply returns_bail

theorem insertTexts_returns (field : ArrowField) (position : Option Nat)
    (rows : List (List ValueExpr)) (w : World) :
  Returns (insertTexts o x columns field position (rows.map (·.map (·.text)))) w (fun texts _ =>
    List.Forall₂ (fun row text => field.name ≠ "_row_id" →
      Taken o reading columns field position row (text.bind (reading.parse field.dataType)))
      rows texts)
  := by
  induction rows generalizing w with
  | nil => simp [insertTexts]
  | cons row rows ih =>
      rw [List.map_cons, insertTexts, returns_bind]
      have hrest : ∀ text w₁, (field.name ≠ "_row_id" →
          Taken o reading columns field position row (text.bind (reading.parse field.dataType))) →
          Returns (do
            let rest ← insertTexts o x columns field position (rows.map (·.map (·.text)))
            return text :: rest) w₁ (fun texts _ =>
            List.Forall₂ (fun row text => field.name ≠ "_row_id" →
              Taken o reading columns field position row
                (text.bind (reading.parse field.dataType))) (row :: rows) texts) := by
        intro text w₁ htext
        rw [returns_bind]
        refine Returns.mono (ih w₁) ?_
        intro rest w₂ hrest
        rw [returns_pure]
        exact List.Forall₂.cons htext hrest
      by_cases hname : field.name = "_row_id"
      · rw [if_pos hname]
        refine Returns.of_forall ?_
        intro text w₁
        exact hrest text w₁ (fun hne => absurd hname hne)
      · rw [if_neg hname]
        refine Returns.mono (insertText_returns o reading columns field position row w) ?_
        intro text w₁ htext
        exact hrest text w₁ (fun _ => htext)

/-- Texts are cast one by one. -/
theorem TextReading.mapM_castText (dataType : DataType) (texts : List (Option String)) :
  texts.mapM (x.castText dataType) = .ok (texts.map (·.bind (reading.parse dataType)))
  := by
  induction texts with
  | nil => rfl
  | cons text texts ih =>
      rw [List.mapM_cons, ih, reading.castText_eq]
      rfl

/-- The cells of a column, row by row. -/
theorem insertColumns_returns (target : Option (List String)) (rows : List (List ValueExpr))
    (fields : List (Nat × ArrowField)) (w : World) :
  Returns (insertColumns o x columns target (rows.map (·.map (·.text))) fields) w (fun cells _ =>
    List.Forall₂ (fun field cells => List.Forall₂ (fun row cell => field.2.name ≠ "_row_id" →
      Taken o reading columns field.2 (valuePosition target field.1 field.2.name) row cell)
      rows cells) fields cells)
  := by
  induction fields generalizing w with
  | nil => simp [insertColumns]
  | cons field fields ih =>
      obtain ⟨position, field⟩ := field
      rw [insertColumns, returns_bind]
      refine Returns.mono (insertTexts_returns o reading columns field _ rows w) ?_
      intro texts w₁ htexts
      rw [reading.mapM_castText, orBail, returns_bind, returns_pure, returns_bind]
      refine Returns.mono (ih w₁) ?_
      intro rest w₂ hrest
      rw [returns_pure]
      refine List.Forall₂.cons ?_ hrest
      exact List.forall₂_map_right_iff.mpr htexts

theorem positioned_getElem? (first : Nat) (schema : Schema) (i : Nat) :
  (positioned first schema)[i]? = schema[i]?.map (fun field => (first + i, field))
  := by
  induction schema generalizing first i with
  | nil => rfl
  | cons field schema ih =>
      rw [positioned]
      cases i with
      | zero => rfl
      | succ i =>
          rw [List.getElem?_cons_succ, List.getElem?_cons_succ, ih]
          simp only [Nat.add_assoc, Nat.add_comm 1 i]

/-- A row of the statement and the row of the batch made for it. -/
def RowTaken (target : Option (List String)) (row : List ValueExpr) (stored : Row) : Prop :=
  ∀ (i : Nat) field, (buildArrowSchemaFromDefinitions columns)[i]? = some field →
    field.name ≠ "_row_id" → ∃ cell, stored[i]? = some cell
      ∧ Taken o reading columns field (valuePosition target i field.name) row cell

/-- The batch has a row for each row of the statement. -/
theorem buildRecordBatchFromRows_returns (target : Option (List String))
    (rows : List (List ValueExpr)) (w : World) :
  Returns (buildRecordBatchFromRows o x (buildArrowSchemaFromDefinitions columns) columns target
      (rows.map (·.map (·.text)))) w (fun batch _ =>
    batch.schema = buildArrowSchemaFromDefinitions columns
      ∧ List.Forall₂ (RowTaken o reading columns target) rows batch.rows)
  := by
  rw [buildRecordBatchFromRows, returns_bind]
  refine Returns.mono (insertColumns_returns o reading columns target rows _ w) ?_
  intro cells w₁ hcells
  split
  · apply returns_bail
  · rw [returns_pure]
    refine ⟨rfl, ?_⟩
    unfold rowsOfColumns
    rw [List.length_map, List.forall₂_map_right_iff, List.forall₂_iff_get]
    refine ⟨by simp, ?_⟩
    intro r hr hr' i field hfield huser
    have hposition : (positioned 0 (buildArrowSchemaFromDefinitions columns))[i]?
        = some (i, field) := by
      rw [positioned_getElem?, hfield]
      simp
    obtain ⟨column, hcolumn, htaken⟩ := hcells.exists_getElem? hposition
    have hrow : rows[r]? = some (rows.get ⟨r, hr⟩) := List.getElem?_eq_getElem hr
    obtain ⟨cell, hcell, htaken⟩ := htaken.exists_getElem? hrow
    refine ⟨cell, ?_, htaken huser⟩
    simp [hcolumn, hcell]

/-- Preparing a batch for storage leaves the cells of its user columns. -/
theorem prepareBatchForStorage_taken {target : Option (List String)}
    {rows : List (List ValueExpr)} {batch : RecordBatch}
    (hschema : batch.schema = buildArrowSchemaFromDefinitions columns)
    (hrows : List.Forall₂ (RowTaken o reading columns target) rows batch.rows) (w : World) :
  Returns (prepareBatchForStorage o batch) w (fun prepared _ =>
    List.Forall₂ (RowTaken o reading columns target) rows prepared.rows)
  := by
  have hrowId : ∃ field ∈ batch.schema, field.name = "_row_id" := by
    rw [hschema]
    unfold buildArrowSchemaFromDefinitions
    dsimp only
    split
    · rename_i hany
      simpa using hany
    · exact ⟨rowIdField, by simp, rfl⟩
  unfold prepareBatchForStorage
  split
  · rename_i p hp
    split
    · rw [returns_bind]
      refine Returns.mono (withRowIds_returns o _ batch.rows w) ?_
      intro stored w₁ hstored
      rw [returns_pure]
      refine hrows.through hstored ?_
      rintro row cells - htaken ⟨id, rfl⟩ i field hfield huser
      obtain ⟨cell, hcell, htaken⟩ := htaken i field hfield huser
      refine ⟨cell, ?_, htaken⟩
      rw [List.getElem?_set_ne, hcell]
      rintro rfl
      obtain ⟨hlt, hname, -⟩ := List.findIdx?_eq_some_iff_getElem.mp hp
      rw [← hschema, List.getElem?_eq_getElem hlt] at hfield
      cases hfield
      exact huser (by simpa using hname)
    · rw [returns_pure]
      exact hrows
  · rename_i hnone
    obtain ⟨field, hmem, hname⟩ := hrowId
    rw [List.findIdx?_eq_none_iff] at hnone
    exact absurd (hnone field hmem) (by simp [hname])

/-- The manifest of the table at `base` lists, last, a data file that holds the batch. -/
def ListedLast (store : ObjectStore) (base : OPath) (batch : RecordBatch) : Prop :=
  ∃ m files entry, store[manifestKey base]? = some (.manifest m) ∧ m.files = files ++ [entry]
    ∧ (∃ fileName, entry.path = ["data", fileName])
    ∧ store[entry.key base]? = some (.parquet batch)

theorem appendBatch_returns (base : OPath) (batch : RecordBatch) (w : World) :
  Returns (appendBatch o base batch) w (fun _ w' => ListedLast w'.store base batch)
  := by
  rw [appendBatch, returns_bind, returns_outsideCall, returns_bind]
  refine Returns.mono (storePut_returns o _ _ _ _) ?_
  intro outcome w₁ hput
  rw [returns_bind]
  cases outcome with
  | error e =>
      rw [orStoreError]
      apply returns_bail
  | ok _ =>
      rw [orStoreError, returns_pure]
      refine Returns.mono ((casManifest_returns o base _ (by decide) w₁).with_after
        (casManifest_modifies o base _ MAX_CAS_RETRIES w₁)) ?_
      rintro - w₂ ⟨hframe, m, files, hm, hfiles⟩
      refine ⟨m, files, _, hm, hfiles, ⟨_, rfl⟩, ?_⟩
      rw [hframe.store _ (entry_key_ne_manifestKey ⟨_, rfl⟩)]
      exact hput rfl

/-- The objects of indexes are none of those of the rows. -/
theorem ListedLast.of_indexFrame {w w' : World} {base : OPath} {batch : RecordBatch}
    (h : ListedLast w.store base batch) (hframe : Frame (IndexKey base) w w') :
  ListedLast w'.store base batch
  := by
  obtain ⟨m, files, entry, hm, hfiles, hdata, hentry⟩ := h
  refine ⟨m, files, entry, ?_, hfiles, hdata, ?_⟩
  · rw [hframe.store _ (by simp [IndexKey, manifestKey, List.prefix_append_right_inj]), hm]
  · obtain ⟨fileName, hpath⟩ := hdata
    rw [hframe.store _ (by
      simp [IndexKey, ManifestEntry.key, hpath, List.prefix_append_right_inj]), hentry]

end

/-! ### Where the two agree -/

section

variable {x : Execution} (o : Outside) (reading : TextReading x) (columns : List CatalogColumn)

theorem TextReading.map_parse_eq_iff (dataType : DataType) (text : String) (cell : Cell) :
  (reading.parse dataType text).map some = some cell
    ↔ (reading.parse dataType text).isSome ∧ cell = reading.parse dataType text
  := by
  cases reading.parse dataType text with
  | none => simp
  | some value => simp [eq_comm]

/-- A value is read as what it says. -/
theorem TextReading.literalCell_eq_readCell_iff (dataType : DataType) (value : ValueExpr) :
  reading.literalCell dataType value = some (reading.readCell dataType value)
    ↔ reading.ReadsAsWritten dataType value
  := by
  unfold TextReading.literalCell TextReading.readCell TextReading.ReadsAsWritten
  cases value.literal with
  | none => simp
  | some text =>
      cases text with
      | none => simp
      | some text => simp [reading.map_parse_eq_iff]

/-- A default is stored if and only if it is one that is read as what it says. -/
theorem omittedAs_iff {field : ArrowField} {cell : Cell}
    (htaken : DefaultTaken o reading columns field cell) :
  OmittedAs o reading columns field cell ↔ DefaultRight reading columns field
  := by
  unfold DefaultTaken at htaken
  unfold OmittedAs DefaultRight
  dsimp only at htaken ⊢
  by_cases hempty : defaultText columns field.name = ""
  · rw [if_pos hempty] at htaken ⊢
    simp [hempty, htaken]
  · rw [if_neg hempty] at htaken ⊢
    by_cases htime : isCurrentTime (defaultText columns field.name) = true
    · rw [if_pos htime] at htaken ⊢
      simp [htaken, htime]
    · rw [if_neg htime] at htaken ⊢
      rw [← htaken]
      simp only [hempty, htime, Bool.false_eq_true, false_or]
      unfold TextReading.literalCell
      cases (reading.default (defaultText columns field.name)).literal with
      | none => simp
      | some text =>
          cases text with
          | none =>
              constructor
              · intro h
                cases h
                exact .inl ⟨rfl, rfl⟩
              · rintro (⟨-, rfl⟩ | ⟨_, h, -⟩)
                · rfl
                · cases h
          | some text =>
              rw [reading.map_parse_eq_iff]
              simp only [Option.some.injEq, reduceCtorEq, false_and, false_or, exists_eq_left']
              constructor
              · rintro ⟨hsome, heq⟩
                exact ⟨heq ▸ hsome, heq.symm⟩
              · rintro ⟨hsome, heq⟩
                exact ⟨heq ▸ hsome, heq.symm⟩

/-- The position of the value for a column in a list of names. -/
theorem valuePosition_some {names : List String} {i : Nat} {name : String} {j : Nat}
    (h : valuePosition (some names) i name = some j) (rank : Nat) :
  j < names.length ∧ WrittenAt (some names) rank name j
  := by
  unfold valuePosition at h
  obtain ⟨hlt, hnamed, -⟩ := List.findIdx?_eq_some_iff_getElem.mp h
  exact ⟨hlt, _, List.getElem?_eq_getElem hlt, hnamed⟩

theorem valuePosition_none {names : List String} {i : Nat} {name : String}
    (h : valuePosition (some names) i name = none) (rank j : Nat) :
  ¬ WrittenAt (some names) rank name j
  := by
  rintro ⟨written, hwritten, hnamed⟩
  unfold valuePosition at h
  rw [List.findIdx?_eq_none_iff] at h
  have hnot := h written (List.mem_of_getElem? hwritten)
  rw [hnamed] at hnot
  cases hnot

/-- With a list of columns, the cell of a column is right if and only if its value, or its default,
is read as what it says. -/
theorem storedRight_names_iff {names : List String} {row : List ValueExpr} {i rank : Nat}
    {field : ArrowField} {cell : Cell}
    (hnames : NamesRight (buildArrowSchemaFromDefinitions columns) names)
    (hfield : (buildArrowSchemaFromDefinitions columns)[i]? = some field)
    (huser : field.name ≠ "_row_id") (hlength : row.length = names.length)
    (htaken : Taken o reading columns field (valuePosition (some names) i field.name) row cell) :
  StoredRight o reading columns (some names) rank row field cell
    ↔ ColumnFaithful reading columns (some names) rank row i field
  := by
  unfold ColumnFaithful
  dsimp only
  cases hposition : valuePosition (some names) i field.name with
  | some j =>
      obtain ⟨hj, hwritten⟩ := valuePosition_some hposition rank
      have hunique : ∀ k, WrittenAt (some names) rank field.name k → k = j := by
        rintro k ⟨other, hother, hnamed⟩
        obtain ⟨name, hname, hnamed'⟩ := hwritten
        exact hnames.distinct k j other name i field hother hname hfield huser hnamed hnamed'
      have hget : row[j]? = some (row.get ⟨j, hlength ▸ hj⟩) := List.getElem?_eq_getElem _
      unfold Taken at htaken
      rw [hposition, Option.bind_some, hget] at htaken
      dsimp only at htaken
      subst htaken
      constructor
      · intro h
        refine ⟨?_, fun hnone => absurd hwritten (hnone j)⟩
        intro k hk value hvalue
        obtain rfl := hunique k hk
        rw [hget] at hvalue
        cases hvalue
        obtain ⟨value, hvalue, hcell⟩ := h.written k hk
        rw [hget] at hvalue
        cases hvalue
        exact (reading.literalCell_eq_readCell_iff _ _).mp hcell
      · rintro ⟨hvalues, -⟩
        refine ⟨?_, fun hnone => absurd hwritten (hnone j)⟩
        intro k hk
        obtain rfl := hunique k hk
        exact ⟨_, hget, (reading.literalCell_eq_readCell_iff _ _).mpr (hvalues k hk _ hget)⟩
  | none =>
      have hnone := fun j => valuePosition_none hposition rank j
      unfold Taken at htaken
      rw [hposition] at htaken
      have homitted := omittedAs_iff o reading columns htaken
      constructor
      · intro h
        exact ⟨fun j hj => absurd hj (hnone j), fun _ => homitted.mp (h.omitted hnone)⟩
      · rintro ⟨-, hdefault⟩
        exact ⟨fun j hj => absurd hj (hnone j), fun _ => homitted.mpr (hdefault hnone)⟩

/-- Without a list of columns, the cell of a column is right if its value is read as what it says
and the column does not stand behind the row id, or the shift is harmless. -/
theorem storedRight_position_iff {row : List ValueExpr} {i rank : Nat} {field : ArrowField}
    {cell : Cell} (hrank : rank < row.length)
    (htaken : Taken o reading columns field (some i) row cell)
    (htime : rank ≠ i → row[i]? = none →
      isCurrentTime (defaultText columns field.name) = false) :
  StoredRight o reading columns none rank row field cell
    ↔ ColumnFaithful reading columns none rank row i field
  := by
  have hget : row[rank]? = some (row.get ⟨rank, hrank⟩) := List.getElem?_eq_getElem hrank
  have hstored : StoredRight o reading columns none rank row field cell
      ↔ reading.literalCell field.dataType (row.get ⟨rank, hrank⟩) = some cell := by
    constructor
    · intro h
      obtain ⟨value, hvalue, hcell⟩ := h.written rank rfl
      rw [hget] at hvalue
      cases hvalue
      exact hcell
    · intro h
      refine ⟨?_, fun hnone => absurd rfl (hnone rank)⟩
      rintro j rfl
      exact ⟨_, hget, h⟩
  rw [hstored]
  unfold ColumnFaithful
  simp only [hget, Option.some.injEq, forall_eq']
  unfold Taken at htaken
  rw [Option.bind_some] at htaken
  by_cases hshift : rank = i
  · subst hshift
    rw [hget] at htaken
    dsimp only at htaken
    rw [if_pos rfl, htaken, reading.literalCell_eq_readCell_iff]
  · rw [if_neg hshift]
    unfold ShiftHarmless
    dsimp only
    cases hother : row[i]? with
    | some other =>
        rw [hother] at htaken
        dsimp only at htaken ⊢
        rw [htaken]
    | none =>
        rw [hother] at htaken
        dsimp only at htaken ⊢
        unfold DefaultTaken at htaken
        dsimp only at htaken
        rw [htime hshift hother] at htaken ⊢
        split at htaken
        · rename_i hempty
          rw [if_pos hempty, htaken]
        · rename_i hempty
          rw [if_neg hempty]
          simp only [Bool.false_eq_true, if_false] at htaken
          rw [htaken]
          simp

/-- Where a shift is harmless the current time is not taken. -/
theorem ColumnFaithful.not_currentTime {row : List ValueExpr} {i rank : Nat} {field : ArrowField}
    (h : ColumnFaithful reading columns none rank row i field) (hshift : rank ≠ i)
    (hnone : row[i]? = none) (hrank : rank < row.length) :
  isCurrentTime (defaultText columns field.name) = false
  := by
  have hharmless := h _ (List.getElem?_eq_getElem hrank)
  rw [if_neg hshift] at hharmless
  unfold ShiftHarmless at hharmless
  dsimp only at hharmless
  rw [hnone] at hharmless
  dsimp only at hharmless
  split at hharmless
  · rename_i hempty
    rw [hempty]
    decide
  · exact hharmless.1

/-- The user columns of the schema are those of the table. -/
theorem userFields_length :
  ((buildArrowSchemaFromDefinitions columns).filter (·.name ≠ "_row_id")).length
    = ((columns.map (·.name)).filter (· ≠ "_row_id")).length
  := by
  have hmap : ((columns.map definitionField).filter (·.name ≠ "_row_id")).length
      = ((columns.map (·.name)).filter (· ≠ "_row_id")).length := by
    rw [List.filter_map, List.filter_map, List.length_map, List.length_map]
    rfl
  rw [← hmap]
  unfold buildArrowSchemaFromDefinitions
  dsimp only
  split
  · rfl
  · rw [List.filter_append, List.length_append]
    rfl

theorem userRank_lt {i : Nat} {field : ArrowField}
    (hfield : (buildArrowSchemaFromDefinitions columns)[i]? = some field)
    (huser : field.name ≠ "_row_id") :
  userRank (buildArrowSchemaFromDefinitions columns) i
    < ((columns.map (·.name)).filter (· ≠ "_row_id")).length
  := by
  rw [← userFields_length]
  unfold userRank
  generalize buildArrowSchemaFromDefinitions columns = schema at hfield
  obtain ⟨hi, rfl⟩ := List.getElem?_eq_some_iff.mp hfield
  have hsplit : schema = schema.take i ++ schema[i] :: schema.drop (i + 1) := by
    rw [List.cons_getElem_drop_succ, List.take_append_drop]
  calc ((schema.take i).filter (·.name ≠ "_row_id")).length
      < ((schema.take i ++ schema[i] :: schema.drop (i + 1)).filter
          (·.name ≠ "_row_id")).length := by
        rw [List.filter_append, List.length_append, List.filter_cons_of_pos (by simpa using huser)]
        simp
    _ = (schema.filter (·.name ≠ "_row_id")).length := by rw [← hsplit]

/-- The number of values in a row of the statement. -/
def valuesPerRow (target : Option (List String)) : Nat :=
  match target with
  | some names => names.length
  | none => ((columns.map (·.name)).filter (· ≠ "_row_id")).length

/-- The rows that the engine makes are right under the condition, and only under it unless a
column behind the row id has the current time as its default. -/
theorem rowsRight_iff {target : Option (List String)} {rows : List (List ValueExpr)}
    {stored : List Row} (hstored : List.Forall₂ (RowTaken o reading columns target) rows stored)
    (hlength : ∀ row ∈ rows, row.length = valuesPerRow columns target) :
  (InsertFaithful reading columns target rows → RowsRight o reading columns target rows stored)
    ∧ (RowsRight o reading columns target rows stored →
      InsertFaithful reading columns target rows ∨ TimeBehindRowId columns)
  := by
  have hcell : ∀ row cells, row ∈ rows → RowTaken o reading columns target row cells →
      (∀ names ∈ target, NamesRight (buildArrowSchemaFromDefinitions columns) names) →
      ∀ (i : Nat) field, (buildArrowSchemaFromDefinitions columns)[i]? = some field →
      field.name ≠ "_row_id" → ∃ cell, cells[i]? = some cell
        ∧ ((target = none → userRank (buildArrowSchemaFromDefinitions columns) i ≠ i →
            row[i]? = none → isCurrentTime (defaultText columns field.name) = false) →
          (StoredRight o reading columns target
              (userRank (buildArrowSchemaFromDefinitions columns) i) row field cell
            ↔ ColumnFaithful reading columns target
              (userRank (buildArrowSchemaFromDefinitions columns) i) row i field)) := by
    intro row cells hrow htaken hnames i field hfield huser
    obtain ⟨cell, hcell, htaken⟩ := htaken i field hfield huser
    refine ⟨cell, hcell, ?_⟩
    have hlength := hlength row hrow
    cases target with
    | some names =>
        intro _
        exact storedRight_names_iff o reading columns (hnames names rfl) hfield huser hlength htaken
    | none =>
        intro htime
        refine storedRight_position_iff o reading columns ?_ htaken (htime rfl)
        rw [hlength]
        exact userRank_lt columns hfield huser
  constructor
  · intro h
    refine ⟨h.names, ?_⟩
    refine ((List.forall₂_and_left _ _).mpr ⟨fun row hrow => hrow, hstored⟩).imp ?_
    rintro row cells ⟨hrow, htaken⟩ i field hfield huser
    obtain ⟨cell, hcell, hiff⟩ := hcell row cells hrow htaken h.names i field hfield huser
    have hfaithful := h.values row hrow i field hfield huser
    refine ⟨cell, hcell, (hiff ?_).mpr hfaithful⟩
    rintro rfl hshift hnone
    have hrank : userRank (buildArrowSchemaFromDefinitions columns) i < row.length := by
      rw [hlength row hrow]
      exact userRank_lt columns hfield huser
    exact hfaithful.not_currentTime reading columns hshift hnone hrank
  · intro h
    by_cases htime : TimeBehindRowId columns
    · exact .inr htime
    · left
      refine ⟨h.names, ?_⟩
      intro row hrow i field hfield huser
      obtain ⟨r, hr⟩ := List.mem_iff_getElem?.mp hrow
      obtain ⟨cells, hcells, htaken⟩ := hstored.exists_getElem? hr
      obtain ⟨cells', hcells', hright⟩ := h.cells.exists_getElem? hr
      obtain rfl : cells' = cells := Option.some.inj (hcells'.symm.trans hcells)
      obtain ⟨cell, hcell, hiff⟩ := hcell row cells' hrow htaken h.names i field hfield huser
      obtain ⟨cell', hcell', hright⟩ := hright i field hfield huser
      obtain rfl : cell' = cell := Option.some.inj (hcell'.symm.trans hcell)
      refine (hiff ?_).mp hright
      intro _ hshift _
      rw [Bool.eq_false_iff]
      intro hcurrent
      exact htime ⟨i, field, hfield, hshift, hcurrent⟩

/-- The rows of the file that is listed last. -/
theorem ListedLast.insertedRight_iff {store : ObjectStore} {base : OPath} {batch : RecordBatch}
    (h : ListedLast store base batch) (target : Option (List String))
    (rows : List (List ValueExpr)) :
  InsertedRight o reading columns target rows store base
    ↔ RowsRight o reading columns target rows batch.rows
  := by
  have hlast : lastFile store base = some batch := by
    obtain ⟨m, files, entry, hm, hfiles, -, hentry⟩ := h
    unfold lastFile
    rw [hm]
    dsimp only
    rw [hfiles, List.getLast?_concat, Option.bind_some, hentry]
  unfold InsertedRight
  rw [hlast]
  simp

end

section

open Eff

variable {x : Execution} (o : Outside) (df : DataFusion) (reading : TextReading x)

/-- Texts and whole numbers read as cells. -/
def readPlain : DataType → String → Option Value
  | .utf8, text => some (.text text)
  | .int32, text =>
    if text ≠ "" ∧ text.toList.all Char.isDigit then
      some (.integer (text.toList.foldl (fun n d => 10 * n + (d.toNat - 48)) 0 : Nat))
    else
      none
  | _, _ => none

/-- An execution that reads texts and whole numbers. -/
def plainExecution : Execution :=
  { Execution.idle with castText := fun dataType text => .ok (text.bind (readPlain dataType)) }

/-- A number as a value. -/
def numberValue (text : String)
    (h : eqIgnoreAsciiCase (trimWhiteSpace text) "NULL" = false) : ValueExpr :=
  { text := text
    literal := some (some text)
    null_iff := by simp [h] }

def plainReading : TextReading plainExecution :=
  { parse := readPlain
    castText_eq := fun _ _ => rfl
    default := fun raw =>
      { text := raw
        literal := if eqIgnoreAsciiCase (trimWhiteSpace raw) "NULL" then some none else none
        null_iff := by
          split <;> simp_all }
    default_text := fun _ => rfl }

/-- The table after `CREATE TABLE t (a INT)` and `ALTER TABLE t ADD COLUMN b INT`. -/
def widenedTable : CatalogRelation :=
  { sampleTable with
    columns := [⟨"a", "Int32", true, none⟩, ⟨"_row_id", "Utf8", true, none⟩,
      ⟨"b", "INT", true, none⟩] }

example : (columns : List CatalogColumn) → columns = [⟨"a", "INT", true, none⟩] →
    (buildArrowSchemaFromDefinitions columns).map catalogColumnFromField
      ++ [⟨"b", "INT", true, none⟩] = widenedTable.columns := by
  rintro _ rfl
  decide

def widenedWorld : World :=
  World.bootstrap.withTable widenedTable ["file://", "m", "t"]
    { schema := [⟨"a", .int32, true⟩, rowIdField], rows := [] }

/-- The row `(1, 2)`. -/
def numberRow : List ValueExpr :=
  [numberValue "1" (by decide), numberValue "2" (by decide)]

end
