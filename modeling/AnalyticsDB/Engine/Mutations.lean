import AnalyticsDB.Lib.Text
import AnalyticsDB.Engine.Dml
import AnalyticsDB.Engine.Rename
import AnalyticsDB.Storage.Concurrent

/-!
# The other statements on the objects of a table

INSERT of values and of the result of a query, TRUNCATE, VACUUM and DROP TABLE.  Each of them
resolves its table and then changes the objects below the path of that table, and no others,
whether it succeeds or not.
-/

/-- What the engine gets from the libraries it inserts with. -/
structure Execution where
  /-- The cell a text becomes in a column of a type; the text of NULL is none. -/
  castText : DataType → Option String → Except String Cell
  /-- The text of a time, as `to_rfc3339` gives it. -/
  rfc3339 : Nat → String
  /-- The schema of the query made as a call, and what its execution yields one after the other:
  rows, or an error. -/
  executeStream : Nat → String → CatalogState → ObjectStore →
    Except String (Schema × List (Except String (List Row)))
  /-- The size of an object, as its store reports it. -/
  objectSize : Obj → Nat
  /-- The rows of a file of a compaction, from the size it should have and the size and the
  rows of what there is. -/
  rowBudget : Nat → Nat → Nat → Int

/-- An execution whose queries yield nothing. -/
def Execution.idle : Execution :=
  { castText := fun _ text => .ok (text.map .text)
    rfc3339 := fun _ => ""
    executeStream := fun _ _ _ _ => .ok ([], [])
    objectSize := fun _ => 0
    rowBudget := fun _ _ _ => 1 }

/-! ### Values -/

/-- A value of an INSERT without its quotes. -/
def normalizeInsertValue (raw : String) : String :=
  let trimmed := trimWhiteSpace raw
  if 2 ≤ trimmed.toList.length && trimmed.toList.head? = some '\''
      && trimmed.toList.getLast? = some '\'' then
    replaceAll (String.ofList (trimmed.toList.drop 1).dropLast) "''" "'"
  else
    trimmed

example : normalizeInsertValue " 'it''s' " = "it's" := by decide

/-- The position of the value for a column in a row of values. -/
def valuePosition (targetColumns : Option (List String)) (position : Nat) (column : String) :
    Option Nat :=
  match targetColumns with
  | some names => names.findIdx? (fun name => assignmentNames name column)
  | none => some position

/-- The fields with their positions. -/
def positioned : Nat → Schema → List (Nat × ArrowField)
  | _, [] => []
  | position, field :: fields => (position, field) :: positioned (position + 1) fields

/-- The rows of columns of the given height. -/
def rowsOfColumns (height : Nat) (columns : List (List Cell)) : List Row :=
  (List.range height).map (fun i => columns.map (fun cells => (cells[i]?).join))

/-- The rows inserted into a file before it is written. -/
def INSERT_SELECT_PARQUET_ROW_GROUP_SIZE : Nat := 1048576

/-- For each column of the table where a query gives it, with the field the query gives it, and
none where it is to be NULL. -/
def alignColumns (relation : CatalogRelation) (targetColumns : Option (List String))
    (source : Schema) : Except String (List (ArrowField × Option Nat)) :=
  let visible := relation.columns.filter (·.name ≠ "_row_id")
  let aligned (column : CatalogColumn) (position : Option Nat) : ArrowField × Option Nat :=
    match position.bind (source[·]?) with
    | some field => ({ field with name := column.name }, position)
    | none => ({ name := column.name, dataType := catalogDataType column.dataType
                 nullable := true }, none)
  match targetColumns with
  | some targetColumns =>
    if source.length ≠ targetColumns.length then
      .error s!"INSERT has {targetColumns.length} target columns but SELECT has {source.length} source columns"
    else
      .ok (visible.map (fun column =>
        aligned column (targetColumns.findIdx? (· = column.name))))
  | none =>
    if source.length ≠ visible.length then
      .error s!"INSERT into table with {visible.length} columns but SELECT has {source.length} source columns"
    else
      .ok (visible.zipIdx.map (fun (column, position) => aligned column (some position)))

/-- A batch of a query with the columns of the table. -/
def alignedBatch (aligned : List (ArrowField × Option Nat)) (rows : List Row) : RecordBatch :=
  { schema := aligned.map (·.1)
    rows := rows.map (fun row => aligned.map (fun (_, position) =>
      (position.bind (row[·]?)).join)) }

/-- The aligned columns are not the row id. -/
theorem alignColumns_ne_rowId {relation : CatalogRelation} {target : Option (List String)}
    {source : Schema} {aligned : List (ArrowField × Option Nat)}
    (h : alignColumns relation target source = .ok aligned) :
  ∀ field ∈ aligned, field.1.name ≠ "_row_id"
  := by
  have hname : ∀ (column : CatalogColumn) (position : Option Nat),
      column ∈ relation.columns.filter (·.name ≠ "_row_id") →
      (match position.bind (source[·]?) with
        | some field => (({ field with name := column.name } : ArrowField), position)
        | none => ({ name := column.name, dataType := catalogDataType column.dataType
                     nullable := true }, none)).1.name ≠ "_row_id" := by
    intro column position hcolumn
    have hne : column.name ≠ "_row_id" := by simpa using (List.mem_filter.mp hcolumn).2
    split
    · exact hne
    · exact hne
  unfold alignColumns at h
  dsimp only at h
  split at h
  · split at h
    · cases h
    · cases h
      intro field hfield
      obtain ⟨column, hcolumn, rfl⟩ := List.mem_map.mp hfield
      exact hname column _ hcolumn
  · split at h
    · cases h
    · cases h
      intro field hfield
      obtain ⟨⟨column, position⟩, hcolumn, rfl⟩ := List.mem_map.mp hfield
      exact hname column _ (List.fst_mem_of_mem_zipIdx hcolumn)

/-- The keys of an index in a batch. -/
def batchKeys (index : CatalogIndex) (batch : RecordBatch) : List Row :=
  batch.rows.map (fun row => index.columns.map (cellAt batch.schema row))

/-- Whether a batch has the columns of an index. -/
def hasIndexColumns (index : CatalogIndex) (batch : RecordBatch) : Bool :=
  index.columns.all (fun column => batch.schema.any (·.name = column))

/-- Whether some key without NULL is among those of an index snapshot. -/
def meetsSnapshot (index : CatalogIndex) (snapshot : RecordBatch) (keys : List Row) : Bool :=
  keys.any (fun key => key.all Option.isSome && (batchKeys index snapshot).contains key)

section

variable (o : Outside) (df : DataFusion) (x : Execution)

/-- The default value of a column, none when it has none. -/
def defaultValueForColumn (columns : List CatalogColumn) (name : String) :
    Op (Option String) :=
  match columns.find? (·.name = name) with
  | none => pure none
  | some column =>
    let raw := trimWhiteSpace (column.defaultValue.getD
      (if eqIgnoreAsciiCase name "created_at" then "CURRENT_TIMESTAMP" else ""))
    if raw.isEmpty then
      pure none
    else if eqIgnoreAsciiCase raw "CURRENT_TIMESTAMP()" || eqIgnoreAsciiCase raw "CURRENT_TIMESTAMP"
        || eqIgnoreAsciiCase raw "NOW()" then do
      let n ← outsideCall
      return some (x.rfc3339 (o.now n))
    else
      pure (some (normalizeInsertValue raw))

/-- The text of a column in a row that is inserted, none for NULL. -/
def insertText (columns : List CatalogColumn) (field : ArrowField) (position : Option Nat)
    (row : List String) : Op (Option String) :=
  let missing : Op (Option String) :=
    if field.nullable then
      pure none
    else
      bail s!"Column '{field.name}' must be provided because it is NOT NULL"
  match position.bind (row[·]?) with
  | some text =>
    if eqIgnoreAsciiCase (trimWhiteSpace text) "NULL" then missing
    else pure (some (normalizeInsertValue text))
  | none => do
    match ← defaultValueForColumn o x columns field.name with
    | some value => return some value
    | none => missing

/-- A new row id. -/
def newRowId : Op (Option String) := do
  let n ← outsideCall
  return some (o.uuid n)

/-- The texts of a column in the rows that are inserted; every row gets a new row id. -/
def insertTexts (columns : List CatalogColumn) (field : ArrowField) (position : Option Nat) :
    List (List String) → Op (List (Option String))
  | [] => pure []
  | row :: rows => do
    let text ← (if field.name = "_row_id" then newRowId o
      else insertText o x columns field position row)
    let rest ← insertTexts columns field position rows
    return text :: rest

/-- The columns of the rows that are inserted. -/
def insertColumns (columns : List CatalogColumn) (targetColumns : Option (List String))
    (rows : List (List String)) : List (Nat × ArrowField) → Op (List (List Cell))
  | [] => pure []
  | (position, field) :: fields => do
    let texts ← insertTexts o x columns field (valuePosition targetColumns position field.name) rows
    let cells ← orBail (texts.mapM (x.castText field.dataType))
    let rest ← insertColumns columns targetColumns rows fields
    return cells :: rest

/-- The batch of the rows that are inserted. -/
def buildRecordBatchFromRows (schema : Schema) (columns : List CatalogColumn)
    (targetColumns : Option (List String)) (rows : List (List String)) : Op RecordBatch := do
  let cells ← insertColumns o x columns targetColumns rows (positioned 0 schema)
  match (schema.zip cells).find? (fun (field, cells) => !field.nullable && cells.contains none) with
  | some (field, _) =>
    bail s!"Invalid argument error: Column '{field.name}' is declared as non-nullable but contains null values"
  | none => return { schema := schema, rows := rowsOfColumns rows.length cells }

/-! ### Uniqueness -/

/-- Read a text object, none when it is missing. -/
def readJson (key : OPath) : Op (Option String) := do
  match ← storeGet o key with
  | .error .notFound => return none
  | .error e => bail e.message
  | .ok obj =>
    match ← storeFault o, obj with
    | some e, _ => bail e.message
    | none, .other text => return some text
    | none, _ => bail "stream did not contain valid UTF-8"

/-- Read the snapshot of an index, none when it was not published or has no data. -/
def readIndexSnapshot (base : OPath) (index : CatalogIndex) : Op (Option RecordBatch) := do
  match ← readJson o (indexKey base index.name ++ ["manifest.json"]) with
  | none => return none
  | some version =>
    let versionKey := indexKey base index.name ++ ["versions", version]
    match ← readJson o (versionKey ++ ["metadata.json"]) with
    | none => bail s!"Published index snapshot for index '{index.name}' is missing its metadata object"
    | some _ =>
      match ← storeGet o (versionKey ++ ["data.parquet"]) with
      | .error .notFound => return none
      | .error e => bail e.message
      | .ok (.parquet snapshot) => return some snapshot
      | .ok _ => bail "Parquet error: Invalid Parquet file. Corrupt footer"

/-- Reject a batch with keys that an index already has, or has twice. -/
def validateBatchAgainstIndex (relation : CatalogRelation) (base : OPath) (batch : RecordBatch)
    (index : CatalogIndex) : Op Unit := do
  match ← readIndexSnapshot o base index with
  | none => pure ()
  | some snapshot =>
    queryFault df
    if !hasIndexColumns index batch then
      bail "Schema error: No field named"
    if hasDuplicates (batchKeys index batch) then
      bail s!"Unique index '{index.name}' on '{relation.database}.{relation.schema}.{relation.name}' would contain duplicate keys within the new batch"
    if meetsSnapshot index snapshot (batchKeys index batch) then
      bail s!"Unique index '{index.name}' on '{relation.database}.{relation.schema}.{relation.name}' would contain duplicate keys (violation against existing data)"

def validateBatchAgainstTableUniqueness (relation : CatalogRelation) (base : OPath)
    (batch : RecordBatch) : List CatalogIndex → Op Unit
  | [] => pure ()
  | index :: indexes => do
    (if index.isUnique || index.isPrimary then
        validateBatchAgainstIndex o df relation base batch index
      else
        pure ())
    validateBatchAgainstTableUniqueness relation base batch indexes

/-! ### Statements -/

/-- `INSERT INTO name [(columns)] VALUES rows`. -/
def executeInsertInto (session : SessionContext) (database schema : Option String) (name : String)
    (columns : Option (List String)) (rows : List (List String)) : Op DmlOutcome := do
  let relation ← tableRelation session database schema name
  let base ← tableStorePrefix o relation
  let expectedValues := match columns with
    | some columns => columns.length
    | none => relation.userColumns.length
  match rows.find? (·.length ≠ expectedValues) with
  | some row => bail s!"Expected {expectedValues} value(s) per row, found {row.length}"
  | none =>
    let batch ← buildRecordBatchFromRows o x (buildArrowSchemaFromDefinitions relation.columns)
      relation.columns columns rows
    let prepared ← prepareBatchForStorage o batch
    validateBatchAgainstTableUniqueness o df relation base prepared relation.indexes
    appendBatch o base prepared
    refreshIndexSnapshotsAfterMutation o df session relation
    return { message := s!"Inserted {prepared.rows.length} row(s) into '{relation.database}.{relation.schema}.{relation.name}'."
             rowCount := prepared.rows.length }

/-- `TRUNCATE name`. -/
def executeTruncate (session : SessionContext) (database schema : Option String)
    (name : String) : Op DmlOutcome := do
  let relation ← tableRelation session database schema name
  let base ← tableStorePrefix o relation
  persistEmptyTableSnapshot o base (buildArrowSchemaFromDefinitions relation.columns)
  refreshIndexSnapshotsAfterMutation o df session relation
  return { message :=
    s!"TRUNCATE completed for '{relation.database}.{relation.schema}.{relation.name}'."
           rowCount := 0 }

/-- The batches of the files a manifest lists; missing files are passed over. -/
def readListedBatches (base : OPath) : List ManifestEntry → Op (List RecordBatch)
  | [] => pure []
  | entry :: entries => do
    match ← storeGet o (entry.key base) with
    | .error .notFound => readListedBatches base entries
    | .error e => bail e.message
    | .ok obj =>
      match ← storeFault o with
      | some e => bail e.message
      | none =>
        match obj with
        | .parquet file => do
          let rest ← readListedBatches base entries
          return parquetBatches file ++ rest
        | _ => bail ("Parquet read error for " ++ "/".intercalate entry.path ++ ": Corrupt footer")

/-- Put every bin of batches as a data file, and return the entries that list them. -/
def putBins (base : OPath) (schema : Schema) : List (List RecordBatch) → Op (List ManifestEntry)
  | [] => pure []
  | bin :: bins => do
    let n ← outsideCall
    let fileName := o.uuid n ++ ".parquet"
    let file ← orBail (encodeParquetBatches schema bin)
    orStoreError (← storePut o (dataKey base fileName) (.parquet file) .overwrite)
    let entries ← putBins base schema bins
    return { path := ["data", fileName]
             size := o.encodedSize file
             rowCount := file.rows.length } :: entries

/-- Merge the files of a table into fewer, larger ones, and return their number. -/
def compactTable (base : OPath) (targetFileBytes minFileCount : Nat) : Op Nat := do
  match ← readManifest o base with
  | none => return 0
  | some manifest =>
    if manifest.files.length < minFileCount then
      return 0
    let batches ← readListedBatches o base manifest.files
    match batches with
    | [] => return 0
    | first :: _ =>
      let totalRows := (batches.map (·.rows.length)).sum
      let totalSize := (manifest.files.map (·.size)).sum
      let budget := max (x.rowBudget targetFileBytes totalSize totalRows) 1
      let entries ← putBins o base first.schema (binBatches budget [] 0 batches)
      replaceManifest o base entries
      let _ ← vacuumOrphans o base
      return entries.length

/-- `VACUUM name`. -/
def executeVacuumTable (session : SessionContext) (database schema : Option String)
    (name : String) : Op DmlOutcome := do
  let relation ← tableRelation session database schema name
  let base ← tableStorePrefix o relation
  let _ ← compactTable o x base (128 * 1024 * 1024) 2
  return { message :=
    s!"VACUUM completed for '{relation.database}.{relation.schema}.{relation.name}'."
           rowCount := 0 }

/-- Put the batches collected so far as a data file and list it. -/
def flushSelected (base : OPath) : List RecordBatch → Op Unit
  | [] => pure ()
  | first :: batches => do
    let n ← outsideCall
    let fileName := o.uuid n ++ ".parquet"
    let file ← orBail (encodeParquetBatches first.schema (first :: batches))
    orStoreError (← storePut o (dataKey base fileName) (.parquet file) .overwrite)
    appendToManifest o base
      { path := ["data", fileName], size := o.encodedSize file, rowCount := file.rows.length }

/-- Insert what a query yields, file by file, and return the number of rows. -/
def insertStream (relation : CatalogRelation) (base : OPath)
    (aligned : List (ArrowField × Option Nat)) :
    List (Except String (List Row)) → List RecordBatch → Nat → Nat → Op Nat
  | [], current, _, inserted => do
    flushSelected o base current
    return inserted
  | .error message :: _, _, _, _ => bail message
  | .ok rows :: stream, current, currentRows, inserted => do
    let prepared ← prepareBatchForStorage o (alignedBatch aligned rows)
    if prepared.rows.isEmpty then
      insertStream relation base aligned stream current currentRows inserted
    else
      validateBatchAgainstTableUniqueness o df relation base prepared relation.indexes
      let currentRows := currentRows + prepared.rows.length
      let inserted := inserted + prepared.rows.length
      if INSERT_SELECT_PARQUET_ROW_GROUP_SIZE ≤ currentRows then
        flushSelected o base (current ++ [prepared])
        insertStream relation base aligned stream [] 0 inserted
      else
        insertStream relation base aligned stream (current ++ [prepared]) currentRows inserted

/-- Insert the result of a query into the table at `base`. -/
def insertSelected (relation : CatalogRelation) (base : OPath) (columns : Option (List String))
    (querySql : String) : Op Nat := do
  let n ← outsideCall
  let w ← get
  let (source, stream) ← orBail (x.executeStream n querySql w.catalog w.store)
  let aligned ← orBail (alignColumns relation columns source)
  insertStream o df relation base aligned stream [] 0 0

end

section

variable (o : Outside) (session : SessionContext)

/-- The table a `DROP TABLE` names, when it exists. -/
def dropTarget (database schema : Option String) (name : String) (ifExists : Bool) :
    Op (Option CatalogRelation) := do
  match ← Eff.attempt (findRelation session database schema name) with
  | .ok relation =>
    if relation.kind ≠ .table then
      bail s!"Relation '{name}' is not a table"
    return some relation
  | .error _ =>
    if ifExists then
      return none
    else
      bail s!"Table '{name}' not found"

/-- Delete the objects of a managed table. -/
def deleteManagedObjects (relation : CatalogRelation) : Op Unit :=
  match relation.externalFormat, relation.storagePath with
  | none, some location => do
    let base ← orBail (storeForLocation o location)
    deletePrefix o base
  | _, _ => pure ()

def executeDropTable (database schema : Option String) (name : String) (ifExists : Bool) :
    Op String := do
  match ← dropTarget session database schema name ifExists with
  | some relation => deleteManagedObjects o relation
  | none => pure ()
  dropRelation o session database schema name .table ifExists

end

/-! ### What the statements change -/

section

open Eff

variable (o : Outside) (df : DataFusion) (x : Execution) {base : OPath}

/-- The path of a table is looked up without changing anything. -/
theorem after_tableStorePrefix {o : Outside} {w : World} (relation : CatalogRelation) :
  After (tableStorePrefix o relation) w (fun r w' => w' = w
    ∧ ∀ base, r = .ok base → relation.base? o = some base)
  := by
  unfold tableStorePrefix CatalogRelation.base?
  cases relation.storagePath with
  | none => exact ⟨rfl, nofun⟩
  | some location =>
      rw [after_orBail]
      constructor
      · intro message _
        exact ⟨rfl, nofun⟩
      · intro base hbase
        refine ⟨rfl, ?_⟩
        rintro _ ⟨rfl⟩
        rw [Option.bind_some, hbase]
        rfl

theorem defaultValueForColumn_modifies (touched : OPath → Prop) (columns : List CatalogColumn)
    (name : String) :
  ModifiesOnly touched (defaultValueForColumn o x columns name)
  := by
  unfold defaultValueForColumn
  cases columns.find? (·.name = name) with
  | none => apply ModifiesOnly.pure
  | some column =>
      apply ModifiesOnly.ite
      · apply ModifiesOnly.pure
      · apply ModifiesOnly.ite
        · apply ModifiesOnly.bind ModifiesOnly.outsideCall
          intro n
          apply ModifiesOnly.pure
        · apply ModifiesOnly.pure

theorem insertText_modifies (touched : OPath → Prop) (columns : List CatalogColumn)
    (field : ArrowField)
    (position : Option Nat) (row : List String) :
  ModifiesOnly touched (insertText o x columns field position row)
  := by
  have hmissing : ModifiesOnly touched (if field.nullable then pure none else
      bail s!"Column '{field.name}' must be provided because it is NOT NULL"
        : Op (Option String)) := by
    apply ModifiesOnly.ite
    · apply ModifiesOnly.pure
    · apply ModifiesOnly.bail
  unfold insertText
  dsimp only
  split
  · apply ModifiesOnly.ite hmissing
    apply ModifiesOnly.pure
  · apply ModifiesOnly.bind (defaultValueForColumn_modifies o x touched columns field.name)
    intro value
    cases value with
    | some value => apply ModifiesOnly.pure
    | none => apply hmissing

theorem insertTexts_modifies (touched : OPath → Prop) (columns : List CatalogColumn)
    (field : ArrowField) (position : Option Nat) (rows : List (List String)) :
  ModifiesOnly touched (insertTexts o x columns field position rows)
  := by
  induction rows with
  | nil => apply ModifiesOnly.pure
  | cons row rows ih =>
      apply ModifiesOnly.bind
      · apply ModifiesOnly.ite
        · apply ModifiesOnly.bind ModifiesOnly.outsideCall
          intro n
          apply ModifiesOnly.pure
        · apply insertText_modifies
      · intro text
        apply ModifiesOnly.bind ih
        intro rest
        apply ModifiesOnly.pure

theorem insertColumns_modifies (touched : OPath → Prop) (columns : List CatalogColumn)
    (targetColumns : Option (List String)) (rows : List (List String))
    (fields : List (Nat × ArrowField)) :
  ModifiesOnly touched (insertColumns o x columns targetColumns rows fields)
  := by
  induction fields with
  | nil => apply ModifiesOnly.pure
  | cons field fields ih =>
      apply ModifiesOnly.bind (insertTexts_modifies o x touched columns _ _ rows)
      intro texts
      apply ModifiesOnly.bind (ModifiesOnly.orBail _)
      intro cells
      apply ModifiesOnly.bind ih
      intro rest
      apply ModifiesOnly.pure

theorem buildRecordBatchFromRows_modifies (touched : OPath → Prop) (schema : Schema)
    (columns : List CatalogColumn) (targetColumns : Option (List String))
    (rows : List (List String)) :
  ModifiesOnly touched (buildRecordBatchFromRows o x schema columns targetColumns rows)
  := by
  apply ModifiesOnly.bind (insertColumns_modifies o x touched columns targetColumns rows _)
  intro cells
  dsimp only
  split
  · apply ModifiesOnly.bail
  · apply ModifiesOnly.pure

theorem readJson_modifies (touched : OPath → Prop) (key : OPath) :
  ModifiesOnly touched (readJson o key)
  := by
  apply ModifiesOnly.bind (storeGet_modifies o touched key)
  intro outcome
  split
  · apply ModifiesOnly.pure
  · apply ModifiesOnly.bail
  · apply ModifiesOnly.bind (storeFault_modifies o touched)
    intro fault
    split
    · apply ModifiesOnly.bail
    · apply ModifiesOnly.pure
    · apply ModifiesOnly.bail

theorem readIndexSnapshot_modifies (touched : OPath → Prop) (index : CatalogIndex) :
  ModifiesOnly touched (readIndexSnapshot o base index)
  := by
  apply ModifiesOnly.bind (readJson_modifies o touched _)
  intro version
  cases version with
  | none => apply ModifiesOnly.pure
  | some version =>
      apply ModifiesOnly.bind (readJson_modifies o touched _)
      intro metadata
      cases metadata with
      | none => apply ModifiesOnly.bail
      | some metadata =>
          apply ModifiesOnly.bind (storeGet_modifies o touched _)
          intro outcome
          split
          · apply ModifiesOnly.pure
          · apply ModifiesOnly.bail
          · apply ModifiesOnly.pure
          · apply ModifiesOnly.bail

theorem validateBatchAgainstIndex_modifies (touched : OPath → Prop)
    (relation : CatalogRelation) (batch : RecordBatch) (index : CatalogIndex) :
  ModifiesOnly touched (validateBatchAgainstIndex o df relation base batch index)
  := by
  apply ModifiesOnly.bind (readIndexSnapshot_modifies o touched index)
  intro snapshot
  cases snapshot with
  | none => apply ModifiesOnly.pure
  | some snapshot =>
      apply ModifiesOnly.bind (queryFault_modifies df touched)
      intro _
      apply ModifiesOnly.guard
      apply ModifiesOnly.guard
      apply ModifiesOnly.ite
      · apply ModifiesOnly.bail
      · apply ModifiesOnly.pure

theorem validateBatchAgainstTableUniqueness_modifies (touched : OPath → Prop)
    (relation : CatalogRelation) (batch : RecordBatch) (indexes : List CatalogIndex) :
  ModifiesOnly touched
    (validateBatchAgainstTableUniqueness o df relation base batch indexes)
  := by
  induction indexes with
  | nil => apply ModifiesOnly.pure
  | cons index indexes ih =>
      apply ModifiesOnly.bind
      · apply ModifiesOnly.ite
        · apply validateBatchAgainstIndex_modifies
        · apply ModifiesOnly.pure
      · intro _
        apply ih

theorem appendToManifest_below (entry : ManifestEntry) :
  ModifiesOnly (base <+: ·) (appendToManifest o base entry)
  := by
  apply ModifiesOnly.mono (casManifest_modifies o base _ _)
  rintro key rfl
  exact ⟨_, rfl⟩

/-- A data file and the manifest are below the path of their table. -/
theorem putListed_below (fileName : String) (obj : Obj) (entry : ManifestEntry) :
  ModifiesOnly (base <+: ·) (do
    orStoreError (← storePut o (dataKey base fileName) obj .overwrite)
    appendToManifest o base entry)
  := by
  apply putOrFail_modifies o
  · exact ⟨["data", fileName], rfl⟩
  · apply appendToManifest_below

theorem appendBatch_below (batch : RecordBatch) :
  ModifiesOnly (base <+: ·) (appendBatch o base batch)
  := by
  apply ModifiesOnly.bind ModifiesOnly.outsideCall
  intro n
  apply putListed_below

theorem flushSelected_below (batches : List RecordBatch) :
  ModifiesOnly (base <+: ·) (flushSelected o base batches)
  := by
  cases batches with
  | nil => apply ModifiesOnly.pure
  | cons first batches =>
      apply ModifiesOnly.bind ModifiesOnly.outsideCall
      intro n
      apply ModifiesOnly.bind (ModifiesOnly.orBail _)
      intro file
      apply putListed_below

theorem insertStream_below (relation : CatalogRelation) (aligned : List (ArrowField × Option Nat))
    (stream : List (Except String (List Row))) (current : List RecordBatch)
    (currentRows inserted : Nat) :
  ModifiesOnly (base <+: ·)
    (insertStream o df relation base aligned stream current currentRows inserted)
  := by
  induction stream generalizing current currentRows inserted with
  | nil =>
      apply ModifiesOnly.bind (flushSelected_below o current)
      intro _
      apply ModifiesOnly.pure
  | cons item stream ih =>
      cases item with
      | error message => apply ModifiesOnly.bail
      | ok rows =>
          apply ModifiesOnly.bind (prepareBatchForStorage_modifies o _ _)
          intro prepared
          apply ModifiesOnly.ite
          · apply ih
          · apply ModifiesOnly.bind
              (validateBatchAgainstTableUniqueness_modifies o df _ relation prepared _)
            intro _
            apply ModifiesOnly.ite
            · apply ModifiesOnly.bind (flushSelected_below o _)
              intro _
              apply ih
            · apply ih

theorem insertSelected_below (relation : CatalogRelation) (columns : Option (List String))
    (querySql : String) :
  ModifiesOnly (base <+: ·) (insertSelected o df x relation base columns querySql)
  := by
  apply ModifiesOnly.bind ModifiesOnly.outsideCall
  intro n
  apply ModifiesOnly.bind ModifiesOnly.get
  intro w
  apply ModifiesOnly.bind (ModifiesOnly.orBail _)
  intro planned
  apply ModifiesOnly.bind (ModifiesOnly.orBail _)
  intro aligned
  apply insertStream_below

theorem readListedBatches_modifies (touched : OPath → Prop) (entries : List ManifestEntry) :
  ModifiesOnly touched (readListedBatches o base entries)
  := by
  induction entries with
  | nil => apply ModifiesOnly.pure
  | cons entry entries ih =>
      apply ModifiesOnly.bind (storeGet_modifies o touched _)
      intro outcome
      split
      · apply ih
      · apply ModifiesOnly.bail
      · apply ModifiesOnly.bind (storeFault_modifies o touched)
        intro fault
        split
        · apply ModifiesOnly.bail
        · split
          · apply ModifiesOnly.bind ih
            intro rest
            apply ModifiesOnly.pure
          · apply ModifiesOnly.bail

theorem putBins_below (schema : Schema) (bins : List (List RecordBatch)) :
  ModifiesOnly (base <+: ·) (putBins o base schema bins)
  := by
  induction bins with
  | nil => apply ModifiesOnly.pure
  | cons bin bins ih =>
      apply ModifiesOnly.bind ModifiesOnly.outsideCall
      intro n
      apply ModifiesOnly.bind (ModifiesOnly.orBail _)
      intro file
      apply putOrFail_modifies o
      · exact ⟨["data", _], rfl⟩
      · apply ModifiesOnly.bind ih
        intro entries
        apply ModifiesOnly.pure

theorem compactTable_below (targetFileBytes minFileCount : Nat) :
  ModifiesOnly (base <+: ·) (compactTable o x base targetFileBytes minFileCount)
  := by
  apply ModifiesOnly.bind (readManifest_modifies o _ base)
  intro manifest
  cases manifest with
  | none => apply ModifiesOnly.pure
  | some manifest =>
      apply ModifiesOnly.ite
      · apply ModifiesOnly.pure
      · apply ModifiesOnly.bind (readListedBatches_modifies o _ manifest.files)
        intro batches
        cases batches with
        | nil => apply ModifiesOnly.pure
        | cons first batches =>
            apply ModifiesOnly.bind (putBins_below o _ _)
            intro entries
            have hcommit := ModifiesOnly.mono (commit_modifies o base entries)
              (fun _ => snapshotKey_below)
            have hcommit := ModifiesOnly.bind hcommit (fun _ => ModifiesOnly.pure entries.length)
            simpa only [bind_assoc, pure_bind] using hcommit

theorem refreshIndexSnapshotsAfterMutation_below (session : SessionContext)
    {relation : CatalogRelation} (hbase : relation.base? o = some base) :
  ModifiesOnly (base <+: ·) (refreshIndexSnapshotsAfterMutation o df session relation)
  := (refreshIndexSnapshotsAfterMutation_modifies o df session hbase).mono
    (fun _ => indexKey_below)

end
