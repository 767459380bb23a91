import AnalyticsDB.Control.Accounts
import AnalyticsDB.Engine.Select
import Mathlib.Data.List.Forall2

/-!
# Writing tables

Writers of a table put the batches of the new snapshot as data files, replace the manifest,
and vacuum the files it does not list any more.  Every stored row has a row id.  After a
change the indexes of the table are rebuilt, below a directory of their own.
-/

/-- The rows of the file at a key. -/
def fileRows (columns : List String) (store : ObjectStore) (key : OPath) : List Row :=
  match store[key]? with
  | some (.parquet batch) => batch.rowsOver columns
  | _ => []

/-- The rows of the files that the manifest of the table at `base` lists. -/
def committedRows (columns : List String) (store : ObjectStore) (base : OPath) : List Row :=
  match store[manifestKey base]? with
  | some (.manifest m) => m.files.flatMap (fun entry => fileRows columns store (entry.key base))
  | _ => []

/-- The system with a table added whose committed snapshot is one data file at `base`. -/
def World.withTable (w : World) (relation : CatalogRelation) (base : OPath)
    (batch : RecordBatch) : World :=
  let entry : ManifestEntry := { path := ["data", "0.parquet"], size := 0, rowCount := 0 }
  { w with
    catalog.relations := w.catalog.relations.insert
      (relationKey relation.database relation.schema relation.name) relation
    store := (w.store.insert (entry.key base) (.parquet batch)).insert (manifestKey base)
      (.manifest { snapshotId := "", createdAtMs := 0, files := [entry] }) }

/-- The field of the row id. -/
def rowIdField : ArrowField := { name := "_row_id", dataType := .utf8, nullable := true }

/-- A table with one column. -/
def sampleTable : CatalogRelation :=
  { database := "postgres"
    schema := "public"
    name := "t"
    kind := .table
    definitionSql := none
    storagePath := some "file:///m/t"
    externalFormat := none
    columns := [⟨"k", "Int64", true, none⟩]
    constraints := []
    indexes := [] }

/-- The rows of the table: 1, 2 and NULL. -/
def sampleRows : List Row :=
  [[some (.integer 1), some (.text "a")], [some (.integer 2), some (.text "b")],
    [none, some (.text "c")]]

/-- A first install with the table added. -/
def sampleWorld : World :=
  World.bootstrap.withTable sampleTable ["file://", "m", "t"]
    { schema := [⟨"k", .int64, true⟩, rowIdField], rows := sampleRows }

def asciiUppercase (text : String) : String := String.ofList (text.toList.map Char.toUpper)

/-- The Arrow type of a type named in the catalogue or in a statement. -/
def catalogDataType (dataType : String) : DataType :=
  let upper := asciiUppercase dataType
  if startsWith upper "NUMERIC" || startsWith upper "DECIMAL" then
    .decimal128 38 10
  else if startsWith upper "TIMESTAMP" then
    if contains upper "WITH TIME ZONE" || contains upper "TZ" || contains upper "UTC" then
      .timestampMicrosecond (some "UTC")
    else
      .timestampMicrosecond none
  else
    match upper with
    | "INT" | "INTEGER" | "INT4" | "INT32" => .int32
    | "BIGINT" | "INT8" | "INT64" => .int64
    | "TEXT" | "VARCHAR" | "STRING" | "UTF8" => .utf8
    | "BOOLEAN" | "BOOL" => .boolean
    | "FLOAT4" | "REAL" | "FLOAT32" => .float32
    | "FLOAT8" | "DOUBLE PRECISION" | "FLOAT64" => .float64
    | "DATE" | "DATE32" => .date32
    | _ => .utf8

/-- The schema of a table's files: its columns and the row id. -/
def buildArrowSchemaFromDefinitions (columns : List CatalogColumn) : Schema :=
  let fields := columns.map (fun column =>
    { name := column.name
      dataType := catalogDataType column.dataType
      nullable := column.nullable : ArrowField })
  if fields.any (·.name = "_row_id") then fields else fields ++ [rowIdField]

/-- The path of the objects of an index. -/
def indexKey (base : OPath) (indexName : String) : OPath :=
  base ++ [".analyticsdb_indexes", indexName]

/-- Whether a list has an element twice. -/
def hasDuplicates (keys : List Row) : Bool := !decide keys.Nodup

section

variable (o : Outside) (df : DataFusion)

/-- Give every row a fresh row id. -/
def withRowIds (put : Row → Cell → Row) : List Row → Op (List Row)
  | [] => pure []
  | row :: rows => do
    let n ← outsideCall
    let rest ← withRowIds put rows
    return put row (some (.text (o.uuid n))) :: rest

/-- Add row ids to a batch that has none, and replace the placeholders of one that does. -/
def prepareBatchForStorage (batch : RecordBatch) : Op RecordBatch := do
  match batch.schema.findIdx? (·.name = "_row_id") with
  | some i =>
    if (batch.rows.head?.bind (·[i]?)).join = some (.text "AUTO_UUID") then
      let rows ← withRowIds o (fun row id => row.set i id) batch.rows
      return { batch with rows := rows }
    else
      return batch
  | none =>
    let rows ← withRowIds o (fun row id => row ++ [id]) batch.rows
    return { schema := batch.schema ++ [rowIdField], rows := rows }

def prepareBatches : List RecordBatch → Op (List RecordBatch)
  | [] => pure []
  | batch :: batches => do
    let prepared ← prepareBatchForStorage o batch
    let rest ← prepareBatches batches
    return prepared :: rest

/-- Put every batch as a data file of its own, and return the entries that list them. -/
def putBatches (base : OPath) : List RecordBatch → Op (List ManifestEntry)
  | [] => pure []
  | batch :: batches => do
    let n ← outsideCall
    let fileName := o.uuid n ++ ".parquet"
    orStoreError (← storePut o (dataKey base fileName) (.parquet batch) .overwrite)
    let entries ← putBatches base batches
    return { path := ["data", fileName]
             size := o.encodedSize batch
             rowCount := batch.rows.length } :: entries

/-- Replace the snapshot of a table by the rows of a result, and return their number. -/
def writeDataframeToTableSnapshot (schema : Schema) (rows : List Row) (base : OPath) :
    Op Nat := do
  queryFault df
  let n ← outsideCall
  let batches := (df.batches n rows).map (fun rows => { schema := schema, rows := rows })
  let prepared ← prepareBatches o batches
  let entries ← putBatches o base prepared
  replaceManifest o base entries
  let _ ← vacuumOrphans o base
  return (batches.map (·.rows.length)).sum

/-- Replace the snapshot of a table by an empty one. -/
def persistEmptyTableSnapshot (base : OPath) (schema : Schema) : Op Unit := do
  orStoreError (← storePut o (base ++ ["empty.parquet"])
    (.parquet { schema := schema, rows := [] }) .overwrite)
  replaceManifest o base []
  let _ ← vacuumOrphans o base

/-- Append a batch to a table as a new data file. -/
def appendBatch (base : OPath) (batch : RecordBatch) : Op Unit := do
  let n ← outsideCall
  let fileName := o.uuid n ++ ".parquet"
  orStoreError (← storePut o (dataKey base fileName) (.parquet batch) .overwrite)
  appendToManifest o base
    { path := ["data", fileName], size := o.encodedSize batch, rowCount := batch.rows.length }

/-- The path of a table's objects. -/
def tableStorePrefix (relation : CatalogRelation) : Op OPath :=
  match relation.storagePath with
  | none => bail s!"Managed table '{relation.database}.{relation.schema}.{relation.name}' is missing a storage path"
  | some location => orBail (storeForLocation o location)

/-- Build the snapshot of an index from the rows of its table, and publish it. -/
def rebuildIndexSnapshot (session : SessionContext) (relation : CatalogRelation) (base : OPath)
    (index : CatalogIndex) : Op Unit := do
  let n ← outsideCall
  let version := o.uuid n
  let columns := index.columns ++ ["_row_id"]
  let (tableColumns, rows) ← scanTable o df session relation
  if index.columns.isEmpty || !decide columns.Nodup || !columns.all tableColumns.contains then
    bail "Schema error: No field named"
  let entries := rows.map (fun row =>
    columns.map (fun column => ((tableColumns.zip row).lookup column).join))
  if (index.isUnique || index.isPrimary)
      && hasDuplicates (entries.map (·.take index.columns.length)) then
    bail s!"Unique index '{index.name}' on '{relation.database}.{relation.schema}.{relation.name}' would contain duplicate keys"
  let schema := columns.map (fun column => { rowIdField with name := column })
  let versionKey := indexKey base index.name ++ ["versions", version]
  orStoreError (← storePut o (versionKey ++ ["data.parquet"])
    (.parquet { schema := schema, rows := entries }) .overwrite)
  orStoreError (← storePut o (versionKey ++ ["metadata.json"]) (.other version) .overwrite)
  orStoreError (← storePut o (indexKey base index.name ++ ["manifest.json"]) (.other version)
    .overwrite)

def rebuildIndexSnapshots (session : SessionContext) (relation : CatalogRelation) (base : OPath) :
    List CatalogIndex → Op Unit
  | [] => pure ()
  | index :: indexes => do
    rebuildIndexSnapshot o df session relation base index
    rebuildIndexSnapshots session relation base indexes

def rebuildAllIndexSnapshots (session : SessionContext) (relation : CatalogRelation) :
    Op Unit := do
  let base ← tableStorePrefix o relation
  rebuildIndexSnapshots o df session relation base relation.indexes

def refreshIndexSnapshotsAfterMutation (session : SessionContext) (relation : CatalogRelation) :
    Op Unit :=
  if relation.indexes.isEmpty then pure () else rebuildAllIndexSnapshots o df session relation

end

/-! ### Row ids -/

/-- The cells of the user columns do not depend on an added row id. -/
theorem cellAt_append_rowId {schema : Schema} {row : Row} {column : String} (id : Cell)
    (hlength : row.length = schema.length) (hcolumn : column ≠ "_row_id") :
  cellAt (schema ++ [rowIdField]) (row ++ [id]) column = cellAt schema row column
  := by
  have hnew : ([rowIdField].findIdx? (·.name = column)) = none := by
    simp [rowIdField, Ne.symm hcolumn]
  unfold cellAt
  rw [List.findIdx?_append, hnew]
  cases hfound : schema.findIdx? (·.name = column) with
  | none => simp
  | some i =>
      have hi : i < row.length := by
        rw [hlength]
        exact (List.findIdx?_eq_some_iff_getElem.mp hfound).1
      simp [List.getElem?_append_left hi]

/-- The cells of the user columns do not depend on a replaced row id. -/
theorem cellAt_set_rowId {schema : Schema} {row : Row} {column : String} {i : Nat} (id : Cell)
    (hi : schema.findIdx? (·.name = "_row_id") = some i) (hcolumn : column ≠ "_row_id") :
  cellAt schema (row.set i id) column = cellAt schema row column
  := by
  unfold cellAt
  cases hfound : schema.findIdx? (·.name = column) with
  | none => rfl
  | some j =>
      obtain ⟨hlt, hj, -⟩ := List.findIdx?_eq_some_iff_getElem.mp hfound
      obtain ⟨hlt', hi', -⟩ := List.findIdx?_eq_some_iff_getElem.mp hi
      have hne : i ≠ j := by
        rintro rfl
        rw [decide_eq_true_eq] at hi' hj
        rw [hi'] at hj
        exact hcolumn hj.symm
      simp [List.getElem?_set_ne hne]

section

open Eff

variable (o : Outside)

theorem withRowIds_modifies (touched : OPath → Prop) (put : Row → Cell → Row) (rows : List Row) :
  ModifiesOnly touched (withRowIds o put rows)
  := by
  induction rows with
  | nil => apply ModifiesOnly.pure
  | cons row rows ih =>
      apply ModifiesOnly.bind ModifiesOnly.outsideCall
      intro n
      apply ModifiesOnly.bind ih
      intro rest
      apply ModifiesOnly.pure

theorem withRowIds_returns (put : Row → Cell → Row) (rows : List Row) (w : World) :
  Returns (withRowIds o put rows) w (fun rows' _ =>
    List.Forall₂ (fun row row' => ∃ id, row' = put row id) rows rows')
  := by
  induction rows generalizing w with
  | nil => simp [withRowIds]
  | cons row rows ih =>
      rw [withRowIds, returns_bind, returns_outsideCall, returns_bind]
      refine Returns.mono (ih _) ?_
      intro rest w' hrest
      rw [returns_pure]
      constructor
      · use some (.text (o.uuid w.calls))
      · apply hrest

/-- Rows changed in a way that keeps the cells of some columns are the same over them. -/
theorem rowsOver_eq_of_forall₂ {columns : List String} {schema schema' : Schema}
    {rows rows' : List Row}
    (h : List.Forall₂ (fun row row' => ∀ column ∈ columns,
      cellAt schema' row' column = cellAt schema row column) rows rows') :
  (⟨schema', rows'⟩ : RecordBatch).rowsOver columns = (⟨schema, rows⟩ : RecordBatch).rowsOver
    columns
  := by
  induction h with
  | nil => rfl
  | cons hrow _ ih =>
      simp only [RecordBatch.rowsOver, List.map_cons, List.cons.injEq] at ih ⊢
      constructor
      · apply List.map_congr_left
        apply hrow
      · apply ih

theorem prepareBatchForStorage_modifies (touched : OPath → Prop) (batch : RecordBatch) :
  ModifiesOnly touched (prepareBatchForStorage o batch)
  := by
  unfold prepareBatchForStorage
  split
  · apply ModifiesOnly.ite
    · apply ModifiesOnly.bind (withRowIds_modifies o touched _ _)
      intro rows
      apply ModifiesOnly.pure
    · apply ModifiesOnly.pure
  · apply ModifiesOnly.bind (withRowIds_modifies o touched _ _)
    intro rows
    apply ModifiesOnly.pure

/-- Preparing a batch keeps its user columns. -/
theorem prepareBatchForStorage_returns (batch : RecordBatch) (w : World)
    (hlength : ∀ row ∈ batch.rows, row.length = batch.schema.length) :
  Returns (prepareBatchForStorage o batch) w (fun prepared _ =>
    ∀ columns, "_row_id" ∉ columns → prepared.rowsOver columns = batch.rowsOver columns)
  := by
  unfold prepareBatchForStorage
  split
  · rename_i i hi
    rw [returns_ite]
    constructor
    · intro _
      rw [returns_bind]
      refine Returns.mono (withRowIds_returns o _ _ w) ?_
      intro rows' w' hrows
      rw [returns_pure]
      intro columns hcolumns
      apply rowsOver_eq_of_forall₂
      apply List.Forall₂.imp _ hrows
      rintro row row' ⟨id, rfl⟩ column hcolumn
      apply cellAt_set_rowId id hi
      rintro rfl
      apply hcolumns hcolumn
    · intro _
      rw [returns_pure]
      intro columns _
      rfl
  · rw [returns_bind]
    refine Returns.mono (withRowIds_returns o _ _ w) ?_
    intro rows' w' hrows
    rw [returns_pure]
    intro columns hcolumns
    apply rowsOver_eq_of_forall₂
    have hpairs : List.Forall₂ (fun row row' => row.length = batch.schema.length
        ∧ ∃ id, row' = row ++ [id]) batch.rows rows' := by
      exact (List.forall₂_and_left _ _).mpr ⟨hlength, hrows⟩
    apply List.Forall₂.imp _ hpairs
    rintro row row' ⟨hrow, id, rfl⟩ column hcolumn
    apply cellAt_append_rowId id hrow
    rintro rfl
    apply hcolumns hcolumn

theorem prepareBatches_modifies (touched : OPath → Prop) (batches : List RecordBatch) :
  ModifiesOnly touched (prepareBatches o batches)
  := by
  induction batches with
  | nil => apply ModifiesOnly.pure
  | cons batch batches ih =>
      apply ModifiesOnly.bind (prepareBatchForStorage_modifies o touched batch)
      intro prepared
      apply ModifiesOnly.bind ih
      intro rest
      apply ModifiesOnly.pure

theorem prepareBatches_returns (batches : List RecordBatch) (w : World)
    (hlength : ∀ batch ∈ batches, ∀ row ∈ batch.rows, row.length = batch.schema.length) :
  Returns (prepareBatches o batches) w (fun prepared _ =>
    ∀ columns, "_row_id" ∉ columns →
      prepared.map (·.rowsOver columns) = batches.map (·.rowsOver columns))
  := by
  induction batches generalizing w with
  | nil => simp [prepareBatches]
  | cons batch batches ih =>
      rw [prepareBatches, returns_bind]
      refine Returns.mono (prepareBatchForStorage_returns o batch w
        (hlength batch List.mem_cons_self)) ?_
      intro prepared w' hprepared
      rw [returns_bind]
      refine Returns.mono (ih w' (fun b hb => hlength b (List.mem_cons_of_mem batch hb))) ?_
      intro rest w'' hrest
      rw [returns_pure]
      intro columns hcolumns
      rw [List.map_cons, List.map_cons, hprepared columns hcolumns, hrest columns hcolumns]

/-! ### Data files -/

/-- The keys of the data files whose names are drawn from the call `first` on. -/
def FreshDataKey (base : OPath) (first : Nat) (key : OPath) : Prop :=
  ∃ n, first ≤ n ∧ key = dataKey base (o.uuid n ++ ".parquet")

/-- The entries list data files that hold the batches. -/
def StoredAs (store : ObjectStore) (base : OPath) (entries : List ManifestEntry)
    (batches : List RecordBatch) : Prop :=
  List.Forall₂ (fun entry batch => (∃ fileName, entry.path = ["data", fileName])
    ∧ store[entry.key base]? = some (.parquet batch)) entries batches

theorem dataKey_inj {base : OPath} {m n : Nat}
    (h : dataKey base (o.uuid m ++ ".parquet") = dataKey base (o.uuid n ++ ".parquet")) :
  m = n
  := by
  apply o.uuid_injective
  simpa [dataKey] using h

/-- Putting batches touches only fresh data files, and those listed hold the batches. -/
theorem after_putBatches (base : OPath) (batches : List RecordBatch) (w : World) :
  After (putBatches o base batches) w (fun r w' =>
    Frame (FreshDataKey o base w.calls) w w'
      ∧ ∀ entries, r = .ok entries → StoredAs w'.store base entries batches)
  := by
  induction batches generalizing w with
  | nil =>
      constructor
      · apply Frame.refl
      · rintro entries ⟨⟩
        apply List.Forall₂.nil
  | cons batch batches ih =>
      have hkey : FreshDataKey o base w.calls (dataKey base (o.uuid w.calls ++ ".parquet")) :=
        ⟨w.calls, Nat.le_refl _, rfl⟩
      have hcall := Frame.call (FreshDataKey o base w.calls) w
      simp only [putBatches, after_bind, after_outsideCall, resume_ok]
      refine After.mono ((storePut_modifies o _ _ _ _).and (storePut_returns o _ _ _ _)) ?_
      rintro outcome w₁ ⟨hinner, hstored⟩
      have hput := Frame.trans hcall (hinner.mono (fun key h => h ▸ hkey))
      cases outcome with
      | error e =>
          constructor
          · apply hput
          · intro entries h
            cases h
      | ok outcome =>
          rw [resume_ok]
          cases outcome with
          | error e =>
              constructor
              · apply hput
              · intro entries h
                cases h
          | ok _ =>
              rw [orStoreError, after_bind, after_pure, resume_ok, after_bind]
              have hstored := hstored _ rfl rfl
              refine After.mono (ih w₁) ?_
              rintro r w₂ ⟨hrest, hentries⟩
              -- the files put later have other names
              have hkept : w₂.store[dataKey base (o.uuid w.calls ++ ".parquet")]?
                  = some (.parquet batch) := by
                rw [hrest.store _ _, hstored]
                rintro ⟨n, hn, heq⟩
                rw [← dataKey_inj o heq] at hn
                exact Nat.not_le_of_lt (Nat.lt_of_lt_of_le (Nat.lt_succ_self _) hinner.calls) hn
              have hrest := hput.trans (hrest.mono (by
                rintro key ⟨n, hn, rfl⟩
                exact ⟨n, Nat.le_trans hput.calls hn, rfl⟩))
              cases r with
              | error e =>
                  constructor
                  · apply hrest
                  · intro entries h
                    cases h
              | ok entries =>
                  constructor
                  · apply hrest
                  · rintro entries' ⟨⟩
                    constructor
                    · exact ⟨⟨_, rfl⟩, hkept⟩
                    · apply hentries _ rfl

theorem putBatches_returns (base : OPath) (batches : List RecordBatch) (w : World) :
  Returns (putBatches o base batches) w (fun entries w' => StoredAs w'.store base entries batches)
  := (after_putBatches o base batches w).2

/-- The manifest of the table at `base` lists data files that hold the batches. -/
def CommittedAs (store : ObjectStore) (base : OPath) (batches : List RecordBatch) : Prop :=
  ∃ m, store[manifestKey base]? = some (.manifest m) ∧ StoredAs store base m.files batches

/-- Data files that are not touched still hold their batches. -/
theorem StoredAs.of_frame {touched : OPath → Prop} {w w' : World} {base : OPath}
    {entries : List ManifestEntry} {batches : List RecordBatch}
    (h : StoredAs w.store base entries batches) (hframe : Frame touched w w')
    (hkept : ∀ entry ∈ entries, (∃ fileName, entry.path = ["data", fileName]) →
      ¬ touched (entry.key base)) :
  StoredAs w'.store base entries batches
  := by
  induction h with
  | nil => apply List.Forall₂.nil
  | cons hentry _ ih =>
      constructor
      · constructor
        · apply hentry.1
        · rw [hframe.store _ (hkept _ List.mem_cons_self hentry.1)]
          apply hentry.2
      · apply ih
        intro entry hmem
        apply hkept entry (List.mem_cons_of_mem _ hmem)

/-- The committed rows are those of the batches the listed files hold. -/
theorem CommittedAs.rows {store : ObjectStore} {base : OPath} {batches : List RecordBatch}
    (h : CommittedAs store base batches) (columns : List String) :
  committedRows columns store base = (batches.map (·.rowsOver columns)).flatten
  := by
  obtain ⟨m, hm, hstored⟩ := h
  rw [committedRows, hm]
  dsimp only
  generalize m.files = entries at hstored
  induction hstored with
  | nil => rfl
  | cons hentry _ ih =>
      rw [List.flatMap_cons, ih, List.map_cons, List.flatten_cons, fileRows, hentry.2]

theorem entry_key_ne_manifestKey {base : OPath} {entry : ManifestEntry}
    (h : ∃ fileName, entry.path = ["data", fileName]) :
  entry.key base ≠ manifestKey base
  := by
  obtain ⟨fileName, hpath⟩ := h
  simp [ManifestEntry.key, manifestKey, hpath]

/-- Replacing the manifest by one that lists stored data files, and vacuuming, commits
them. -/
theorem commit_returns {base : OPath} {entries : List ManifestEntry} {batches : List RecordBatch}
    {w : World} {n : Nat} (hstored : StoredAs w.store base entries batches) :
  Returns (do replaceManifest o base entries; let _ ← vacuumOrphans o base; return n : Op Nat) w
    (fun count w' => count = n ∧ CommittedAs w'.store base batches)
  := by
  rw [returns_bind]
  refine Returns.mono ((casManifest_returns o base (fun _ => entries) (by decide) w).with_after
    (casManifest_modifies o base (fun _ => entries) MAX_CAS_RETRIES w)) ?_
  rintro - w₁ ⟨hreplace, m, -, hm, rfl⟩
  have hstored := hstored.of_frame hreplace (fun entry _ hdata => entry_key_ne_manifestKey hdata)
  rw [returns_bind]
  refine Returns.of_after (After.mono (after_vacuumOrphans o base w₁) ?_)
  intro r w₂ hvacuum _
  rw [returns_pure]
  refine ⟨rfl, m, ?_, ?_⟩
  · rw [hvacuum.store _ (fun h => not_vacuumable_manifestKey base base h.1), hm]
  · apply hstored.of_frame hvacuum
    rintro entry hentry - ⟨-, hunlisted⟩
    apply hunlisted m hm
    rw [ManifestEntry.key, List.drop_left]
    apply List.mem_map_of_mem hentry

/-- A snapshot write that succeeds commits the rows of the result and returns their
number. -/
theorem writeDataframeToTableSnapshot_returns (df : DataFusion) (schema : Schema)
    (rows : List Row) (base : OPath) (w : World)
    (hlength : ∀ row ∈ rows, row.length = schema.length) :
  Returns (writeDataframeToTableSnapshot o df schema rows base) w (fun count w' =>
    count = rows.length ∧ ∃ batches, CommittedAs w'.store base batches
      ∧ ∀ columns, "_row_id" ∉ columns → (batches.map (·.rowsOver columns)).flatten.Perm
        ((⟨schema, rows⟩ : RecordBatch).rowsOver columns))
  := by
  rw [writeDataframeToTableSnapshot, returns_bind]
  refine Returns.of_forall ?_
  intro _ w₁
  rw [returns_bind, returns_outsideCall, returns_bind]
  have hperm := df.batches_perm w₁.calls rows
  have hbatches : ∀ batch ∈ (df.batches w₁.calls rows).map
      (fun rows => ({ schema := schema, rows := rows } : RecordBatch)),
      ∀ row ∈ batch.rows, row.length = batch.schema.length := by
    intro batch hbatch row hrow
    obtain ⟨part, hpart, rfl⟩ := List.mem_map.mp hbatch
    apply hlength
    apply hperm.mem_iff.mp
    apply List.mem_flatten_of_mem hpart hrow
  refine Returns.mono (prepareBatches_returns o _ _ hbatches) ?_
  intro prepared w₂ hprepared
  rw [returns_bind]
  refine Returns.mono (putBatches_returns o base prepared w₂) ?_
  intro entries w₃ hstored
  refine Returns.mono (commit_returns o hstored) ?_
  rintro count w₄ ⟨rfl, hcommitted⟩
  constructor
  · rw [List.map_map, ← hperm.length_eq, List.length_flatten]
    rfl
  · refine ⟨prepared, hcommitted, ?_⟩
    intro columns hcolumns
    rw [hprepared columns hcolumns]
    have hrows := hperm.map (fun row => columns.map (cellAt schema row))
    rw [List.map_flatten] at hrows
    simpa [RecordBatch.rowsOver, Function.comp_def] using hrows

/-! ### What writing touches -/

/-- The keys of the objects that the writers of the table at `base` touch, apart from its
indexes. -/
def SnapshotKey (base key : OPath) : Prop := key = manifestKey base ∨ Vacuumable base key

theorem snapshotKey_below {base key : OPath} (h : SnapshotKey base key) :
  base <+: key
  := by
  rcases h with rfl | h
  · apply List.prefix_append
  · apply h.1

theorem snapshotKey_dataKey (base : OPath) (n : Nat) :
  SnapshotKey base (dataKey base (o.uuid n ++ ".parquet"))
  := by
  right
  constructor
  · exact ⟨["data", o.uuid n ++ ".parquet"], rfl⟩
  · rw [dataKey, List.drop_left]
    simp [isVacuumCandidate, isParquetName, String.toList_append]

/-- Committing entries touches the manifest and the files that are vacuumed. -/
theorem commit_modifies (base : OPath) (entries : List ManifestEntry) :
  ModifiesOnly (SnapshotKey base) (do
    replaceManifest o base entries
    let _ ← vacuumOrphans o base : Op Unit)
  := by
  apply ModifiesOnly.bind
  · apply ModifiesOnly.mono (casManifest_modifies o base _ _)
    intro key hkey
    apply Or.inl hkey
  · intro _
    apply ModifiesOnly.bind
    · apply ModifiesOnly.mono (vacuumOrphans_modifies o base)
      intro key hkey
      apply Or.inr hkey
    · intro _
      apply ModifiesOnly.pure

theorem putBatches_modifies (base : OPath) (batches : List RecordBatch) :
  ModifiesOnly (SnapshotKey base) (putBatches o base batches)
  := by
  intro w
  apply After.mono (after_putBatches o base batches w)
  rintro r w' ⟨hframe, -⟩
  apply hframe.mono
  rintro key ⟨n, -, rfl⟩
  apply snapshotKey_dataKey

/-- The keys of the objects of a table's indexes. -/
def IndexKey (base key : OPath) : Prop := (base ++ [".analyticsdb_indexes"]) <+: key

theorem indexKey_below {base key : OPath} (h : IndexKey base key) :
  base <+: key
  := (List.prefix_append base _).trans h

theorem putOrFail_modifies {α : Type} {touched : OPath → Prop} {key : OPath} (hkey : touched key)
    (obj : Obj) (mode : PutMode) {m : Op α} (hm : ModifiesOnly touched m) :
  ModifiesOnly touched (storePut o key obj mode >>= fun outcome =>
    orStoreError outcome >>= fun _ => m)
  := by
  apply ModifiesOnly.bind
  · apply ModifiesOnly.mono (storePut_modifies o key obj mode)
    rintro other rfl
    apply hkey
  · intro outcome
    apply ModifiesOnly.bind (orStoreError_modifies touched outcome)
    intro _
    apply hm

/-- Rebuilding an index touches only the objects of the indexes of the table. -/
theorem rebuildIndexSnapshot_modifies (df : DataFusion) (session : SessionContext)
    (relation : CatalogRelation) (base : OPath) (index : CatalogIndex) :
  ModifiesOnly (IndexKey base) (rebuildIndexSnapshot o df session relation base index)
  := by
  have hindex : ∀ rest, IndexKey base (indexKey base index.name ++ rest) := by
    intro rest
    use index.name :: rest
    simp [indexKey]
  apply ModifiesOnly.bind ModifiesOnly.outsideCall
  intro n
  apply ModifiesOnly.bind (scanTable_modifies o df _ session relation)
  intro rows
  apply ModifiesOnly.guard
  apply ModifiesOnly.guard
  apply putOrFail_modifies
  · rw [List.append_assoc]
    apply hindex
  · apply putOrFail_modifies
    · rw [List.append_assoc]
      apply hindex
    · apply ModifiesOnly.bind
      · apply ModifiesOnly.mono (storePut_modifies o _ _ _)
        rintro other rfl
        apply hindex
      · intro outcome
        apply orStoreError_modifies

theorem rebuildIndexSnapshots_modifies (df : DataFusion) (session : SessionContext)
    (relation : CatalogRelation) (base : OPath) (indexes : List CatalogIndex) :
  ModifiesOnly (IndexKey base) (rebuildIndexSnapshots o df session relation base indexes)
  := by
  induction indexes with
  | nil => apply ModifiesOnly.pure
  | cons index indexes ih =>
      apply ModifiesOnly.bind (rebuildIndexSnapshot_modifies o df session relation base index)
      intro _
      apply ih

theorem tableStorePrefix_modifies (touched : OPath → Prop) (relation : CatalogRelation) :
  ModifiesOnly touched (tableStorePrefix o relation)
  := by
  unfold tableStorePrefix
  split
  · apply ModifiesOnly.bail
  · apply ModifiesOnly.orBail

/-- The path of a table, when its location denotes one. -/
def CatalogRelation.base? (relation : CatalogRelation) : Option OPath :=
  relation.storagePath.bind (fun location => (storeForLocation o location).toOption)

variable {o} in
theorem location_of_base {relation : CatalogRelation} {base : OPath}
    (h : relation.base? o = some base) :
  ∃ location, relation.storagePath = some location ∧ storeForLocation o location = .ok base
  := by
  unfold CatalogRelation.base? at h
  obtain ⟨location, hlocation, hbase⟩ := Option.bind_eq_some_iff.mp h
  refine ⟨location, hlocation, ?_⟩
  cases hstore : storeForLocation o location with
  | error message =>
      rw [hstore] at hbase
      cases hbase
  | ok path =>
      rw [hstore] at hbase
      cases hbase
      rfl

theorem rebuildAllIndexSnapshots_modifies (df : DataFusion) (session : SessionContext)
    {relation : CatalogRelation} {base : OPath} (hbase : relation.base? o = some base) :
  ModifiesOnly (IndexKey base) (rebuildAllIndexSnapshots o df session relation)
  := by
  obtain ⟨location, hlocation, hbase⟩ := location_of_base hbase
  simp only [rebuildAllIndexSnapshots, tableStorePrefix, hlocation, hbase, orBail]
  apply rebuildIndexSnapshots_modifies

theorem refreshIndexSnapshotsAfterMutation_modifies (df : DataFusion) (session : SessionContext)
    {relation : CatalogRelation} {base : OPath} (hbase : relation.base? o = some base) :
  ModifiesOnly (IndexKey base) (refreshIndexSnapshotsAfterMutation o df session relation)
  := by
  apply ModifiesOnly.ite
  · apply ModifiesOnly.pure
  · apply rebuildAllIndexSnapshots_modifies o df session hbase

/-- A change of index objects keeps what is committed. -/
theorem CommittedAs.of_indexFrame {w w' : World} {base : OPath} {batches : List RecordBatch}
    (h : CommittedAs w.store base batches) (hframe : Frame (IndexKey base) w w') :
  CommittedAs w'.store base batches
  := by
  obtain ⟨m, hm, hstored⟩ := h
  refine ⟨m, ?_, ?_⟩
  · rw [hframe.store _ _, hm]
    rintro ⟨rest, hrest⟩
    simp [manifestKey] at hrest
  · apply hstored.of_frame hframe
    rintro entry - ⟨fileName, hpath⟩ ⟨rest, hrest⟩
    simp [ManifestEntry.key, hpath] at hrest

end
