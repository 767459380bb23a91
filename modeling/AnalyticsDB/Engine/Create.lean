import AnalyticsDB.Engine.Snapshot
import AnalyticsDB.Storage.Success

/-!
# CREATE TABLE, CREATE TABLE AS and SELECT INTO

The statements that create a managed table write its first snapshot at the location its name
stands for, and then register the table in the catalogue, which may refuse it.  What is
proved is when a statement that fails leaves the tables that existed before as they were.
-/

inductive TableConstraintDefinition where
  | primaryKey (name : Option String) (columns : List String)
  | foreignKey (name : Option String) (columns : List String)
      (referencedDatabase referencedSchema : Option String) (referencedTable : String)
      (referencedColumns : List String)
  | unique (name : Option String) (columns : List String)

/-- The constraints of the catalogue that a statement defines. -/
def catalogConstraintsFromDefinitions (definitions : List TableConstraintDefinition) :
    List CatalogTableConstraint :=
  definitions.map (fun definition => match definition with
    | .primaryKey name columns =>
      { name := name.getD "auto_constraint", kind := .primaryKey, columns := columns
        referencedDatabase := none, referencedSchema := none, referencedTable := none
        referencedColumns := [] }
    | .foreignKey name columns database schema table referencedColumns =>
      { name := name.getD "auto_constraint", kind := .foreignKey, columns := columns
        referencedDatabase := database, referencedSchema := schema
        referencedTable := some table, referencedColumns := referencedColumns }
    | .unique name columns =>
      { name := name.getD "auto_constraint", kind := .unique, columns := columns
        referencedDatabase := none, referencedSchema := none, referencedTable := none
        referencedColumns := [] })

inductive CreateStatement where
  | createTable (columns : List CatalogColumn) (constraints : List TableConstraintDefinition)
  | createTableAs (querySql : String)
  | selectInto (querySql : String)

section

variable (o : Outside) (df : DataFusion)

def catalogColumnsFromSchema (schema : Schema) : List CatalogColumn :=
  schema.map (fun field =>
    { name := field.name
      dataType := df.typeText field.dataType
      nullable := field.nullable
      defaultValue := none })

/-- Write the snapshot of a new table at its location, and register the table with the
columns and constraints of what was written. -/
def createManagedTable {α : Type} (session : SessionContext) (database schema : Option String)
    (name : String)
    (write : OPath → Op (List CatalogColumn × List CatalogTableConstraint × α)) :
    Op (String × α) := do
  let location ← managedTableStorageLocation o session database schema name
  let base ← orBail (storeForLocation o location)
  let (columns, constraints, written) ← write base
  let created ← registerManagedTable o session database schema name location columns constraints
  return (created, written)

/-- Write the empty snapshot of a table with the given columns. -/
def writeDefinition (columns : List CatalogColumn) (constraints : List TableConstraintDefinition)
    (base : OPath) : Op (List CatalogColumn × List CatalogTableConstraint × Unit) := do
  let arrowSchema := buildArrowSchemaFromDefinitions columns
  persistEmptyTableSnapshot o base arrowSchema
  return (catalogColumnsFromSchema df arrowSchema,
    catalogConstraintsFromDefinitions constraints, ())

/-- Write the result of a query, and return its number of rows. -/
def writeQueryResult (querySql : String) (base : OPath) :
    Op (List CatalogColumn × List CatalogTableConstraint × Nat) := do
  queryFault df
  let w ← get
  let (arrowSchema, rows) ← orBail (df.runQuery querySql w.catalog w.store)
  let rowCount ← writeDataframeToTableSnapshot o df arrowSchema rows base
  return (catalogColumnsFromSchema df arrowSchema, [], rowCount)

/-- Execute a statement that creates a table. -/
def executeCreate (session : SessionContext) (database schema : Option String) (name : String) :
    CreateStatement → Op String
  | .createTable columns constraints => do
    let (created, _) ← createManagedTable o session database schema name
      (writeDefinition o df columns constraints)
    let relation ← tableRelation session database schema name
    rebuildAllIndexSnapshots o df session relation
    return created
  | .createTableAs querySql => do
    let (created, rowCount) ← createManagedTable o session database schema name
      (writeQueryResult o df querySql)
    return s!"{created} {rowCount} row(s) materialized."
  | .selectInto querySql => do
    let (created, rowCount) ← createManagedTable o session database schema name
      (writeQueryResult o df querySql)
    return s!"{created} {rowCount} row(s) materialized by SELECT INTO."

/-! ### What a statement depends on -/

/-- Where a statement writes, when its name, its session and the location allow it. -/
def createTarget (session : SessionContext) (database schema : Option String) (name : String)
    (state : CatalogState) : Except String OPath := do
  validateIdentifier name
  validateSession state session
  storeForLocation o (managedTableUri o state (database.getD session.database)
    (schema.getD session.schema) name)

/-- Whether the catalogue refuses a new table for its database, schema or name. -/
def registrationRefused (session : SessionContext) (database schema : Option String)
    (name : String) (state : CatalogState) : Bool :=
  match state.databases[database.getD session.database]? with
  | none => true
  | some entry => !entry.schemas.contains (schema.getD session.schema)
      || state.relations.contains (relationKey (database.getD session.database)
          (schema.getD session.schema) name)

/-- The data files in which the result of a query that starts at `w` is written, or nothing
when the query fails. -/
def queryFiles (w : World) (querySql : String) : Option Nat :=
  match df.queryError w.calls, df.runQuery querySql w.catalog w.store,
      df.queryError (w.calls + 1) with
  | none, .ok (_, rows), none => some (df.batches (w.calls + 2) rows).length
  | _, _, _ => none

/-- The data files a statement that starts at `w` writes. -/
def newFiles (w : World) : CreateStatement → Option Nat
  | .createTable _ _ => some 0
  | .createTableAs querySql => queryFiles df w querySql
  | .selectInto querySql => queryFiles df w querySql

/-- The paths of the relations of the catalogue. -/
def RelationPath (w : World) (path : OPath) : Prop :=
  ∃ (key : String) (relation : CatalogRelation),
    w.catalog.relations[key]? = some relation ∧ relation.base? o = some path

/-- Every relation that existed at `w` is at `w'` as it was: the catalogue is the same, each
manifest lists the same files, and these hold the same objects. -/
structure Kept (w w' : World) : Prop where
  catalog : w'.catalog = w.catalog
  entries : ∀ path, RelationPath o w path →
    manifestEntries w'.store path = manifestEntries w.store path
  files : ∀ path, RelationPath o w path → ∀ entry ∈ manifestEntries w.store path,
    w'.store[entry.key path]? = w.store[entry.key path]?

/-- No relation has anything that writing `files` files at `base` changes: one at `base`
lists no file and gets none, and no listed file is one that the writers at `base` touch. -/
structure PrefixFree (w : World) (base : OPath) (files : Nat) : Prop where
  atBase : RelationPath o w base → manifestEntries w.store base = [] ∧ files = 0
  listed : ∀ path, RelationPath o w path → ∀ entry ∈ manifestEntries w.store path,
    ¬ SnapshotKey base (entry.key path)

/-- The statements whose failure is harmless: those that fail before they write, and those
that the catalogue refuses afterwards when nothing of a relation is at their target. -/
def CreateSafe (session : SessionContext) (database schema : Option String) (name : String)
    (statement : CreateStatement) (w : World) : Prop :=
  ∀ base files, createTarget o session database schema name w.catalog = .ok base →
    newFiles df w statement = some files →
      registrationRefused session database schema name w.catalog = true
        ∧ PrefixFree o w base files

end

section

open Eff

variable (o : Outside) (df : DataFusion)

theorem Kept.refl (w : World) :
  Kept o w w
  := ⟨rfl, fun _ _ => rfl, fun _ _ _ _ => rfl⟩

theorem Kept.of_untouched {w w' : World} (h : Frame (fun _ => False) w w') :
  Kept o w w'
  := by
  constructor
  · apply h.catalog
  · intro path _
    apply h.entries_eq not_false
  · intro path _ entry _
    apply h.store _ not_false

/-- What writes at a path where no relation has anything keeps every relation. -/
theorem kept_of_frame {w w' : World} {base : OPath} {files : Nat}
    (hfree : PrefixFree o w base files)
    (hframe : Frame (SnapshotKey base) w w')
    (hempty : files = 0 → manifestEntries w.store base = [] → manifestEntries w'.store base = []) :
  Kept o w w'
  := by
  constructor
  · apply hframe.catalog
  · intro path hpath
    by_cases hbase : path = base
    · subst hbase
      obtain ⟨hentries, hfiles⟩ := hfree.atBase hpath
      rw [hempty hfiles hentries, hentries]
    · apply hframe.entries_eq
      rintro (hkey | hkey)
      · apply hbase (manifestKey_inj hkey)
      · apply not_vacuumable_manifestKey base path hkey
  · intro path hpath entry hentry
    apply hframe.store
    apply hfree.listed path hpath entry hentry

/-- Committing no entries keeps a manifest that lists none. -/
theorem commitNothing_keeps (base : OPath) :
  KeepsObjects (fun store => manifestEntries store base = []) (do
    replaceManifest o base []
    let _ ← vacuumOrphans o base : Op Unit)
  := by
  apply KeepsObjects.bind
  · apply casManifest_keepsObjects
    intro store m existing hm hJ
    rw [manifestEntries, ObjectStore.get_insert, if_pos rfl]
    apply hm
  · intro _ w hJ
    rw [after_bind]
    apply After.mono (vacuumOrphans_modifies o base w)
    intro r w' hframe
    have hentries := hframe.entries_eq (not_vacuumable_manifestKey base base)
    rw [hJ] at hentries
    cases r with
    | ok _ => apply hentries
    | error e => apply hentries

/-- What a write of `files` files at `base` does whatever its outcome: it touches only the
objects of the snapshot, fails at once when there is nothing to write, and leaves a manifest
without entries so when it writes no file. -/
structure Wrote {α : Type} (base : OPath) (files : Option Nat) (w : World)
    (outcome : Except Failure α) (w' : World) : Prop where
  touched : Frame (SnapshotKey base) w w'
  refused : files = none → Frame (fun _ => False) w w' ∧ ∃ e, outcome = .error e
  empty : files = some 0 → manifestEntries w.store base = [] → manifestEntries w'.store base = []

theorem snapshotKey_emptyParquet (base : OPath) :
  SnapshotKey base (base ++ ["empty.parquet"])
  := by
  right
  constructor
  · exact ⟨["empty.parquet"], rfl⟩
  · rw [List.drop_left]
    decide

theorem persistEmptyTableSnapshot_modifies (base : OPath) (schema : Schema) :
  ModifiesOnly (SnapshotKey base) (persistEmptyTableSnapshot o base schema)
  := by
  apply putOrFail_modifies o (snapshotKey_emptyParquet base)
  apply commit_modifies

theorem persistEmptyTableSnapshot_keeps (base : OPath) (schema : Schema) :
  KeepsObjects (fun store => manifestEntries store base = [])
    (persistEmptyTableSnapshot o base schema)
  := by
  apply KeepsObjects.bind
  · apply storePut_keepsObjects
    intro store hJ
    rw [manifestEntries, ObjectStore.get_insert, if_neg]
    · apply hJ
    · simp [manifestKey]
  · intro outcome
    apply KeepsObjects.bind (KeepsObjects.of_modifies (orStoreError_modifies _ _))
    intro _
    apply commitNothing_keeps

theorem after_writeDefinition (columns : List CatalogColumn)
    (constraints : List TableConstraintDefinition) (base : OPath) (w : World) :
  After (writeDefinition o df columns constraints base) w
    (Wrote base (newFiles df w (.createTable columns constraints)) w)
  := by
  rw [writeDefinition, after_bind]
  have hmodifies := persistEmptyTableSnapshot_modifies o base
    (buildArrowSchemaFromDefinitions columns) w
  have hkeeps := persistEmptyTableSnapshot_keeps o base
    (buildArrowSchemaFromDefinitions columns) w
  have hwrote : After (persistEmptyTableSnapshot o base (buildArrowSchemaFromDefinitions columns))
      w (fun _ w' => ∀ r : Except Failure
        (List CatalogColumn × List CatalogTableConstraint × Unit), Wrote base (some 0) w r w') := by
    intro r
    exact ⟨hmodifies, by simp, fun _ hempty => hkeeps hempty⟩
  apply After.mono hwrote
  intro r w' h
  cases r with
  | ok _ => apply h
  | error e => apply h

theorem writeDataframeToTableSnapshot_modifies (schema : Schema) (rows : List Row) (base : OPath) :
  ModifiesOnly (SnapshotKey base) (writeDataframeToTableSnapshot o df schema rows base)
  := by
  apply ModifiesOnly.bind (queryFault_modifies df _)
  intro _
  apply ModifiesOnly.bind ModifiesOnly.outsideCall
  intro n
  apply ModifiesOnly.bind (prepareBatches_modifies o _ _)
  intro prepared
  apply ModifiesOnly.bind (putBatches_modifies o base prepared)
  intro entries
  have hcommit := ModifiesOnly.bind (commit_modifies o base entries) (fun _ => ModifiesOnly.pure
    (((df.batches n rows).map (fun rows => ({ schema, rows } : RecordBatch))).map
      (·.rows.length)).sum)
  simpa only [bind_assoc, pure_bind] using hcommit

/-- A write without batches keeps a manifest that lists no file. -/
theorem writeDataframeToTableSnapshot_keeps {schema : Schema} {rows : List Row} {base : OPath}
    (w : World) (hempty : manifestEntries w.store base = [])
    (hbatches : df.batches (w.calls + 1) rows = []) :
  After (writeDataframeToTableSnapshot o df schema rows base) w (fun _ w' =>
    manifestEntries w'.store base = [])
  := by
  simp only [writeDataframeToTableSnapshot, queryFault, after_bind, after_outsideCall, resume_ok]
  cases df.queryError w.calls with
  | some message => apply hempty
  | none =>
      simp only [after_pure, resume_ok, after_bind, after_outsideCall, hbatches, List.map_nil,
        prepareBatches, putBatches]
      have hcommit := KeepsObjects.bind (commitNothing_keeps o base) (fun _ =>
        KeepsObjects.of_modifies (ModifiesOnly.pure 0))
        { w with calls := w.calls + 1 + 1 } hempty
      simpa only [bind_assoc, pure_bind, after_bind, List.sum_nil] using hcommit

/-- The write of the result of a query. -/
theorem after_writeQueryResult (querySql : String) (base : OPath) (w : World) :
  After (writeQueryResult o df querySql base) w
    (Wrote base (queryFiles df w querySql) w)
  := by
  have hcall := Frame.call (fun _ => False) w
  have hrefused : ∀ {w' : World} {r : Except Failure
      (List CatalogColumn × List CatalogTableConstraint × Nat)} {e : Failure},
      Frame (fun _ => False) w w' → queryFiles df w querySql = none →
      r = .error e → Wrote base (queryFiles df w querySql) w r w' := by
    rintro w' _ e hframe hnone rfl
    refine ⟨hframe.mono (fun _ h => h.elim), fun _ => ⟨hframe, e, rfl⟩, ?_⟩
    rw [hnone]
    simp
  simp only [writeQueryResult, queryFault, after_bind, after_outsideCall, resume_ok]
  cases hquery : df.queryError w.calls with
  | some message => apply hrefused hcall (by simp [queryFiles, hquery]) rfl
  | none =>
      simp only [after_pure, resume_ok, after_get, after_bind]
      cases hresult : df.runQuery querySql w.catalog w.store with
      | error message => apply hrefused hcall (by simp [queryFiles, hresult]) rfl
      | ok result =>
          obtain ⟨arrowSchema, rows⟩ := result
          simp only [orBail, after_pure, resume_ok, after_bind]
          cases hexecute : df.queryError (w.calls + 1) with
          | some message =>
              simp only [writeDataframeToTableSnapshot, queryFault, after_bind, after_outsideCall,
                resume_ok, hexecute]
              apply hrefused (hcall.trans (Frame.call _ _)) (by simp [queryFiles, hexecute]) rfl
          | none =>
              have hfiles : queryFiles df w querySql
                  = some (df.batches (w.calls + 2) rows).length := by
                simp [queryFiles, hquery, hresult, hexecute]
              have hwrote : After (writeDataframeToTableSnapshot o df arrowSchema rows base)
                  { w with calls := w.calls + 1 } (fun _ w' => ∀ r : Except Failure
                    (List CatalogColumn × List CatalogTableConstraint × Nat),
                    Wrote base (queryFiles df w querySql) w r w') := by
                intro r
                rw [hfiles]
                constructor
                · apply (Frame.call _ w).trans
                  apply writeDataframeToTableSnapshot_modifies
                · intro h
                  cases h
                · intro hnone hempty
                  have hbatches : df.batches (w.calls + 2) rows = [] := by
                    simpa using hnone
                  exact writeDataframeToTableSnapshot_keeps o df
                    { w with calls := w.calls + 1 } hempty hbatches
              apply After.mono hwrote
              intro r w' h
              cases r with
              | ok _ => apply h
              | error e => apply h

/-- A registration that is refused fails and changes nothing. -/
theorem after_registerManagedTable_refused {session : SessionContext}
    {database schema : Option String} {name : String} {w : World}
    (hrefused : registrationRefused session database schema name w.catalog = true)
    (location : String) (columns : List CatalogColumn)
    (constraints : List CatalogTableConstraint) :
  After (registerManagedTable o session database schema name location columns constraints) w
    (fun r w' => (∃ e, r = .error e) ∧ w' = w)
  := by
  simp only [registerManagedTable, registerRelation, after_bind, after_orBail, after_readState,
    resume_ok, resume_error]
  refine ⟨fun _ _ => by simp, fun _ _ => ⟨fun _ _ => by simp, fun _ _ => ?_⟩⟩
  unfold registrationRefused at hrefused
  cases hdatabase : w.catalog.databases[database.getD session.database]? with
  | none => simp
  | some entry =>
      simp only [hdatabase, Bool.or_eq_true, Bool.not_eq_true'] at hrefused
      simp only [after_ite, after_bind]
      constructor
      · intro _
        simp
      · intro hschema
        constructor
        · intro _
          simp
        · intro hfree
          rcases hrefused with h | h
          · exact absurd (by rw [h]; rfl) hschema
          · exact absurd h hfree

/-- A creation checks where it writes, then writes, and then registers the table. -/
theorem after_createManagedTable_iff {α : Type} (session : SessionContext)
    (database schema : Option String) (name : String)
    (write : OPath → Op (List CatalogColumn × List CatalogTableConstraint × α)) (w : World)
    (Q : Except Failure (String × α) → World → Prop) :
  After (createManagedTable o session database schema name write) w Q
    ↔ (∀ message, createTarget o session database schema name w.catalog = .error message →
        Q (.error (.error message)) w)
      ∧ ∀ base, createTarget o session database schema name w.catalog = .ok base →
        After (write base) w (Resume (fun written => do
          let created ← registerManagedTable o session database schema name
            (managedTableUri o w.catalog (database.getD session.database)
              (schema.getD session.schema) name) written.1 written.2.1
          return (created, written.2.2)) Q)
  := by
  simp only [createManagedTable, managedTableStorageLocation, after_bind, after_orBail,
    after_readState, resume_ok, resume_error, after_pure, createTarget]
  cases validateIdentifier name with
  | error message => simp [bind, Except.bind]
  | ok _ =>
      cases validateSession w.catalog session with
      | error message => simp [bind, Except.bind]
      | ok _ => simp [bind, Except.bind]

/-- A safe creation fails and keeps every relation. -/
theorem after_createManagedTable_safe {α : Type} {session : SessionContext}
    {database schema : Option String} {name : String} {w : World} {files : Option Nat}
    {write : OPath → Op (List CatalogColumn × List CatalogTableConstraint × α)}
    (hwrite : ∀ base, After (write base) w (Wrote base files w))
    (hsafe : ∀ base n, createTarget o session database schema name w.catalog = .ok base →
      files = some n → registrationRefused session database schema name w.catalog = true
        ∧ PrefixFree o w base n) :
  After (createManagedTable o session database schema name write) w (fun r w' =>
    (∃ e, r = .error e) ∧ Kept o w w')
  := by
  rw [after_createManagedTable_iff]
  constructor
  · intro message _
    exact ⟨⟨_, rfl⟩, Kept.refl o w⟩
  · intro base htarget
    apply After.mono (hwrite base)
    intro r w₁ hwrote
    have hkept : Kept o w w₁ := by
      cases files with
      | none =>
          obtain ⟨hframe, -⟩ := hwrote.refused rfl
          apply Kept.of_untouched o hframe
      | some n =>
          obtain ⟨-, hfree⟩ := hsafe base n htarget rfl
          apply kept_of_frame o hfree hwrote.touched
          rintro rfl
          apply hwrote.empty rfl
    cases r with
    | error e => exact ⟨⟨e, rfl⟩, hkept⟩
    | ok written =>
        cases files with
        | none =>
            obtain ⟨-, e, he⟩ := hwrote.refused rfl
            cases he
        | some n =>
            obtain ⟨hrefused, -⟩ := hsafe base n htarget rfl
            rw [← hwrote.touched.catalog] at hrefused
            rw [resume_ok, after_bind]
            apply After.mono (after_registerManagedTable_refused o hrefused _ _ _)
            rintro _ _ ⟨⟨e, rfl⟩, rfl⟩
            exact ⟨⟨e, rfl⟩, hkept⟩

/-- A statement that is safe fails and keeps every relation. -/
theorem after_executeCreate_safe {session : SessionContext} {database schema : Option String}
    {name : String} {statement : CreateStatement} {w : World}
    (hsafe : CreateSafe o df session database schema name statement w) :
  After (executeCreate o df session database schema name statement) w (fun r w' =>
    (∃ e, r = .error e) ∧ Kept o w w')
  := by
  rcases statement with ⟨columns, constraints⟩ | querySql | querySql
  · rw [executeCreate, after_bind]
    apply After.mono (after_createManagedTable_safe o
      (fun base => after_writeDefinition o df columns constraints base w) hsafe)
    rintro _ w' ⟨⟨e, rfl⟩, hkept⟩
    exact ⟨⟨e, rfl⟩, hkept⟩
  · rw [executeCreate, after_bind]
    apply After.mono (after_createManagedTable_safe o
      (fun base => after_writeQueryResult o df querySql base w) hsafe)
    rintro _ w' ⟨⟨e, rfl⟩, hkept⟩
    exact ⟨⟨e, rfl⟩, hkept⟩
  · rw [executeCreate, after_bind]
    apply After.mono (after_createManagedTable_safe o
      (fun base => after_writeQueryResult o df querySql base w) hsafe)
    rintro _ w' ⟨⟨e, rfl⟩, hkept⟩
    exact ⟨⟨e, rfl⟩, hkept⟩

end

/-! ### Statements that are not safe -/

section

open Eff

variable {o : Outside}

/-- The new snapshot of `files` files at `base` replaced what was there: the manifest lists
that many files, all new, and no other Parquet file is left. -/
structure Replaced (o : Outside) (base : OPath) (files : Nat) (w w' : World) : Prop where
  count : (manifestEntries w'.store base).length = files
  fresh : ∀ entry ∈ manifestEntries w'.store base, ∃ n, w.calls ≤ n
    ∧ entry.path = ["data", o.uuid n ++ ".parquet"]
  vacuumed : ∀ key, Vacuumable base key →
    key.drop base.length ∉ (manifestEntries w'.store base).map (·.path) → w'.store[key]? = none

theorem withRowIds_succeeds (put : Row → Cell → Row) (rows : List Row) (w : World) :
  Succeeds (withRowIds o put rows) w (fun _ _ => True)
  := by
  induction rows generalizing w with
  | nil => simp [withRowIds]
  | cons row rows ih =>
      rw [withRowIds, succeeds_bind, succeeds_outsideCall, succeeds_bind]
      refine Succeeds.mono (ih _) ?_
      intro rest w' _
      rw [succeeds_pure]
      trivial

theorem prepareBatchForStorage_succeeds (batch : RecordBatch) (w : World) :
  Succeeds (prepareBatchForStorage o batch) w (fun _ _ => True)
  := by
  have hids : ∀ put (f : List Row → RecordBatch),
      Succeeds (withRowIds o put batch.rows >>= fun rows => pure (f rows) : Op RecordBatch) w
        (fun _ _ => True) := by
    intro put f
    rw [succeeds_bind]
    refine Succeeds.mono (withRowIds_succeeds put batch.rows w) ?_
    intro rows w' _
    rw [succeeds_pure]
    trivial
  unfold prepareBatchForStorage
  split
  · split
    · apply hids
    · rw [succeeds_pure]
      trivial
  · apply hids

theorem prepareBatches_succeeds (batches : List RecordBatch) (w : World) :
  Succeeds (prepareBatches o batches) w (fun prepared _ => prepared.length = batches.length)
  := by
  induction batches generalizing w with
  | nil => simp [prepareBatches]
  | cons batch batches ih =>
      rw [prepareBatches, succeeds_bind]
      refine Succeeds.mono (prepareBatchForStorage_succeeds batch w) ?_
      intro prepared w₁ _
      rw [succeeds_bind]
      refine Succeeds.mono (ih w₁) ?_
      intro rest w₂ hrest
      rw [succeeds_pure, List.length_cons, List.length_cons, hrest]

theorem putBatches_succeeds (hstore : ∀ n, o.storeError n = none) (base : OPath)
    (batches : List RecordBatch) (w : World) :
  Succeeds (putBatches o base batches) w (fun entries _ => entries.length = batches.length
    ∧ ∀ entry ∈ entries, ∃ n, w.calls ≤ n ∧ entry.path = ["data", o.uuid n ++ ".parquet"])
  := by
  induction batches generalizing w with
  | nil => simp [putBatches]
  | cons batch batches ih =>
      rw [putBatches, succeeds_bind, succeeds_outsideCall, succeeds_bind]
      refine Succeeds.mono ((storePut_overwrite_succeeds hstore _ _ _).with_after
        (storePut_modifies o _ _ _ _)) ?_
      rintro _ w₁ ⟨⟨rfl, -⟩, hframe⟩
      rw [orStoreError, pure_bind, succeeds_bind]
      refine Succeeds.mono (ih w₁) ?_
      rintro entries w₂ ⟨hlength, hentries⟩
      rw [succeeds_pure]
      constructor
      · rw [List.length_cons, List.length_cons, hlength]
      · rw [List.forall_mem_cons]
        constructor
        · exact ⟨w.calls, Nat.le_refl _, rfl⟩
        · intro entry hentry
          obtain ⟨n, hn, hpath⟩ := hentries entry hentry
          exact ⟨n, Nat.le_trans (Nat.le_of_succ_le hframe.calls) hn, hpath⟩

/-- Committing entries over a manifest that is there or missing replaces the snapshot. -/
theorem commit_succeeds (hstore : ∀ n, o.storeError n = none) {base : OPath}
    {entries : List ManifestEntry} (w₀ : World) {w : World} {m : Option Manifest}
    (hm : w.store[manifestKey base]? = m.map .manifest)
    (hfresh : ∀ entry ∈ entries, ∃ n, w₀.calls ≤ n ∧ entry.path
      = ["data", o.uuid n ++ ".parquet"]) :
  Succeeds (do replaceManifest o base entries; let _ ← vacuumOrphans o base : Op Unit) w
    (fun _ w' => Replaced o base entries.length w₀ w')
  := by
  rw [succeeds_bind]
  refine Succeeds.mono (casManifest_succeeds hstore hm) ?_
  rintro _ w₁ ⟨m', hfiles, hw₁⟩
  have hm' : w₁.store[manifestKey base]? = some (.manifest m') := by
    rw [hw₁, ObjectStore.get_insert, if_pos rfl]
  rw [succeeds_bind]
  refine Succeeds.mono ((vacuumOrphans_succeeds hstore hm').with_after
    (vacuumOrphans_modifies o base w₁)) ?_
  rintro _ w₂ ⟨hvacuumed, hframe⟩
  rw [succeeds_pure]
  have hentries : manifestEntries w₂.store base = entries := by
    rw [hframe.entries_eq (not_vacuumable_manifestKey base base), manifestEntries, hm']
    exact hfiles
  constructor
  · rw [hentries]
  · rw [hentries]
    apply hfresh
  · intro key hkey hlisted
    apply hvacuumed key hkey
    rw [hfiles]
    rw [hentries] at hlisted
    apply hlisted

theorem writeDefinition_succeeds (hstore : ∀ n, o.storeError n = none) (df : DataFusion)
    (columns : List CatalogColumn) (constraints : List TableConstraintDefinition) {base : OPath}
    {w : World} {m : Option Manifest} (hm : w.store[manifestKey base]? = m.map .manifest) :
  Succeeds (writeDefinition o df columns constraints base) w (fun _ w' => Replaced o base 0 w w')
  := by
  rw [writeDefinition, persistEmptyTableSnapshot, succeeds_bind, succeeds_bind]
  refine Succeeds.mono (storePut_overwrite_succeeds hstore _ _ _) ?_
  rintro _ w₁ ⟨rfl, hw₁⟩
  have hm₁ : w₁.store[manifestKey base]? = m.map .manifest := by
    rw [hw₁, ObjectStore.get_insert, if_neg (by simp [manifestKey]), hm]
  rw [orStoreError, pure_bind]
  refine Succeeds.mono (commit_succeeds hstore w hm₁ (by simp)) ?_
  intro _ w₂ hreplaced
  rw [succeeds_pure]
  apply hreplaced

theorem writeQueryResult_succeeds (hstore : ∀ n, o.storeError n = none) (df : DataFusion)
    (querySql : String) {base : OPath} {w : World} {m : Option Manifest} {files : Nat}
    (hm : w.store[manifestKey base]? = m.map .manifest)
    (hfiles : queryFiles df w querySql = some files) :
  Succeeds (writeQueryResult o df querySql base) w (fun _ w' => Replaced o base files w w')
  := by
  unfold queryFiles at hfiles
  split at hfiles
  · rename_i arrowSchema rows hquery hresult hexecute
    cases hfiles
    simp only [writeQueryResult, queryFault, succeeds_bind, succeeds_outsideCall, hquery,
      succeeds_pure, succeeds_get, hresult, orBail, writeDataframeToTableSnapshot, hexecute]
    refine Succeeds.mono ((prepareBatches_succeeds _ _).with_after
      (prepareBatches_modifies o (fun _ => False) _ _)) ?_
    rintro prepared w₁ ⟨hprepared, hframe⟩
    have hcalls : w.calls ≤ w₁.calls := by
      have hcalls := hframe.calls
      dsimp only at hcalls
      omega
    refine Succeeds.mono ((putBatches_succeeds hstore base prepared w₁).with_after
      (After.mono (after_putBatches o base prepared w₁) (fun _ _ h => h.1))) ?_
    rintro entries w₂ ⟨⟨hlength, hfresh⟩, hframe'⟩
    have hm₂ : w₂.store[manifestKey base]? = m.map .manifest := by
      rw [hframe'.store, hframe.store_eq]
      · apply hm
      · rintro ⟨n, -, hkey⟩
        simp [manifestKey, dataKey] at hkey
    have hfresh : ∀ entry ∈ entries, ∃ n, w.calls ≤ n
        ∧ entry.path = ["data", o.uuid n ++ ".parquet"] := by
      intro entry hentry
      obtain ⟨n, hn, hpath⟩ := hfresh entry hentry
      exact ⟨n, Nat.le_trans hcalls hn, hpath⟩
    have hcommit := commit_succeeds hstore w hm₂ hfresh
    rw [succeeds_bind] at hcommit
    refine Succeeds.mono hcommit ?_
    intro _ w₃ hvacuum
    rw [succeeds_bind] at hvacuum
    refine Succeeds.mono hvacuum ?_
    intro _ w₄ hreplaced
    rw [succeeds_pure] at hreplaced
    rw [hlength, hprepared, List.length_map] at hreplaced
    apply hreplaced
  · cases hfiles

/-- A registration that is not refused stores the table. -/
theorem registerManagedTable_succeeds (hsave : ∀ n, o.saveError n = none)
    {session : SessionContext} {database schema : Option String} {name : String} {w : World}
    (hidentifier : validateIdentifier name = .ok ())
    (hsession : validateSession w.catalog session = .ok ())
    (hfree : registrationRefused session database schema name w.catalog = false)
    (location : String) (columns : List CatalogColumn)
    (constraints : List CatalogTableConstraint) :
  Succeeds (registerManagedTable o session database schema name location columns constraints) w
    (fun _ w' => w'.catalog.relations.contains (relationKey (database.getD session.database)
      (schema.getD session.schema) name) = true)
  := by
  unfold registrationRefused at hfree
  cases hdatabase : w.catalog.databases[database.getD session.database]? with
  | none => simp [hdatabase] at hfree
  | some entry =>
      simp only [hdatabase, Bool.or_eq_false_iff, Bool.not_eq_false'] at hfree
      obtain ⟨hschema, hfree⟩ := hfree
      simp only [registerManagedTable, registerRelation, succeeds_bind, succeeds_orBail,
        succeeds_readState]
      refine ⟨_, hidentifier, _, hsession, ?_⟩
      simp only [hdatabase, hschema, hfree, succeeds_ite, succeeds_bind, succeeds_writeState,
        Bool.not_true, Bool.false_eq_true, false_implies, not_false_iff, true_implies, true_and]
      refine Succeeds.mono (persist_succeeds hsave _) ?_
      intro _ w' hcatalog
      rw [succeeds_pure, hcatalog]
      apply Std.ExtTreeMap.contains_insert_self

/-- An outside in which no call fails and that draws fresh names, and a store in which the
manifests are manifests and the listed files are there. -/
structure InOrder (o : Outside) (w : World) : Prop where
  store : ∀ n, o.storeError n = none
  save : ∀ n, o.saveError n = none
  manifests : ∀ base, ∃ m : Option Manifest, w.store[manifestKey base]? = m.map .manifest
  listed : ∀ path, RelationPath o w path → ∀ entry ∈ manifestEntries w.store path,
    ∃ batch, w.store[entry.key path]? = some (.parquet batch)
  fresh : ∀ n base, w.calls ≤ n → w.store[dataKey base (o.uuid n ++ ".parquet")]? = none

/-- A snapshot that replaced what was at `base` keeps every relation only when none had
anything there. -/
theorem prefixFree_of_replaced {base : OPath} {files : Nat} {w w' : World} (horder : InOrder o w)
    (hreplaced : Replaced o base files w w') (hkept : Kept o w w') :
  PrefixFree o w base files
  := by
  constructor
  · intro hbase
    have hentries := hkept.entries base hbase
    have hempty : manifestEntries w.store base = [] := by
      apply List.eq_nil_iff_forall_not_mem.mpr
      intro entry hentry
      obtain ⟨batch, hbatch⟩ := horder.listed base hbase entry hentry
      rw [← hentries] at hentry
      obtain ⟨n, hn, hpath⟩ := hreplaced.fresh entry hentry
      have hfresh := horder.fresh n base hn
      rw [ManifestEntry.key, hpath] at hbatch
      rw [dataKey, hbatch] at hfresh
      cases hfresh
    refine ⟨hempty, ?_⟩
    rw [← hreplaced.count, hentries, hempty]
    rfl
  · rintro path hpath entry hentry (hkey | hkey)
    · obtain ⟨batch, hbatch⟩ := horder.listed path hpath entry hentry
      obtain ⟨m, hm⟩ := horder.manifests base
      rw [hkey, hm] at hbatch
      rcases m with - | m
      · cases hbatch
      · cases hbatch
    · obtain ⟨batch, hbatch⟩ := horder.listed path hpath entry hentry
      have hfile := hkept.files path hpath entry hentry
      by_cases hlisted : (entry.key path).drop base.length
          ∈ (manifestEntries w'.store base).map (·.path)
      · obtain ⟨other, hother, hdrop⟩ := List.mem_map.mp hlisted
        obtain ⟨n, hn, hname⟩ := hreplaced.fresh other hother
        have hfresh := horder.fresh n base hn
        have hdata : entry.key path = dataKey base (o.uuid n ++ ".parquet") := by
          rw [dataKey, ← hname, hdrop]
          exact (List.prefix_iff_eq_append.mp hkey.1).symm
        rw [← hdata, hbatch] at hfresh
        cases hfresh
      · rw [hreplaced.vacuumed _ hkey hlisted, hbatch] at hfile
        cases hfile

/-- How a creation that writes ends: refused, with the snapshot replaced, or with the table
registered. -/
theorem after_createManagedTable_written {α : Type} (hsave : ∀ n, o.saveError n = none)
    {session : SessionContext} {database schema : Option String} {name : String} {w : World}
    {base : OPath} {files : Nat}
    {write : OPath → Op (List CatalogColumn × List CatalogTableConstraint × α)}
    (htarget : createTarget o session database schema name w.catalog = .ok base)
    (hwrite : Succeeds (write base) w (fun _ w' => Replaced o base files w w'))
    (hframe : After (write base) w (fun _ w' => w'.catalog = w.catalog)) :
  After (createManagedTable o session database schema name write) w (fun r w' =>
    (registrationRefused session database schema name w.catalog = true ∧ (∃ e, r = .error e)
        ∧ Replaced o base files w w')
      ∨ (registrationRefused session database schema name w.catalog = false ∧ (∃ a, r = .ok a)
        ∧ w'.catalog.relations.contains (relationKey (database.getD session.database)
          (schema.getD session.schema) name) = true))
  := by
  rw [after_createManagedTable_iff]
  constructor
  · intro message h
    rw [htarget] at h
    cases h
  · intro other h
    rw [htarget] at h
    cases h
    apply After.mono (hwrite.with_after hframe)
    rintro _ w₁ ⟨written, rfl, hreplaced, hcatalog⟩
    rw [resume_ok, after_bind]
    rw [← hcatalog] at htarget ⊢
    cases hrefused : registrationRefused session database schema name w₁.catalog with
    | true =>
        apply After.mono (after_registerManagedTable_refused o hrefused _ _ _)
        rintro _ _ ⟨⟨e, rfl⟩, rfl⟩
        exact .inl ⟨rfl, ⟨e, rfl⟩, hreplaced⟩
    | false =>
        obtain ⟨_, hidentifier, htarget⟩ := Except.bind_eq_ok_iff.mp htarget
        obtain ⟨_, hsession, -⟩ := Except.bind_eq_ok_iff.mp htarget
        apply After.mono (registerManagedTable_succeeds hsave hidentifier hsession hrefused _ _ _)
        rintro _ w₂ ⟨created, rfl, hcontains⟩
        exact .inr ⟨rfl, ⟨_, rfl⟩, hcontains⟩

/-- How a statement that writes fails: refused, with the snapshot replaced, or after its table
was registered. -/
theorem after_executeCreate_written {df : DataFusion} {session : SessionContext}
    {database schema : Option String} {name : String} {statement : CreateStatement} {w : World}
    {base : OPath} {files : Nat} (horder : InOrder o w)
    (htarget : createTarget o session database schema name w.catalog = .ok base)
    (hfiles : newFiles df w statement = some files) :
  After (executeCreate o df session database schema name statement) w (fun r w' =>
    (∃ e, r = .error e) →
      (registrationRefused session database schema name w.catalog = true
          ∧ Replaced o base files w w')
        ∨ (registrationRefused session database schema name w.catalog = false
          ∧ w'.catalog.relations.contains (relationKey (database.getD session.database)
            (schema.getD session.schema) name) = true))
  := by
  obtain ⟨m, hm⟩ := horder.manifests base
  have hquery : ∀ querySql (f : String × Nat → String),
      queryFiles df w querySql = some files →
      After (createManagedTable o session database schema name (writeQueryResult o df querySql)
        >>= fun created => pure (f created) : Op String) w (fun r w' =>
        (∃ e, r = .error e) →
          (registrationRefused session database schema name w.catalog = true
              ∧ Replaced o base files w w')
            ∨ (registrationRefused session database schema name w.catalog = false
              ∧ w'.catalog.relations.contains (relationKey (database.getD session.database)
                (schema.getD session.schema) name) = true)) := by
    intro querySql f hfiles
    rw [after_bind]
    refine After.mono (after_createManagedTable_written horder.save htarget
      (writeQueryResult_succeeds horder.store df querySql hm hfiles)
      (After.mono (after_writeQueryResult o df querySql base w)
        (fun _ _ hwrote => hwrote.touched.catalog))) ?_
    rintro r w' (⟨hrefused, ⟨e, rfl⟩, hreplaced⟩ | ⟨-, ⟨created, rfl⟩, -⟩)
    · intro _
      exact .inl ⟨hrefused, hreplaced⟩
    · rintro ⟨e, he⟩
      cases he
  rcases statement with ⟨columns, constraints⟩ | querySql | querySql
  · cases hfiles
    rw [executeCreate, after_bind]
    refine After.mono (after_createManagedTable_written horder.save htarget
      (writeDefinition_succeeds horder.store df columns constraints hm)
      (After.mono (after_writeDefinition o df columns constraints base w)
        (fun _ _ hwrote => hwrote.touched.catalog))) ?_
    rintro r w' (⟨hrefused, ⟨e, rfl⟩, hreplaced⟩ | ⟨hfree, ⟨created, rfl⟩, hcontains⟩)
    · intro _
      exact .inl ⟨hrefused, hreplaced⟩
    · rw [resume_ok]
      -- what follows the registration changes objects only
      have hrest : ModifiesOnly (fun _ => True) (do
          let relation ← tableRelation session database schema name
          rebuildAllIndexSnapshots o df session relation
          return created.1 : Op String) := by
        apply ModifiesOnly.bind (tableRelation_modifies _ _ _ _ _)
        intro relation
        apply ModifiesOnly.bind
        · apply ModifiesOnly.bind (tableStorePrefix_modifies o _ relation)
          intro path
          apply ModifiesOnly.mono (rebuildIndexSnapshots_modifies o df session relation path _)
          intro key _
          trivial
        · intro _
          apply ModifiesOnly.pure
      apply After.mono (hrest w')
      intro r' w'' hframe _
      right
      rw [hframe.catalog]
      exact ⟨hfree, hcontains⟩
  · apply hquery querySql _ hfiles
  · apply hquery querySql _ hfiles

theorem contains_of_registrationRefused_eq_false {session : SessionContext}
    {database schema : Option String} {name : String} {state : CatalogState}
    (h : registrationRefused session database schema name state = false) :
  state.relations.contains (relationKey (database.getD session.database)
    (schema.getD session.schema) name) = false
  := by
  unfold registrationRefused at h
  split at h
  · cases h
  · rw [Bool.or_eq_false_iff] at h
    apply h.2

/-- When a statement that fails keeps every relation: always when it is safe, and, with an
outside and a store in order, only then. -/
theorem executeCreate_failed_kept_iff (o : Outside) (df : DataFusion) (session : SessionContext)
    (database schema : Option String) (name : String) (statement : CreateStatement) (w : World) :
  After (executeCreate o df session database schema name statement) w (fun r w' =>
    (∃ e, r = .error e) →
      (CreateSafe o df session database schema name statement w → Kept o w w')
        ∧ (InOrder o w → Kept o w w' →
          CreateSafe o df session database schema name statement w))
  := by
  intro herror
  constructor
  · intro hsafe
    exact (after_executeCreate_safe o df hsafe).2
  · intro horder hkept base files htarget hfiles
    rcases after_executeCreate_written horder htarget hfiles herror with
      ⟨hrefused, hreplaced⟩ | ⟨hfree, hcontains⟩
    · exact ⟨hrefused, prefixFree_of_replaced horder hreplaced hkept⟩
    · rw [hkept.catalog, contains_of_registrationRefused_eq_false hfree] at hcontains
      cases hcontains

/-- The sample table at the location its name stands for. -/
def sampleManagedTable : CatalogRelation :=
  { sampleTable with
    storagePath := some "file:///data/catalog.managed/db=postgres/schema=public/table=t" }

/-- A first install with that table added. -/
def sampleManagedWorld : World :=
  World.bootstrap.withTable sampleManagedTable
    ["file://", "data", "catalog.managed", "db=postgres", "schema=public", "table=t"]
    { schema := [⟨"k", .int64, true⟩, rowIdField], rows := sampleRows }

/-- `CREATE TABLE t (k INT)` fails because the table exists, and empties the table. -/
theorem executeCreate_empties_table :
  ¬ After (executeCreate Outside.faultless (DataFusion.faultless (fun _ _ => .ok none)) {} none none
      "t" (.createTable [⟨"k", "INT", true, none⟩] [])) sampleManagedWorld (fun r w' =>
    (∃ e, r = .error e) → Kept Outside.faultless sampleManagedWorld w')
  := by
  intro h
  have hkept := h ⟨.error "Relation 'postgres.public.t' already exists", by decide +kernel⟩
  have hpath : RelationPath Outside.faultless sampleManagedWorld
      ["file://", "data", "catalog.managed", "db=postgres", "schema=public", "table=t"] :=
    ⟨"postgres.public.t", sampleManagedTable, by decide +kernel, by decide +kernel⟩
  apply absurd (hkept.entries _ hpath)
  decide +kernel

end
