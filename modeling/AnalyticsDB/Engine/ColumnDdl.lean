import AnalyticsDB.Engine.FileListCache

/-!
# ALTER TABLE on columns

A column is added, dropped, renamed or altered in the catalogue first, and then the files of the
table are written anew, one by one.  The writer takes batches of its own schema only, so that a
file with rows whose schema is not the new one ends the migration; what the migration returns is
thrown away.
-/

section

variable (o : Outside) (df : DataFusion)

/-- The file a migration reads at a path; a missing one may count as empty. -/
def migratedFile (path : OPath) : Op RecordBatch := do
  queryFault df
  match (← get).store[path]?, df.missingFile path with
  | some (.parquet file), _ => return file
  | some _, _ => bail "Parquet error: Invalid Parquet file. Corrupt footer"
  | none, none => return { schema := [], rows := [] }
  | none, some message => bail message

/-- Write the files anew, each as `migrate` has it, in the store of the table at `base`. -/
def migrateFiles (base : OPath) (migrate : RecordBatch → Except String RecordBatch) :
    List OPath → Op Unit
  | [] => pure ()
  | path :: paths => do
    let file ← migratedFile df path
    let migrated ← orBail (migrate file)
    orStoreError (← storePut o (base.take 1 ++ path.drop 1) (.parquet migrated) .overwrite)
    migrateFiles base migrate paths

/-- Write the files of a table anew. -/
def migrateRelation (migrate : RecordBatch → Except String RecordBatch)
    (relation : CatalogRelation) : Op Unit :=
  match relation.storagePath with
  | none => pure ()
  | some location => do
    let base ← orBail (storeForLocation o location)
    let files ← listFiles o base
    migrateFiles o df base migrate files

/-- A file under another schema. -/
def withSchema (schema : Schema) (file : RecordBatch) : Except String RecordBatch :=
  encodeParquetBatches schema (parquetBatches file)

/-- A file with a column renamed. -/
def withRenamedColumn (oldName newName : String) (file : RecordBatch) :
    Except String RecordBatch :=
  let schema := file.schema.map (fun field =>
    if field.name = oldName then { field with name := newName } else field)
  if (schema.map (·.name)).Nodup then
    .ok { schema := schema, rows := file.rows }
  else
    .error "Error during planning: Projections require unique expression names"

/-- Write the files of a table anew under the schema of the catalogue. -/
def physicalMigrateRelation (relation : CatalogRelation) : Op Unit :=
  migrateRelation o df (withSchema (buildArrowSchemaFromDefinitions relation.columns)) relation

/-- Write the files of a table anew with a column renamed. -/
def physicalMigrateRenameColumn (oldName newName : String) (relation : CatalogRelation) :
    Op Unit :=
  migrateRelation o df (withRenamedColumn oldName newName) relation

/-- The `ALTER TABLE` statements on columns. -/
inductive ColumnStatement where
  | addColumn (column : CatalogColumn)
  | dropColumn (columnName : String) (ifExists : Bool)
  | renameColumn (oldName newName : String)
  | alterColumn (columnName : String) (operation : AlterColumnOperation)

/-- Change the columns of a table in the catalogue. -/
def changeColumns (session : SessionContext) (database schema : Option String)
    (name : String) : ColumnStatement → Op String
  | .addColumn column => addColumn o session database schema name column
  | .dropColumn columnName ifExists => dropColumn o session database schema name columnName ifExists
  | .renameColumn oldName newName => renameColumn o session database schema name oldName newName
  | .alterColumn columnName operation =>
    alterColumn o session database schema name columnName operation

/-- Change the files of a table after its columns. -/
def migrateColumns : ColumnStatement → CatalogRelation → Op Unit
  | .renameColumn oldName newName => physicalMigrateRenameColumn o df oldName newName
  | .addColumn _ | .dropColumn _ _ | .alterColumn _ _ => physicalMigrateRelation o df

/-- What a statement reports of a table. -/
def reportColumns (relation : CatalogRelation) (message : String) :
    ColumnStatement → String
  | .addColumn column =>
    s!"ALTER TABLE completed. Column '{column.name}' added to '{relation.database}.{relation.schema}.{relation.name}'."
  | .dropColumn _ _ | .renameColumn _ _ | .alterColumn _ _ => message

/-- `ALTER TABLE name statement`. -/
def executeAlterColumns (session : SessionContext) (database schema : Option String)
    (name : String) (statement : ColumnStatement) : Op String := do
  let relation ← tableRelation session database schema name
  let message ← changeColumns o session database schema name statement
  let updated ← findRelation session database schema name
  let _ ← Eff.attempt (migrateColumns o df statement updated)
  return reportColumns relation message statement

/-- What a statement makes of a table in the catalogue. -/
def ColumnStatement.edited (relation : CatalogRelation) : ColumnStatement → CatalogRelation
  | .addColumn column => { relation with columns := relation.columns ++ [column] }
  | .dropColumn columnName _ =>
    { relation with columns := relation.columns.eraseP (·.name = columnName) }
  | .renameColumn oldName newName =>
    { relation with
      columns :=
        modifyFirst (·.name = oldName) (fun c => { c with name := newName }) relation.columns }
  | .alterColumn columnName operation =>
    { relation with
      columns := modifyFirst (·.name = columnName) operation.apply relation.columns }

/-- Whether a statement can be made of a table. -/
def ColumnStatement.Accepted (relation : CatalogRelation) : ColumnStatement → Prop
  | .addColumn column => ∀ known ∈ relation.columns, known.name ≠ column.name
  | .dropColumn columnName ifExists =>
    (∃ known ∈ relation.columns, known.name = columnName) ∨ ifExists = true
  | .renameColumn oldName newName =>
    (∀ known ∈ relation.columns, known.name ≠ newName)
      ∧ ∃ known ∈ relation.columns, known.name = oldName
  | .alterColumn columnName _ => ∃ known ∈ relation.columns, known.name = columnName

end

section

open Eff

variable {o : Outside} {df : DataFusion} {session : SessionContext}
  {database schema : Option String} {name : String}

/-- An edit of a relation is refused, or stores the edited relation. -/
theorem after_editRelation (key notFound : String)
    (edit : CatalogState → CatalogRelation → Except String CatalogRelation) (message : String)
    (w : World) :
  After (editRelation o session key notFound edit message) w (fun r w' =>
    (w' = w ∧ ∃ e, r = .error e)
      ∨ w'.store = w.store ∧ ∃ relation edited, w.catalog.relations[key]? = some relation
        ∧ edit w.catalog relation = .ok edited
        ∧ w'.catalog.relations = w.catalog.relations.insert key edited)
  := by
  simp only [editRelation, after_bind, after_readState, resume_ok, after_orBail, resume_error]
  refine ⟨fun message _ => .inl ⟨trivial, _, rfl⟩, fun _ _ => ?_⟩
  cases hfound : w.catalog.relations[key]? with
  | none => exact .inl ⟨rfl, _, rfl⟩
  | some relation =>
      rw [after_bind, after_orBail]
      refine ⟨fun message _ => .inl ⟨rfl, _, rfl⟩, fun edited hedited => ?_⟩
      rw [resume_ok]
      refine After.mono (after_edit o (fun state =>
        { state with relations := state.relations.insert key edited }) message w) ?_
      rintro r w' ⟨hstore, hcatalog⟩
      refine .inr ⟨hstore, relation, edited, rfl, hedited, ?_⟩
      rw [hcatalog]
      rfl

/-- A change of columns is refused, or stores the table with the changed columns. -/
theorem after_changeColumns (statement : ColumnStatement) (w : World) :
  After (changeColumns o session database schema name statement) w (fun r w' =>
    (w' = w ∧ ∃ e, r = .error e)
      ∨ w'.store = w.store ∧ ∃ relation,
        w.catalog.relations[namedKey session database schema name]? = some relation
        ∧ statement.Accepted relation
        ∧ w'.catalog.relations = w.catalog.relations.insert
          (namedKey session database schema name) (statement.edited relation))
  := by
  cases statement with
  | addColumn column =>
      refine After.mono (after_editRelation _ _ _ _ w) ?_
      rintro r w' (h | ⟨hstore, relation, edited, hfound, hedit, hrelations⟩)
      · exact .inl h
      · obtain ⟨_, hany, ⟨⟩⟩ := by simpa only [ite_throw_bind_eq_ok] using hedit
        refine .inr ⟨hstore, relation, hfound, ?_, hrelations⟩
        simpa [ColumnStatement.Accepted] using hany
  | dropColumn columnName ifExists =>
      refine After.mono (after_editRelation _ _ _ _ w) ?_
      rintro r w' (h | ⟨hstore, relation, edited, hfound, hedit, hrelations⟩)
      · exact .inl h
      · refine .inr ⟨hstore, relation, hfound, ?_⟩
        split at hedit
        · rename_i hany
          cases hedit
          exact ⟨.inl (by simpa using hany), hrelations⟩
        · rename_i hany
          split at hedit
          · rename_i hexists
            cases hedit
            refine ⟨.inr hexists, ?_⟩
            rw [hrelations]
            unfold ColumnStatement.edited
            dsimp only
            rw [List.eraseP_of_forall_not (by simpa using hany)]
            rfl
          · cases hedit
  | renameColumn oldName newName =>
      unfold changeColumns renameColumn
      rw [after_bind, after_orBail]
      refine ⟨fun message _ => .inl ⟨rfl, _, rfl⟩, fun _ _ => ?_⟩
      rw [resume_ok]
      refine After.mono (after_editRelation _ _ _ _ w) ?_
      rintro r w' (h | ⟨hstore, relation, edited, hfound, hedit, hrelations⟩)
      · exact .inl h
      · obtain ⟨hnew, hold, ⟨⟩⟩ := by simpa only [ite_throw_bind_eq_ok] using hedit
        refine .inr ⟨hstore, relation, hfound, ⟨?_, ?_⟩, hrelations⟩
        · simpa using hnew
        · simpa using hold
  | alterColumn columnName operation =>
      refine After.mono (after_editRelation _ _ _ _ w) ?_
      rintro r w' (h | ⟨hstore, relation, edited, hfound, hedit, hrelations⟩)
      · exact .inl h
      · obtain ⟨hany, ⟨⟩⟩ := by simpa only [ite_throw_bind_eq_ok] using hedit
        refine .inr ⟨hstore, relation, hfound, ?_, hrelations⟩
        simpa [ColumnStatement.Accepted] using hany

/-! ### What a migration touches -/

/-- The files that a table lists are below its path, in whichever store that is. -/
theorem listFiles_below (base : OPath) (hbase : base ≠ []) (w : World) :
  Returns (listFiles o base) w (fun files _ => ∀ path ∈ files,
    base <+: base.take 1 ++ path.drop 1)
  := by
  have hkey : ∀ key, base <+: key → base <+: base.take 1 ++ (localKey key).drop 1 := by
    rintro key ⟨rest, rfl⟩
    cases base with
    | nil => exact absurd rfl hbase
    | cons head base =>
        refine ⟨rest, ?_⟩
        simp [localKey]
  rw [listFiles, returns_bind]
  refine Returns.mono (readManifest_returns o base w) ?_
  intro read w₁ _
  cases read with
  | some manifest =>
      rw [returns_pure]
      intro path hpath
      obtain ⟨entry, -, rfl⟩ := List.mem_map.mp hpath
      exact hkey _ (List.prefix_append _ _)
  | none =>
      rw [listParquetFiles, returns_bind]
      refine Returns.mono (storeList_returns o base w₁) ?_
      intro keys w₂ hkeys
      rw [returns_pure]
      intro path hpath
      obtain ⟨key, hmem, rfl⟩ := List.mem_map.mp hpath
      exact hkey key (hkeys key (List.mem_filter.mp hmem).1).1

theorem migratedFile_modifies (touched : OPath → Prop) (path : OPath) :
  ModifiesOnly touched (migratedFile df path)
  := by
  apply ModifiesOnly.bind (queryFault_modifies df touched)
  intro _
  apply ModifiesOnly.bind ModifiesOnly.get
  intro w
  split
  · apply ModifiesOnly.pure
  · apply ModifiesOnly.bail
  · apply ModifiesOnly.pure
  · apply ModifiesOnly.bail

theorem migrateFiles_below {base : OPath} (migrate : RecordBatch → Except String RecordBatch)
    {files : List OPath} (hfiles : ∀ path ∈ files, base <+: base.take 1 ++ path.drop 1) :
  ModifiesOnly (base <+: ·) (migrateFiles o df base migrate files)
  := by
  induction files with
  | nil => apply ModifiesOnly.pure
  | cons path paths ih =>
      apply ModifiesOnly.bind (migratedFile_modifies _ path)
      intro file
      apply ModifiesOnly.bind (ModifiesOnly.orBail _)
      intro migrated
      apply ModifiesOnly.bind ((storePut_modifies o _ _ _).mono ?_)
      · intro outcome
        apply ModifiesOnly.bind (orStoreError_modifies _ outcome)
        intro _
        apply ih
        intro other hother
        exact hfiles other (List.mem_cons_of_mem _ hother)
      · rintro key rfl
        exact hfiles path List.mem_cons_self

/-- A path that a location denotes starts with its store. -/
theorem storeForLocation_ne_nil {location : String} {base : OPath}
    (h : storeForLocation o location = .ok base) :
  base ≠ []
  := by
  have hmap : ∀ (head : String) (path : Except String OPath),
      (head :: ·) <$> path = .ok base → base ≠ [] := by
    rintro head (message | path) hpath
    · cases hpath
    · cases hpath
      simp
  have hbucket : ∀ scheme rest, bucketPath scheme rest = .ok base → base ≠ [] := by
    intro scheme rest hpath
    obtain ⟨path, -, hpath⟩ := Except.bind_eq_ok_iff.mp hpath
    cases hpath
    simp
  unfold storeForLocation at h
  split at h
  · exact hbucket _ _ h
  · split at h
    · exact hbucket _ _ h
    · split at h
      · exact hbucket _ _ h
      · split at h
        · exact hmap _ _ h
        · split at h
          · cases h
          · exact hmap _ _ h

/-- A migration changes objects below the path of its table. -/
theorem migrateRelation_below (migrate : RecordBatch → Except String RecordBatch)
    {relation : CatalogRelation} {base : OPath} (hbase : relation.base? o = some base) :
  ModifiesOnly (base <+: ·) (migrateRelation o df migrate relation)
  := by
  obtain ⟨location, hlocation, hstore⟩ := location_of_base hbase
  unfold migrateRelation
  rw [hlocation]
  dsimp only
  rw [hstore]
  intro w
  simp only [orBail, pure_bind]
  rw [after_bind]
  refine After.mono ((listFiles_modifies o (base <+: ·) base w).and
    (listFiles_below base (storeForLocation_ne_nil hstore) w)) ?_
  rintro r w₁ ⟨hframe, hfiles⟩
  cases r with
  | error e => exact hframe
  | ok files =>
      rw [resume_ok]
      refine After.mono (migrateFiles_below migrate (hfiles files rfl) w₁) ?_
      intro r w₂ hframe'
      exact hframe.trans hframe'

theorem after_findRelation (w : World) :
  After (findRelation session database schema name) w (fun r w' => w' = w
    ∧ ∀ relation, r = .ok relation →
      w.catalog.relations[namedKey session database schema name]? = some relation)
  := by
  simp only [findRelation, after_bind, after_readState, resume_ok, after_orBail, resume_error]
  refine ⟨fun _ _ => ⟨trivial, fun _ h => ?_⟩, fun _ _ => ?_⟩
  · cases h
  · split
    · rename_i relation hfound
      refine ⟨rfl, fun _ h => ?_⟩
      cases h
      exact hfound
    · refine ⟨rfl, fun _ h => ?_⟩
      cases h

theorem migrateColumns_eq (statement : ColumnStatement) (relation : CatalogRelation) :
  ∃ migrate, migrateColumns o df statement relation = migrateRelation o df migrate relation
  := by
  cases statement with
  | renameColumn oldName newName => exact ⟨withRenamedColumn oldName newName, rfl⟩
  | addColumn column => exact ⟨_, rfl⟩
  | dropColumn columnName ifExists => exact ⟨_, rfl⟩
  | alterColumn columnName operation => exact ⟨_, rfl⟩

/-- A migration changes objects of its table. -/
theorem migrateColumns_modifies (statement : ColumnStatement) (relation : CatalogRelation) :
  ModifiesOnly (fun object => ∃ base, relation.base? o = some base ∧ base <+: object)
    (migrateColumns o df statement relation)
  := by
  obtain ⟨migrate, hmigrate⟩ := @migrateColumns_eq o df statement relation
  rw [hmigrate]
  cases hbase : relation.base? o with
  | some base =>
      apply (migrateRelation_below migrate hbase).mono
      intro object hobject
      exact ⟨base, rfl, hobject⟩
  | none =>
      unfold migrateRelation
      unfold CatalogRelation.base? at hbase
      cases hlocation : relation.storagePath with
      | none => apply ModifiesOnly.pure
      | some location =>
          rw [hlocation, Option.bind_some] at hbase
          dsimp only
          cases hstore : storeForLocation o location with
          | error message =>
              intro w
              rw [orBail, after_bind]
              exact Frame.refl _ w
          | ok base =>
              rw [hstore] at hbase
              cases hbase

/-- What a statement leaves: the system as it was, or the table with the changed columns, and the
objects as they were or as the migration leaves them. -/
theorem after_executeAlterColumns (statement : ColumnStatement) (w : World) :
  After (executeAlterColumns o df session database schema name statement) w (fun _ w' =>
    (w'.catalog.relations = w.catalog.relations ∧ w'.store = w.store)
      ∨ ∃ relation,
        w.catalog.relations[namedKey session database schema name]? = some relation
        ∧ statement.Accepted relation
        ∧ w'.catalog.relations = w.catalog.relations.insert
          (namedKey session database schema name) (statement.edited relation)
        ∧ (w'.store = w.store ∨ ∃ w₁, w₁.store = w.store
          ∧ w'.store = (exec (migrateColumns o df statement (statement.edited relation))
            w₁).2.store))
  := by
  unfold executeAlterColumns
  rw [after_bind]
  refine After.mono (after_tableRelation database schema name) ?_
  rintro r w₁ ⟨rfl, -⟩
  cases r with
  | error e => exact .inl ⟨rfl, rfl⟩
  | ok target =>
      rw [resume_ok, after_bind]
      refine After.mono (after_changeColumns statement w₁) ?_
      rintro r w₂ (⟨rfl, e, rfl⟩ | ⟨hstore, relation, hfound, haccepted, hrelations⟩)
      · exact .inl ⟨rfl, rfl⟩
      · cases r with
        | error e => exact .inr ⟨relation, hfound, haccepted, hrelations, .inl hstore⟩
        | ok message =>
            rw [resume_ok, after_bind]
            refine After.mono (after_findRelation w₂) ?_
            rintro r w₃ ⟨rfl, hupdated⟩
            cases r with
            | error e => exact .inr ⟨relation, hfound, haccepted, hrelations, .inl hstore⟩
            | ok updated =>
                have hedited := hupdated updated rfl
                rw [hrelations, KeyMap.get_insert, if_pos rfl] at hedited
                cases hedited
                rw [resume_ok, after_bind, after_attempt]
                refine After.mono (After.and
                  (migrateColumns_modifies statement (statement.edited relation) w₃)
                  (After.outcome _ w₃)) ?_
                rintro r w₄ ⟨hframe, hexec⟩
                rw [resume_ok, after_pure]
                refine .inr ⟨relation, hfound, haccepted, ?_, .inr ⟨w₃, hstore, ?_⟩⟩
                · rw [hframe.catalog, hrelations]
                · rw [hexec]

end
