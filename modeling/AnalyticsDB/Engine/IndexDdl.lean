import AnalyticsDB.Engine.Create
import AnalyticsDB.Engine.IndexSnapshots
import AnalyticsDB.Engine.InsertSelect
import AnalyticsDB.Control.IndexNames

/-!
# CREATE INDEX, ALTER INDEX and ADD CONSTRAINT

The snapshot of a new or renamed index is published before the catalogue checks the statement, and
what is published under the name is removed when the catalogue refuses it.  A statement that fails
leaves the indexes as they were as long as the name it publishes under is not that of an index of
the table.
-/

section

variable (o : Outside) (df : DataFusion) (session : SessionContext)

/-- Build and publish the snapshot of the index of a table that has a name. -/
def publishIndex (relation : CatalogRelation) (base : OPath) (indexName : String) : Op Unit :=
  match relation.indexes.find? (·.name = indexName) with
  | some index => rebuildIndexSnapshot o df session relation base index
  | none =>
    bail s!"Index '{indexName}' not found on relation '{relation.database}.{relation.schema}.{relation.name}'"

def publishIndexes (relation : CatalogRelation) (base : OPath) : List String → Op Unit
  | [] => pure ()
  | indexName :: indexNames => do
    publishIndex o df session relation base indexName
    publishIndexes relation base indexNames

def removeIndexSnapshot (base : OPath) (indexName : String) : Op Unit :=
  deletePrefix o (indexKey base indexName)

/-- Remove snapshots as far as the store does it. -/
def removeIndexSnapshots (base : OPath) : List String → Op Unit
  | [] => pure ()
  | indexName :: indexNames => do
    let _ ← Eff.attempt (removeIndexSnapshot o base indexName)
    removeIndexSnapshots base indexNames

/-- Change the catalogue, and remove the staged snapshots when it refuses. -/
def commitIndexes (base : OPath) (staged : List String) (commit : Op String) : Op String := do
  match ← Eff.attempt commit with
  | .ok message => return message
  | .error e =>
    removeIndexSnapshots o base staged
    throw e

/-- `CREATE INDEX name ON table (columns)`. -/
def executeCreateIndex (database schema : Option String) (table name : String)
    (columns : List String) (unique : Bool) : Op String := do
  let preview ← previewCreateIndex session database schema table name columns unique
  let base ← tableStorePrefix o preview
  publishIndex o df session preview base name
  commitIndexes o base [name] (createIndex o session database schema table name columns unique)

/-- `ALTER INDEX name operation`. -/
def executeAlterIndex (database schema : Option String) (name : String) :
    AlterObjectOperation → Op String
  | .rename newName => do
    let relation ← indexRelation session database schema name
    let preview := { relation with
      indexes :=
        modifyFirst (·.name = name) (fun i => { i with name := newName }) relation.indexes }
    let base ← tableStorePrefix o preview
    publishIndex o df session preview base newName
    let message ← commitIndexes o base [newName]
      (renameIndex o session database schema relation.name name newName)
    let _ ← Eff.attempt (removeIndexSnapshot o base name)
    return message
  | _ => do
    let _ ← indexRelation session database schema name
    bail "Unsupported index operation"

def previewAddConstraint (database schema : Option String) (tableName : String)
    (constraint : CatalogTableConstraint) : Op CatalogRelation := do
  let state ← readState
  orBail (validateSession state session)
  orBail (buildRelationWithCatalogConstraint state (database.getD session.database)
    (schema.getD session.schema) tableName constraint)

/-- The names of the indexes of a table that it did not have. -/
def stagedIndexNames (relation preview : CatalogRelation) : List String :=
  (preview.indexes.filter (fun index =>
    relation.indexes.all (·.name ≠ index.name))).map (·.name)

def addConstraints (relation : CatalogRelation) (database schema : Option String) (name : String) :
    List CatalogTableConstraint → String → Op String
  | [], message => return message
  | constraint :: constraints, _ => do
    let preview ← previewAddConstraint session database schema name constraint
    let base ← tableStorePrefix o preview
    let staged := stagedIndexNames relation preview
    publishIndexes o df session preview base staged
    let message ← commitIndexes o base staged
      (addConstraint o session database schema name constraint)
    addConstraints relation database schema name constraints message

/-- `ALTER TABLE name ADD CONSTRAINT constraint`. -/
def executeAddConstraint (database schema : Option String) (name : String)
    (constraint : TableConstraintDefinition) : Op String := do
  let relation ← tableRelation session database schema name
  addConstraints o df session relation database schema name
    (catalogConstraintsFromDefinitions [constraint]) ""

/-- The statements that publish the snapshot of an index of a table. -/
inductive IndexStatement where
  | createIndex (database schema : Option String) (table name : String) (columns : List String)
      (unique : Bool)
  | alterIndex (database schema : Option String) (name : String) (operation : AlterObjectOperation)
  | addConstraint (database schema : Option String) (name : String)
      (constraint : TableConstraintDefinition)

def executeIndexStatement : IndexStatement → Op String
  | .createIndex database schema table name columns unique =>
    executeCreateIndex o df session database schema table name columns unique
  | .alterIndex database schema name operation =>
    executeAlterIndex o df session database schema name operation
  | .addConstraint database schema name constraint =>
    executeAddConstraint o df session database schema name constraint

end

namespace IndexDdl

open Eff

/-! ### What a statement has to keep -/

/-- The indexes of the relations of a catalogue. -/
def indexLists (w : World) (key : String) : Option (List CatalogIndex) :=
  (w.catalog.relations[key]?).map (·.indexes)

/-- Every index of a relation has a published snapshot. -/
def Complete (o : Outside) (store : ObjectStore) (relation : CatalogRelation) : Prop :=
  ∀ index ∈ relation.indexes, ∃ base entries, relation.base? o = some base
    ∧ Published store base index entries

/-- Every snapshot of the catalogue that holds some entries holds them afterwards. -/
def KeepsSnapshots (o : Outside) (w w' : World) : Prop :=
  ∀ (key : String) relation base, w.catalog.relations[key]? = some relation →
    relation.base? o = some base → ∀ index ∈ relation.indexes, ∀ entries,
      Published w.store base index entries → Published w'.store base index entries

/-- A statement that fails leaves the indexes and their snapshots, and one that succeeds a
snapshot of every index. -/
def Atomic (o : Outside) (w : World) (r : Except Failure String) (w' : World) : Prop :=
  match r with
  | .error _ => indexLists w' = indexLists w ∧ KeepsSnapshots o w w'
  | .ok _ => ∀ (key : String) relation, w'.catalog.relations[key]? = some relation →
      Complete o w'.store relation

/-- A catalogue whose indexes all have snapshots: the relations that have indexes are tables, and no
table lies below another one. -/
structure Indexed (o : Outside) (w : World) : Prop where
  namespaced : w.catalog.Namespaced
  complete : ∀ (key : String) relation, w.catalog.relations[key]? = some relation →
    Complete o w.store relation
  kind : ∀ (key : String) relation, w.catalog.relations[key]? = some relation →
    relation.indexes ≠ [] → relation.kind = .table
  apart : ∀ (key other : String) relation relation' base base', key ≠ other →
    w.catalog.relations[key]? = some relation → w.catalog.relations[other]? = some relation' →
    relation.kind = .table → relation'.kind = .table → relation.base? o = some base →
    relation'.base? o = some base' → Apart base base'

section

variable {o : Outside} {df : DataFusion} {session : SessionContext} {relation : CatalogRelation}
  {base : OPath} {w : World}

/-! ### Publishing and removing snapshots -/

/-- The objects of the indexes of some names. -/
def StagedKey (base : OPath) (names : List String) (key : OPath) : Prop :=
  ∃ name ∈ names, OneIndexKey base name key

theorem published_congr {store : ObjectStore} {index index' : CatalogIndex} {entries : List Row}
    (h : Published store base index entries) (hname : index'.name = index.name)
    (hcolumns : index'.columns = index.columns) :
  Published store base index' entries
  := by
  rw [Published, snapshotSchema] at h ⊢
  rw [hname, hcolumns]
  exact h

theorem published_of_objects {store : ObjectStore} {index : CatalogIndex} {version metadata : String}
    {entries : List Row}
    (hmanifest : store[indexKey base index.name ++ ["manifest.json"]]? = some (.other version))
    (hmetadata : store[indexKey base index.name ++ ["versions", version, "metadata.json"]]?
      = some (.other metadata))
    (hdata : store[indexKey base index.name ++ ["versions", version, "data.parquet"]]?
      = some (.parquet { schema := snapshotSchema index, rows := entries })) :
  Published store base index entries
  := by
  refine ⟨version, metadata, hmanifest, ?_, ?_⟩
  · rw [List.append_assoc]
    exact hmetadata
  · rw [List.append_assoc]
    exact hdata

/-- A put that fails ends an operation, and one that returns has stored its object. -/
theorem after_put_then {key : OPath} {obj : Obj} {m : Op Unit} {w : World}
    {Q : Except Failure Unit → World → Prop}
    (hfail : ∀ e w', Frame (· = key) w w' → Q (.error e) w')
    (hstored : ∀ w', Frame (· = key) w w' → w'.store[key]? = some obj → After m w' Q) :
  After (storePut o key obj .overwrite >>= fun outcome => orStoreError outcome >>= fun _ => m) w Q
  := by
  rw [after_bind]
  refine After.mono ((storePut_modifies o key obj .overwrite w).and
    (storePut_returns o key obj .overwrite w)) ?_
  rintro r w₁ ⟨hframe, hobj⟩
  cases r with
  | error e => exact hfail e w₁ hframe
  | ok outcome =>
      rw [resume_ok]
      cases outcome with
      | error e => exact hfail _ w₁ hframe
      | ok _ => exact hstored w₁ hframe (hobj _ rfl rfl)

/-- A snapshot that was built is published, and only its objects are touched. -/
theorem after_rebuild (index : CatalogIndex) (w : World) :
  After (rebuildIndexSnapshot o df session relation base index) w (fun r w' =>
    Frame (OneIndexKey base index.name) w w'
      ∧ (r = .ok () → ∃ entries, Published w'.store base index entries))
  := by
  have hone : ∀ rest, OneIndexKey base index.name (indexKey base index.name ++ rest) :=
    fun rest => List.prefix_append _ rest
  have hput : ∀ {w₁ w₂ : World} {key : OPath}, OneIndexKey base index.name key →
      Frame (OneIndexKey base index.name) w w₁ → Frame (· = key) w₁ w₂ →
      Frame (OneIndexKey base index.name) w w₂ :=
    fun hkey hframe h => hframe.trans (h.mono (fun _ heq => heq ▸ hkey))
  unfold rebuildIndexSnapshot
  rw [after_bind, after_outsideCall, resume_ok]
  have hcall := Frame.call (OneIndexKey base index.name) w
  dsimp only
  rw [after_bind]
  refine After.mono (scanTable_modifies o df (OneIndexKey base index.name) session relation _) ?_
  rintro r w₁ hscan
  replace hscan := hcall.trans hscan
  cases r with
  | error e => exact ⟨hscan, fun h => by cases h⟩
  | ok scanned =>
      rw [resume_ok, after_ite]
      refine ⟨fun _ => ⟨hscan, fun h => by cases h⟩, fun _ => ?_⟩
      rw [after_ite]
      refine ⟨fun _ => ⟨hscan, fun h => by cases h⟩, fun _ => ?_⟩
      simp only [List.append_assoc, List.cons_append, List.nil_append]
      refine after_put_then (fun e w₂ h => ⟨hput (hone _) hscan h, fun h => by cases h⟩) ?_
      intro w₂ hframe₂ hdata
      replace hframe₂ := hput (hone _) hscan hframe₂
      refine after_put_then (fun e w₃ h => ⟨hput (hone _) hframe₂ h, fun h => by cases h⟩) ?_
      intro w₃ hput₃ hmetadata
      have hframe₃ := hput (hone _) hframe₂ hput₃
      rw [after_bind]
      refine After.mono ((storePut_modifies o _ _ .overwrite w₃).and
        (storePut_returns o _ _ .overwrite w₃)) ?_
      rintro r w₄ ⟨hput₄, hmanifest⟩
      have hframe₄ := hput (hone _) hframe₃ hput₄
      cases r with
      | error e => exact ⟨hframe₄, fun h => by cases h⟩
      | ok outcome =>
          rw [resume_ok]
          cases outcome with
          | error e => exact ⟨hframe₄, fun h => by cases h⟩
          | ok _ =>
              refine ⟨hframe₄, fun _ => ?_⟩
              rw [← hput₃.store _ (by simp), ← hput₄.store _ (by simp)] at hdata
              rw [← hput₄.store _ (by simp)] at hmetadata
              exact ⟨_, published_of_objects (hmanifest _ rfl rfl) hmetadata hdata⟩

theorem after_publishIndex (indexName : String) (w : World) :
  After (publishIndex o df session relation base indexName) w (fun r w' =>
    Frame (OneIndexKey base indexName) w w'
      ∧ (r = .ok () → ∃ index entries, relation.indexes.find? (·.name = indexName) = some index
        ∧ Published w'.store base index entries))
  := by
  unfold publishIndex
  cases hfind : relation.indexes.find? (·.name = indexName) with
  | none => exact ⟨Frame.refl _ _, fun h => by cases h⟩
  | some index =>
      obtain rfl : index.name = indexName := by simpa using List.find?_some hfind
      refine After.mono (after_rebuild index w) ?_
      rintro r w₁ ⟨hframe, hpublished⟩
      refine ⟨hframe, fun hr => ?_⟩
      obtain ⟨entries, hentries⟩ := hpublished hr
      exact ⟨index, entries, rfl, hentries⟩

theorem StagedKey.single {name : String} {key : OPath} :
  StagedKey base [name] key ↔ OneIndexKey base name key
  := by
  simp [StagedKey]

theorem removeIndexSnapshots_modifies (base : OPath) (names : List String) :
  ModifiesOnly (StagedKey base names) (removeIndexSnapshots o base names)
  := by
  induction names with
  | nil => apply ModifiesOnly.pure
  | cons name names ih =>
      apply ModifiesOnly.bind
      · apply ModifiesOnly.attempt
        apply (deletePrefix_modifies o (indexKey base name)).mono
        intro key hkey
        exact ⟨name, List.mem_cons_self, hkey⟩
      · intro _
        apply ih.mono
        rintro key ⟨other, hother, hkey⟩
        exact ⟨other, List.mem_cons_of_mem _ hother, hkey⟩

/-- When the catalogue refuses, the catalogue and the other snapshots are as before. -/
theorem after_commitIndexes (base : OPath) (staged : List String) {commit : Op String} {P : World → Prop}
    (hcommit : After commit w (fun r w' => (w' = w ∧ ∃ e, r = .error e)
      ∨ (∃ message, r = .ok message) ∧ P w')) :
  After (commitIndexes o base staged commit) w (fun r w' =>
    ((∃ e, r = .error e) ∧ Frame (StagedKey base staged) w w')
      ∨ (∃ message, r = .ok message) ∧ P w')
  := by
  rw [commitIndexes, after_bind, after_attempt]
  refine After.mono hcommit ?_
  rintro r w₁ (⟨rfl, e, rfl⟩ | ⟨⟨message, rfl⟩, hP⟩)
  · rw [resume_ok, after_bind]
    refine After.mono (removeIndexSnapshots_modifies base staged w₁) ?_
    intro r w₂ hframe
    cases r with
    | error e => exact .inl ⟨⟨e, rfl⟩, hframe⟩
    | ok _ => exact .inl ⟨⟨e, rfl⟩, hframe⟩
  · exact .inr ⟨⟨message, rfl⟩, hP⟩

/-- When the catalogue is always saved, an edit of a relation that returns an error has changed
nothing. -/
theorem after_edit_saved {α : Type} (hsave : ∀ n, o.saveError n = none)
    (f : CatalogState → CatalogState) (a : α) (w : World) :
  After (writeState f >>= fun _ => persist o >>= fun _ => pure a : Op α) w (fun r w' =>
    r = .ok a ∧ w'.store = w.store ∧ w'.catalog = (f w.catalog).bump)
  := by
  have hreturns : After (writeState f >>= fun _ => persist o >>= fun _ => pure a : Op α) w
      (fun r _ => r = .ok a) := by
    rw [after_bind, after_writeState, resume_ok, after_bind]
    obtain ⟨_, hpersist, -⟩ := persist_succeeds hsave { w with catalog := f w.catalog }
    rw [After, hpersist]
    rfl
  refine After.mono (hreturns.and (after_edit o f a w)) ?_
  rintro r w' ⟨hr, hstore, hcatalog⟩
  exact ⟨hr, hstore, hcatalog⟩

/-- The relation under a key was replaced. -/
def Replaced (w w' : World) (key : String) (relation edited : CatalogRelation) : Prop :=
  w'.store = w.store ∧ w.catalog.relations[key]? = some relation
    ∧ w'.catalog.relations = w.catalog.relations.insert key edited

theorem after_editRelation_saved (hsave : ∀ n, o.saveError n = none) (key notFound : String)
    (edit : CatalogState → CatalogRelation → Except String CatalogRelation) (message : String)
    (w : World) :
  After (editRelation o session key notFound edit message) w (fun r w' =>
    (w' = w ∧ ∃ e, r = .error e) ∨ (∃ message, r = .ok message)
      ∧ ∃ relation edited, edit w.catalog relation = .ok edited
        ∧ Replaced w w' key relation edited)
  := by
  simp only [editRelation, after_bind, after_readState, resume_ok, after_orBail, resume_error]
  refine ⟨fun message _ => .inl ⟨trivial, _, rfl⟩, fun _ _ => ?_⟩
  cases hfound : w.catalog.relations[key]? with
  | none => exact .inl ⟨rfl, _, rfl⟩
  | some relation =>
      rw [after_bind, after_orBail]
      refine ⟨fun message _ => .inl ⟨rfl, _, rfl⟩, fun edited hedited => ?_⟩
      rw [resume_ok]
      refine After.mono (after_edit_saved hsave (fun state =>
        { state with relations := state.relations.insert key edited }) message w) ?_
      rintro r w' ⟨hr, hstore, hcatalog⟩
      refine .inr ⟨⟨_, hr⟩, relation, edited, hedited, hstore, hfound, ?_⟩
      rw [hcatalog]
      rfl

/-- An edit that is accepted is made. -/
theorem after_editRelation_accepts (hsave : ∀ n, o.saveError n = none) {key notFound : String}
    {edit : CatalogState → CatalogRelation → Except String CatalogRelation} {message : String}
    {edited : CatalogRelation} (hsession : validateSession w.catalog session = .ok ())
    (hfound : w.catalog.relations[key]? = some relation)
    (hedit : edit w.catalog relation = .ok edited) :
  After (editRelation o session key notFound edit message) w (fun r w' =>
    r = .ok message ∧ Replaced w w' key relation edited)
  := by
  rw [editRelation, after_bind, after_readState, resume_ok, hsession, orBail, pure_bind, hfound]
  dsimp only
  rw [hedit, orBail, pure_bind]
  refine After.mono (after_edit_saved hsave (fun state =>
    { state with relations := state.relations.insert key edited }) message w) ?_
  rintro r w' ⟨hr, hstore, hcatalog⟩
  refine ⟨hr, hstore, hfound, ?_⟩
  rw [hcatalog]
  rfl

/-! ### What the other snapshots keep -/

theorem not_oneIndexKey_apart {base' : OPath} (h : Apart base base') (name other : String)
    (rest : OPath) :
  ¬ OneIndexKey base name (indexKey base' other ++ rest)
  := by
  intro hone
  apply h.not_below ((List.prefix_append base [".analyticsdb_indexes", name]).trans hone)
  rw [indexKey, List.append_assoc]
  exact List.prefix_append _ _

/-- Snapshots under some names of a table matter to no other snapshot. -/
theorem published_frame (hw : Indexed o w) {key other : String} {w₁ w' : World}
    {names : List String} (hfound : w.catalog.relations[key]? = some relation)
    (hkind : relation.kind = .table) (hbase : relation.base? o = some base)
    (hframe : Frame (StagedKey base names) w₁ w') {relation' : CatalogRelation} {base' : OPath}
    (hfound' : w.catalog.relations[other]? = some relation') (hbase' : relation'.base? o = some base')
    {index : CatalogIndex} (hindex : index ∈ relation'.indexes)
    (hfresh : key = other → index.name ∉ names) {entries : List Row}
    (hpublished : Published w₁.store base' index entries) :
  Published w'.store base' index entries
  := by
  apply hpublished.of_frame hframe
  rintro rest ⟨name, hname, hone⟩
  by_cases hsame : key = other
  · subst hsame
    rw [hfound] at hfound'
    cases hfound'
    rw [hbase] at hbase'
    cases hbase'
    refine not_oneIndexKey_other ?_ rest hone
    rintro rfl
    exact hfresh rfl hname
  · have hkind' := hw.kind other relation' hfound' (List.ne_nil_of_mem hindex)
    exact not_oneIndexKey_apart (hw.apart key other relation relation' base base' hsame hfound
      hfound' hkind hkind' hbase hbase') name index.name rest hone

/-- Snapshots under names that no index of the table has do not matter to those there are. -/
theorem keeps_of_frame (hw : Indexed o w) {key : String} {w' : World} {names : List String}
    (hfound : w.catalog.relations[key]? = some relation) (hkind : relation.kind = .table)
    (hbase : relation.base? o = some base) (hfresh : ∀ index ∈ relation.indexes, index.name ∉ names)
    (hframe : Frame (StagedKey base names) w w') :
  KeepsSnapshots o w w'
  := by
  intro other relation' base' hfound' hbase' index hindex entries hpublished
  refine published_frame hw hfound hkind hbase hframe hfound' hbase' hindex ?_ hpublished
  rintro rfl
  rw [hfound] at hfound'
  cases hfound'
  exact hfresh index hindex

theorem atomic_error (e : Failure) {w' : World} (hcatalog : w'.catalog = w.catalog)
    (hkeeps : KeepsSnapshots o w w') :
  Atomic o w (.error e) w'
  := by
  refine ⟨?_, hkeeps⟩
  funext key
  rw [indexLists, hcatalog]
  rfl

theorem KeepsSnapshots.of_store {w' : World} (h : w'.store = w.store) :
  KeepsSnapshots o w w'
  := by
  intro key relation base _ _ index _ entries hpublished
  rw [h]
  exact hpublished

/-- A relation that keeps the snapshots of its indexes is complete when they are. -/
theorem KeepsSnapshots.complete {w' : World} (h : KeepsSnapshots o w w') (hw : Indexed o w)
    {key : String} (hfound : w.catalog.relations[key]? = some relation) :
  Complete o w'.store relation
  := by
  intro index hindex
  obtain ⟨base, entries, hbase, hpublished⟩ := hw.complete key relation hfound index hindex
  exact ⟨base, entries, hbase, h key relation base hfound hbase index hindex entries hpublished⟩

theorem KeepsSnapshots.then_store {w' w'' : World} (h : KeepsSnapshots o w w')
    (hstore : w''.store = w'.store) :
  KeepsSnapshots o w w''
  := by
  intro key relation base hfound hbase index hindex entries hpublished
  rw [hstore]
  exact h key relation base hfound hbase index hindex entries hpublished

/-- An index with a snapshot is added to a table. -/
theorem Complete.append {store : ObjectStore} {index : CatalogIndex} {entries : List Row}
    {constraints : List CatalogTableConstraint} (h : Complete o store relation)
    (hbase : relation.base? o = some base) (hpublished : Published store base index entries) :
  Complete o store
    { relation with constraints := constraints, indexes := relation.indexes ++ [index] }
  := by
  intro other hother
  rcases List.mem_append.mp hother with hother | hother
  · exact h other hother
  · rw [List.mem_singleton.mp hother]
    exact ⟨base, entries, hbase, hpublished⟩

/-- When a table is replaced, its indexes and those of the others are complete afterwards. -/
theorem atomic_replaced (hw : Indexed o w) {w₁ w' : World} {key : String} {message : String}
    {edited : CatalogRelation} (hkeeps : KeepsSnapshots o w w')
    (hcatalog₁ : w₁.catalog = w.catalog)
    (hrelations : w'.catalog.relations = w₁.catalog.relations.insert key edited)
    (hedited : Complete o w'.store edited) :
  Atomic o w (.ok message) w'
  := by
  intro other relation hfound
  rw [hrelations, hcatalog₁, KeyMap.get_insert] at hfound
  split at hfound
  · cases hfound
    exact hedited
  · exact hkeeps.complete hw hfound

/-! ### CREATE INDEX -/

/-- A preview is of the table under its key, with an index whose name the table does not use. -/
theorem after_preview (hw : Indexed o w) (database schema : Option String)
    (table name : String) (columns : List String) (unique : Bool) :
  After (previewCreateIndex session database schema table name columns unique) w (fun r w' =>
    w' = w ∧ ∀ preview, r = .ok preview → ∃ relation,
      w.catalog.relations[relationKey (database.getD session.database)
        (schema.getD session.schema) table]? = some relation
      ∧ relation.kind = .table
      ∧ preview = { relation with indexes := relation.indexes ++ [⟨name, columns, unique, false⟩] }
      ∧ ∀ index ∈ relation.indexes, index.name ≠ name)
  := by
  simp only [previewCreateIndex, after_bind, after_readState, resume_ok, after_orBail,
    resume_error]
  refine ⟨fun _ _ => ⟨trivial, fun _ h => by cases h⟩, ?_⟩
  intro _ _
  split
  · exact ⟨rfl, fun _ h => by cases h⟩
  · rename_i relation hfound
    simp only [after_ite, after_bind, after_bail, resume_error, after_pure, reduceCtorEq,
      false_implies, implies_true, and_self, true_and]
    intro hkind hnew preview hpreview
    cases hpreview
    refine ⟨relation, hfound, by simpa using hkind, rfl, ?_⟩
    have hnone := schemaContainsIndexName_eq_false.mp (Bool.eq_false_iff.mpr hnew)
    obtain ⟨hdatabase, hschema⟩ := hw.namespaced.inSchema hfound
    have hfree := hnone _ relation hfound (by simp) hdatabase hschema
    simpa [CatalogRelation.hasIndex] using hfree

theorem find_append_new {indexes : List CatalogIndex} (index : CatalogIndex)
    (hnew : ∀ other ∈ indexes, other.name ≠ index.name) :
  (indexes ++ [index]).find? (·.name = index.name) = some index
  := by
  rw [List.find?_append, List.find?_eq_none.mpr (by simpa using hnew)]
  simp

theorem atomic_createIndex (hw : Indexed o w) (hsave : ∀ n, o.saveError n = none)
    (database schema : Option String) (table name : String) (columns : List String)
    (unique : Bool) :
  After (executeCreateIndex o df session database schema table name columns unique) w (Atomic o w)
  := by
  rw [executeCreateIndex, after_bind]
  refine After.mono (after_preview hw database schema table name columns unique) ?_
  rintro r w₁ ⟨rfl, hpreview⟩
  have hkeeps : KeepsSnapshots o w₁ w₁ := KeepsSnapshots.of_store rfl
  cases r with
  | error e => exact atomic_error e rfl hkeeps
  | ok preview =>
      obtain ⟨relation, hfound, hkind, rfl, hnew⟩ := hpreview preview rfl
      rw [resume_ok, after_bind]
      refine After.mono (after_tableStorePrefix _) ?_
      rintro r w₂ ⟨rfl, hbase⟩
      cases r with
      | error e => exact atomic_error e rfl hkeeps
      | ok base =>
          replace hbase : relation.base? o = some base := hbase base rfl
          have hfresh : ∀ index ∈ relation.indexes, index.name ∉ [name] := by
            simpa using hnew
          rw [resume_ok, after_bind]
          refine After.mono (after_publishIndex name w₂) ?_
          rintro r w₃ ⟨hframe, hpublished⟩
          replace hframe := hframe.mono (fun _ => StagedKey.single.mpr)
          have hkeeps₃ := keeps_of_frame hw hfound hkind hbase hfresh hframe
          cases r with
          | error e => exact atomic_error e hframe.catalog hkeeps₃
          | ok _ =>
              obtain ⟨index, entries, hindex, hentries⟩ := hpublished rfl
              have hfind := find_append_new ⟨name, columns, unique, false⟩ hnew
              obtain rfl := Option.some.inj (hfind.symm.trans hindex)
              rw [resume_ok]
              refine After.mono (after_commitIndexes base [name]
                (after_editRelation_saved hsave _ _ _ _ w₃)) ?_
              rintro r w₄ (⟨⟨e, rfl⟩, hframe₄⟩
                | ⟨⟨message, rfl⟩, relation', edited, hedit, hstore, hfound', hrelations⟩)
              · exact atomic_error e (hframe₄.catalog.trans hframe.catalog)
                  (keeps_of_frame hw hfound hkind hbase hfresh (hframe.trans hframe₄))
              · rw [hframe.catalog, hfound] at hfound'
                cases hfound'
                split at hedit
                · cases hedit
                · cases hedit
                  rw [← hstore] at hentries
                  have hkeeps₄ := hkeeps₃.then_store hstore
                  exact atomic_replaced hw hkeeps₄ hframe.catalog hrelations
                    ((hkeeps₄.complete hw hfound).append hbase hentries)

/-! ### ALTER INDEX -/

/-- The elements after a change of the only element that satisfies `p`. -/
theorem mem_modifyFirst_single {α : Type} {p : α → Bool} {f : α → α} {l : List α} {b : α}
    (hone : l.countP p ≤ 1) (hb : b ∈ modifyFirst p f l) :
  b ∈ l ∧ p b = false ∨ ∃ c, l.find? p = some c ∧ b = f c
  := by
  induction l with
  | nil => cases hb
  | cons a l ih =>
      rw [modifyFirst] at hb
      split at hb
      · rename_i ha
        rw [List.countP_cons_of_pos ha] at hone
        have hnone := List.countP_eq_zero.mp (show l.countP p = 0 by omega)
        rcases List.mem_cons.mp hb with rfl | hb
        · exact .inr ⟨a, by simp [ha], rfl⟩
        · exact .inl ⟨List.mem_cons_of_mem a hb, by simpa using hnone b hb⟩
      · rename_i ha
        rw [List.countP_cons_of_neg ha] at hone
        rcases List.mem_cons.mp hb with rfl | hb
        · exact .inl ⟨List.mem_cons_self, by simpa using ha⟩
        · obtain ⟨hmem, hp⟩ | ⟨c, hc, rfl⟩ := ih hone hb
          · exact .inl ⟨List.mem_cons_of_mem a hmem, hp⟩
          · refine .inr ⟨c, ?_, rfl⟩
            rw [List.find?_cons_of_neg ha]
            exact hc

/-- The relation that has an index is stored under its names. -/
theorem after_indexRelation (hw : Indexed o w) (database schema : Option String) (name : String) :
  After (indexRelation session database schema name) w (fun r w' => w' = w
    ∧ ∀ relation, r = .ok relation → validateSession w.catalog session = .ok ()
      ∧ w.catalog.relations[relationKey (database.getD session.database)
        (schema.getD session.schema) relation.name]? = some relation
      ∧ ∃ index ∈ relation.indexes, index.name = name)
  := by
  simp only [indexRelation, after_bind, after_readState, resume_ok, after_orBail, resume_error]
  refine ⟨fun _ _ => ⟨trivial, fun _ h => by cases h⟩, ?_⟩
  intro _ hsession
  split
  · rename_i key relation hfind
    refine ⟨rfl, ?_⟩
    rintro _ ⟨⟩
    have hfound := Std.ExtTreeMap.mem_toList_iff_getElem?_eq_some.mp
      (List.mem_of_find?_eq_some hfind)
    have hhas := List.find?_some hfind
    simp only [Bool.and_eq_true, decide_eq_true_iff, List.any_eq_true] at hhas
    obtain ⟨⟨hdatabase, hschema⟩, hindex⟩ := hhas
    rw [← hdatabase, ← hschema]
    have hkey := hw.namespaced.key_eq hfound
    rw [CatalogRelation.key] at hkey
    exact ⟨hsession, hkey ▸ hfound, hindex⟩
  · exact ⟨rfl, fun _ h => by cases h⟩

/-- The table after the first index of a name got another one. -/
def renamedIndex (relation : CatalogRelation) (name newName : String) : CatalogRelation :=
  { relation with
    indexes := modifyFirst (·.name = name) (fun i => { i with name := newName }) relation.indexes }

theorem after_renameIndex_saved (hsave : ∀ n, o.saveError n = none)
    (database schema : Option String) (tableName oldName newName : String) (w : World) :
  After (renameIndex o session database schema tableName oldName newName) w (fun r w' =>
    (w' = w ∧ ∃ e, r = .error e) ∨ (∃ message, r = .ok message)
      ∧ validateIdentifier newName = .ok () ∧ ∃ relation, Replaced w w'
        (relationKey (database.getD session.database) (schema.getD session.schema) tableName)
        relation (renamedIndex relation oldName newName)
        ∧ ∀ index ∈ relation.indexes, index.name ≠ newName)
  := by
  rw [renameIndex, after_bind, after_orBail]
  refine ⟨fun message _ => .inl ⟨rfl, _, rfl⟩, fun _ hvalid => ?_⟩
  rw [resume_ok]
  refine After.mono (after_editRelation_saved hsave _ _ _ _ w) ?_
  rintro r w' (h | ⟨hr, relation, edited, hedit, hreplaced⟩)
  · exact .inl h
  · obtain ⟨hnew, hold, ⟨⟩⟩ := by simpa only [ite_throw_bind_eq_ok] using hedit
    refine .inr ⟨hr, hvalid, relation, hreplaced, ?_⟩
    simpa using hnew

/-- What a statement may ask for: a new name for an index, that no index of the table has. -/
def RenameSpares (session : SessionContext) (w : World) (database schema : Option String)
    (name newName : String) : Prop :=
  ∀ relation, (exec (indexRelation session database schema name) w).1 = .ok relation →
    (∀ index ∈ relation.indexes, index.name ≠ newName)
      ∧ (validateIdentifier newName = .ok () → relation.indexes.countP (·.name = name) ≤ 1)

/-- After the new snapshot is published, the index renamed and the old snapshot removed, every
index has a snapshot. -/
theorem atomic_renamed (hw : Indexed o w) {key name newName message : String}
    {w₁ w₂ w₃ : World} {index : CatalogIndex} {entries : List Row}
    (hfound : w.catalog.relations[key]? = some relation) (hkind : relation.kind = .table)
    (hbase : relation.base? o = some base) (hnamed : ∃ i ∈ relation.indexes, i.name = name)
    (hnew : ∀ i ∈ relation.indexes, i.name ≠ newName)
    (hsingle : relation.indexes.countP (·.name = name) ≤ 1)
    (hindex : (renamedIndex relation name newName).indexes.find? (·.name = newName) = some index)
    (hframe₁ : Frame (StagedKey base [newName]) w w₁)
    (hpublished : Published w₁.store base index entries) (hstore : w₂.store = w₁.store)
    (hrelations : w₂.catalog.relations
      = w₁.catalog.relations.insert key (renamedIndex relation name newName))
    (hframe₃ : Frame (StagedKey base [name]) w₂ w₃) :
  Atomic o w (.ok message) w₃
  := by
  have hkept : ∀ {other : String} {relation' : CatalogRelation},
      w.catalog.relations[other]? = some relation' → ∀ i ∈ relation'.indexes,
      (key = other → i.name ≠ newName ∧ i.name ≠ name) → ∃ base' entries',
        relation'.base? o = some base' ∧ Published w₃.store base' i entries' := by
    intro other relation' hfound' i hi hfresh
    obtain ⟨base', entries', hbase', hi'⟩ := hw.complete other relation' hfound' i hi
    have hi₁ := published_frame hw hfound hkind hbase hframe₁ hfound' hbase' hi
      (fun hsame => by simpa using (hfresh hsame).1) hi'
    rw [← hstore] at hi₁
    exact ⟨base', entries', hbase', published_frame hw hfound hkind hbase hframe₃ hfound' hbase' hi
      (fun hsame => by simpa using (hfresh hsame).2) hi₁⟩
  intro other relation' hfound'
  rw [hframe₃.catalog, hrelations, hframe₁.catalog, KeyMap.get_insert] at hfound'
  split at hfound'
  · rename_i hsame
    subst hsame
    cases hfound'
    intro i hi
    obtain ⟨hmem, hother⟩ | ⟨c, hc, rfl⟩ := mem_modifyFirst_single hsingle hi
    · exact hkept hfound i hmem (fun _ => ⟨hnew i hmem, by simpa using hother⟩)
    · have hsame : index = { c with name := newName } := by
        obtain ⟨hmem, -⟩ | ⟨c', hc', hindex'⟩ :=
          mem_modifyFirst_single hsingle (List.mem_of_find?_eq_some hindex)
        · exact absurd (by simpa using List.find?_some hindex) (hnew index hmem)
        · rw [hc] at hc'
          cases hc'
          exact hindex'
      refine ⟨base, entries, hbase, ?_⟩
      rw [← hsame]
      rw [← hstore] at hpublished
      apply hpublished.of_frame hframe₃
      rintro rest ⟨_, hname, hone⟩
      rw [List.mem_singleton.mp hname] at hone
      refine not_oneIndexKey_other ?_ rest hone
      obtain ⟨old, hold, rfl⟩ := hnamed
      rw [hsame]
      exact hnew old hold
  · rename_i hne
    intro i hi
    exact hkept hfound' i hi (fun hsame => absurd hsame hne)

theorem atomic_alterIndex (hw : Indexed o w) (hsave : ∀ n, o.saveError n = none)
    (database schema : Option String) (name newName : String)
    (hspares : RenameSpares session w database schema name newName) :
  After (executeAlterIndex o df session database schema name (.rename newName)) w (Atomic o w)
  := by
  rw [executeAlterIndex, after_bind]
  refine After.mono ((after_indexRelation hw database schema name).and (After.outcome _ w)) ?_
  rintro r w₁ ⟨⟨hw₁, hrelation⟩, hr⟩
  subst hw₁
  have hkeeps : KeepsSnapshots o w₁ w₁ := KeepsSnapshots.of_store rfl
  cases r with
  | error e => exact atomic_error e rfl hkeeps
  | ok relation =>
      obtain ⟨-, hfound, hnamed⟩ := hrelation relation rfl
      obtain ⟨hnew, hsingle⟩ := hspares relation (congrArg Prod.fst hr)
      have hkind : relation.kind = .table := by
        obtain ⟨index, hindex, -⟩ := hnamed
        exact hw.kind _ relation hfound (List.ne_nil_of_mem hindex)
      rw [resume_ok]
      dsimp only
      rw [← renamedIndex, after_bind]
      refine After.mono (after_tableStorePrefix _) ?_
      rintro r w₂ ⟨rfl, hbase⟩
      cases r with
      | error e => exact atomic_error e rfl hkeeps
      | ok base =>
          replace hbase : relation.base? o = some base := hbase base rfl
          have hfresh : ∀ index ∈ relation.indexes, index.name ∉ [newName] := by
            simpa using hnew
          rw [resume_ok, after_bind]
          refine After.mono (after_publishIndex newName w₂) ?_
          rintro r w₃ ⟨hframe, hpublished⟩
          replace hframe := hframe.mono (fun _ => StagedKey.single.mpr)
          have hkeeps₃ := keeps_of_frame hw hfound hkind hbase hfresh hframe
          cases r with
          | error e => exact atomic_error e hframe.catalog hkeeps₃
          | ok _ =>
              obtain ⟨index, entries, hindex, hentries⟩ := hpublished rfl
              rw [resume_ok, after_bind]
              refine After.mono (after_commitIndexes base [newName]
                (after_renameIndex_saved hsave _ _ _ _ _ w₃)) ?_
              rintro r w₄ (⟨⟨e, rfl⟩, hframe₄⟩
                | ⟨⟨message, rfl⟩, hvalid, relation', ⟨hstore, hfound', hrelations⟩, -⟩)
              · exact atomic_error e (hframe₄.catalog.trans hframe.catalog)
                  (keeps_of_frame hw hfound hkind hbase hfresh (hframe.trans hframe₄))
              · rw [hframe.catalog, hfound] at hfound'
                cases hfound'
                rw [resume_ok, after_bind, after_attempt]
                refine After.mono (deletePrefix_modifies o (indexKey base name) w₄) ?_
                intro r w₅ hframe₅
                rw [resume_ok, after_pure]
                replace hframe₅ := hframe₅.mono (fun _ => StagedKey.single.mpr)
                exact atomic_renamed hw hfound hkind hbase hnamed hnew (hsingle hvalid) hindex hframe
                  hentries hstore hrelations hframe₅

/-! ### ADD CONSTRAINT -/

/-- The indexes of a name are over the same columns. -/
def Agreeing (indexes : List CatalogIndex) : Prop :=
  ∀ index ∈ indexes, ∀ other ∈ indexes, index.name = other.name → index.columns = other.columns

/-- What a statement may ask for: a constraint whose index agrees with those of its name. -/
def AddSpares (session : SessionContext) (w : World) (database schema : Option String)
    (name : String) (constraint : TableConstraintDefinition) : Prop :=
  ∀ added ∈ catalogConstraintsFromDefinitions [constraint], ∀ preview,
    (exec (previewAddConstraint session database schema name added) w).1 = .ok preview →
      Agreeing preview.indexes

theorem after_previewAddConstraint (database schema : Option String) (name : String)
    (constraint : CatalogTableConstraint) :
  After (previewAddConstraint session database schema name constraint) w (fun r w' => w' = w
    ∧ ∀ preview, r = .ok preview → validateSession w.catalog session = .ok ()
      ∧ buildRelationWithCatalogConstraint w.catalog (database.getD session.database)
        (schema.getD session.schema) name constraint = .ok preview)
  := by
  simp only [previewAddConstraint, after_bind, after_readState, resume_ok, after_orBail,
    resume_error]
  refine ⟨fun _ _ => ⟨trivial, fun _ h => by cases h⟩, fun _ hsession => ?_⟩
  refine ⟨fun _ _ => ⟨trivial, fun _ h => by cases h⟩, fun preview hpreview => ⟨trivial, ?_⟩⟩
  rintro _ ⟨⟩
  exact ⟨hsession, hpreview⟩

theorem after_addConstraint_saved (hsave : ∀ n, o.saveError n = none)
    (database schema : Option String) (tableName : String) (constraint : CatalogTableConstraint)
    (w : World) :
  After (addConstraint o session database schema tableName constraint) w (fun r w' =>
    (w' = w ∧ ∃ e, r = .error e) ∨ (∃ message, r = .ok message) ∧ ∃ relation, Replaced w w'
      (relationKey (database.getD session.database) (schema.getD session.schema) tableName)
      relation (relation.withConstraint constraint))
  := by
  rw [addConstraint, after_bind, after_readState, resume_ok, after_bind, after_orBail]
  refine ⟨fun _ _ => .inl ⟨rfl, _, rfl⟩, fun _ _ => ?_⟩
  rw [resume_ok, after_bind, after_orBail]
  refine ⟨fun _ _ => .inl ⟨rfl, _, rfl⟩, fun preview hpreview => ?_⟩
  obtain ⟨relation, hfound, -, -, -, rfl⟩ := buildRelationWithCatalogConstraint_eq hpreview
  rw [resume_ok]
  refine After.mono (after_edit_saved hsave (fun state => { state with
    relations := state.relations.insert (relationKey (database.getD session.database)
      (schema.getD session.schema) tableName) (relation.withConstraint constraint) }) _ w) ?_
  rintro r w' ⟨hr, hstore, hcatalog⟩
  refine .inr ⟨⟨_, hr⟩, relation, hstore, hfound, ?_⟩
  rw [hcatalog]
  rfl

/-- The index that a constraint adds is staged when its name is new. -/
theorem stagedIndexNames_withConstraint (relation : CatalogRelation)
    (constraint : CatalogTableConstraint) :
  stagedIndexNames relation (relation.withConstraint constraint)
    = if constraint.kind.isBacked = true ∧ ∀ index ∈ relation.indexes, index.name ≠ constraint.name
      then [constraint.name] else []
  := by
  have hold : relation.indexes.filter (fun index =>
      relation.indexes.all (·.name ≠ index.name)) = [] := by
    rw [List.filter_eq_nil_iff]
    intro index hindex
    simp only [List.all_eq_true, not_forall]
    exact ⟨index, hindex, by simp⟩
  rw [stagedIndexNames, CatalogRelation.withConstraint]
  cases hbacked : constraint.kind.isBacked with
  | false =>
      simp only [Bool.false_eq_true, if_false, false_and]
      rw [hold]
      rfl
  | true =>
      simp only [if_true, List.filter_append, hold, List.nil_append, true_and]
      by_cases hnew : ∀ index ∈ relation.indexes, index.name ≠ constraint.name
      · have hall : (relation.indexes.all (·.name ≠ constraint.backingIndex.name)) = true :=
          List.all_eq_true.mpr (fun index hindex => decide_eq_true (hnew index hindex))
        rw [if_pos hnew, List.filter_cons]
        simp only [hall, if_true, List.filter_nil]
        rfl
      · have hall : (relation.indexes.all (·.name ≠ constraint.backingIndex.name)) = false := by
          refine Bool.eq_false_iff.mpr (fun h => hnew (fun index hindex => ?_))
          exact of_decide_eq_true (List.all_eq_true.mp h index hindex)
        rw [if_neg hnew, List.filter_cons]
        simp only [hall, Bool.false_eq_true, if_false, List.filter_nil, List.map_nil]

/-- A table with one more constraint is complete when the index of the constraint, if it adds one,
has a snapshot under its name. -/
theorem complete_withConstraint {store : ObjectStore} {constraint : CatalogTableConstraint}
    (h : Complete o store relation)
    (hindex : constraint.kind.isBacked = true → ∃ base entries, relation.base? o = some base
      ∧ Published store base constraint.backingIndex entries) :
  Complete o store (relation.withConstraint constraint)
  := by
  unfold CatalogRelation.withConstraint
  split
  · rename_i hbacked
    obtain ⟨base, entries, hbase, hpublished⟩ := hindex hbacked
    exact h.append hbase hpublished
  · exact h

theorem publishIndexes_single (preview : CatalogRelation) (indexName : String) :
  publishIndexes o df session preview base [indexName]
    = publishIndex o df session preview base indexName >>= fun _ => pure ()
  := rfl

/-- The staged index of a constraint is published, or none is staged. -/
theorem after_publishIndexes (constraint : CatalogTableConstraint) (w : World) :
  After (publishIndexes o df session (relation.withConstraint constraint) base
      (stagedIndexNames relation (relation.withConstraint constraint))) w (fun r w' =>
    Frame (StagedKey base (stagedIndexNames relation (relation.withConstraint constraint))) w w'
      ∧ (r = .ok () → constraint.kind.isBacked = true →
        (∀ index ∈ relation.indexes, index.name ≠ constraint.name) →
          ∃ entries, Published w'.store base constraint.backingIndex entries))
  := by
  rw [stagedIndexNames_withConstraint]
  split
  · rename_i hstaged
    obtain ⟨hbacked, hnew⟩ := hstaged
    rw [publishIndexes_single, after_bind]
    refine After.mono (after_publishIndex constraint.name w) ?_
    rintro r w₁ ⟨hframe, hpublished⟩
    replace hframe := hframe.mono (fun _ => StagedKey.single.mpr)
    cases r with
    | error e => exact ⟨hframe, fun h => by cases h⟩
    | ok _ =>
        obtain ⟨index, entries, hindex, hentries⟩ := hpublished rfl
        rw [CatalogRelation.withConstraint, if_pos hbacked] at hindex
        obtain rfl := Option.some.inj
          ((find_append_new constraint.backingIndex hnew).symm.trans hindex)
        exact ⟨hframe, fun _ _ _ => ⟨entries, hentries⟩⟩
  · rename_i hnone
    exact ⟨Frame.refl _ _, fun _ hbacked hnew => absurd ⟨hbacked, hnew⟩ hnone⟩

theorem atomic_addConstraint (hw : Indexed o w) (hsave : ∀ n, o.saveError n = none)
    (database schema : Option String) (name : String) (constraint : TableConstraintDefinition)
    (hspares : AddSpares session w database schema name constraint) :
  After (executeAddConstraint o df session database schema name constraint) w (Atomic o w)
  := by
  rw [executeAddConstraint, after_bind]
  refine After.mono (after_tableRelation database schema name) ?_
  rintro r w₁ ⟨rfl, hrelation⟩
  have hkeeps : KeepsSnapshots o w₁ w₁ := KeepsSnapshots.of_store rfl
  cases r with
  | error e => exact atomic_error e rfl hkeeps
  | ok relation =>
      obtain ⟨hkind, hfound⟩ := hrelation relation rfl
      obtain ⟨added, hadded⟩ : ∃ added,
          catalogConstraintsFromDefinitions [constraint] = [added] := ⟨_, rfl⟩
      rw [resume_ok, hadded, addConstraints, after_bind]
      refine After.mono ((after_previewAddConstraint database schema name added).and
        (After.outcome _ w₁)) ?_
      rintro r w₂ ⟨⟨hw₂, hpreview⟩, hr⟩
      subst hw₂
      cases r with
      | error e => exact atomic_error e rfl hkeeps
      | ok preview =>
          have hagree := hspares added (by rw [hadded]; exact List.mem_singleton_self _) preview
            (congrArg Prod.fst hr)
          obtain ⟨-, hbuild⟩ := hpreview preview rfl
          obtain ⟨_, hfound', -, -, -, rfl⟩ := buildRelationWithCatalogConstraint_eq hbuild
          rw [hfound] at hfound'
          cases hfound'
          rw [resume_ok, after_bind]
          refine After.mono (after_tableStorePrefix _) ?_
          rintro r w₃ ⟨rfl, hbase⟩
          cases r with
          | error e => exact atomic_error e rfl hkeeps
          | ok base =>
              replace hbase : relation.base? o = some base := hbase base rfl
              have hfresh : ∀ index ∈ relation.indexes, index.name
                  ∉ stagedIndexNames relation (relation.withConstraint added) := by
                intro index hindex
                rw [stagedIndexNames_withConstraint]
                split
                · rename_i hstaged
                  simpa using hstaged.2 index hindex
                · simp
              rw [resume_ok]
              dsimp only
              rw [after_bind]
              refine After.mono (after_publishIndexes added w₃) ?_
              rintro r w₄ ⟨hframe, hpublished⟩
              have hkeeps₄ := keeps_of_frame hw hfound hkind hbase hfresh hframe
              cases r with
              | error e => exact atomic_error e hframe.catalog hkeeps₄
              | ok _ =>
                  rw [resume_ok, after_bind]
                  refine After.mono (after_commitIndexes base _
                    (after_addConstraint_saved hsave database schema name added w₄)) ?_
                  rintro r w₅ (⟨⟨e, rfl⟩, hframe₅⟩
                    | ⟨⟨message, rfl⟩, relation', hstore, hfound', hrelations⟩)
                  · exact atomic_error e (hframe₅.catalog.trans hframe.catalog)
                      (keeps_of_frame hw hfound hkind hbase hfresh (hframe.trans hframe₅))
                  · rw [hframe.catalog, hfound] at hfound'
                    cases hfound'
                    rw [resume_ok, addConstraints, after_pure]
                    have hkeeps₅ := hkeeps₄.then_store hstore
                    have hcomplete := hkeeps₅.complete hw hfound
                    refine atomic_replaced hw hkeeps₅ hframe.catalog hrelations
                      (complete_withConstraint hcomplete ?_)
                    intro hbacked
                    by_cases hnew : ∀ index ∈ relation.indexes, index.name ≠ added.name
                    · obtain ⟨entries, hentries⟩ := hpublished rfl hbacked hnew
                      rw [← hstore] at hentries
                      exact ⟨base, entries, hbase, hentries⟩
                    · push Not at hnew
                      obtain ⟨index, hindex, hname⟩ := hnew
                      obtain ⟨base', entries, hbase', hentries⟩ := hcomplete index hindex
                      refine ⟨base', entries, hbase', published_congr hentries hname.symm ?_⟩
                      have hmem : ∀ i, i ∈ (relation.withConstraint added).indexes
                          ↔ i ∈ relation.indexes ∨ i = added.backingIndex := by
                        intro i
                        rw [CatalogRelation.withConstraint, if_pos hbacked]
                        simp
                      exact hagree _ ((hmem _).mpr (.inr rfl)) index ((hmem _).mpr (.inl hindex))
                        hname.symm

/-! ### What goes wrong otherwise -/

/-- The snapshots of the tables can be built from their rows. -/
def Buildable (o : Outside) (session : SessionContext) (w : World) : Prop :=
  ∀ (key : String) relation, w.catalog.relations[key]? = some relation → relation.indexes ≠ [] →
    ∃ base batches, Readable o session relation base w ∧ CommittedAs w.store base batches
      ∧ ∀ index ∈ relation.indexes, ReadyIndex relation index ∧ ¬ index.Violated batches

/-- Two indexes with the same snapshot are over the same columns. -/
theorem columns_of_published {store : ObjectStore} {index other : CatalogIndex}
    {entries entries' : List Row} (h : Published store base index entries)
    (h' : Published store base other entries') (hname : index.name = other.name) :
  index.columns = other.columns
  := by
  obtain ⟨version, -, hmanifest, -, hdata⟩ := h
  obtain ⟨version', -, hmanifest', -, hdata'⟩ := h'
  rw [← hname, hmanifest] at hmanifest'
  cases hmanifest'
  rw [← hname, hdata] at hdata'
  injection hdata' with hfile
  injection hfile with hfile
  have hschema := congrArg (fun file => file.schema.map (·.name)) hfile
  simp only [snapshotSchema, List.map_map] at hschema
  have hid : (fun field : ArrowField => field.name) ∘
      (fun column => { rowIdField with name := column }) = id := rfl
  rw [hid, List.map_id, List.map_id] at hschema
  exact List.append_cancel_right hschema

theorem published_manifest {store : ObjectStore} {index : CatalogIndex} {entries : List Row}
    (h : Published store base index entries) :
  store[indexKey base index.name ++ ["manifest.json"]]? ≠ none
  := by
  obtain ⟨version, -, hmanifest, -⟩ := h
  rw [hmanifest]
  simp

/-- Removing a snapshot takes its objects away. -/
theorem removeIndexSnapshot_succeeds (hstore : ∀ n, o.storeError n = none) (base : OPath)
    (name : String) (w : World) :
  Succeeds (removeIndexSnapshot o base name) w (fun _ w' =>
    w'.store[indexKey base name ++ ["manifest.json"]]? = none ∧ w'.catalog = w.catalog)
  := by
  refine Succeeds.mono ((deletePrefix_succeeds hstore (indexKey base name) w).with_after
    (deletePrefix_modifies o (indexKey base name) w)) ?_
  rintro _ w₁ ⟨hdeleted, hframe⟩
  exact ⟨hdeleted _ (List.prefix_append _ _) (by simp), hframe.catalog⟩

/-- Of a preview with an index renamed, the snapshot of the new name is published. -/
theorem publishIndex_renamed (h : Reliable o df) {name newName : String}
    {batches : List RecordBatch} (hreadable : Readable o session relation base w)
    (hcommitted : CommittedAs w.store base batches)
    (hready : ∀ index ∈ relation.indexes, ReadyIndex relation index ∧ ¬ index.Violated batches)
    (hnamed : ∃ index ∈ (renamedIndex relation name newName).indexes, index.name = newName) :
  Succeeds (publishIndex o df session (renamedIndex relation name newName) base newName) w
    (fun _ w' => Frame (StagedKey base [newName]) w w')
  := by
  obtain ⟨index, hindex⟩ : ∃ index, (renamedIndex relation name newName).indexes.find?
      (·.name = newName) = some index := by
    obtain ⟨index, hmem, hname⟩ := hnamed
    apply Option.isSome_iff_exists.mp
    rw [List.find?_isSome]
    exact ⟨index, hmem, by simpa using hname⟩
  obtain ⟨original, horiginal, hcolumns, hunique⟩ : ∃ original ∈ relation.indexes,
      index.columns = original.columns ∧ index.unique = original.unique := by
    obtain hmem | ⟨c, hc, -, rfl⟩ := mem_modifyFirst (List.mem_of_find?_eq_some hindex)
    · exact ⟨index, hmem, rfl, rfl⟩
    · exact ⟨c, hc, rfl, rfl⟩
  obtain ⟨hbuild, hdistinct⟩ := hready original horiginal
  have hready' : ReadyIndex relation index := by
    constructor
    · rw [hcolumns]
      exact hbuild.columns
    · rw [hcolumns]
      exact hbuild.distinct
    · rw [hcolumns]
      exact hbuild.known
  have hdistinct' : ¬ index.Violated batches := by
    rw [CatalogIndex.Violated, indexKeysOf, hcolumns, hunique]
    exact hdistinct
  have hname : index.name = newName := by simpa using List.find?_some hindex
  have hrebuild := after_rebuildIndexSnapshot h hreadable hcommitted hready'
  rw [publishIndex, hindex]
  rcases hexec : exec (rebuildIndexSnapshot o df session relation base index) w with ⟨r, w'⟩
  rw [After, hexec] at hrebuild
  obtain ⟨hviolated, -⟩ | ⟨-, hr, -, hframe⟩ := hrebuild
  · exact absurd hviolated hdistinct'
  · refine ⟨(), (congrArg Prod.fst hexec).trans hr, ?_⟩
    have hstate : (exec (rebuildIndexSnapshot o df session (renamedIndex relation name newName) base
      index) w).2 = w' := congrArg Prod.snd hexec
    dsimp only
    rw [hstate, ← hname]
    exact hframe.mono (fun _ => StagedKey.single.mpr)

/-- With nothing failing, a snapshot is published under the new name before the catalogue is asked. -/
theorem after_alterIndex_staged (h : Reliable o df) (hw : Indexed o w)
    (hbuildable : Buildable o session w) {database schema : Option String} {name newName : String}
    (hfound : (exec (indexRelation session database schema name) w).1 = .ok relation)
    (hnamed : ∃ index ∈ (renamedIndex relation name newName).indexes, index.name = newName)
    {Q : Except Failure String → World → Prop}
    (hcommit : ∀ base w₁, relation.base? o = some base → Frame (StagedKey base [newName]) w w₁ →
      After (do
        let message ← commitIndexes o base [newName]
          (renameIndex o session database schema relation.name name newName)
        let _ ← Eff.attempt (removeIndexSnapshot o base name)
        return message) w₁ Q) :
  After (executeAlterIndex o df session database schema name (.rename newName)) w Q
  := by
  rw [executeAlterIndex, after_bind]
  refine After.mono ((after_indexRelation hw database schema name).and (After.outcome _ w)) ?_
  rintro r w₁ ⟨⟨hw₁, hrelation⟩, hr⟩
  subst hw₁
  rw [hr] at hfound
  subst hfound
  obtain ⟨-, hkey, index, hindex, -⟩ := hrelation relation rfl
  obtain ⟨base, batches, hreadable, hcommitted, hready⟩ :=
    hbuildable _ relation hkey (List.ne_nil_of_mem hindex)
  have hbase : (renamedIndex relation name newName).base? o = some base := hreadable.located
  obtain ⟨location, hlocation, hstore⟩ := location_of_base hbase
  rw [resume_ok]
  dsimp only
  rw [← renamedIndex, tableStorePrefix, hlocation]
  dsimp only
  rw [hstore, orBail, pure_bind, after_bind]
  obtain ⟨_, hpublish, hframe⟩ := publishIndex_renamed h hreadable hcommitted hready hnamed
  rw [After, hpublish]
  exact hcommit base _ hreadable.located hframe

theorem exists_mem_modifyFirst {α : Type} {p : α → Bool} (f : α → α) {l : List α} {a : α}
    (ha : a ∈ l) (hp : p a = true) :
  ∃ c, f c ∈ modifyFirst p f l
  := by
  induction l with
  | nil => cases ha
  | cons b l ih =>
      rw [modifyFirst]
      split
      · exact ⟨b, List.mem_cons_self⟩
      · rename_i hb
        rcases List.mem_cons.mp ha with rfl | ha
        · exact absurd hp hb
        · obtain ⟨c, hc⟩ := ih ha
          exact ⟨c, List.mem_cons_of_mem b hc⟩

/-- Of two elements that satisfy `p` one is not changed. -/
theorem exists_kept_modifyFirst {α : Type} {p : α → Bool} (f : α → α) {l : List α}
    (htwo : 1 < l.countP p) :
  ∃ b ∈ modifyFirst p f l, p b = true
  := by
  induction l with
  | nil => cases htwo
  | cons a l ih =>
      rw [modifyFirst]
      split
      · rename_i ha
        rw [List.countP_cons_of_pos ha] at htwo
        obtain ⟨b, hb, hp⟩ := List.countP_pos_iff.mp (Nat.lt_of_succ_lt_succ htwo)
        exact ⟨b, List.mem_cons_of_mem _ hb, hp⟩
      · rename_i ha
        rw [List.countP_cons_of_neg ha] at htwo
        obtain ⟨b, hb, hp⟩ := ih htwo
        exact ⟨b, List.mem_cons_of_mem a hb, hp⟩

theorem exists_renamedIndex {name newName : String} {i : CatalogIndex} (hi : i ∈ relation.indexes)
    (hname : i.name = name) :
  ∃ index ∈ (renamedIndex relation name newName).indexes, index.name = newName
  := by
  obtain ⟨c, hc⟩ := exists_mem_modifyFirst (p := fun i : CatalogIndex => decide (i.name = name))
    (fun i : CatalogIndex => { i with name := newName }) hi (decide_eq_true hname)
  exact ⟨_, hc, rfl⟩

/-- When the new name is that of an index of the table, the statement fails and the snapshot of that
index is gone. -/
theorem after_alterIndex_taken (h : Reliable o df) (hw : Indexed o w)
    (hsave : ∀ n, o.saveError n = none)
    (hbuildable : Buildable o session w) {database schema : Option String} {name newName : String}
    (hfound : (exec (indexRelation session database schema name) w).1 = .ok relation)
    {taken : CatalogIndex} (htaken : taken ∈ relation.indexes) (hname : taken.name = newName) :
  After (executeAlterIndex o df session database schema name (.rename newName)) w (fun r w' =>
    (∃ e, r = .error e) ∧ ∀ base, relation.base? o = some base →
      w'.store[indexKey base newName ++ ["manifest.json"]]? = none)
  := by
  obtain ⟨-, hkey, old, hold, holdName⟩ := (after_indexRelation hw database schema name).2
    relation hfound
  refine after_alterIndex_staged h hw hbuildable hfound (exists_renamedIndex hold holdName) ?_
  intro base w₁ hbase hframe
  rw [commitIndexes, after_bind, after_bind, after_attempt]
  refine After.mono (after_renameIndex_saved hsave database schema relation.name name newName w₁) ?_
  rintro r w₂ (⟨rfl, e, rfl⟩ | ⟨-, -, relation', ⟨-, hfound', -⟩, hnew⟩)
  · rw [resume_ok, removeIndexSnapshots, removeIndexSnapshots, after_bind, after_bind,
      after_attempt]
    obtain ⟨_, hremove, hgone, -⟩ := removeIndexSnapshot_succeeds h.store base newName w₂
    rw [After, hremove]
    refine ⟨⟨e, rfl⟩, ?_⟩
    intro base' hbase'
    rw [hbase] at hbase'
    cases hbase'
    exact hgone
  · rw [hframe.catalog, hkey] at hfound'
    cases hfound'
    exact absurd hname (hnew taken htaken)

/-- When two indexes of the table have the old name, the one that keeps it has no snapshot. -/
theorem after_alterIndex_shared (h : Reliable o df) (hw : Indexed o w)
    (hsave : ∀ n, o.saveError n = none)
    (hbuildable : Buildable o session w) {database schema : Option String} {name newName : String}
    (hfound : (exec (indexRelation session database schema name) w).1 = .ok relation)
    (hvalid : validateIdentifier newName = .ok ())
    (hnew : ∀ index ∈ relation.indexes, index.name ≠ newName) :
  After (executeAlterIndex o df session database schema name (.rename newName)) w (fun r w' =>
    (∃ message, r = .ok message)
      ∧ w'.catalog.relations[relationKey (database.getD session.database)
        (schema.getD session.schema) relation.name]? = some (renamedIndex relation name newName)
      ∧ ∀ base, relation.base? o = some base →
        w'.store[indexKey base name ++ ["manifest.json"]]? = none)
  := by
  obtain ⟨hsession, hkey, old, hold, holdName⟩ :=
    (after_indexRelation hw database schema name).2 relation hfound
  refine after_alterIndex_staged h hw hbuildable hfound (exists_renamedIndex hold holdName) ?_
  intro base w₁ hbase hframe
  rw [commitIndexes, after_bind, after_bind, after_attempt, renameIndex, hvalid, orBail, pure_bind]
  rw [← hframe.catalog] at hsession hkey
  have hedit : (do
      if relation.indexes.any (·.name = newName) then
        throw s!"Index '{newName}' already exists"
      if !relation.indexes.any (·.name = name) then
        throw s!"Index '{name}' not found"
      return renamedIndex relation name newName : Except String CatalogRelation)
        = .ok (renamedIndex relation name newName) := by
    simp only [ite_throw_bind_eq_ok]
    refine ⟨by simpa using hnew, ?_, rfl⟩
    simpa using ⟨old, hold, holdName⟩
  refine After.mono (after_editRelation_accepts hsave hsession hkey hedit) ?_
  rintro r w₂ ⟨rfl, -, -, hrelations⟩
  rw [resume_ok, after_pure, resume_ok, after_bind, after_attempt]
  obtain ⟨_, hremove, hgone, hcatalog⟩ := removeIndexSnapshot_succeeds h.store base name w₂
  rw [After, hremove]
  refine ⟨⟨_, rfl⟩, ?_, ?_⟩
  · rw [exec_pure]
    rw [hcatalog, hrelations, KeyMap.get_insert, if_pos rfl]
  · intro base' hbase'
    rw [hbase] at hbase'
    cases hbase'
    exact hgone

/-- A rename that keeps the indexes and their snapshots takes a new name, and the old one was that
of one index only. -/
theorem renameSpares_of_atomic (h : Reliable o df) (hw : Indexed o w)
    (hsave : ∀ n, o.saveError n = none) (hbuildable : Buildable o session w)
    {database schema : Option String} {name newName : String}
    (hatomic : After (executeAlterIndex o df session database schema name (.rename newName)) w
      (Atomic o w)) :
  RenameSpares session w database schema name newName
  := by
  intro relation hfound
  obtain ⟨-, hkey, -⟩ := (after_indexRelation hw database schema name).2 relation hfound
  have hnew : ∀ index ∈ relation.indexes, index.name ≠ newName := by
    intro taken htaken hname
    obtain ⟨⟨e, hr⟩, hgone⟩ :=
      after_alterIndex_taken h hw hsave hbuildable hfound htaken hname
    obtain ⟨base, entries, hbase, hpublished⟩ := hw.complete _ relation hkey taken htaken
    rw [After, hr] at hatomic
    have hkept := hatomic.2 _ relation base hkey hbase taken htaken entries hpublished
    apply published_manifest hkept
    rw [hname]
    exact hgone base hbase
  refine ⟨hnew, ?_⟩
  intro hvalid
  by_contra hshared
  obtain ⟨⟨message, hr⟩, hrelation, hgone⟩ :=
    after_alterIndex_shared h hw hsave hbuildable hfound hvalid hnew
  rw [After, hr] at hatomic
  obtain ⟨i, hi, hname⟩ : ∃ i ∈ (renamedIndex relation name newName).indexes, i.name = name := by
    obtain ⟨i, hi, hname⟩ := exists_kept_modifyFirst
      (fun i : CatalogIndex => { i with name := newName }) (Nat.not_le.mp hshared)
    exact ⟨i, hi, by simpa using hname⟩
  obtain ⟨base, entries, hbase, hpublished⟩ := hatomic _ _ hrelation i hi
  apply published_manifest hpublished
  rw [hname]
  exact hgone base hbase

theorem after_addConstraint_accepts (hsave : ∀ n, o.saveError n = none)
    {database schema : Option String} {tableName : String} {constraint : CatalogTableConstraint}
    {preview : CatalogRelation} (hsession : validateSession w.catalog session = .ok ())
    (hbuild : buildRelationWithCatalogConstraint w.catalog (database.getD session.database)
      (schema.getD session.schema) tableName constraint = .ok preview) :
  After (addConstraint o session database schema tableName constraint) w (fun r w' =>
    (∃ message, r = .ok message) ∧ w'.catalog.relations = w.catalog.relations.insert
      (relationKey (database.getD session.database) (schema.getD session.schema) tableName) preview)
  := by
  rw [addConstraint, after_bind, after_readState, resume_ok, hsession, orBail, pure_bind, hbuild,
    orBail, pure_bind]
  refine After.mono (after_edit_saved hsave (fun state => { state with
    relations := state.relations.insert (relationKey (database.getD session.database)
      (schema.getD session.schema) tableName) preview }) _ w) ?_
  rintro r w' ⟨hr, -, hcatalog⟩
  refine ⟨⟨_, hr⟩, ?_⟩
  rw [hcatalog]
  rfl

variable (df) in
/-- An index of the name of the constraint is there: nothing is staged, and the catalogue takes the
constraint. -/
theorem after_executeAddConstraint_taken (hsave : ∀ n, o.saveError n = none)
    {database schema : Option String} {name : String} {constraint : TableConstraintDefinition}
    {added : CatalogTableConstraint}
    (hadded : catalogConstraintsFromDefinitions [constraint] = [added])
    (hsession : validateSession w.catalog session = .ok ())
    (hbuild : buildRelationWithCatalogConstraint w.catalog (database.getD session.database)
      (schema.getD session.schema) name added = .ok (relation.withConstraint added))
    (hfound : w.catalog.relations[relationKey (database.getD session.database)
      (schema.getD session.schema) name]? = some relation) (hkind : relation.kind = .table)
    (hbase : relation.base? o = some base)
    (htaken : stagedIndexNames relation (relation.withConstraint added) = []) :
  After (executeAddConstraint o df session database schema name constraint) w (fun r w' =>
    (∃ message, r = .ok message)
      ∧ w'.catalog.relations[relationKey (database.getD session.database)
        (schema.getD session.schema) name]? = some (relation.withConstraint added))
  := by
  obtain ⟨location, hlocation, hstore⟩ :=
    location_of_base (show (relation.withConstraint added).base? o = some base from hbase)
  have htable : After (tableRelation session database schema name) w (fun r w' =>
      r = .ok relation ∧ w' = w) := by
    rw [tableRelation, findRelation, after_bind, after_bind, after_readState, resume_ok, hsession,
      orBail, pure_bind]
    dsimp only
    rw [hfound]
    dsimp only
    rw [after_pure, resume_ok, after_ite]
    exact ⟨fun hne => absurd hkind hne, fun _ => ⟨rfl, rfl⟩⟩
  have hpreview : After (previewAddConstraint session database schema name added) w (fun r w' =>
      r = .ok (relation.withConstraint added) ∧ w' = w) := by
    rw [previewAddConstraint, after_bind, after_readState, resume_ok, hsession, orBail, pure_bind,
      hbuild]
    exact ⟨rfl, rfl⟩
  rw [executeAddConstraint, after_bind]
  refine After.mono htable ?_
  rintro _ w₀ ⟨rfl, rfl⟩
  rw [resume_ok, hadded, addConstraints, after_bind]
  refine After.mono hpreview ?_
  rintro _ w₀ ⟨rfl, rfl⟩
  rw [resume_ok, tableStorePrefix, hlocation]
  dsimp only
  rw [hstore, orBail, pure_bind, htaken, publishIndexes, pure_bind, commitIndexes, after_bind,
    after_bind, after_attempt]
  refine After.mono (after_addConstraint_accepts hsave hsession hbuild) ?_
  rintro r w₁ ⟨⟨message, rfl⟩, hrelations⟩
  rw [resume_ok, after_pure, resume_ok, addConstraints, after_pure]
  refine ⟨⟨_, rfl⟩, ?_⟩
  rw [hrelations, KeyMap.get_insert, if_pos rfl]

/-- The indexes of a name of a complete relation are over the same columns. -/
theorem Complete.agreeing {store : ObjectStore} (h : Complete o store relation) :
  Agreeing relation.indexes
  := by
  intro index hindex other hother hname
  obtain ⟨base, entries, hbase, hpublished⟩ := h index hindex
  obtain ⟨base', entries', hbase', hpublished'⟩ := h other hother
  rw [hbase] at hbase'
  cases hbase'
  exact columns_of_published hpublished hpublished' hname

theorem Agreeing.append {indexes : List CatalogIndex} {index : CatalogIndex} (h : Agreeing indexes)
    (hnew : ∀ other ∈ indexes, other.name ≠ index.name) :
  Agreeing (indexes ++ [index])
  := by
  intro i hi j hj hname
  simp only [List.mem_append, List.mem_singleton] at hi hj
  obtain hi | rfl := hi
  · obtain hj | rfl := hj
    · exact h i hi j hj hname
    · exact absurd hname (hnew i hi)
  · obtain hj | rfl := hj
    · exact absurd hname.symm (hnew j hj)
    · rfl

/-- A constraint that leaves a snapshot of every index agrees with the indexes of its name. -/
theorem addSpares_of_atomic (hw : Indexed o w) (hsave : ∀ n, o.saveError n = none)
    {database schema : Option String} {name : String} {constraint : TableConstraintDefinition}
    (hatomic : After (executeAddConstraint o df session database schema name constraint) w
      (Atomic o w)) :
  AddSpares session w database schema name constraint
  := by
  intro added hadded preview hpreview
  obtain ⟨hsession, hbuild⟩ :=
    (after_previewAddConstraint database schema name added).2 preview hpreview
  obtain ⟨relation, hfound, hkind, -, -, rfl⟩ := buildRelationWithCatalogConstraint_eq hbuild
  have hagree := (hw.complete _ relation hfound).agreeing
  obtain ⟨only, honly⟩ : ∃ only, catalogConstraintsFromDefinitions [constraint] = [only] :=
    ⟨_, rfl⟩
  rw [honly] at hadded
  obtain rfl := List.mem_singleton.mp hadded
  by_contra hdisagree
  cases hbacked : added.kind.isBacked with
  | false =>
      rw [CatalogRelation.withConstraint, hbacked] at hdisagree
      exact hdisagree hagree
  | true =>
      by_cases hnew : ∀ index ∈ relation.indexes, index.name ≠ added.name
      · rw [CatalogRelation.withConstraint, hbacked] at hdisagree
        exact hdisagree (hagree.append hnew)
      · have htaken : stagedIndexNames relation (relation.withConstraint added) = [] := by
          rw [stagedIndexNames_withConstraint, if_neg (fun h => hnew h.2)]
        push Not at hnew
        obtain ⟨index, hindex, -⟩ := hnew
        obtain ⟨base, -, hbase, -⟩ := hw.complete _ relation hfound index hindex
        obtain ⟨⟨message, hr⟩, hrelation⟩ := after_executeAddConstraint_taken df hsave honly
          hsession hbuild hfound hkind hbase htaken
        rw [After, hr] at hatomic
        exact hdisagree (Complete.agreeing (hatomic _ _ hrelation))

/-! ### Every statement -/

/-- A statement gives an index a name that no other index of the table has. -/
def Spares (session : SessionContext) (w : World) : IndexStatement → Prop
  | .createIndex .. => True
  | .alterIndex database schema name operation =>
    ∀ newName, operation = .rename newName → RenameSpares session w database schema name newName
  | .addConstraint database schema name constraint =>
    AddSpares session w database schema name constraint

/-- Whatever fails of a store or of a query, a statement that gives an index a name of its own fails
without a trace or leaves a snapshot of every index, as long as the catalogue is saved.  A statement
that does not, does neither when nothing fails. -/
theorem executeIndexStatement_atomic_iff (o : Outside) (df : DataFusion) (session : SessionContext)
    (hw : Indexed o w) (hsave : ∀ n, o.saveError n = none) (statement : IndexStatement) :
  (Spares session w statement →
      After (executeIndexStatement o df session statement) w (Atomic o w))
    ∧ (Reliable o df → Buildable o session w →
      (After (executeIndexStatement o df session statement) w (Atomic o w)
        ↔ Spares session w statement))
  := by
  have hatomic : Spares session w statement →
      After (executeIndexStatement o df session statement) w (Atomic o w) := by
    intro hspares
    cases statement with
    | createIndex database schema table name columns unique =>
        exact atomic_createIndex hw hsave database schema table name columns unique
    | alterIndex database schema name operation =>
        cases operation with
        | rename newName =>
            exact atomic_alterIndex hw hsave database schema name newName (hspares newName rfl)
        | ownerTo _ | setSchema _ =>
            rw [executeIndexStatement, executeAlterIndex, after_bind]
            · refine After.mono (after_indexRelation hw database schema name) ?_
              rintro r w₁ ⟨rfl, -⟩
              cases r with
              | error e => exact atomic_error e rfl (KeepsSnapshots.of_store rfl)
              | ok _ =>
                  exact atomic_error (.error "Unsupported index operation") rfl
                    (KeepsSnapshots.of_store rfl)
            · rintro _ ⟨⟩
    | addConstraint database schema name constraint =>
        exact atomic_addConstraint hw hsave database schema name constraint hspares
  refine ⟨hatomic, fun hreliable hbuildable => ⟨fun h => ?_, hatomic⟩⟩
  cases statement with
  | createIndex => trivial
  | alterIndex database schema name operation =>
      rintro newName rfl
      exact renameSpares_of_atomic hreliable hw hsave hbuildable h
  | addConstraint database schema name constraint => exact addSpares_of_atomic hw hsave h

end

theorem keyedWorld_relations {key : String} {relation : CatalogRelation}
    (h : keyedWorld.catalog.relations[key]? = some relation) :
  key = "postgres.public.t" ∧ relation = keyedTable
  := by
  have hrelations : keyedWorld.catalog.relations
      = (∅ : KeyMap CatalogRelation).insert "postgres.public.t" keyedTable := rfl
  rw [hrelations, KeyMap.get_insert] at h
  split at h
  · rename_i hkey
    cases h
    exact ⟨hkey.symm, rfl⟩
  · simp at h

theorem keyedWorld_indexed :
  Indexed Outside.faultless keyedWorld
  := by
  constructor
  · constructor
    · exact (initialState_namespaced ∅).databases_ok
    · intro key relation hfound
      obtain ⟨rfl, rfl⟩ := keyedWorld_relations hfound
      exact ⟨by decide, ⟨postgresDatabase, rfl, by decide⟩,
        by decide⟩
  · intro key relation hfound index hindex
    obtain ⟨rfl, rfl⟩ := keyedWorld_relations hfound
    obtain rfl := List.mem_singleton.mp hindex
    exact ⟨["file://", "m", "t"], indexEntriesOf keyIndex [keyedBatch], by decide,
      "v", "v", by decide, by decide, by decide⟩
  · intro key relation hfound _
    obtain ⟨rfl, rfl⟩ := keyedWorld_relations hfound
    rfl
  · intro key other relation relation' base base' hne hfound hfound'
    obtain ⟨rfl, -⟩ := keyedWorld_relations hfound
    obtain ⟨rfl, -⟩ := keyedWorld_relations hfound'
    exact absurd rfl hne

/-- The index of a primary key gets another name. -/
theorem renamedKey_atomic :
  After (executeIndexStatement Outside.faultless sampleDataFusion {}
    (.alterIndex none none "t_pkey" (.rename "t_k"))) keyedWorld (Atomic Outside.faultless keyedWorld)
  := by
  refine ((executeIndexStatement_atomic_iff Outside.faultless sampleDataFusion {} keyedWorld_indexed
    (fun _ => rfl) _).2 (reliable_faultless _) ?_).mpr ?_
  · intro key relation hfound _
    obtain ⟨rfl, rfl⟩ := keyedWorld_relations hfound
    have hsetting := keyedSetting []
    refine ⟨["file://", "m", "t"], [keyedBatch], hsetting.readable, ?_, ?_⟩
    · obtain ⟨⟨m, hm, hfiles⟩, hstored, -⟩ := hsetting.listing
      rw [← hfiles] at hstored
      exact ⟨m, hm, hstored⟩
    · intro index hindex
      refine ⟨hsetting.ready index hindex, fun hviolated => hviolated.2 ?_⟩
      exact (hsetting.distinct index hindex hviolated.1).1
  · rintro newName ⟨⟩ relation hfound
    have hkeyed : (exec (indexRelation {} none none "t_pkey") keyedWorld).1 = .ok keyedTable := rfl
    rw [hkeyed] at hfound
    cases hfound
    exact ⟨by decide, fun _ => by decide⟩

/-- The index of a primary key gets the name it has. -/
theorem sameKey_not_atomic :
  ¬ After (executeIndexStatement Outside.faultless sampleDataFusion {}
    (.alterIndex none none "t_pkey" (.rename "t_pkey"))) keyedWorld
    (Atomic Outside.faultless keyedWorld)
  := by
  intro h
  have hreturns : ((exec (executeIndexStatement Outside.faultless sampleDataFusion {}
    (.alterIndex none none "t_pkey" (.rename "t_pkey"))) keyedWorld).1).isOk = false := by
    decide
  have hgone : (exec (executeIndexStatement Outside.faultless sampleDataFusion {}
    (.alterIndex none none "t_pkey" (.rename "t_pkey"))) keyedWorld).2.store[
      indexKey ["file://", "m", "t"] "t_pkey" ++ ["manifest.json"]]? = none := by
    decide +kernel
  rw [After] at h
  rcases hexec : exec (executeIndexStatement Outside.faultless sampleDataFusion {}
    (.alterIndex none none "t_pkey" (.rename "t_pkey"))) keyedWorld with ⟨r, w'⟩
  rw [hexec] at h hreturns hgone
  cases r with
  | ok message => cases hreturns
  | error e =>
      refine published_manifest (h.2 "postgres.public.t" keyedTable ["file://", "m", "t"]
        (by decide +kernel) (by decide +kernel) keyIndex (List.mem_singleton_self _)
        (indexEntriesOf keyIndex [keyedBatch]) ?_) hgone
      exact ⟨"v", "v", by decide +kernel, by decide +kernel, by decide +kernel⟩

end IndexDdl
