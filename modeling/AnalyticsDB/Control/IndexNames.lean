import AnalyticsDB.Control.Namespace
import AnalyticsDB.Control.TableEdits

/-!
# The names of indexes

Indexes are found by name in a schema.  Some operations look for a new name in the whole schema,
some in the table alone, one everywhere but in the table, and the registration of a table not at
all.  What is proved is which operations keep the names of the indexes of a schema different.
-/

namespace CatalogState

variable (state : CatalogState)

/-- The indexes of a relation have different names, and so have those of different relations of a
schema. -/
structure IndexNamesUnique : Prop where
  own : ∀ (key : String) (relation : CatalogRelation), state.relations[key]? = some relation →
    (relation.indexes.map (·.name)).Nodup
  apart : ∀ (key other : String) (relation relation' : CatalogRelation),
    state.relations[key]? = some relation → state.relations[other]? = some relation' →
    key ≠ other → relation.database = relation'.database → relation.schema = relation'.schema →
    ∀ index ∈ relation.indexes, relation'.hasIndex index.name = false

end CatalogState

/-- An operation gives an index only a name that no index of the schema has, as far as it does not
look for it. -/
def ControlOp.keepsNames (session : SessionContext) (state : CatalogState) : ControlOp → Bool
  | registerManagedTable database schema tableName _ _ constraints =>
    let names := (indexesFromConstraints tableName constraints).map (·.name)
    decide names.Nodup && names.all (fun name => !schemaContainsIndexName state
      (database.getD session.database) (schema.getD session.schema) name none)
  | addConstraint database schema tableName constraint =>
    match state.relations[objectKey session database schema tableName]? with
    | none => true
    | some relation => !(constraint.kind.isBacked && relation.hasIndex constraint.name)
  | renameIndex database schema tableName _ newName =>
    !schemaContainsIndexName state (database.getD session.database) (schema.getD session.schema)
      newName (some (objectKey session database schema tableName))
  | _ => true

/-- An operation as the engine performs it: before it creates an index it has it previewed, and
builds it. -/
def performPreviewed (o : Outside) (session : SessionContext) : ControlOp → Op String
  | .createIndex database schema table name columns unique => do
    let _ ← previewCreateIndex session database schema table name columns unique
    createIndex o session database schema table name columns unique
  | op => performOp o session op

/-- The operations that add a view or an external table. -/
def ControlOp.addsRelation : ControlOp → Bool
  | registerView .. | registerExternalTable .. => true
  | _ => false

/-! ### Finding a name in a schema -/

theorem schemaContainsIndexName_eq_false {state : CatalogState}
    {databaseName schemaName name : String} {skip : Option String} :
  schemaContainsIndexName state databaseName schemaName name skip = false
    ↔ ∀ (key : String) (relation : CatalogRelation), state.relations[key]? = some relation →
      skip ≠ some key → relation.database = databaseName → relation.schema = schemaName →
      relation.hasIndex name = false
  := by
  simp only [schemaContainsIndexName, List.any_eq_false, Prod.forall,
    Std.ExtTreeMap.mem_toList_iff_getElem?_eq_some, CatalogRelation.hasIndex]
  constructor
  · intro h key relation hrelation hskip hdatabase hschema
    simpa [hskip, hdatabase, hschema] using h key relation hrelation
  · intro h key relation hrelation
    have hnone := h key relation hrelation
    simp only [Bool.and_eq_true, decide_eq_true_iff, not_and, Bool.not_eq_true]
    rintro ⟨⟨hskip, hdatabase⟩, hschema⟩
    exact List.any_eq_false.mpr (hnone hskip hdatabase hschema)

/-! ### The operations keep the names apart -/

namespace CatalogState.IndexNamesUnique

variable {state : CatalogState}

theorem bump (h : state.IndexNamesUnique) :
  state.bump.IndexNamesUnique
  := ⟨h.own, h.apart⟩

/-- A relation whose indexes have different names, which no other relation of its schema has, takes
the place of another. -/
theorem insert (h : state.IndexNamesUnique) {key : String} {edited : CatalogRelation}
    (hown : (edited.indexes.map (·.name)).Nodup)
    (hothers : ∀ (other : String) (relation' : CatalogRelation),
      state.relations[other]? = some relation' → key ≠ other →
      edited.database = relation'.database → edited.schema = relation'.schema →
      ∀ index ∈ edited.indexes, relation'.hasIndex index.name = false) :
  IndexNamesUnique { state with relations := state.relations.insert key edited }
  := by
  constructor
  · intro other relation hrelation
    rw [KeyMap.get_insert] at hrelation
    split at hrelation
    · cases hrelation
      exact hown
    · exact h.own other relation hrelation
  · intro first second relation relation' hrelation hrelation' hne hdatabase hschema
    rw [KeyMap.get_insert] at hrelation hrelation'
    split at hrelation
    · rename_i hfirst
      cases hrelation
      rw [if_neg (by rw [hfirst]; exact hne)] at hrelation'
      exact hothers second relation' hrelation' (by rw [hfirst]; exact hne) hdatabase hschema
    · split at hrelation'
      · rename_i hfirst hsecond
        cases hrelation'
        intro index hindex
        rw [CatalogRelation.hasIndex_eq_false]
        intro other hother heq
        have hnone := hothers first relation hrelation hfirst hdatabase.symm hschema.symm other
          hother
        exact CatalogRelation.hasIndex_eq_false.mp hnone index hindex heq.symm
      · exact h.apart first second relation relation' hrelation hrelation' hne hdatabase hschema

/-- A relation is edited so that every name of an index was there, or is new in the schema. -/
theorem replace (h : state.IndexNamesUnique) {key : String} {relation edited : CatalogRelation}
    (hold : state.relations[key]? = some relation) (hsame : relation.SameName edited)
    (hown : (edited.indexes.map (·.name)).Nodup)
    (hnames : ∀ index ∈ edited.indexes, relation.hasIndex index.name = true
      ∨ ∀ (other : String) (relation' : CatalogRelation),
        state.relations[other]? = some relation' → key ≠ other →
        relation.database = relation'.database → relation.schema = relation'.schema →
        relation'.hasIndex index.name = false) :
  IndexNamesUnique { state with relations := state.relations.insert key edited }
  := by
  apply h.insert hown
  intro other relation' hrelation' hne hdatabase hschema index hindex
  rw [hsame.database] at hdatabase
  rw [hsame.schema] at hschema
  rcases hnames index hindex with hmem | hnew
  · obtain ⟨old, hold', heq⟩ := List.any_eq_true.mp hmem
    rw [decide_eq_true_iff] at heq
    rw [← heq]
    exact h.apart key other relation relation' hold hrelation' hne hdatabase hschema old hold'
  · exact hnew other relation' hrelation' hne hdatabase hschema

/-- No index is added to a relation, and none gets another name. -/
theorem replace_fewer (h : state.IndexNamesUnique) {key : String}
    {relation edited : CatalogRelation} (hold : state.relations[key]? = some relation)
    (hsame : relation.SameName edited) (hindexes : edited.indexes.Sublist relation.indexes) :
  IndexNamesUnique { state with relations := state.relations.insert key edited }
  := by
  apply h.replace hold hsame
  · exact (hindexes.map _).nodup (h.own key relation hold)
  · intro index hindex
    left
    exact List.any_eq_true.mpr ⟨index, hindexes.subset hindex, by simp⟩

/-- Some relations are left, under their keys, with their indexes. -/
theorem of_fewer (h : state.IndexNamesUnique) {state' : CatalogState}
    (hrelations : ∀ (key : String) (relation : CatalogRelation),
      state'.relations[key]? = some relation → ∃ old : CatalogRelation,
        state.relations[key]? = some old ∧ old.SameName relation
          ∧ relation.indexes = old.indexes) :
  state'.IndexNamesUnique
  := by
  constructor
  · intro key relation hrelation
    obtain ⟨old, hold, -, hindexes⟩ := hrelations key relation hrelation
    rw [hindexes]
    exact h.own key old hold
  · intro key other relation relation' hrelation hrelation' hne hdatabase hschema index hindex
    obtain ⟨old, hold, hsame, hindexes⟩ := hrelations key relation hrelation
    obtain ⟨old', hold', hsame', hindexes'⟩ := hrelations other relation' hrelation'
    rw [hindexes] at hindex
    rw [hsame.database, hsame'.database] at hdatabase
    rw [hsame.schema, hsame'.schema] at hschema
    rw [CatalogRelation.hasIndex, hindexes']
    exact h.apart key other old old' hold hold' hne hdatabase hschema index hindex

/-- The relations are the same. -/
theorem of_relations (h : state.IndexNamesUnique) {state' : CatalogState}
    (hrelations : state'.relations = state.relations) :
  state'.IndexNamesUnique
  := by
  apply h.of_fewer
  intro key relation hrelation
  rw [hrelations] at hrelation
  exact ⟨relation, hrelation, ⟨rfl, rfl, rfl⟩, rfl⟩

/-- A relation is removed. -/
theorem of_erase (h : state.IndexNamesUnique) (key : String) :
  IndexNamesUnique { state with relations := state.relations.erase key }
  := by
  apply h.of_fewer
  intro other relation hrelation
  rw [KeyMap.get_erase] at hrelation
  split at hrelation
  · cases hrelation
  · exact ⟨relation, hrelation, ⟨rfl, rfl, rfl⟩, rfl⟩

/-- Relations whose keys start with `start` are moved, those of one schema to one schema, where no
others are. -/
theorem move (h : state.IndexNamesUnique) {state' : CatalogState} {start : String}
    {f : CatalogRelation → CatalogRelation} {newKey : CatalogRelation → String}
    (hrelations : state'.relations = moveRelations start f newKey state.relations)
    (hnewKey : ∀ (key : String) (r : CatalogRelation), state.relations[key]? = some r →
      startsWith key start = true → startsWith (newKey (f r)) start = false)
    (hindexes : ∀ r, (f r).indexes = r.indexes)
    (htogether : ∀ (key key' : String) (r r' : CatalogRelation), state.relations[key]? = some r →
      state.relations[key']? = some r' → startsWith key start = true →
      startsWith key' start = true → (f r).database = (f r').database →
      (f r).schema = (f r').schema → r.database = r'.database ∧ r.schema = r'.schema)
    (halone : ∀ (key key' : String) (r r' : CatalogRelation), state.relations[key]? = some r →
      state.relations[key']? = some r' → startsWith key start = true →
      (f r).database = r'.database → (f r).schema = r'.schema → False) :
  state'.IndexNamesUnique
  := by
  have hentry : ∀ (key : String) (r : CatalogRelation), state'.relations[key]? = some r → _ :=
    fun key r hr => moveRelations_entry hnewKey (hrelations ▸ hr)
  constructor
  · intro key relation hrelation
    obtain ⟨hkept, -⟩ | ⟨key₀, r₀, h₀, -, -, rfl⟩ := hentry key relation hrelation
    · exact h.own key relation hkept
    · rw [hindexes]
      exact h.own key₀ r₀ h₀
  · intro key other relation relation' hrelation hrelation' hne hdatabase hschema
    obtain ⟨hkept, -⟩ | ⟨key₀, r₀, h₀, hstarts₀, rfl, rfl⟩ := hentry key relation hrelation
    · obtain ⟨hkept', -⟩ | ⟨key₁, r₁, h₁, hstarts₁, -, rfl⟩ := hentry other relation' hrelation'
      · exact h.apart key other relation relation' hkept hkept' hne hdatabase hschema
      · exact (halone key₁ key r₁ relation h₁ hkept hstarts₁ hdatabase.symm hschema.symm).elim
    · obtain ⟨hkept', -⟩ | ⟨key₁, r₁, h₁, hstarts₁, rfl, rfl⟩ := hentry other relation' hrelation'
      · exact (halone key₀ other r₀ relation' h₀ hkept' hstarts₀ hdatabase hschema).elim
      · obtain ⟨hdatabase', hschema'⟩ := htogether key₀ key₁ r₀ r₁ h₀ h₁ hstarts₀ hstarts₁
          hdatabase hschema
        have hne' : key₀ ≠ key₁ := by
          rintro rfl
          rw [h₀] at h₁
          cases h₁
          exact hne rfl
        intro index hindex
        rw [hindexes] at hindex
        rw [CatalogRelation.hasIndex_eq_false, hindexes, ← CatalogRelation.hasIndex_eq_false]
        exact h.apart key₀ key₁ r₀ r₁ h₀ h₁ hne' hdatabase' hschema' index hindex

end CatalogState.IndexNamesUnique

/-! ### Each operation -/

section

variable {state state' : CatalogState} {session : SessionContext}

/-- The databases and schemas of a catalogue that is namespaced move with the names of their
indexes. -/
theorem RenamesDatabase.indexNamesUnique {name newName : String} (hns : state.Namespaced)
    (h : state.IndexNamesUnique) (hrenames : RenamesDatabase state name newName state') :
  state'.IndexNamesUnique
  := by
  obtain ⟨database, hname, hnewName, hold, hnew, rfl⟩ := hrenames
  have hplain := plain_of_validateIdentifier hname
  have hnewPlain := plain_of_validateIdentifier hnewName
  have hmoved : ∀ (key : String) (r : CatalogRelation), state.relations[key]? = some r →
      startsWith key (databaseStart name) = true → name = r.database := by
    intro key r hr hstarts
    rw [(hns.relations_ok key r hr).key_eq] at hstarts
    exact (startsWith_databaseStart _ _ (hns.plain_of_relation hr).1 hplain).mp hstarts
  apply h.move rfl
  · intro key r hr hstarts
    apply Bool.eq_false_iff.mpr
    intro hstarts'
    have heq := (startsWith_databaseStart _ _ hnewPlain hplain).mp hstarts'
    rw [Std.ExtTreeMap.contains_eq_isSome_getElem?, ← heq, hold] at hnew
    cases hnew
  · intro r
    rfl
  · intro key key' r r' hr hr' hstarts hstarts' _ hschema
    exact ⟨(hmoved key r hr hstarts).symm.trans (hmoved key' r' hr' hstarts'), hschema⟩
  · intro key key' r r' hr hr' hstarts hdatabase _
    obtain ⟨d, hd, -⟩ := (hns.relations_ok key' r' hr').schema_exists
    rw [← hdatabase] at hd
    rw [Std.ExtTreeMap.contains_eq_isSome_getElem?, hd] at hnew
    cases hnew

theorem ControlOp.Effect.indexNamesUnique_renameSchema {database : Option String}
    {name newName : String} (hns : state.Namespaced) (h : state.IndexNamesUnique)
    (heffect : ControlOp.Effect session state (.renameSchema database name newName) state') :
  state'.IndexNamesUnique
  := by
  obtain ⟨entry, hnewName, hentry, hold, hnew, rfl⟩ := heffect
  have hok := hns.databases_ok _ entry hentry
  have hplain := hok.schema_plain name hold
  have hnewPlain := plain_of_validateIdentifier hnewName
  have hne : name ≠ newName := by
    rintro rfl
    rw [hold] at hnew
    cases hnew
  have hmoved : ∀ (key : String) (r : CatalogRelation), state.relations[key]? = some r →
      startsWith key (schemaStart (database.getD session.database) name) = true →
      database.getD session.database = r.database ∧ name = r.schema := by
    intro key r hr hstarts
    obtain ⟨hd, hs, -⟩ := hns.plain_of_relation hr
    rw [(hns.relations_ok key r hr).key_eq] at hstarts
    exact (startsWith_schemaStart _ hd hs hok.plain hplain).mp hstarts
  apply h.move rfl
  · intro key r hr hstarts
    apply Bool.eq_false_iff.mpr
    intro hstarts'
    exact hne ((startsWith_schemaStart r.name hok.plain hnewPlain hok.plain hplain).mp hstarts').2
  · intro r
    rfl
  · intro key key' r r' hr hr' hstarts hstarts' hdatabase _
    obtain ⟨-, hschema⟩ := hmoved key r hr hstarts
    obtain ⟨-, hschema'⟩ := hmoved key' r' hr' hstarts'
    exact ⟨hdatabase, hschema.symm.trans hschema'⟩
  · intro key key' r r' hr hr' hstarts hdatabase hschema
    -- the schema of the new name does not exist, so no relation is in it
    obtain ⟨hold', -⟩ := hmoved key r hr hstarts
    obtain ⟨d, hd, hcontains⟩ := (hns.relations_ok key' r' hr').schema_exists
    dsimp only at hdatabase hschema
    rw [← hdatabase, ← hold', hentry] at hd
    cases hd
    rw [← hschema, hnew] at hcontains
    cases hcontains

/-- Relations are removed. -/
theorem CatalogState.IndexNamesUnique.of_removeRelations (h : state.IndexNamesUnique)
    {start : String}
    (hrelations : state'.relations = removeRelations start state.relations) :
  state'.IndexNamesUnique
  := by
  apply h.of_fewer
  intro key relation hrelation
  rw [hrelations, removeRelations, Std.ExtTreeMap.getElem?_filter', Option.filter_eq_some_iff]
    at hrelation
  exact ⟨relation, hrelation.1, ⟨rfl, rfl, rfl⟩, rfl⟩

/-- A relation without indexes is added. -/
theorem CatalogState.IndexNamesUnique.addRelation (h : state.IndexNamesUnique) (key : String)
    {relation : CatalogRelation} (hindexes : relation.indexes = []) :
  CatalogState.IndexNamesUnique { state with relations := state.relations.insert key relation }
  := by
  apply h.insert
  · rw [hindexes]
    exact List.nodup_nil
  · rw [hindexes]
    intro _ _ _ _ _ _ index hindex
    cases hindex

/-- Of a namespaced catalogue, the relation of a key has the database and schema of the key. -/
theorem CatalogState.Namespaced.inSchema (hns : state.Namespaced)
    {database schema : Option String} {name : String} {relation : CatalogRelation}
    (hold : state.relations[objectKey session database schema name]? = some relation) :
  relation.database = database.getD session.database ∧ relation.schema = schema.getD session.schema
  := by
  obtain ⟨hd, hs, hn⟩ := hns.plain_of_relation hold
  have hkey := (hns.relations_ok _ relation hold).key_eq
  obtain ⟨hdatabase, hschema, -⟩ := relationKey_inj hd hs hn hkey
  exact ⟨hdatabase.symm, hschema.symm⟩

/-- A name that no index of the schema has is new for a relation of it. -/
theorem CatalogState.Namespaced.newName (hns : state.Namespaced) {database schema : Option String}
    {tableName name : String} {relation : CatalogRelation}
    (hold : state.relations[objectKey session database schema tableName]? = some relation)
    (hnone : schemaContainsIndexName state (database.getD session.database)
      (schema.getD session.schema) name (some (objectKey session database schema tableName))
        = false) :
  ∀ (other : String) (relation' : CatalogRelation), state.relations[other]? = some relation' →
    objectKey session database schema tableName ≠ other →
    relation.database = relation'.database → relation.schema = relation'.schema →
    relation'.hasIndex name = false
  := by
  intro other relation' hrelation' hne hdatabase hschema
  obtain ⟨hdatabase', hschema'⟩ := hns.inSchema hold
  apply schemaContainsIndexName_eq_false.mp hnone other relation' hrelation'
  · intro heq
    exact hne (Option.some.inj heq)
  · rw [← hdatabase, hdatabase']
  · rw [← hschema, hschema']

/-- An index is added to a relation under a name that is new in the schema. -/
theorem CatalogState.IndexNamesUnique.addIndex (h : state.IndexNamesUnique) {key : String}
    {relation : CatalogRelation} (hold : state.relations[key]? = some relation)
    (index : CatalogIndex) (hindex : relation.hasIndex index.name = false)
    (hnew : ∀ (other : String) (relation' : CatalogRelation),
      state.relations[other]? = some relation' → key ≠ other →
      relation.database = relation'.database → relation.schema = relation'.schema →
      relation'.hasIndex index.name = false) {edited : CatalogRelation}
    (hsame : relation.SameName edited) (hindexes : edited.indexes = relation.indexes ++ [index]) :
  CatalogState.IndexNamesUnique { state with relations := state.relations.insert key edited }
  := by
  apply h.replace hold hsame
  · rw [hindexes, List.map_append, List.map_singleton, List.nodup_append]
    refine ⟨h.own key relation hold, List.nodup_singleton _, ?_⟩
    intro name hmem new hnew heq
    obtain ⟨other, hother, rfl⟩ := List.mem_map.mp hmem
    cases List.mem_singleton.mp hnew
    exact CatalogRelation.hasIndex_eq_false.mp hindex other hother heq
  · rw [hindexes]
    intro other hother
    rcases List.mem_append.mp hother with hother | hother
    · exact .inl (List.any_eq_true.mpr ⟨other, hother, by simp⟩)
    · cases List.mem_singleton.mp hother
      exact .inr hnew

/-- Every operation on tables that gives indexes only new names keeps them apart, but for the
creation of an index, which relies on having been previewed. -/
theorem ControlOp.TableEffect.indexNamesUnique {op : ControlOp} (hns : state.Namespaced)
    (h : state.IndexNamesUnique) (hkeeps : op.keepsNames session state = true)
    (hop : ∀ database schema table name columns unique,
      op ≠ .createIndex database schema table name columns unique)
    (heffect : op.TableEffect session state state') :
  state'.IndexNamesUnique
  := by
  cases op with
  | registerManagedTable database schema tableName storageUri columns constraints =>
      obtain ⟨-, rfl⟩ := heffect
      simp only [keepsNames, Bool.and_eq_true, decide_eq_true_iff, List.all_eq_true,
        Bool.not_eq_true'] at hkeeps
      apply h.insert hkeeps.1
      intro other relation' hrelation' _ hdatabase hschema index hindex
      have hnone := hkeeps.2 index.name (List.mem_map_of_mem hindex)
      exact schemaContainsIndexName_eq_false.mp hnone other relation' hrelation' (by simp)
        hdatabase.symm hschema.symm
  | addColumn | dropColumn | renameColumn | alterColumn | updateRelationStoragePath =>
      obtain ⟨relation, hold, -, rfl⟩ := heffect
      exact h.replace_fewer hold ⟨rfl, rfl, rfl⟩ (List.Sublist.refl _)
  | addConstraint database schema tableName constraint =>
      obtain ⟨relation, hold, ⟨-, hnew⟩, rfl⟩ := heffect
      simp only [keepsNames, hold, Bool.not_eq_true', Bool.and_eq_false_iff] at hkeeps
      cases hbacked : constraint.kind.isBacked with
      | false =>
          apply h.replace_fewer hold
          · exact ⟨rfl, rfl, rfl⟩
          · rw [CatalogRelation.withConstraint, hbacked]
            exact List.Sublist.refl _
      | true =>
          have hindex := hkeeps.resolve_left (by rw [hbacked]; simp)
          apply h.addIndex hold constraint.backingIndex hindex
          · exact hns.newName hold (hnew hbacked)
          · exact ⟨rfl, rfl, rfl⟩
          · rw [CatalogRelation.withConstraint, hbacked]
            rfl
  | dropConstraint database schema tableName constraintName ifExists cascade =>
      obtain ⟨dropped, ⟨relation, hold, -, rfl⟩, rfl⟩ := heffect
      have hdropped := h.replace_fewer hold
        (⟨rfl, rfl, rfl⟩ : relation.SameName (relation.withoutConstraint constraintName))
        List.filter_sublist
      split
      · apply hdropped.of_fewer
        intro key other hother
        rw [CatalogState.withoutForeignKeysTo, Std.ExtTreeMap.getElem?_map,
          Option.map_eq_some_iff] at hother
        obtain ⟨old, hold, rfl⟩ := hother
        refine ⟨old, hold, ?_⟩
        split
        · exact ⟨⟨rfl, rfl, rfl⟩, rfl⟩
        · exact ⟨⟨rfl, rfl, rfl⟩, rfl⟩
      · exact hdropped
  | createIndex => exact absurd rfl (hop _ _ _ _ _ _)
  | dropIndex database schema name ifExists =>
      obtain ⟨key, relation, hfound, -, rfl⟩ := heffect
      have hold := Std.ExtTreeMap.mem_toList_iff_getElem?_eq_some.mp
        (List.mem_of_find?_eq_some hfound)
      exact h.replace_fewer hold ⟨rfl, rfl, rfl⟩ List.eraseP_sublist
  | renameIndex database schema tableName oldName newName =>
      obtain ⟨relation, hold, ⟨hnew, -⟩, rfl⟩ := heffect
      simp only [keepsNames, Bool.not_eq_true'] at hkeeps
      apply h.replace hold
      · exact ⟨rfl, rfl, rfl⟩
      · apply nodup_map_modifyFirst (h.own _ relation hold)
        intro _ _ _ index hindex
        exact CatalogRelation.hasIndex_eq_false.mp hnew index hindex
      · intro index hindex
        rcases mem_modifyFirst hindex with hmem | ⟨old, -, -, rfl⟩
        · exact .inl (List.any_eq_true.mpr ⟨index, hmem, by simp⟩)
        · exact .inr (hns.newName hold hkeeps)
  | _ => cases heffect

/-- A relation gets another name in its schema. -/
theorem CatalogState.IndexNamesUnique.renameRelation
    (h : state.IndexNamesUnique) {oldKey newKey newName : String} {relation : CatalogRelation}
    (hold : state.relations[oldKey]? = some relation) :
  CatalogState.IndexNamesUnique { state with
    relations := (state.relations.erase oldKey).insert newKey { relation with name := newName } }
  := by
  have herased : CatalogState.IndexNamesUnique { state with
      relations := state.relations.erase oldKey } := h.of_erase oldKey
  apply herased.insert
  · exact h.own oldKey relation hold
  · intro other relation' hrelation' _ hdatabase hschema
    rw [KeyMap.get_erase] at hrelation'
    split at hrelation'
    · cases hrelation'
    · rename_i hne
      exact h.apart oldKey other relation relation' hold hrelation' hne hdatabase hschema

/-- Every other effect on the catalogue keeps the names of the indexes apart. -/
theorem ControlOp.Effect.indexNamesUnique {op : ControlOp} (hns : state.Namespaced)
    (h : state.IndexNamesUnique) (hop : op.onTables = false) (hadds : op.addsRelation = false)
    (heffect : op.Effect session state state') :
  state'.IndexNamesUnique
  := by
  cases op with
  | registerManagedTable | addColumn | dropColumn | renameColumn | alterColumn | addConstraint
  | dropConstraint | createIndex | dropIndex | renameIndex | updateRelationStoragePath => cases hop
  | registerView | registerExternalTable => cases hadds
  | dropDatabase | dropSchema =>
      obtain ⟨-, -, rfl⟩ := heffect
      exact h.of_removeRelations rfl
  | renameSchema => exact ControlOp.Effect.indexNamesUnique_renameSchema hns h heffect
  | renameRelation =>
      obtain ⟨relation, -, hold, rfl⟩ := heffect
      exact h.renameRelation hold
  | dropRelation =>
      cases heffect
      exact h.of_erase _
  | alterDatabase name operation =>
      cases operation with
      | rename newName => cases heffect
      | ownerTo | setParam => exact h.of_relations (heffect.maps.relations_eq rfl)
  | _ => exact h.of_relations (heffect.maps.relations_eq rfl)

theorem ControlOp.Quiet.indexNamesUnique {op : ControlOp} (hns : state.Namespaced)
    (h : state.IndexNamesUnique) (hquiet : op.Quiet state state') :
  state'.IndexNamesUnique
  := by
  cases op with
  | alterDatabase name operation =>
      cases operation with
      | rename newName => exact RenamesDatabase.indexNamesUnique hns h hquiet
      | ownerTo | setParam => cases hquiet
  | setTlsPaths | setJwtSecret | setStorageRoot =>
      exact h.of_relations (hquiet.maps.relations_eq rfl)
  | _ => cases hquiet

theorem ControlOp.Spoil.indexNamesUnique {op : ControlOp} {o : Outside} {w : World}
    (hns : w.catalog.Namespaced) (h : w.catalog.IndexNamesUnique)
    (hspoil : op.Spoil session o w state') :
  state'.IndexNamesUnique
  := by
  cases op with
  | alterDatabase name operation =>
      cases operation with
      | rename newName => exact RenamesDatabase.indexNamesUnique hns h hspoil.1
      | ownerTo | setParam => cases hspoil
  | alterAggregate | alterCollation | alterFunction =>
      exact h.of_relations (hspoil.maps.relations_eq rfl)
  | _ => cases hspoil

end

section

open Eff

variable (o : Outside) (session : SessionContext) (w : World)

/-- Previewing an index changes nothing, and succeeds only if no index of the schema has its
name. -/
theorem after_previewCreateIndex (database schema : Option String) (table name : String)
    (columns : List String) (unique : Bool) :
  After (previewCreateIndex session database schema table name columns unique) w (fun r w' =>
    w' = w ∧ ∀ relation, r = .ok relation →
      schemaContainsIndexName w.catalog (database.getD session.database)
        (schema.getD session.schema) name none = false)
  := by
  simp only [previewCreateIndex, after_bind, after_readState, resume_ok, after_orBail,
    resume_error]
  refine ⟨fun _ _ => ⟨trivial, fun _ h => by cases h⟩, ?_⟩
  intro _ _
  split
  · exact ⟨rfl, fun _ h => by cases h⟩
  · simp only [after_ite, after_bind, after_bail, resume_error, after_pure, reduceCtorEq,
      false_implies, implies_true, and_self, true_and]
    intro _ hnew _ _
    exact Bool.eq_false_iff.mpr hnew

/-- An index that was previewed has a name that no index of the schema has. -/
theorem createIndex_previewed (database schema : Option String) (table name : String)
    (columns : List String) (unique : Bool) :
  Performs o (fun state => schemaContainsIndexName w.catalog (database.getD session.database)
        (schema.getD session.schema) name none = false
      ∧ ControlOp.TableEffect session w.catalog
        (.createIndex database schema table name columns unique) state)
    (fun _ => False) (fun _ => False)
    (performPreviewed o session (.createIndex database schema table name columns unique)) w
  := by
  rw [performPreviewed, Performs, after_bind]
  apply After.mono (after_previewCreateIndex session w database schema table name columns unique)
  rintro r w' ⟨rfl, hnew⟩
  cases r with
  | error e => exact ⟨rfl, .same rfl rfl⟩
  | ok relation =>
      rw [resume_ok]
      apply (createIndex_edits o session w' database schema table name columns unique).mono
      · intro state hstate
        exact ⟨hnew relation rfl, hstate⟩
      · intro state hstate
        exact hstate
      · intro state hstate
        exact hstate

/-- An operation that gives indexes only new names keeps them apart, whatever its outcome. -/
theorem performPreviewed_indexNamesUnique (op : ControlOp) (hns : w.catalog.Namespaced)
    (h : w.catalog.IndexNamesUnique) (hkeeps : op.keepsNames session w.catalog = true) :
  After (performPreviewed o session op) w (fun _ w' => w'.catalog.IndexNamesUnique)
  := by
  have hbump : ∀ state : CatalogState, state.IndexNamesUnique → state.bump.IndexNamesUnique :=
    fun _ hstate => hstate.bump
  have hadds : ∀ relation message, relation.indexes = [] →
      After (registerRelation o session relation message) w (fun _ w' =>
        w'.catalog.IndexNamesUnique) := by
    intro relation message hindexes
    have hperforms : Performs o _ (fun _ => False) (fun _ => False)
        (registerRelation o session relation message) w :=
      registerRelation_adds o session w relation message
    apply hperforms.keeps h hbump
    · rintro state ⟨-, rfl⟩
      exact h.addRelation _ hindexes
    · intro state hstate
      cases hstate
    · intro state hstate
      cases hstate
  cases op with
  | createIndex database schema table name columns unique =>
      apply (createIndex_previewed o session w database schema table name columns unique).keeps h
        hbump
      · rintro state ⟨hnew, relation, hold, hindex, rfl⟩
        apply h.addIndex hold ⟨name, columns, unique, false⟩ hindex
        · apply hns.newName hold
          apply schemaContainsIndexName_eq_false.mpr
          intro key other hother _
          exact schemaContainsIndexName_eq_false.mp hnew key other hother (by simp)
        · exact ⟨rfl, rfl, rfl⟩
        · rfl
      · intro state hstate
        cases hstate
      · intro state hstate
        cases hstate
  | registerManagedTable | addColumn | dropColumn | renameColumn | alterColumn | addConstraint
  | dropConstraint | dropIndex | renameIndex | updateRelationStoragePath =>
      refine @performedOp_keeps o (session, _) w _ rfl h hbump ?_
      intro state hstate
      exact hstate.indexNamesUnique hns h hkeeps (fun _ _ _ _ _ _ hop => by cases hop)
  | registerView | registerExternalTable => exact hadds _ _ rfl
  | _ =>
      apply performOp_keeps o session _ w h hbump
      · intro state hstate
        exact hstate.indexNamesUnique hns h rfl rfl
      · intro state hstate
        exact hstate.indexNamesUnique hns h
      · intro state hstate
        exact hstate.indexNamesUnique hns h

end

/-! ### Every run -/

/-- The system after an operation in a session, as the engine performs it. -/
def previewedOp (o : Outside) (call : SessionContext × ControlOp) (w : World) : World :=
  (Eff.exec (performPreviewed o call.1 call.2) w).2

/-- What the engine performs keeps the catalogue namespaced. -/
theorem previewedOp_namespaced (o : Outside) (call : SessionContext × ControlOp) {w : World}
    (h : w.catalog.Namespaced) :
  (previewedOp o call w).catalog.Namespaced
  := by
  obtain ⟨session, op⟩ := call
  have hleads : Leads (performPreviewed o session op) w := by
    cases op with
    | createIndex database schema table name columns unique =>
        rw [performPreviewed, Leads, Eff.after_bind]
        apply Eff.After.mono
          (after_previewCreateIndex session w database schema table name columns unique)
        rintro r w' ⟨rfl, -⟩
        cases r with
        | error e => exact ⟨edits_refl _, rfl⟩
        | ok relation =>
            exact performOp_leads o session w'
              (.createIndex database schema table name columns unique)
    | _ => exact performOp_leads o session w _
  exact hleads.1.namespaced h

/-- An index is found under its name in its schema. -/
theorem CatalogState.IndexNamesUnique.findIndexed {state : CatalogState}
    (h : state.IndexNamesUnique) {key name : String} {relation : CatalogRelation}
    (hrelation : state.relations[key]? = some relation) (hindex : relation.hasIndex name = true) :
  state.findIndexed relation.database relation.schema name = some (key, relation)
  := by
  cases hfound : state.findIndexed relation.database relation.schema name with
  | none =>
      have hnone := List.find?_eq_none.mp hfound (key, relation)
        (Std.ExtTreeMap.mem_toList_iff_getElem?_eq_some.mpr hrelation)
      simp [hindex] at hnone
  | some found =>
      obtain ⟨other, relation'⟩ := found
      have hother := Std.ExtTreeMap.mem_toList_iff_getElem?_eq_some.mp
        (List.mem_of_find?_eq_some hfound)
      have hhas := List.find?_some hfound
      simp only [Bool.and_eq_true, decide_eq_true_iff] at hhas
      obtain ⟨⟨hdatabase, hschema⟩, hindex'⟩ := hhas
      by_cases hkey : key = other
      · subst hkey
        rw [hrelation] at hother
        cases hother
        rfl
      · obtain ⟨index, hmem, hname⟩ := List.any_eq_true.mp hindex
        rw [decide_eq_true_iff] at hname
        have hnone := h.apart key other relation relation' hrelation hother hkey hdatabase.symm
          hschema.symm index hmem
        rw [hname, hindex'] at hnone
        cases hnone

theorem initialState_indexNamesUnique (users : KeyMap CatalogUser) :
  (initialState users).IndexNamesUnique
  := by
  constructor
  · intro key relation hrelation
    simp [initialState] at hrelation
  · intro key other relation relation' hrelation
    simp [initialState] at hrelation

/-- In every system reached from a new cluster by operations that give indexes only new names, the
indexes of a schema have different names, and each is found under its name. -/
theorem reachable_indexNamesUnique (o : Outside) {w : World}
    (h : Run.Reachable Initial (Run.byOps (previewedOp o)
      (fun call w => call.2.keepsNames call.1 w.catalog = true)) w) :
  w.catalog.IndexNamesUnique
    ∧ ∀ (key name : String) (relation : CatalogRelation),
      w.catalog.relations[key]? = some relation → relation.hasIndex name = true →
      w.catalog.findIndexed relation.database relation.schema name = some (key, relation)
  := by
  have hboth : w.catalog.Namespaced ∧ w.catalog.IndexNamesUnique := by
    refine Run.Reachable.invariant
      (P := fun w : World => w.catalog.Namespaced ∧ w.catalog.IndexNamesUnique) ?_ ?_ h
    · rintro w ⟨credentials, now, hw | hw⟩
      · rw [hw]
        exact ⟨initialState_namespaced _, initialState_indexNamesUnique _⟩
      · rw [hw]
        exact ⟨initialState_namespaced _, initialState_indexNamesUnique _⟩
    · rintro w w' ⟨hns, hunique⟩ ⟨call, hkeeps, rfl⟩
      exact ⟨previewedOp_namespaced o call hns,
        performPreviewed_indexNamesUnique o call.1 w call.2 hns hunique hkeeps⟩
  refine ⟨hboth.2, ?_⟩
  intro key name relation hrelation hindex
  exact hboth.2.findIndexed hrelation hindex

/-! ### Two tables with constraints of one name -/

namespace Installed

/-- The system after operations on a first install, as the engine performs them. -/
def afterPreviewed (calls : List (SessionContext × ControlOp)) : World :=
  Run.performAll (previewedOp Outside.faultless) calls World.bootstrap

/-- A table with a constraint, another one with an index, and the schema renamed. -/
def renamed : List (SessionContext × ControlOp) :=
  [(session, .createSchema none "s"),
    (session, .registerManagedTable none (some "s") "t" "/data/t" columns
      [⟨"k", .unique, ["a"], none, none, none, []⟩]),
    (session, .registerManagedTable none (some "s") "u" "/data/u" columns []),
    (session, .createIndex none (some "s") "u" "i" ["b"] false),
    (session, .renameSchema none "s" "r")]

/-- Two tables with a constraint each, of the same name. -/
def alike : List (SessionContext × ControlOp) :=
  [(session, .registerManagedTable none none "t" "/data/t" columns
      [⟨"k", .unique, ["a"], none, none, none, []⟩]),
    (session, .registerManagedTable none none "u" "/data/u" columns
      [⟨"k", .unique, ["b"], none, none, none, []⟩])]

end Installed

open Installed in
theorem reachable_indexNamesUnique_renamed :
  (afterPreviewed renamed).catalog.IndexNamesUnique
    ∧ ∀ (key name : String) (relation : CatalogRelation),
      (afterPreviewed renamed).catalog.relations[key]? = some relation →
      relation.hasIndex name = true →
      (afterPreviewed renamed).catalog.findIndexed relation.database relation.schema name
        = some (key, relation)
  := by
  refine reachable_indexNamesUnique Outside.faultless (Run.Reachable.performAll
    (.start ⟨fun _ => ⟨"", "", ""⟩, fun _ => 0, .inl rfl⟩) ?_)
  decide

open Installed in
theorem alike_not_indexNamesUnique :
  Run.Reachable Initial (Run.byOps (previewedOp Outside.faultless) (fun _ _ => True))
      (afterPreviewed alike)
    ∧ ¬ (afterPreviewed alike).catalog.IndexNamesUnique
  := by
  constructor
  · exact Run.Reachable.performAll (.start ⟨fun _ => ⟨"", "", ""⟩, fun _ => 0, .inl rfl⟩)
      (Run.allAllowed_true _ _)
  · intro h
    have hfound : ((afterPreviewed alike).catalog.relations["postgres.public.u"]?).map
        (fun relation => (relation.hasIndex "k", relation.database, relation.schema,
          (afterPreviewed alike).catalog.findIndexed relation.database relation.schema "k"
            |>.map (·.1)))
          = some (true, "postgres", "public", some "postgres.public.t") := by
      decide
    obtain ⟨relation, hrelation, heq⟩ := Option.map_eq_some_iff.mp hfound
    simp only [Prod.mk.injEq] at heq
    obtain ⟨hindex, -, -, hother⟩ := heq
    rw [h.findIndexed hrelation hindex] at hother
    simp at hother
