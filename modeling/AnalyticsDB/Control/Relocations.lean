import AnalyticsDB.Control.Namespace
import AnalyticsDB.Control.TableEdits

/-!
# Where relations go

The operations that create, drop and rename databases, schemas, tables and views make of every
relation one that is the same but for its names, or drop it, and create at most one.  So a relation
can be followed through the operations that rename it, and told from another one that gets its name
later.
-/

namespace ControlOp

variable (session : SessionContext)

/-- The operations that create, drop and rename databases, schemas, tables and views. -/
def onNames : ControlOp → Bool
  | createDatabase _ | alterDatabase _ (.rename _) | dropDatabase .. | createSchema ..
  | renameSchema .. | dropSchema .. | registerView .. | registerManagedTable ..
  | registerExternalTable .. | renameRelation .. | dropRelation .. => true
  | _ => false

/-- What an operation makes of a relation, unless it fails; nothing when it drops it. -/
def becomes : ControlOp → CatalogRelation → Option CatalogRelation
  | alterDatabase name (.rename newName), r =>
    if r.database = name then some { r with database := newName } else some r
  | dropDatabase name _, r => if r.database = name then none else some r
  | renameSchema database name newName, r =>
    if r.database = database.getD session.database ∧ r.schema = name then
      some { r with schema := newName }
    else some r
  | dropSchema database name _ _, r =>
    if r.database = database.getD session.database ∧ r.schema = name then none else some r
  | renameRelation database schema name newName, r =>
    if r.key = objectKey session database schema name then some { r with name := newName }
    else some r
  | dropRelation database schema name _ _, r =>
    if r.key = objectKey session database schema name then none else some r
  | _, r => some r

/-- The relation that an operation creates. -/
def creates : ControlOp → Option CatalogRelation
  | registerView database schema viewName definitionSql columns =>
    some { database := database.getD session.database, schema := schema.getD session.schema
           name := viewName, kind := .view, definitionSql := some (trim definitionSql)
           storagePath := none, externalFormat := none, columns := columns, constraints := []
           indexes := [] }
  | registerManagedTable database schema tableName storageUri columns constraints =>
    some (.managedTable (database.getD session.database) (schema.getD session.schema) tableName
      storageUri columns constraints)
  | registerExternalTable database schema tableName location format columns =>
    some { database := database.getD session.database, schema := schema.getD session.schema
           name := tableName, kind := .table, definitionSql := none, storagePath := some location
           externalFormat := some format, columns := columns, constraints := [], indexes := [] }
  | _ => none

/-- The schemas that get their names, or those of their databases, by an operation. -/
def enters : ControlOp → String → String → Bool
  | alterDatabase _ (.rename newName), database, _ => database = newName
  | renameSchema database _ newName, database', schema =>
    database' = database.getD session.database && schema = newName
  | _, _, _ => false

/-- The relations of a catalogue are those that the operation made of the relations of another,
under their keys, and the one it created.  None was where a schema goes that is renamed. -/
structure Relocates (op : ControlOp) (state state' : CatalogState) : Prop where
  entries : ∀ (key : String) (r' : CatalogRelation), state'.relations[key]? = some r' ↔
    (∃ (k : String) (r : CatalogRelation), state.relations[k]? = some r
        ∧ op.becomes session r = some r' ∧ key = r'.key)
      ∨ op.creates session = some r' ∧ key = r'.key
  vacant : ∀ (key : String) (r : CatalogRelation), state.relations[key]? = some r →
    op.enters session r.database r.schema = false

end ControlOp

section

variable {session : SessionContext} {op : ControlOp} {state state' : CatalogState}

/-- What an operation makes of a relation has other names at most. -/
theorem ControlOp.becomes_texts {r r' : CatalogRelation} (h : op.becomes session r = some r') :
  r'.kind = r.kind ∧ r'.definitionSql = r.definitionSql ∧ r'.columns = r.columns
  := by
  cases op with
  | alterDatabase name operation =>
      cases operation with
      | rename newName =>
          simp only [becomes] at h
          split at h
          · cases h
            exact ⟨rfl, rfl, rfl⟩
          · cases h
            exact ⟨rfl, rfl, rfl⟩
      | ownerTo newOwner | setParam parameter value =>
          cases h
          exact ⟨rfl, rfl, rfl⟩
  | renameSchema | renameRelation =>
      simp only [becomes] at h
      split at h
      · cases h
        exact ⟨rfl, rfl, rfl⟩
      · cases h
        exact ⟨rfl, rfl, rfl⟩
  | dropDatabase | dropSchema | dropRelation =>
      simp only [becomes] at h
      split at h
      · cases h
      · cases h
        exact ⟨rfl, rfl, rfl⟩
  | _ =>
      cases h
      exact ⟨rfl, rfl, rfl⟩

/-- Nothing happens to the relations. -/
theorem relocates_of_same (hns : state.Namespaced) (hrelations : state'.relations = state.relations)
    (hbecomes : ∀ r, op.becomes session r = some r) (hcreates : op.creates session = none)
    (henters : ∀ database schema, op.enters session database schema = false) :
  op.Relocates session state state'
  := by
  constructor
  · intro key r'
    rw [hrelations, hcreates]
    constructor
    · intro hr'
      exact .inl ⟨key, r', hr', hbecomes r', hns.key_eq hr'⟩
    · rintro (⟨k, r, hr, hr', rfl⟩ | ⟨⟨⟩, -⟩)
      rw [hbecomes] at hr'
      cases hr'
      rw [← hns.key_eq hr]
      exact hr
  · intro key r _
    apply henters

/-- A relation is created under a free key. -/
theorem relocates_insert (hns : state.Namespaced) {relation : CatalogRelation}
    (hnew : state.relations.contains relation.key = false)
    (hbecomes : ∀ r, op.becomes session r = some r) (hcreates : op.creates session = some relation)
    (henters : ∀ database schema, op.enters session database schema = false) :
  op.Relocates session state
    { state with relations := state.relations.insert relation.key relation }
  := by
  have hnone := KeyMap.get_eq_none _ hnew
  constructor
  · intro key r'
    rw [hcreates, KeyMap.get_insert]
    constructor
    · intro hr'
      split at hr'
      · rename_i hkey
        cases hr'
        exact .inr ⟨rfl, hkey.symm⟩
      · exact .inl ⟨key, r', hr', hbecomes r', hns.key_eq hr'⟩
    · rintro (⟨k, r, hr, hr', rfl⟩ | ⟨⟨⟩, rfl⟩)
      · rw [hbecomes] at hr'
        cases hr'
        rw [hns.key_eq hr] at hr
        rw [if_neg, hr]
        intro hkey
        rw [hkey, hr] at hnone
        cases hnone
      · rw [if_pos rfl]
  · intro key r _
    apply henters

/-- The relations that the operation drops are removed. -/
theorem relocates_filter (hns : state.Namespaced) {keep : String → CatalogRelation → Bool}
    (hrelations : state'.relations = state.relations.filter keep)
    (hbecomes : ∀ (key : String) (r : CatalogRelation), state.relations[key]? = some r →
      op.becomes session r = if keep key r then some r else none)
    (hcreates : op.creates session = none)
    (henters : ∀ database schema, op.enters session database schema = false) :
  op.Relocates session state state'
  := by
  constructor
  · intro key r'
    rw [hrelations, hcreates, Std.ExtTreeMap.getElem?_filter', Option.filter_eq_some_iff]
    constructor
    · rintro ⟨hr', hkeep⟩
      refine .inl ⟨key, r', hr', ?_, hns.key_eq hr'⟩
      rw [hbecomes key r' hr', if_pos hkeep]
    · rintro (⟨k, r, hr, hr', rfl⟩ | ⟨⟨⟩, -⟩)
      rw [hbecomes k r hr] at hr'
      split at hr'
      · rename_i hkeep
        cases hr'
        rw [← hns.key_eq hr]
        exact ⟨hr, hkeep⟩
      · cases hr'
  · intro key r _
    apply henters

/-- The relations that the operation moves go to fresh keys. -/
theorem relocates_moveRelations (hns : state.Namespaced) {start : String}
    {f : CatalogRelation → CatalogRelation} {newKey : CatalogRelation → String}
    (hrelations : state'.relations = moveRelations start f newKey state.relations)
    (hfresh : FreshKeys start f newKey state.relations)
    (hbecomes : ∀ (key : String) (r : CatalogRelation), state.relations[key]? = some r →
      op.becomes session r = some (if startsWith key start then f r else r))
    (hnewKey : ∀ (key : String) (r : CatalogRelation), state.relations[key]? = some r →
      startsWith key start = true → newKey (f r) = (f r).key)
    (hcreates : op.creates session = none)
    (hvacant : ∀ (key : String) (r : CatalogRelation), state.relations[key]? = some r →
      op.enters session r.database r.schema = false) :
  op.Relocates session state state'
  := by
  refine ⟨?_, hvacant⟩
  intro key r'
  rw [hrelations, hcreates]
  constructor
  · intro hr'
    left
    obtain ⟨hr, hnot⟩ | ⟨k, r, hr, hstart, rfl, rfl⟩ := moveRelations_entry hfresh.start_ne hr'
    · refine ⟨key, r', hr, ?_, hns.key_eq hr⟩
      rw [hbecomes key r' hr, hnot, if_neg Bool.false_ne_true]
    · refine ⟨k, r, hr, ?_, hnewKey k r hr hstart⟩
      rw [hbecomes k r hr, if_pos hstart]
  · rintro (⟨k, r, hr, hr', rfl⟩ | ⟨⟨⟩, -⟩)
    have hmoved := moveRelations_entryMoved hfresh hr
    rw [hbecomes k r hr] at hr'
    split at hmoved
    · rename_i hstart
      rw [if_pos hstart] at hr'
      cases hr'
      rw [hnewKey k r hr hstart] at hmoved
      exact hmoved
    · rename_i hstart
      rw [if_neg hstart] at hr'
      cases hr'
      rw [← hns.key_eq hr]
      exact hmoved

end

/-! ### Each operation -/

section

open Eff ControlOp

variable {session : SessionContext} {state : CatalogState} (hns : state.Namespaced)

include hns

theorem RenamesDatabase.relocates {name newName : String} {state' : CatalogState}
    (h : RenamesDatabase state name newName state') :
  (alterDatabase name (.rename newName)).Relocates session state state'
  := by
  obtain ⟨database, hname, hnewName, hold, hnew, rfl⟩ := h
  have hplain := plain_of_validateIdentifier hname
  refine relocates_moveRelations hns rfl
    (hns.freshKeys_database hplain (plain_of_validateIdentifier hnewName) hold hnew) ?_
    (fun _ _ _ _ => rfl) rfl ?_
  · intro key r hr
    simp only [becomes, ← hns.inDatabase_iff hplain hr]
    split
    · rfl
    · rfl
  · intro key r hr
    exact decide_eq_false (hns.database_ne hnew hr)

theorem relocates_renameSchema {database : Option String} {name newName : String}
    {state' : CatalogState}
    (h : (renameSchema database name newName).Effect session state state') :
  (renameSchema database name newName).Relocates session state state'
  := by
  obtain ⟨entry, hnewName, hdatabase, hold, hnew, rfl⟩ := h
  have hplain := (hns.databases_ok _ entry hdatabase).schema_plain name hold
  refine relocates_moveRelations hns rfl
    (hns.freshKeys_schema (plain_of_validateIdentifier hnewName) hdatabase hold hnew) ?_ ?_ rfl ?_
  · intro key r hr
    simp only [becomes, ← hns.inSchema_iff hplain hr]
    split
    · rfl
    · rfl
  · intro key r hr hstart
    rw [CatalogRelation.key, ((hns.inSchema_iff hplain hr).mp hstart).1]
    rfl
  · intro key r hr
    simp only [enters, Bool.and_eq_false_iff, decide_eq_false_iff_not]
    by_cases hd : r.database = database.getD session.database
    · exact .inr (hns.schema_ne hdatabase hnew hr hd)
    · exact .inl hd

theorem relocates_dropDatabase {name : String} {ifExists : Bool} {state' : CatalogState}
    (h : (dropDatabase name ifExists).Effect session state state') :
  (dropDatabase name ifExists).Relocates session state state'
  := by
  obtain ⟨hname, -, rfl⟩ := h
  refine relocates_filter hns rfl ?_ rfl (fun _ _ => rfl)
  intro key r hr
  simp only [becomes, ← hns.inDatabase_iff (plain_of_validateIdentifier hname) hr]
  cases startsWith key (databaseStart name) with
  | true => rfl
  | false => rfl

theorem relocates_dropSchema {database : Option String} {name : String} {ifExists cascade : Bool}
    {state' : CatalogState}
    (h : (dropSchema database name ifExists cascade).Effect session state state') :
  (dropSchema database name ifExists cascade).Relocates session state state'
  := by
  obtain ⟨hname, -, rfl⟩ := h
  refine relocates_filter hns rfl ?_ rfl (fun _ _ => rfl)
  intro key r hr
  simp only [becomes, ← hns.inSchema_iff (plain_of_validateIdentifier hname) hr]
  cases startsWith key (schemaStart (database.getD session.database) name) with
  | true => rfl
  | false => rfl

theorem relocates_dropRelation {database schema : Option String} {name : String}
    {kind : CatalogRelationKind} {ifExists : Bool} {state' : CatalogState}
    (h : (dropRelation database schema name kind ifExists).Effect session state state') :
  (dropRelation database schema name kind ifExists).Relocates session state state'
  := by
  cases h
  constructor
  · intro key r'
    rw [KeyMap.get_erase]
    constructor
    · intro hr'
      split at hr'
      · cases hr'
      · rename_i hne
        refine .inl ⟨key, r', hr', ?_, hns.key_eq hr'⟩
        rw [hns.key_eq hr'] at hne
        exact if_neg (Ne.symm hne)
    · rintro (⟨k, r, hr, hr', rfl⟩ | ⟨⟨⟩, -⟩)
      simp only [becomes] at hr'
      split at hr'
      · cases hr'
      · rename_i hne
        cases hr'
        rw [← hns.key_eq hr] at hne ⊢
        exact (if_neg (Ne.symm hne)).trans hr
  · intro key r _
    rfl

/-- A relation is renamed to a free name. -/
theorem relocates_renameRelation {database schema : Option String} {name newName : String}
    {relation : CatalogRelation}
    (hold : state.relations[objectKey session database schema name]? = some relation)
    (hfree : state.relations.contains (objectKey session database schema newName) = false) :
  (renameRelation database schema name newName).Relocates session state { state with
    relations := (state.relations.erase (objectKey session database schema name)).insert
      (objectKey session database schema newName) { relation with name := newName } }
  := by
  have hnone := KeyMap.get_eq_none _ hfree
  obtain ⟨hd, hs, hn⟩ := hns.plain_of_relation hold
  obtain ⟨hdatabase, hschema, -⟩ := relationKey_inj hd hs hn (hns.key_eq hold)
  have hnewKey : objectKey session database schema newName
      = ({ relation with name := newName } : CatalogRelation).key := by
    rw [objectKey, hdatabase, hschema]
    rfl
  constructor
  · intro key r'
    rw [KeyMap.get_insert]
    constructor
    · intro hr'
      left
      split at hr'
      · rename_i hkey
        cases hr'
        refine ⟨_, relation, hold, ?_, by rw [← hkey, hnewKey]⟩
        exact if_pos (hns.key_eq hold).symm
      · rw [KeyMap.get_erase] at hr'
        split at hr'
        · cases hr'
        · rename_i hne
          refine ⟨key, r', hr', ?_, hns.key_eq hr'⟩
          rw [hns.key_eq hr'] at hne
          exact if_neg (Ne.symm hne)
    · rintro (⟨k, r, hr, hr', rfl⟩ | ⟨⟨⟩, -⟩)
      simp only [becomes] at hr'
      split at hr'
      · rename_i hkey
        rw [hns.key_eq hr, hkey, hold] at hr
        cases hr
        cases hr'
        rw [if_pos hnewKey]
      · rename_i hne
        cases hr'
        rw [← hns.key_eq hr] at hne ⊢
        rw [if_neg, KeyMap.get_erase, if_neg (Ne.symm hne), hr]
        intro hkey
        rw [hkey, hr] at hnone
        cases hnone
  · intro key r _
    rfl

end

/-! ### Every operation on names -/

section

open Eff

variable {quiet spoil : CatalogState → Prop} (o : Outside) (session : SessionContext) {w : World}
  (hns : w.catalog.Namespaced)

include hns

theorem registerRelation_relocates (op : ControlOp) (relation : CatalogRelation)
    (message : String) (hbecomes : ∀ r, op.becomes session r = some r)
    (hcreates : op.creates session = some relation)
    (henters : ∀ database schema, op.enters session database schema = false) :
  Performs o (op.Relocates session w.catalog) quiet spoil
    (registerRelation o session relation message) w
  := by
  apply (registerRelation_adds o session w relation message).mono
  · rintro state ⟨hnew, rfl⟩
    exact relocates_insert hns hnew hbecomes hcreates henters
  · intro state h
    exact h
  · intro state h
    exact h

theorem renameRelation_relocates (database schema : Option String) (name newName : String) :
  Performs o ((ControlOp.renameRelation database schema name newName).Relocates session w.catalog)
    quiet spoil (renameRelation o session database schema name newName) w
  := by
  simp only [renameRelation, performs_orBail, performs_readState]
  intro _ _ _ _
  cases hold : w.catalog.relations[relationKey (database.getD session.database)
      (schema.getD session.schema) name]? with
  | none => apply performs_bail
  | some relation =>
      simp only [performs_ite, performs_bail_bind, implies_true, true_and, Bool.not_eq_true]
      intro hfree
      apply performs_persist
      exact relocates_renameRelation hns hold hfree

/-- An operation on names relocates the relations, or leaves them as they are. -/
theorem performOp_relocates (op : ControlOp) (hop : op.onNames = true) :
  Performs o (op.Relocates session w.catalog) (op.Relocates session w.catalog)
    (op.Relocates session w.catalog) (performOp o session op) w
  := by
  cases op with
  | registerView database schema viewName definitionSql columns =>
      exact registerRelation_relocates o session hns _ _ _ (fun _ => rfl) rfl (fun _ _ => rfl)
  | registerManagedTable database schema tableName storageUri columns constraints =>
      exact registerRelation_relocates o session hns _ _ _ (fun _ => rfl) rfl (fun _ _ => rfl)
  | registerExternalTable database schema tableName location format columns =>
      exact registerRelation_relocates o session hns _ _ _ (fun _ => rfl) rfl (fun _ _ => rfl)
  | renameRelation database schema name newName =>
      exact renameRelation_relocates o session hns database schema name newName
  | alterDatabase name operation =>
      cases operation with
      | rename newName =>
          apply (performOp_performs o session w _).mono
          · intro state h
            cases h
          · intro state h
            exact RenamesDatabase.relocates hns h
          · intro state h
            exact RenamesDatabase.relocates hns h.1
      | ownerTo newOwner => cases hop
      | setParam parameter value => cases hop
  | createDatabase name =>
      apply (performOp_performs o session w _).mono
      · rintro state ⟨-, -, rfl⟩
        exact relocates_of_same hns rfl (fun _ => rfl) rfl (fun _ _ => rfl)
      · intro state h
        cases h
      · intro state h
        cases h
  | createSchema database schemaName =>
      apply (performOp_performs o session w _).mono
      · rintro state ⟨-, rfl⟩
        exact relocates_of_same hns rfl (fun _ => rfl) rfl (fun _ _ => rfl)
      · intro state h
        cases h
      · intro state h
        cases h
  | dropDatabase name ifExists =>
      apply (performOp_performs o session w _).mono
      · intro state h
        exact relocates_dropDatabase hns h
      · intro state h
        cases h
      · intro state h
        cases h
  | renameSchema database name newName =>
      apply (performOp_performs o session w _).mono
      · intro state h
        exact relocates_renameSchema hns h
      · intro state h
        cases h
      · intro state h
        cases h
  | dropSchema database name ifExists cascade =>
      apply (performOp_performs o session w _).mono
      · intro state h
        exact relocates_dropSchema hns h
      · intro state h
        cases h
      · intro state h
        cases h
  | dropRelation database schema name kind ifExists =>
      apply (performOp_performs o session w _).mono
      · intro state h
        exact relocates_dropRelation hns h
      · intro state h
        cases h
      · intro state h
        cases h
  | _ => cases hop

end

/-! ### Relations are followed -/

section

variable (o : Outside) (call : SessionContext × ControlOp) (w : World)

/-- The relations are as they were. -/
def Unmoved : Prop :=
  (performedOp o call w).catalog.relations.toList = w.catalog.relations.toList

instance : Decidable (Unmoved o call w) :=
  inferInstanceAs (Decidable ((performedOp o call w).catalog.relations.toList
    = w.catalog.relations.toList))

/-- The key that the relation of a key has after an operation on names, if it is still there. -/
def follow (key : String) : Option String :=
  if Unmoved o call w then some key
  else (w.catalog.relations[key]?.bind (call.2.becomes call.1)).map CatalogRelation.key

/-- The key that the relation of a key has after a list of operations, if it is still there. -/
def followAll : List (SessionContext × ControlOp) → World → String → Option String
  | [], _, key => some key
  | call :: calls, w, key =>
    (follow o call w key).bind (followAll calls (performedOp o call w))

variable {o call w}

theorem Unmoved.relations_eq (h : Unmoved o call w) :
  (performedOp o call w).catalog.relations = w.catalog.relations
  := Std.ExtTreeMap.ext_toList (.of_eq h)

/-- Where the relations are not as they were, they are relocated. -/
theorem relocates_of_not_unmoved (hns : w.catalog.Namespaced) (hop : call.2.onNames = true)
    (h : ¬ Unmoved o call w) :
  call.2.Relocates call.1 w.catalog (performedOp o call w).catalog
  := by
  have heither : (performedOp o call w).catalog.relations = w.catalog.relations
      ∨ call.2.Relocates call.1 w.catalog (performedOp o call w).catalog := by
    refine (performOp_relocates o call.1 hns call.2 hop).keeps (P := fun state =>
      state.relations = w.catalog.relations ∨ call.2.Relocates call.1 w.catalog state) (.inl rfl)
      ?_ (fun _ => .inr) (fun _ => .inr) (fun _ => .inr)
    rintro state (hrelations | hrelocates)
    · exact .inl hrelations
    · exact .inr ⟨hrelocates.entries, hrelocates.vacant⟩
  apply heither.resolve_left
  intro hrelations
  apply h
  rw [Unmoved, hrelations]

/-- Operations on names keep the catalogue namespaced. -/
theorem performedOp_namespaced (hns : w.catalog.Namespaced) :
  (performedOp o call w).catalog.Namespaced
  := (performOp_leads o call.1 w call.2).1.namespaced hns

end
