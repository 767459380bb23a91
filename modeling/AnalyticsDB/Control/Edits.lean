import AnalyticsDB.Control.Effects

/-!
# The edits of the catalogue

The edits of the catalogue that the operations of the control plane are made of.  Every
operation, whatever its outcome, leaves the catalogue with finitely many edits made, each under
the guards the operation checks before it.
-/

/-- One edit of the catalogue, under the guards its operation checks. -/
inductive CatalogEdit : CatalogState → CatalogState → Prop
  | bump (state : CatalogState) : CatalogEdit state state.bump
  | other (state state' : CatalogState) (hdatabases : state'.databases = state.databases)
      (hrelations : state'.relations = state.relations) : CatalogEdit state state'
  | addDatabase (state : CatalogState) (name owner : String)
      (hname : validateIdentifier name = .ok ())
      (hnew : state.databases.contains name = false) :
      CatalogEdit state { state with
        databases := state.databases.insert name
          { name := name, schemas := {"public"}, owner := owner, parameters := ∅ } }
  | renameDatabase (state : CatalogState) (name newName : String) (database : CatalogDatabase)
      (hname : validateIdentifier name = .ok ()) (hnewName : validateIdentifier newName = .ok ())
      (hold : state.databases[name]? = some database)
      (hnew : state.databases.contains newName = false) :
      CatalogEdit state (renameDatabaseState name newName database state)
  | editDatabase (state : CatalogState) (name : String) (f : CatalogDatabase → CatalogDatabase)
      (hf : ∀ d, (f d).name = d.name ∧ (f d).schemas = d.schemas) :
      CatalogEdit state { state with databases := state.databases.modify name f }
  | dropDatabase (state : CatalogState) (name : String)
      (hname : validateIdentifier name = .ok ()) :
      CatalogEdit state { state with
        databases := state.databases.erase name
        relations := removeRelations (databaseStart name) state.relations }
  | addSchema (state : CatalogState) (databaseName schemaName : String)
      (hname : validateIdentifier schemaName = .ok ()) :
      CatalogEdit state { state with
        databases := state.databases.modify databaseName
          (fun d => { d with schemas := d.schemas.insert schemaName }) }
  | renameSchema (state : CatalogState) (databaseName name newName : String)
      (database : CatalogDatabase) (hnewName : validateIdentifier newName = .ok ())
      (hdatabase : state.databases[databaseName]? = some database)
      (hold : database.schemas.contains name = true)
      (hnew : database.schemas.contains newName = false) :
      CatalogEdit state { state with
        databases := state.databases.modify databaseName
          (fun d => { d with schemas := (d.schemas.erase name).insert newName })
        relations := moveRelations (schemaStart databaseName name)
          (fun r => { r with schema := newName })
          (fun r => schemaStart databaseName newName ++ r.name) state.relations }
  | dropSchema (state : CatalogState) (databaseName name : String)
      (hname : validateIdentifier name = .ok ()) :
      CatalogEdit state { state with
        databases := state.databases.modify databaseName
          (fun d => { d with schemas := d.schemas.erase name })
        relations := removeRelations (schemaStart databaseName name) state.relations }
  | addRelation (state : CatalogState) (relation : CatalogRelation) (database : CatalogDatabase)
      (hname : validateIdentifier relation.name = .ok ())
      (hdatabase : state.databases[relation.database]? = some database)
      (hschema : database.schemas.contains relation.schema = true) :
      CatalogEdit state { state with
        relations := state.relations.insert
          (relationKey relation.database relation.schema relation.name) relation }
  | editRelation (state : CatalogState) (key : String) (relation edited : CatalogRelation)
      (hold : state.relations[key]? = some relation) (hsame : relation.SameName edited) :
      CatalogEdit state { state with relations := state.relations.insert key edited }
  | mapRelations (state : CatalogState) (f : String → CatalogRelation → CatalogRelation)
      (hf : ∀ key (relation : CatalogRelation), relation.SameName (f key relation)) :
      CatalogEdit state { state with relations := state.relations.map f }
  | renameRelation (state : CatalogState) (databaseName schemaName name newName : String)
      (relation : CatalogRelation) (hnewName : validateIdentifier newName = .ok ())
      (hold : state.relations[relationKey databaseName schemaName name]? = some relation) :
      CatalogEdit state { state with
        relations := (state.relations.erase (relationKey databaseName schemaName name)).insert
          (relationKey databaseName schemaName newName) { relation with name := newName } }
  | dropRelation (state : CatalogState) (key : String) :
      CatalogEdit state { state with relations := state.relations.erase key }

/-- Finitely many edits. -/
abbrev Edits : CatalogState → CatalogState → Prop := Relation.ReflTransGen CatalogEdit

@[simp]
theorem edits_refl (state : CatalogState) :
  Edits state state
  := Relation.ReflTransGen.refl

/-- One edit, after which the catalogue is persisted. -/
theorem CatalogEdit.persisted {state state' : CatalogState} (h : CatalogEdit state state') :
  Edits state state'.bump
  := (Relation.ReflTransGen.single h).tail (.bump state')

open Eff

/-- The catalogue an operation leaves is the one it found with finitely many edits made, and
the granted privileges are those it found. -/
def Leads {α : Type} (m : Op α) (w : World) : Prop :=
  After m w (fun _ w' => Edits w.catalog w'.catalog ∧ w'.permissions = w.permissions)

section

variable {α β : Type} (w : World)

/-- Failing changes nothing. -/
theorem leads_bail (message : String) :
  Leads (bail message : Op α) w
  := ⟨edits_refl _, rfl⟩

theorem leads_bail_bind (message : String) (f : α → Op β) :
  Leads (bail message >>= f) w
  := ⟨edits_refl _, rfl⟩

theorem leads_pure (a : α) :
  Leads (pure a : Op α) w
  := ⟨edits_refl _, rfl⟩

theorem leads_orBail (x : Except String α) (f : α → Op β) :
  Leads (orBail x >>= f) w ↔ ∀ a, x = .ok a → Leads (f a) w
  := by
  cases x with
  | ok a => simp [Leads, orBail]
  | error message => simp [Leads, orBail]

theorem leads_readState (f : CatalogState → Op α) :
  Leads (readState >>= f) w ↔ Leads (f w.catalog) w
  := Iff.rfl

/-- A call to the outside leaves the catalogue as it is. -/
theorem leads_outsideCall (f : Nat → Op α) :
  Leads (outsideCall >>= f) w ↔ Leads (f w.calls) { w with calls := w.calls + 1 }
  := Iff.rfl

theorem leads_ite (c : Prop) [Decidable c] (m n : Op α) :
  Leads (if c then m else n) w ↔ (c → Leads m w) ∧ (¬ c → Leads n w)
  := after_ite c m n w _

/-- An operation leads on when both its parts do. -/
theorem leads_bind {m : Op α} {f : α → Op β} (hm : Leads m w) (hf : ∀ a w', Leads (f a) w') :
  Leads (m >>= f) w
  := by
  rw [Leads, after_bind]
  apply After.mono hm
  rintro r w' ⟨hedits, hpermissions⟩
  cases r with
  | ok a =>
      rw [resume_ok]
      apply After.mono (hf a w')
      rintro r' w'' ⟨hedits', hpermissions'⟩
      exact ⟨hedits.trans hedits', hpermissions'.trans hpermissions⟩
  | error e => exact ⟨hedits, hpermissions⟩

/-- What leaves catalogue and privileges as they are leads on. -/
theorem leads_of_same {m : Op α}
    (hm : After m w (fun _ w' => w'.catalog = w.catalog ∧ w'.permissions = w.permissions)) :
  Leads m w
  := by
  apply After.mono hm
  rintro r w' ⟨hcatalog, hpermissions⟩
  rw [hcatalog]
  exact ⟨edits_refl _, hpermissions⟩

end

/-! ### The operations as edits -/

theorem RelationEdit.edits {state state' : CatalogState}
    (h : Relation.ReflTransGen RelationEdit state state') :
  Edits state state'
  := by
  induction h with
  | refl => apply edits_refl
  | tail _ hedit ih =>
      apply ih.tail
      cases hedit with
      | edit key relation edited hold hsame =>
          exact .editRelation _ key relation edited hold hsame
      | map f hf => exact .mapRelations _ f hf

theorem AddsRelation.edits {state state' : CatalogState} (h : AddsRelation state state') :
  Edits state state'
  := by
  obtain ⟨relation, database, hname, hdatabase, hschema, rfl⟩ := h
  exact .single (.addRelation state relation database hname hdatabase hschema)

theorem RenamesDatabase.edits {state state' : CatalogState} {name newName : String}
    (h : RenamesDatabase state name newName state') :
  Edits state state'
  := by
  obtain ⟨database, hname, hnewName, hold, hnew, rfl⟩ := h
  exact .single (.renameDatabase state name newName database hname hnewName hold hnew)

/-- The effect of an operation is made of edits. -/
theorem ControlOp.Effect.edits {session : SessionContext} {state state' : CatalogState}
    {op : ControlOp} (h : op.Effect session state state') :
  Edits state state'
  := by
  cases op with
  | createDatabase name =>
      obtain ⟨hname, hnew, rfl⟩ := h
      exact .single (.addDatabase state name session.user hname hnew)
  | alterDatabase name operation =>
      cases operation with
      | rename newName => cases h
      | ownerTo newOwner =>
          cases h
          exact .single (.editDatabase state name _ (fun _ => ⟨rfl, rfl⟩))
      | setParam parameter value =>
          cases h
          exact .single (.editDatabase state name _ (fun _ => ⟨rfl, rfl⟩))
  | dropDatabase name ifExists =>
      obtain ⟨hname, -, rfl⟩ := h
      exact .single (.dropDatabase state name hname)
  | createSchema database schemaName =>
      obtain ⟨hname, rfl⟩ := h
      exact .single (.addSchema state _ schemaName hname)
  | renameSchema database name newName =>
      obtain ⟨entry, hnewName, hdatabase, hold, hnew, rfl⟩ := h
      exact .single (.renameSchema state _ name newName entry hnewName hdatabase hold hnew)
  | dropSchema database name ifExists cascade =>
      obtain ⟨hname, -, rfl⟩ := h
      exact .single (.dropSchema state _ name hname)
  | registerView => exact AddsRelation.edits h
  | registerManagedTable => exact AddsRelation.edits h
  | registerExternalTable => exact AddsRelation.edits h
  | renameRelation database schema name newName =>
      obtain ⟨relation, hnewName, hold, rfl⟩ := h
      exact .single (.renameRelation state _ _ name newName relation hnewName hold)
  | dropRelation database schema name kind ifExists =>
      cases h
      exact .single (.dropRelation state _)
  | addColumn => exact RelationEdit.edits h
  | dropColumn => exact RelationEdit.edits h
  | renameColumn => exact RelationEdit.edits h
  | alterColumn => exact RelationEdit.edits h
  | addConstraint => exact RelationEdit.edits h
  | dropConstraint => exact RelationEdit.edits h
  | createIndex => exact RelationEdit.edits h
  | dropIndex => exact RelationEdit.edits h
  | renameIndex => exact RelationEdit.edits h
  | updateRelationStoragePath => exact RelationEdit.edits h
  | createAggregate | createCollation | createFunction =>
      obtain ⟨-, -, rfl⟩ := h
      exact .single (.other _ _ rfl rfl)
  | alterAggregate | alterCollation | alterFunction =>
      obtain ⟨_, _, -, -, -, rfl⟩ := h
      exact .single (.other _ _ rfl rfl)
  | createConversion | dropFunction =>
      obtain ⟨-, rfl⟩ := h
      exact .single (.other _ _ rfl rfl)
  | alterConversion =>
      obtain ⟨_, -, rfl⟩ := h
      exact .single (.other _ _ rfl rfl)
  | createUser name password =>
      obtain ⟨_, _, -, -, rfl⟩ := h
      exact .single (.other _ _ rfl rfl)
  | rotateUserPassword | resetAdminPassword =>
      obtain ⟨_, _, rfl⟩ := h
      exact .single (.other _ _ rfl rfl)
  | dropUser name ifExists =>
      obtain ⟨-, -, -, rfl⟩ := h
      exact .single (.other _ _ rfl rfl)
  | createGroup name =>
      obtain ⟨-, -, rfl⟩ := h
      exact .single (.other _ _ rfl rfl)
  | alterGroup name operation =>
      cases operation with
      | addUser userName =>
          obtain ⟨_, -, -, rfl⟩ := h
          exact .single (.other _ _ rfl rfl)
      | dropUser userName =>
          obtain ⟨_, -, -, rfl⟩ := h
          exact .single (.other _ _ rfl rfl)
      | rename newName =>
          obtain ⟨_, -, -, -, rfl⟩ := h
          exact .single (.other _ _ rfl rfl)
  | dropGroup name ifExists =>
      obtain ⟨_, -, -, rfl⟩ := h
      exact .single (.other _ _ rfl rfl)
  | setStoragePolicy | registerNode | clearComputeNodes | updateClusterConfig =>
      cases h
      exact .single (.other _ _ rfl rfl)
  | joinCluster requestedNodeId advertiseHost =>
      obtain ⟨_, _, _, rfl⟩ := h
      exact .single (.other _ _ rfl rfl)
  | setTlsPaths | setJwtSecret | setStorageRoot => cases h

/-- What an operation does quietly is made of edits. -/
theorem ControlOp.Quiet.edits {state state' : CatalogState} {op : ControlOp}
    (h : op.Quiet state state') :
  Edits state state'
  := by
  cases op with
  | alterDatabase name operation =>
      cases operation with
      | rename newName => exact RenamesDatabase.edits h
      | ownerTo newOwner => cases h
      | setParam parameter value => cases h
  | setTlsPaths | setJwtSecret | setStorageRoot =>
      obtain ⟨_, rfl⟩ := h
      exact .single (.other _ _ rfl rfl)
  | _ => cases h

/-- What a failing operation leaves is made of edits. -/
theorem ControlOp.Spoil.edits {o : Outside} {session : SessionContext} {w : World}
    {state' : CatalogState} {op : ControlOp} (h : op.Spoil session o w state') :
  Edits w.catalog state'
  := by
  cases op with
  | alterDatabase name operation =>
      cases operation with
      | rename newName => exact RenamesDatabase.edits h.1
      | ownerTo newOwner => cases h
      | setParam parameter value => cases h
  | alterAggregate | alterCollation | alterFunction =>
      obtain ⟨-, _, -, ⟨_, -, rfl⟩ | ⟨_, -, -, rfl⟩⟩ := h
      · exact .single (.other _ _ rfl rfl)
      · exact .single (.other _ _ rfl rfl)
  | _ => cases h

/-- An operation whose effects are made of edits leads on. -/
theorem Performs.leads {α : Type} {o : Outside} {effect quiet spoil : CatalogState → Prop}
    {m : Op α} {w : World} (hm : Performs o effect quiet spoil m w)
    (heffect : ∀ state, effect state → Edits w.catalog state)
    (hquiet : ∀ state, quiet state → Edits w.catalog state)
    (hspoil : ∀ state, spoil state → Edits w.catalog state) :
  Leads m w
  := by
  apply After.mono hm
  rintro r w' ⟨hpermissions, houtcome⟩
  refine ⟨?_, hpermissions⟩
  cases houtcome with
  | same hcatalog _ =>
      rw [hcatalog]
  | saved state hstate hcatalog _ =>
      rw [hcatalog]
      exact (heffect state hstate).tail (.bump state)
  | unsaved state hstate hcatalog _ _ =>
      rw [hcatalog]
      exact (heffect state hstate).tail (.bump state)
  | quiet hstate _ _ => exact hquiet _ hstate
  | spoiled hstate _ => exact hspoil _ hstate

/-- Every operation of the control plane leaves the catalogue with finitely many edits
made. -/
theorem performOp_leads (o : Outside) (session : SessionContext) (w : World) (op : ControlOp) :
  Leads (performOp o session op) w
  := by
  apply (performOp_performs o session w op).leads
  · intro state h
    exact h.edits
  · intro state h
    exact h.edits
  · intro state h
    exact h.edits
