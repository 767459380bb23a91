import AnalyticsDB.Control.Accounts
import AnalyticsDB.Control.Databases
import AnalyticsDB.Control.Relations
import AnalyticsDB.Control.Objects
import AnalyticsDB.Control.Cluster
import Mathlib.Logic.Relation

/-!
# What the operations do to the catalogue

The operations of the control plane as data, and what each of them can do: how it changes the
catalogue, which version it leaves and publishes, and what it leaves behind when it fails.
Everything proved about whole runs of operations is derived from this.
-/

/-- The operations of the control plane that change the catalogue. -/
inductive ControlOp where
  | createDatabase (name : String)
  | alterDatabase (name : String) (operation : AlterDatabaseOperation)
  | dropDatabase (name : String) (ifExists : Bool)
  | createSchema (database : Option String) (schemaName : String)
  | renameSchema (database : Option String) (name newName : String)
  | dropSchema (database : Option String) (name : String) (ifExists cascade : Bool)
  | registerView (database schema : Option String) (viewName definitionSql : String)
      (columns : List CatalogColumn)
  | registerManagedTable (database schema : Option String) (tableName storageUri : String)
      (columns : List CatalogColumn) (constraints : List CatalogTableConstraint)
  | registerExternalTable (database schema : Option String) (tableName location : String)
      (format : ExternalStorageFormat) (columns : List CatalogColumn)
  | renameRelation (database schema : Option String) (name newName : String)
  | dropRelation (database schema : Option String) (name : String) (kind : CatalogRelationKind)
      (ifExists : Bool)
  | addColumn (database schema : Option String) (tableName : String) (column : CatalogColumn)
  | dropColumn (database schema : Option String) (tableName columnName : String)
      (ifExists : Bool)
  | renameColumn (database schema : Option String) (tableName oldName newName : String)
  | alterColumn (database schema : Option String) (tableName columnName : String)
      (operation : AlterColumnOperation)
  | addConstraint (database schema : Option String) (tableName : String)
      (constraint : CatalogTableConstraint)
  | dropConstraint (database schema : Option String) (tableName constraintName : String)
      (ifExists cascade : Bool)
  | createIndex (database schema : Option String) (table name : String)
      (columns : List String) (unique : Bool)
  | dropIndex (database schema : Option String) (name : String) (ifExists : Bool)
  | renameIndex (database schema : Option String) (tableName oldName newName : String)
  | updateRelationStoragePath (database schema : Option String) (name newStoragePath : String)
  | createAggregate (database schema : Option String) (name : String)
  | alterAggregate (database schema : Option String) (name : String)
      (operation : AlterObjectOperation)
  | createCollation (database schema : Option String) (name : String)
  | alterCollation (database schema : Option String) (name : String)
      (operation : AlterObjectOperation)
  | createConversion (database schema : Option String) (name : String)
  | alterConversion (database schema : Option String) (name : String)
      (operation : AlterObjectOperation)
  | createFunction (database schema : Option String) (name : String) (orReplace : Bool)
      (definitionSql : String)
  | alterFunction (database schema : Option String) (name : String)
      (operation : AlterObjectOperation)
  | dropFunction (database schema : Option String) (name : String) (ifExists : Bool)
  | createUser (name : String) (password : Option String)
  | rotateUserPassword (userName password : String)
  | dropUser (name : String) (ifExists : Bool)
  | createGroup (name : String)
  | alterGroup (name : String) (operation : AlterGroupOperation)
  | dropGroup (name : String) (ifExists : Bool)
  | resetAdminPassword (authenticatingUser authenticatingPassword : String)
  | setStoragePolicy (policy : StoragePolicy)
  | registerNode (node : ClusterNode)
  | clearComputeNodes
  | joinCluster (requestedNodeId advertiseHost : Option String)
  | setTlsPaths (certPath keyPath : Option String)
  | setJwtSecret (jwtSecret : Option String)
  | setStorageRoot (storageRoot : Option String)
  | updateClusterConfig (config : ClusterConfig)

/-- Perform an operation of the control plane in a session, its answer reduced to a message. -/
def performOp (o : Outside) (session : SessionContext) : ControlOp → Op String
  | .createDatabase name => createDatabase o session name
  | .alterDatabase name operation => alterDatabase o session name operation
  | .dropDatabase name ifExists => dropDatabase o session name ifExists
  | .createSchema database schemaName => createSchema o session database schemaName
  | .renameSchema database name newName => renameSchema o session database name newName
  | .dropSchema database name ifExists cascade =>
      dropSchema o session database name ifExists cascade
  | .registerView database schema viewName definitionSql columns =>
      registerView o session database schema viewName definitionSql columns
  | .registerManagedTable database schema tableName storageUri columns constraints =>
      registerManagedTable o session database schema tableName storageUri columns constraints
  | .registerExternalTable database schema tableName location format columns =>
      registerExternalTable o session database schema tableName location format columns
  | .renameRelation database schema name newName =>
      renameRelation o session database schema name newName
  | .dropRelation database schema name kind ifExists =>
      dropRelation o session database schema name kind ifExists
  | .addColumn database schema tableName column =>
      addColumn o session database schema tableName column
  | .dropColumn database schema tableName columnName ifExists =>
      dropColumn o session database schema tableName columnName ifExists
  | .renameColumn database schema tableName oldName newName =>
      renameColumn o session database schema tableName oldName newName
  | .alterColumn database schema tableName columnName operation =>
      alterColumn o session database schema tableName columnName operation
  | .addConstraint database schema tableName constraint =>
      addConstraint o session database schema tableName constraint
  | .dropConstraint database schema tableName constraintName ifExists cascade =>
      dropConstraint o session database schema tableName constraintName ifExists cascade
  | .createIndex database schema table name columns unique =>
      createIndex o session database schema table name columns unique
  | .dropIndex database schema name ifExists =>
      dropIndex o session database schema name ifExists
  | .renameIndex database schema tableName oldName newName =>
      renameIndex o session database schema tableName oldName newName
  | .updateRelationStoragePath database schema name newStoragePath =>
      updateRelationStoragePath o session database schema name newStoragePath
  | .createAggregate database schema name => createAggregate o session database schema name
  | .alterAggregate database schema name operation =>
      alterAggregate o session database schema name operation
  | .createCollation database schema name => createCollation o session database schema name
  | .alterCollation database schema name operation =>
      alterCollation o session database schema name operation
  | .createConversion database schema name => createConversion o session database schema name
  | .alterConversion database schema name operation =>
      alterConversion o session database schema name operation
  | .createFunction database schema name orReplace definitionSql =>
      createFunction o session database schema name orReplace definitionSql
  | .alterFunction database schema name operation =>
      alterFunction o session database schema name operation
  | .dropFunction database schema name ifExists =>
      dropFunction o session database schema name ifExists
  | .createUser name password => createUser o session name password
  | .rotateUserPassword userName password => rotateUserPassword o session userName password
  | .dropUser name ifExists => dropUser o session name ifExists
  | .createGroup name => createGroup o session name
  | .alterGroup name operation => alterGroup o session name operation
  | .dropGroup name ifExists => dropGroup o session name ifExists
  | .resetAdminPassword authenticatingUser authenticatingPassword =>
      resetAdminPassword o authenticatingUser authenticatingPassword
  | .setStoragePolicy policy => do
      setStoragePolicy o policy
      return ""
  | .registerNode node => do
      registerNode o node
      return ""
  | .clearComputeNodes => do
      clearComputeNodes o
      return ""
  | .joinCluster requestedNodeId advertiseHost => do
      let response ← joinCluster o requestedNodeId advertiseHost
      return response.nodeId
  | .setTlsPaths certPath keyPath => do
      setTlsPaths certPath keyPath
      return ""
  | .setJwtSecret jwtSecret => do
      setJwtSecret jwtSecret
      return ""
  | .setStorageRoot storageRoot => do
      setStorageRoot storageRoot
      return ""
  | .updateClusterConfig config => do
      updateClusterConfig o config
      return ""

/-- Two entries that name the same relation: the same database, schema and name. -/
structure CatalogRelation.SameName (r r' : CatalogRelation) : Prop where
  database : r'.database = r.database
  schema : r'.schema = r.schema
  name : r'.name = r.name

/-- An edit of the relations that keeps their keys and their names. -/
inductive RelationEdit : CatalogState → CatalogState → Prop
  | edit (state : CatalogState) (key : String) (relation edited : CatalogRelation)
      (hold : state.relations[key]? = some relation) (hsame : relation.SameName edited) :
      RelationEdit state { state with relations := state.relations.insert key edited }
  | map (state : CatalogState) (f : String → CatalogRelation → CatalogRelation)
      (hf : ∀ key (relation : CatalogRelation), relation.SameName (f key relation)) :
      RelationEdit state { state with relations := state.relations.map f }

/-- A new relation is stored, its schema being there and its key free. -/
def AddsRelation (state state' : CatalogState) : Prop :=
  ∃ (relation : CatalogRelation) (database : CatalogDatabase),
    validateIdentifier relation.name = .ok ()
      ∧ state.databases[relation.database]? = some database
      ∧ database.schemas.contains relation.schema = true
      ∧ state' = { state with
        relations := state.relations.insert
          (relationKey relation.database relation.schema relation.name) relation }

namespace ObjectKind

variable {β : Type} (kind : ObjectKind β) (state : CatalogState)

/-- A new entry is stored. -/
def Creates (key name : String) (replace : Bool) (entry : β) (state' : CatalogState) : Prop :=
  validateIdentifier name = .ok ()
    ∧ ((kind.entries state).contains key = true → replace = true)
    ∧ state' = kind.setEntries ((kind.entries state).insert key entry) state

/-- An alteration collides with another entry. -/
def Collides (key : String) (altered : β) : Prop :=
  kind.keyOf altered ≠ key ∧ ((kind.entries state).erase key).contains (kind.keyOf altered) = true

/-- The entry of a key is altered, and stored under its new key. -/
def Alters (key : String) (operation : AlterObjectOperation) (state' : CatalogState) : Prop :=
  ∃ entry altered, (kind.entries state)[key]? = some entry
    ∧ kind.altered state entry operation = .ok altered
    ∧ ¬ kind.Collides state key altered
    ∧ state' = kind.setEntries
        (((kind.entries state).erase key).insert (kind.keyOf altered) altered) state

/-- What a rejected alteration leaves: the entry is gone, or stored altered under its old key. -/
def Spoils (session : SessionContext) (key : String) (operation : AlterObjectOperation)
    (state' : CatalogState) : Prop :=
  validateSession state session = .ok () ∧ ∃ entry, (kind.entries state)[key]? = some entry
    ∧ ((∃ message, kind.altered state entry operation = .error message
          ∧ state' = kind.setEntries ((kind.entries state).erase key) state)
      ∨ ∃ altered, kind.altered state entry operation = .ok altered
          ∧ kind.Collides state key altered
          ∧ state' = kind.setEntries (((kind.entries state).erase key).insert key altered) state)

end ObjectKind

/-- A database is renamed, its new name being free. -/
def RenamesDatabase (state : CatalogState) (name newName : String) (state' : CatalogState) : Prop :=
  ∃ database, validateIdentifier name = .ok () ∧ validateIdentifier newName = .ok ()
    ∧ state.databases[name]? = some database ∧ state.databases.contains newName = false
    ∧ state' = renameDatabaseState name newName database state

/-- Renaming the local directory of a database fails. -/
def DirectoryStays (o : Outside) (name newName : String) (w : World) : Prop :=
  ∃ root, databasesRoot o = some root
    ∧ w.store.below (root ++ [s!"db={name}"]) ≠ []
    ∧ (o.storeError w.calls ≠ none ∨ w.store.below (root ++ [s!"db={newName}"]) ≠ [])

namespace ControlOp

variable (session : SessionContext) (state : CatalogState)

/-- The catalogue an operation makes of another and persists, the version apart. -/
def Effect : ControlOp → CatalogState → Prop
  | createDatabase name, state' =>
    validateIdentifier name = .ok () ∧ state.databases.contains name = false
      ∧ state' = { state with
        databases := state.databases.insert name
          { name := name, schemas := {"public"}, owner := session.user, parameters := ∅ } }
  | alterDatabase _ (.rename _), _ => False
  | alterDatabase name (.ownerTo newOwner), state' =>
    state' = { state with
      databases := state.databases.modify name (fun d => { d with owner := newOwner }) }
  | alterDatabase name (.setParam parameter value), state' =>
    state' = { state with
      databases := state.databases.modify name
        (fun d => { d with parameters := d.parameters.insert parameter value }) }
  | dropDatabase name _, state' =>
    validateIdentifier name = .ok () ∧ name ≠ "postgres"
      ∧ state' = { state with
        databases := state.databases.erase name
        relations := removeRelations (databaseStart name) state.relations }
  | createSchema database schemaName, state' =>
    validateIdentifier schemaName = .ok ()
      ∧ state' = { state with
        databases := state.databases.modify (database.getD session.database)
          (fun d => { d with schemas := d.schemas.insert schemaName }) }
  | renameSchema database name newName, state' =>
    ∃ entry, validateIdentifier newName = .ok ()
      ∧ state.databases[database.getD session.database]? = some entry
      ∧ entry.schemas.contains name = true ∧ entry.schemas.contains newName = false
      ∧ state' = { state with
        databases := state.databases.modify (database.getD session.database)
          (fun d => { d with schemas := (d.schemas.erase name).insert newName })
        relations := moveRelations (schemaStart (database.getD session.database) name)
          (fun r => { r with schema := newName })
          (fun r => schemaStart (database.getD session.database) newName ++ r.name)
          state.relations }
  | dropSchema database name _ _, state' =>
    validateIdentifier name = .ok () ∧ name ≠ "public"
      ∧ state' = { state with
        databases := state.databases.modify (database.getD session.database)
          (fun d => { d with schemas := d.schemas.erase name })
        relations := removeRelations (schemaStart (database.getD session.database) name)
          state.relations }
  | registerView .., state' | registerManagedTable .., state' | registerExternalTable .., state' =>
    AddsRelation state state'
  | renameRelation database schema name newName, state' =>
    ∃ relation, validateIdentifier newName = .ok ()
      ∧ state.relations[relationKey (database.getD session.database) (schema.getD session.schema)
        name]? = some relation
      ∧ state' = { state with
        relations := (state.relations.erase (relationKey (database.getD session.database)
            (schema.getD session.schema) name)).insert
          (relationKey (database.getD session.database) (schema.getD session.schema) newName)
          { relation with name := newName } }
  | dropRelation database schema name _ _, state' =>
    state' = { state with
      relations := state.relations.erase (relationKey (database.getD session.database)
        (schema.getD session.schema) name) }
  | addColumn .., state' | dropColumn .., state' | renameColumn .., state' | alterColumn .., state'
  | addConstraint .., state' | dropConstraint .., state' | createIndex .., state'
  | dropIndex .., state' | renameIndex .., state' | updateRelationStoragePath .., state' =>
    Relation.ReflTransGen RelationEdit state state'
  | createAggregate database schema name, state' =>
    aggregateKind.Creates state (objectKey session database schema name) name false
      { database := database.getD session.database, schema := schema.getD session.schema
        name := name, owner := session.user } state'
  | alterAggregate database schema name operation, state' =>
    aggregateKind.Alters state (objectKey session database schema name) operation state'
  | createCollation database schema name, state' =>
    collationKind.Creates state (objectKey session database schema name) name false
      { database := database.getD session.database, schema := schema.getD session.schema
        name := name } state'
  | alterCollation database schema name operation, state' =>
    collationKind.Alters state (objectKey session database schema name) operation state'
  | createConversion database schema name, state' =>
    validateIdentifier name = .ok ()
      ∧ state' = { state with
        conversions := state.conversions.insert (objectKey session database schema name)
          { database := database.getD session.database, schema := schema.getD session.schema
            name := name } }
  | alterConversion database schema name operation, state' =>
    ∃ conversion, state.conversions[objectKey session database schema name]? = some conversion
      ∧ state' = { state with
        conversions := (state.conversions.erase (objectKey session database schema name)).insert
          (relationKey (conversion.altered operation).database
            (conversion.altered operation).schema (conversion.altered operation).name)
          (conversion.altered operation) }
  | createFunction database schema name orReplace definitionSql, state' =>
    functionKind.Creates state (objectKey session database schema name) name orReplace
      { database := database.getD session.database, schema := schema.getD session.schema
        name := name, owner := session.user, definitionSql := definitionSql } state'
  | alterFunction database schema name operation, state' =>
    functionKind.Alters state (objectKey session database schema name) operation state'
  | dropFunction database schema name _, state' =>
    state.functions.contains (objectKey session database schema name) = true
      ∧ state' = { state with
        functions := state.functions.erase (objectKey session database schema name) }
  | createUser name _, state' =>
    ∃ credentials now, validateIdentifier name = .ok () ∧ state.users.contains name = false
      ∧ state' = { state with
        users := state.users.insert name (CatalogUser.new name false credentials (some now)) }
  | rotateUserPassword userName _, state' =>
    ∃ credentials now, state' = { state with
      users := state.users.modify userName (CatalogUser.rotate credentials now) }
  | dropUser name _, state' =>
    name ≠ "postgres" ∧ name ≠ session.user ∧ state.users.contains name = true
      ∧ state' = { state with users := state.users.erase name }
  | createGroup name, state' =>
    validateIdentifier name = .ok () ∧ state.users.contains name = false
      ∧ state' = { state with
        users := state.users.insert name (CatalogUser.new name false none none) }
  | alterGroup name (.addUser userName), state' =>
    ∃ group, state.users[name]? = some group ∧ state.users.contains userName = true
      ∧ state' = { state with
        users := state.users.insert name
          { group with
            members := group.members.insert userName } }
  | alterGroup name (.dropUser userName), state' =>
    ∃ group, state.users[name]? = some group ∧ group.members.contains userName = true
      ∧ state' = { state with
        users := state.users.insert name
          { group with
            members := group.members.erase userName } }
  | alterGroup name (.rename newName), state' =>
    ∃ group, state.users[name]? = some group ∧ validateIdentifier newName = .ok ()
      ∧ state.users.contains newName = false
      ∧ state' = { state with
        users := (state.users.erase name).insert newName
          { group with
            name := newName } }
  | dropGroup name _, state' =>
    ∃ group : CatalogUser, state.users[name]? = some group ∧ group.members.isEmpty = true
      ∧ state' = { state with users := state.users.erase name }
  | resetAdminPassword _ _, state' =>
    ∃ credentials now, state' = { state with
      users := state.users.modify PRIMARY_ADMIN_USER (CatalogUser.rotate credentials now) }
  | setStoragePolicy policy, state' =>
    state' = { state with
      storagePolicies := state.storagePolicies.insert
        (relationKey policy.database policy.schema policy.tableName) policy }
  | registerNode node, state' =>
    state' = { state with nodes := state.nodes.insert node.id node }
  | clearComputeNodes, state' =>
    state' = { state with nodes := state.nodes.filter (fun _ node => node.role ≠ .compute) }
  | joinCluster .., state' =>
    ∃ config nodeId node, state' = { state with
      config := some config
      nodes := state.nodes.insert nodeId node }
  | setTlsPaths .., _ | setJwtSecret _, _ | setStorageRoot _, _ => False
  | updateClusterConfig config, state' => state' = { state with config := some config }

/-- The catalogue an operation makes of another without bumping the version. -/
def Quiet : ControlOp → CatalogState → Prop
  | alterDatabase name (.rename newName), state' => RenamesDatabase state name newName state'
  | setTlsPaths .., state' | setJwtSecret _, state' | setStorageRoot _, state' =>
    ∃ config, state' = { state with config := config }
  | _, _ => False

/-- The catalogue an operation that fails leaves behind. -/
def Spoil (o : Outside) (w : World) : ControlOp → CatalogState → Prop
  | alterDatabase name (.rename newName), state' =>
    RenamesDatabase w.catalog name newName state' ∧ DirectoryStays o name newName w
  | alterAggregate database schema name operation, state' =>
    aggregateKind.Spoils w.catalog session (objectKey session database schema name) operation
      state'
  | alterCollation database schema name operation, state' =>
    collationKind.Spoils w.catalog session (objectKey session database schema name) operation
      state'
  | alterFunction database schema name operation, state' =>
    functionKind.Spoils w.catalog session (objectKey session database schema name) operation
      state'
  | _, _ => False

end ControlOp

/-! ### How an operation ends -/

open Eff

/-- Some write of the catalogue to its file fails. -/
def Outside.SaveFails (o : Outside) : Prop := ∃ call message, o.saveError call = some message

/-- How an operation ends that found a catalogue and a published version: it changed nothing; or
it made its effect, bumped the version, and published it unless the catalogue could not be
written; or it changed the catalogue without bumping the version; or it failed and left something
else behind. -/
inductive Outcome {α : Type} (o : Outside) (catalog : CatalogState) (published : Nat)
    (effect quiet spoil : CatalogState → Prop) : Except Failure α → World → Prop
  | same {r : Except Failure α} {w' : World} : w'.catalog = catalog → w'.published = published →
      Outcome o catalog published effect quiet spoil r w'
  | saved {a : α} {w' : World} (state : CatalogState) : effect state → w'.catalog = state.bump →
      w'.published = state.bump.catalogueVersion →
      Outcome o catalog published effect quiet spoil (.ok a) w'
  | unsaved {e : Failure} {w' : World} (state : CatalogState) : effect state →
      w'.catalog = state.bump → w'.published = published → o.SaveFails →
      Outcome o catalog published effect quiet spoil (.error e) w'
  | quiet {r : Except Failure α} {w' : World} : quiet w'.catalog → w'.published = published →
      (∀ e, r = .error e → o.SaveFails) →
      Outcome o catalog published effect quiet spoil r w'
  | spoiled {e : Failure} {w' : World} : spoil w'.catalog → w'.published = published →
      Outcome o catalog published effect quiet spoil (.error e) w'

/-- An operation ends in one of these ways and does not change the granted privileges. -/
def Performs {α : Type} (o : Outside) (effect quiet spoil : CatalogState → Prop) (m : Op α)
    (w : World) : Prop :=
  After m w (fun r w' => w'.permissions = w.permissions
    ∧ Outcome o w.catalog w.published effect quiet spoil r w')

/-- An operation that performs some effects performs weaker ones. -/
theorem Performs.mono {α : Type} {o : Outside} {effect quiet spoil : CatalogState → Prop}
    {effect' quiet' spoil' : CatalogState → Prop} {m : Op α} {w : World}
    (hm : Performs o effect quiet spoil m w) (heffect : ∀ state, effect state → effect' state)
    (hquiet : ∀ state, quiet state → quiet' state)
    (hspoil : ∀ state, spoil state → spoil' state) :
  Performs o effect' quiet' spoil' m w
  := by
  apply After.mono hm
  rintro r w' ⟨hpermissions, houtcome⟩
  refine ⟨hpermissions, ?_⟩
  cases houtcome with
  | same hcatalog hpublished => exact .same hcatalog hpublished
  | saved state hstate hcatalog hpublished =>
      exact .saved state (heffect state hstate) hcatalog hpublished
  | unsaved state hstate hcatalog hpublished hfails =>
      exact .unsaved state (heffect state hstate) hcatalog hpublished hfails
  | quiet hstate hpublished hfails => exact .quiet (hquiet _ hstate) hpublished hfails
  | spoiled hstate hpublished => exact .spoiled (hspoil _ hstate) hpublished

/-- A property of catalogues that no effect, quiet change or spoiled remainder of an operation
breaks, nor the bumping of the version, holds after the operation. -/
theorem Performs.keeps {α : Type} {o : Outside} {effect quiet spoil : CatalogState → Prop}
    {m : Op α} {w : World} (hm : Performs o effect quiet spoil m w) {P : CatalogState → Prop}
    (hP : P w.catalog) (hbump : ∀ state, P state → P state.bump)
    (heffect : ∀ state, effect state → P state) (hquiet : ∀ state, quiet state → P state)
    (hspoil : ∀ state, spoil state → P state) :
  After m w (fun _ w' => P w'.catalog)
  := by
  apply After.mono hm
  rintro r w' ⟨-, houtcome⟩
  cases houtcome with
  | same hcatalog _ =>
      rw [hcatalog]
      exact hP
  | saved state hstate hcatalog _ =>
      rw [hcatalog]
      exact hbump state (heffect state hstate)
  | unsaved state hstate hcatalog _ _ =>
      rw [hcatalog]
      exact hbump state (heffect state hstate)
  | quiet hstate _ _ => exact hquiet _ hstate
  | spoiled hstate _ => exact hspoil _ hstate

section

variable {α β : Type} {o : Outside} {effect quiet spoil : CatalogState → Prop} {w : World}

theorem performs_bail (message : String) :
  Performs o effect quiet spoil (bail message : Op α) w
  := ⟨rfl, .same rfl rfl⟩

theorem performs_bail_bind (message : String) (f : α → Op β) :
  Performs o effect quiet spoil (bail message >>= f) w
  := ⟨rfl, .same rfl rfl⟩

theorem performs_pure (a : α) :
  Performs o effect quiet spoil (pure a : Op α) w
  := ⟨rfl, .same rfl rfl⟩

theorem performs_orBail (x : Except String α) (f : α → Op β) :
  Performs o effect quiet spoil (orBail x >>= f) w
    ↔ ∀ a, x = .ok a → Performs o effect quiet spoil (f a) w
  := by
  cases x with
  | ok a => simp [Performs, orBail]
  | error message =>
      simp only [reduceCtorEq, false_implies, implies_true, iff_true]
      apply performs_bail_bind

theorem performs_readState (f : CatalogState → Op α) :
  Performs o effect quiet spoil (readState >>= f) w
    ↔ Performs o effect quiet spoil (f w.catalog) w
  := Iff.rfl

theorem performs_outsideCall (f : Nat → Op α) :
  Performs o effect quiet spoil (outsideCall >>= f) w
    ↔ Performs o effect quiet spoil (f w.calls) { w with calls := w.calls + 1 }
  := Iff.rfl

theorem performs_ite (c : Prop) [Decidable c] (m n : Op α) :
  Performs o effect quiet spoil (if c then m else n) w
    ↔ (c → Performs o effect quiet spoil m w) ∧ (¬ c → Performs o effect quiet spoil n w)
  := after_ite c m n w _

/-- What comes before an operation and leaves catalogue, version and privileges as they are does
not matter. -/
theorem performs_after {m : Op α} {f : α → Op β}
    (hm : After m w (fun _ w' => w'.catalog = w.catalog ∧ w'.published = w.published
      ∧ w'.permissions = w.permissions))
    (hf : ∀ a w', w'.catalog = w.catalog → Performs o effect quiet spoil (f a) w') :
  Performs o effect quiet spoil (m >>= f) w
  := by
  rw [Performs, after_bind]
  apply After.mono hm
  rintro r w' ⟨hcatalog, hpublished, hpermissions⟩
  cases r with
  | error e => exact ⟨hpermissions, .same hcatalog hpublished⟩
  | ok a =>
      rw [resume_ok]
      have hrest := hf a w' hcatalog
      rw [Performs, hcatalog, hpublished, hpermissions] at hrest
      exact hrest

@[simp]
theorem Outside.afterSave_published (o : Outside) (w : World) :
  (o.afterSave w).published = w.published
  := by
  unfold Outside.afterSave
  split
  · rfl
  · rfl

/-- A write that fails is one of those that fail. -/
theorem Outside.saveFails_of_saved {o : Outside} {call : Nat} {e : Failure}
    (h : o.saved call = .error e) :
  o.SaveFails
  := by
  unfold Outside.saved at h
  split at h
  · rename_i message _ hmessage
    exact ⟨call, _, hmessage⟩
  · cases h

/-- Changing the catalogue and persisting it makes the change. -/
theorem performs_write (f : CatalogState → CatalogState) (heffect : effect (f w.catalog)) :
  Performs o effect quiet spoil (writeState f >>= fun _ => persist o) w
  := by
  rw [Performs, after_bind, after_writeState, resume_ok, after_persist]
  cases hsaved : o.saved w.calls with
  | ok _ =>
      refine ⟨?_, .saved (f w.catalog) heffect ?_ rfl⟩
      · simp
      · simp
  | error e =>
      refine ⟨?_, .unsaved (f w.catalog) heffect ?_ ?_ (Outside.saveFails_of_saved hsaved)⟩
      · simp
      · simp
      · simp

/-- What comes after an operation and only makes an answer of what it returns does not matter. -/
theorem performs_map {m : Op α} {f : α → β} (hm : Performs o effect quiet spoil m w) :
  Performs o effect quiet spoil (m >>= fun a => pure (f a)) w
  := by
  rw [Performs, after_bind]
  apply After.mono hm
  rintro r w' ⟨hpermissions, houtcome⟩
  cases r with
  | error e =>
      refine ⟨hpermissions, ?_⟩
      cases houtcome with
      | same hcatalog hpublished => exact .same hcatalog hpublished
      | unsaved state heffect hcatalog hpublished hfails =>
          exact .unsaved state heffect hcatalog hpublished hfails
      | quiet hquiet hpublished hfails =>
          exact .quiet hquiet hpublished (fun _ _ => hfails e rfl)
      | spoiled hspoil hpublished => exact .spoiled hspoil hpublished
  | ok a =>
      refine ⟨hpermissions, ?_⟩
      cases houtcome with
      | same hcatalog hpublished => exact .same hcatalog hpublished
      | saved state heffect hcatalog hpublished => exact .saved state heffect hcatalog hpublished
      | quiet hquiet hpublished hfails =>
          refine .quiet hquiet hpublished ?_
          intro e he
          cases he

theorem performs_persist (f : CatalogState → CatalogState) (a : α)
    (heffect : effect (f w.catalog)) :
  Performs o effect quiet spoil (writeState f >>= fun _ => persist o >>= fun _ => pure a) w
  := by
  rw [← bind_assoc]
  apply performs_map
  apply performs_write f heffect

end

/-! ### What each operation does -/

section

variable {quiet spoil : CatalogState → Prop} (o : Outside) (session : SessionContext) (w : World)

theorem createDatabase_performs (name : String) :
  Performs o (ControlOp.Effect session w.catalog (.createDatabase name)) quiet spoil
    (createDatabase o session name) w
  := by
  simp only [createDatabase, performs_orBail, performs_readState, performs_ite,
    performs_bail_bind, implies_true, true_and, Bool.not_eq_true]
  intro _ hname _ _ _ hnew
  apply performs_persist
  exact ⟨hname, hnew, rfl⟩

/-- Renaming the directory of a database does not change the catalogue, and fails only when the
directory stays. -/
theorem after_renameDatabaseDirectory (name newName : String) :
  After (renameDatabaseDirectory o name newName) w (fun r w' =>
    w'.catalog = w.catalog ∧ w'.published = w.published ∧ w'.permissions = w.permissions
      ∧ ((∃ e, r = .error e) ↔ DirectoryStays o name newName w))
  := by
  unfold renameDatabaseDirectory renameDirectory
  cases hroot : databasesRoot o with
  | none => simp [DirectoryStays, hroot]
  | some root =>
      simp only [after_bind, resume_ok, after_get, after_ite, after_pure, after_outsideCall]
      constructor
      · intro hexists
        rw [Bool.not_eq_true', List.isEmpty_eq_false_iff] at hexists
        cases hfault : o.storeError w.calls with
        | some e => simp [DirectoryStays, hroot, hexists, hfault]
        | none =>
            simp only [after_bind, after_get, resume_ok, after_ite, after_bail]
            constructor
            · intro hempty
              rw [List.isEmpty_iff] at hempty
              refine ⟨rfl, rfl, rfl, ?_⟩
              simp [DirectoryStays, hroot, hfault, hempty]
            · intro hempty
              rw [List.isEmpty_iff] at hempty
              simp [DirectoryStays, hroot, hexists, hfault, hempty]
      · intro hmissing
        rw [Bool.not_eq_true', Bool.not_eq_false, List.isEmpty_iff] at hmissing
        simp [DirectoryStays, hroot, hmissing]

theorem alterDatabase_performs (name : String) (operation : AlterDatabaseOperation) :
  Performs o (ControlOp.Effect session w.catalog (.alterDatabase name operation))
    (ControlOp.Quiet w.catalog (.alterDatabase name operation))
    (ControlOp.Spoil session o w (.alterDatabase name operation))
    (alterDatabase o session name operation) w
  := by
  simp only [alterDatabase, performs_orBail, performs_readState, performs_ite,
    performs_bail_bind, implies_true, true_and, Bool.not_eq_true]
  intro _ hname _ _ _
  cases operation with
  | rename newName =>
      simp only [performs_orBail, performs_ite, performs_bail_bind, implies_true, true_and,
        Bool.not_eq_true]
      intro _ hnewName hnew
      cases hold : w.catalog.databases[name]? with
      | none => exact ⟨rfl, .same rfl rfl⟩
      | some database =>
          have hrenames : RenamesDatabase w.catalog name newName
              (renameDatabaseState name newName database w.catalog) :=
            ⟨database, hname, hnewName, hold, hnew, rfl⟩
          rw [Performs, after_bind, after_writeState, resume_ok, after_bind]
          apply After.mono (after_renameDatabaseDirectory o _ name newName)
          rintro r w' ⟨hcatalog, hpublished, hpermissions, hstays⟩
          cases r with
          | error e =>
              refine ⟨hpermissions, .spoiled ⟨?_, hstays.mp ⟨e, rfl⟩⟩ hpublished⟩
              rwa [hcatalog]
          | ok _ =>
              have hquiet : ControlOp.Quiet w.catalog (.alterDatabase name (.rename newName))
                  (o.afterSave w').catalog := by
                rw [Outside.afterSave_catalog, hcatalog]
                exact hrenames
              rw [resume_ok, after_bind, after_persistState]
              cases hsaved : o.saved w'.calls with
              | ok _ =>
                  refine ⟨?_, .quiet hquiet ?_ ?_⟩
                  · simpa using hpermissions
                  · simpa using hpublished
                  · intro e he
                    cases he
              | error e =>
                  refine ⟨?_, .quiet hquiet ?_ ?_⟩
                  · simpa using hpermissions
                  · simpa using hpublished
                  · intro _ _
                    exact Outside.saveFails_of_saved hsaved
  | ownerTo newOwner =>
      simp only [performs_ite, performs_bail_bind, implies_true, true_and]
      intro _ _
      apply performs_persist
      rfl
  | setParam parameter value =>
      simp only [performs_ite, performs_bail_bind, implies_true, true_and]
      intro _
      apply performs_persist
      rfl

theorem dropDatabase_performs (name : String) (ifExists : Bool) :
  Performs o (ControlOp.Effect session w.catalog (.dropDatabase name ifExists)) quiet spoil
    (dropDatabase o session name ifExists) w
  := by
  simp only [dropDatabase, performs_orBail, performs_readState, performs_ite,
    performs_bail_bind, performs_bail, performs_pure, implies_true, true_and, and_true]
  intro _ hname _ _ _ hpostgres _
  apply performs_persist
  exact ⟨hname, hpostgres, rfl⟩

theorem createSchema_performs (database : Option String) (schemaName : String) :
  Performs o (ControlOp.Effect session w.catalog (.createSchema database schemaName)) quiet spoil
    (createSchema o session database schemaName) w
  := by
  simp only [createSchema, performs_orBail, performs_readState]
  intro _ hname _ _
  cases w.catalog.databases[database.getD session.database]? with
  | none => apply performs_bail
  | some entry =>
      simp only [performs_ite, performs_bail_bind, implies_true, true_and]
      intro _
      apply performs_persist
      exact ⟨hname, rfl⟩

theorem renameSchema_performs (database : Option String) (name newName : String) :
  Performs o (ControlOp.Effect session w.catalog (.renameSchema database name newName)) quiet spoil
    (renameSchema o session database name newName) w
  := by
  simp only [renameSchema, performs_orBail, performs_readState]
  intro _ hnewName _ _
  cases hdatabase : w.catalog.databases[database.getD session.database]? with
  | none => apply performs_bail
  | some entry =>
      simp only [performs_ite, performs_bail_bind, implies_true, true_and, Bool.not_eq_true,
        Bool.not_eq_false']
      intro hold hnew
      apply performs_persist
      exact ⟨entry, hnewName, hdatabase, hold, hnew, rfl⟩

theorem dropSchema_performs (database : Option String) (name : String) (ifExists cascade : Bool) :
  Performs o (ControlOp.Effect session w.catalog (.dropSchema database name ifExists cascade))
    quiet spoil (dropSchema o session database name ifExists cascade) w
  := by
  simp only [dropSchema, performs_orBail, performs_readState, performs_ite, performs_bail_bind,
    implies_true, true_and]
  intro _ hname _ _ hsystem
  cases w.catalog.databases[database.getD session.database]? with
  | none => apply performs_bail
  | some entry =>
      simp only [performs_ite, performs_bail_bind, performs_bail, performs_pure, implies_true,
        true_and, and_true]
      intro _ _
      apply performs_persist
      exact ⟨hname, fun h => hsystem (.inl h), rfl⟩

theorem registerRelation_performs (relation : CatalogRelation) (message : String) :
  Performs o (AddsRelation w.catalog) quiet spoil (registerRelation o session relation message) w
  := by
  simp only [registerRelation, performs_orBail, performs_readState]
  intro _ hname _ _
  cases hdatabase : w.catalog.databases[relation.database]? with
  | none => apply performs_bail
  | some database =>
      simp only [performs_ite, performs_bail_bind, implies_true, true_and, Bool.not_eq_true,
        Bool.not_eq_false']
      intro hschema _
      apply performs_persist
      exact ⟨relation, database, hname, hdatabase, hschema, rfl⟩

theorem renameRelation_performs (database schema : Option String) (name newName : String) :
  Performs o (ControlOp.Effect session w.catalog (.renameRelation database schema name newName))
    quiet spoil (renameRelation o session database schema name newName) w
  := by
  simp only [renameRelation, performs_orBail, performs_readState]
  intro _ hnewName _ _
  cases hold : w.catalog.relations[relationKey (database.getD session.database)
      (schema.getD session.schema) name]? with
  | none => apply performs_bail
  | some relation =>
      simp only [performs_ite, performs_bail_bind, implies_true, true_and]
      intro _
      apply performs_persist
      exact ⟨relation, hnewName, hold, rfl⟩

theorem dropRelation_performs (database schema : Option String) (name : String)
    (kind : CatalogRelationKind) (ifExists : Bool) :
  Performs o (ControlOp.Effect session w.catalog (.dropRelation database schema name kind ifExists))
    quiet spoil (dropRelation o session database schema name kind ifExists) w
  := by
  simp only [dropRelation, performs_orBail, performs_readState]
  intro _ _
  cases w.catalog.relations[relationKey (database.getD session.database)
      (schema.getD session.schema) name]? with
  | none =>
      simp only [performs_ite, performs_pure, performs_bail, implies_true, and_self]
  | some relation =>
      simp only [performs_ite, performs_bail_bind, implies_true, true_and]
      intro _
      apply performs_persist
      rfl

/-- An edit of a relation that keeps its name. -/
theorem editRelation_performs (key notFound : String)
    (edit : CatalogState → CatalogRelation → Except String CatalogRelation) (message : String)
    (hedit : ∀ state relation edited, edit state relation = .ok edited →
      relation.SameName edited) :
  Performs o (Relation.ReflTransGen RelationEdit w.catalog) quiet spoil
    (editRelation o session key notFound edit message) w
  := by
  simp only [editRelation, performs_readState, performs_orBail]
  intro _ _
  cases hold : w.catalog.relations[key]? with
  | none => apply performs_bail
  | some relation =>
      simp only [performs_orBail]
      intro edited hedited
      apply performs_persist
      exact .single (.edit _ key relation edited hold (hedit _ _ _ hedited))

/-- A check that throws is passed when the result is a value. -/
theorem ite_throw_bind_eq_ok {c : Prop} [Decidable c] {α β : Type} {e : String}
    {f : α → Except String β} {x : Except String β} {b : β} :
  (if c then (throw e : Except String α) >>= f else x) = .ok b ↔ ¬ c ∧ x = .ok b
  := by
  by_cases hc : c
  · simp only [hc, if_true, not_true, false_and, iff_false]
    intro h
    cases h
  · simp only [hc, if_false, not_false_iff, true_and]

theorem addColumn_performs (database schema : Option String) (tableName : String)
    (column : CatalogColumn) :
  Performs o (Relation.ReflTransGen RelationEdit w.catalog) quiet spoil
    (addColumn o session database schema tableName column) w
  := by
  apply editRelation_performs
  intro state relation edited h
  obtain ⟨_, _, ⟨⟩⟩ := by simpa only [ite_throw_bind_eq_ok] using h
  exact ⟨rfl, rfl, rfl⟩

theorem dropColumn_performs (database schema : Option String) (tableName columnName : String)
    (ifExists : Bool) :
  Performs o (Relation.ReflTransGen RelationEdit w.catalog) quiet spoil
    (dropColumn o session database schema tableName columnName ifExists) w
  := by
  apply editRelation_performs
  intro state relation edited h
  split at h
  · cases h
    exact ⟨rfl, rfl, rfl⟩
  · split at h
    · cases h
      exact ⟨rfl, rfl, rfl⟩
    · cases h

theorem renameColumn_performs (database schema : Option String)
    (tableName oldName newName : String) :
  Performs o (Relation.ReflTransGen RelationEdit w.catalog) quiet spoil
    (renameColumn o session database schema tableName oldName newName) w
  := by
  rw [renameColumn, performs_orBail]
  intro _ _
  apply editRelation_performs
  intro state relation edited h
  obtain ⟨_, _, ⟨⟩⟩ := by simpa only [ite_throw_bind_eq_ok] using h
  exact ⟨rfl, rfl, rfl⟩

theorem alterColumn_performs (database schema : Option String) (tableName columnName : String)
    (operation : AlterColumnOperation) :
  Performs o (Relation.ReflTransGen RelationEdit w.catalog) quiet spoil
    (alterColumn o session database schema tableName columnName operation) w
  := by
  apply editRelation_performs
  intro state relation edited h
  obtain ⟨_, ⟨⟩⟩ := by simpa only [ite_throw_bind_eq_ok] using h
  exact ⟨rfl, rfl, rfl⟩

theorem createIndex_performs (database schema : Option String) (table name : String)
    (columns : List String) (unique : Bool) :
  Performs o (Relation.ReflTransGen RelationEdit w.catalog) quiet spoil
    (createIndex o session database schema table name columns unique) w
  := by
  apply editRelation_performs
  intro state relation edited h
  split at h
  · cases h
  · cases h
    exact ⟨rfl, rfl, rfl⟩

theorem renameIndex_performs (database schema : Option String)
    (tableName oldName newName : String) :
  Performs o (Relation.ReflTransGen RelationEdit w.catalog) quiet spoil
    (renameIndex o session database schema tableName oldName newName) w
  := by
  rw [renameIndex, performs_orBail]
  intro _ _
  apply editRelation_performs
  intro state relation edited h
  obtain ⟨_, _, ⟨⟩⟩ := by simpa only [ite_throw_bind_eq_ok] using h
  exact ⟨rfl, rfl, rfl⟩

theorem updateRelationStoragePath_performs (database schema : Option String)
    (name newStoragePath : String) :
  Performs o (Relation.ReflTransGen RelationEdit w.catalog) quiet spoil
    (updateRelationStoragePath o session database schema name newStoragePath) w
  := by
  apply editRelation_performs
  intro state relation edited h
  cases h
  exact ⟨rfl, rfl, rfl⟩

/-- Adding a constraint edits the table and keeps its name. -/
theorem buildRelationWithCatalogConstraint_ok {state : CatalogState}
    {databaseName schemaName tableName : String} {constraint : CatalogTableConstraint}
    {preview : CatalogRelation}
    (h : buildRelationWithCatalogConstraint state databaseName schemaName tableName constraint
      = .ok preview) :
  ∃ relation, state.relations[relationKey databaseName schemaName tableName]? = some relation
    ∧ relation.SameName preview
  := by
  unfold buildRelationWithCatalogConstraint at h
  cases hold : state.relations[relationKey databaseName schemaName tableName]? with
  | none =>
      simp only [hold] at h
      cases h
  | some relation =>
      use relation
      simp only [hold, ite_throw_bind_eq_ok] at h
      obtain ⟨_, _, _, h⟩ := h
      constructor
      · rfl
      · split at h
        · cases h
          exact ⟨rfl, rfl, rfl⟩
        · cases h
          exact ⟨rfl, rfl, rfl⟩

/-- Dropping a constraint edits the table and keeps its name. -/
theorem buildRelationWithDroppedConstraint_ok {state : CatalogState}
    {databaseName schemaName tableName constraintName : String} {cascade : Bool}
    {preview : CatalogRelation}
    (h : buildRelationWithDroppedConstraint state databaseName schemaName tableName
      constraintName cascade = .ok preview) :
  ∃ relation, state.relations[relationKey databaseName schemaName tableName]? = some relation
    ∧ relation.SameName preview
  := by
  unfold buildRelationWithDroppedConstraint at h
  cases hold : state.relations[relationKey databaseName schemaName tableName]? with
  | none =>
      simp only [hold] at h
      cases h
  | some relation =>
      use relation
      simp only [hold, ite_throw_bind_eq_ok] at h
      obtain ⟨_, _, _, ⟨⟩⟩ := h
      exact ⟨rfl, ⟨rfl, rfl, rfl⟩⟩

theorem addConstraint_performs (database schema : Option String) (tableName : String)
    (constraint : CatalogTableConstraint) :
  Performs o (Relation.ReflTransGen RelationEdit w.catalog) quiet spoil
    (addConstraint o session database schema tableName constraint) w
  := by
  simp only [addConstraint, performs_orBail, performs_readState]
  intro _ _ preview hpreview
  obtain ⟨relation, hold, hsame⟩ := buildRelationWithCatalogConstraint_ok hpreview
  apply performs_persist
  exact .single (.edit _ _ relation preview hold hsame)

theorem dropConstraint_performs (database schema : Option String)
    (tableName constraintName : String) (ifExists cascade : Bool) :
  Performs o (Relation.ReflTransGen RelationEdit w.catalog) quiet spoil
    (dropConstraint o session database schema tableName constraintName ifExists cascade) w
  := by
  simp only [dropConstraint, performs_orBail, performs_readState]
  intro _ _
  split
  · simp only [performs_ite, performs_pure, performs_bail, implies_true, and_self]
  · rename_i preview hpreview
    obtain ⟨relation, hold, hsame⟩ := buildRelationWithDroppedConstraint_ok hpreview
    have hedit := RelationEdit.edit w.catalog _ relation preview hold hsame
    cases cascade with
    | false =>
        simp only [Bool.false_eq_true, if_false]
        apply performs_persist
        exact .single hedit
    | true =>
        -- the cascade is a second edit, made before the catalogue is persisted
        have hcascade := (Relation.ReflTransGen.single hedit).tail (.map _ (fun otherKey other =>
          if otherKey = relationKey (database.getD session.database)
            (schema.getD session.schema) tableName then other
          else dropForeignKeysTo (database.getD session.database) (schema.getD session.schema)
            tableName other) (fun key relation => by split <;> exact ⟨rfl, rfl, rfl⟩))
        simp only [if_true]
        exact performs_persist (fun state => { state with
            relations := (state.relations.insert _ preview).map _ }) _ hcascade

/-- The index is dropped from the relation that has it. -/
theorem dropIndex_performs (database schema : Option String) (name : String) (ifExists : Bool) :
  Performs o (Relation.ReflTransGen RelationEdit w.catalog) quiet spoil
    (dropIndex o session database schema name ifExists) w
  := by
  simp only [dropIndex, performs_orBail, performs_readState]
  intro _ _
  split
  · simp only [performs_ite, performs_pure, performs_bail, implies_true, and_self]
  · rename_i key relation hfound
    have hmem := List.mem_of_find?_eq_some hfound
    simp only [performs_ite, performs_bail_bind, implies_true, true_and]
    intro _
    apply performs_persist
    exact .single (.edit _ _ relation _
      (Std.ExtTreeMap.mem_toList_iff_getElem?_eq_some.mp hmem) ⟨rfl, rfl, rfl⟩)

theorem ObjectKind.create_performs {β : Type} (kind : ObjectKind β) (key name : String)
    (replace : Bool) (entry : β) :
  Performs o (kind.Creates w.catalog key name replace entry) quiet spoil
    (kind.create o session key name replace entry) w
  := by
  simp only [ObjectKind.create, performs_orBail, performs_readState, performs_ite,
    performs_bail_bind, implies_true, true_and, Bool.and_eq_true, Bool.not_eq_true', not_and]
  intro _ hname _ _ hreplace
  apply performs_persist
  refine ⟨hname, ?_, rfl⟩
  intro hcontains
  exact Bool.not_eq_false _ ▸ hreplace hcontains

theorem ObjectKind.alter_performs {β : Type} (kind : ObjectKind β) (key : String)
    (operation : AlterObjectOperation) :
  Performs o (kind.Alters w.catalog key operation) quiet
    (kind.Spoils w.catalog session key operation) (kind.alter o session key operation) w
  := by
  simp only [ObjectKind.alter, performs_readState, performs_orBail]
  intro _ hsession
  cases hentry : (kind.entries w.catalog)[key]? with
  | none => apply performs_bail
  | some entry =>
      rw [Performs, after_bind, after_writeState, resume_ok, after_bind, after_orBail]
      constructor
      · intro message hmessage
        refine ⟨rfl, .spoiled ⟨hsession, entry, hentry, .inl ⟨message, hmessage, rfl⟩⟩ rfl⟩
      · intro altered haltered
        rw [resume_ok, after_ite]
        constructor
        · intro hcollides
          rw [after_bind, after_writeState, resume_ok]
          refine ⟨rfl, .spoiled ⟨hsession, entry, hentry, .inr ⟨altered, haltered, hcollides, ?_⟩⟩
            rfl⟩
          apply kind.setEntries_setEntries
        · intro hfree
          have heffect : kind.Alters w.catalog key operation (kind.setEntries
              (((kind.entries w.catalog).erase key).insert (kind.keyOf altered) altered)
              (kind.setEntries ((kind.entries w.catalog).erase key) w.catalog)) :=
            ⟨entry, altered, hentry, haltered, hfree, kind.setEntries_setEntries _ _ _⟩
          exact performs_persist (fun state => kind.setEntries
            (((kind.entries w.catalog).erase key).insert (kind.keyOf altered) altered)
            (kind.setEntries ((kind.entries w.catalog).erase key) state)) _ heffect

theorem createConversion_performs (database schema : Option String) (name : String) :
  Performs o (ControlOp.Effect session w.catalog (.createConversion database schema name)) quiet
    spoil (createConversion o session database schema name) w
  := by
  rw [createConversion, performs_orBail]
  intro _ hname
  apply performs_persist
  exact ⟨hname, rfl⟩

theorem alterConversion_performs (database schema : Option String) (name : String)
    (operation : AlterObjectOperation) :
  Performs o (ControlOp.Effect session w.catalog (.alterConversion database schema name operation))
    quiet spoil (alterConversion o session database schema name operation) w
  := by
  rw [alterConversion, performs_readState]
  cases hentry : w.catalog.conversions[objectKey session database schema name]? with
  | none => apply performs_bail
  | some conversion =>
      apply performs_persist
      exact ⟨conversion, hentry, rfl⟩

theorem dropFunction_performs (database schema : Option String) (name : String)
    (ifExists : Bool) :
  Performs o (ControlOp.Effect session w.catalog (.dropFunction database schema name ifExists))
    quiet spoil (dropFunction o session database schema name ifExists) w
  := by
  simp only [dropFunction, performs_readState, performs_orBail, performs_ite, performs_pure,
    performs_bail, implies_true, and_true]
  intro _ _ hcontains
  apply performs_persist
  exact ⟨hcontains, rfl⟩

/-- Hashing a password changes nothing. -/
theorem after_newCredentials (password : String) :
  After (newCredentials o password) w (fun _ w' => w'.catalog = w.catalog
    ∧ w'.published = w.published ∧ w'.permissions = w.permissions)
  := by
  simp only [newCredentials, after_bind, after_outsideCall, resume_ok, after_orBail,
    resume_error, after_pure, implies_true, and_self]

theorem after_optionalCredentials (password : Option String) :
  After (optionalCredentials o password) w (fun _ w' => w'.catalog = w.catalog
    ∧ w'.published = w.published ∧ w'.permissions = w.permissions)
  := by
  cases password with
  | none => exact ⟨rfl, rfl, rfl⟩
  | some password =>
      rw [optionalCredentials, after_bind]
      apply After.mono (after_newCredentials o w password)
      intro r w' h
      cases r with
      | ok credentials => exact h
      | error e => exact h

theorem createUser_performs (name : String) (password : Option String) :
  Performs o (ControlOp.Effect session w.catalog (.createUser name password)) quiet spoil
    (createUser o session name password) w
  := by
  rw [createUser, performs_orBail]
  intro _ hname
  apply performs_after (after_optionalCredentials o w password)
  intro credentials w' hcatalog
  simp only [performs_outsideCall, performs_readState, performs_orBail, performs_ite,
    performs_bail_bind, implies_true, true_and, Bool.not_eq_true, hcatalog]
  intro _ _ _ hnew
  apply performs_persist
  exact ⟨credentials, o.now w'.calls, hname, hnew, rfl⟩

theorem rotateUserPassword_performs (userName password : String) :
  Performs o (ControlOp.Effect session w.catalog (.rotateUserPassword userName password)) quiet
    spoil (rotateUserPassword o session userName password) w
  := by
  simp only [rotateUserPassword, performs_ite, performs_bail_bind, implies_true, true_and]
  intro _
  apply performs_after (after_newCredentials o w password)
  intro credentials w' hcatalog
  simp only [performs_outsideCall, performs_readState, performs_orBail, performs_ite,
    performs_bail_bind, implies_true, true_and]
  intro _ _ _ _
  apply performs_persist
  exact ⟨credentials, o.now w'.calls, by rw [hcatalog]⟩

theorem dropUser_performs (name : String) (ifExists : Bool) :
  Performs o (ControlOp.Effect session w.catalog (.dropUser name ifExists)) quiet spoil
    (dropUser o session name ifExists) w
  := by
  simp only [dropUser, performs_readState, performs_orBail, performs_ite, performs_bail_bind,
    performs_bail, performs_pure, implies_true, true_and, and_true]
  intro _ _ _ hpostgres hself hexists
  apply performs_persist
  exact ⟨hpostgres, hself, hexists, rfl⟩

theorem createGroup_performs (name : String) :
  Performs o (ControlOp.Effect session w.catalog (.createGroup name)) quiet spoil
    (createGroup o session name) w
  := by
  simp only [createGroup, performs_readState, performs_orBail, performs_ite, performs_bail_bind,
    implies_true, true_and, Bool.not_eq_true]
  intro _ hname _ _ _ hnew
  apply performs_persist
  exact ⟨hname, hnew, rfl⟩

theorem alterGroup_performs (name : String) (operation : AlterGroupOperation) :
  Performs o (ControlOp.Effect session w.catalog (.alterGroup name operation)) quiet spoil
    (alterGroup o session name operation) w
  := by
  simp only [alterGroup, performs_readState, performs_orBail, performs_ite, performs_bail_bind,
    implies_true, true_and]
  intro _ _ _
  cases hgroup : w.catalog.users[name]? with
  | none => apply performs_bail
  | some group =>
      cases operation with
      | addUser userName =>
          simp only [performs_ite, performs_bail_bind, implies_true, true_and, Bool.not_eq_true,
            Bool.not_eq_false']
          intro huser
          apply performs_persist
          exact ⟨group, hgroup, huser, rfl⟩
      | dropUser userName =>
          simp only [performs_ite, performs_bail_bind, implies_true, true_and, Bool.not_eq_true,
            Bool.not_eq_false']
          intro hmember
          apply performs_persist
          exact ⟨group, hgroup, hmember, rfl⟩
      | rename newName =>
          simp only [performs_orBail, performs_ite, performs_bail_bind, implies_true, true_and,
            Bool.not_eq_true]
          intro _ hnewName hnew
          apply performs_persist
          exact ⟨group, hgroup, hnewName, hnew, rfl⟩

theorem dropGroup_performs (name : String) (ifExists : Bool) :
  Performs o (ControlOp.Effect session w.catalog (.dropGroup name ifExists)) quiet spoil
    (dropGroup o session name ifExists) w
  := by
  simp only [dropGroup, performs_readState, performs_orBail, performs_ite, performs_bail_bind,
    implies_true, true_and]
  intro _ _ _
  cases hgroup : w.catalog.users[name]? with
  | none => simp only [performs_ite, performs_pure, performs_bail, implies_true, and_self]
  | some group =>
      simp only [performs_ite, performs_bail_bind, implies_true, true_and, Bool.not_eq_true,
        Bool.not_eq_false']
      intro hempty
      apply performs_persist
      exact ⟨group, hgroup, hempty, rfl⟩

theorem after_verifyAdminCredentials (user password : String) :
  After (verifyAdminCredentials o user password) w (fun _ w' => w'.catalog = w.catalog
    ∧ w'.published = w.published ∧ w'.permissions = w.permissions)
  := by
  rw [verifyAdminCredentials, after_bind, after_readState, resume_ok]
  split
  · exact ⟨rfl, rfl, rfl⟩
  · split
    · exact ⟨rfl, rfl, rfl⟩
    · simp only [after_ite, after_bind, after_bail, resume_error, after_pure, implies_true,
        and_self]

theorem resetAdminPassword_performs (user password : String) :
  Performs o (ControlOp.Effect session w.catalog (.resetAdminPassword user password)) quiet spoil
    (resetAdminPassword o user password) w
  := by
  apply performs_after (after_verifyAdminCredentials o w user password)
  intro _ w₁ hcatalog₁
  rw [performs_outsideCall]
  apply performs_after (after_newCredentials o _ _)
  intro credentials w₂ hcatalog₂
  have hcatalog : w₂.catalog = w.catalog := hcatalog₂.trans hcatalog₁
  simp only [performs_outsideCall, performs_readState, performs_ite, performs_bail_bind,
    implies_true, true_and]
  intro _
  apply performs_persist
  exact ⟨credentials, o.now w₂.calls, by rw [hcatalog]⟩

theorem joinCluster_performs (requestedNodeId advertiseHost : Option String) :
  Performs o (ControlOp.Effect session w.catalog (.joinCluster requestedNodeId advertiseHost))
    quiet spoil (joinCluster o requestedNodeId advertiseHost) w
  := by
  rw [joinCluster, performs_outsideCall, performs_readState]
  dsimp only
  split
  · apply performs_bail
  · apply performs_persist
    exact ⟨_, _, _, rfl⟩

/-- A change of the configuration in memory. -/
theorem setConfig_performs {effect : CatalogState → Prop} (f : ClusterConfig → ClusterConfig) :
  Performs o effect (fun state' => ∃ config, state' = { w.catalog with config := config }) spoil
    (setConfig f) w
  := by
  refine ⟨rfl, .quiet ⟨_, rfl⟩ rfl ?_⟩
  intro e he
  cases he

/-- Every operation of the control plane ends in one of these ways. -/
theorem performOp_performs (op : ControlOp) :
  Performs o (op.Effect session w.catalog) (op.Quiet w.catalog) (op.Spoil session o w)
    (performOp o session op) w
  := by
  cases op with
  | createDatabase name => apply createDatabase_performs
  | alterDatabase name operation => apply alterDatabase_performs
  | dropDatabase name ifExists => apply dropDatabase_performs
  | createSchema database schemaName => apply createSchema_performs
  | renameSchema database name newName => apply renameSchema_performs
  | dropSchema database name ifExists cascade => apply dropSchema_performs
  | registerView database schema viewName definitionSql columns =>
      apply registerRelation_performs
  | registerManagedTable database schema tableName storageUri columns constraints =>
      apply registerRelation_performs
  | registerExternalTable database schema tableName location format columns =>
      apply registerRelation_performs
  | renameRelation database schema name newName => apply renameRelation_performs
  | dropRelation database schema name kind ifExists => apply dropRelation_performs
  | addColumn database schema tableName column => apply addColumn_performs
  | dropColumn database schema tableName columnName ifExists => apply dropColumn_performs
  | renameColumn database schema tableName oldName newName => apply renameColumn_performs
  | alterColumn database schema tableName columnName operation => apply alterColumn_performs
  | addConstraint database schema tableName constraint => apply addConstraint_performs
  | dropConstraint database schema tableName constraintName ifExists cascade =>
      apply dropConstraint_performs
  | createIndex database schema table name columns unique => apply createIndex_performs
  | dropIndex database schema name ifExists => apply dropIndex_performs
  | renameIndex database schema tableName oldName newName => apply renameIndex_performs
  | updateRelationStoragePath database schema name newStoragePath =>
      apply updateRelationStoragePath_performs
  | createAggregate database schema name => apply aggregateKind.create_performs
  | alterAggregate database schema name operation => apply aggregateKind.alter_performs
  | createCollation database schema name => apply collationKind.create_performs
  | alterCollation database schema name operation => apply collationKind.alter_performs
  | createConversion database schema name => apply createConversion_performs
  | alterConversion database schema name operation => apply alterConversion_performs
  | createFunction database schema name orReplace definitionSql =>
      apply functionKind.create_performs
  | alterFunction database schema name operation => apply functionKind.alter_performs
  | dropFunction database schema name ifExists => apply dropFunction_performs
  | createUser name password => apply createUser_performs
  | rotateUserPassword userName password => apply rotateUserPassword_performs
  | dropUser name ifExists => apply dropUser_performs
  | createGroup name => apply createGroup_performs
  | alterGroup name operation => apply alterGroup_performs
  | dropGroup name ifExists => apply dropGroup_performs
  | resetAdminPassword user password => apply resetAdminPassword_performs
  | setStoragePolicy policy =>
      apply performs_map
      apply performs_write
      rfl
  | registerNode node =>
      apply performs_map
      apply performs_write
      rfl
  | clearComputeNodes =>
      apply performs_map
      apply performs_write
      rfl
  | joinCluster requestedNodeId advertiseHost =>
      apply performs_map
      apply joinCluster_performs
  | setTlsPaths certPath keyPath =>
      apply performs_map
      apply setConfig_performs
  | setJwtSecret jwtSecret =>
      apply performs_map
      apply setConfig_performs
  | setStorageRoot storageRoot =>
      apply performs_map
      apply setConfig_performs
  | updateClusterConfig config =>
      apply performs_map
      apply performs_write
      rfl

end

/-! ### What the effects leave as it is -/

/-- Edits of the relations change nothing else. -/
theorem RelationEdit.rest_eq {state state' : CatalogState}
    (h : Relation.ReflTransGen RelationEdit state state') :
  state' = { state with relations := state'.relations }
  := by
  induction h with
  | refl => rfl
  | tail _ hedit ih =>
      cases hedit with
      | edit key relation edited hold hsame => rw [ih]
      | map f hf => rw [ih]

/-- A new relation changes nothing else. -/
theorem AddsRelation.rest_eq {state state' : CatalogState} (h : AddsRelation state state') :
  state' = { state with relations := state'.relations }
  := by
  obtain ⟨relation, database, -, -, -, rfl⟩ := h
  rfl

/-- The operations on users and groups. -/
def ControlOp.onAccounts : ControlOp → Bool
  | createUser .. | rotateUserPassword .. | dropUser .. | createGroup _ | alterGroup ..
  | dropGroup .. | resetAdminPassword .. => true
  | _ => false

/-- The operations on databases and schemas. -/
def ControlOp.onDatabases : ControlOp → Bool
  | createDatabase _ | alterDatabase .. | dropDatabase .. | createSchema .. | renameSchema ..
  | dropSchema .. => true
  | _ => false

/-- An operation keeps the version, and the users and the databases unless it is on them. -/
structure ControlOp.KeepsRest (op : ControlOp) (state state' : CatalogState) : Prop where
  version_eq : state'.catalogueVersion = state.catalogueVersion
  users_eq : op.onAccounts = false → state'.users = state.users
  databases_eq : op.onDatabases = false → state'.databases = state.databases

/-- Operations on accounts do not keep the users, and those on databases not the databases. -/
theorem ControlOp.keepsRest_of_eq {op : ControlOp} {state state' : CatalogState}
    (hversion : state'.catalogueVersion = state.catalogueVersion)
    (husers : op.onAccounts = true ∨ state'.users = state.users)
    (hdatabases : op.onDatabases = true ∨ state'.databases = state.databases) :
  op.KeepsRest state state'
  := by
  refine ⟨hversion, ?_, ?_⟩
  · intro hop
    rw [hop] at husers
    simpa using husers
  · intro hop
    rw [hop] at hdatabases
    simpa using hdatabases

theorem ControlOp.Effect.rest {session : SessionContext} {state state' : CatalogState}
    {op : ControlOp} (h : op.Effect session state state') :
  op.KeepsRest state state'
  := by
  cases op with
  | createDatabase | dropDatabase | dropSchema =>
      obtain ⟨-, -, rfl⟩ := h
      exact keepsRest_of_eq rfl (.inr rfl) (.inl rfl)
  | alterDatabase name operation =>
      cases operation with
      | rename newName => cases h
      | ownerTo newOwner =>
          cases h
          exact keepsRest_of_eq rfl (.inr rfl) (.inl rfl)
      | setParam parameter value =>
          cases h
          exact keepsRest_of_eq rfl (.inr rfl) (.inl rfl)
  | createSchema =>
      obtain ⟨-, rfl⟩ := h
      exact keepsRest_of_eq rfl (.inr rfl) (.inl rfl)
  | renameSchema =>
      obtain ⟨_, -, -, -, -, rfl⟩ := h
      exact keepsRest_of_eq rfl (.inr rfl) (.inl rfl)
  | registerView | registerManagedTable | registerExternalTable =>
      rw [AddsRelation.rest_eq h]
      exact keepsRest_of_eq rfl (.inr rfl) (.inr rfl)
  | renameRelation =>
      obtain ⟨_, -, -, rfl⟩ := h
      exact keepsRest_of_eq rfl (.inr rfl) (.inr rfl)
  | addColumn | dropColumn | renameColumn | alterColumn | addConstraint | dropConstraint
  | createIndex | dropIndex | renameIndex | updateRelationStoragePath =>
      rw [RelationEdit.rest_eq h]
      exact keepsRest_of_eq rfl (.inr rfl) (.inr rfl)
  | createAggregate | createCollation | createFunction =>
      obtain ⟨-, -, rfl⟩ := h
      exact keepsRest_of_eq rfl (.inr rfl) (.inr rfl)
  | alterAggregate | alterCollation | alterFunction =>
      obtain ⟨_, _, -, -, -, rfl⟩ := h
      exact keepsRest_of_eq rfl (.inr rfl) (.inr rfl)
  | createConversion | dropFunction =>
      obtain ⟨-, rfl⟩ := h
      exact keepsRest_of_eq rfl (.inr rfl) (.inr rfl)
  | alterConversion =>
      obtain ⟨_, -, rfl⟩ := h
      exact keepsRest_of_eq rfl (.inr rfl) (.inr rfl)
  | createUser =>
      obtain ⟨_, _, -, -, rfl⟩ := h
      exact keepsRest_of_eq rfl (.inl rfl) (.inr rfl)
  | rotateUserPassword | resetAdminPassword =>
      obtain ⟨_, _, rfl⟩ := h
      exact keepsRest_of_eq rfl (.inl rfl) (.inr rfl)
  | dropUser =>
      obtain ⟨-, -, -, rfl⟩ := h
      exact keepsRest_of_eq rfl (.inl rfl) (.inr rfl)
  | createGroup =>
      obtain ⟨-, -, rfl⟩ := h
      exact keepsRest_of_eq rfl (.inl rfl) (.inr rfl)
  | alterGroup name operation =>
      cases operation with
      | addUser userName =>
          obtain ⟨_, -, -, rfl⟩ := h
          exact keepsRest_of_eq rfl (.inl rfl) (.inr rfl)
      | dropUser userName =>
          obtain ⟨_, -, -, rfl⟩ := h
          exact keepsRest_of_eq rfl (.inl rfl) (.inr rfl)
      | rename newName =>
          obtain ⟨_, -, -, -, rfl⟩ := h
          exact keepsRest_of_eq rfl (.inl rfl) (.inr rfl)
  | dropGroup =>
      obtain ⟨_, -, -, rfl⟩ := h
      exact keepsRest_of_eq rfl (.inl rfl) (.inr rfl)
  | dropRelation | setStoragePolicy | registerNode | clearComputeNodes | updateClusterConfig =>
      cases h
      exact keepsRest_of_eq rfl (.inr rfl) (.inr rfl)
  | joinCluster =>
      obtain ⟨_, _, _, rfl⟩ := h
      exact keepsRest_of_eq rfl (.inr rfl) (.inr rfl)
  | setTlsPaths | setJwtSecret | setStorageRoot => cases h

theorem ControlOp.Quiet.rest {state state' : CatalogState} {op : ControlOp}
    (h : op.Quiet state state') :
  op.KeepsRest state state' ∧ state'.users = state.users
  := by
  cases op with
  | alterDatabase name operation =>
      cases operation with
      | rename newName =>
          obtain ⟨_, -, -, -, -, rfl⟩ := h
          exact ⟨keepsRest_of_eq rfl (.inr rfl) (.inl rfl), rfl⟩
      | ownerTo newOwner => cases h
      | setParam parameter value => cases h
  | setTlsPaths | setJwtSecret | setStorageRoot =>
      obtain ⟨_, rfl⟩ := h
      exact ⟨keepsRest_of_eq rfl (.inr rfl) (.inr rfl), rfl⟩
  | _ => cases h

theorem ControlOp.Spoil.rest {o : Outside} {session : SessionContext} {w : World}
    {state' : CatalogState} {op : ControlOp} (h : op.Spoil session o w state') :
  op.KeepsRest w.catalog state' ∧ state'.users = w.catalog.users
  := by
  cases op with
  | alterDatabase name operation =>
      cases operation with
      | rename newName =>
          obtain ⟨⟨_, -, -, -, -, rfl⟩, -⟩ := h
          exact ⟨keepsRest_of_eq rfl (.inr rfl) (.inl rfl), rfl⟩
      | ownerTo newOwner => cases h
      | setParam parameter value => cases h
  | alterAggregate | alterCollation | alterFunction =>
      obtain ⟨-, _, -, ⟨_, -, rfl⟩ | ⟨_, -, -, rfl⟩⟩ := h
      · exact ⟨keepsRest_of_eq rfl (.inr rfl) (.inr rfl), rfl⟩
      · exact ⟨keepsRest_of_eq rfl (.inr rfl) (.inr rfl), rfl⟩
  | _ => cases h

/-- The operations that change the relations. -/
def ControlOp.onRelations : ControlOp → Bool
  | alterDatabase _ (.rename _) | dropDatabase .. | renameSchema .. | dropSchema ..
  | registerView .. | registerManagedTable .. | registerExternalTable .. | renameRelation ..
  | dropRelation .. | addColumn .. | dropColumn .. | renameColumn .. | alterColumn ..
  | addConstraint .. | dropConstraint .. | createIndex .. | dropIndex .. | renameIndex ..
  | updateRelationStoragePath .. => true
  | _ => false

/-- The operations on aggregates, collations, conversions and functions. -/
def ControlOp.onObjects : ControlOp → Bool
  | createAggregate .. | alterAggregate .. | createCollation .. | alterCollation ..
  | createConversion .. | alterConversion .. | createFunction .. | alterFunction ..
  | dropFunction .. => true
  | _ => false

/-- The aggregates, collations, conversions and functions are the same. -/
structure CatalogState.SameNamedObjects (state state' : CatalogState) : Prop where
  aggregates : state'.aggregates = state.aggregates
  collations : state'.collations = state.collations
  conversions : state'.conversions = state.conversions
  functions : state'.functions = state.functions

/-- An operation keeps the relations unless it is on them, and likewise the other objects of the
schemas. -/
structure ControlOp.KeepsMaps (op : ControlOp) (state state' : CatalogState) : Prop where
  relations_eq : op.onRelations = false → state'.relations = state.relations
  objects_eq : op.onObjects = false → state.SameNamedObjects state'

theorem ControlOp.keepsMaps_of_eq {op : ControlOp} {state state' : CatalogState}
    (hrelations : op.onRelations = true ∨ state'.relations = state.relations)
    (hobjects : op.onObjects = true ∨ state.SameNamedObjects state') :
  op.KeepsMaps state state'
  := by
  constructor
  · intro hop
    rw [hop] at hrelations
    simpa using hrelations
  · intro hop
    rw [hop] at hobjects
    simpa using hobjects

theorem ControlOp.Effect.maps {session : SessionContext} {state state' : CatalogState}
    {op : ControlOp} (h : op.Effect session state state') :
  op.KeepsMaps state state'
  := by
  cases op with
  | createDatabase =>
      obtain ⟨-, -, rfl⟩ := h
      exact keepsMaps_of_eq (.inr rfl) (.inr ⟨rfl, rfl, rfl, rfl⟩)
  | dropDatabase | dropSchema =>
      obtain ⟨-, -, rfl⟩ := h
      exact keepsMaps_of_eq (.inl rfl) (.inr ⟨rfl, rfl, rfl, rfl⟩)
  | alterDatabase name operation =>
      cases operation with
      | rename newName => cases h
      | ownerTo newOwner =>
          cases h
          exact keepsMaps_of_eq (.inr rfl) (.inr ⟨rfl, rfl, rfl, rfl⟩)
      | setParam parameter value =>
          cases h
          exact keepsMaps_of_eq (.inr rfl) (.inr ⟨rfl, rfl, rfl, rfl⟩)
  | createSchema =>
      obtain ⟨-, rfl⟩ := h
      exact keepsMaps_of_eq (.inr rfl) (.inr ⟨rfl, rfl, rfl, rfl⟩)
  | renameSchema =>
      obtain ⟨_, -, -, -, -, rfl⟩ := h
      exact keepsMaps_of_eq (.inl rfl) (.inr ⟨rfl, rfl, rfl, rfl⟩)
  | registerView | registerManagedTable | registerExternalTable =>
      rw [AddsRelation.rest_eq h]
      exact keepsMaps_of_eq (.inl rfl) (.inr ⟨rfl, rfl, rfl, rfl⟩)
  | renameRelation =>
      obtain ⟨_, -, -, rfl⟩ := h
      exact keepsMaps_of_eq (.inl rfl) (.inr ⟨rfl, rfl, rfl, rfl⟩)
  | dropRelation =>
      cases h
      exact keepsMaps_of_eq (.inl rfl) (.inr ⟨rfl, rfl, rfl, rfl⟩)
  | addColumn | dropColumn | renameColumn | alterColumn | addConstraint | dropConstraint
  | createIndex | dropIndex | renameIndex | updateRelationStoragePath =>
      rw [RelationEdit.rest_eq h]
      exact keepsMaps_of_eq (.inl rfl) (.inr ⟨rfl, rfl, rfl, rfl⟩)
  | createAggregate | createCollation | createFunction =>
      obtain ⟨-, -, rfl⟩ := h
      exact keepsMaps_of_eq (.inr rfl) (.inl rfl)
  | alterAggregate | alterCollation | alterFunction =>
      obtain ⟨_, _, -, -, -, rfl⟩ := h
      exact keepsMaps_of_eq (.inr rfl) (.inl rfl)
  | createConversion | dropFunction =>
      obtain ⟨-, rfl⟩ := h
      exact keepsMaps_of_eq (.inr rfl) (.inl rfl)
  | alterConversion =>
      obtain ⟨_, -, rfl⟩ := h
      exact keepsMaps_of_eq (.inr rfl) (.inl rfl)
  | createUser =>
      obtain ⟨_, _, -, -, rfl⟩ := h
      exact keepsMaps_of_eq (.inr rfl) (.inr ⟨rfl, rfl, rfl, rfl⟩)
  | rotateUserPassword | resetAdminPassword =>
      obtain ⟨_, _, rfl⟩ := h
      exact keepsMaps_of_eq (.inr rfl) (.inr ⟨rfl, rfl, rfl, rfl⟩)
  | dropUser =>
      obtain ⟨-, -, -, rfl⟩ := h
      exact keepsMaps_of_eq (.inr rfl) (.inr ⟨rfl, rfl, rfl, rfl⟩)
  | createGroup =>
      obtain ⟨-, -, rfl⟩ := h
      exact keepsMaps_of_eq (.inr rfl) (.inr ⟨rfl, rfl, rfl, rfl⟩)
  | alterGroup name operation =>
      cases operation with
      | addUser userName | dropUser userName =>
          obtain ⟨_, -, -, rfl⟩ := h
          exact keepsMaps_of_eq (.inr rfl) (.inr ⟨rfl, rfl, rfl, rfl⟩)
      | rename newName =>
          obtain ⟨_, -, -, -, rfl⟩ := h
          exact keepsMaps_of_eq (.inr rfl) (.inr ⟨rfl, rfl, rfl, rfl⟩)
  | dropGroup =>
      obtain ⟨_, -, -, rfl⟩ := h
      exact keepsMaps_of_eq (.inr rfl) (.inr ⟨rfl, rfl, rfl, rfl⟩)
  | setStoragePolicy | registerNode | clearComputeNodes | updateClusterConfig =>
      cases h
      exact keepsMaps_of_eq (.inr rfl) (.inr ⟨rfl, rfl, rfl, rfl⟩)
  | joinCluster =>
      obtain ⟨_, _, _, rfl⟩ := h
      exact keepsMaps_of_eq (.inr rfl) (.inr ⟨rfl, rfl, rfl, rfl⟩)
  | setTlsPaths | setJwtSecret | setStorageRoot => cases h

theorem ControlOp.Quiet.maps {state state' : CatalogState} {op : ControlOp}
    (h : op.Quiet state state') :
  op.KeepsMaps state state'
  := by
  cases op with
  | alterDatabase name operation =>
      cases operation with
      | rename newName =>
          obtain ⟨_, -, -, -, -, rfl⟩ := h
          exact keepsMaps_of_eq (.inl rfl) (.inr ⟨rfl, rfl, rfl, rfl⟩)
      | ownerTo newOwner => cases h
      | setParam parameter value => cases h
  | setTlsPaths | setJwtSecret | setStorageRoot =>
      obtain ⟨_, rfl⟩ := h
      exact keepsMaps_of_eq (.inr rfl) (.inr ⟨rfl, rfl, rfl, rfl⟩)
  | _ => cases h

theorem ControlOp.Spoil.maps {o : Outside} {session : SessionContext} {w : World}
    {state' : CatalogState} {op : ControlOp} (h : op.Spoil session o w state') :
  op.KeepsMaps w.catalog state'
  := by
  cases op with
  | alterDatabase name operation =>
      cases operation with
      | rename newName =>
          obtain ⟨⟨_, -, -, -, -, rfl⟩, -⟩ := h
          exact keepsMaps_of_eq (.inl rfl) (.inr ⟨rfl, rfl, rfl, rfl⟩)
      | ownerTo newOwner => cases h
      | setParam parameter value => cases h
  | alterAggregate | alterCollation | alterFunction =>
      obtain ⟨-, _, -, ⟨_, -, rfl⟩ | ⟨_, -, -, rfl⟩⟩ := h
      · exact keepsMaps_of_eq (.inr rfl) (.inl rfl)
      · exact keepsMaps_of_eq (.inr rfl) (.inl rfl)
  | _ => cases h

/-- A property of catalogues that no effect, quiet change or spoiled remainder of an operation
breaks holds after the operation. -/
theorem performOp_keeps (o : Outside) (session : SessionContext) (op : ControlOp) (w : World)
    {P : CatalogState → Prop} (hP : P w.catalog) (hbump : ∀ state, P state → P state.bump)
    (heffect : ∀ state, op.Effect session w.catalog state → P state)
    (hquiet : ∀ state, op.Quiet w.catalog state → P state)
    (hspoil : ∀ state, op.Spoil session o w state → P state) :
  After (performOp o session op) w (fun _ w' => P w'.catalog)
  := (performOp_performs o session w op).keeps hP hbump heffect hquiet hspoil
