import AnalyticsDB.Storage.Location

/-!
# Databases and schemas

The operations of the control plane on databases and schemas.  Dropping or renaming one of
them moves or removes every relation whose key starts with its dotted name.
-/

inductive AlterDatabaseOperation where
  | rename (newName : String)
  | ownerTo (newOwner : String)
  | setParam (name value : String)

/-- Move the relation stored under `key`, its fields changed by `f`, to its new key. -/
def moveRelation (f : CatalogRelation → CatalogRelation) (newKey : CatalogRelation → String)
    (relations : KeyMap CatalogRelation) (key : String) : KeyMap CatalogRelation :=
  match relations[key]? with
  | none => relations
  | some relation => (relations.erase key).insert (newKey (f relation)) (f relation)

/-- Move every relation whose key starts with `start`, in key order. -/
def moveRelations (start : String) (f : CatalogRelation → CatalogRelation)
    (newKey : CatalogRelation → String) (relations : KeyMap CatalogRelation) :
    KeyMap CatalogRelation :=
  (relations.keys.filter (startsWith · start)).foldl (moveRelation f newKey) relations

/-- Remove every relation whose key starts with `start`. -/
def removeRelations (start : String) (relations : KeyMap CatalogRelation) :
    KeyMap CatalogRelation :=
  relations.filter (fun key _ => !startsWith key start)

/-- The dotted name of a database, which starts the keys of its relations. -/
def databaseStart (database : String) : String := database ++ "."

/-- The dotted name of a schema, which starts the keys of its relations. -/
def schemaStart (database schema : String) : String := database ++ "." ++ schema ++ "."

/-- The objects after those below `old` moved below `new`. -/
def moveDirectory (old new : OPath) (store : ObjectStore) : ObjectStore :=
  (store.below old).foldl
    (fun store entry => (store.erase entry.1).insert (new ++ entry.1.drop old.length) entry.2)
    store

section

variable (o : Outside)

/-- Rename a local directory.  Renaming onto a directory that holds anything fails. -/
def renameDirectory (old new : OPath) : Op Unit := do
  let n ← outsideCall
  match o.storeError n with
  | some _ => bail "Failed to rename database directory"
  | none =>
    let w ← get
    if (w.store.below new).isEmpty then
      set { w with store := moveDirectory old new w.store }
    else
      bail "Failed to rename database directory: Directory not empty"

def createDatabase (session : SessionContext) (name : String) : Op String := do
  orBail (validateIdentifier name)
  let state ← readState
  orBail (validateSession state session)
  if !userIsAdmin state session.user then
    bail "Only administrators can create databases"
  if state.databases.contains name then
    bail s!"Database '{name}' already exists"
  writeState (fun state => { state with
    databases := state.databases.insert name
      { name := name, schemas := {"public"}, owner := session.user, parameters := ∅ } })
  persist o
  return s!"Database '{name}' created successfully."

/-- The catalogue after a database is renamed: its entry and its relations move. -/
def renameDatabaseState (name newName : String) (database : CatalogDatabase)
    (state : CatalogState) : CatalogState :=
  { state with
    databases := (state.databases.erase name).insert newName { database with name := newName }
    relations := moveRelations (databaseStart name) (fun r => { r with database := newName })
      (fun r => relationKey r.database r.schema r.name) state.relations }

/-- The local directory beside the file of the catalogue.  A path that no location denotes holds
no table. -/
def databasesRoot : Option OPath :=
  o.catalogPath.bind (fun catalogPath =>
    (storeForLocation o (managedRootOfCatalog catalogPath)).toOption)

/-- Rename the local directory of a database, when the catalogue has a file and the
directory holds anything. -/
def renameDatabaseDirectory (name newName : String) : Op Unit := do
  match databasesRoot o with
  | none => pure ()
  | some root =>
    let w ← get
    if !(w.store.below (root ++ [s!"db={name}"])).isEmpty then
      renameDirectory o (root ++ [s!"db={name}"]) (root ++ [s!"db={newName}"])

def alterDatabase (session : SessionContext) (name : String)
    (operation : AlterDatabaseOperation) : Op String := do
  orBail (validateIdentifier name)
  let state ← readState
  orBail (validateSession state session)
  if !userIsAdmin state session.user then
    bail "Only administrators can alter databases"
  match operation with
  | .rename newName =>
    orBail (validateIdentifier newName)
    if state.databases.contains newName then
      bail s!"Database '{newName}' already exists"
    match state.databases[name]? with
    | none => throw (.panic "called `Option::unwrap()` on a `None` value")
    | some database =>
      writeState (renameDatabaseState name newName database)
      renameDatabaseDirectory o name newName
      persistState o
      return s!"Database '{name}' renamed to '{newName}' successfully."
  | .ownerTo newOwner =>
    if !state.users.contains newOwner then
      bail s!"User '{newOwner}' does not exist"
    if !state.databases.contains name then
      bail s!"Database '{name}' does not exist"
    writeState (fun state => { state with
      databases := state.databases.modify name (fun d => { d with owner := newOwner }) })
    persist o
    return s!"ALTER DATABASE completed for '{name}'."
  | .setParam parameter value =>
    if !state.databases.contains name then
      bail s!"Database '{name}' does not exist"
    writeState (fun state => { state with
      databases := state.databases.modify name
        (fun d => { d with parameters := d.parameters.insert parameter value }) })
    persist o
    return s!"ALTER DATABASE completed for '{name}'."

def dropDatabase (session : SessionContext) (name : String) (ifExists : Bool) : Op String := do
  orBail (validateIdentifier name)
  let state ← readState
  orBail (validateSession state session)
  if !userIsAdmin state session.user then
    bail "Only administrators can drop databases"
  if name = "postgres" then
    bail "Cannot drop the default 'postgres' database"
  if state.databases.contains name then
    writeState (fun state => { state with
      databases := state.databases.erase name
      relations := removeRelations (databaseStart name) state.relations })
    persist o
    return s!"Database '{name}' dropped successfully."
  else if ifExists then
    return s!"Database '{name}' does not exist, skipping."
  else
    bail s!"Database '{name}' not found"

def createSchema (session : SessionContext) (database : Option String) (schemaName : String) :
    Op String := do
  orBail (validateIdentifier schemaName)
  let databaseName := database.getD session.database
  let state ← readState
  orBail (validateSession state session)
  match state.databases[databaseName]? with
  | none => bail s!"Unknown database '{databaseName}'"
  | some entry =>
    if entry.schemas.contains schemaName then
      bail s!"Schema '{databaseName}.{schemaName}' already exists"
    writeState (fun state => { state with
      databases := state.databases.modify databaseName
        (fun d => { d with schemas := d.schemas.insert schemaName }) })
    persist o
    return s!"Schema '{databaseName}.{schemaName}' created successfully."

def renameSchema (session : SessionContext) (database : Option String)
    (name newName : String) : Op String := do
  orBail (validateIdentifier newName)
  let databaseName := database.getD session.database
  let state ← readState
  orBail (validateSession state session)
  match state.databases[databaseName]? with
  | none => bail s!"Unknown database '{databaseName}'"
  | some entry =>
    if !entry.schemas.contains name then
      bail s!"Schema '{databaseName}.{name}' not found"
    if entry.schemas.contains newName then
      bail s!"Schema '{databaseName}.{newName}' already exists"
    writeState (fun state => { state with
      databases := state.databases.modify databaseName
        (fun d => { d with schemas := (d.schemas.erase name).insert newName })
      relations := moveRelations (schemaStart databaseName name)
        (fun r => { r with schema := newName })
        (fun r => schemaStart databaseName newName ++ r.name) state.relations })
    persist o
    return s!"Schema '{databaseName}.{name}' renamed to '{newName}' successfully."

def dropSchema (session : SessionContext) (database : Option String) (name : String)
    (ifExists cascade : Bool) : Op String := do
  orBail (validateIdentifier name)
  let databaseName := database.getD session.database
  let state ← readState
  orBail (validateSession state session)
  if name = "public" ∨ name = "pg_catalog" ∨ name = "information_schema" then
    bail s!"Cannot drop system schema '{name}'"
  match state.databases[databaseName]? with
  | none => bail s!"Unknown database '{databaseName}'"
  | some entry =>
    if entry.schemas.contains name then
      if state.relations.keys.any (startsWith · (schemaStart databaseName name)) && !cascade then
        bail s!"Schema '{databaseName}.{name}' is not empty and CASCADE was not specified"
      writeState (fun state => { state with
        databases := state.databases.modify databaseName
          (fun d => { d with schemas := d.schemas.erase name })
        relations := removeRelations (schemaStart databaseName name) state.relations })
      persist o
      return s!"Schema '{databaseName}.{name}' dropped successfully."
    else if ifExists then
      return s!"Schema '{databaseName}.{name}' does not exist, skipping."
    else
      bail s!"Schema '{databaseName}.{name}' not found"

end
