import AnalyticsDB.Control.Basic

/-!
# Aggregates, collations, conversions and functions

The operations of the control plane on the objects of a schema that are not relations.  An
alteration takes the entry out of its map, makes its checks, and puts the altered entry back
under its new key.
-/

inductive AlterObjectOperation where
  | rename (newName : String)
  | ownerTo (newOwner : String)
  | setSchema (newSchema : String)
  deriving DecidableEq, Repr

/-- A kind of objects: its name in messages, the map of the catalogue that holds them, and the
fields of its entries.  Some kinds record no owner. -/
structure ObjectKind (β : Type) where
  label : String
  command : String
  entries : CatalogState → KeyMap β
  setEntries : KeyMap β → CatalogState → CatalogState
  database : β → String
  schema : β → String
  name : β → String
  setName : String → β → β
  setOwner : Option (String → β → β)
  setSchema : String → β → β
  entries_setEntries : ∀ es state, entries (setEntries es state) = es
  setEntries_setEntries : ∀ es es' state, setEntries es' (setEntries es state)
    = setEntries es' state
  setEntries_entries : ∀ state, setEntries (entries state) state = state

namespace ObjectKind

variable {β : Type} (kind : ObjectKind β) (o : Outside) (session : SessionContext)

/-- The key of an entry, by its own fields. -/
def keyOf (entry : β) : String :=
  relationKey (kind.database entry) (kind.schema entry) (kind.name entry)

/-- The entry an alteration makes, when the catalogue allows it. -/
def altered (state : CatalogState) (entry : β) : AlterObjectOperation → Except String β
  | .rename newName => do
    validateIdentifier newName
    return kind.setName newName entry
  | .ownerTo newOwner =>
    match kind.setOwner with
    | none => return entry
    | some setOwner => do
      if !state.users.contains newOwner then
        throw s!"User '{newOwner}' does not exist"
      return setOwner newOwner entry
  | .setSchema newSchema => do
    validateIdentifier newSchema
    let some database := state.databases[kind.database entry]?
      | throw s!"Database '{kind.database entry}' does not exist"
    if !database.schemas.contains newSchema then
      throw s!"Schema '{kind.database entry}.{newSchema}' does not exist"
    return kind.setSchema newSchema entry

/-- Store a new entry; one of the same key is replaced only when asked. -/
def create (key name : String) (replace : Bool) (entry : β) : Op String := do
  orBail (validateIdentifier name)
  let state ← readState
  orBail (validateSession state session)
  if (kind.entries state).contains key && !replace then
    bail s!"{kind.label} '{key}' already exists"
  writeState (fun state => kind.setEntries ((kind.entries state).insert key entry) state)
  persist o
  return s!"{kind.label} '{key}' created successfully."

/-- Alter the entry of a key. -/
def alter (key : String) (operation : AlterObjectOperation) : Op String := do
  let state ← readState
  orBail (validateSession state session)
  match (kind.entries state)[key]? with
  | none => bail s!"{kind.label} '{key}' not found"
  | some entry =>
    -- from here on the entry is out of its map, whatever check fails
    let rest := (kind.entries state).erase key
    writeState (kind.setEntries rest)
    let altered ← orBail (kind.altered state entry operation)
    if kind.keyOf altered ≠ key ∧ rest.contains (kind.keyOf altered) = true then
      writeState (kind.setEntries (rest.insert key altered))
      bail s!"{kind.label} '{kind.keyOf altered}' already exists"
    writeState (kind.setEntries (rest.insert (kind.keyOf altered) altered))
    persist o
    return s!"ALTER {kind.command} completed for '{key}'."

end ObjectKind

def aggregateKind : ObjectKind CatalogAggregate :=
  { label := "Aggregate"
    command := "AGGREGATE"
    entries := CatalogState.aggregates
    setEntries := fun entries state => { state with aggregates := entries }
    database := CatalogAggregate.database
    schema := CatalogAggregate.schema
    name := CatalogAggregate.name
    setName := fun name aggregate => { aggregate with name := name }
    setOwner := some (fun owner aggregate => { aggregate with owner := owner })
    setSchema := fun schema aggregate => { aggregate with schema := schema }
    entries_setEntries := fun _ _ => rfl
    setEntries_setEntries := fun _ _ _ => rfl
    setEntries_entries := fun _ => rfl }

/-- Collations have no owner. -/
def collationKind : ObjectKind CatalogCollation :=
  { label := "Collation"
    command := "COLLATION"
    entries := CatalogState.collations
    setEntries := fun entries state => { state with collations := entries }
    database := CatalogCollation.database
    schema := CatalogCollation.schema
    name := CatalogCollation.name
    setName := fun name collation => { collation with name := name }
    setOwner := none
    setSchema := fun schema collation => { collation with schema := schema }
    entries_setEntries := fun _ _ => rfl
    setEntries_setEntries := fun _ _ _ => rfl
    setEntries_entries := fun _ => rfl }

def functionKind : ObjectKind CatalogFunction :=
  { label := "Function"
    command := "FUNCTION"
    entries := CatalogState.functions
    setEntries := fun entries state => { state with functions := entries }
    database := CatalogFunction.database
    schema := CatalogFunction.schema
    name := CatalogFunction.name
    setName := fun name function => { function with name := name }
    setOwner := some (fun owner function => { function with owner := owner })
    setSchema := fun schema function => { function with schema := schema }
    entries_setEntries := fun _ _ => rfl
    setEntries_setEntries := fun _ _ _ => rfl
    setEntries_entries := fun _ => rfl }

section

variable (o : Outside) (session : SessionContext) (database schema : Option String)
  (name : String)

/-- The key of the object a statement names. -/
def objectKey : String :=
  relationKey (database.getD session.database) (schema.getD session.schema) name

def createAggregate : Op String :=
  aggregateKind.create o session (objectKey session database schema name) name false
    { database := database.getD session.database, schema := schema.getD session.schema
      name := name, owner := session.user }

def alterAggregate (operation : AlterObjectOperation) : Op String :=
  aggregateKind.alter o session (objectKey session database schema name) operation

def createCollation : Op String :=
  collationKind.create o session (objectKey session database schema name) name false
    { database := database.getD session.database, schema := schema.getD session.schema
      name := name }

def alterCollation (operation : AlterObjectOperation) : Op String :=
  collationKind.alter o session (objectKey session database schema name) operation

/-- A conversion is created without checking the session or the key. -/
def createConversion : Op String := do
  orBail (validateIdentifier name)
  writeState (fun state => { state with
    conversions := state.conversions.insert (objectKey session database schema name)
      { database := database.getD session.database, schema := schema.getD session.schema
        name := name } })
  persist o
  return s!"Conversion '{objectKey session database schema name}' created successfully."

/-- The conversion an alteration makes. -/
def CatalogConversion.altered (conversion : CatalogConversion) :
    AlterObjectOperation → CatalogConversion
  | .rename newName => { conversion with name := newName }
  | .ownerTo _ => conversion
  | .setSchema newSchema => { conversion with schema := newSchema }

/-- A conversion is altered without any check but that it exists, and replaces the one that has
the new key. -/
def alterConversion (operation : AlterObjectOperation) : Op String := do
  let key := objectKey session database schema name
  let state ← readState
  match state.conversions[key]? with
  | none => bail s!"Conversion '{key}' not found"
  | some conversion =>
    let altered := conversion.altered operation
    writeState (fun state => { state with
      conversions := (state.conversions.erase key).insert
        (relationKey altered.database altered.schema altered.name) altered })
    persist o
    return s!"ALTER CONVERSION completed for '{key}'."

def createFunction (orReplace : Bool) (definitionSql : String) : Op String :=
  functionKind.create o session (objectKey session database schema name) name orReplace
    { database := database.getD session.database, schema := schema.getD session.schema
      name := name, owner := session.user, definitionSql := definitionSql }

def alterFunction (operation : AlterObjectOperation) : Op String :=
  functionKind.alter o session (objectKey session database schema name) operation

def dropFunction (ifExists : Bool) : Op String := do
  let key := objectKey session database schema name
  let state ← readState
  orBail (validateSession state session)
  if state.functions.contains key then
    writeState (fun state => { state with functions := state.functions.erase key })
    persist o
    return s!"Function '{key}' dropped successfully."
  else if ifExists then
    return s!"Function '{key}' does not exist, skipping."
  else
    bail s!"Function '{key}' does not exist"

end
