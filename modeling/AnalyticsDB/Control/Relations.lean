import AnalyticsDB.Storage.Location

/-!
# Relations

The operations of the control plane that look up, register, rename and drop tables and
views, and those that change the columns, constraints and indexes of a table.
-/

/-- The indexes that back the primary-key and unique constraints of a new table. -/
def indexesFromConstraints (tableName : String) (constraints : List CatalogTableConstraint) :
    List CatalogIndex :=
  (constraints.filterMap (fun constraint =>
    match constraint.kind with
    | .primaryKey => some ⟨constraint.name, constraint.columns, true, true⟩
    | .unique => some ⟨constraint.name, constraint.columns, true, false⟩
    | .foreignKey => none)).map (fun index =>
      if index.name = "auto_constraint" then
        { index with name := tableName ++ "_" ++ "_".intercalate index.columns ++ "_idx" }
      else index)

/-- Whether a relation of a schema, other than the one stored under `skip`, has an index
named `indexName`. -/
def schemaContainsIndexName (state : CatalogState) (databaseName schemaName indexName : String)
    (skip : Option String) : Bool :=
  state.relations.toList.any (fun (key, relation) =>
    skip ≠ some key && relation.database = databaseName && relation.schema = schemaName
      && relation.indexes.any (·.name = indexName))

/-- The kinds of constraint an index backs. -/
def CatalogTableConstraintKind.isBacked : CatalogTableConstraintKind → Bool
  | .primaryKey | .unique => true
  | .foreignKey => false

/-- The table with a constraint added, and its backing index. -/
def buildRelationWithCatalogConstraint (state : CatalogState)
    (databaseName schemaName tableName : String) (constraint : CatalogTableConstraint) :
    Except String CatalogRelation := do
  let key := relationKey databaseName schemaName tableName
  let some relation := state.relations[key]?
    | throw s!"Table '{databaseName}.{schemaName}.{tableName}' not found"
  if relation.kind ≠ .table then
    throw s!"Relation '{databaseName}.{schemaName}.{tableName}' is not a table"
  if relation.constraints.any (·.name = constraint.name) then
    throw s!"Constraint '{constraint.name}' already exists on table '{databaseName}.{schemaName}.{tableName}'"
  if constraint.kind.isBacked
      && schemaContainsIndexName state databaseName schemaName constraint.name (some key) then
    throw s!"Index '{constraint.name}' already exists in schema '{databaseName}.{schemaName}'"
  let preview := { relation with constraints := relation.constraints ++ [constraint] }
  if constraint.kind.isBacked then
    return { preview with
      indexes := preview.indexes
        ++ [⟨constraint.name, constraint.columns, true, constraint.kind = .primaryKey⟩] }
  else
    return preview

/-- Whether a foreign key of `other` refers to the table, an unqualified reference being
resolved in the schema of `other`. -/
def referencesTable (other : CatalogRelation) (databaseName schemaName tableName : String)
    (constraint : CatalogTableConstraint) : Bool :=
  constraint.kind = .foreignKey
    && constraint.referencedDatabase.getD other.database = databaseName
    && constraint.referencedSchema.getD other.schema = schemaName
    && constraint.referencedTable.getD "" = tableName

/-- The table with a constraint and its backing index dropped. -/
def buildRelationWithDroppedConstraint (state : CatalogState)
    (databaseName schemaName tableName constraintName : String) (cascade : Bool) :
    Except String CatalogRelation := do
  let key := relationKey databaseName schemaName tableName
  let some relation := state.relations[key]?
    | throw s!"Table '{databaseName}.{schemaName}.{tableName}' not found"
  if relation.kind ≠ .table then
    throw s!"Relation '{databaseName}.{schemaName}.{tableName}' is not a table"
  let isReferenced :=
    match relation.constraints.find? (·.name = constraintName) with
    | none => false
    | some target => target.kind.isBacked
        && state.relations.toList.any (fun (otherKey, other) => otherKey ≠ key
          && other.constraints.any (referencesTable other databaseName schemaName tableName))
  if isReferenced && !cascade then
    throw s!"Cannot drop constraint '{constraintName}' on table '{databaseName}.{schemaName}.{tableName}' because other objects depend on it. Use CASCADE to drop dependent objects."
  let constraints := relation.constraints.filter (·.name ≠ constraintName)
  if constraints.length = relation.constraints.length then
    throw s!"Constraint '{constraintName}' not found on table '{databaseName}.{schemaName}.{tableName}'"
  return { relation with
    constraints := constraints
    indexes := relation.indexes.filter (·.name ≠ constraintName) }

inductive AlterColumnOperation where
  | setDataType (dataType : String)
  | setNotNull
  | dropNotNull
  | setDefault (value : String)
  | dropDefault

/-- The column after an `ALTER COLUMN`. -/
def AlterColumnOperation.apply : AlterColumnOperation → CatalogColumn → CatalogColumn
  | .setDataType dataType, column => { column with dataType := dataType }
  | .setNotNull, column => { column with nullable := false }
  | .dropNotNull, column => { column with nullable := true }
  | .setDefault value, column => { column with defaultValue := some value }
  | .dropDefault, column => { column with defaultValue := none }

/-- Change the first element that satisfies `p`. -/
def modifyFirst {α : Type} (p : α → Bool) (f : α → α) : List α → List α
  | [] => []
  | a :: as => if p a then f a :: as else a :: modifyFirst p f as

/-- Remove the foreign keys that refer to the table, an unqualified reference being
resolved in the schema of the dropped constraint's table. -/
def dropForeignKeysTo (databaseName schemaName tableName : String) (other : CatalogRelation) :
    CatalogRelation :=
  { other with constraints := other.constraints.filter (fun c =>
      !(c.kind = .foreignKey
        && c.referencedDatabase.getD databaseName = databaseName
        && c.referencedSchema.getD schemaName = schemaName
        && c.referencedTable.getD "" = tableName)) }

section

variable (o : Outside)

def findRelation (session : SessionContext) (database schema : Option String) (name : String) :
    Op CatalogRelation := do
  let state ← readState
  orBail (validateSession state session)
  let key := relationKey (database.getD session.database) (schema.getD session.schema) name
  match state.relations[key]? with
  | some relation => return relation
  | none => bail s!"Relation '{key}' not found"

def tableRelation (session : SessionContext) (database schema : Option String) (name : String) :
    Op CatalogRelation := do
  let relation ← findRelation session database schema name
  if relation.kind ≠ .table then
    bail s!"Relation '{name}' is not a table"
  return relation

/-- The relation of a schema that has an index of a name. -/
def indexRelation (session : SessionContext) (database schema : Option String)
    (indexName : String) : Op CatalogRelation := do
  let databaseName := database.getD session.database
  let schemaName := schema.getD session.schema
  let state ← readState
  orBail (validateSession state session)
  match state.relations.toList.find? (fun (_, relation) => relation.database = databaseName
      && relation.schema = schemaName && relation.indexes.any (·.name = indexName)) with
  | some (_, relation) => return relation
  | none => bail s!"Index '{indexName}' not found"

/-- The table with an index that is to be created.  No index of the schema may have its name. -/
def previewCreateIndex (session : SessionContext) (database schema : Option String)
    (tableName indexName : String) (columns : List String) (unique : Bool) :
    Op CatalogRelation := do
  let databaseName := database.getD session.database
  let schemaName := schema.getD session.schema
  let state ← readState
  orBail (validateSession state session)
  match state.relations[relationKey databaseName schemaName tableName]? with
  | none => bail s!"Table '{databaseName}.{schemaName}.{tableName}' not found"
  | some relation =>
    if relation.kind ≠ .table then
      bail s!"Relation '{databaseName}.{schemaName}.{tableName}' is not a table"
    if schemaContainsIndexName state databaseName schemaName indexName none then
      bail s!"Index '{indexName}' already exists in schema '{databaseName}.{schemaName}'"
    return { relation with indexes := relation.indexes ++ [⟨indexName, columns, unique, false⟩] }

/-- The relations of a kind in a schema, in key order. -/
def listRelations (session : SessionContext) (database schema : Option String)
    (kind : CatalogRelationKind) : Op (List CatalogRelation) := do
  let state ← readState
  orBail (validateSession state session)
  return (state.relations.toList.map (·.2)).filter (fun relation => relation.kind = kind
    && relation.database = database.getD session.database
    && relation.schema = schema.getD session.schema)

/-- The relations of a kind in the schemas of a database, in key order. -/
def listRelationsForDatabase (session : SessionContext) (database : String)
    (kind : CatalogRelationKind) : Op (List CatalogRelation) := do
  let state ← readState
  orBail (validateSession state session)
  match state.databases[database]? with
  | none => bail s!"Unknown database '{database}'"
  | some db =>
    return (state.relations.toList.map (·.2)).filter (fun relation => relation.kind = kind
      && relation.database = db.name && db.schemas.contains relation.schema)

/-- The location a table of that name gets.  Nothing but its name is checked. -/
def managedTableStorageLocation (session : SessionContext) (database schema : Option String)
    (tableName : String) : Op String := do
  orBail (validateIdentifier tableName)
  let state ← readState
  orBail (validateSession state session)
  return managedTableUri o state (database.getD session.database)
    (schema.getD session.schema) tableName

/-- Store a new relation, when its name is valid and free and its schema exists. -/
def registerRelation (session : SessionContext) (relation : CatalogRelation)
    (message : String) : Op String := do
  orBail (validateIdentifier relation.name)
  let state ← readState
  orBail (validateSession state session)
  match state.databases[relation.database]? with
  | none => bail s!"Unknown database '{relation.database}'"
  | some database =>
    if !database.schemas.contains relation.schema then
      bail s!"Unknown schema '{relation.database}.{relation.schema}'"
    let key := relationKey relation.database relation.schema relation.name
    if state.relations.contains key then
      bail s!"Relation '{relation.database}.{relation.schema}.{relation.name}' already exists"
    writeState (fun state => { state with relations := state.relations.insert key relation })
    persist o
    return message

/-- Drop the white space at both ends of a text. -/
def trim (s : String) : String :=
  String.ofList ((s.toList.dropWhile Char.isWhitespace).reverse.dropWhile
    Char.isWhitespace).reverse

def registerView (session : SessionContext) (database schema : Option String)
    (viewName definitionSql : String) (columns : List CatalogColumn) : Op String :=
  let databaseName := database.getD session.database
  let schemaName := schema.getD session.schema
  registerRelation o session
    { database := databaseName, schema := schemaName, name := viewName, kind := .view
      definitionSql := some (trim definitionSql), storagePath := none, externalFormat := none
      columns := columns, constraints := [], indexes := [] }
    s!"View '{databaseName}.{schemaName}.{viewName}' created successfully."

def registerManagedTable (session : SessionContext) (database schema : Option String)
    (tableName storageUri : String) (columns : List CatalogColumn)
    (constraints : List CatalogTableConstraint) : Op String :=
  let databaseName := database.getD session.database
  let schemaName := schema.getD session.schema
  registerRelation o session
    { database := databaseName, schema := schemaName, name := tableName, kind := .table
      definitionSql := none, storagePath := some storageUri, externalFormat := none
      columns := columns, constraints := constraints
      indexes := indexesFromConstraints tableName constraints }
    s!"Table '{databaseName}.{schemaName}.{tableName}' created successfully."

def registerExternalTable (session : SessionContext) (database schema : Option String)
    (tableName location : String) (format : ExternalStorageFormat)
    (columns : List CatalogColumn) : Op String :=
  let databaseName := database.getD session.database
  let schemaName := schema.getD session.schema
  registerRelation o session
    { database := databaseName, schema := schemaName, name := tableName, kind := .table
      definitionSql := none, storagePath := some location, externalFormat := some format
      columns := columns, constraints := [], indexes := [] }
    s!"External table '{databaseName}.{schemaName}.{tableName}' registered successfully."

/-- Change the relation stored under a key to what `edit` makes of it, when it is there and
`edit` accepts it. -/
def editRelation (session : SessionContext) (key notFound : String)
    (edit : CatalogState → CatalogRelation → Except String CatalogRelation)
    (message : String) : Op String := do
  let state ← readState
  orBail (validateSession state session)
  match state.relations[key]? with
  | none => bail notFound
  | some relation =>
    let edited ← orBail (edit state relation)
    writeState (fun state => { state with relations := state.relations.insert key edited })
    persist o
    return message

def addColumn (session : SessionContext) (database schema : Option String)
    (tableName : String) (column : CatalogColumn) : Op String :=
  let databaseName := database.getD session.database
  let schemaName := schema.getD session.schema
  editRelation o session (relationKey databaseName schemaName tableName)
    s!"Table '{databaseName}.{schemaName}.{tableName}' not found"
    (fun _ relation => do
      if relation.kind ≠ .table then
        throw s!"Relation '{databaseName}.{schemaName}.{tableName}' is not a table"
      if relation.columns.any (·.name = column.name) then
        throw s!"Column '{column.name}' already exists in table '{databaseName}.{schemaName}.{tableName}'"
      return { relation with columns := relation.columns ++ [column] })
    s!"Column added successfully to '{databaseName}.{schemaName}.{tableName}'."

def dropColumn (session : SessionContext) (database schema : Option String)
    (tableName columnName : String) (ifExists : Bool) : Op String :=
  let databaseName := database.getD session.database
  let schemaName := schema.getD session.schema
  editRelation o session (relationKey databaseName schemaName tableName)
    s!"Table '{databaseName}.{schemaName}.{tableName}' not found"
    (fun _ relation =>
      if relation.columns.any (·.name = columnName) then
        .ok { relation with columns := relation.columns.eraseP (·.name = columnName) }
      else if ifExists then
        .ok relation
      else
        .error s!"Column '{columnName}' not found in table '{databaseName}.{schemaName}.{tableName}'")
    s!"Column '{columnName}' dropped from '{databaseName}.{schemaName}.{tableName}'."

def renameColumn (session : SessionContext) (database schema : Option String)
    (tableName oldName newName : String) : Op String := do
  orBail (validateIdentifier newName)
  let databaseName := database.getD session.database
  let schemaName := schema.getD session.schema
  editRelation o session (relationKey databaseName schemaName tableName)
    s!"Table '{databaseName}.{schemaName}.{tableName}' not found"
    (fun _ relation => do
      if relation.columns.any (·.name = newName) then
        throw s!"Column '{newName}' already exists in table '{databaseName}.{schemaName}.{tableName}'"
      if !relation.columns.any (·.name = oldName) then
        throw s!"Column '{oldName}' not found in table '{databaseName}.{schemaName}.{tableName}'"
      return { relation with
        columns :=
          modifyFirst (·.name = oldName) (fun c => { c with name := newName }) relation.columns })
    s!"Column '{oldName}' renamed to '{newName}' in '{databaseName}.{schemaName}.{tableName}'."

def alterColumn (session : SessionContext) (database schema : Option String)
    (tableName columnName : String) (operation : AlterColumnOperation) : Op String :=
  let databaseName := database.getD session.database
  let schemaName := schema.getD session.schema
  editRelation o session (relationKey databaseName schemaName tableName)
    s!"Table '{databaseName}.{schemaName}.{tableName}' not found"
    (fun _ relation => do
      if !relation.columns.any (·.name = columnName) then
        throw s!"Column '{columnName}' not found in table '{databaseName}.{schemaName}.{tableName}'"
      return { relation with
        columns := modifyFirst (·.name = columnName) operation.apply relation.columns })
    s!"Column '{columnName}' altered in '{databaseName}.{schemaName}.{tableName}'."

def addConstraint (session : SessionContext) (database schema : Option String)
    (tableName : String) (constraint : CatalogTableConstraint) : Op String := do
  let databaseName := database.getD session.database
  let schemaName := schema.getD session.schema
  let state ← readState
  orBail (validateSession state session)
  let preview ← orBail
    (buildRelationWithCatalogConstraint state databaseName schemaName tableName constraint)
  writeState (fun state => { state with
    relations := state.relations.insert (relationKey databaseName schemaName tableName) preview })
  persist o
  return s!"Constraint '{constraint.name}' added to '{databaseName}.{schemaName}.{tableName}'."

def dropConstraint (session : SessionContext) (database schema : Option String)
    (tableName constraintName : String) (ifExists cascade : Bool) : Op String := do
  let databaseName := database.getD session.database
  let schemaName := schema.getD session.schema
  let key := relationKey databaseName schemaName tableName
  let state ← readState
  orBail (validateSession state session)
  match buildRelationWithDroppedConstraint state databaseName schemaName tableName
      constraintName cascade with
  | .error message =>
    if ifExists && contains message "not found" then
      return s!"Constraint '{constraintName}' does not exist, skipping."
    else
      bail message
  | .ok preview =>
    writeState (fun state => { state with relations := state.relations.insert key preview })
    if cascade then
      writeState (fun state => { state with relations := state.relations.map (fun otherKey other =>
        if otherKey = key then other
        else dropForeignKeysTo databaseName schemaName tableName other) })
    persist o
    return s!"Constraint '{constraintName}' dropped from '{databaseName}.{schemaName}.{tableName}'."

def createIndex (session : SessionContext) (database schema : Option String)
    (table name : String) (columns : List String) (unique : Bool) : Op String :=
  let databaseName := database.getD session.database
  let schemaName := schema.getD session.schema
  editRelation o session (relationKey databaseName schemaName table)
    s!"Table '{databaseName}.{schemaName}.{table}' not found"
    (fun _ relation =>
      if relation.indexes.any (·.name = name) then
        .error s!"Index '{name}' already exists on table '{table}'"
      else
        .ok { relation with indexes := relation.indexes ++ [⟨name, columns, unique, false⟩] })
    s!"Index '{name}' created successfully."

def dropIndex (session : SessionContext) (database schema : Option String) (name : String)
    (ifExists : Bool) : Op String := do
  let databaseName := database.getD session.database
  let schemaName := schema.getD session.schema
  let state ← readState
  orBail (validateSession state session)
  match state.relations.toList.find? (fun (_, relation) => relation.database = databaseName
      && relation.schema = schemaName && relation.indexes.any (·.name = name)) with
  | none =>
    if ifExists then
      return s!"Index '{databaseName}.{schemaName}.{name}' does not exist, skipping."
    else
      bail s!"Index '{name}' not found"
  | some (key, relation) =>
    if ((relation.indexes.find? (·.name = name)).map (·.isPrimary)).getD false
        || relation.constraints.any (·.name = name) then
      bail s!"Index '{name}' is backing a constraint and cannot be dropped directly. Use ALTER TABLE ... DROP CONSTRAINT instead."
    let edited := { relation with indexes := relation.indexes.eraseP (·.name = name) }
    writeState (fun state => { state with relations := state.relations.insert key edited })
    persist o
    return s!"Index '{name}' dropped successfully."

def renameIndex (session : SessionContext) (database schema : Option String)
    (tableName oldName newName : String) : Op String := do
  orBail (validateIdentifier newName)
  let databaseName := database.getD session.database
  let schemaName := schema.getD session.schema
  editRelation o session (relationKey databaseName schemaName tableName)
    s!"Table '{databaseName}.{schemaName}.{tableName}' not found"
    (fun _ relation => do
      if relation.indexes.any (·.name = newName) then
        throw s!"Index '{newName}' already exists"
      if !relation.indexes.any (·.name = oldName) then
        throw s!"Index '{oldName}' not found"
      return { relation with
        indexes :=
          modifyFirst (·.name = oldName) (fun i => { i with name := newName }) relation.indexes })
    s!"Index '{oldName}' renamed to '{newName}' in '{databaseName}.{schemaName}.{tableName}'."

def updateRelationStoragePath (session : SessionContext) (database schema : Option String)
    (name newStoragePath : String) : Op String :=
  let databaseName := database.getD session.database
  let schemaName := schema.getD session.schema
  editRelation o session (relationKey databaseName schemaName name)
    s!"Relation '{databaseName}.{schemaName}.{name}' not found"
    (fun _ relation => .ok { relation with storagePath := some newStoragePath })
    s!"Storage path for '{databaseName}.{schemaName}.{name}' updated successfully."

def renameRelation (session : SessionContext) (database schema : Option String)
    (name newName : String) : Op String := do
  orBail (validateIdentifier newName)
  let databaseName := database.getD session.database
  let schemaName := schema.getD session.schema
  let state ← readState
  orBail (validateSession state session)
  let oldKey := relationKey databaseName schemaName name
  let newKey := relationKey databaseName schemaName newName
  match state.relations[oldKey]? with
  | none => bail s!"Relation '{databaseName}.{schemaName}.{name}' not found"
  | some relation =>
    if state.relations.contains newKey then
      bail s!"Relation '{databaseName}.{schemaName}.{newName}' already exists"
    writeState (fun state => { state with
      relations := (state.relations.erase oldKey).insert newKey { relation with name := newName } })
    persist o
    return s!"Relation '{databaseName}.{schemaName}.{name}' renamed to '{newName}' successfully."

/-- The word for a kind of relation in the messages of `dropRelation`. -/
def CatalogRelationKind.word : CatalogRelationKind → String
  | .table => "Table"
  | .view => "View"

/-- The word for a kind of relation inside a sentence. -/
def CatalogRelationKind.lowerWord : CatalogRelationKind → String
  | .table => "table"
  | .view => "view"

def dropRelation (session : SessionContext) (database schema : Option String) (name : String)
    (kind : CatalogRelationKind) (ifExists : Bool) : Op String := do
  let databaseName := database.getD session.database
  let schemaName := schema.getD session.schema
  let state ← readState
  orBail (validateSession state session)
  let key := relationKey databaseName schemaName name
  match state.relations[key]? with
  | some relation =>
    if relation.kind ≠ kind then
      bail s!"Relation '{key}' is a {relation.kind.lowerWord}, not a {kind.word}"
    writeState (fun state => { state with relations := state.relations.erase key })
    persist o
    return s!"{kind.word} '{databaseName}.{schemaName}.{name}' dropped successfully."
  | none =>
    if ifExists then
      return s!"{kind.word} '{key}' does not exist, skipping."
    else
      bail s!"{kind.word} '{key}' not found"

end
