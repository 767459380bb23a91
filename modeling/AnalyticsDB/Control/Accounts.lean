import AnalyticsDB.Control.Basic

/-!
# Users and groups

The catalogues a cluster starts from, and the operations of the control plane on users and
groups.  A new account has password version 1, and every rotation of its password bumps the
version.
-/

/-- A hashed password with its SCRAM verifier. -/
structure Credentials where
  hash : String
  scramSaltB64 : String
  scramSaltedPasswordB64 : String
  deriving DecidableEq, Repr

/-- An account with a password of version 1 and no members. -/
def CatalogUser.new (name : String) (isAdmin : Bool) (credentials : Option Credentials)
    (rotatedAt : Option Nat) : CatalogUser :=
  { name := name
    isAdmin := isAdmin
    password := credentials.map (·.hash)
    passwordVersion := 1
    passwordRotatedAtEpochMs := rotatedAt
    members := ∅
    scramSaltB64 := credentials.map (·.scramSaltB64)
    scramSaltedPasswordB64 := credentials.map (·.scramSaltedPasswordB64) }

/-- The account with its password replaced and its version bumped. -/
def CatalogUser.rotate (credentials : Credentials) (now : Nat) (user : CatalogUser) :
    CatalogUser :=
  { user with
    password := some credentials.hash
    passwordVersion := user.passwordVersion + 1
    passwordRotatedAtEpochMs := some now
    scramSaltB64 := some credentials.scramSaltB64
    scramSaltedPasswordB64 := some credentials.scramSaltedPasswordB64 }

/-- The database every catalogue starts with. -/
def postgresDatabase : CatalogDatabase :=
  { name := "postgres", schemas := {"public"}, owner := "postgres", parameters := ∅ }

/-- A catalogue with the given users, the `postgres` database and no relations. -/
def initialState (users : KeyMap CatalogUser) : CatalogState :=
  { databases := (∅ : KeyMap CatalogDatabase).insert "postgres" postgresDatabase
    users := users
    nodes := ∅
    relations := ∅
    aggregates := ∅
    collations := ∅
    conversions := ∅
    functions := ∅
    config := some
      { basePostgresPort := 5432
        baseFlightSqlPort := 50051
        baseNodePort := 60051
        catalogPath := DEFAULT_CATALOG_PATH
        tlsCertPath := none
        tlsKeyPath := none
        nextAvailablePortOffset := 0
        storageRoot := none
        clusterId := none
        jwtSecret := none }
    catalogueVersion := 0
    storagePolicies := ∅ }

/-- The catalogue of a first install, given the credentials and the creation times of its
four accounts. -/
def bootstrapState (credentials : String → Credentials) (now : String → Nat) : CatalogState :=
  let user (name : String) (isAdmin : Bool) :=
    CatalogUser.new name isAdmin (some (credentials name)) (some (now name))
  initialState
    ((((∅ : KeyMap CatalogUser).insert "postgres" (user "postgres" true)).insert
      "analytics_reader" (user "analytics_reader" false)).insert
      "analyticsdb_admin" (user "analyticsdb_admin" false) |>.insert
      "admin" (user "admin" true))

/-- A system with the catalogue of a first install and empty stores. -/
def World.bootstrap : World :=
  { catalog := bootstrapState (fun _ => ⟨"", "", ""⟩) (fun _ => 0)
    published := 0
    permissions := []
    store := ∅
    calls := 0 }

/-- The catalogue of a freshly initialised cluster, given the credentials and the creation
times of its two accounts. -/
def freshInitState (credentials : String → Credentials) (now : String → Nat) : CatalogState :=
  let user (name : String) (isAdmin : Bool) :=
    CatalogUser.new name isAdmin (some (credentials name)) (some (now name))
  initialState
    (((∅ : KeyMap CatalogUser).insert "postgres" (user "postgres" true)).insert
      PRIMARY_ADMIN_USER (user PRIMARY_ADMIN_USER false) |>.insert
      ADMINISTRATORS_GROUP
        { CatalogUser.new ADMINISTRATORS_GROUP false none none with
          members := {PRIMARY_ADMIN_USER} })

inductive AlterGroupOperation where
  | addUser (userName : String)
  | dropUser (userName : String)
  | rename (newName : String)

section

variable (o : Outside)

/-- Hash a password and compute its SCRAM verifier. -/
def newCredentials (password : String) : Op Credentials := do
  let n ← outsideCall
  let hash ← orBail (o.hashPassword n password)
  let n ← outsideCall
  let (salt, saltedPassword) ← orBail (o.scramVerifier n password)
  return { hash := hash, scramSaltB64 := salt, scramSaltedPasswordB64 := saltedPassword }

/-- The credentials of an account that may have no password. -/
def optionalCredentials : Option String → Op (Option Credentials)
  | none => pure none
  | some password => do
    let credentials ← newCredentials o password
    return some credentials

/-- The start of an Argon2id hash. -/
def ARGON2ID_START : String := "$argon2id$"

/-- Whether a password matches a stored one; what is not an Argon2id hash is compared as it
is. -/
def verifyPassword (provided stored : String) : Bool :=
  if ARGON2ID_START.toList.isPrefixOf stored.toList then
    o.argon2Verify provided stored
  else
    provided = stored

def verifyAdminCredentials (user password : String) : Op Unit := do
  let state ← readState
  match state.users[user]? with
  | none => bail s!"Authentication failed: unknown user '{user}'"
  | some catalogUser =>
    match catalogUser.password with
    | none => bail s!"User '{user}' has no password set"
    | some stored =>
      if !verifyPassword o password stored then
        bail s!"Authentication failed: incorrect password for '{user}'"
      if !userIsAdmin state user then
        bail s!"User '{user}' is not a member of the '{ADMINISTRATORS_GROUP}' group"

/-- Give the primary administrator a new random password, and return it. -/
def resetAdminPassword (authenticatingUser authenticatingPassword : String) : Op String := do
  verifyAdminCredentials o authenticatingUser authenticatingPassword
  let n ← outsideCall
  let newPassword := o.randomPassword n
  let credentials ← newCredentials o newPassword
  let n ← outsideCall
  let state ← readState
  if !state.users.contains PRIMARY_ADMIN_USER then
    bail s!"Primary admin '{PRIMARY_ADMIN_USER}' does not exist"
  writeState (fun state => { state with
    users := state.users.modify PRIMARY_ADMIN_USER (CatalogUser.rotate credentials (o.now n)) })
  persist o
  return newPassword

def rotateUserPassword (session : SessionContext) (userName password : String) :
    Op String := do
  if password.isEmpty then
    bail "Password must not be empty"
  let credentials ← newCredentials o password
  let n ← outsideCall
  let state ← readState
  orBail (validateSession state session)
  if !userIsAdmin state session.user then
    bail s!"User '{session.user}' is not allowed to rotate credentials"
  if !state.users.contains userName then
    bail s!"Unknown user '{userName}'"
  writeState (fun state => { state with
    users := state.users.modify userName (CatalogUser.rotate credentials (o.now n)) })
  persist o
  return s!"Password for user '{userName}' rotated successfully."

def createUser (session : SessionContext) (name : String) (password : Option String) :
    Op String := do
  orBail (validateIdentifier name)
  let credentials ← optionalCredentials o password
  let n ← outsideCall
  let state ← readState
  orBail (validateSession state session)
  if !userIsAdmin state session.user then
    bail "Only administrators can create users"
  if state.users.contains name then
    bail s!"User '{name}' already exists"
  writeState (fun state => { state with
    users := state.users.insert name (CatalogUser.new name false credentials (some (o.now n))) })
  persist o
  return s!"User '{name}' created successfully."

def dropUser (session : SessionContext) (name : String) (ifExists : Bool) : Op String := do
  let state ← readState
  orBail (validateSession state session)
  if !userIsAdmin state session.user then
    bail "Only administrators can drop users"
  if name = "postgres" then
    bail "Cannot drop internal user 'postgres'"
  if name = session.user then
    bail s!"Cannot drop current user '{name}'"
  if state.users.contains name then
    writeState (fun state => { state with users := state.users.erase name })
    persist o
    return s!"User '{name}' dropped successfully."
  else if ifExists then
    return s!"User '{name}' does not exist, skipping."
  else
    bail s!"User '{name}' not found"

def createGroup (session : SessionContext) (name : String) : Op String := do
  orBail (validateIdentifier name)
  let state ← readState
  orBail (validateSession state session)
  if !userIsAdmin state session.user then
    bail "Only administrators can create groups"
  if state.users.contains name then
    bail s!"Role/User '{name}' already exists"
  writeState (fun state => { state with
    users := state.users.insert name (CatalogUser.new name false none none) })
  persist o
  return s!"Group '{name}' created successfully."

def alterGroup (session : SessionContext) (name : String) (operation : AlterGroupOperation) :
    Op String := do
  let state ← readState
  orBail (validateSession state session)
  if !userIsAdmin state session.user then
    bail "Only administrators can alter groups"
  match state.users[name]? with
  | none => bail s!"Group '{name}' not found"
  | some group =>
    match operation with
    | .addUser userName =>
      if !state.users.contains userName then
        bail s!"User '{userName}' not found"
      writeState (fun state => { state with
        users := state.users.insert name
          { group with
            members := group.members.insert userName } })
      persist o
      return s!"User '{userName}' added to group '{name}'."
    | .dropUser userName =>
      if !group.members.contains userName then
        bail s!"User '{userName}' is not a member of group '{name}'"
      writeState (fun state => { state with
        users := state.users.insert name
          { group with
            members := group.members.erase userName } })
      persist o
      return s!"User '{userName}' removed from group '{name}'."
    | .rename newName =>
      orBail (validateIdentifier newName)
      if state.users.contains newName then
        bail s!"Role/User '{newName}' already exists"
      writeState (fun state => { state with
        users := (state.users.erase name).insert newName
          { group with
            name := newName } })
      persist o
      return s!"Group '{name}' renamed to '{newName}'."

def dropGroup (session : SessionContext) (name : String) (ifExists : Bool) : Op String := do
  let state ← readState
  orBail (validateSession state session)
  if !userIsAdmin state session.user then
    bail "Only administrators can drop groups"
  match state.users[name]? with
  | some user =>
    if !user.members.isEmpty then
      bail s!"Group '{name}' is not empty and cannot be dropped"
    writeState (fun state => { state with users := state.users.erase name })
    persist o
    return s!"Group '{name}' dropped successfully."
  | none =>
    if ifExists then
      return s!"Group '{name}' does not exist, skipping."
    else
      bail s!"Group '{name}' not found"

end
