import AnalyticsDB.Storage.Location

/-!
# Grants

Grants are rows of a table of their own in the file of the catalogue, keyed by the name of the
role and the name of the object.
-/

/-- The extension of a file name. -/
def fileExtension (fileName : String) : Option String :=
  match fileName.toList.splitOn '.' with
  | [] | [_] => none
  | [[], _] => none
  | parts => parts.getLast?.map String.ofList

def isSqlitePath (path : String) : Bool :=
  match fileExtension ((splitSlash path).getLast?.getD "") with
  | some extension => extension = "db" || extension = "sqlite" || extension = "sqlite3"
  | none => false

/-- Grants are stored only in SQLite catalogues. -/
def Outside.storesGrants (o : Outside) : Bool := (o.catalogPath.map isSqlitePath).getD false

section

variable (o : Outside) (session : SessionContext)

/-- Open the file of the catalogue and execute a statement there. -/
def catalogCall : Op Unit := do
  let n ← outsideCall
  match o.saveError n with
  | none => pure ()
  | some message => bail message

def grantPrivilege (permission : ObjectPermission) : Op Unit :=
  if o.storesGrants then do
    catalogCall o
    modify (fun w => { w with
      permissions := permission :: w.permissions.filter (· ≠ permission) })
  else
    pure ()

def revokePrivilege (permission : ObjectPermission) : Op Unit :=
  if o.storesGrants then do
    catalogCall o
    modify (fun w => { w with permissions := w.permissions.filter (· ≠ permission) })
  else
    pure ()

/-- Whether a permission covers a privilege on an object. -/
def ObjectPermission.covers (permission : ObjectPermission)
    (grantee objectType objectName privilege : String) : Bool :=
  permission.grantee = grantee && permission.objectType = objectType
    && permission.objectName = objectName
    && (permission.privilege = privilege || permission.privilege = "ALL")

def checkPrivilege (grantee objectType objectName privilege : String) : Op Bool :=
  if o.storesGrants then do
    catalogCall o
    return (← get).permissions.any (·.covers grantee objectType objectName privilege)
  else
    return true

/-- Only administrators may change the grants. -/
def requireAdmin (change : String) : Op Unit := do
  let state ← readState
  if !state.users.contains session.user then
    bail s!"Unknown user '{session.user}'"
  if !userIsAdmin state session.user then
    bail s!"permission denied: only admin can {change} privileges"

end
