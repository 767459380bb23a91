import AnalyticsDB.Control.Accounts
import AnalyticsDB.Gateway.Proxy
import AnalyticsDB.Lib.Run

/-!
# Sessions of the gateway

A login is answered with a signed token, and the password is kept in memory under the id of the
session.  A token that was signed is valid until it expires, also after a restart; what a logout and
a restart take away is the password.  What is proved is when this revokes the session: which
requests look at the password before they answer, and what refreshing a session does to those that
come from it.

Session ids are drawn at random and never twice; here they are the numbers of the sessions.
-/

namespace Gateway

open Eff Run

/-- What a token says. -/
structure SessionClaims where
  sub : String
  role : String
  database : String
  schema : String
  sessionId : Nat
  deriving DecidableEq, Repr

/-- A token that was signed, and the ids of its session and of those it was refreshed from. -/
structure IssuedToken where
  claims : SessionClaims
  lineage : List Nat
  deriving DecidableEq, Repr

/-- The passwords in memory, the tokens that were ever signed, and the ids of the sessions that were
logged out or that a restart ended. -/
structure Sessions where
  credentials : Std.ExtTreeMap Nat String
  issued : List IssuedToken
  ended : List Nat

/-- Nothing has happened. -/
def Sessions.initial : Sessions := { credentials := ∅, issued := [], ended := [] }

section

variable (sessions : Sessions)

/-- Sign a token for a new session and keep its password. -/
def Sessions.createSessionWithPassword (username role database schema password : String)
    (refreshedFrom : List Nat) : Sessions × SessionClaims :=
  let sessionId := sessions.issued.length
  let claims : SessionClaims :=
    { sub := username, role := role, database := database, schema := schema
      sessionId := sessionId }
  ({ sessions with
      credentials := sessions.credentials.insert sessionId password
      issued := sessions.issued ++ [{ claims := claims, lineage := sessionId :: refreshedFrom }] },
    claims)

def Sessions.passwordFor (sessionId : Nat) : Option String := sessions.credentials[sessionId]?

def Sessions.forget (sessionId : Nat) : Sessions :=
  { sessions with credentials := sessions.credentials.erase sessionId }

/-- The claims of a token, when it was signed. -/
def Sessions.validateToken (token : SessionClaims) : Option IssuedToken :=
  sessions.issued.find? (·.claims = token)

end

/-! ### Requests -/

/-- What the gateway finds outside when a request arrives: the catalogue in its file, and what the
server does. -/
structure RequestEnv where
  catalog : Except String CatalogState
  pgEndpoint : String
  connect : String → String → String → Except String Unit
  simpleQuery : String → String → String → Except String (List SimpleQueryMessage)

/-- The server, with the statements it has received. -/
def RequestEnv.server (env : RequestEnv) : PgServer (List String) :=
  { connect := fun user password database => ExceptT.mk (pure (env.connect user password database))
    simpleQuery := fun user database sql => do
      modify (· ++ [sql])
      ExceptT.mk (pure (env.simpleQuery user database sql)) }

/-- The result of a statement, but for its timings and the texts that describe it. -/
structure QueryResult where
  columns : List String
  rows : List (List (Option String))
  affectedRows : Option Nat
  error : Option String
  deriving DecidableEq, Repr

structure UserRow where
  name : String
  isAdmin : Bool
  groups : List String
  passwordVersion : Nat
  passwordRotatedAtEpochMs : Option Nat
  deriving DecidableEq, Repr

structure GroupRow where
  name : String
  members : List String
  memberCount : Nat
  deriving DecidableEq, Repr

structure RelationInfo where
  database : String
  schema : String
  name : String
  kind : String
  storage : String
  columns : List (String × String × Bool)
  description : String
  deriving DecidableEq, Repr

structure SchemaInfo where
  database : String
  name : String
  relations : List RelationInfo
  deriving DecidableEq, Repr

structure DatabaseInfo where
  name : String
  owner : String
  schemas : List SchemaInfo
  deriving DecidableEq, Repr

structure ExplorerSnapshot where
  generatedAt : String
  databases : List DatabaseInfo
  deriving DecidableEq, Repr

/-- What is sent with an answer; a placeholder is what stands in the code. -/
inductive Body where
  | session (claims : SessionClaims)
  | login (token session : SessionClaims)
  | message (text : String)
  | explorer (snapshot : ExplorerSnapshot)
  | query (result : QueryResult)
  | users (rows : List UserRow)
  | groups (rows : List GroupRow)
  | placeholder
  deriving DecidableEq

/-- The routes that need a token.  Those that change users and groups are given by the statements
they send and the message they answer with. -/
inductive Route where
  | getSession
  | updateSession
  | refresh
  | logout
  | explorer
  | explorerLists
  | query (sql : String) (database : Option String)
  | databases
  | listUsers
  | listGroups
  | runAdminSql (statements : List String) (message : String)
  | system
  deriving DecidableEq

/-- A request gives an answer, and the server receives statements. -/
abbrev Handler (α : Type) := Eff (List String) GatewayError α

def DEFAULT_DATABASE : String := "postgres"

def DEFAULT_SCHEMA : String := "public"

def SYSTEM_SCHEMAS : List String := ["pg_catalog", "information_schema"]

section

variable {σ : Type} (catalog : Except String CatalogState) (server : PgServer σ)
  (endpoint : String) (sessions : Sessions) (claims : SessionClaims)

def openCatalog : Eff σ GatewayError CatalogState :=
  match catalog with
  | .ok state => return state
  | .error message => throw (.internal message)

/-- The password of a session. -/
def requirePassword : Eff σ GatewayError String :=
  match sessions.passwordFor claims.sessionId with
  | some password => return password
  | none => throw .unauthorized

/-- The catalogue, for an administrator. -/
def adminRead : Eff σ GatewayError CatalogState := do
  let controlPlane ← openCatalog catalog
  if !userIsAdmin controlPlane claims.sub then
    throw .forbidden
  return controlPlane

/-- The text of an error without what the server puts before it. -/
def cleanError (message : String) : String :=
  trimStartMatches "ERROR: " (trimStartMatches "db error: " message)

/-- Send statements to the server as the user of the session. -/
def runAdminSql (statements : List String) : Eff σ GatewayError Unit := do
  let _ ← adminRead catalog claims
  let password ← requirePassword sessions claims
  ExceptT.adapt (fun e : ProxyError => GatewayError.badRequest (cleanError e.rootCause))
    (executeStatements server endpoint claims.sub password DEFAULT_DATABASE statements)

end

section

variable (env : RequestEnv) (sessions : Sessions) (claims : SessionClaims)

def executeQuery (sql : String) (database : Option String) : Handler QueryResult := do
  if (trimWhiteSpace sql).isEmpty then
    throw (.badRequest "SQL statement is empty")
  let password ← requirePassword sessions claims
  let outcome ← ExceptT.mk (.ok <$> ExceptT.run (executeSql env.server env.pgEndpoint claims.sub
    password (database.getD claims.database) sql))
  match outcome with
  | .ok result =>
    return { columns := result.columns
             rows := result.rows
             affectedRows := if result.columns.isEmpty then result.affectedRows else none
             error := none }
  | .error e =>
    return { columns := [], rows := [], affectedRows := none, error := some (cleanError e.context) }

def relationInfo (schemaName : String) (relation : CatalogRelation) : RelationInfo :=
  let kind := match relation.kind with
    | .view => "view"
    | .table => "table"
  { database := relation.database
    schema := relation.schema
    name := relation.name
    kind := kind
    storage :=
      if schemaName ∈ SYSTEM_SCHEMAS then "system"
      else if relation.externalFormat.isSome then "external"
      else "managed"
    columns := relation.columns.map (fun column => (column.name, column.dataType, column.nullable))
    description := s!"{kind} in {schemaName}" }

def getExplorerSnapshot : Handler ExplorerSnapshot := do
  let snapshot ← openCatalog env.catalog
  let relations := snapshot.relations.toList.map Prod.snd
  return {
    generatedAt := s!"v{snapshot.catalogueVersion}"
    databases := snapshot.databases.toList.map (fun (_, database) =>
      { name := database.name
        owner := database.owner
        schemas := database.schemas.toList.map (fun schemaName =>
          { database := database.name
            name := schemaName
            relations := (relations.filter (fun relation =>
              relation.database = database.name && relation.schema = schemaName)).map
                (relationInfo schemaName) }) }) }

/-- The accounts without a password are the groups. -/
def listUsers : Handler (List UserRow) := do
  let snapshot ← adminRead env.catalog claims
  let users := snapshot.users.toList.map Prod.snd
  let groups := users.filter (·.password.isNone)
  return (users.filter (·.password.isSome)).map (fun user =>
    let memberships := (groups.filter (·.members.contains user.name)).map (·.name)
    { name := user.name
      isAdmin := user.isAdmin || memberships.any (· = ADMINISTRATORS_GROUP)
      groups := memberships
      passwordVersion := user.passwordVersion
      passwordRotatedAtEpochMs := user.passwordRotatedAtEpochMs })

def listGroups : Handler (List GroupRow) := do
  let snapshot ← adminRead env.catalog claims
  let users := snapshot.users.toList.map Prod.snd
  return (users.filter (·.password.isNone)).map (fun group =>
    { name := group.name, members := group.members.toList, memberCount := group.members.size })

/-- Answer a request with the claims of a valid token.  What is returned besides are the sessions
after it. -/
def respond (issued : IssuedToken) : Route → Sessions × Handler Body
  | .getSession => (sessions, return .session issued.claims)
  | .updateSession => (sessions, return .message "Session update acknowledged")
  | .refresh =>
    let claims := issued.claims
    let password := (sessions.passwordFor claims.sessionId).getD ""
    let (sessions, token) := sessions.createSessionWithPassword claims.sub claims.role
      claims.database claims.schema password issued.lineage
    (sessions.forget claims.sessionId, return .login token token)
  | .logout =>
    let sessions := sessions.forget issued.claims.sessionId
    ({ sessions with ended := issued.claims.sessionId :: sessions.ended },
      return .message "Logged out successfully")
  | .explorer => (sessions, do return .explorer (← getExplorerSnapshot env))
  | .explorerLists => (sessions, return .placeholder)
  | .query sql database =>
    (sessions, do return .query (← executeQuery env sessions issued.claims sql database))
  | .databases => (sessions, return .placeholder)
  | .listUsers => (sessions, do return .users (← listUsers env issued.claims))
  | .listGroups => (sessions, do return .groups (← listGroups env issued.claims))
  | .runAdminSql statements message =>
    (sessions, do
      runAdminSql env.catalog env.server env.pgEndpoint sessions issued.claims statements
      return .message message)
  | .system => (sessions, return .placeholder)

/-- Let a request with a valid token through to its route. -/
def requireAuth (token : Option SessionClaims) (route : Route) : Sessions × Handler Body :=
  match token.bind sessions.validateToken with
  | some issued => respond env sessions issued route
  | none => (sessions, throw .unauthorized)

/-- Sign in with a password that the server accepts. -/
def login (username password : String) : Sessions × Handler Body :=
  match (exec (executeSql env.server env.pgEndpoint username password DEFAULT_DATABASE "SELECT 1")
    []).1 with
  | .error _ => (sessions, throw .unauthorized)
  | .ok _ =>
    let role := match env.catalog with
      | .ok state => if userIsAdmin state username then "admin" else "user"
      | .error _ => "user"
    let (sessions, token) := sessions.createSessionWithPassword username role DEFAULT_DATABASE
      DEFAULT_SCHEMA password []
    (sessions, return .login token token)

end

/-- What happens to the gateway. -/
inductive Event where
  | login (username password : String) (env : RequestEnv)
  | request (token : Option SessionClaims) (route : Route) (env : RequestEnv)
  | restart

/-- The sessions after an event.  A restart loses the passwords, and ends the sessions there are. -/
def Event.perform : Event → Sessions → Sessions
  | .login username password env, sessions => (Gateway.login env sessions username password).1
  | .request token route env, sessions => (requireAuth env sessions token route).1
  | .restart, sessions =>
    { sessions with
      credentials := ∅
      ended := sessions.ended ++ List.range sessions.issued.length }

/-- The answer to a request, and the statements the server receives for it. -/
def answer (sessions : Sessions) (token : SessionClaims) (route : Route) (env : RequestEnv) :
    Except GatewayError Body × List String :=
  exec (requireAuth env sessions (some token) route).2 []

/-- A session is revoked when it, or one it was refreshed from, was logged out or ended by a
restart. -/
def Sessions.Revoked (sessions : Sessions) (token : SessionClaims) : Prop :=
  ∃ issued ∈ sessions.issued, issued.claims = token ∧ ∃ id ∈ issued.lineage, id ∈ sessions.ended

instance (sessions : Sessions) (token : SessionClaims) : Decidable (sessions.Revoked token) :=
  inferInstanceAs (Decidable (∃ issued ∈ sessions.issued, issued.claims = token
    ∧ ∃ id ∈ issued.lineage, id ∈ sessions.ended))

/-- A request is rejected when it is answered with 401 and the server receives nothing. -/
def Rejected (answered : Except GatewayError Body × List String) : Prop :=
  answered.1.mapError GatewayError.status = .error 401 ∧ answered.2 = []

/-! ### What revokes a session -/

/-- The tokens are numbered, and none of the sessions that are revoked has a password. -/
structure Wellformed (sessions : Sessions) : Prop where
  numbered : ∀ (id : Nat) (issued : IssuedToken), sessions.issued[id]? = some issued →
    issued.claims.sessionId = id
  lineage : ∀ issued ∈ sessions.issued, issued.claims.sessionId ∈ issued.lineage
    ∧ ∀ id ∈ issued.lineage, id < sessions.issued.length
  ended : ∀ id ∈ sessions.ended, id < sessions.issued.length
  revoked : ∀ issued ∈ sessions.issued, ∀ id ∈ issued.lineage, id ∈ sessions.ended →
    sessions.passwordFor issued.claims.sessionId = none

/-- A request that looks at the password before it is answered: a statement that is not blank, or a
change of users by an administrator while the catalogue can be read. -/
def Route.ConsultsPassword (env : RequestEnv) (token : SessionClaims) : Route → Prop
  | .query sql _ => (trimWhiteSpace sql).isEmpty = false
  | .runAdminSql .. => ∃ state, env.catalog = .ok state ∧ userIsAdmin state token.sub = true
  | _ => False

/-- An event that does not reach past a revocation: with a token that is revoked only requests that
look at the password are made, and a session is logged out when no session that was refreshed from
it has a password. -/
def Event.Harmless : Event → Sessions → Prop
  | .request (some token) route env, sessions =>
    (sessions.Revoked token → route.ConsultsPassword env token)
    ∧ (route = .logout → ∀ issued ∈ sessions.issued, token.sessionId ∈ issued.lineage →
      issued.claims.sessionId ≠ token.sessionId →
      sessions.passwordFor issued.claims.sessionId = none)
  | _, _ => True

section

variable {sessions : Sessions} {token : SessionClaims} {route : Route} {env : RequestEnv}

/-- Two tokens of one session are the same. -/
theorem Wellformed.unique (h : Wellformed sessions) {issued issued' : IssuedToken}
    (hissued : issued ∈ sessions.issued) (hissued' : issued' ∈ sessions.issued)
    (hid : issued.claims.sessionId = issued'.claims.sessionId) :
  issued = issued'
  := by
  obtain ⟨id, hid₁⟩ := List.mem_iff_getElem?.mp hissued
  obtain ⟨id', hid₂⟩ := List.mem_iff_getElem?.mp hissued'
  rw [h.numbered id issued hid₁, h.numbered id' issued' hid₂] at hid
  subst hid
  exact Option.some.inj (hid₁.symm.trans hid₂)

/-- A token that was signed is valid. -/
theorem Wellformed.validateToken (h : Wellformed sessions) {issued : IssuedToken}
    (hissued : issued ∈ sessions.issued) :
  sessions.validateToken issued.claims = some issued
  := by
  rw [Sessions.validateToken]
  cases hfind : sessions.issued.find? (·.claims = issued.claims) with
  | none => simpa using List.find?_eq_none.mp hfind issued hissued
  | some found =>
      have hclaims : found.claims = issued.claims := by simpa using List.find?_some hfind
      rw [h.unique (List.mem_of_find?_eq_some hfind) hissued (by rw [hclaims])]

theorem mem_of_validateToken {issued : IssuedToken}
    (h : sessions.validateToken token = some issued) :
  issued ∈ sessions.issued ∧ issued.claims = token
  := ⟨List.mem_of_find?_eq_some h, by simpa using List.find?_some h⟩

/-- A request of a session that was revoked is rejected just when it looks at the password. -/
theorem Wellformed.rejected_iff (h : Wellformed sessions) (htoken : sessions.Revoked token) :
  Rejected (answer sessions token route env) ↔ route.ConsultsPassword env token
  := by
  obtain ⟨issued, hissued, rfl, id, hid, hended⟩ := htoken
  have hnone := h.revoked issued hissued id hid hended
  have hvalid := h.validateToken hissued
  simp only [answer, requireAuth, Option.bind_some, hvalid]
  cases route with
  | query sql database =>
      cases hsql : (trimWhiteSpace sql).isEmpty <;>
        simp [Rejected, respond, executeQuery, hsql, requirePassword, hnone, Except.mapError,
          GatewayError.status, Route.ConsultsPassword]
  | runAdminSql statements message =>
      cases hcatalog : env.catalog with
      | error message =>
          simp [Rejected, respond, runAdminSql, adminRead, openCatalog, hcatalog, Except.mapError,
            GatewayError.status, Route.ConsultsPassword]
      | ok state =>
          cases hadmin : userIsAdmin state issued.claims.sub <;>
            simp [Rejected, respond, runAdminSql, adminRead, openCatalog, hcatalog, hadmin,
              requirePassword, hnone, Except.mapError, GatewayError.status, Route.ConsultsPassword]
  | explorer =>
      cases hcatalog : env.catalog <;>
        simp [Rejected, respond, getExplorerSnapshot, openCatalog, hcatalog, Except.mapError,
          GatewayError.status, Route.ConsultsPassword]
  | listUsers =>
      cases hcatalog : env.catalog with
      | error message =>
          simp [Rejected, respond, listUsers, adminRead, openCatalog, hcatalog, Except.mapError,
            GatewayError.status, Route.ConsultsPassword]
      | ok state =>
          cases hadmin : userIsAdmin state issued.claims.sub <;>
            simp [Rejected, respond, listUsers, adminRead, openCatalog, hcatalog, hadmin,
              Except.mapError, GatewayError.status, Route.ConsultsPassword]
  | listGroups =>
      cases hcatalog : env.catalog with
      | error message =>
          simp [Rejected, respond, listGroups, adminRead, openCatalog, hcatalog, Except.mapError,
            GatewayError.status, Route.ConsultsPassword]
      | ok state =>
          cases hadmin : userIsAdmin state issued.claims.sub <;>
            simp [Rejected, respond, listGroups, adminRead, openCatalog, hcatalog, hadmin,
              Except.mapError, GatewayError.status, Route.ConsultsPassword]
  | _ => simp [Rejected, respond, Except.mapError, Route.ConsultsPassword]

theorem Wellformed.initial : Wellformed Sessions.initial
  := by
  constructor <;> simp [Sessions.initial]

theorem passwordFor_forget (sessionId id : Nat) :
  (sessions.forget sessionId).passwordFor id
    = if sessionId = id then none else sessions.passwordFor id
  := by
  simp only [Sessions.forget, Sessions.passwordFor, Std.ExtTreeMap.getElem?_erase,
    Nat.compare_eq_eq]

/-- Forgetting a password keeps the sessions well formed. -/
theorem Wellformed.forget (h : Wellformed sessions) (sessionId : Nat) :
  Wellformed (sessions.forget sessionId)
  := by
  constructor
  · exact h.numbered
  · exact h.lineage
  · exact h.ended
  · intro issued hissued id hid hrevoked
    rw [passwordFor_forget]
    split
    · rfl
    · exact h.revoked issued hissued id hid hrevoked

/-- A new session that does not come from one that has ended keeps the sessions well formed. -/
theorem Wellformed.create (h : Wellformed sessions)
    (username role database schema password : String) {refreshedFrom : List Nat}
    (hlineage : ∀ id ∈ refreshedFrom, id < sessions.issued.length)
    (hended : ∀ id ∈ refreshedFrom, id ∉ sessions.ended) :
  Wellformed (sessions.createSessionWithPassword username role database schema password
    refreshedFrom).1
  := by
  have hnew : sessions.issued.length ∉ sessions.ended := by
    intro hmem
    exact absurd (h.ended _ hmem) (lt_irrefl _)
  have hnumbered : ∀ (id : Nat) (issued : IssuedToken),
      (sessions.createSessionWithPassword username role database schema password
        refreshedFrom).1.issued[id]? = some issued → issued.claims.sessionId = id := by
    intro id issued hissued
    simp only [Sessions.createSessionWithPassword, List.getElem?_append] at hissued
    split at hissued
    · exact h.numbered id issued hissued
    · rename_i hid
      obtain ⟨hlast, rfl⟩ := List.getElem?_eq_some_iff.mp hissued
      simp only [List.length_singleton, List.getElem_singleton] at hlast ⊢
      omega
  have hlineage' : ∀ issued ∈ (sessions.createSessionWithPassword username role database schema
      password refreshedFrom).1.issued, issued.claims.sessionId ∈ issued.lineage
        ∧ ∀ id ∈ issued.lineage, id < sessions.issued.length + 1 := by
    intro issued hissued
    obtain hissued | hissued := List.mem_append.mp hissued
    · refine ⟨(h.lineage issued hissued).1, ?_⟩
      intro id hid
      exact Nat.lt_succ_of_lt ((h.lineage issued hissued).2 id hid)
    · obtain rfl := List.mem_singleton.mp hissued
      refine ⟨List.mem_cons_self, ?_⟩
      intro id hid
      obtain rfl | hid := List.mem_cons.mp hid
      · exact Nat.lt_succ_self _
      · exact Nat.lt_succ_of_lt (hlineage id hid)
  constructor
  · exact hnumbered
  · intro issued hissued
    simpa [Sessions.createSessionWithPassword] using hlineage' issued hissued
  · intro id hid
    have := h.ended id hid
    simp only [Sessions.createSessionWithPassword, List.length_append, List.length_singleton]
    omega
  · intro issued hissued id hid hrevoked
    obtain hissued | hissued := List.mem_append.mp hissued
    · -- an earlier session has another id, and its password is what it was
      have hlt := (h.lineage issued hissued).2 _ (h.lineage issued hissued).1
      have hne : sessions.issued.length ≠ issued.claims.sessionId := by omega
      have hnone := h.revoked issued hissued id hid hrevoked
      simpa [Sessions.createSessionWithPassword, Sessions.passwordFor,
        Std.ExtTreeMap.getElem?_insert, hne] using hnone
    · obtain rfl := List.mem_singleton.mp hissued
      obtain rfl | hid := List.mem_cons.mp hid
      · exact absurd hrevoked hnew
      · exact absurd hrevoked (hended id hid)

/-- Logging a session out keeps the sessions well formed when no session that was refreshed from it
has a password. -/
theorem Wellformed.logout (h : Wellformed sessions) {sessionId : Nat}
    (hid : sessionId < sessions.issued.length)
    (hnone : ∀ issued ∈ sessions.issued, sessionId ∈ issued.lineage →
      issued.claims.sessionId ≠ sessionId →
      sessions.passwordFor issued.claims.sessionId = none) :
  Wellformed { sessions.forget sessionId with ended := sessionId :: sessions.ended }
  := by
  have hforget := h.forget sessionId
  constructor
  · exact hforget.numbered
  · exact hforget.lineage
  · intro id hended
    obtain rfl | hended := List.mem_cons.mp hended
    · exact hid
    · exact hforget.ended id hended
  · intro issued hissued id hmem hended
    obtain rfl | hended := List.mem_cons.mp hended
    · change (sessions.forget id).passwordFor issued.claims.sessionId = none
      rw [passwordFor_forget]
      split
      · rfl
      · rename_i hne
        exact hnone issued hissued hmem (Ne.symm hne)
    · exact hforget.revoked issued hissued id hmem hended

/-- The sessions stay well formed when a request is let through: a refresh of a session that is not
revoked, a logout that leaves no password behind, any other request. -/
theorem Wellformed.respond (h : Wellformed sessions) {issued : IssuedToken}
    (hissued : issued ∈ sessions.issued)
    (hrefresh : route = .refresh → ∀ id ∈ issued.lineage, id ∉ sessions.ended)
    (hlogout : route = .logout → ∀ issued' ∈ sessions.issued,
      issued.claims.sessionId ∈ issued'.lineage →
      issued'.claims.sessionId ≠ issued.claims.sessionId →
      sessions.passwordFor issued'.claims.sessionId = none) :
  Wellformed (respond env sessions issued route).1
  := by
  obtain ⟨hself, hlineage⟩ := h.lineage issued hissued
  cases route with
  | refresh => exact (h.create _ _ _ _ _ hlineage (hrefresh rfl)).forget _
  | logout => exact h.logout (hlineage _ hself) (hlogout rfl)
  | _ => exact h

/-- The sessions stay well formed when somebody signs in. -/
theorem Wellformed.login (h : Wellformed sessions) (username password : String) :
  Wellformed (login env sessions username password).1
  := by
  rw [Gateway.login]
  split
  · exact h
  · apply h.create <;> simp

/-- The sessions stay well formed when the gateway restarts. -/
theorem Wellformed.restart (h : Wellformed sessions) :
  Wellformed (Event.perform .restart sessions)
  := by
  constructor
  · exact h.numbered
  · exact h.lineage
  · intro id hid
    obtain hid | hid := List.mem_append.mp hid
    · exact h.ended id hid
    · exact List.mem_range.mp hid
  · intro issued hissued id hid hended
    simp [Event.perform, Sessions.passwordFor]

/-- The sessions stay well formed in every event that does not reach past a revocation. -/
theorem Wellformed.perform (h : Wellformed sessions) {event : Event}
    (hharmless : event.Harmless sessions) :
  Wellformed (event.perform sessions)
  := by
  cases event with
  | login username password env => exact h.login username password
  | restart => exact h.restart
  | request token route env =>
      simp only [Event.perform, requireAuth]
      split
      · rename_i issued hvalid
        obtain ⟨token, rfl, hvalid⟩ := Option.bind_eq_some_iff.mp hvalid
        obtain ⟨hissued, rfl⟩ := mem_of_validateToken hvalid
        obtain ⟨hconsults, hlogout⟩ := hharmless
        apply h.respond hissued _ hlogout
        rintro rfl id hid hended
        exact hconsults ⟨issued, hissued, rfl, id, hid, hended⟩
      · exact h

/-- The sessions are well formed in every run that does not reach past a revocation. -/
theorem Wellformed.performAll (h : Wellformed sessions) {events : List Event}
    (hharmless : AllAllowed Event.perform Event.Harmless events sessions) :
  Wellformed (performAll Event.perform events sessions)
  := by
  induction events generalizing sessions with
  | nil => exact h
  | cons event events ih => exact ih (h.perform hharmless.1) hharmless.2

/-- In a run that does not reach past a revocation, every request with a token that is revoked is
rejected. -/
theorem rejected_of_harmless (events : List Event) (token : SessionClaims) (route : Route)
    (env : RequestEnv)
    (hharmless : AllAllowed Event.perform Event.Harmless
      (events ++ [.request (some token) route env]) Sessions.initial)
    (hrevoked : (performAll Event.perform events Sessions.initial).Revoked token) :
  Rejected (answer (performAll Event.perform events Sessions.initial) token route env)
  := by
  obtain ⟨hevents, hrequest, -⟩ := (allAllowed_append _ _ _).mp hharmless
  exact ((Wellformed.initial.performAll hevents).rejected_iff hrevoked).mpr (hrequest.1 hrevoked)

end

/-! ### Runs in which a revoked session is answered -/

/-- A first install, and a server that takes every connection and every statement. -/
def sampleEnv : RequestEnv :=
  { catalog := .ok (bootstrapState (fun _ => ⟨"", "", ""⟩) (fun _ => 0))
    pgEndpoint := "127.0.0.1:5432"
    connect := fun _ _ _ => .ok ()
    simpleQuery := fun _ _ _ => .ok [] }

/-- The token of the session with this number. -/
def sampleToken (sessionId : Nat) : SessionClaims :=
  { sub := "admin", role := "admin", database := DEFAULT_DATABASE, schema := DEFAULT_SCHEMA
    sessionId := sessionId }

/-- Somebody signs in and logs out. -/
def loggedOut : List Event :=
  [.login "admin" "secret" sampleEnv, .request (some (sampleToken 0)) .logout sampleEnv]

/-- Somebody signs in, refreshes the session, and logs out with the token from before. -/
def refreshedAndLoggedOut : List Event :=
  [.login "admin" "secret" sampleEnv, .request (some (sampleToken 0)) .refresh sampleEnv,
    .request (some (sampleToken 0)) .logout sampleEnv]

/-- A statement of a session that was logged out is rejected. -/
theorem loggedOut_rejected :
  Rejected (answer (performAll Event.perform loggedOut Sessions.initial) (sampleToken 0)
    (.query "SELECT 1" none) sampleEnv)
  := by
  apply rejected_of_harmless loggedOut
  · refine ⟨trivial, ⟨?_, ?_⟩, ⟨?_, ?_⟩, trivial⟩
    · intro hrevoked
      exact absurd hrevoked (by decide)
    · intro _
      decide
    · intro _
      change (trimWhiteSpace "SELECT 1").isEmpty = false
      decide
    · rintro ⟨⟩
  · decide

/-- The statement of a refreshed session is executed, after the session it comes from was logged
out. -/
theorem refreshedAndLoggedOut_executes :
  (answer (performAll Event.perform refreshedAndLoggedOut Sessions.initial) (sampleToken 1)
    (.query "SELECT 1" none) sampleEnv).2 = ["SELECT 1"]
  := by
  decide

/-- Not every request of a session that was revoked is rejected. -/
theorem not_rejected :
  ¬ ∀ (events : List Event) (token : SessionClaims) (route : Route) (env : RequestEnv),
    (performAll Event.perform events Sessions.initial).Revoked token →
    Rejected (answer (performAll Event.perform events Sessions.initial) token route env)
  := by
  intro h
  have hrejected := h refreshedAndLoggedOut (sampleToken 1) (.query "SELECT 1" none) sampleEnv
    (by decide)
  have hreceived := hrejected.2
  rw [refreshedAndLoggedOut_executes] at hreceived
  cases hreceived

end Gateway
