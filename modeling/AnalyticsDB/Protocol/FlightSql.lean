import AnalyticsDB.Lib.Run
import AnalyticsDB.Lib.Text
import AnalyticsDB.Storage.Location
import AnalyticsDB.Control.Credentials

/-!
# The users Flight SQL requests run as

A request is answered in a session, and the session says as which user its SQL runs.  There
are three ways to a session: a bearer token that a handshake issued, the headers of the
request, and the session that a ticket, a handle of a prepared statement or a request between
nodes carries with it.  Only the first is checked against the catalogue: the token has to be
signed, unexpired, and of the current version of the password of its user.
-/

open Eff

/-- The codes of the errors a client sees. -/
inductive Code where
  | invalidArgument
  | unauthenticated
  | permissionDenied
  | internal
  deriving DecidableEq, Repr

structure Status where
  code : Code
  message : String
  deriving DecidableEq, Repr

/-- An error of the library or the control plane as an error of the given kind. -/
def orStatus {α : Type} (status : String → Status) : Except String α → Except Status α
  | .ok a => .ok a
  | .error message => .error (status message)

def statusFromError (message : String) : Status := ⟨.internal, message⟩

/-! ### Metadata -/

def FLIGHT_USER_HEADER : String := "x-analyticsdb-user"

def FLIGHT_ROLE_HEADER : String := "x-analyticsdb-role"

def FLIGHT_DATABASE_HEADER : String := "x-analyticsdb-database"

def FLIGHT_SCHEMA_HEADER : String := "x-analyticsdb-schema"

def FLIGHT_AUTH_METHOD_HEADER : String := "x-analyticsdb-auth-method"

/-- The header with the token or the password. -/
def AUTHORIZATION : String := "authorization"

/-- The first value of each header of a request. -/
abbrev MetadataMap := KeyMap (List UInt8)

/-- The bytes that a value which is read as a text may have. -/
def isVisibleAscii (byte : UInt8) : Bool := (32 ≤ byte && byte < 127) || byte == 9

/-- A header as a text, if it is there and is one. -/
def metadataValue (metadata : MetadataMap) (key : String) : Option String :=
  metadata[key]?.bind (fun bytes =>
    if bytes.all isVisibleAscii then
      some (String.ofList (bytes.map (fun byte => Char.ofNat byte.toNat)))
    else
      none)

/-- A text as the value of a header; control characters are refused. -/
def metadataValueFrom (text : String) : Except String (List UInt8) :=
  let bytes := text.toList.flatMap String.utf8EncodeChar
  if bytes.all (fun byte => (32 ≤ byte && byte != 127) || byte == 9) then
    .ok bytes
  else
    .error "failed to parse metadata value"

/-- The texts before and after the first colon. -/
def splitOnceAtColon (text : String) : Option (String × String) :=
  match text.toList.span (· ≠ ':') with
  | (_, []) => none
  | (before, _ :: after) => some (String.ofList before, String.ofList after)

/-- The token of a request with bearer authorization. -/
def bearerToken (metadata : MetadataMap) : Option String :=
  (metadataValue metadata AUTHORIZATION).bind (stripStart? · "Bearer ")

/-! ### What is carried around -/

structure AuthRequest where
  protocol : Protocol
  user : String
  database : String
  schema : String
  role : Option String
  password : Option String
  authHeader : Option String
  deriving DecidableEq, Repr

structure AuthDecision where
  user : String
  role : String
  database : String
  schema : String
  authMethod : String
  deriving DecidableEq, Repr

/-- The claims of a bearer token. -/
structure FlightSqlClaims where
  sub : String
  role : String
  db : String
  schema : String
  /-- The version of the password; the token is invalid once it is rotated. -/
  pwdVer : Nat
  exp : Nat
  iat : Nat
  deriving DecidableEq, Repr

/-- SQL and the session it is to run in. -/
structure QueryRequest where
  sql : String
  session : SessionContext
  deriving DecidableEq, Repr

/-- What a ticket and a handle of a prepared statement stand for. -/
structure StatementTicketPayload where
  sql : String
  session : SessionContext
  rowSchemaIpc : Option (List UInt8)
  deriving DecidableEq, Repr

/-- What the service gets from its libraries. -/
structure FlightLibraries where
  base64Decode : String → Except String (List UInt8)
  /-- `jsonwebtoken::encode` with a secret. -/
  jwtEncode : String → FlightSqlClaims → Except String String
  /-- `jsonwebtoken::decode` with a secret, at a time in seconds. -/
  jwtDecode : String → Nat → String → Except String FlightSqlClaims
  /-- What is decoded is what was encoded. -/
  jwtDecode_encode : ∀ secret claims token now claims', jwtEncode secret claims = .ok token →
    jwtDecode secret now token = .ok claims' → claims' = claims
  /-- A token is accepted for sixty seconds after it expires. -/
  jwtDecode_unexpired : ∀ secret now token claims, jwtDecode secret now token = .ok claims →
    now ≤ claims.exp + 60
  /-- `serde_json::to_vec`. -/
  ticketToVec : StatementTicketPayload → Except String (List UInt8)
  /-- `serde_json::from_slice`. -/
  ticketFromSlice : List UInt8 → Except String StatementTicketPayload
  /-- The SQL and the session of a request for a partition, as `bincode` decodes it. -/
  partitionFromSlice : List UInt8 → Except String QueryRequest
  /-- The encoded schema of the rows of a query, as it is planned. -/
  planQuerySchema : CatalogState → QueryRequest → Except String (Option (List UInt8))
  /-- The encoded schema without columns. -/
  emptySchemaIpc : List UInt8

/-- What the service depends on: the catalogue and the time in seconds. -/
structure FlightServer where
  world : World
  clock : Nat

section

variable (f : FlightLibraries) (o : Outside)

/-! ### The handshake -/

/-- The user and the password of a request with basic authorization. -/
def parseBasicAuthFromMetadata (metadata : MetadataMap) :
    Except Status (Option (String × String)) :=
  match metadataValue metadata AUTHORIZATION with
  | none => .ok none
  | some rawAuth =>
    match stripStart? rawAuth "Basic " with
    | none => .ok none
    | some encoded => do
      let decoded ← orStatus
        (fun error => ⟨.invalidArgument, s!"invalid basic authorization payload: {error}"⟩)
        (f.base64Decode encoded)
      match String.fromUTF8? ⟨decoded.toArray⟩ with
      | none => throw ⟨.invalidArgument, "invalid utf8 in authorization payload"⟩
      | some pair =>
        match splitOnceAtColon pair with
        | none =>
          throw ⟨.invalidArgument, "basic authorization payload must contain username:password"⟩
        | some parts => return some parts

/-- How a user was authenticated. -/
def authMethodOf (request : AuthRequest) : String :=
  if request.authHeader.isSome then
    "prototype-basic-auth"
  else
    match request.protocol with
    | .postgreSql => "postgres-wire-startup"
    | .arrowFlightSql => "flight-sql-metadata"
    | .embedded => "embedded-prototype"

/-- Check a password that is given; without one the user has only to exist. -/
def checkPassword (state : CatalogState) (user : String) : Option String → Except Status Unit
  | some password => do
    let _ ← orStatus (⟨.unauthenticated, ·⟩) (validateCredentials o state user (some password))
  | none => do
    let _ ← orStatus (⟨.unauthenticated, ·⟩) (catalogUser state user)

/-- The user and the role that a client has authenticated as. -/
def authenticate (state : CatalogState) (request : AuthRequest) : Except Status AuthDecision := do
  let user := trimWhiteSpace request.user
  if user.isEmpty then
    throw ⟨.invalidArgument, "user cannot be empty in prototype auth hook"⟩
  checkPassword o state user request.password
  let resolvedRole := request.role.getD user
  orStatus (⟨.permissionDenied, ·⟩) (authorizeRoleAssumption state user resolvedRole)
  return {
    user := user
    role := resolvedRole
    database := request.database
    schema := request.schema
    authMethod := authMethodOf request }

/-- The request for authentication that a handshake makes. -/
def handshakeAuthRequest (metadata : MetadataMap) (basicAuth : Option (String × String)) :
    AuthRequest :=
  { protocol := .arrowFlightSql
    user := ((basicAuth.map (·.1)).or (metadataValue metadata FLIGHT_USER_HEADER)).getD "postgres"
    database := (metadataValue metadata FLIGHT_DATABASE_HEADER).getD "postgres"
    schema := (metadataValue metadata FLIGHT_SCHEMA_HEADER).getD "public"
    role := metadataValue metadata FLIGHT_ROLE_HEADER
    password := basicAuth.map (·.2)
    authHeader := metadataValue metadata AUTHORIZATION }

/-- The answer to a handshake: the token, and the headers that repeat it and the decision. -/
structure HandshakeResponse where
  protocolVersion : Nat
  payload : String
  authorization : List UInt8
  user : List UInt8
  role : List UInt8
  authMethod : List UInt8
  deriving DecidableEq, Repr

/-- The claims of the token that a handshake issues. -/
def handshakeClaims (decision : AuthDecision) (entry : CatalogUser) (now : Nat) :
    FlightSqlClaims :=
  { sub := decision.user
    role := decision.role
    db := decision.database
    schema := decision.schema
    pwdVer := entry.passwordVersion
    exp := now + 86400
    iat := now }

def doHandshake (jwtSecret : String) (server : FlightServer) (metadata : MetadataMap)
    (protocolVersion : Nat) : Except Status HandshakeResponse := do
  let basicAuth ← parseBasicAuthFromMetadata f metadata
  let decision ← authenticate o server.world.catalog (handshakeAuthRequest metadata basicAuth)
  let entry ← orStatus statusFromError (catalogUser server.world.catalog decision.user)
  let token ← orStatus (fun e => ⟨.internal, s!"JWT signing error: {e}"⟩)
    (f.jwtEncode jwtSecret (handshakeClaims decision entry server.clock))
  let authorization ← orStatus
    (fun error => ⟨.internal, s!"invalid authorization metadata: {error}"⟩)
    (metadataValueFrom ("Bearer " ++ token))
  let user ← orStatus (fun error => ⟨.internal, s!"invalid handshake user metadata: {error}"⟩)
    (metadataValueFrom decision.user)
  let role ← orStatus (fun error => ⟨.internal, s!"invalid handshake role metadata: {error}"⟩)
    (metadataValueFrom decision.role)
  let authMethod ← orStatus
    (fun error => ⟨.internal, s!"invalid handshake auth metadata: {error}"⟩)
    (metadataValueFrom decision.authMethod)
  return {
    protocolVersion := protocolVersion
    payload := token
    authorization := authorization
    user := user
    role := role
    authMethod := authMethod }

/-! ### Sessions -/

/-- The session the headers of a request name. -/
def flightSessionFromMetadata (metadata : MetadataMap) : SessionContext :=
  let user := (metadataValue metadata FLIGHT_USER_HEADER).getD "postgres"
  { user := user
    role := (metadataValue metadata FLIGHT_ROLE_HEADER).getD user
    database := (metadataValue metadata FLIGHT_DATABASE_HEADER).getD "postgres"
    schema := (metadataValue metadata FLIGHT_SCHEMA_HEADER).getD "public"
    authMethod := (metadataValue metadata FLIGHT_AUTH_METHOD_HEADER).getD "flight-sql-metadata"
    protocol := .arrowFlightSql
    transactionStatus := .idle
    statementTimeoutMs := 0
    idleInTransactionTimeoutMs := 0 }

/-- The session of a bearer token that is valid and of the current version of the password. -/
def verifyBearerToken (jwtSecret : String) (server : FlightServer) (token : String) :
    Except Status SessionContext := do
  let claims ← orStatus (fun e => ⟨.unauthenticated, s!"invalid JWT: {e}"⟩)
    (f.jwtDecode jwtSecret server.clock token)
  let entry ← orStatus (fun e => ⟨.unauthenticated, s!"user lookup failed: {e}"⟩)
    (catalogUser server.world.catalog claims.sub)
  if entry.passwordVersion ≠ claims.pwdVer then
    throw ⟨.unauthenticated,
      "token has been invalidated by a password rotation — please re-authenticate"⟩
  return {
    user := claims.sub
    role := claims.role
    database := claims.db
    schema := claims.schema
    authMethod := "flight-sql-jwt"
    protocol := .arrowFlightSql
    transactionStatus := .idle
    statementTimeoutMs := 0
    idleInTransactionTimeoutMs := 0 }

/-- The session of a request: that of its bearer token, or else that of its headers, which
requests between nodes use. -/
def sessionFromRequest (jwtSecret : String) (server : FlightServer) (metadata : MetadataMap) :
    Except Status SessionContext :=
  match bearerToken metadata with
  | some token => verifyBearerToken f jwtSecret server token
  | none => .ok (flightSessionFromMetadata metadata)

/-! ### Requests -/

/-- The commands of Flight SQL that run SQL or prepare it. -/
inductive FlightCommand where
  | getFlightInfoStatement (query : String)
  | doGetStatement (statementHandle : List UInt8)
  | doPutStatementUpdate (query : String)
  | doPutPreparedStatementUpdate (preparedStatementHandle : List UInt8)
  | createPreparedStatement (query : String)
  | getFlightInfoPreparedStatement (preparedStatementHandle : List UInt8)
  | executePartition (body : List UInt8)
  | executePartitionWrite (body : List UInt8)
  deriving DecidableEq, Repr

structure FlightRequest where
  metadata : MetadataMap
  command : FlightCommand

/-- What a request leads to: a query that runs, or a ticket or handle for one. -/
inductive FlightAnswer where
  | executes (query : QueryRequest)
  | handle (bytes : List UInt8)
  deriving DecidableEq, Repr

/-- Run a query whose session is valid. -/
def executeQuery (server : FlightServer) (query : QueryRequest) : Except Status FlightAnswer := do
  orStatus statusFromError (validateSession server.world.catalog query.session)
  return .executes query

/-- The schema of the rows of a query whose session is valid. -/
def planSchema (server : FlightServer) (query : QueryRequest) :
    Except String (Option (List UInt8)) := do
  validateSession server.world.catalog query.session
  f.planQuerySchema server.world.catalog query

/-- A ticket is its payload as a text; it is not signed. -/
def statementTicket (payload : StatementTicketPayload) : Except Status FlightAnswer := do
  let bytes ← orStatus statusFromError (f.ticketToVec payload)
  return .handle bytes

def decodeStatementTicket (bytes : List UInt8) : Except Status StatementTicketPayload :=
  orStatus statusFromError (f.ticketFromSlice bytes)

def serve (jwtSecret : String) (server : FlightServer) (request : FlightRequest) :
    Except Status FlightAnswer :=
  match request.command with
  | .getFlightInfoStatement query => do
    let session ← sessionFromRequest f jwtSecret server request.metadata
    let schema ← orStatus statusFromError (planSchema f server ⟨query, session⟩)
    statementTicket f ⟨query, session, some (schema.getD f.emptySchemaIpc)⟩
  | .doGetStatement statementHandle => do
    let payload ← decodeStatementTicket f statementHandle
    executeQuery server ⟨payload.sql, payload.session⟩
  | .doPutStatementUpdate query => do
    let session ← sessionFromRequest f jwtSecret server request.metadata
    executeQuery server ⟨query, session⟩
  | .doPutPreparedStatementUpdate preparedStatementHandle => do
    let payload ← decodeStatementTicket f preparedStatementHandle
    executeQuery server ⟨payload.sql, payload.session⟩
  | .createPreparedStatement query => do
    let session ← sessionFromRequest f jwtSecret server request.metadata
    -- A statement that cannot be planned is prepared all the same.
    let schema := (planSchema f server ⟨query, session⟩).toOption.join
    statementTicket f ⟨query, session, schema⟩
  | .getFlightInfoPreparedStatement preparedStatementHandle => do
    let payload ← decodeStatementTicket f preparedStatementHandle
    statementTicket f
      ⟨payload.sql, payload.session, some (payload.rowSchemaIpc.getD f.emptySchemaIpc)⟩
  | .executePartition body | .executePartitionWrite body => do
    let query ← orStatus statusFromError (f.partitionFromSlice body)
    return .executes query

end

/-! ### Histories -/

/-- What happens at a server, one after the other: the control plane is asked to perform an
operation by whoever it may be, the clock is set, or a client shakes hands. -/
inductive FlightEvent where
  | perform (session : SessionContext) (op : ControlOp)
  | setClock (now : Nat)
  | handshake (metadata : MetadataMap) (protocolVersion : Nat)

/-- The operations that take a user out of the catalogue. -/
def FlightEvent.removes (user : String) : FlightEvent → Bool
  | .perform _ op => op.removes user
  | _ => false

section

variable (f : FlightLibraries) (o : Outside) (jwtSecret : String)

/-- A handshake leaves the server as it is. -/
def FlightEvent.apply : FlightEvent → FlightServer → FlightServer
  | .perform session op, server =>
    { server with world := (exec (performOp o session op) server.world).2 }
  | .setClock now, server => { server with clock := now }
  | .handshake .., server => server

/-- The server after a history. -/
def afterHistory (history : List FlightEvent) (server : FlightServer) : FlightServer :=
  Run.performAll (FlightEvent.apply o) history server

/-- The password of a user is rotated, and the rotation returns. -/
def FlightEvent.Rotates (user : String) (event : FlightEvent) (server : FlightServer) : Prop :=
  ∃ session op message, event = .perform session op ∧ op.rotates user = true
    ∧ (exec (performOp o session op) server.world).1 = .ok message

/-- The password of a user is rotated in a history. -/
def RotatedIn (user : String) : List FlightEvent → FlightServer → Prop
  | [], _ => False
  | event :: history, server =>
    event.Rotates o user server ∨ RotatedIn user history (event.apply o server)

/-- A handshake of a history answers with a token, and the events `later` come after it. -/
structure Issues (start : FlightServer) (history : List FlightEvent) (token : String)
    (metadata : MetadataMap) (earlier later : List FlightEvent) : Prop where
  history_eq : ∃ protocolVersion, history = earlier ++ .handshake metadata protocolVersion :: later
    ∧ ∃ response, doHandshake f o jwtSecret (afterHistory o earlier start) metadata protocolVersion
        = .ok response ∧ response.payload = token

/-- The handshake that a token comes from was made as its user: the password, if one was sent,
was that of the user. -/
def Authentic (server : FlightServer) (metadata : MetadataMap) (user : String) : Prop :=
  ∃ basicAuth, parseBasicAuthFromMetadata f metadata = .ok basicAuth
    ∧ user = trimWhiteSpace (handshakeAuthRequest metadata basicAuth).user
    ∧ ∀ name password, basicAuth = some (name, password) →
        ∃ entry, validateCredentials o server.world.catalog user (some password) = .ok entry

/-- A request carries a token that a handshake issued to a user, that has not expired, and that
is of the current version of the password of the user; if the password was rotated since the
token was issued, then the user was taken out of the catalogue in between. -/
def HoldsCurrentToken (start : FlightServer) (history : List FlightEvent)
    (metadata : MetadataMap) (user : String) : Prop :=
  ∃ token claims, bearerToken metadata = some token
    ∧ claims.sub = user
    ∧ (afterHistory o history start).clock ≤ claims.exp + 60
    ∧ (afterHistory o history start).world.catalog.passwordVersion? user = some claims.pwdVer
    ∧ (∃ sent earlier later, Issues f o jwtSecret start history token sent earlier later
        ∧ f.jwtEncode jwtSecret claims = .ok token
        ∧ Authentic f o (afterHistory o earlier start) sent user)
    ∧ ∀ sent earlier later, Issues f o jwtSecret start history token sent earlier later →
        RotatedIn o user later (afterHistory o earlier start) →
        ∃ event ∈ later, event.removes user = true

/-- The session that a command carries with it. -/
def FlightCommand.carriedSession : FlightCommand → Option SessionContext
  | .doGetStatement bytes | .doPutPreparedStatementUpdate bytes
  | .getFlightInfoPreparedStatement bytes => (f.ticketFromSlice bytes).toOption.map (·.session)
  | .executePartition body | .executePartitionWrite body =>
    (f.partitionFromSlice body).toOption.map (·.session)
  | _ => none

/-- No signature is forged: a token that is accepted was issued by a handshake. -/
def Unforged (start : FlightServer) (history : List FlightEvent) (metadata : MetadataMap) : Prop :=
  ∀ token claims, bearerToken metadata = some token →
    f.jwtDecode jwtSecret (afterHistory o history start).clock token = .ok claims →
    ∃ sent earlier later, Issues f o jwtSecret start history token sent earlier later

/-! ### What a token stands for -/

theorem orStatus_ok_iff {α : Type} {status : String → Status} {x : Except String α} {a : α} :
  orStatus status x = .ok a ↔ x = .ok a
  := by
  cases x with
  | ok b => simp [orStatus]
  | error message => simp [orStatus]

variable {f o jwtSecret}

theorem authenticate_ok {state : CatalogState} {request : AuthRequest} {decision : AuthDecision}
    (h : authenticate o state request = .ok decision) :
  decision.user = trimWhiteSpace request.user
    ∧ ∀ password, request.password = some password →
        ∃ entry, validateCredentials o state decision.user (some password) = .ok entry
  := by
  simp only [authenticate] at h
  split at h
  · cases h
  · obtain ⟨_, hchecked, h⟩ := Except.bind_eq_ok_iff.mp h
    obtain ⟨_, -, h⟩ := Except.bind_eq_ok_iff.mp h
    cases h
    refine ⟨rfl, ?_⟩
    intro password hpassword
    rw [hpassword] at hchecked
    obtain ⟨entry, hentry, -⟩ := Except.bind_eq_ok_iff.mp hchecked
    exact ⟨entry, orStatus_ok_iff.mp hentry⟩

/-- A handshake that answers encodes claims of the current version of the password of the user
it authenticated. -/
theorem doHandshake_ok {server : FlightServer} {metadata : MetadataMap} {protocolVersion : Nat}
    {response : HandshakeResponse}
    (h : doHandshake f o jwtSecret server metadata protocolVersion = .ok response) :
  ∃ claims, f.jwtEncode jwtSecret claims = .ok response.payload
    ∧ server.world.catalog.passwordVersion? claims.sub = some claims.pwdVer
    ∧ Authentic f o server metadata claims.sub
  := by
  obtain ⟨basicAuth, hbasicAuth, h⟩ := Except.bind_eq_ok_iff.mp h
  obtain ⟨decision, hdecision, h⟩ := Except.bind_eq_ok_iff.mp h
  obtain ⟨entry, hentry, h⟩ := Except.bind_eq_ok_iff.mp h
  obtain ⟨token, htoken, h⟩ := Except.bind_eq_ok_iff.mp h
  obtain ⟨_, -, h⟩ := Except.bind_eq_ok_iff.mp h
  obtain ⟨_, -, h⟩ := Except.bind_eq_ok_iff.mp h
  obtain ⟨_, -, h⟩ := Except.bind_eq_ok_iff.mp h
  obtain ⟨_, -, h⟩ := Except.bind_eq_ok_iff.mp h
  cases h
  obtain ⟨huser, hpassword⟩ := authenticate_ok hdecision
  refine ⟨handshakeClaims decision entry server.clock, orStatus_ok_iff.mp htoken,
    catalogUser_ok (orStatus_ok_iff.mp hentry), basicAuth, hbasicAuth, huser, ?_⟩
  rintro name password rfl
  exact hpassword password rfl

/-- A token that is accepted is not expired and of the current version of the password. -/
theorem verifyBearerToken_ok {server : FlightServer} {token : String} {session : SessionContext}
    (h : verifyBearerToken f jwtSecret server token = .ok session) :
  ∃ claims, f.jwtDecode jwtSecret server.clock token = .ok claims
    ∧ claims.sub = session.user
    ∧ server.world.catalog.passwordVersion? session.user = some claims.pwdVer
  := by
  obtain ⟨claims, hclaims, h⟩ := Except.bind_eq_ok_iff.mp h
  obtain ⟨entry, hentry, h⟩ := Except.bind_eq_ok_iff.mp h
  split at h
  · cases h
  · rename_i hversion
    cases h
    refine ⟨claims, orStatus_ok_iff.mp hclaims, rfl, ?_⟩
    rw [catalogUser_ok (orStatus_ok_iff.mp hentry), not_not.mp hversion]

/-! ### Versions along a history -/

section

variable {user : String} {version : Nat}

/-- An event that does not remove a user does not make the version of its password smaller. -/
theorem FlightEvent.apply_keepsPassword {event : FlightEvent} {server : FlightServer}
    (hevent : event.removes user = false)
    (h : server.world.catalog.KeepsPassword user version) :
  (event.apply o server).world.catalog.KeepsPassword user version
  := by
  cases event with
  | perform session op => exact performOp_keepsPassword o session hevent h
  | setClock now => exact h
  | handshake metadata protocolVersion => exact h

theorem afterHistory_keepsPassword {history : List FlightEvent} {server : FlightServer}
    (hhistory : ∀ event ∈ history, event.removes user = false)
    (h : server.world.catalog.KeepsPassword user version) :
  (afterHistory o history server).world.catalog.KeepsPassword user version
  := by
  induction history generalizing server with
  | nil => exact h
  | cons event history ih =>
      apply ih
      · intro later hlater
        exact hhistory later (List.mem_cons_of_mem _ hlater)
      · exact FlightEvent.apply_keepsPassword (hhistory event List.mem_cons_self) h

/-- A history that does not remove a user and rotates its password makes the version of the
password greater. -/
theorem afterHistory_rotated {history : List FlightEvent} {server : FlightServer}
    (hhistory : ∀ event ∈ history, event.removes user = false)
    (hrotated : RotatedIn o user history server)
    (h : server.world.catalog.KeepsPassword user version) :
  (afterHistory o history server).world.catalog.KeepsPassword user (version + 1)
  := by
  induction history generalizing server with
  | nil => cases hrotated
  | cons event history ih =>
      have hlater : ∀ later ∈ history, later.removes user = false := by
        intro later hmem
        exact hhistory later (List.mem_cons_of_mem _ hmem)
      obtain ⟨session, op, message, rfl, hop, hok⟩ | hrotated := hrotated
      · apply afterHistory_keepsPassword hlater
        exact performOp_rotates o session hop h message hok
      · apply ih hlater hrotated
        exact FlightEvent.apply_keepsPassword (hhistory event List.mem_cons_self) h

end

/-- A token that a handshake issued is of the version that the password has then. -/
theorem Issues.claims {start : FlightServer} {history earlier later : List FlightEvent}
    {token : String} {sent : MetadataMap}
    (h : Issues f o jwtSecret start history token sent earlier later) :
  ∃ claims, f.jwtEncode jwtSecret claims = .ok token
    ∧ (afterHistory o earlier start).world.catalog.passwordVersion? claims.sub
        = some claims.pwdVer
    ∧ Authentic f o (afterHistory o earlier start) sent claims.sub
  := by
  obtain ⟨_, -, response, hresponse, rfl⟩ := h.history_eq
  exact doHandshake_ok hresponse

/-- What follows a handshake starts where the handshake found the server. -/
theorem Issues.afterHistory_eq {start : FlightServer} {history earlier later : List FlightEvent}
    {token : String} {sent : MetadataMap}
    (h : Issues f o jwtSecret start history token sent earlier later) :
  afterHistory o history start = afterHistory o later (afterHistory o earlier start)
  := by
  obtain ⟨_, rfl, -⟩ := h.history_eq
  rw [afterHistory, Run.performAll, List.foldl_append, List.foldl_cons]
  rfl

/-- A token that is accepted at its current version was not overtaken by a rotation, unless the
user was removed. -/
theorem Issues.removed_of_rotated {start : FlightServer} {history earlier later : List FlightEvent}
    {token : String} {sent : MetadataMap} {claims : FlightSqlClaims}
    (h : Issues f o jwtSecret start history token sent earlier later)
    (hclaims : f.jwtDecode jwtSecret (afterHistory o history start).clock token = .ok claims)
    (hcurrent : (afterHistory o history start).world.catalog.passwordVersion? claims.sub
      = some claims.pwdVer)
    (hrotated : RotatedIn o claims.sub later (afterHistory o earlier start)) :
  ∃ event ∈ later, event.removes claims.sub = true
  := by
  by_contra hremoves
  have hkept : ∀ event ∈ later, event.removes claims.sub = false := by
    intro event hevent
    by_contra hevent'
    exact hremoves ⟨event, hevent, Bool.not_eq_false _ ▸ hevent'⟩
  obtain ⟨issued, hencoded, hversion, -⟩ := h.claims
  obtain rfl := f.jwtDecode_encode _ _ _ _ _ hencoded hclaims
  obtain ⟨version, hgreater, hle⟩ :=
    afterHistory_rotated hkept hrotated ⟨claims.pwdVer, hversion, le_refl _⟩
  rw [← h.afterHistory_eq, hcurrent] at hgreater
  cases hgreater
  omega

/-- Where no signature is forged, a session from a bearer token holds a current token. -/
theorem holdsCurrentToken_of_verified {start : FlightServer} {history : List FlightEvent}
    {metadata : MetadataMap} {token : String} {session : SessionContext}
    (hunforged : Unforged f o jwtSecret start history metadata)
    (htoken : bearerToken metadata = some token)
    (h : verifyBearerToken f jwtSecret (afterHistory o history start) token = .ok session) :
  HoldsCurrentToken f o jwtSecret start history metadata session.user
  := by
  obtain ⟨claims, hclaims, hsub, hversion⟩ := verifyBearerToken_ok h
  rw [← hsub] at hversion ⊢
  refine ⟨token, claims, htoken, rfl, f.jwtDecode_unexpired _ _ _ _ hclaims, hversion, ?_, ?_⟩
  · obtain ⟨sent, earlier, later, hissues⟩ := hunforged token claims htoken hclaims
    obtain ⟨issued, hencoded, -, hauthentic⟩ := hissues.claims
    obtain rfl := f.jwtDecode_encode _ _ _ _ _ hencoded hclaims
    exact ⟨sent, earlier, later, hissues, hencoded, hauthentic⟩
  · intro sent earlier later hissues
    exact hissues.removed_of_rotated hclaims hversion

/-! ### Who a request runs as -/

theorem executeQuery_ok {server : FlightServer} {query query' : QueryRequest}
    (h : executeQuery server query = .ok (.executes query')) :
  query' = query
  := by
  obtain ⟨_, -, h⟩ := Except.bind_eq_ok_iff.mp h
  cases h
  rfl

theorem statementTicket_ne_executes {payload : StatementTicketPayload} {query : QueryRequest} :
  statementTicket f payload ≠ .ok (.executes query)
  := by
  intro h
  obtain ⟨_, -, h⟩ := Except.bind_eq_ok_iff.mp h
  cases h

/-- A query runs in the session of its request or in one that the command carries. -/
theorem serve_executes {server : FlightServer} {request : FlightRequest} {query : QueryRequest}
    (h : serve f jwtSecret server request = .ok (.executes query)) :
  (request.command.carriedSession f = none
      ∧ sessionFromRequest f jwtSecret server request.metadata = .ok query.session)
    ∨ request.command.carriedSession f = some query.session
  := by
  obtain ⟨metadata, command⟩ := request
  cases command with
  | getFlightInfoStatement sql =>
      obtain ⟨session, -, h⟩ := Except.bind_eq_ok_iff.mp h
      obtain ⟨schema, -, h⟩ := Except.bind_eq_ok_iff.mp h
      exact absurd h statementTicket_ne_executes
  | createPreparedStatement sql =>
      obtain ⟨session, -, h⟩ := Except.bind_eq_ok_iff.mp h
      exact absurd h statementTicket_ne_executes
  | getFlightInfoPreparedStatement bytes =>
      obtain ⟨payload, -, h⟩ := Except.bind_eq_ok_iff.mp h
      exact absurd h statementTicket_ne_executes
  | doPutStatementUpdate sql =>
      obtain ⟨session, hsession, h⟩ := Except.bind_eq_ok_iff.mp h
      cases executeQuery_ok h
      exact .inl ⟨rfl, hsession⟩
  | doGetStatement bytes | doPutPreparedStatementUpdate bytes =>
      obtain ⟨payload, hpayload, h⟩ := Except.bind_eq_ok_iff.mp h
      cases executeQuery_ok h
      right
      rw [FlightCommand.carriedSession, orStatus_ok_iff.mp hpayload]
      rfl
  | executePartition body | executePartitionWrite body =>
      obtain ⟨query', hquery, h⟩ := Except.bind_eq_ok_iff.mp h
      cases h
      right
      rw [FlightCommand.carriedSession, orStatus_ok_iff.mp hquery]
      rfl

/-- After every history, SQL runs as a user only for a request that holds a current token of the
user, or that has no bearer token and names the user in its headers, or whose ticket, handle or
partition carries a session of the user. -/
theorem runs_as_current_or_named {start : FlightServer} {history : List FlightEvent}
    {request : FlightRequest} {query : QueryRequest}
    (hunforged : Unforged f o jwtSecret start history request.metadata)
    (h : serve f jwtSecret (afterHistory o history start) request = .ok (.executes query)) :
  HoldsCurrentToken f o jwtSecret start history request.metadata query.session.user
    ∨ (bearerToken request.metadata = none
        ∧ query.session = flightSessionFromMetadata request.metadata)
    ∨ request.command.carriedSession f = some query.session
  := by
  obtain ⟨-, hsession⟩ | hcarried := serve_executes h
  · rw [sessionFromRequest] at hsession
    split at hsession
    · rename_i token htoken
      exact .inl (holdsCurrentToken_of_verified hunforged htoken hsession)
    · rename_i htoken
      exact .inr (.inl ⟨htoken, (Except.ok.inj hsession).symm⟩)
  · exact .inr (.inr hcarried)

end

/-! ### A token, a handle, and a request with neither -/

namespace FlightSample

/-- A text as the value of a header. -/
def bytes (text : String) : List UInt8 := text.toList.flatMap String.utf8EncodeChar

def secret : String := "7f1c0b5de2a94c3386d0f4b9a1e75c28"

def claims : FlightSqlClaims :=
  { sub := "admin"
    role := "admin"
    db := "postgres"
    schema := "public"
    pwdVer := 1
    exp := 1700086400
    iat := 1700000000 }

/-- The claims, signed with the secret. -/
def token : String :=
  "eyJ0eXAiOiJKV1QiLCJhbGciOiJIUzI1NiJ9."
    ++ "eyJzdWIiOiJhZG1pbiIsInJvbGUiOiJhZG1pbiIsImRiIjoicG9zdGdyZXMiLCJzY2hlbWEiOiJwdWJsaWMi"
    ++ "LCJwd2RfdmVyIjoxLCJleHAiOjE3MDAwODY0MDAsImlhdCI6MTcwMDAwMDAwMH0."
    ++ "YAfrB_-j_BkMGnEuo_UKjw1Lal5KSPQo-_dqtTYxOOU"

/-- A query on a table that is not there yet, prepared with the token. -/
def payload : StatementTicketPayload :=
  { sql := "SELECT * FROM orders"
    session :=
      { user := "admin"
        role := "admin"
        database := "postgres"
        schema := "public"
        authMethod := "flight-sql-jwt"
        protocol := .arrowFlightSql }
    rowSchemaIpc := none }

/-- The handle of the query. -/
def handle : List UInt8 :=
  bytes ("\x7b\"sql\":\"SELECT * FROM orders\",\"session\":\x7b\"user\":\"admin\",\"role\":\"admin\","
    ++ "\"database\":\"postgres\",\"schema\":\"public\",\"auth_method\":\"flight-sql-jwt\","
    ++ "\"protocol\":\"ArrowFlightSql\",\"transaction_status\":\"Idle\","
    ++ "\"statement_timeout_ms\":0,\"idle_in_transaction_timeout_ms\":0\x7d,"
    ++ "\"row_schema_ipc\":null\x7d")

/-- The libraries, on the texts of this sample. -/
def libraries : FlightLibraries :=
  { base64Decode := fun text =>
      if text = "YWRtaW46aHVudGVyMg==" then .ok (bytes "admin:hunter2")
      else .error "Invalid input length"
    jwtEncode := fun key content =>
      if key = secret ∧ content = claims then .ok token else .error "InvalidKeyFormat"
    jwtDecode := fun key now text =>
      if key = secret ∧ text = token then
        if now ≤ claims.exp + 60 then .ok claims else .error "ExpiredSignature"
      else
        .error "InvalidSignature"
    jwtDecode_encode := by
      intro key content text now content' hencode hdecode
      split at hencode
      · rename_i hcontent
        split at hdecode
        · split at hdecode
          · cases hdecode
            exact hcontent.2.symm
          · cases hdecode
        · cases hdecode
      · cases hencode
    jwtDecode_unexpired := by
      intro key now text content hdecode
      split at hdecode
      · split at hdecode
        · rename_i hnow
          cases hdecode
          exact hnow
        · cases hdecode
      · cases hdecode
    ticketToVec := fun content =>
      if content = payload then .ok handle else .error "key must be a string"
    ticketFromSlice := fun content =>
      if content = handle then .ok payload else .error "expected value at line 1 column 1"
    partitionFromSlice := fun _ => .error "io error: unexpected end of file"
    planQuerySchema := fun _ _ => .error "table 'postgres.public.orders' not found"
    emptySchemaIpc := [] }

/-- A server right after a first install. -/
def server : FlightServer :=
  { world := { World.bootstrap with
      catalog := bootstrapState (fun _ => ⟨"$argon2id$hunter2", "", ""⟩) (fun _ => 0) }
    clock := 0 }

/-- The headers of a handshake with a password. -/
def basicAuth : MetadataMap :=
  (∅ : MetadataMap).insert AUTHORIZATION (bytes "Basic YWRtaW46aHVudGVyMg==")

/-- The headers of a request with the token. -/
def bearerAuth : MetadataMap :=
  (∅ : MetadataMap).insert AUTHORIZATION (bytes ("Bearer " ++ token))

/-- A client shakes hands as `admin`, who then changes the password of another user. -/
def history : List FlightEvent :=
  [.setClock 1700000000, .handshake basicAuth 0,
    .perform { user := "admin", role := "admin" }
      (.rotateUserPassword "analytics_reader" "reader")]

/-- A text of characters that headers show. -/
def Visible (text : String) : Prop := ∀ c ∈ text.toList, 32 ≤ c.toNat ∧ c.toNat < 127

theorem visible_append {text other : String} (h : Visible text) (hother : Visible other) :
  Visible (text ++ other)
  := by
  intro c hc
  rw [String.toList_append] at hc
  obtain hc | hc := List.mem_append.mp hc
  · exact h c hc
  · exact hother c hc

theorem visible_of_all {text : String}
    (h : text.toList.all (fun c => 32 ≤ c.toNat && c.toNat < 127) = true) :
  Visible text
  := by
  intro c hc
  simpa using List.all_eq_true.mp h c hc

theorem visible_token :
  Visible token
  := by
  apply visible_append
  · apply visible_append
    · apply visible_append
      · apply visible_of_all
        decide
      · apply visible_of_all
        decide
    · apply visible_of_all
      decide
  · apply visible_of_all
    decide

theorem visible_bearer :
  Visible ("Bearer " ++ token)
  := by
  apply visible_append _ visible_token
  apply visible_of_all
  decide

/-- A character that headers show is one byte. -/
theorem utf8EncodeChar_visible {c : Char} (h : 32 ≤ c.toNat ∧ c.toNat < 127) :
  ∃ byte : UInt8, String.utf8EncodeChar c = [byte] ∧ byte.toNat = c.toNat
  := by
  have hval : c.val.toNat ≤ 127 := h.2.le
  refine ⟨UInt8.ofNat c.val.toNat, ?_, ?_⟩
  · rw [String.utf8EncodeChar, if_pos hval]
  · rw [UInt8.toNat_ofNat']
    exact Nat.mod_eq_of_lt (by omega)

/-- The bytes of a text that headers show, and the text they show. -/
theorem bytes_visible {text : String} (h : Visible text) :
  (∀ byte ∈ bytes text, 32 ≤ byte.toNat ∧ byte.toNat < 127)
    ∧ (bytes text).map (fun byte => Char.ofNat byte.toNat) = text.toList
  := by
  rw [bytes]
  rw [Visible] at h
  generalize text.toList = chars at h
  induction chars with
  | nil => simp
  | cons c chars ih =>
      obtain ⟨hrest, hmap⟩ := ih (fun d hd => h d (List.mem_cons_of_mem _ hd))
      obtain ⟨byte, hbytes, hbyte⟩ := utf8EncodeChar_visible (h c List.mem_cons_self)
      rw [List.flatMap_cons, hbytes]
      constructor
      · intro b hb
        obtain rfl | hb := List.mem_cons.mp hb
        · rw [hbyte]
          exact h c List.mem_cons_self
        · exact hrest b hb
      · rw [List.singleton_append, List.map_cons, hmap, hbyte, Char.ofNat_toNat]

theorem metadataValue_bytes (metadata : MetadataMap) (key : String) {text : String}
    (h : Visible text) :
  metadataValue (metadata.insert key (bytes text)) key = some text
  := by
  obtain ⟨hbytes, hmap⟩ := bytes_visible h
  have hall : (bytes text).all isVisibleAscii = true := by
    rw [List.all_eq_true]
    intro byte hbyte
    have hrange := hbytes byte hbyte
    simp only [isVisibleAscii, Bool.or_eq_true, Bool.and_eq_true, decide_eq_true_eq, beq_iff_eq]
    left
    exact ⟨UInt8.le_iff_toNat_le.mpr hrange.1, UInt8.lt_iff_toNat_lt.mpr hrange.2⟩
  rw [metadataValue, KeyMap.get_insert, if_pos rfl, Option.bind_some, if_pos hall, hmap,
    String.ofList_toList]

theorem metadataValueFrom_visible {text : String} (h : Visible text) :
  metadataValueFrom text = .ok (bytes text)
  := by
  have hall : (bytes text).all (fun byte => (32 ≤ byte && byte != 127) || byte == 9) = true := by
    rw [List.all_eq_true]
    intro byte hbyte
    have hrange := (bytes_visible h).1 byte hbyte
    simp only [Bool.or_eq_true, Bool.and_eq_true, decide_eq_true_eq, beq_iff_eq, bne_iff_ne]
    left
    refine ⟨UInt8.le_iff_toNat_le.mpr hrange.1, ?_⟩
    rintro rfl
    exact absurd hrange.2 (by decide)
  rw [metadataValueFrom]
  exact if_pos hall

theorem bearerToken_bearerAuth :
  bearerToken bearerAuth = some token
  := by
  rw [bearerToken, bearerAuth, metadataValue_bytes _ _ visible_bearer, Option.bind_some,
    stripStart?, startsWith, String.toList_append, if_pos (by simp)]
  rw [List.drop_left, String.ofList_toList]

/-- The handshake is answered with the token. -/
theorem handshake_token :
  ∃ response, doHandshake libraries Outside.faultless secret
      (afterHistory Outside.faultless [.setClock 1700000000] server) basicAuth 0 = .ok response
    ∧ response.payload = token
  := by
  have hbasic : parseBasicAuthFromMetadata libraries basicAuth
      = .ok (some ("admin", "hunter2")) := by
    decide
  have hdecision : authenticate Outside.faultless server.world.catalog
      (handshakeAuthRequest basicAuth (some ("admin", "hunter2")))
        = .ok ⟨"admin", "admin", "postgres", "public", "prototype-basic-auth"⟩ := by
    decide
  have hentry : (catalogUser server.world.catalog "admin").toOption.map (·.passwordVersion)
      = some 1 := by
    decide
  cases huser : catalogUser server.world.catalog "admin" with
  | error message =>
      rw [huser] at hentry
      cases hentry
  | ok entry =>
      rw [huser] at hentry
      have hversion : entry.passwordVersion = 1 := Option.some.inj hentry
      have hencode : libraries.jwtEncode secret
          (handshakeClaims ⟨"admin", "admin", "postgres", "public", "prototype-basic-auth"⟩ entry
            1700000000) = .ok token := by
        apply if_pos
        refine ⟨rfl, ?_⟩
        rw [handshakeClaims, hversion]
        rfl
      have hmethod : metadataValueFrom "prototype-basic-auth"
          = .ok (bytes "prototype-basic-auth") := by
        decide
      have hadmin : metadataValueFrom "admin" = .ok (bytes "admin") := by decide
      refine ⟨⟨0, token, bytes ("Bearer " ++ token), bytes "admin", bytes "admin",
        bytes "prototype-basic-auth"⟩, ?_, rfl⟩
      refine Except.bind_eq_ok_iff.mpr ⟨_, hbasic, ?_⟩
      refine Except.bind_eq_ok_iff.mpr ⟨_, hdecision, ?_⟩
      refine Except.bind_eq_ok_iff.mpr ⟨_, orStatus_ok_iff.mpr huser, ?_⟩
      refine Except.bind_eq_ok_iff.mpr ⟨_, orStatus_ok_iff.mpr hencode, ?_⟩
      refine Except.bind_eq_ok_iff.mpr
        ⟨_, orStatus_ok_iff.mpr (metadataValueFrom_visible visible_bearer), ?_⟩
      refine Except.bind_eq_ok_iff.mpr ⟨_, orStatus_ok_iff.mpr hadmin, ?_⟩
      refine Except.bind_eq_ok_iff.mpr ⟨_, orStatus_ok_iff.mpr hadmin, ?_⟩
      exact Except.bind_eq_ok_iff.mpr ⟨_, orStatus_ok_iff.mpr hmethod, rfl⟩

theorem issues :
  Issues libraries Outside.faultless secret server history token basicAuth
    [.setClock 1700000000]
    [.perform { user := "admin", role := "admin" }
      (.rotateUserPassword "analytics_reader" "reader")]
  := ⟨0, rfl, handshake_token⟩

/-- No other token is accepted. -/
theorem unforged :
  Unforged libraries Outside.faultless secret server history bearerAuth
  := by
  intro text content htext hdecode
  rw [bearerToken_bearerAuth] at htext
  cases htext
  exact ⟨basicAuth, _, _, issues⟩

theorem jwtDecode_eq (key : String) (now : Nat) (text : String) :
  libraries.jwtDecode key now text
    = if key = secret ∧ text = token then
        if now ≤ claims.exp + 60 then .ok claims else .error "ExpiredSignature"
      else
        .error "InvalidSignature"
  := rfl

theorem ticketToVec_eq (content : StatementTicketPayload) :
  libraries.ticketToVec content
    = if content = payload then .ok handle else .error "key must be a string"
  := rfl

theorem ticketFromSlice_eq (content : List UInt8) :
  libraries.ticketFromSlice content
    = if content = handle then .ok payload else .error "expected value at line 1 column 1"
  := rfl

/-- The token is accepted while the password of `admin` has its first version. -/
theorem session_of_token {current : FlightServer} (hclock : current.clock ≤ claims.exp + 60)
    (hversion : current.world.catalog.passwordVersion? "admin" = some 1) :
  sessionFromRequest libraries secret current bearerAuth = .ok payload.session
  := by
  have hdecode : libraries.jwtDecode secret current.clock token = .ok claims := by
    rw [jwtDecode_eq, if_pos ⟨rfl, rfl⟩, if_pos hclock]
  obtain ⟨entry, hentry, hone⟩ := Option.map_eq_some_iff.mp hversion
  have huser : catalogUser current.world.catalog claims.sub = .ok entry := by
    rw [catalogUser, show claims.sub = "admin" from rfl, hentry]
  rw [sessionFromRequest, bearerToken_bearerAuth]
  refine Except.bind_eq_ok_iff.mpr ⟨claims, orStatus_ok_iff.mpr hdecode, ?_⟩
  refine Except.bind_eq_ok_iff.mpr ⟨entry, orStatus_ok_iff.mpr huser, ?_⟩
  rw [hone]
  rfl

/-- What a request in a valid session runs. -/
theorem serve_of_session {current : FlightServer} {sql : String}
    (hsession : sessionFromRequest libraries secret current bearerAuth = .ok payload.session)
    (hvalid : validateSession current.world.catalog payload.session = .ok ()) :
  serve libraries secret current ⟨bearerAuth, .doPutStatementUpdate sql⟩
    = .ok (.executes ⟨sql, payload.session⟩)
  := by
  refine Except.bind_eq_ok_iff.mpr ⟨_, hsession, ?_⟩
  exact Except.bind_eq_ok_iff.mpr ⟨(), orStatus_ok_iff.mpr hvalid, rfl⟩

/-- The handle is what the query is prepared to, and it runs what it stands for. -/
theorem serve_prepared {current : FlightServer}
    (hsession : sessionFromRequest libraries secret current bearerAuth = .ok payload.session) :
  serve libraries secret current ⟨bearerAuth, .createPreparedStatement payload.sql⟩
    = .ok (.handle handle)
  := by
  refine Except.bind_eq_ok_iff.mpr ⟨_, hsession, ?_⟩
  have hschema : (planSchema libraries current ⟨payload.sql, payload.session⟩).toOption.join
      = none := by
    rw [planSchema]
    cases validateSession current.world.catalog payload.session with
    | ok _ => rfl
    | error message => rfl
  rw [hschema]
  refine Except.bind_eq_ok_iff.mpr ⟨handle, orStatus_ok_iff.mpr ?_, rfl⟩
  exact (ticketToVec_eq payload).trans (if_pos rfl)

theorem serve_handle {current : FlightServer}
    (hvalid : validateSession current.world.catalog payload.session = .ok ()) :
  serve libraries secret current ⟨∅, .doPutPreparedStatementUpdate handle⟩
    = .ok (.executes ⟨payload.sql, payload.session⟩)
  := by
  have hpayload : libraries.ticketFromSlice handle = .ok payload := by
    rw [ticketFromSlice_eq, if_pos rfl]
  refine Except.bind_eq_ok_iff.mpr ⟨payload, orStatus_ok_iff.mpr hpayload, ?_⟩
  exact Except.bind_eq_ok_iff.mpr ⟨(), orStatus_ok_iff.mpr hvalid, rfl⟩

end FlightSample

/-- The token still runs SQL after the password of another user was rotated. -/
theorem runs_as_current_or_named_admin :
  HoldsCurrentToken FlightSample.libraries Outside.faultless FlightSample.secret
    FlightSample.server FlightSample.history FlightSample.bearerAuth "admin"
  := by
  have hserve : serve FlightSample.libraries FlightSample.secret
      (afterHistory Outside.faultless FlightSample.history FlightSample.server)
      ⟨FlightSample.bearerAuth, .doPutStatementUpdate "SELECT 1"⟩
        = .ok (.executes ⟨"SELECT 1", FlightSample.payload.session⟩) := by
    apply FlightSample.serve_of_session
    · exact FlightSample.session_of_token (by decide) (by decide)
    · decide
  have hunforged : Unforged FlightSample.libraries Outside.faultless FlightSample.secret
      FlightSample.server FlightSample.history
      (FlightRequest.mk FlightSample.bearerAuth (.doPutStatementUpdate "SELECT 1")).metadata :=
    FlightSample.unforged
  obtain hholds | ⟨hbearer, -⟩ | hcarried := runs_as_current_or_named hunforged hserve
  · exact hholds
  · rw [show bearerToken _ = _ from FlightSample.bearerToken_bearerAuth] at hbearer
    cases hbearer
  · cases hcarried

/-- A request without credentials runs as `postgres`, and a handle that was obtained before the
password of its user was rotated runs as that user afterwards, without a token. -/
theorem unauthenticated_requests_run :
  (∃ query, serve FlightSample.libraries FlightSample.secret FlightSample.server
      ⟨∅, .doPutStatementUpdate "DROP DATABASE sales"⟩ = .ok (.executes query)
    ∧ query.session.user = "postgres"
    ∧ ¬ HoldsCurrentToken FlightSample.libraries Outside.faultless FlightSample.secret
        FlightSample.server [] ∅ "postgres")
  ∧ ∃ later query,
    serve FlightSample.libraries FlightSample.secret
        (afterHistory Outside.faultless FlightSample.history FlightSample.server)
        ⟨FlightSample.bearerAuth, .createPreparedStatement FlightSample.payload.sql⟩
      = .ok (.handle FlightSample.handle)
    ∧ RotatedIn Outside.faultless "admin" later
        (afterHistory Outside.faultless FlightSample.history FlightSample.server)
    ∧ serve FlightSample.libraries FlightSample.secret
        (afterHistory Outside.faultless (FlightSample.history ++ later) FlightSample.server)
        ⟨∅, .doPutPreparedStatementUpdate FlightSample.handle⟩ = .ok (.executes query)
    ∧ query.session.user = "admin"
  := by
  constructor
  · refine ⟨⟨"DROP DATABASE sales", flightSessionFromMetadata ∅⟩, by decide,
      by decide, ?_⟩
    rintro ⟨token, claims, htoken, -⟩
    have hnone : bearerToken ∅ = none := by decide
    rw [hnone] at htoken
    cases htoken
  · refine ⟨[.perform { user := "admin", role := "admin" } (.rotateUserPassword "admin" "new")],
      ⟨FlightSample.payload.sql, FlightSample.payload.session⟩, ?_, ?_, ?_, rfl⟩
    · exact FlightSample.serve_prepared
        (FlightSample.session_of_token (by decide) (by decide))
    · left
      exact ⟨_, _, _, rfl, rfl, rfl⟩
    · apply FlightSample.serve_handle
      decide
