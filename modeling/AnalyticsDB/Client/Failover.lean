import AnalyticsDB.Catalog.State
import AnalyticsDB.Control.CatalogFile
import AnalyticsDB.Lib.Failover
import AnalyticsDB.Lib.Text
import AnalyticsDB.Storage.Location

/-!
# Failover of the command line client

The client sends a statement to the first of its endpoints, and after any failure to the next one.
What the servers do is given by a record for each: how a connection is opened, what the session is
prepared with, and what becomes of the statement.
-/

namespace Client

open Eff Failover

/-! ### Texts of statements -/

/-- What a scan of a statement for its keywords has found. -/
structure KeywordScan where
  keywords : List String
  current : List Char
  parenDepth : Nat
  inSingleQuote : Bool
  inDoubleQuote : Bool

def KeywordScan.flushTopLevelKeyword (scan : KeywordScan) : KeywordScan :=
  if scan.parenDepth = 0 && !scan.current.isEmpty then
    { scan with keywords := scan.keywords ++ [String.ofList scan.current], current := [] }
  else
    { scan with current := [] }

/-- The keywords of a statement, from the rest of it on. -/
def keywordsFrom (scan : KeywordScan) : List Char → List String
  | [] => scan.flushTopLevelKeyword.keywords
  | ch :: rest =>
    if scan.inSingleQuote then
      if ch = '\'' then
        match rest with
        | '\'' :: rest => keywordsFrom scan rest
        | rest => keywordsFrom { scan with inSingleQuote := false } rest
      else
        keywordsFrom scan rest
    else if scan.inDoubleQuote then
      keywordsFrom { scan with inDoubleQuote := ch ≠ '"' } rest
    else if ch = '\'' then
      keywordsFrom { scan.flushTopLevelKeyword with inSingleQuote := true } rest
    else if ch = '"' then
      keywordsFrom { scan.flushTopLevelKeyword with inDoubleQuote := true } rest
    else if ch = '(' then
      keywordsFrom { scan.flushTopLevelKeyword with parenDepth := scan.parenDepth + 1 } rest
    else if ch = ')' then
      keywordsFrom { scan.flushTopLevelKeyword with parenDepth := scan.parenDepth - 1 } rest
    else if ch.isAlphanum || ch = '_' then
      keywordsFrom { scan with current := scan.current ++ [ch] } rest
    else
      keywordsFrom scan.flushTopLevelKeyword rest

def topLevelKeywords (sql : String) : List String :=
  keywordsFrom
    { keywords := [], current := [], parenDepth := 0, inSingleQuote := false
      inDoubleQuote := false } sql.toList

def selectIntoIsCommand (upperSql : String) : Bool :=
  if !startsWith upperSql "SELECT" then
    false
  else
    let keywords := topLevelKeywords upperSql
    match keywords.idxOf? "INTO", keywords.idxOf? "FROM" with
    | some into, some «from» => into < «from»
    | some _, none => true
    | none, _ => false

def sqlReturnsRows (sql : String) : Bool :=
  let upper := asciiUpper (String.ofList (sql.toList.dropWhile isWhiteSpace))
  if selectIntoIsCommand upper then
    false
  else
    startsWith upper "SELECT" || startsWith upper "SHOW" || startsWith upper "DESCRIBE"
      || startsWith upper "EXPLAIN" || startsWith upper "WITH"

def quoteIdent (identifier : String) : String :=
  "\"" ++ String.ofList (identifier.toList.flatMap (fun c => if c = '"' then ['"', '"'] else [c]))
    ++ "\""

/-! ### Answers -/

/-- What a statement gives, but for the time it took. -/
structure QueryResponse where
  queryId : String
  coordinatorNodeId : String
  session : SessionContext
  columns : List String
  rows : List (List String)
  message : String
  deriving DecidableEq

def queryCompletedMessage : String := "Query executed successfully."

def commandCompletedMessage (rowsAffected : Nat) : String :=
  s!"Command completed. {rowsAffected} row(s) affected."

/-- The text of an error after that of what failed. -/
def withContext (context error : String) : String := context ++ ": " ++ error

/-- The endpoints of a list separated by commas. -/
def splitEndpoints (endpoints : String) : List String :=
  (endpoints.toList.splitOn ',').map String.ofList

/-! ### PostgreSQL -/

/-- The text after the first place where a part stands. -/
def textAfter? (part : List Char) : List Char → Option (List Char)
  | [] => none
  | c :: rest =>
    if part.isPrefixOf (c :: rest) then some ((c :: rest).drop part.length)
    else textAfter? part rest

/-- The texts before and after the last colon. -/
def splitAtLastColon (text : List Char) : Option (List Char × List Char) :=
  if ':' ∈ text then
    let port := (text.reverse.takeWhile (· ≠ ':')).reverse
    some (text.take (text.length - port.length - 1), port)
  else
    none

def parsePostgresEndpoint (endpoint : String) : Except String (String × Nat) :=
  let bare := (textAfter? "://".toList endpoint.toList).getD endpoint.toList
  match splitAtLastColon bare with
  | none => .error s!"PostgreSQL endpoint must be in 'host:port' form, got: '{endpoint}'"
  | some (host, port) =>
    match (parseU64 (String.ofList port)).filter (· < 65536) with
    | none => .error s!"invalid PostgreSQL port in endpoint '{endpoint}'"
    | some port => .ok (String.ofList host, port)

/-- A value of JSON; of a number, whether it is an integer of 64 bits and how it is read
otherwise. -/
inductive Json where
  | null
  | bool (value : Bool)
  | number (asI64 : Option Int) (asF64 : Option String)
  | string (value : String)
  | array
  | object
  deriving DecidableEq, Repr

inductive CliParamValue where
  | bool (value : Bool)
  | float (value : String)
  | int (value : Int)
  | string (value : String)
  deriving DecidableEq, Repr

def CliParamValue.fromJson : Json → Except String CliParamValue
  | .bool value => .ok (.bool value)
  | .number (some value) _ => .ok (.int value)
  | .number none (some value) => .ok (.float value)
  | .number none none => .error "unsupported numeric CLI parameter"
  | .string value => .ok (.string value)
  | .null => .error "null CLI parameters are not yet supported for PostgreSQL extended queries"
  | .array | .object => .error "CLI parameters must be JSON scalars, not arrays or objects"

/-- The types of parameters, by their names. -/
def CliParamValue.postgresType : CliParamValue → String
  | .bool _ => "bool"
  | .float _ => "float8"
  | .int _ => "int8"
  | .string _ => "text"

/-- Read the parameters, given how a text is read as JSON. -/
def parseCliParams (fromStr : String → Except String Json) (values : List String) :
    Except String (List CliParamValue) :=
  values.mapM (fun value => do
    let json ← (fromStr value).mapError (withContext
      s!"failed to parse CLI parameter '{value}' as JSON scalar. Use values like 11, true, 3.14, or \"text\".")
    CliParamValue.fromJson json)

/-- What a server sends as the answer to a simple query. -/
inductive SimpleQueryMessage where
  | rowDescription (columns : List String)
  | row (values : List (String × Option String))
  | commandComplete (count : Nat)
  | other
  deriving DecidableEq, Repr

/-- The columns, the rows and the number of affected rows read so far. -/
structure SimpleRows where
  columns : List String
  rows : List (List String)
  rowsAffected : Nat

def SimpleRows.add (read : SimpleRows) : SimpleQueryMessage → SimpleRows
  | .rowDescription columns =>
    if read.columns.isEmpty then { read with columns := columns } else read
  | .row values =>
    { read with
      columns := if read.columns.isEmpty then values.map Prod.fst else read.columns
      rows := read.rows ++ [values.map (fun value => value.2.getD "")] }
  | .commandComplete count => { read with rowsAffected := count }
  | .other => read

def simpleQueryToRows (messages : List SimpleQueryMessage) : SimpleRows :=
  messages.foldl SimpleRows.add { columns := [], rows := [], rowsAffected := 0 }

/-- A row of a typed query: the columns with their values, which may not be readable as a text. -/
abbrev PostgresRow := List (String × Except String (Option String))

def postgresRowToStrings (row : PostgresRow) : Except String (List String) :=
  row.mapM (fun value => value.2.map (·.getD ""))

/-- What a PostgreSQL server does with the requests of a client. -/
structure PostgresServer where
  connect : String → Except String Unit
  batchExecute : String → Except String Unit
  simpleQuery : String → Delivery String (List SimpleQueryMessage)
  queryTyped : String → List CliParamValue → Delivery String (List PostgresRow)
  prepareTyped : String → List String → Except String Unit
  execute : String → List CliParamValue → Delivery String Nat

/-- What a statement is run with. -/
structure Invocation where
  sql : String
  session : SessionContext
  endpoint : Option String
  params : List String
  password : Option String

/-- The endpoints with their positions. -/
def Invocation.endpoints (run : Invocation) (default : String) : List (String × Nat) :=
  (splitEndpoints (run.endpoint.getD default)).zipIdx

section

variable (fromStr : String → Except String Json) (run : Invocation)

/-- Connect to an endpoint and set the schema of the session. -/
def openPostgres (endpoint : String) (server : PostgresServer) : Except String Unit := do
  let (host, port) ← parsePostgresEndpoint endpoint
  let connectionString := s!"host={host} port={port} user={run.session.user} dbname={run.session.database}"
    ++ (match run.password with
      | some password => s!" password={password}"
      | none => "")
  (server.connect connectionString).mapError
    (withContext s!"failed to connect to PostgreSQL endpoint '{endpoint}'")
  if run.session.schema ≠ "public" then
    (server.batchExecute ("SET search_path TO " ++ quoteIdent run.session.schema)).mapError
      (withContext s!"failed to set PostgreSQL search_path to '{run.session.schema}'")

def postgresResponse (columns : List String) (rows : List (List String)) (message : String) :
    QueryResponse :=
  { queryId := "unavailable-via-postgres-wire"
    coordinatorNodeId := "unavailable-via-postgres-wire"
    session := run.session
    columns := columns
    rows := rows
    message := message }

/-- Run the statement at one endpoint. -/
def attemptPostgres {ι : Type} (position : ι) (endpoint : String) (server : PostgresServer) :
    Eff (Log ι) String QueryResponse := do
  check (openPostgres run endpoint server)
  if run.params.isEmpty then
    let context :=
      if sqlReturnsRows run.sql then "Remote query execution failed"
      else "Remote command execution failed"
    let messages ← deliver position ((server.simpleQuery run.sql).mapError (withContext context))
    let read := simpleQueryToRows messages
    let message :=
      if read.columns.isEmpty then commandCompletedMessage read.rowsAffected
      else queryCompletedMessage
    return postgresResponse run read.columns read.rows message
  else
    let paramsValues ← check (parseCliParams fromStr run.params)
    if sqlReturnsRows run.sql then
      let rows ← deliver position ((server.queryTyped run.sql paramsValues).mapError
        (withContext "Remote query execution failed"))
      let texts ← check (rows.mapM postgresRowToStrings)
      return postgresResponse run ((rows.head?.map (·.map Prod.fst)).getD []) texts
        queryCompletedMessage
    else
      check ((server.prepareTyped run.sql (paramsValues.map (·.postgresType))).mapError
        (withContext "Remote command preparation failed"))
      let rowsAffected ← deliver position ((server.execute run.sql paramsValues).mapError
        (withContext "Remote command execution failed"))
      return postgresResponse run [] [] (commandCompletedMessage rowsAffected)

/-- Run the statement at the endpoints, given what each server does. -/
def runPostgresQuery (servers : Nat → PostgresServer) :
    Eff (Log (String × Nat)) String QueryResponse :=
  firstAnswer (fun server => attemptPostgres fromStr run server server.1 (servers server.2))
    (run.endpoints "127.0.0.1:5432") "No endpoints provided"

end

/-! ### Flight SQL -/

structure HandshakeAuthDecision where
  user : String
  role : String
  authMethod : String
  deriving DecidableEq, Repr

/-- The headers a client sends with its requests. -/
structure FlightHeaders where
  user : String
  role : String
  database : String
  schema : String
  authMethod : String
  deriving DecidableEq, Repr

/-- The endpoints of a query with their tickets, and the columns of its schema. -/
structure FlightInfo where
  endpoint : List (Option String)
  schema : Except String (List String)

/-- A batch of rows; a value that is not null may not be readable as a text. -/
structure Batch where
  columns : List String
  rows : List (List (Option (Except String String)))

/-- What a Flight SQL server does with the requests of a client.  The handshake gives what was
decided, where its payload can be read. -/
structure FlightServer where
  connect : String → Except String Unit
  handshake : FlightHeaders → String → String → Except String (Option HandshakeAuthDecision)
  execute : FlightHeaders → String → Except String FlightInfo
  doGet : FlightHeaders → String → Delivery String (List (Except String Batch))
  executeUpdate : FlightHeaders → String → Delivery String Int

def normalizeFlightEndpoint (endpoint : String) : String :=
  if startsWith endpoint "http://" || startsWith endpoint "https://" then endpoint
  else "http://" ++ endpoint

/-- The columns and the rows of the batches that are received. -/
def batchRows (batches : List (Except String Batch)) :
    Except String (Option (List String) × List (List String)) :=
  batches.foldlM (fun (columns, rows) batch => do
    let batch ← batch.mapError (fun error => "Remote result stream failed: " ++ error)
    let batchRows ← batch.rows.mapM (fun row => row.mapM (fun
      | none => .ok ""
      | some value => value))
    return (some (columns.getD batch.columns), rows ++ batchRows)) (none, [])

section

variable (run : Invocation)

def flightResponse (columns : List String) (rows : List (List String)) (message : String) :
    QueryResponse :=
  { queryId := "unavailable-via-flight-sql"
    coordinatorNodeId := "unavailable-via-flight-sql"
    session := run.session
    columns := columns
    rows := rows
    message := message }

/-- Connect to an endpoint and shake hands; what is returned are the headers of the requests that
follow. -/
def openFlight (endpoint : String) (server : FlightServer) : Except String FlightHeaders := do
  let normalizedEndpoint := normalizeFlightEndpoint endpoint
  (server.connect normalizedEndpoint).mapError
    (withContext s!"failed to connect to Flight SQL endpoint '{normalizedEndpoint}'")
  let headers : FlightHeaders :=
    { user := run.session.user
      role := run.session.role
      database := run.session.database
      schema := run.session.schema
      authMethod := run.session.authMethod }
  let decision ← (server.handshake headers run.session.user (run.password.getD "")).mapError
    (withContext "Flight SQL handshake failed")
  match decision with
  | none => return headers
  | some decision =>
    return { headers with
      user := decision.user, role := decision.role, authMethod := decision.authMethod }

/-- Ask for the ticket of a query and the columns of its schema. -/
def ticketOf (headers : FlightHeaders) (server : FlightServer) :
    Except String (String × List String) := do
  let info ← (server.execute headers run.sql).mapError (withContext "Remote query execution failed")
  match info.endpoint.head?.join with
  | none => throw "Flight SQL server did not return a ticket"
  | some ticket =>
    let fallbackColumns ← info.schema.mapError
      (withContext "Flight SQL result schema could not be decoded")
    return (ticket, fallbackColumns)

/-- Run the statement at one endpoint. -/
def attemptFlight {ι : Type} (position : ι) (endpoint : String) (server : FlightServer) :
    Eff (Log ι) String QueryResponse := do
  let headers ← check (openFlight run endpoint server)
  if !run.params.isEmpty then
    throw "Flight SQL prepared statement binding through CLI is not yet fully integrated - consider using PostgreSQL protocol for parameterized queries"
  if sqlReturnsRows run.sql then
    let (ticket, fallbackColumns) ← check (ticketOf run headers server)
    let stream ← deliver position ((server.doGet headers ticket).mapError
      (withContext "Remote result retrieval failed"))
    let (columns, rows) ← check (batchRows stream)
    return flightResponse run (columns.getD fallbackColumns) rows queryCompletedMessage
  else
    let affected ← deliver position ((server.executeUpdate headers run.sql).mapError
      (withContext "Remote command execution failed"))
    return flightResponse run [] [] (commandCompletedMessage (affected % 2 ^ 64).toNat)

def runFlightSqlQuery (servers : Nat → FlightServer) :
    Eff (Log (String × Nat)) String QueryResponse :=
  firstAnswer (fun server => attemptFlight run server server.1 (servers server.2))
    (run.endpoints "http://127.0.0.1:50051") "No endpoints provided"

end

/-! ### What becomes of the statement -/

section

variable (fromStr : String → Except String Json) (run : Invocation)

/-- What becomes of the statement at a PostgreSQL endpoint. -/
def postgresReply (endpoint : String) (server : PostgresServer) : Reply :=
  match openPostgres run endpoint server with
  | .error _ => .notSent
  | .ok _ =>
    if run.params.isEmpty then
      .sent (server.simpleQuery run.sql) .ok
    else
      match parseCliParams fromStr run.params with
      | .error _ => .notSent
      | .ok paramsValues =>
        if sqlReturnsRows run.sql then
          .sent (server.queryTyped run.sql paramsValues) (·.mapM postgresRowToStrings)
        else
          match server.prepareTyped run.sql (paramsValues.map (·.postgresType)) with
          | .error _ => .notSent
          | .ok _ => .sent (server.execute run.sql paramsValues) .ok

/-- What becomes of the statement at a Flight SQL endpoint. -/
def flightReply (endpoint : String) (server : FlightServer) : Reply :=
  match openFlight run endpoint server with
  | .error _ => .notSent
  | .ok headers =>
    if !run.params.isEmpty then
      .notSent
    else if sqlReturnsRows run.sql then
      match ticketOf run headers server with
      | .error _ => .notSent
      | .ok (ticket, _) => .sent (server.doGet headers ticket) batchRows
    else
      .sent (server.executeUpdate headers run.sql) .ok

/-- What a run does at a PostgreSQL endpoint. -/
theorem attemptPostgres_gives {ι : Type} (position : ι) (endpoint : String)
    (server : PostgresServer) :
  Gives (attemptPostgres fromStr run position endpoint server) position
    (postgresReply fromStr run endpoint server)
  := by
  simp only [attemptPostgres, postgresReply]
  cases openPostgres run endpoint server with
  | error e => apply gives_check_error
  | ok _ =>
      apply gives_check_ok
      simp only
      split
      · rw [← sent_mapError]
        apply gives_deliver_pure
      · cases parseCliParams fromStr run.params with
        | error e => apply gives_check_error
        | ok paramsValues =>
            apply gives_check_ok
            simp only
            split
            · rw [← sent_mapError]
              apply gives_deliver_check
            · cases server.prepareTyped run.sql (paramsValues.map (·.postgresType)) with
              | error e => apply gives_check_error
              | ok _ =>
                  apply gives_check_ok
                  rw [← sent_mapError]
                  apply gives_deliver_pure

/-- What a run does at a Flight SQL endpoint. -/
theorem attemptFlight_gives {ι : Type} (position : ι) (endpoint : String) (server : FlightServer) :
  Gives (attemptFlight run position endpoint server) position (flightReply run endpoint server)
  := by
  simp only [attemptFlight, flightReply]
  cases openFlight run endpoint server with
  | error e => apply gives_check_error
  | ok headers =>
      apply gives_check_ok
      simp only
      split
      · apply gives_throw
      · split
        · cases ticketOf run headers server with
          | error e => apply gives_check_error
          | ok ticket =>
              apply gives_check_ok
              simp only
              rw [← sent_mapError]
              apply gives_deliver_check
        · rw [← sent_mapError]
          apply gives_deliver_pure

end

/-- A server that executes every statement and answers. -/
def sampleServer : PostgresServer :=
  { connect := fun _ => .ok ()
    batchExecute := fun _ => .ok ()
    simpleQuery := fun _ => .answered [.commandComplete 1]
    queryTyped := fun _ _ => .answered []
    prepareTyped := fun _ _ => .ok ()
    execute := fun _ _ => .answered 1 }

/-- A server that executes every statement, and loses the connection before it answers. -/
def losingServer : PostgresServer :=
  { sampleServer with simpleQuery := fun _ => .lost true "connection closed" }

def sampleFlightServer : FlightServer :=
  { connect := fun _ => .ok ()
    handshake := fun _ _ _ => .ok none
    execute := fun _ _ => .error "not a query"
    doGet := fun _ _ => .answered []
    executeUpdate := fun _ _ => .answered 1 }

def losingFlightServer : FlightServer :=
  { sampleFlightServer with executeUpdate := fun _ _ => .lost true "connection closed" }

/-- An insertion at two endpoints. -/
def sampleInvocation : Invocation :=
  { sql := "INSERT INTO t VALUES (1)"
    session := {}
    endpoint := some "10.0.0.1:5432,10.0.0.2:5432"
    params := []
    password := none }

end Client
