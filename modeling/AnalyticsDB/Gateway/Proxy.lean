import AnalyticsDB.Catalog.State
import AnalyticsDB.Lib.Effect
import AnalyticsDB.Lib.Text
import AnalyticsDB.Storage.Location

/-!
# The proxy of the gateway

The gateway sends statements to the server over a connection that it opens for each request, as the
user and with the password of the session.  The server is given by what it does with its own state
when a connection is opened and when a statement arrives.
-/

namespace Gateway

open Eff

/-- The errors a request is answered with. -/
inductive GatewayError where
  | unauthorized
  | forbidden
  | badRequest (message : String)
  | internal (message : String)
  deriving DecidableEq, Repr

/-- The status code of an error. -/
def GatewayError.status : GatewayError → Nat
  | .unauthorized => 401
  | .forbidden => 403
  | .badRequest _ => 400
  | .internal _ => 500

/-- A message of the server in answer to a statement. -/
inductive SimpleQueryMessage where
  | row (values : List (String × Option String))
  | commandComplete (affected : Nat)
  | other
  deriving DecidableEq, Repr

/-- What the server does with its state `σ` for a user: it takes a connection with a password and a
database, and answers a statement in a database. -/
structure PgServer (σ : Type) where
  connect : String → String → String → Eff σ String Unit
  simpleQuery : String → String → String → Eff σ String (List SimpleQueryMessage)

/-- An error, as it is told, and its cause. -/
structure ProxyError where
  context : String
  rootCause : String
  deriving DecidableEq, Repr

/-- An error of the server, told with what failed. -/
def withContext {σ α : Type} (context : String) (m : Eff σ String α) : Eff σ ProxyError α :=
  ExceptT.adapt (fun rootCause => { context := context, rootCause := rootCause }) m

/-- The text result of a statement. -/
structure ProxyResult where
  columns : List String
  rows : List (List (Option String))
  affectedRows : Option Nat
  deriving DecidableEq, Repr

def ProxyResult.add (result : ProxyResult) : SimpleQueryMessage → ProxyResult
  | .row values =>
    { result with
      columns := if result.columns.isEmpty then values.map Prod.fst else result.columns
      rows := result.rows ++ [values.map Prod.snd] }
  | .commandComplete affected => { result with affectedRows := some affected }
  | .other => result

section

variable {σ : Type} (server : PgServer σ) (endpoint user password database : String)

def connect : Eff σ ProxyError Unit :=
  withContext s!"failed to connect to AnalyticsDB pg-wire at {endpoint}"
    (server.connect user password database)

/-- Connect as a user and execute a statement. -/
def executeSql (sql : String) : Eff σ ProxyError ProxyResult := do
  connect server endpoint user password database
  let messages ← withContext "query execution failed" (server.simpleQuery user database sql)
  return messages.foldl ProxyResult.add { columns := [], rows := [], affectedRows := none }

/-- Execute statements in order over a connection, up to the first that fails. -/
def sendStatements : List String → Eff σ ProxyError Unit
  | [] => return ()
  | statement :: statements => do
    let _ ← withContext s!"statement failed: {statement}"
      (server.simpleQuery user database statement)
    sendStatements statements

def executeStatements (statements : List String) : Eff σ ProxyError Unit := do
  connect server endpoint user password database
  sendStatements server user database statements

end

/-- A text as a literal of SQL, the quotes in it doubled. -/
def sqlLiteral (value : String) : String :=
  String.ofList ('\'' :: value.toList.flatMap (fun c => if c = '\'' then ['\'', '\''] else [c])
    ++ ['\''])

/-- A text without this at its start, however often it stands there. -/
def trimStartMatches (start text : String) : String :=
  (List.range text.length).foldl (fun text _ => (stripStart? text start).getD text) text

@[simp]
theorem exec_withContext {σ α : Type} (context : String) (m : Eff σ String α) (s : σ) :
  exec (withContext context m) s
    = ((exec m s).1.mapError (fun rootCause => { context := context, rootCause := rootCause }),
      (exec m s).2)
  := rfl

end Gateway
