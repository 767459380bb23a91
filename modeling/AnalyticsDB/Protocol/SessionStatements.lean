import AnalyticsDB.Control.CatalogFile
import AnalyticsDB.Lib.Replay
import AnalyticsDB.Lib.Text
import AnalyticsDB.Protocol.Parameters
import AnalyticsDB.Storage.Location

/-!
# Statements about the session

The statements SET, RESET and SHOW are answered by the protocol, from what the connection keeps for
its client: a map of texts that has the identity of the client under some keys, and its settings
under keys with a common start.  What is proved is which keys a statement writes, and from this what
a run of statements leaves as it was and what RESET takes back.
-/

namespace Postgres

open Run Replay

/-- A statement without white space and semicolons at its end. -/
def trimStatement (sql : String) : String :=
  trimWhiteSpace (String.ofList
    ((trimWhiteSpace sql).toList.reverse.dropWhile (· = ';')).reverse)

/-- The rest of a text after a start of this length. -/
def dropStart (text start : String) : String := String.ofList (text.toList.drop start.length)

/-- The texts before and after the first place where a separator stands, in upper case. -/
def splitAtUpper (separator : List Char) : List Char → Option (List Char × List Char)
  | [] => none
  | c :: rest =>
    if separator.isPrefixOf ((c :: rest).map Char.toUpper) then
      some ([], (c :: rest).drop separator.length)
    else
      (splitAtUpper separator rest).map (fun (before, after) => (c :: before, after))

inductive PostgresSetStatement where
  | set (name : String) (value : Option String)
  | reset (name : String)
  | resetAll
  | notASetStatement
  deriving DecidableEq, Repr

inductive PostgresShowStatement where
  | setting (name : String)
  | all
  | notAShowStatement
  deriving DecidableEq, Repr

def normalizePostgresSettingName (raw : String) : Except String String :=
  let trimmed := trimWhiteSpace raw
  if trimmed.isEmpty then
    .error "SET/RESET parameter name cannot be empty"
  else if !trimmed.toList.all (fun ch => ch.isAlphanum || ch = '_' || ch = '.') then
    .error s!"unsupported PostgreSQL parameter name '{raw}' in the current prototype"
  else
    .ok (asciiLower trimmed)

def normalizePostgresSettingValue (raw : String) : Option String :=
  let trimmed := trimWhiteSpace raw
  if asciiUpper trimmed = "DEFAULT" then none else some trimmed

/-- A text without the quotes around it. -/
def trimMatches (quote : Char) (text : String) : String :=
  String.ofList (((text.toList.dropWhile (· = quote)).reverse.dropWhile (· = quote)).reverse)

def normalizeTransactionIsolationLevel (raw : String) : Except String String :=
  let normalized := asciiLower (trimMatches '\'' (trimMatches '"' (trimWhiteSpace raw)))
  if normalized ∈ ["read committed", "read uncommitted", "repeatable read", "serializable"] then
    .ok normalized
  else
    .error s!"unsupported transaction isolation level '{raw}' in the current prototype"

def stripSetScope (remainder : String) : String :=
  let upper := asciiUpper remainder
  if startsWith upper "SESSION " then trimWhiteSpace (dropStart remainder "SESSION ")
  else if startsWith upper "LOCAL " then trimWhiteSpace (dropStart remainder "LOCAL ")
  else remainder

def splitPostgresSetAssignment (input : String) : Option (String × String) :=
  ((splitAtUpper " TO ".toList input.toList).orElse (fun _ =>
    splitAtUpper ['='] input.toList)).map (fun (left, right) =>
      (trimWhiteSpace (String.ofList left), trimWhiteSpace (String.ofList right)))

def parsePostgresSetStatement (sql : String) : Except String PostgresSetStatement :=
  let trimmed := trimStatement sql
  let upper := asciiUpper trimmed
  if upper = "RESET ALL" then
    .ok .resetAll
  else if startsWith upper "RESET " then do
    let name ← normalizePostgresSettingName (trimWhiteSpace (dropStart trimmed "RESET "))
    return .reset name
  else if !startsWith upper "SET " then
    .ok .notASetStatement
  else
    let remainder := stripSetScope (trimWhiteSpace (dropStart trimmed "SET "))
    let remainderUpper := asciiUpper remainder
    let characteristics := "CHARACTERISTICS AS TRANSACTION ISOLATION LEVEL "
    if startsWith remainderUpper characteristics then do
      let level ← normalizeTransactionIsolationLevel
        (trimWhiteSpace (dropStart remainder characteristics))
      return .set "transaction_isolation" (some level)
    else if startsWith remainderUpper "TRANSACTION" || startsWith remainderUpper "ROLE"
        || startsWith remainderUpper "SESSION AUTHORIZATION"
        || startsWith remainderUpper "CONSTRAINTS" then
      .error "this SET form is not implemented in the current prototype"
    else if startsWith remainderUpper "TIME ZONE " then
      .ok (.set "timezone" (normalizePostgresSettingValue (dropStart remainder "TIME ZONE ")))
    else if startsWith remainderUpper "NAMES " then
      .ok (.set "client_encoding" (normalizePostgresSettingValue (dropStart remainder "NAMES ")))
    else
      match splitPostgresSetAssignment remainder with
      | none => .error "unsupported PostgreSQL SET syntax in the current prototype"
      | some (nameRaw, valueRaw) => do
        let name ← normalizePostgresSettingName nameRaw
        return .set name (normalizePostgresSettingValue valueRaw)

def normalizePostgresShowName (raw : String) : Except String String :=
  let trimmed := trimWhiteSpace raw
  let upper := asciiUpper trimmed
  if upper = "TIME ZONE" then .ok "timezone"
  else if upper = "TRANSACTION ISOLATION LEVEL" then .ok "transaction_isolation"
  else normalizePostgresSettingName trimmed

/-- Whether SHOW is followed by something in the catalogue. -/
def showsCatalog (rawUpper : String) : Bool :=
  rawUpper = "DATABASES" || rawUpper = "NODES" || rawUpper = "SCHEMAS"
    || startsWith rawUpper "SCHEMAS FROM " || rawUpper = "TABLES"
    || startsWith rawUpper "TABLES FROM " || rawUpper = "VIEWS"
    || startsWith rawUpper "VIEWS FROM " || startsWith rawUpper "COLUMNS FROM "

def parsePostgresShowStatement (sql : String) : Except String PostgresShowStatement :=
  let trimmed := trimStatement sql
  let upper := asciiUpper trimmed
  if upper = "SHOW ALL" then
    .ok .all
  else if !startsWith upper "SHOW " then
    .ok .notAShowStatement
  else
    let rawName := trimWhiteSpace (dropStart trimmed "SHOW ")
    let rawUpper := asciiUpper rawName
    if rawName.isEmpty then
      .error "SHOW parameter name cannot be empty"
    else if showsCatalog rawUpper then
      .ok .notAShowStatement
    else if rawName.toList.any isWhiteSpace && rawUpper ≠ "TIME ZONE"
        && rawUpper ≠ "TRANSACTION ISOLATION LEVEL" then
      .ok .notAShowStatement
    else do
      let name ← normalizePostgresShowName rawName
      return .setting name

/-! ### The settings of a client -/

/-- What a connection keeps for its client. -/
abbrev Metadata := KeyMap String

def METADATA_USER : String := "user"

def METADATA_DATABASE : String := "database"

def POSTGRES_SCHEMA_METADATA : String := "analyticsdb-schema"

def POSTGRES_ROLE_METADATA : String := "analyticsdb-role"

def POSTGRES_AUTH_METHOD_METADATA : String := "analyticsdb-auth-method"

/-- The start of the keys of the settings. -/
def POSTGRES_SETTING : String := "analyticsdb-setting-"

def postgresSettingMetadataKey (name : String) : String := POSTGRES_SETTING ++ name

/-- What a scan of the entries of a search path has found. -/
structure SearchPathScan where
  parts : List String
  current : List Char
  inQuotes : Bool

/-- The entries of a search path, from the rest of it on. -/
def scanSearchPath (scan : SearchPathScan) : List Char → Except String (List String)
  | [] =>
    if scan.inQuotes then
      .error "unterminated quoted schema name in SET search_path"
    else
      let part := trimWhiteSpace (String.ofList scan.current)
      .ok (if part.isEmpty then scan.parts else scan.parts ++ [part])
  | ch :: rest =>
    if ch = '"' then
      match scan.inQuotes, rest with
      | true, '"' :: rest =>
        scanSearchPath { scan with current := scan.current ++ ['"', '"'] } rest
      | _, rest =>
        scanSearchPath
          { scan with current := scan.current ++ ['"'], inQuotes := !scan.inQuotes } rest
    else if ch = ',' && !scan.inQuotes then
      let part := trimWhiteSpace (String.ofList scan.current)
      if part.isEmpty then
        .error "empty search_path entry is not supported in the current prototype"
      else
        scanSearchPath { scan with parts := scan.parts ++ [part], current := [] } rest
    else
      scanSearchPath { scan with current := scan.current ++ [ch] } rest

def splitSearchPathEntries (raw : String) : Except String (List String) :=
  let trimmed := trimWhiteSpace raw
  if trimmed.isEmpty then
    .ok []
  else
    scanSearchPath { parts := [], current := [], inQuotes := false } trimmed.toList

/-- Two quotes for one. -/
def undoubleQuotes : List Char → List Char
  | '"' :: '"' :: rest => '"' :: undoubleQuotes rest
  | ch :: rest => ch :: undoubleQuotes rest
  | [] => []

def parseSearchPathSchemaName (value : String) : Except String String :=
  let trimmed := trimWhiteSpace value
  if trimmed.isEmpty then
    .error "schema name for SET search_path cannot be empty"
  else if startsWith trimmed "\"" then
    if trimmed.toList.getLast? ≠ some '"' || trimmed.toList.length < 2 then
      .error "unterminated quoted schema name in SET search_path"
    else
      .ok (String.ofList (undoubleQuotes trimmed.toList.tail.dropLast))
  else if trimmed.toList.any isWhiteSpace then
    .error "schema name in SET search_path must be a single identifier in the current prototype"
  else
    .ok trimmed

/-- The entries of a search path and the schema it stands for. -/
def parseSearchPathEntries (raw : String) : Except String (List String × String) := do
  let parts ← splitSearchPathEntries raw
  let entries ← parts.mapM parseSearchPathSchemaName
  if entries.isEmpty then
    throw "SET search_path requires at least one schema name in the current prototype"
  return (entries, (entries.find? (· ≠ "$user")).getD "public")

section

variable (client : Metadata)

def applyPostgresSetting (name : String) (value : Option String) : Except String Metadata :=
  if name = "search_path" then
    match value with
    | none => .error "SET search_path requires a value in the current prototype"
    | some rawValue => do
      let (entries, effectiveSchema) ← parseSearchPathEntries rawValue
      return (client.insert POSTGRES_SCHEMA_METADATA effectiveSchema).insert
        (postgresSettingMetadataKey name) (String.intercalate ", " entries)
  else
    let key := postgresSettingMetadataKey name
    match value with
    | some value => .ok (client.insert key value)
    | none => .ok (client.erase key)

def resetPostgresSetting (name : String) : Metadata :=
  let client :=
    if name = "search_path" then client.insert POSTGRES_SCHEMA_METADATA "public" else client
  client.erase (postgresSettingMetadataKey name)

def resetAllPostgresSettings : Metadata :=
  (client.filter (fun key _ => !startsWith key POSTGRES_SETTING)).insert
    POSTGRES_SCHEMA_METADATA "public"

/-- The settings that are shown when nothing is set. -/
def defaultPostgresShowSettings : KeyMap String :=
  Std.ExtTreeMap.ofList
    [("application_name", ""),
     ("client_encoding", "UTF8"),
     ("datestyle", "ISO, MDY"),
     ("default_transaction_isolation", "read committed"),
     ("extra_float_digits", "1"),
     ("intervalstyle", "postgres"),
     ("search_path", "public"),
     ("standard_conforming_strings", "on"),
     ("statement_timeout", "0"),
     ("transaction_isolation", "read committed"),
     ("transaction_read_only", "off"),
     ("timezone", "UTC")]

/-- The settings of a client, by their names. -/
def clientSettings : List (String × String) :=
  client.toList.filterMap (fun entry =>
    (stripStart? entry.1 POSTGRES_SETTING).map (fun name => (name, entry.2)))

def effectivePostgresSettingsMap : KeyMap String :=
  let settings :=
    match client[POSTGRES_SCHEMA_METADATA]? with
    | some schema => defaultPostgresShowSettings.insert "search_path" schema
    | none => defaultPostgresShowSettings
  (clientSettings client).foldl (fun settings row => settings.insert row.1 row.2) settings

def effectivePostgresSetting (name : String) : Except String String :=
  match (effectivePostgresSettingsMap client)[name]? with
  | some value => .ok value
  | none =>
    .error s!"unsupported or unknown PostgreSQL SHOW parameter '{name}' in the current prototype"

end

/-- The text before an end, when the text ends with it. -/
def stripEnd? (text ending : String) : Option String :=
  if ending.toList.isSuffixOf text.toList then
    some (String.ofList (text.toList.take (text.length - ending.length)))
  else
    none

/-- A time in milliseconds, with its unit; zero where it cannot be read. -/
def parseTimeoutToMs (text : String) : Nat :=
  let s := trimWhiteSpace text
  let scaled (n : String) (factor : Nat) : Nat :=
    min ((parseU64 (trimWhiteSpace n)).getD 0 * factor) u64Max
  if s = "0" || s.isEmpty then 0
  else
    match stripEnd? s "ms" with
    | some n => (parseU64 (trimWhiteSpace n)).getD 0
    | none =>
      match stripEnd? s "min" with
      | some n => scaled n 60000
      | none =>
        match stripEnd? s "h" with
        | some n => scaled n 3600000
        | none =>
          match stripEnd? s "s" with
          | some n => scaled n 1000
          | none => (parseU64 s).getD 0

/-- The session of a client, in which its statements run. -/
def postgresSessionFromClient (client : Metadata) : SessionContext :=
  let user := client[METADATA_USER]?.getD "postgres"
  { user := user
    role := client[POSTGRES_ROLE_METADATA]?.getD user
    database := client[METADATA_DATABASE]?.getD "postgres"
    schema := client[POSTGRES_SCHEMA_METADATA]?.getD "public"
    authMethod := client[POSTGRES_AUTH_METHOD_METADATA]?.getD "postgres-wire-startup"
    protocol := .postgreSql
    transactionStatus := .idle
    statementTimeoutMs :=
      parseTimeoutToMs (client[postgresSettingMetadataKey "statement_timeout"]?.getD "0")
    idleInTransactionTimeoutMs :=
      parseTimeoutToMs
        (client[postgresSettingMetadataKey "idle_in_transaction_session_timeout"]?.getD "0") }

/-! ### Answering a statement -/

/-- A statement of the simple protocol, or a prepared one that is executed with its parameters. -/
inductive Message where
  | simple (query : String)
  | extended (sql : String) (parameterTypes : List PgType) (portal : Portal)

def Message.sql : Message → Except RenderFailure String
  | .simple query => .ok query
  | .extended sql parameterTypes portal => renderSqlWithPortalParameters sql parameterTypes portal

/-- How a statement is answered: with a tag, with rows, or by the engine in the session of the
client. -/
inductive PgResponse where
  | execution (tag : String)
  | query (columns : List String) (rows : List (List String))
  | engine (sql : String) (session : SessionContext)
  deriving DecidableEq

def applyPostgresSessionStatement (client : Metadata) :
    PostgresSetStatement → Except String (Metadata × Option PgResponse)
  | .set name value => do
    let client ← applyPostgresSetting client name value
    return (client, some (.execution "SET"))
  | .reset name => .ok (resetPostgresSetting client name, some (.execution "RESET"))
  | .resetAll => .ok (resetAllPostgresSettings client, some (.execution "RESET"))
  | .notASetStatement => .ok (client, none)

def executePostgresShowStatement (client : Metadata) :
    PostgresShowStatement → Except String (Option PgResponse)
  | .setting name => do
    let value ← effectivePostgresSetting client name
    return some (.query [name] [[value]])
  | .all =>
    .ok (some (.query ["name", "setting"]
      ((effectivePostgresSettingsMap client).toList.map (fun entry => [entry.1, entry.2]))))
  | .notAShowStatement => .ok none

/-- Answer a statement that is not about the session. -/
def answerQuery (client : Metadata) (sql : String) : Except String PgResponse := do
  let showStatement ← parsePostgresShowStatement sql
  let response ← executePostgresShowStatement client showStatement
  return response.getD (.engine sql (postgresSessionFromClient client))

/-- Answer a statement, from its text on. -/
def answerSql (client : Metadata) (sql : String) : Except String (Metadata × PgResponse) := do
  let setStatement ← parsePostgresSetStatement sql
  let (client, response) ← applyPostgresSessionStatement client setStatement
  match response with
  | some response => return (client, response)
  | none =>
    let response ← answerQuery client sql
    return (client, response)

def doQuery (client : Metadata) (message : Message) :
    Except RenderFailure (Metadata × PgResponse) := do
  let sql ← message.sql
  (answerSql client sql).mapError RenderFailure.error

/-- What the connection keeps after a message; a message that fails changes nothing. -/
def afterMessage (message : Message) (client : Metadata) : Metadata :=
  match doQuery client message with
  | .ok (client, _) => client
  | .error _ => client

/-! ### The keys a statement writes -/

/-- The statement about the session that a message is; none where it fails. -/
def Message.statement (message : Message) : PostgresSetStatement :=
  match message.sql with
  | .error _ => .notASetStatement
  | .ok sql =>
    match parsePostgresSetStatement sql with
    | .ok statement => statement
    | .error _ => .notASetStatement

/-- What the connection keeps after a statement about the session. -/
def performStatement (statement : PostgresSetStatement) (client : Metadata) : Metadata :=
  match applyPostgresSessionStatement client statement with
  | .ok (client, _) => client
  | .error _ => client

/-- Only what is no statement about the session is not answered by it. -/
theorem apply_unanswered {client client' : Metadata} {statement : PostgresSetStatement}
    (h : applyPostgresSessionStatement client statement = .ok (client', none)) :
  client' = client
  := by
  cases statement with
  | set name value =>
      obtain ⟨_, -, h⟩ := Except.bind_eq_ok_iff.mp h
      cases h
  | reset name => cases h
  | resetAll => cases h
  | notASetStatement =>
      cases h
      rfl

/-- A message changes what its statement about the session changes. -/
theorem afterMessage_eq (message : Message) (client : Metadata) :
  afterMessage message client = performStatement message.statement client
  := by
  simp only [afterMessage, doQuery, Message.statement, bind, Except.bind]
  cases message.sql with
  | error failure => rfl
  | ok sql =>
      simp only [answerSql, bind, Except.bind]
      cases parsePostgresSetStatement sql with
      | error message => rfl
      | ok statement =>
          simp only [performStatement]
          cases happlied : applyPostgresSessionStatement client statement with
          | error message => rfl
          | ok applied =>
              obtain ⟨client', _ | response⟩ := applied
              · rw [apply_unanswered happlied]
                simp only
                cases answerQuery client sql <;> rfl
              · rfl

/-- What a statement writes under a key: nothing, or a text, or that there is none. -/
def PostgresSetStatement.writes (statement : PostgresSetStatement) (key : String) :
    Option (Option String) :=
  match statement with
  | .set name value =>
    if name = "search_path" then
      match value.bind (fun raw => (parseSearchPathEntries raw).toOption) with
      | none => none
      | some (entries, effectiveSchema) =>
        if key = postgresSettingMetadataKey name then
          some (some (String.intercalate ", " entries))
        else if key = POSTGRES_SCHEMA_METADATA then
          some (some effectiveSchema)
        else
          none
    else if key = postgresSettingMetadataKey name then
      some value
    else
      none
  | .reset name =>
    if key = postgresSettingMetadataKey name then some none
    else if name = "search_path" ∧ key = POSTGRES_SCHEMA_METADATA then some (some "public")
    else none
  | .resetAll =>
    if key = POSTGRES_SCHEMA_METADATA then some (some "public")
    else if startsWith key POSTGRES_SETTING then some none
    else none
  | .notASetStatement => none

theorem startsWith_settingKey (name : String) :
  startsWith (postgresSettingMetadataKey name) POSTGRES_SETTING = true
  := by
  simp [startsWith, postgresSettingMetadataKey]

theorem settingKey_ne {key : String} (hkey : startsWith key POSTGRES_SETTING = false)
    (name : String) :
  postgresSettingMetadataKey name ≠ key
  := by
  rintro rfl
  rw [startsWith_settingKey] at hkey
  cases hkey

theorem settingKey_inj {name other : String} :
  postgresSettingMetadataKey name = postgresSettingMetadataKey other ↔ name = other
  := by
  constructor
  · intro h
    apply String.toList_inj.mp
    simpa [postgresSettingMetadataKey] using congrArg String.toList h
  · rintro rfl
    rfl

theorem schema_not_setting : startsWith POSTGRES_SCHEMA_METADATA POSTGRES_SETTING = false
  := by
  decide +kernel

/-- What is under a key after a setting is set. -/
theorem get_performStatement_set (client : Metadata) (name : String) (value : Option String)
    (key : String) :
  (performStatement (.set name value) client)[key]?
    = ((PostgresSetStatement.set name value).writes key).getD client[key]?
  := by
  simp only [performStatement, applyPostgresSessionStatement, applyPostgresSetting,
    PostgresSetStatement.writes]
  by_cases hname : name = "search_path"
  · cases value with
    | none =>
        simp only [hname, if_true]
        rfl
    | some raw =>
        simp only [hname, if_true, Option.bind_some]
        cases parseSearchPathEntries raw with
        | error message => rfl
        | ok parsed =>
            change ((client.insert _ _).insert _ _)[key]? = _
            simp only [KeyMap.get_insert, Except.toOption, eq_comm (a := key)]
            split
            · rfl
            · split <;> rfl
  · simp only [hname, if_false, eq_comm (a := key)]
    cases value with
    | none =>
        change (client.erase _)[key]? = _
        rw [KeyMap.get_erase]
        split <;> rfl
    | some value =>
        change (client.insert _ _)[key]? = _
        rw [KeyMap.get_insert]
        split <;> rfl

/-- What is under a key after a statement. -/
theorem get_performStatement (statement : PostgresSetStatement) (client : Metadata)
    (key : String) :
  (performStatement statement client)[key]? = (statement.writes key).getD client[key]?
  := by
  cases statement with
  | set name value => apply get_performStatement_set
  | reset name =>
      simp only [performStatement, applyPostgresSessionStatement, resetPostgresSetting,
        KeyMap.get_erase, PostgresSetStatement.writes]
      by_cases hkey : key = postgresSettingMetadataKey name
      · simp [hkey]
      · rw [if_neg (Ne.symm hkey), if_neg hkey]
        by_cases hname : name = "search_path"
        · simp only [hname, if_true, KeyMap.get_insert, true_and, eq_comm (a := key)]
          split <;> rfl
        · simp [hname]
  | resetAll =>
      simp only [performStatement, applyPostgresSessionStatement, resetAllPostgresSettings,
        KeyMap.get_insert, PostgresSetStatement.writes, eq_comm (a := key)]
      split
      · rfl
      · rw [Std.ExtTreeMap.getElem?_filter']
        cases startsWith key POSTGRES_SETTING with
        | true => simp
        | false => cases client[key]? <;> simp
  | notASetStatement => rfl

/-- A statement writes settings and the schema, nothing else. -/
theorem writes_other {key : String} (hsetting : startsWith key POSTGRES_SETTING = false)
    (hschema : key ≠ POSTGRES_SCHEMA_METADATA) (statement : PostgresSetStatement) :
  statement.writes key = none
  := by
  have hkey (name : String) := (settingKey_ne hsetting name).symm
  cases statement with
  | set name value =>
      simp only [PostgresSetStatement.writes, hkey, hschema, if_false]
      split
      · split <;> rfl
      · rfl
  | reset name => simp [PostgresSetStatement.writes, hkey, hschema]
  | resetAll => simp [PostgresSetStatement.writes, hsetting, hschema]
  | notASetStatement => rfl

/-- Whether a statement sets a setting. -/
def PostgresSetStatement.sets (name : String) : PostgresSetStatement → Bool
  | .set other _ => other = name
  | _ => false

/-- Resetting a setting writes its key, and the schema where it is the search path. -/
theorem writes_reset_eq_some {name key : String} {value : Option String} :
  (PostgresSetStatement.reset name).writes key = some value
    ↔ key = postgresSettingMetadataKey name ∧ value = none
      ∨ name = "search_path" ∧ key = POSTGRES_SCHEMA_METADATA ∧ value = some "public"
  := by
  have hne := settingKey_ne schema_not_setting name
  simp only [PostgresSetStatement.writes]
  by_cases hkey : key = postgresSettingMetadataKey name
  · subst hkey
    simp [hne, eq_comm]
  · by_cases hschema : name = "search_path" ∧ key = POSTGRES_SCHEMA_METADATA
    · obtain ⟨rfl, rfl⟩ := hschema
      simp [hkey, eq_comm]
    · rw [if_neg hkey, if_neg hschema]
      grind

/-- Setting a setting writes only what resetting it writes. -/
theorem writes_of_sets {statement : PostgresSetStatement} {name key : String}
    (hsets : statement.sets name = true)
    (hreset : (PostgresSetStatement.reset name).writes key = none) :
  statement.writes key = none
  := by
  have hnot (value : Option String) : ¬ (PostgresSetStatement.reset name).writes key = some value :=
    by simp [hreset]
  simp only [writes_reset_eq_some] at hnot
  have hkey : key ≠ postgresSettingMetadataKey name := fun h => hnot none (.inl ⟨h, rfl⟩)
  have hschema : name = "search_path" → key ≠ POSTGRES_SCHEMA_METADATA :=
    fun hname h => hnot (some "public") (.inr ⟨hname, h, rfl⟩)
  cases statement with
  | set other value =>
      obtain rfl : other = name := by simpa [PostgresSetStatement.sets] using hsets
      simp only [PostgresSetStatement.writes, hkey, if_false]
      split
      · rename_i hname
        split
        · rfl
        · rw [if_neg (hschema hname)]
      · rfl
  | reset other => cases hsets
  | resetAll => cases hsets
  | notASetStatement => cases hsets

/-- Where a statement that does not set a setting writes what resetting it writes, it writes the
same. -/
theorem writes_of_not_sets {statement : PostgresSetStatement} {name key : String}
    {value : Option String} (hsets : statement.sets name = false)
    (hreset : (PostgresSetStatement.reset name).writes key = some value) :
  statement.writes key = none ∨ statement.writes key = some value
  := by
  have hne (name : String) := (settingKey_ne schema_not_setting name).symm
  cases statement with
  | set other value' =>
      have hother : name ≠ other := by simpa [PostgresSetStatement.sets, eq_comm] using hsets
      left
      simp only [PostgresSetStatement.writes]
      obtain ⟨rfl, rfl⟩ | ⟨rfl, rfl, rfl⟩ := writes_reset_eq_some.mp hreset
      · simp only [settingKey_inj, hother, if_false, (hne name).symm]
        split
        · split <;> rfl
        · rfl
      · simp only [Ne.symm hother, if_false, hne]
  | reset other =>
      simp only [writes_reset_eq_some]
      obtain ⟨rfl, rfl⟩ | ⟨rfl, rfl, rfl⟩ := writes_reset_eq_some.mp hreset
      · by_cases hother : name = other
        · exact .inr (.inl ⟨by rw [hother], rfl⟩)
        · left
          simp [PostgresSetStatement.writes, settingKey_inj, hother, (hne name).symm]
      · by_cases hother : other = "search_path"
        · exact .inr (.inr ⟨hother, rfl, rfl⟩)
        · left
          simp [PostgresSetStatement.writes, hother, hne]
  | resetAll =>
      right
      obtain ⟨rfl, rfl⟩ | ⟨rfl, rfl, rfl⟩ := writes_reset_eq_some.mp hreset
      · simp [PostgresSetStatement.writes, (hne name).symm, startsWith_settingKey]
      · simp [PostgresSetStatement.writes]
  | notASetStatement => exact .inl rfl

/-! ### Runs of statements -/

/-- A setting that is reset after it was set is reset. -/
theorem reset_of_sets {statement : PostgresSetStatement} {name : String}
    (hsets : statement.sets name = true) (client : Metadata) :
  performStatement (.reset name) (performStatement statement client)
    = performStatement (.reset name) client
  := by
  apply Std.ExtTreeMap.ext_getElem?
  intro key
  simp only [get_performStatement]
  cases hreset : (PostgresSetStatement.reset name).writes key with
  | some value => rfl
  | none => rw [writes_of_sets hsets hreset, Option.getD_none]

/-- A setting may as well be reset before a statement that does not set it. -/
theorem reset_of_not_sets {statement : PostgresSetStatement} {name : String}
    (hsets : statement.sets name = false) (client : Metadata) :
  performStatement (.reset name) (performStatement statement client)
    = performStatement statement (performStatement (.reset name) client)
  := by
  apply Std.ExtTreeMap.ext_getElem?
  intro key
  simp only [get_performStatement]
  cases hreset : (PostgresSetStatement.reset name).writes key with
  | none => rfl
  | some value =>
      obtain hwrites | hwrites := writes_of_not_sets hsets hreset
      · rw [hwrites]
        rfl
      · rw [hwrites]

/-- What a connection keeps after messages. -/
def afterMessages (start : Metadata) (messages : List Message) : Metadata :=
  performAll afterMessage messages start

/-- The messages that do not set a setting. -/
def withoutSets (messages : List Message) (name : String) : List Message :=
  messages.filter (fun message => !message.statement.sets name)

/-- Resetting a setting in the end is resetting it at the start and not setting it. -/
theorem reset_afterMessages (messages : List Message) (name : String) (start : Metadata) :
  performStatement (.reset name) (afterMessages start messages)
    = afterMessages (performStatement (.reset name) start) (withoutSets messages name)
  := by
  simp only [afterMessages, withoutSets]
  induction messages generalizing start with
  | nil => rfl
  | cons message messages ih =>
      rw [performAll_cons, ih, afterMessage_eq]
      cases hsets : message.statement.sets name with
      | true =>
          rw [List.filter_cons_of_neg (by simp [hsets]), reset_of_sets hsets]
      | false =>
          rw [List.filter_cons_of_pos (by simp [hsets]), performAll_cons, afterMessage_eq,
            reset_of_not_sets hsets]

/-- What no statement writes is as it was at the start. -/
theorem get_afterMessages {key : String} (hsetting : startsWith key POSTGRES_SETTING = false)
    (hschema : key ≠ POSTGRES_SCHEMA_METADATA) (messages : List Message) (start : Metadata) :
  (afterMessages start messages)[key]? = start[key]?
  := by
  simp only [afterMessages]
  induction messages generalizing start with
  | nil => rfl
  | cons message messages ih =>
      rw [performAll_cons, ih, afterMessage_eq, get_performStatement,
        writes_other hsetting hschema, Option.getD_none]

/-- The user, the role, the database and the authentication method of a session. -/
def identity (session : SessionContext) : String × String × String × String :=
  (session.user, session.role, session.database, session.authMethod)

theorem identity_afterMessages (messages : List Message) (start : Metadata) :
  identity (postgresSessionFromClient (afterMessages start messages))
    = identity (postgresSessionFromClient start)
  := by
  simp only [identity, postgresSessionFromClient]
  rw [get_afterMessages (by decide +kernel) (by decide), get_afterMessages (by decide +kernel)
    (by decide), get_afterMessages (by decide +kernel) (by decide), get_afterMessages
    (by decide +kernel) (by decide)]

/-! ### Effective settings -/

theorem stripStart_setting {key name : String} :
  stripStart? key POSTGRES_SETTING = some name ↔ key = postgresSettingMetadataKey name
  := by
  simp only [stripStart?]
  constructor
  · intro h
    split at h
    · rename_i hstart
      obtain ⟨rest, hrest⟩ := List.isPrefixOf_iff_prefix.mp hstart
      have hname := congrArg String.toList (Option.some.inj h)
      rw [← hrest] at hname
      apply String.toList_inj.mp
      simpa [postgresSettingMetadataKey, ← hrest] using hname
    · cases h
  · rintro rfl
    rw [if_pos (startsWith_settingKey name)]
    simp [postgresSettingMetadataKey]

theorem mem_clientSettings {client : Metadata} {name value : String} :
  (name, value) ∈ clientSettings client
    ↔ client[postgresSettingMetadataKey name]? = some value
  := by
  simp only [clientSettings, List.mem_filterMap, Option.map_eq_some_iff, stripStart_setting,
    ← Std.ExtTreeMap.mem_toList_iff_getElem?_eq_some]
  constructor
  · rintro ⟨⟨key, text⟩, hentry, other, hkey, hrow⟩
    obtain ⟨rfl, rfl⟩ := Prod.mk.inj hrow
    rw [← hkey]
    exact hentry
  · intro h
    exact ⟨_, h, name, rfl, rfl⟩

theorem nodup_clientSettings (client : Metadata) :
  ((clientSettings client).map Prod.fst).Nodup
  := by
  have hnames : (clientSettings client).map Prod.fst
      = client.keys.filterMap (stripStart? · POSTGRES_SETTING) := by
    rw [clientSettings, List.map_filterMap, ← Std.ExtTreeMap.map_fst_toList_eq_keys,
      List.filterMap_map]
    congr 1
    funext entry
    simp [Option.map_map, Function.comp_def]
  rw [hnames]
  apply List.Nodup.filterMap _ Std.ExtTreeMap.nodup_keys
  intro key key' name hname hname'
  rw [stripStart_setting.mp hname, stripStart_setting.mp hname']

/-- The value of a setting: as it was set, or the schema for the search path, or the default. -/
theorem get_effective (client : Metadata) (name : String) :
  (effectivePostgresSettingsMap client)[name]?
    = client[postgresSettingMetadataKey name]?.or
      ((if name = "search_path" then client[POSTGRES_SCHEMA_METADATA]? else none).or
        defaultPostgresShowSettings[name]?)
  := by
  apply Option.ext
  intro value
  rw [effectivePostgresSettingsMap, get_upserted _ (nodup_clientSettings client),
    mem_clientSettings, Option.or_eq_some_iff]
  have hnone : name ∉ (clientSettings client).map Prod.fst
      ↔ client[postgresSettingMetadataKey name]? = none := by
    rw [Option.eq_none_iff_forall_ne_some]
    simp [mem_clientSettings]
  rw [hnone]
  apply or_congr_right
  apply and_congr_right
  intro _
  cases client[POSTGRES_SCHEMA_METADATA]? with
  | none => simp
  | some schema =>
      simp only [KeyMap.get_insert, eq_comm (a := "search_path")]
      split <;> simp

/-- A client has the same effective settings as another, and its statements run in the same
session. -/
structure SameSettings (client client' : Metadata) : Prop where
  settings : effectivePostgresSettingsMap client = effectivePostgresSettingsMap client'
  session : postgresSessionFromClient client = postgresSessionFromClient client'

/-- Two connections keep the same for their clients, but that one may have the schema `public` where
the other has none. -/
structure Alike (client client' : Metadata) : Prop where
  other : ∀ key, key ≠ POSTGRES_SCHEMA_METADATA → client[key]? = client'[key]?
  schema : client[POSTGRES_SCHEMA_METADATA]?.getD "public"
    = client'[POSTGRES_SCHEMA_METADATA]?.getD "public"

theorem Alike.perform {client client' : Metadata} (h : Alike client client')
    (statement : PostgresSetStatement) :
  Alike (performStatement statement client) (performStatement statement client')
  := by
  constructor
  · intro key hkey
    rw [get_performStatement, get_performStatement, h.other key hkey]
  · rw [get_performStatement, get_performStatement]
    cases statement.writes POSTGRES_SCHEMA_METADATA with
    | none => exact h.schema
    | some value => rfl

theorem Alike.afterMessages {client client' : Metadata} (h : Alike client client')
    (messages : List Message) :
  Alike (afterMessages client messages) (Postgres.afterMessages client' messages)
  := by
  simp only [Postgres.afterMessages]
  induction messages generalizing client client' with
  | nil => exact h
  | cons message messages ih =>
      rw [performAll_cons, performAll_cons, afterMessage_eq, afterMessage_eq]
      exact ih (h.perform message.statement)

theorem Alike.sameSettings {client client' : Metadata} (h : Alike client client') :
  SameSettings client client'
  := by
  have hsetting (name : String) : client[postgresSettingMetadataKey name]?
      = client'[postgresSettingMetadataKey name]? :=
    h.other _ (settingKey_ne schema_not_setting name)
  constructor
  · apply Std.ExtTreeMap.ext_getElem?
    intro name
    rw [get_effective, get_effective, hsetting]
    congr 1
    by_cases hname : name = "search_path"
    · subst hname
      have hdefault : defaultPostgresShowSettings["search_path"]? = some "public" := by
        decide +kernel
      have hpublic (value : Option String) :
          value.or (some "public") = some (value.getD "public") := by
        cases value <;> rfl
      rw [if_pos rfl, if_pos rfl, hdefault, hpublic, hpublic, h.schema]
    · rw [if_neg hname, if_neg hname]
  · simp only [postgresSessionFromClient, hsetting, h.schema]
    rw [h.other _ (by decide), h.other _ (by decide), h.other _ (by decide),
      h.other _ (by decide)]

/-- A client has no value of its own for a setting. -/
structure Unset (client : Metadata) (name : String) : Prop where
  setting : client[postgresSettingMetadataKey name]? = none
  schema : name = "search_path" → client[POSTGRES_SCHEMA_METADATA]?.getD "public" = "public"

/-- Resetting a setting that has no value changes nothing that shows. -/
theorem Unset.alike_reset {client : Metadata} {name : String} (h : Unset client name) :
  Alike (performStatement (.reset name) client) client
  := by
  constructor
  · intro key hkey
    rw [get_performStatement]
    cases hwrites : (PostgresSetStatement.reset name).writes key with
    | none => rfl
    | some value =>
        obtain ⟨rfl, rfl⟩ | ⟨-, rfl, -⟩ := writes_reset_eq_some.mp hwrites
        · exact h.setting.symm
        · exact absurd rfl hkey
  · rw [get_performStatement]
    cases hwrites : (PostgresSetStatement.reset name).writes POSTGRES_SCHEMA_METADATA with
    | none => rfl
    | some value =>
        obtain ⟨hkey, -⟩ | ⟨hname, -, rfl⟩ := writes_reset_eq_some.mp hwrites
        · exact absurd hkey.symm (settingKey_ne schema_not_setting name)
        · exact (h.schema hname).symm

/-- A setting that was reset has its default, and the others are as they were. -/
theorem get_effective_reset (client : Metadata) (name other : String) :
  (effectivePostgresSettingsMap (performStatement (.reset name) client))[other]?
    = if other = name then defaultPostgresShowSettings[other]?
      else (effectivePostgresSettingsMap client)[other]?
  := by
  have hne (name : String) := settingKey_ne schema_not_setting name
  have hdefault : defaultPostgresShowSettings["search_path"]? = some "public" := by
    decide +kernel
  simp only [get_effective, get_performStatement, PostgresSetStatement.writes, settingKey_inj, hne,
    Ne.symm (hne _), if_false, and_false, and_true]
  by_cases hother : other = name
  · subst hother
    by_cases hpath : other = "search_path"
    · simp [hpath, hdefault]
    · simp [hpath]
  · rw [if_neg hother, if_neg hother]
    by_cases hpath : other = "search_path"
    · have hname : name ≠ "search_path" := fun h => hother (hpath.trans h.symm)
      simp [hname]
    · simp [hpath]

/-- Every setting of a client has its default: those that are shown, and those of its session. -/
structure HasDefaults (client : Metadata) : Prop where
  settings : effectivePostgresSettingsMap client = defaultPostgresShowSettings
  schema : (postgresSessionFromClient client).schema = "public"
  statementTimeout : (postgresSessionFromClient client).statementTimeoutMs = 0
  idleTimeout : (postgresSessionFromClient client).idleInTransactionTimeoutMs = 0

theorem hasDefaults_resetAll (client : Metadata) :
  HasDefaults (performStatement .resetAll client)
  := by
  have hne (name : String) := settingKey_ne schema_not_setting name
  have hschema : (performStatement .resetAll client)[POSTGRES_SCHEMA_METADATA]? = some "public" :=
    by simp [get_performStatement, PostgresSetStatement.writes]
  have hsetting (name : String) :
      (performStatement .resetAll client)[postgresSettingMetadataKey name]? = none := by
    simp [get_performStatement, PostgresSetStatement.writes, hne, startsWith_settingKey]
  constructor
  · have hdefault : defaultPostgresShowSettings["search_path"]? = some "public" := by
      decide +kernel
    apply Std.ExtTreeMap.ext_getElem?
    intro name
    rw [get_effective, hsetting, hschema, Option.none_or]
    split
    · rename_i hname
      rw [hname, hdefault]
      rfl
    · rfl
  · simp only [postgresSessionFromClient, hschema, Option.getD_some]
  · simp only [postgresSessionFromClient, hsetting, Option.getD_none]
    decide +kernel
  · simp only [postgresSessionFromClient, hsetting, Option.getD_none]
    decide +kernel

/-- What the settings of a client are said to be, after messages and the reset of a setting: the
identity is that of the start, the setting is as if no message had set it, and a reset of all gives
the defaults. -/
structure SettingsExact (start : Metadata) (messages : List Message) (name : String) : Prop where
  identity : identity (postgresSessionFromClient (afterMessages start messages))
    = identity (postgresSessionFromClient start)
  undone : ∀ message : Message, message.statement = .reset name →
    SameSettings (afterMessages start (messages ++ [message]))
      (afterMessages start (withoutSets messages name))
  resetAll : ∀ message : Message, message.statement = .resetAll →
    HasDefaults (afterMessages start (messages ++ [message]))

/-- What the settings of a client are, after messages and the reset of a setting.  The connection is
as if the setting had been reset at the start and not been set by any message; so the messages that
set it are undone where the start had no value for it. -/
structure SettingsKept (start : Metadata) (messages : List Message) (name : String) : Prop where
  identity : identity (postgresSessionFromClient (afterMessages start messages))
    = identity (postgresSessionFromClient start)
  undone : ∀ message : Message, message.statement = .reset name →
    afterMessages start (messages ++ [message])
      = afterMessages (resetPostgresSetting start name) (withoutSets messages name)
  undoneUnset : Unset start name → ∀ message : Message, message.statement = .reset name →
    SameSettings (afterMessages start (messages ++ [message]))
      (afterMessages start (withoutSets messages name))
  reset : ∀ message : Message, message.statement = .reset name → ∀ other : String,
    (effectivePostgresSettingsMap (afterMessages start (messages ++ [message])))[other]?
      = if other = name then defaultPostgresShowSettings[other]?
        else (effectivePostgresSettingsMap (afterMessages start messages))[other]?
  resetAll : ∀ message : Message, message.statement = .resetAll →
    HasDefaults (afterMessages start (messages ++ [message]))

theorem afterMessages_append_singleton (start : Metadata) (messages : List Message)
    (message : Message) :
  afterMessages start (messages ++ [message])
    = performStatement message.statement (afterMessages start messages)
  := by
  rw [afterMessages, performAll_append, performAll_cons, performAll_nil, afterMessage_eq]
  rfl

/-- Whatever statements a client sends, with whatever names and values, its identity and its
settings are kept. -/
theorem settingsKept (start : Metadata) (messages : List Message) (name : String) :
  SettingsKept start messages name
  := by
  have hundone (message : Message) (hmessage : message.statement = .reset name) :
      afterMessages start (messages ++ [message])
        = afterMessages (resetPostgresSetting start name) (withoutSets messages name) := by
    rw [afterMessages_append_singleton, hmessage, reset_afterMessages]
    rfl
  constructor
  case identity => apply identity_afterMessages
  case undone => exact hundone
  case undoneUnset =>
    intro hunset message hmessage
    rw [hundone message hmessage]
    exact (hunset.alike_reset.afterMessages _).sameSettings
  case reset =>
    intro message hmessage other
    rw [afterMessages_append_singleton, hmessage, get_effective_reset]
  case resetAll =>
    intro message hmessage
    rw [afterMessages_append_singleton, hmessage]
    apply hasDefaults_resetAll

/-- A client that named a schema when it connected. -/
def sampleClient : Metadata :=
  Std.ExtTreeMap.ofList
    [(METADATA_USER, "analyst"), (METADATA_DATABASE, "postgres"),
     (POSTGRES_ROLE_METADATA, "analyst"), (POSTGRES_SCHEMA_METADATA, "sales"),
     (POSTGRES_AUTH_METHOD_METADATA, "postgres-wire-startup")]

/-- The client gets the schema `public`, and not the one it named, when it resets its search
path. -/
theorem not_settingsExact :
  (postgresSessionFromClient sampleClient).schema = "sales"
  ∧ (postgresSessionFromClient (afterMessages sampleClient
      [.simple "SET search_path TO reporting", .simple "RESET search_path"])).schema = "public"
  ∧ ¬ SettingsExact sampleClient [.simple "SET search_path TO reporting"] "search_path"
  := by
  refine ⟨by decide +kernel, by decide +kernel, ?_⟩
  intro h
  have hsame := h.undone (.simple "RESET search_path") (by decide +kernel)
  have hschema := congrArg SessionContext.schema hsame.session
  revert hschema
  decide +kernel

end Postgres
