import AnalyticsDB.Control.CatalogFile
import AnalyticsDB.Control.LeaseTable

/-!
# A fresh cluster

A fresh cluster is started by saving its first catalogue at a path, over whatever is there.  A
JSON file holds the catalogue and nothing else; it grants every privilege and every lease.  A
SQLite file also has a table of leases and one of permissions, which saving a catalogue does not
know of.
-/

/-- A SQLite file with all its tables. -/
structure SqliteFile where
  catalog : CatalogFile
  tableLeases : KeyMap SqliteCatalogStore.LeaseRow
  objectPermissions : List ObjectPermission

/-- The tables of a file that was just created. -/
def SqliteFile.empty : SqliteFile :=
  { catalog :=
      { databases := ∅
        users := ∅
        nodes := ∅
        relations := ∅
        functions := ∅
        aggregates := ∅
        collations := ∅
        conversions := ∅
        metadata := ∅ }
    tableLeases := ∅
    objectPermissions := [] }

/-- What is at the path of a catalogue. -/
inductive CatalogContent where
  | absent
  | json (text : String)
  | sqlite (file : SqliteFile)

/-- A path of SQLite does not have a JSON file. -/
def CatalogContent.Suits (content : CatalogContent) (path : String) : Prop :=
  isSqlitePath path = true → ∀ text, content ≠ .json text

/-- Open a file with SQLite, which creates it and its tables where they are not there. -/
def CatalogContent.openConn : CatalogContent → Except String SqliteFile
  | .absent => .ok SqliteFile.empty
  | .sqlite file => .ok file
  | .json _ => .error "file is not a database"

section

variable (serde : Serde) (path : String) (content : CatalogContent)

/-- Save a catalogue at a path. -/
def saveStateAt (state : CatalogState) : Except String CatalogContent :=
  if isSqlitePath path then do
    let serializable ← SerializableState.tryFrom serde state
    let file ← content.openConn
    return .sqlite
      { file with catalog := SqliteCatalogStore.saveBlocking file.catalog serializable }
  else do
    let raw ← JsonCatalogStore.saveState serde state
    return .json raw

/-- Load the catalogue at a path. -/
def loadStateAt : Except String CatalogState :=
  if isSqlitePath path then do
    let file ← content.openConn
    SqliteCatalogStore.load serde file.catalog
  else
    match content with
    | .absent => JsonCatalogStore.load serde path none
    | .json text => JsonCatalogStore.load serde path (some text)
    | .sqlite _ => .error s!"reading catalogue at {path}"

def checkPrivilegeAt (grantee objectType objectName privilege : String) : Except String Bool :=
  if isSqlitePath path then do
    let file ← content.openConn
    return file.objectPermissions.any (·.covers grantee objectType objectName privilege)
  else
    return true

/-- Whether a lease is granted at a path. -/
def tryAcquireLeaseAt (relationKey holderNodeId : String) (ttlMs nowMs : UInt64) :
    Except String Bool :=
  if isSqlitePath path then do
    let file ← content.openConn
    return (SqliteCatalogStore.tryAcquireLease file.tableLeases relationKey holderNodeId ttlMs
      nowMs).2
  else
    return true

/-- Persist the first catalogue of a cluster, given the credentials and the creation times of its
two accounts. -/
def initFreshCluster (credentials : String → Credentials) (now : String → Nat) :
    Except String CatalogContent :=
  saveStateAt serde path content (freshInitState credentials now).bump

end

/-- A fresh cluster starts clean: what is loaded is its first catalogue, no one has a privilege, and
every lease can be acquired. -/
structure StartsClean (serde : Serde) (path : String) (content : CatalogContent)
    (credentials : String → Credentials) (now : String → Nat) : Prop where
  load : loadStateAt serde path content = .ok (freshInitState credentials now)
  privileges : ∀ grantee objectType objectName privilege,
    checkPrivilegeAt path content grantee objectType objectName privilege = .ok false
  leases : ∀ relationKey holderNodeId ttlMs nowMs,
    tryAcquireLeaseAt path content relationKey holderNodeId ttlMs nowMs = .ok true

/-- What a fresh cluster has: its first catalogue in version 1; and no one has a privilege, and
leases can be acquired, where the file had no permission before and no lease that has not ended.
A JSON file grants everything. -/
structure StartsFresh (serde : Serde) (path : String) (before content : CatalogContent)
    (credentials : String → Credentials) (now : String → Nat) : Prop where
  load : loadStateAt serde path content
    = .ok { freshInitState credentials now with catalogueVersion := 1 }
  json : isSqlitePath path = false →
    (∀ grantee objectType objectName privilege,
      checkPrivilegeAt path content grantee objectType objectName privilege = .ok true)
    ∧ ∀ relationKey holderNodeId ttlMs nowMs,
      tryAcquireLeaseAt path content relationKey holderNodeId ttlMs nowMs = .ok true
  sqlite : isSqlitePath path = true → ∀ file, before.openConn = .ok file →
    (file.objectPermissions = [] → ∀ grantee objectType objectName privilege,
      checkPrivilegeAt path content grantee objectType objectName privilege = .ok false)
    ∧ ∀ nowMs, (∀ (relationKey : String) (row : SqliteCatalogStore.LeaseRow),
        file.tableLeases[relationKey]? = some row →
        row.expiresMs < SqliteCatalogStore.asI64 nowMs) →
      ∀ relationKey holderNodeId ttlMs,
        tryAcquireLeaseAt path content relationKey holderNodeId ttlMs nowMs = .ok true

section

variable {serde : Serde} {path : String} {content : CatalogContent} {state : CatalogState}

/-- A catalogue without storage policies that is saved at a path is loaded from there; and the
leases and permissions of a SQLite file are those it had. -/
theorem saveStateAt_ok (hserde : serde.RoundTrips state) (hversion : state.catalogueVersion ≤ u64Max)
    (hpolicies : state.storagePolicies = ∅) (hcontent : content.Suits path) :
  ∃ content', saveStateAt serde path content state = .ok content'
    ∧ loadStateAt serde path content' = .ok state
    ∧ (isSqlitePath path = true → ∀ file, content.openConn = .ok file →
        ∃ catalog, content' = .sqlite { file with catalog := catalog })
  := by
  have hround := (roundTrip_iff hserde hversion SqliteFile.empty.catalog).mpr hpolicies
  cases hpath : isSqlitePath path with
  | true =>
      obtain ⟨file, hfile⟩ : ∃ file, content.openConn = .ok file := by
        cases content with
        | absent => exact ⟨_, rfl⟩
        | sqlite file => exact ⟨file, rfl⟩
        | json text => exact absurd rfl (hcontent hpath text)
      have hload := ((roundTrip_iff hserde hversion file.catalog).mpr hpolicies).sqlite
      rw [SqliteCatalogStore.saveState] at hload
      cases hserializable : SerializableState.tryFrom serde state with
      | error e =>
          rw [hserializable] at hload
          cases hload
      | ok serializable =>
          rw [hserializable] at hload
          refine ⟨.sqlite { file with
            catalog := SqliteCatalogStore.saveBlocking file.catalog serializable }, ?_, ?_, ?_⟩
          · simp only [saveStateAt, hpath, if_true, hserializable, hfile]
            rfl
          · simp only [loadStateAt, hpath, if_true, CatalogContent.openConn]
            exact hload
          · intro _ file' hfile'
            rw [hfile] at hfile'
            obtain rfl := Except.ok.inj hfile'
            exact ⟨_, rfl⟩
  | false =>
      have hload := hround.json path
      cases hraw : JsonCatalogStore.saveState serde state with
      | error e =>
          rw [hraw] at hload
          cases hload
      | ok raw =>
          rw [hraw] at hload
          refine ⟨.json raw, ?_, ?_, ?_⟩
          · simp only [saveStateAt, hpath, Bool.false_eq_true, if_false, hraw]
            rfl
          · simp only [loadStateAt, hpath, Bool.false_eq_true, if_false]
            exact hload
          · intro h
            cases h

/-- Whatever is at the path, a fresh cluster is started there. -/
theorem initFreshCluster_startsFresh {credentials : String → Credentials} {now : String → Nat}
    (hserde : serde.RoundTrips (freshInitState credentials now).bump)
    (hcontent : content.Suits path) :
  ∃ content', initFreshCluster serde path content credentials now = .ok content'
    ∧ StartsFresh serde path content content' credentials now
  := by
  have hversion : (freshInitState credentials now).bump.catalogueVersion ≤ u64Max :=
    Nat.min_le_right _ _
  obtain ⟨content', hsaved, hload, hkept⟩ := saveStateAt_ok hserde hversion rfl hcontent
  refine ⟨content', hsaved, ?_⟩
  constructor
  · exact hload
  · intro hpath
    constructor
    · intro grantee objectType objectName privilege
      simp only [checkPrivilegeAt, hpath, Bool.false_eq_true, if_false]
      rfl
    · intro relationKey holderNodeId ttlMs nowMs
      simp only [tryAcquireLeaseAt, hpath, Bool.false_eq_true, if_false]
      rfl
  · intro hpath file hfile
    obtain ⟨catalog, rfl⟩ := hkept hpath file hfile
    constructor
    · intro hnone grantee objectType objectName privilege
      simp only [checkPrivilegeAt, hpath, if_true, CatalogContent.openConn]
      change Except.ok (file.objectPermissions.any _) = _
      rw [hnone]
      rfl
    · intro nowMs hended relationKey holderNodeId ttlMs
      simp only [tryAcquireLeaseAt, hpath, if_true, CatalogContent.openConn]
      change Except.ok (SqliteCatalogStore.tryAcquireLease file.tableLeases relationKey holderNodeId
        ttlMs nowMs).2 = _
      rw [SqliteCatalogStore.tryAcquireLease_granted.mpr]
      intro row hrow
      exact .inl (hended relationKey row hrow)

end

/-! ### A first catalogue and its texts -/

def sampleCredentials (_ : String) : Credentials :=
  { hash := "$argon2id$v=19$m=19456,t=2,p=1$c2FsdA$aGFzaA"
    scramSaltB64 := "c2FsdA=="
    scramSaltedPasswordB64 := "cGFzc3dvcmQ=" }

/-- The first catalogue of a cluster, as it is persisted. -/
def sampleFresh : CatalogState := (freshInitState sampleCredentials (fun _ => 0)).bump

/-- A text between quotes, where it has nothing to escape. -/
def quoteText (text : String) : String := "\"" ++ text ++ "\""

def optionText (value : Option String) : String := (value.map quoteText).getD "null"

/-- The fields of a user as JSON, but for its members. -/
def userFields (user : CatalogUser) : List (String × String) × List (String × String) :=
  ([("name", quoteText user.name),
    ("is_admin", toString user.isAdmin),
    ("password", optionText user.password),
    ("password_version", toString user.passwordVersion),
    ("password_rotated_at_epoch_ms", (user.passwordRotatedAtEpochMs.map toString).getD "null")],
   [("scram_salt_b64", optionText user.scramSaltB64),
    ("scram_salted_password_b64", optionText user.scramSaltedPasswordB64)])

/-- The text of a user on one line. -/
def userText (user : CatalogUser) : String :=
  let field (entry : String × String) := quoteText entry.1 ++ ":" ++ entry.2
  let members := "[" ++ String.intercalate "," (user.members.toList.map quoteText) ++ "]"
  "\x7b" ++ String.intercalate ","
    ((userFields user).1.map field ++ [field ("members", members)] ++ (userFields user).2.map field)
    ++ "\x7d"

/-- The lines of a user in the text of a catalogue. -/
def userLines (user : CatalogUser) : List String :=
  let field (entry : String × String) := "      " ++ quoteText entry.1 ++ ": " ++ entry.2 ++ ","
  let members :=
    match user.members.toList with
    | [] => ["      \"members\": [],"]
    | names =>
      "      \"members\": [" :: [String.intercalate ",\n" (names.map (fun name =>
        "        " ++ quoteText name))] ++ ["      ],"]
  (userFields user).1.map field ++ members
    ++ (userFields user).2.dropLast.map field
    ++ (userFields user).2.getLast?.toList.map (fun entry =>
        "      " ++ quoteText entry.1 ++ ": " ++ entry.2)

/-- The fields of the first configuration. -/
def configFields : List (String × String) :=
  [("base_postgres_port", "5432"), ("base_flight_sql_port", "50051"),
   ("base_node_port", "60051"), ("catalog_path", quoteText DEFAULT_CATALOG_PATH),
   ("tls_cert_path", "null"), ("tls_key_path", "null"), ("tls_ca_cert_path", "null"),
   ("next_available_port_offset", "0")]

def queryLogFields : List (String × String) :=
  [("enabled", "true"), ("sample_rate", "1.0"), ("min_duration_ms", "0"), ("batch_size", "1024"),
   ("batch_interval_ms", "5000"), ("max_query_length_bytes", "65536"), ("retention_days", "30")]

def storageFields : List (String × String) :=
  [("storage_root", "null"), ("cluster_id", "null"), ("s3_sse", "null"),
   ("s3_sse_kms_key_id", "null"), ("jwt_secret", "null")]

/-- Fields of JSON, with this indentation before each and this text between them. -/
def fieldsText (before between : String) (fields : List (String × String)) : String :=
  String.intercalate between (fields.map (fun entry =>
    before ++ quoteText entry.1 ++ (if before = "" then ":" else ": ") ++ entry.2))

/-- The text of the first configuration on one line. -/
def configText : String :=
  "\x7b" ++ fieldsText "" "," configFields ++ ",\"query_log\":\x7b"
    ++ fieldsText "" "," queryLogFields ++ "\x7d," ++ fieldsText "" "," storageFields ++ "\x7d"

/-- The text of the first catalogue. -/
def freshText : String :=
  String.intercalate "\n"
    (["\x7b",
      "  \"databases\": \x7b",
      "    \"postgres\": \x7b",
      "      \"name\": \"postgres\",",
      "      \"schemas\": [",
      "        \"public\"",
      "      ],",
      "      \"owner\": \"postgres\",",
      "      \"parameters\": \x7b\x7d",
      "    \x7d",
      "  \x7d,",
      "  \"users\": \x7b",
      String.intercalate ",\n" (sampleFresh.users.toList.map (fun entry =>
        String.intercalate "\n"
          (["    " ++ quoteText entry.1 ++ ": \x7b"] ++ userLines entry.2 ++ ["    \x7d"]))),
      "  \x7d,",
      "  \"nodes\": \x7b\x7d,",
      "  \"relations\": \x7b\x7d,",
      "  \"aggregates\": \x7b\x7d,",
      "  \"collations\": \x7b\x7d,",
      "  \"conversions\": \x7b\x7d,",
      "  \"functions\": \x7b\x7d,",
      "  \"config\": \x7b",
      fieldsText "    " ",\n" configFields ++ ",",
      "    \"query_log\": \x7b",
      fieldsText "      " ",\n" queryLogFields,
      "    \x7d,",
      fieldsText "    " ",\n" storageFields,
      "  \x7d,",
      "  \"catalogue_version\": 1,",
      "  \"storage_policies\": \x7b\x7d",
      "\x7d"])

/-- The codecs of the first catalogue. -/
def freshSerde : Serde :=
  { database := Codec.only postgresDatabase
      "\x7b\"name\":\"postgres\",\"schemas\":[\"public\"],\"owner\":\"postgres\",\"parameters\":\x7b\x7d\x7d"
    user :=
      { encode := fun user => .ok (userText user)
        decode := fun text =>
          match sampleFresh.users.toList.find? (fun entry => userText entry.2 = text) with
          | some entry => .ok entry.2
          | none => .error "unknown text" }
    node := Codec.unused
    relation := Codec.unused
    function := Codec.unused
    aggregate := Codec.unused
    collation := Codec.unused
    conversion := Codec.unused
    config :=
      { encode := fun _ => .ok configText
        decode := fun text =>
          match sampleFresh.config with
          | some config => if text = configText then .ok config else .error "unknown text"
          | none => .error "unknown text" }
    state := Codec.only sampleFresh freshText }

/-- The text of a user of the first catalogue is read as this user. -/
theorem decode_userText {key : String} {user : CatalogUser}
    (huser : sampleFresh.users[key]? = some user) :
  freshSerde.user.decode (userText user) = .ok user
  := by
  have hmem : (key, user) ∈ sampleFresh.users.toList :=
    Std.ExtTreeMap.mem_toList_iff_getElem?_eq_some.mpr huser
  have hnodup : (sampleFresh.users.toList.map (fun entry => userText entry.2)).Nodup := by
    decide
  simp only [freshSerde]
  cases hfind : sampleFresh.users.toList.find? (fun entry => userText entry.2 = userText user) with
  | none =>
      have := List.find?_eq_none.mp hfind _ hmem
      simp at this
  | some entry =>
      have htext : userText entry.2 = userText user := by simpa using List.find?_some hfind
      have hentry := List.inj_on_of_nodup_map hnodup (List.mem_of_find?_eq_some hfind) hmem htext
      rw [hentry]

theorem freshSerde_roundTrips : freshSerde.RoundTrips sampleFresh
  := by
  constructor
  case databases =>
    intro key database hdatabase
    simp only [sampleFresh, CatalogState.bump, freshInitState, initialState, KeyMap.get_insert]
      at hdatabase
    split at hdatabase
    · cases hdatabase
      apply Codec.only_roundTrips
    · simp at hdatabase
  case users =>
    intro key user huser
    exact ⟨userText user, rfl, decode_userText huser⟩
  case config =>
    intro config hconfig
    refine ⟨configText, rfl, ?_⟩
    simp only [freshSerde, hconfig, if_true]
  case state => apply Codec.only_roundTrips
  all_goals
    intro key entity hentity
    simp [sampleFresh, CatalogState.bump, freshInitState, initialState] at hentity

/-- A SQLite file of an earlier cluster, with a permission and a lease. -/
def earlierFile : SqliteFile :=
  { catalog := sampleFile
    tableLeases := (∅ : KeyMap SqliteCatalogStore.LeaseRow).insert "sales.public.orders"
      { holderNodeId := "node-1", expiresMs := 30000 }
    objectPermissions :=
      [{ grantee := "reader", objectType := "table", objectName := "sales.public.orders"
         privilege := "SELECT" }] }

/-- The file of an earlier cluster has the catalogue of the fresh one; and its lease can be acquired
once it ended. -/
theorem initFreshCluster_earlierFile :
  ∃ content, initFreshCluster freshSerde "catalog.db" (.sqlite earlierFile) sampleCredentials
      (fun _ => 0) = .ok content
    ∧ StartsFresh freshSerde "catalog.db" (.sqlite earlierFile) content sampleCredentials
      (fun _ => 0)
  := by
  apply initFreshCluster_startsFresh freshSerde_roundTrips
  intro _ text h
  cases h

/-- A fresh cluster does not start clean: in a JSON file everyone has every privilege; in a SQLite
file the catalogue is of version 1, and the permissions and the leases of the earlier cluster are
still there. -/
theorem not_startsClean :
  (∃ content, initFreshCluster freshSerde "catalog.json" .absent sampleCredentials (fun _ => 0)
      = .ok content
    ∧ checkPrivilegeAt "catalog.json" content "reader" "table" "sales.public.orders" "SELECT"
      = .ok true
    ∧ ¬ StartsClean freshSerde "catalog.json" content sampleCredentials (fun _ => 0))
  ∧ ∃ content, initFreshCluster freshSerde "catalog.db" (.sqlite earlierFile) sampleCredentials
      (fun _ => 0) = .ok content
    ∧ loadStateAt freshSerde "catalog.db" content
      ≠ .ok (freshInitState sampleCredentials (fun _ => 0))
    ∧ checkPrivilegeAt "catalog.db" content "reader" "table" "sales.public.orders" "SELECT"
      = .ok true
    ∧ tryAcquireLeaseAt "catalog.db" content "sales.public.orders" "node-2" 10000 20000
      = .ok false
    ∧ ¬ StartsClean freshSerde "catalog.db" content sampleCredentials (fun _ => 0)
  := by
  have hversion : sampleFresh.catalogueVersion ≤ u64Max := Nat.min_le_right _ _
  constructor
  · have hsuits : CatalogContent.absent.Suits "catalog.json" := by
      intro _ text h
      cases h
    obtain ⟨content, hcontent, -⟩ := saveStateAt_ok freshSerde_roundTrips hversion rfl hsuits
    refine ⟨content, hcontent, rfl, ?_⟩
    intro h
    cases h.privileges "reader" "table" "sales.public.orders" "SELECT"
  · have hsuits : (CatalogContent.sqlite earlierFile).Suits "catalog.db" := by
      intro _ text h
      cases h
    obtain ⟨content, hcontent, hload, hkept⟩ :=
      saveStateAt_ok freshSerde_roundTrips hversion rfl hsuits
    have hpath : isSqlitePath "catalog.db" = true := by decide
    obtain ⟨catalog, rfl⟩ := hkept hpath earlierFile rfl
    have hversion' : loadStateAt freshSerde "catalog.db"
        (.sqlite { earlierFile with catalog := catalog })
        ≠ .ok (freshInitState sampleCredentials (fun _ => 0)) := by
      intro h
      rw [hload] at h
      have := congrArg CatalogState.catalogueVersion (Except.ok.inj h)
      revert this
      decide
    refine ⟨_, hcontent, hversion', rfl, ?_, fun h => hversion' h.load⟩
    simp only [tryAcquireLeaseAt, hpath, if_true, CatalogContent.openConn]
    change Except.ok (SqliteCatalogStore.tryAcquireLease earlierFile.tableLeases
      "sales.public.orders" "node-2" 10000 20000).2 = _
    rfl
