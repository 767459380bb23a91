import AnalyticsDB.Control.AccountChanges
import AnalyticsDB.Gateway.Sessions
import AnalyticsDB.Gateway.SqlLiterals

/-!
# Users and groups through the gateway

The gateway changes users and groups by statements that it writes from the names and passwords of a
request and sends one after another.  The server reads each by the words in it, and saves its
catalogue after each.  A request is met when it fails and leaves the users alone, or succeeds and
did just what it asked for; what is proved is when this is so.
-/

namespace Gateway

open Eff

/-! ### The requests -/

/-- What an administrator is answered: a message, and a password that was generated. -/
structure AdminAnswer where
  message : String
  password : Option String
  deriving DecidableEq, Repr

section

variable {σ : Type} (catalog : Except String CatalogState) (server : PgServer σ)
  (endpoint : String) (sessions : Sessions) (claims : SessionClaims)

/-- Send statements, and answer with a message. -/
def administer (statements : List String) (message : String) : Eff σ GatewayError AdminAnswer := do
  runAdminSql catalog server endpoint sessions claims statements
  return { message := message, password := none }

def createUserStatements (name password : String) (groups : List String) : List String :=
  s!"CREATE USER {name} PASSWORD {sqlLiteral password}"
    :: groups.map (fun group => s!"ALTER GROUP {group} ADD USER {name}")

def createUser (name password : String) (groups : List String) : Eff σ GatewayError AdminAnswer :=
  administer catalog server endpoint sessions claims (createUserStatements name password groups)
    s!"User '{name}' created."

def dropUser (name : String) : Eff σ GatewayError AdminAnswer :=
  administer catalog server endpoint sessions claims [s!"DROP USER {name}"]
    s!"User '{name}' dropped."

/-- The new password of a user: the one of the request, and the generated one when it is blank. -/
def newPassword (generated : String) : Option String → String
  | some password => if (trimWhiteSpace password).isEmpty then generated else password
  | none => generated

def resetUserPassword (generated name : String) (password : Option String) :
    Eff σ GatewayError AdminAnswer := do
  let new := newPassword generated password
  runAdminSql catalog server endpoint sessions claims
    [s!"ALTER USER {name} PASSWORD {sqlLiteral new}"]
  if (password.map trimWhiteSpace).all String.isEmpty then
    return {
      message := s!"Password for '{name}' reset. Store it now — it is shown once."
      password := some new }
  else
    return { message := s!"Password for '{name}' updated.", password := none }

def createGroup (name : String) : Eff σ GatewayError AdminAnswer :=
  administer catalog server endpoint sessions claims [s!"CREATE GROUP {name}"]
    s!"Group '{name}' created."

def dropGroup (name : String) : Eff σ GatewayError AdminAnswer :=
  administer catalog server endpoint sessions claims [s!"DROP GROUP {name}"]
    s!"Group '{name}' dropped."

def addGroupMember (name user : String) : Eff σ GatewayError AdminAnswer :=
  administer catalog server endpoint sessions claims [s!"ALTER GROUP {name} ADD USER {user}"]
    s!"User '{user}' added to '{name}'."

def removeGroupMember (name user : String) : Eff σ GatewayError AdminAnswer :=
  administer catalog server endpoint sessions claims [s!"ALTER GROUP {name} DROP USER {user}"]
    s!"User '{user}' removed from '{name}'."

end

/-- A request to change users or groups. -/
inductive AdminRequest where
  | createUser (name password : String) (groups : List String)
  | dropUser (name : String)
  | resetUserPassword (name : String) (password : Option String)
  | createGroup (name : String)
  | dropGroup (name : String)
  | addGroupMember (name user : String)
  | removeGroupMember (name user : String)
  deriving DecidableEq, Repr

/-- The statements of a request. -/
def AdminRequest.statements (generated : String) : AdminRequest → List String
  | .createUser name password groups => createUserStatements name password groups
  | .dropUser name => [s!"DROP USER {name}"]
  | .resetUserPassword name password =>
    [s!"ALTER USER {name} PASSWORD {sqlLiteral (newPassword generated password)}"]
  | .createGroup name => [s!"CREATE GROUP {name}"]
  | .dropGroup name => [s!"DROP GROUP {name}"]
  | .addGroupMember name user => [s!"ALTER GROUP {name} ADD USER {user}"]
  | .removeGroupMember name user => [s!"ALTER GROUP {name} DROP USER {user}"]

section

variable {σ : Type} (catalog : Except String CatalogState) (server : PgServer σ)
  (endpoint : String) (sessions : Sessions) (claims : SessionClaims) (generated : String)

def AdminRequest.handle : AdminRequest → Eff σ GatewayError AdminAnswer
  | .createUser name password groups =>
    Gateway.createUser catalog server endpoint sessions claims name password groups
  | .dropUser name => Gateway.dropUser catalog server endpoint sessions claims name
  | .resetUserPassword name password =>
    Gateway.resetUserPassword catalog server endpoint sessions claims generated name password
  | .createGroup name => Gateway.createGroup catalog server endpoint sessions claims name
  | .dropGroup name => Gateway.dropGroup catalog server endpoint sessions claims name
  | .addGroupMember name user =>
    Gateway.addGroupMember catalog server endpoint sessions claims name user
  | .removeGroupMember name user =>
    Gateway.removeGroupMember catalog server endpoint sessions claims name user

/-- A request is answered once its statements were executed. -/
theorem AdminRequest.handle_eq (request : AdminRequest) :
  ∃ answer, request.handle catalog server endpoint sessions claims generated
    = runAdminSql catalog server endpoint sessions claims (request.statements generated)
      >>= fun _ => pure answer
  := by
  cases request with
  | resetUserPassword name password =>
      simp only [handle, Gateway.resetUserPassword, statements]
      split
      · exact ⟨_, rfl⟩
      · exact ⟨_, rfl⟩
  | _ => exact ⟨_, rfl⟩

end

/-! ### The server -/

def failureText : Failure → String
  | .error message => message
  | .panic message => message

/-- The server: how it reads statements, whom it takes connections from, the errors with which it
turns statements away before it reads them, as when no slot is free or the connection is gone, and
those for statements that are not on accounts. -/
structure Server where
  outside : Outside
  parser : SqlParser
  connects : String → String → String → CatalogState → Except String Unit
  turnedAway : Nat → String → Option String
  unread : String → String

/-- The session of a connection. -/
def wireSession (user database : String) : SessionContext :=
  { user := user
    role := user
    database := database
    schema := "public"
    authMethod := "postgres-wire-startup"
    protocol := .postgreSql }

namespace Server

variable (server : Server)

/-- Execute a statement. -/
def execute (user database sql : String) : Op (List SimpleQueryMessage) := do
  let n ← outsideCall
  match server.turnedAway n sql with
  | some message => bail message
  | none =>
    let state ← readState
    orBail (validateSession state (wireSession user database))
    match server.parser.read sql with
    | some statement =>
      let _ ← executeMetadataStatement server.outside (wireSession user database) statement
      return [.commandComplete 0]
    | none => bail (server.unread sql)

/-- The server as the gateway sees it. -/
def pg : PgServer World :=
  { connect := fun user password database =>
      ExceptT.mk (fun w => (server.connects user password database w.catalog, w))
    simpleQuery := fun user database sql =>
      ExceptT.adapt failureText (server.execute user database sql) }

end Server

/-! ### What a request asks for -/

/-- Credentials that are made of a password. -/
def CredentialsOf (o : Outside) (password : String) (credentials : Credentials) : Prop :=
  ∃ call, credentialsAt o call password = .ok credentials

/-- The users are changed as a request asks for: its account has the password and is in the groups
that are named, and no other account, password or membership is another one. -/
def AdminRequest.Done (o : Outside) (generated : String) (users users' : KeyMap CatalogUser) :
    AdminRequest → Prop
  | .createUser name password groups =>
    users.contains name = false ∧ (∀ group ∈ groups, group = name ∨ users.contains group = true)
      ∧ ∃ credentials now, CredentialsOf o password credentials ∧ ∀ account : String,
        users'[account]? = (users.insert name
          (CatalogUser.new name false (some credentials) (some now)))[account]?.map
            (CatalogUser.enrolled name (groups.contains account))
  | .dropUser name => users.contains name = true ∧ users' = users.erase name
  | .resetUserPassword name password =>
    users.contains name = true
      ∧ ∃ credentials now, CredentialsOf o (newPassword generated password) credentials
        ∧ users' = users.modify name (CatalogUser.rotate credentials now)
  | .createGroup name =>
    users.contains name = false
      ∧ users' = users.insert name (CatalogUser.new name false none none)
  | .dropGroup name => users.contains name = true ∧ users' = users.erase name
  | .addGroupMember name user =>
    users.contains name = true ∧ users' = users.modify name (CatalogUser.enrolled user true)
  | .removeGroupMember name user =>
    (∃ group, users[name]? = some group ∧ group.members.contains user = true)
      ∧ users' = users.modify name (CatalogUser.enrolled user false)

/-- A request is met when it fails and leaves the users alone, or succeeds and did what it asks
for. -/
def AdminRequest.Met {ε α : Type} (o : Outside) (generated : String) (request : AdminRequest)
    (users : KeyMap CatalogUser) : Except ε α → World → Prop
  | .error _, w' => w'.catalog.users = users
  | .ok _, w' => request.Done o generated users w'.catalog.users

/-! ### When it is met -/

namespace Server

variable (server : Server) (session : SessionContext) (state : CatalogState) (call : Nat)

/-- A text is executed as a statement whose checks pass. -/
def Accepts (sql : String) (statement : MetadataStatement) : Prop :=
  server.turnedAway call sql = none ∧ server.parser.read sql = some statement
    ∧ statement.Passes server.outside session state (call + 1)

/-- A text is not executed. -/
def Refuses (sql : String) : Prop := ∀ statement, ¬ server.Accepts session state call sql statement

/-- The catalogue is saved after a statement. -/
def Saves (statement : MetadataStatement) : Prop :=
  server.outside.saved (call + 1 + statement.callsBeforeSave) = .ok ()

/-- The next call after a statement that is saved. -/
def callAfter (statement : MetadataStatement) : Nat :=
  server.outside.callAfterSave (call + 1 + statement.callsBeforeSave)

/-- No statement that adds a user to groups is turned away, and the catalogue is saved after each. -/
def Enrolls (name : String) : Nat → List String → Prop
  | _, [] => True
  | call, group :: groups =>
    server.turnedAway call s!"ALTER GROUP {group} ADD USER {name}" = none
      ∧ server.Saves call (.alterGroup group (.addUser name))
      ∧ Enrolls name (server.callAfter call (.alterGroup group (.addUser name))) groups

end Server

/-- No other group has a member of the name. -/
def NoOtherGroup (users : KeyMap CatalogUser) (name : String) (groups : List String) : Prop :=
  ∀ (account : String) (group : CatalogUser), users[account]? = some group → account ∉ groups →
    group.members.contains name = false

namespace AdminRequest

/-- A statement is the one a request asks for; its password may be any that gets the same
credentials. -/
def Asks (o : Outside) (generated : String) (call : Nat) (users : KeyMap CatalogUser) :
    AdminRequest → MetadataStatement → Prop
  | .createUser name password _, statement =>
    ∃ text credentials, statement = .createUser name (some text)
      ∧ credentialsAt o call text = .ok credentials ∧ CredentialsOf o password credentials
  | .dropUser name, statement =>
    users.contains name = true ∧ ∃ ifExists, statement = .dropUser name ifExists
  | .resetUserPassword name password, statement =>
    ∃ text credentials, statement = .alterUserPassword name text
      ∧ credentialsAt o call text = .ok credentials
      ∧ CredentialsOf o (newPassword generated password) credentials
  | .createGroup name, statement => statement = .createGroup name
  | .dropGroup name, statement =>
    users.contains name = true ∧ ∃ ifExists, statement = .dropGroup name ifExists
  | .addGroupMember name user, statement => statement = .alterGroup name (.addUser user)
  | .removeGroupMember name user, statement => statement = .alterGroup name (.dropUser user)

/-- A request to add a member to a group that has it. -/
def Fulfilled (users : KeyMap CatalogUser) (request : AdminRequest) : Prop :=
  ∃ name user group, request = .addGroupMember name user ∧ users[name]? = some group
    ∧ group.members.contains user = true

/-- The server refuses the statement of a request, or executes it as the one that is asked for and
saves it; or there is nothing to do. -/
def HoldsForOne (server : Server) (session : SessionContext) (state : CatalogState) (call : Nat)
    (generated : String) (request : AdminRequest) (sql : String) : Prop :=
  server.Refuses session state call sql
    ∨ ∃ statement, server.Accepts session state call sql statement
      ∧ (request.Asks server.outside generated (call + 1) state.users statement
          ∧ server.Saves call statement
        ∨ statement.Idle state.users
          ∧ (server.Saves call statement → request.Fulfilled state.users))

/-- The server refuses to create the user; or it creates the one that is asked for, every group
there is to be is there, no other has a member of this name, and every statement is executed and
saved. -/
def HoldsForCreate (server : Server) (session : SessionContext) (state : CatalogState)
    (call : Nat) (generated : String) (name password : String) (groups : List String) : Prop :=
  let sql := s!"CREATE USER {name} PASSWORD {sqlLiteral password}"
  server.Refuses session state call sql
    ∨ ∃ statement, server.Accepts session state call sql statement
      ∧ (createUser name password groups).Asks server.outside generated (call + 1) state.users
        statement
      ∧ server.Saves call statement
      ∧ (∀ group ∈ groups, group = name ∨ state.users.contains group = true)
      ∧ NoOtherGroup state.users name groups
      ∧ server.Enrolls name (server.callAfter call statement) groups

/-- When a request that is sent to the server is met. -/
def Holds (server : Server) (session : SessionContext) (state : CatalogState) (call : Nat)
    (generated : String) : AdminRequest → Prop
  | .createUser name password groups =>
    HoldsForCreate server session state call generated name password groups
  | request =>
    ∀ sql ∈ request.statements generated,
      request.HoldsForOne server session state call generated sql

end AdminRequest

/-- A request is sent: its user is an administrator, has a session with a password, and the server
takes the connection. -/
def Sent (catalog : Except String CatalogState) (server : Server) (sessions : Sessions)
    (claims : SessionClaims) (state : CatalogState) : Prop :=
  (∃ seen, catalog = .ok seen ∧ userIsAdmin seen claims.sub = true)
    ∧ ∃ password, sessions.passwordFor claims.sessionId = some password
      ∧ server.connects claims.sub password DEFAULT_DATABASE state = .ok ()

/-! ### What one statement does -/

section

variable {users : KeyMap CatalogUser} {name other : String}

theorem erase_inj (hname : users.contains name = true) (h : users.erase other = users.erase name) :
  other = name
  := by
  by_contra hne
  have hkept := (contains_erase_iff users other name).mpr ⟨hne, hname⟩
  rw [h] at hkept
  exact ((contains_erase_iff users name name).mp hkept).1 rfl

theorem insert_inj {user user' : CatalogUser} (hname : users.contains name = false)
    (h : users.insert other user = users.insert name user') :
  other = name
  := by
  have hmem := (contains_insert_iff users name name user').mpr (.inl rfl)
  rw [← h] at hmem
  obtain rfl | hmem := (contains_insert_iff users other name user).mp hmem
  · rfl
  · rw [hname] at hmem
    cases hmem

/-- Two modifications that are the same, at the account of one of them. -/
theorem modify_congr {f g : CatalogUser → CatalogUser} {user : CatalogUser}
    (huser : users[name]? = some user) (h : users.modify other f = users.modify name g) :
  g user = if other = name then f user else user
  := by
  have hget := modify_get g huser
  rw [← h, KeyMap.get_modify, huser] at hget
  split at hget
  · rename_i hname
    rw [if_pos hname]
    exact (Option.some.inj hget).symm
  · rename_i hname
    rw [if_neg hname]
    exact (Option.some.inj hget).symm

theorem rotate_inj {credentials credentials' : Credentials} {now now' : Nat} {user : CatalogUser}
    (h : user.rotate credentials now = user.rotate credentials' now') :
  credentials = credentials'
  := by
  have hhash := congrArg CatalogUser.password h
  have hsalt := congrArg CatalogUser.scramSaltB64 h
  have hpassword := congrArg CatalogUser.scramSaltedPasswordB64 h
  cases credentials
  cases credentials'
  simp only [CatalogUser.rotate, Option.some.injEq] at hhash hsalt hpassword
  rw [hhash, hsalt, hpassword]

end

section

variable {o : Outside} {session : SessionContext} {state : CatalogState} {call : Nat}
  {generated name text user : String}

open MetadataStatement

theorem done_dropUser_iff {ifExists : Bool} :
  (AdminRequest.dropUser name).Done o generated state.users
      ((MetadataStatement.dropUser text ifExists).usersAfter o state.users call)
    ↔ (AdminRequest.dropUser name).Asks o generated call state.users (.dropUser text ifExists)
  := by
  constructor
  · rintro ⟨hname, herase⟩
    obtain rfl := erase_inj hname herase
    exact ⟨hname, ifExists, rfl⟩
  · rintro ⟨hname, _, ⟨⟩⟩
    exact ⟨hname, rfl⟩

theorem done_dropGroup_iff {ifExists : Bool} :
  (AdminRequest.dropGroup name).Done o generated state.users
      ((MetadataStatement.dropGroup text ifExists).usersAfter o state.users call)
    ↔ (AdminRequest.dropGroup name).Asks o generated call state.users (.dropGroup text ifExists)
  := by
  constructor
  · rintro ⟨hname, herase⟩
    obtain rfl := erase_inj hname herase
    exact ⟨hname, ifExists, rfl⟩
  · rintro ⟨hname, _, ⟨⟩⟩
    exact ⟨hname, rfl⟩

theorem done_createGroup_iff
    (hpasses : (MetadataStatement.createGroup text).Passes o session state call) :
  (AdminRequest.createGroup name).Done o generated state.users
      ((MetadataStatement.createGroup text).usersAfter o state.users call)
    ↔ (AdminRequest.createGroup name).Asks o generated call state.users (.createGroup text)
  := by
  constructor
  · rintro ⟨hname, hinsert⟩
    exact congrArg MetadataStatement.createGroup (insert_inj hname hinsert)
  · rintro ⟨⟩
    exact ⟨hpasses.2.2, rfl⟩

theorem done_resetUserPassword_iff {password : Option String} {read : String}
    (hpasses : (MetadataStatement.alterUserPassword text read).Passes o session state call) :
  (AdminRequest.resetUserPassword name password).Done o generated state.users
      ((MetadataStatement.alterUserPassword text read).usersAfter o state.users call)
    ↔ (AdminRequest.resetUserPassword name password).Asks o generated call state.users
      (.alterUserPassword text read)
  := by
  obtain ⟨-, ⟨credentials, hcredentials⟩, -, hexists⟩ := hpasses
  simp only [usersAfter, hcredentials]
  constructor
  · rintro ⟨hname, credentials', now, hof, hmodify⟩
    obtain ⟨entry, hentry⟩ := exists_get_of_contains hname
    have hrotated := modify_congr hentry hmodify
    split at hrotated
    · rename_i hsame
      subst hsame
      obtain rfl := rotate_inj hrotated
      exact ⟨read, credentials', rfl, hcredentials, hof⟩
    · exact absurd hrotated (rotate_ne _ _ _)
  · rintro ⟨_, credentials', ⟨⟩, hcredentials', hof⟩
    rw [hcredentials] at hcredentials'
    cases hcredentials'
    exact ⟨hexists, credentials, _, hof, rfl⟩

theorem done_addGroupMember_iff {operation : AlterGroupOperation}
    (hpasses : (MetadataStatement.alterGroup text operation).Passes o session state call) :
  (AdminRequest.addGroupMember name user).Done o generated state.users
      ((MetadataStatement.alterGroup text operation).usersAfter o state.users call)
    ↔ (AdminRequest.addGroupMember name user).Asks o generated call state.users
        (.alterGroup text operation)
      ∨ (MetadataStatement.alterGroup text operation).Idle state.users
        ∧ (AdminRequest.addGroupMember name user).Fulfilled state.users
  := by
  constructor
  · rintro ⟨hname, hdone⟩
    obtain ⟨group, hgroup⟩ := exists_get_of_contains hname
    cases operation with
    | addUser member =>
        by_cases hidle : (MetadataStatement.alterGroup text (.addUser member)).Idle state.users
        · right
          rw [(usersAfter_eq_iff hpasses rfl).mpr hidle, eq_comm, modify_eq_iff _ hgroup,
            enrolled_true_eq_iff] at hdone
          exact ⟨hidle, name, user, group, rfl, hgroup, hdone⟩
        · left
          obtain ⟨target, htarget⟩ := exists_get_of_contains hpasses.2.1
          have habsent : target.members.contains member = false := by
            rw [← Bool.not_eq_true]
            intro hmember
            exact hidle ⟨text, member, target, rfl, htarget, hmember⟩
          have hsame := modify_congr htarget hdone.symm
          split at hsame
          · rename_i htext
            subst htext
            have hmember := congrArg (fun g => g.members.contains member) hsame
            simp only [contains_enrolled, if_true, habsent] at hmember
            split at hmember
            · rename_i huser
              subst huser
              rfl
            · cases hmember
          · rw [enrolled_true_eq_iff, habsent] at hsame
            cases hsame
    | dropUser member =>
        obtain ⟨-, target, htarget, hmember⟩ := hpasses
        have hsame := modify_congr htarget hdone.symm
        split at hsame
        · have hcontains := congrArg (fun g => g.members.contains member) hsame
          simp [contains_enrolled, hmember] at hcontains
        · rw [enrolled_false_eq_iff, hmember] at hsame
          cases hsame
    | rename newName =>
        obtain ⟨-, htext, -, hnew⟩ := hpasses
        obtain ⟨target, htarget⟩ := exists_get_of_contains htext
        have hcontains := (contains_insert_iff (state.users.erase text) newName newName
          { target with
            name := newName }).mpr (.inl rfl)
        simp only [usersAfter, htarget] at hdone
        rw [hdone, contains_modify_eq, hnew] at hcontains
        cases hcontains
  · rintro (hasks | ⟨hidle, name', user', group, hrequest, hgroup, hmember⟩)
    · obtain ⟨rfl, rfl⟩ := MetadataStatement.alterGroup.inj hasks
      exact ⟨hpasses.2.1, rfl⟩
    · obtain ⟨rfl, rfl⟩ := AdminRequest.addGroupMember.inj hrequest
      have hsaves : (MetadataStatement.alterGroup text operation).saves state.users = true := rfl
      refine ⟨?_, ?_⟩
      · rw [Std.ExtTreeMap.contains_eq_isSome_getElem?, hgroup]
        rfl
      · rw [(usersAfter_eq_iff hpasses hsaves).mpr hidle, eq_comm, modify_eq_iff _ hgroup,
          enrolled_true_eq_iff]
        exact hmember

theorem done_removeGroupMember_iff {operation : AlterGroupOperation}
    (hpasses : (MetadataStatement.alterGroup text operation).Passes o session state call) :
  (AdminRequest.removeGroupMember name user).Done o generated state.users
      ((MetadataStatement.alterGroup text operation).usersAfter o state.users call)
    ↔ (AdminRequest.removeGroupMember name user).Asks o generated call state.users
      (.alterGroup text operation)
  := by
  constructor
  · rintro ⟨⟨group, hgroup, hmember⟩, hdone⟩
    cases operation with
    | addUser added =>
        have hsame := modify_congr hgroup hdone
        have hcontains := congrArg (fun g => g.members.contains user) hsame
        split at hcontains
        · simp [contains_enrolled, hmember] at hcontains
        · simp [contains_enrolled, hmember] at hcontains
    | dropUser dropped =>
        have hsame := modify_congr hgroup hdone
        have hcontains := congrArg (fun g => g.members.contains user) hsame
        split at hcontains
        · rename_i htext
          subst htext
          simp only [contains_enrolled, if_true, hmember] at hcontains
          split at hcontains
          · rename_i hdropped
            subst hdropped
            rfl
          · cases hcontains
        · simp [contains_enrolled, hmember] at hcontains
    | rename newName =>
        obtain ⟨-, htext, -, hnew⟩ := hpasses
        obtain ⟨target, htarget⟩ := exists_get_of_contains htext
        have hcontains := (contains_insert_iff (state.users.erase text) newName newName
          { target with
            name := newName }).mpr (.inl rfl)
        simp only [usersAfter, htarget] at hdone
        rw [hdone, contains_modify_eq, hnew] at hcontains
        cases hcontains
  · intro hasks
    obtain ⟨rfl, rfl⟩ := MetadataStatement.alterGroup.inj hasks
    exact ⟨hpasses.2, rfl⟩

end

/-- What is read off a text is a statement on accounts. -/
theorem fallback_onAccounts {sql : String} {statement : MetadataStatement}
    (h : parseMetadataStatementFallback sql = some statement) :
  statement.onAccounts = true
  := by
  rw [parseMetadataStatementFallback, Option.join_eq_some_iff] at h
  obtain ⟨entry, hentry, hread⟩ := List.exists_of_findSome?_eq_some h
  obtain ⟨remainder, -, hparse⟩ := Option.map_eq_some_iff.mp hread
  simp only [accountStatements, List.mem_cons, List.not_mem_nil, or_false] at hentry
  obtain rfl | rfl | rfl | rfl | rfl | rfl | rfl | rfl | rfl := hentry
  · obtain ⟨_, _, rfl⟩ := parseAlterUser_kind hparse
    rfl
  · obtain ⟨_, _, rfl⟩ := parseCreateUser_kind hparse
    rfl
  · cases hparse
    rfl
  · cases hparse
    rfl
  · cases hparse
    rfl
  · obtain ⟨_, _, rfl⟩ := parseAlterGroup_kind hparse
    rfl
  · obtain ⟨_, _, rfl⟩ := parseAlterGroup_kind hparse
    rfl
  · cases hparse
    rfl
  · cases hparse
    rfl

/-- Errors that are told in another way. -/
theorem after_adapt {σ ε ε' α : Type} (f : ε → ε') (m : Eff σ ε α) (s : σ)
    (Q : Except ε' α → σ → Prop) :
  After (ExceptT.adapt f m) s Q ↔ After m s (fun r t => Q (r.mapError f) t)
  := Iff.rfl

namespace Server

variable {server : Server} {sql : String} {statement : MetadataStatement}

theorem read_onAccounts (h : server.parser.read sql = some statement) :
  statement.onAccounts = true
  := by
  rw [SqlParser.read, SqlParser.parseMetadataStatement] at h
  split at h
  · cases h
    rfl
  · exact fallback_onAccounts h

/-- A statement that is refused fails and leaves the users alone; one that is accepted leaves its
users, and fails only when it cannot be saved. -/
def Executes {ε α : Type} (server : Server) (session : SessionContext) (w : World) (sql : String)
    (r : Except ε α) (w' : World) : Prop :=
  (server.Refuses session w.catalog w.calls sql →
      (∃ e, r = .error e) ∧ w'.catalog.users = w.catalog.users)
    ∧ ∀ statement, server.Accepts session w.catalog w.calls sql statement →
      w'.catalog.users = statement.usersAfter server.outside w.catalog.users (w.calls + 1)
        ∧ w'.catalog.databases = w.catalog.databases
        ∧ (statement.saves w.catalog.users = true → w'.calls = server.callAfter w.calls statement
          ∧ ((∃ a, r = .ok a) ↔ server.Saves w.calls statement))
        ∧ (statement.saves w.catalog.users = false → ∃ a, r = .ok a)

theorem executes_refused {ε α : Type} {session : SessionContext} {w w' : World}
    (h : server.Refuses session w.catalog w.calls sql) (e : ε) (hw : w'.catalog = w.catalog) :
  Executes server session w sql (.error e : Except ε α) w'
  := ⟨fun _ => ⟨⟨e, rfl⟩, congrArg CatalogState.users hw⟩,
    fun statement haccepts => absurd haccepts (h statement)⟩

theorem after_simpleQuery (server : Server) (user database sql : String) (w : World) :
  After (server.pg.simpleQuery user database sql) w
    (Executes server (wireSession user database) w sql)
  := by
  simp only [pg, after_adapt, execute, after_bind, after_outsideCall, resume_ok]
  cases haway : server.turnedAway w.calls sql with
  | some message =>
      have hrefuses : server.Refuses (wireSession user database) w.catalog w.calls sql := by
        rintro statement ⟨hnone, -⟩
        rw [haway] at hnone
        cases hnone
      exact executes_refused hrefuses message rfl
  | none =>
      simp only [after_bind, after_readState, resume_ok, after_orBail]
      refine ⟨?_, ?_⟩
      · intro message hsession
        have hrefuses : server.Refuses (wireSession user database) w.catalog w.calls sql := by
          rintro statement ⟨-, -, hpasses⟩
          rw [(MetadataStatement.administers_of_passes hpasses).1] at hsession
          cases hsession
        exact executes_refused hrefuses message rfl
      · intro _ hsession
        cases hread : server.parser.read sql with
        | none =>
            have hrefuses : server.Refuses (wireSession user database) w.catalog w.calls sql := by
              rintro statement ⟨-, hsome, -⟩
              rw [hread] at hsome
              cases hsome
            exact executes_refused hrefuses (server.unread sql) rfl
        | some statement =>
            have hchanges := executeMessage_changes server.outside (wireSession user database)
              { w with calls := w.calls + 1 } (read_onAccounts hread)
            simp only [executeMetadataStatement, after_bind]
            apply After.mono hchanges
            rintro r w' ⟨hfails, hdoes⟩
            by_cases hpasses : statement.Passes server.outside (wireSession user database)
                w.catalog (w.calls + 1)
            · obtain ⟨husers, hdatabases, hsaved, hunsaved⟩ := hdoes hpasses
              have hunique : ∀ statement', server.Accepts (wireSession user database) w.catalog
                  w.calls sql statement' → statement' = statement := by
                rintro statement' ⟨-, hread', -⟩
                rw [hread] at hread'
                exact (Option.some.inj hread').symm
              cases r with
              | ok message =>
                  refine ⟨fun hrefuses => absurd ⟨haway, hread, hpasses⟩ (hrefuses statement), ?_⟩
                  intro statement' haccepts
                  rw [hunique statement' haccepts]
                  refine ⟨husers, hdatabases, fun hsaves => ?_, fun _ => ⟨_, rfl⟩⟩
                  obtain ⟨hcalls, hok⟩ := hsaved hsaves
                  exact ⟨hcalls, fun _ => hok.mp ⟨message, rfl⟩, fun _ => ⟨_, rfl⟩⟩
              | error e =>
                  refine ⟨fun hrefuses => absurd ⟨haway, hread, hpasses⟩ (hrefuses statement), ?_⟩
                  intro statement' haccepts
                  rw [hunique statement' haccepts]
                  refine ⟨husers, hdatabases, fun hsaves => ?_, fun hsaves => ?_⟩
                  · obtain ⟨hcalls, hok⟩ := hsaved hsaves
                    refine ⟨hcalls, by rintro ⟨_, ⟨⟩⟩, fun hsave => ?_⟩
                    obtain ⟨_, ⟨⟩⟩ := hok.mpr hsave
                  · obtain ⟨_, ⟨⟩⟩ := hunsaved hsaves
            · obtain ⟨⟨e, rfl⟩, husers⟩ := hfails hpasses
              refine ⟨fun _ => ⟨⟨_, rfl⟩, husers⟩, ?_⟩
              rintro statement' ⟨-, hread', hpasses'⟩
              rw [hread] at hread'
              cases hread'
              exact absurd hpasses' hpasses

end Server

namespace AdminRequest

variable {server : Server} {session : SessionContext} {generated sql : String}
  {request : AdminRequest}

/-- What a request asks for has something to save. -/
theorem saves_of_asks {o : Outside} {call : Nat} {users : KeyMap CatalogUser}
    {statement : MetadataStatement} (h : request.Asks o generated call users statement) :
  statement.saves users = true
  := by
  cases request with
  | createUser name password groups =>
      obtain ⟨_, _, rfl, -⟩ := h
      rfl
  | resetUserPassword name password =>
      obtain ⟨_, _, rfl, -⟩ := h
      rfl
  | dropUser name =>
      obtain ⟨hname, _, rfl⟩ := h
      exact hname
  | dropGroup name =>
      obtain ⟨hname, _, rfl⟩ := h
      exact hname
  | createGroup name =>
      obtain rfl : statement = _ := h
      rfl
  | addGroupMember name user =>
      obtain rfl : statement = _ := h
      rfl
  | removeGroupMember name user =>
      obtain rfl : statement = _ := h
      rfl

theorem accepts_unique {state : CatalogState} {call : Nat} {statement statement' : MetadataStatement}
    (h : server.Accepts session state call sql statement)
    (h' : server.Accepts session state call sql statement') :
  statement = statement'
  := Option.some.inj (h.2.1.symm.trans h'.2.1)

/-- A request of one statement is met just when it holds of the statement. -/
theorem met_one_iff {ε α : Type} {w w' : World} {r : Except ε α}
    (h : server.Executes session w sql r w')
    (hdone : ∀ statement, server.Accepts session w.catalog w.calls sql statement →
      (request.Done server.outside generated w.catalog.users
          (statement.usersAfter server.outside w.catalog.users (w.calls + 1))
        ↔ request.Asks server.outside generated (w.calls + 1) w.catalog.users statement
          ∨ statement.Idle w.catalog.users ∧ request.Fulfilled w.catalog.users)) :
  request.Met server.outside generated w.catalog.users r w'
    ↔ request.HoldsForOne server session w.catalog w.calls generated sql
  := by
  obtain ⟨hfails, hdoes⟩ := h
  by_cases hrefuses : server.Refuses session w.catalog w.calls sql
  · obtain ⟨⟨e, rfl⟩, husers⟩ := hfails hrefuses
    exact ⟨fun _ => .inl hrefuses, fun _ => husers⟩
  · simp only [Server.Refuses, not_forall, not_not] at hrefuses
    obtain ⟨statement, haccepts⟩ := hrefuses
    obtain ⟨husers, -, hsaved, hunsaved⟩ := hdoes statement haccepts
    have hholds : request.HoldsForOne server session w.catalog w.calls generated sql
        ↔ request.Asks server.outside generated (w.calls + 1) w.catalog.users statement
            ∧ server.Saves w.calls statement
          ∨ statement.Idle w.catalog.users
            ∧ (server.Saves w.calls statement → request.Fulfilled w.catalog.users) := by
      constructor
      · rintro (hrefuses | ⟨statement', haccepts', hone⟩)
        · exact absurd haccepts (hrefuses statement)
        · rw [accepts_unique haccepts haccepts']
          exact hone
      · exact fun hone => .inr ⟨statement, haccepts, hone⟩
    rw [hholds]
    cases hsaves : statement.saves w.catalog.users with
    | true =>
        obtain ⟨-, hok⟩ := hsaved hsaves
        cases r with
        | ok a =>
            have hsave : server.Saves w.calls statement := hok.mp ⟨a, rfl⟩
            rw [Met, husers, hdone statement haccepts]
            simp only [hsave, and_true, true_implies]
        | error e =>
            have hsave : ¬ server.Saves w.calls statement := by
              intro hsave
              obtain ⟨_, ⟨⟩⟩ := hok.mpr hsave
            rw [Met, husers, MetadataStatement.usersAfter_eq_iff haccepts.2.2 hsaves]
            simp only [hsave, and_false, false_implies, and_true, false_or]
    | false =>
        obtain ⟨a, rfl⟩ := hunsaved hsaves
        have hasks : ¬ request.Asks server.outside generated (w.calls + 1) w.catalog.users
            statement := by
          intro hasks
          rw [saves_of_asks hasks] at hsaves
          cases hsaves
        have hidle : ¬ statement.Idle w.catalog.users := by
          rintro ⟨_, _, _, rfl, -⟩
          cases hsaves
        rw [Met, husers, hdone statement haccepts]
        simp only [hasks, hidle, false_and, or_self]

/-! ### The statements of the requests -/

theorem dropUser_text (name : String) : s!"DROP USER {name}" = "DROP USER" ++ (" " ++ name)
  := by
  apply String.toList_inj.mp
  simp [toString]

theorem alterUser_text (name literal : String) :
  s!"ALTER USER {name} PASSWORD {literal}"
    = "ALTER USER" ++ (" " ++ (name ++ (" PASSWORD " ++ literal)))
  := by
  apply String.toList_inj.mp
  simp [toString]

theorem createUser_text (name literal : String) :
  s!"CREATE USER {name} PASSWORD {literal}"
    = "CREATE USER" ++ (" " ++ (name ++ (" PASSWORD " ++ literal)))
  := by
  apply String.toList_inj.mp
  simp [toString]

theorem createGroup_text (name : String) : s!"CREATE GROUP {name}" = "CREATE GROUP" ++ (" " ++ name)
  := by
  apply String.toList_inj.mp
  simp [toString]

theorem dropGroup_text (name : String) : s!"DROP GROUP {name}" = "DROP GROUP" ++ (" " ++ name)
  := by
  apply String.toList_inj.mp
  simp [toString]

theorem addUser_text (name user : String) :
  s!"ALTER GROUP {name} ADD USER {user}"
    = "ALTER GROUP" ++ (" " ++ (name ++ (" ADD USER " ++ user)))
  := by
  apply String.toList_inj.mp
  simp [toString]

theorem removeUser_text (name user : String) :
  s!"ALTER GROUP {name} DROP USER {user}"
    = "ALTER GROUP" ++ (" " ++ (name ++ (" DROP USER " ++ user)))
  := by
  apply String.toList_inj.mp
  simp [toString]

/-- What the statement of a request does is what it asks for, or nothing where nothing is to be
done. -/
theorem done_iff {state : CatalogState} {call : Nat} {statement : MetadataStatement}
    (hrequest : request.statements generated = [sql])
    (hcreate : ∀ name password groups, request ≠ .createUser name password groups)
    (haccepts : server.Accepts session state call sql statement) :
  request.Done server.outside generated state.users
      (statement.usersAfter server.outside state.users (call + 1))
    ↔ request.Asks server.outside generated (call + 1) state.users statement
      ∨ statement.Idle state.users ∧ request.Fulfilled state.users
  := by
  obtain ⟨-, hread, hpasses⟩ := haccepts
  have hbusy : ∀ {users : KeyMap CatalogUser} {p q : Prop}, (p ↔ q) →
      ¬ statement.Idle users → (p ↔ q ∨ statement.Idle users ∧ request.Fulfilled users) := by
    intro users p q hpq hidle
    simp only [hidle, false_and, or_false]
    exact hpq
  cases request with
  | createUser name password groups => exact absurd rfl (hcreate name password groups)
  | dropUser name =>
      obtain rfl := List.singleton_inj.mp hrequest
      rw [dropUser_text] at hread
      obtain ⟨_, _, rfl⟩ := SqlParser.read_dropUser _ _ hread
      apply hbusy done_dropUser_iff
      rintro ⟨_, _, _, ⟨⟩, -⟩
  | resetUserPassword name password =>
      obtain rfl := List.singleton_inj.mp hrequest
      rw [alterUser_text] at hread
      obtain ⟨_, _, rfl⟩ := SqlParser.read_alterUser _ _ hread
      apply hbusy (done_resetUserPassword_iff hpasses)
      rintro ⟨_, _, _, ⟨⟩, -⟩
  | createGroup name =>
      obtain rfl := List.singleton_inj.mp hrequest
      rw [createGroup_text] at hread
      obtain ⟨_, rfl⟩ := SqlParser.read_createGroup _ _ hread
      apply hbusy (done_createGroup_iff hpasses)
      rintro ⟨_, _, _, ⟨⟩, -⟩
  | dropGroup name =>
      obtain rfl := List.singleton_inj.mp hrequest
      rw [dropGroup_text] at hread
      obtain ⟨_, _, rfl⟩ := SqlParser.read_dropGroup _ _ hread
      apply hbusy done_dropGroup_iff
      rintro ⟨_, _, _, ⟨⟩, -⟩
  | addGroupMember name user =>
      obtain rfl := List.singleton_inj.mp hrequest
      rw [addUser_text] at hread
      obtain ⟨_, _, rfl⟩ := SqlParser.read_alterGroup _ _ hread
      exact done_addGroupMember_iff hpasses
  | removeGroupMember name user =>
      obtain rfl := List.singleton_inj.mp hrequest
      rw [removeUser_text] at hread
      obtain ⟨_, _, rfl⟩ := SqlParser.read_alterGroup _ _ hread
      rw [done_removeGroupMember_iff hpasses, iff_self_or]
      rintro ⟨-, _, _, _, ⟨⟩, -⟩

theorem executes_congr {ε ε' α α' : Type} {w w' : World} {r : Except ε α} {r' : Except ε' α'}
    (h : server.Executes session w sql r w') (herror : (∃ e, r = .error e) → ∃ e, r' = .error e)
    (hok : (∃ a, r = .ok a) ↔ ∃ a, r' = .ok a) :
  server.Executes session w sql r' w'
  := by
  obtain ⟨hfails, hdoes⟩ := h
  refine ⟨fun hrefuses => ⟨herror (hfails hrefuses).1, (hfails hrefuses).2⟩, ?_⟩
  intro statement haccepts
  obtain ⟨husers, hdatabases, hsaved, hunsaved⟩ := hdoes statement haccepts
  refine ⟨husers, hdatabases, fun hsaves => ?_, fun hsaves => hok.mp (hunsaved hsaves)⟩
  exact ⟨(hsaved hsaves).1, hok.symm.trans (hsaved hsaves).2⟩

theorem met_mapError {ε ε' α : Type} (f : ε → ε') (o : Outside) (users : KeyMap CatalogUser)
    (r : Except ε α) (w' : World) :
  request.Met o generated users (r.mapError f) w' ↔ request.Met o generated users r w'
  := by
  cases r with
  | ok a => exact Iff.rfl
  | error e => exact Iff.rfl

section

variable (server) (user database : String) (w : World)

/-- Statements are sent up to the first that fails. -/
theorem after_sendStatements (sql : String) (statements : List String)
    (Q : Except ProxyError Unit → World → Prop) :
  After (sendStatements server.pg user database (sql :: statements)) w Q
    ↔ After (server.pg.simpleQuery user database sql) w (fun r w' => match r with
      | .ok _ => After (sendStatements server.pg user database statements) w' Q
      | .error e => Q (.error { context := s!"statement failed: {sql}", rootCause := e }) w')
  := by
  simp only [sendStatements, withContext, after_bind, after_adapt]
  rcases hexec : exec (server.pg.simpleQuery user database sql) w with ⟨r, w'⟩
  simp only [After, hexec]
  cases r with
  | ok messages => exact Iff.rfl
  | error e => exact Iff.rfl

theorem after_sendStatements_one (sql : String) :
  After (sendStatements server.pg user database [sql]) w
    (server.Executes (wireSession user database) w sql)
  := by
  rw [after_sendStatements]
  apply After.mono (server.after_simpleQuery user database sql w)
  intro r w' h
  cases r with
  | ok messages =>
      apply executes_congr h
      · rintro ⟨_, ⟨⟩⟩
      · exact ⟨fun _ => ⟨(), rfl⟩, fun _ => ⟨messages, rfl⟩⟩
  | error e =>
      apply executes_congr h
      · exact fun _ => ⟨_, rfl⟩
      · exact ⟨by rintro ⟨_, ⟨⟩⟩, by rintro ⟨_, ⟨⟩⟩⟩

end

section

variable (catalog : Except String CatalogState) (endpoint : String) (sessions : Sessions)
  (claims : SessionClaims) (w : World) (statements : List String)

/-- Statements are sent over a connection that the server takes. -/
theorem after_executeStatements (user password database : String)
    (Q : Except ProxyError Unit → World → Prop) :
  After (executeStatements server.pg endpoint user password database statements) w Q
    ↔ match server.connects user password database w.catalog with
      | .ok _ => After (sendStatements server.pg user database statements) w Q
      | .error e => Q (.error
          { context := s!"failed to connect to AnalyticsDB pg-wire at {endpoint}"
            rootCause := e }) w
  := by
  rw [executeStatements, after_bind, connect, withContext, after_adapt]
  change Resume _ Q ((server.connects user password database w.catalog).mapError _) w ↔ _
  cases server.connects user password database w.catalog with
  | ok _ => exact Iff.rfl
  | error e => exact Iff.rfl

/-- A request that is not sent fails and leaves the server alone. -/
theorem runAdminSql_unsent (h : ¬ Sent catalog server sessions claims w.catalog) :
  After (runAdminSql catalog server.pg endpoint sessions claims statements) w (fun r w' =>
    (∃ e, r = .error e) ∧ w' = w)
  := by
  cases hcatalog : catalog with
  | error message =>
      simp only [runAdminSql, adminRead, openCatalog]
      exact ⟨⟨_, rfl⟩, rfl⟩
  | ok seen =>
      cases hadmin : userIsAdmin seen claims.sub with
      | false => simp [runAdminSql, adminRead, openCatalog, hadmin]
      | true =>
          cases hpassword : sessions.passwordFor claims.sessionId with
          | none => simp [runAdminSql, adminRead, openCatalog, hadmin, requirePassword, hpassword]
          | some password =>
              cases hconnect : server.connects claims.sub password DEFAULT_DATABASE w.catalog with
              | ok _ => exact absurd ⟨⟨seen, hcatalog, hadmin⟩, password, hpassword, hconnect⟩ h
              | error message =>
                  simp [runAdminSql, adminRead, openCatalog, hadmin, requirePassword, hpassword,
                    after_adapt, after_executeStatements, hconnect, Except.mapError]

/-- One that is sent does what its statements do. -/
theorem runAdminSql_sent (h : Sent catalog server sessions claims w.catalog)
    (Q : Except GatewayError Unit → World → Prop) :
  After (runAdminSql catalog server.pg endpoint sessions claims statements) w Q
    ↔ After (sendStatements server.pg claims.sub DEFAULT_DATABASE statements) w (fun r w' =>
      Q (r.mapError (fun e => .badRequest (cleanError e.rootCause))) w')
  := by
  obtain ⟨⟨seen, rfl, hadmin⟩, password, hpassword, hconnect⟩ := h
  simp [runAdminSql, adminRead, openCatalog, hadmin, requirePassword, hpassword, after_adapt,
    after_executeStatements, hconnect]

/-- A request is met when it is not sent, or what its statements do is what it asks for. -/
theorem handle_met_iff :
  After (request.handle catalog server.pg endpoint sessions claims generated) w
      (request.Met server.outside generated w.catalog.users)
    ↔ ¬ Sent catalog server sessions claims w.catalog
      ∨ After (sendStatements server.pg claims.sub DEFAULT_DATABASE
          (request.statements generated)) w
        (request.Met server.outside generated w.catalog.users)
  := by
  obtain ⟨answer, hanswer⟩ := request.handle_eq catalog server.pg endpoint sessions claims generated
  rw [hanswer, after_bind]
  have hresume : ∀ (r : Except GatewayError Unit) (w' : World),
      Resume (fun _ => pure answer) (request.Met server.outside generated w.catalog.users) r w'
        ↔ request.Met server.outside generated w.catalog.users r w' := by
    intro r w'
    cases r with
    | ok _ => exact Iff.rfl
    | error e => exact Iff.rfl
  by_cases hsent : Sent catalog server sessions claims w.catalog
  · rw [runAdminSql_sent catalog endpoint sessions claims w _ hsent]
    simp only [hresume, met_mapError, hsent, not_true, false_or]
  · have hfails := runAdminSql_unsent catalog endpoint sessions claims w
      (request.statements generated) hsent
    simp only [hsent, not_false_iff, true_or, iff_true]
    apply After.mono hfails
    rintro _ w' ⟨⟨e, rfl⟩, rfl⟩
    rfl

end

/-! ### A user and its groups -/

section

variable {user database name : String}

/-- An administrator stays one when accounts keep their flags and groups their members. -/
theorem administers_extend {state state' : CatalogState}
    (h : Administers (wireSession user database) state)
    (hdatabases : state'.databases = state.databases)
    (husers : ∀ (account : String) (entry : CatalogUser), state.users[account]? = some entry →
      ∃ entry' : CatalogUser, state'.users[account]? = some entry' ∧ entry'.isAdmin = entry.isAdmin
        ∧ ∀ member, entry.members.contains member = true →
          entry'.members.contains member = true) :
  Administers (wireSession user database) state'
  := by
  obtain ⟨hsession, hadmin⟩ := h
  constructor
  · unfold validateSession at hsession ⊢
    cases huser : state.users[(wireSession user database).user]? with
    | none =>
        rw [huser] at hsession
        cases hsession
    | some entry =>
        obtain ⟨entry', hentry', -⟩ := husers _ entry huser
        rw [huser] at hsession
        have hrole : ¬ (wireSession user database).role ≠ (wireSession user database).user :=
          fun hne => hne rfl
        rw [hentry', hdatabases]
        simp only [hrole, if_false] at hsession ⊢
        exact hsession
  · rw [userIsAdmin, Bool.or_eq_true] at hadmin ⊢
    obtain hflag | hmember := hadmin
    · left
      cases huser : state.users[(wireSession user database).user]? with
      | none => simp [huser] at hflag
      | some entry =>
          obtain ⟨entry', hentry', hsame, -⟩ := husers _ entry huser
          simpa [huser, hentry', hsame] using hflag
    · right
      cases hgroup : state.users[ADMINISTRATORS_GROUP]? with
      | none => simp [hgroup] at hmember
      | some group =>
          obtain ⟨group', hgroup', -, hmembers⟩ := husers _ group hgroup
          rw [hgroup'] at *
          rw [hgroup] at hmember
          exact hmembers _ hmember

/-- A text that adds a user to a group, both named by identifiers, is read as it stands. -/
theorem read_addUser {group : String} (hgroup : validateIdentifier group = .ok ())
    (hname : validateIdentifier name = .ok ()) :
  server.parser.read s!"ALTER GROUP {group} ADD USER {name}"
    = some (.alterGroup group (.addUser name))
  := by
  rw [addUser_text, SqlParser.read_group _ _ "ALTER GROUP" (by simp), fallback_addUser hgroup hname]

/-- Enrolling a user in groups that are there succeeds when every statement is executed and saved,
and makes the user a member of them. -/
theorem after_enroll (hname : validateIdentifier name = .ok ()) (groups : List String) (w : World)
    (hgroups : ∀ group ∈ groups,
      validateIdentifier group = .ok () ∧ w.catalog.users.contains group = true)
    (hadmin : Administers (wireSession user database) w.catalog)
    (hexists : w.catalog.users.contains name = true) :
  After (sendStatements server.pg user database
      (groups.map (fun group => s!"ALTER GROUP {group} ADD USER {name}"))) w (fun r w' =>
    ((∃ a, r = .ok a) ↔ server.Enrolls name w.calls groups)
    ∧ ((∃ a, r = .ok a) → ∀ account : String, w'.catalog.users[account]?
      = w.catalog.users[account]?.map (fun entry =>
        if account ∈ groups then entry.enrolled name true else entry)))
  := by
  induction groups generalizing w with
  | nil =>
      refine ⟨⟨fun _ => trivial, fun _ => ⟨(), rfl⟩⟩, fun _ account => ?_⟩
      change w.catalog.users[account]? = _
      simp
  | cons group groups ih =>
      obtain ⟨hgroup, hin⟩ := hgroups group List.mem_cons_self
      rw [List.map_cons, after_sendStatements]
      apply After.mono (server.after_simpleQuery user database _ w)
      rintro r w' ⟨hfails, hdoes⟩
      by_cases haway : server.turnedAway w.calls s!"ALTER GROUP {group} ADD USER {name}" = none
      · obtain ⟨husers, hdatabases, hsaved, -⟩ := hdoes _
          ⟨haway, read_addUser hgroup hname, hadmin, hin, hexists⟩
        obtain ⟨hcalls, hok⟩ := hsaved rfl
        rw [MetadataStatement.usersAfter] at husers
        cases r with
        | error e =>
            have hsave : ¬ server.Saves w.calls (.alterGroup group (.addUser name)) := by
              intro hsave
              obtain ⟨_, ⟨⟩⟩ := hok.mpr hsave
            refine ⟨⟨by rintro ⟨_, ⟨⟩⟩, fun henrolls => absurd henrolls.2.1 hsave⟩, ?_⟩
            rintro ⟨_, ⟨⟩⟩
        | ok messages =>
            have hsave := hok.mp ⟨messages, rfl⟩
            have hadmin' : Administers (wireSession user database) w'.catalog := by
              apply administers_extend hadmin hdatabases
              intro account entry hentry
              rw [husers, KeyMap.get_modify]
              split
              · rename_i haccount
                rw [hentry]
                refine ⟨_, rfl, rfl, ?_⟩
                intro member hmember
                rw [contains_enrolled, hmember, ite_self]
              · exact ⟨entry, hentry, rfl, fun _ hmember => hmember⟩
            have hkeeps : ∀ account, w'.catalog.users.contains account
                = w.catalog.users.contains account := by
              intro account
              rw [husers, contains_modify_eq]
            apply After.mono (ih w' _ hadmin' (by rw [hkeeps, hexists]))
            · rintro r w'' ⟨hok', hentries⟩
              refine ⟨?_, ?_⟩
              · rw [hok', hcalls]
                exact ⟨fun henrolls => ⟨haway, hsave, henrolls⟩, fun henrolls => henrolls.2.2⟩
              · intro hr account
                have htwice : ∀ entry : CatalogUser, (entry.enrolled name true).enrolled name true
                    = entry.enrolled name true := by
                  intro entry
                  rw [enrolled_true_eq_iff, contains_enrolled, if_pos rfl]
                rw [hentries hr, husers, KeyMap.get_modify]
                by_cases haccount : group = account
                · subst haccount
                  simp [Option.map_map, Function.comp_def, htwice]
                · simp [haccount, Ne.symm haccount]
            · intro group' hgroup'
              rw [hkeeps]
              exact hgroups group' (List.mem_cons_of_mem _ hgroup')
      · obtain ⟨⟨e, rfl⟩, -⟩ := hfails (fun statement haccepts => haway haccepts.1)
        refine ⟨⟨by rintro ⟨_, ⟨⟩⟩, fun henrolls => absurd henrolls.1 haway⟩, ?_⟩
        rintro ⟨_, ⟨⟩⟩

/-- Statements that alter groups keep the number of accounts, and their names identifiers. -/
theorem after_alterGroups (server : Server) (user database name : String) (groups : List String)
    (w : World) :
  After (sendStatements server.pg user database
      (groups.map (fun group => s!"ALTER GROUP {group} ADD USER {name}"))) w (fun _ w' =>
    w'.catalog.users.size = w.catalog.users.size
    ∧ (NamedByIdentifiers w.catalog.users → NamedByIdentifiers w'.catalog.users))
  := by
  induction groups generalizing w with
  | nil => exact ⟨rfl, fun h => h⟩
  | cons group groups ih =>
      rw [List.map_cons, after_sendStatements]
      apply After.mono (server.after_simpleQuery user database _ w)
      rintro r w' ⟨hfails, hdoes⟩
      have hstep : w'.catalog.users.size = w.catalog.users.size
          ∧ (NamedByIdentifiers w.catalog.users → NamedByIdentifiers w'.catalog.users) := by
        by_cases hrefuses : server.Refuses (wireSession user database) w.catalog w.calls
            s!"ALTER GROUP {group} ADD USER {name}"
        · rw [(hfails hrefuses).2]
          exact ⟨rfl, fun h => h⟩
        · simp only [Server.Refuses, not_forall, not_not] at hrefuses
          obtain ⟨statement, haccepts⟩ := hrefuses
          rw [(hdoes statement haccepts).1]
          obtain ⟨-, hread, hpasses⟩ := haccepts
          rw [addUser_text] at hread
          obtain ⟨_, _, rfl⟩ := SqlParser.read_alterGroup _ _ hread
          exact ⟨MetadataStatement.usersAfter_size hpasses,
            MetadataStatement.usersAfter_named hpasses⟩
      cases r with
      | error e => exact hstep
      | ok messages =>
          apply After.mono (ih w')
          rintro _ w'' ⟨hsize, hnamed⟩
          exact ⟨hsize.trans hstep.1, fun h => hnamed (hstep.2 h)⟩

/-- Nobody is enrolled under a name that no account has. -/
theorem enroll_absent (server : Server) (user database : String) {group : String} (hgroup : validateIdentifier group = .ok ())
    (hname : validateIdentifier name = .ok ()) (groups : List String) {w : World}
    (habsent : w.catalog.users.contains name = false) :
  After (sendStatements server.pg user database
      ((group :: groups).map (fun group => s!"ALTER GROUP {group} ADD USER {name}"))) w
    (fun r _ => ∃ e, r = .error e)
  := by
  rw [List.map_cons, after_sendStatements]
  apply After.mono (server.after_simpleQuery user database _ w)
  rintro r w' ⟨hfails, -⟩
  have hrefuses : server.Refuses (wireSession user database) w.catalog w.calls
      s!"ALTER GROUP {group} ADD USER {name}" := by
    rintro statement ⟨-, hread, hpasses⟩
    rw [read_addUser hgroup hname] at hread
    cases hread
    rw [hpasses.2.2] at habsent
    cases habsent
  obtain ⟨⟨e, rfl⟩, -⟩ := hfails hrefuses
  exact ⟨_, rfl⟩

end

section

variable {user database name password : String} {groups : List String} {w w₀ : World}
  {credentials : Credentials} {now : Nat}

/-- A user that was just created in the users that were there. -/
structure Created (w w₀ : World) (name : String) (credentials : Option Credentials) (now : Nat) :
    Prop where
  absent : w.catalog.users.contains name = false
  users_eq : w₀.catalog.users
    = w.catalog.users.insert name (CatalogUser.new name false credentials (some now))
  databases_eq : w₀.catalog.databases = w.catalog.databases

theorem Created.get_other {credentials : Option Credentials} (h : Created w w₀ name credentials now)
    {account : String} {entry : CatalogUser} (hentry : w.catalog.users[account]? = some entry) :
  w₀.catalog.users[account]? = some entry
  := by
  rw [h.users_eq, KeyMap.get_insert, if_neg]
  · exact hentry
  · rintro rfl
    rw [KeyMap.get_eq_none _ h.absent] at hentry
    cases hentry

theorem Created.administers {credentials : Option Credentials}
    (h : Created w w₀ name credentials now)
    (hadmin : Administers (wireSession user database) w.catalog) :
  Administers (wireSession user database) w₀.catalog
  := by
  apply administers_extend hadmin h.databases_eq
  intro account entry hentry
  exact ⟨entry, h.get_other hentry, rfl, fun _ hmember => hmember⟩

theorem Created.contains {credentials : Option Credentials} (h : Created w w₀ name credentials now)
    {account : String} (haccount : account = name ∨ w.catalog.users.contains account = true) :
  w₀.catalog.users.contains account = true
  := by
  rw [h.users_eq]
  exact (contains_insert_iff _ _ _ _).mpr (haccount.imp_left Eq.symm)

/-- The user is enrolled in its groups when every statement is executed and saved, and these are
the only ones it is in. -/
theorem Created.enrolled (server : Server) {credentials : Option Credentials}
    (h : Created w w₀ name credentials now)
    (hnamed : NamedByIdentifiers w.catalog.users) (hname : validateIdentifier name = .ok ())
    (hadmin : Administers (wireSession user database) w.catalog)
    (hgroups : ∀ group ∈ groups, group = name ∨ w.catalog.users.contains group = true) :
  After (sendStatements server.pg user database
      (groups.map (fun group => s!"ALTER GROUP {group} ADD USER {name}"))) w₀ (fun r w' =>
    ((∃ a, r = .ok a) ↔ server.Enrolls name w₀.calls groups)
    ∧ ((∃ a, r = .ok a) → ∀ account : String, w'.catalog.users[account]?
      = w₀.catalog.users[account]?.map (fun entry =>
        if account ∈ groups then entry.enrolled name true else entry)))
  := by
  apply after_enroll hname groups w₀ _ (h.administers hadmin) (h.contains (.inl rfl))
  intro group hgroup
  refine ⟨?_, h.contains (hgroups group hgroup)⟩
  obtain rfl | hin := hgroups group hgroup
  · exact hname
  · exact hnamed group hin

/-- Enrolled in its groups, the user is in them alone just when no other has a member of its
name. -/
theorem Created.exact_iff (h : Created w w₀ name (some credentials) now)
    {users' : KeyMap CatalogUser}
    (husers' : ∀ account : String, users'[account]? = w₀.catalog.users[account]?.map (fun entry =>
      if account ∈ groups then entry.enrolled name true else entry)) :
  (∀ account : String, users'[account]? = (w.catalog.users.insert name
      (CatalogUser.new name false (some credentials) (some now)))[account]?.map
        (CatalogUser.enrolled name (groups.contains account)))
    ↔ NoOtherGroup w.catalog.users name groups
  := by
  constructor
  · intro hexact account group hgroup haccount
    have hsame := (husers' account).symm.trans (hexact account)
    rw [← h.users_eq, h.get_other hgroup] at hsame
    simp only [Option.map_some, haccount, if_false, Option.some.injEq,
      List.contains_eq_mem, decide_false] at hsame
    exact (enrolled_false_eq_iff name group).mp hsame.symm
  · intro hnone account
    rw [husers', ← h.users_eq]
    cases hentry : w₀.catalog.users[account]? with
    | none => rfl
    | some entry =>
        by_cases haccount : account ∈ groups
        · simp [haccount]
        · have hmember : entry.members.contains name = false := by
            rw [h.users_eq, KeyMap.get_insert] at hentry
            split at hentry
            · cases hentry
              simp [CatalogUser.new]
            · exact hnone account entry hentry haccount
          simp [haccount, (enrolled_false_eq_iff name entry).mpr hmember]

end

section

variable {user database name password : String} {groups : List String} {w : World}

/-- A new account tells the credentials and the time it was made with, whatever its members. -/
theorem new_inj {credentials : Option Credentials} {made : Credentials} {now now' : Nat}
    {members members' : NameSet}
    (h : { CatalogUser.new name false credentials (some now) with members := members }
      = { CatalogUser.new name false (some made) (some now') with members := members' }) :
  credentials = some made ∧ now = now'
  := by
  have hpassword := congrArg CatalogUser.password h
  have hsalt := congrArg CatalogUser.scramSaltB64 h
  have hsalted := congrArg CatalogUser.scramSaltedPasswordB64 h
  have hnow := congrArg CatalogUser.passwordRotatedAtEpochMs h
  cases credentials with
  | none => cases hpassword
  | some credentials =>
      cases credentials
      cases made
      simp only [CatalogUser.new, Option.map_some, Option.some.injEq] at hpassword hsalt hsalted hnow
      exact ⟨by rw [hpassword, hsalt, hsalted], hnow⟩

/-- What is left of creating a user once its first statement was executed and saved. -/
theorem created_met_iff (server : Server) (generated name password : String)
    (groups : List String) {w₀ : World} {credentials : Option Credentials} {text : String}
    {now : Nat} (hnamed : NamedByIdentifiers w.catalog.users) (htext : validateIdentifier text = .ok ())
    (hadmin : Administers (wireSession user database) w.catalog)
    (hcreated : Created w w₀ text credentials now) :
  After (sendStatements server.pg user database
      (groups.map (fun group => s!"ALTER GROUP {group} ADD USER {name}"))) w₀
      ((createUser name password groups).Met server.outside generated w.catalog.users)
    ↔ text = name ∧ (∃ made, credentials = some made ∧ CredentialsOf server.outside password made)
      ∧ (∀ group ∈ groups, group = name ∨ w.catalog.users.contains group = true)
      ∧ NoOtherGroup w.catalog.users name groups ∧ server.Enrolls name w₀.calls groups
  := by
  constructor
  · intro hmet
    have hnamed₀ : NamedByIdentifiers w₀.catalog.users := by
      intro account haccount
      rw [hcreated.users_eq] at haccount
      obtain rfl | haccount := (contains_insert_iff _ _ _ _).mp haccount
      · exact htext
      · exact hnamed account haccount
    have hloop := after_alterGroups server user database name groups w₀
    rcases hexec : exec (sendStatements server.pg user database
      (groups.map (fun group => s!"ALTER GROUP {group} ADD USER {name}"))) w₀ with ⟨r, w'⟩
    simp only [After, hexec] at hmet hloop
    obtain ⟨hsize, hnamed'⟩ := hloop
    cases r with
    | error e =>
        -- an account more is an account that was not there
        have hne : ¬ w.catalog.users.contains text = true := by simp [hcreated.absent]
        have husers : w'.catalog.users = w.catalog.users := hmet
        rw [husers, hcreated.users_eq, Std.ExtTreeMap.size_insert, if_neg hne] at hsize
        omega
    | ok _ =>
        obtain ⟨habsent, hgroups, made, now', hmade, hexact⟩ := hmet
        have hname : validateIdentifier name = .ok () := by
          apply hnamed' hnamed₀ name
          rw [Std.ExtTreeMap.contains_eq_isSome_getElem?, hexact, KeyMap.get_insert, if_pos rfl]
          rfl
        have htextname : text = name := by
          cases groups with
          | nil =>
              have hw : w' = w₀ := (congrArg Prod.snd hexec).symm
              have hin := congrArg Option.isSome (hexact name)
              rw [hw, ← Std.ExtTreeMap.contains_eq_isSome_getElem?, KeyMap.get_insert, if_pos rfl,
                hcreated.users_eq] at hin
              obtain hsame | hin := (contains_insert_iff _ _ _ _).mp hin
              · exact hsame
              · rw [habsent] at hin
                cases hin
          | cons group groups =>
              by_contra hne
              have habsent₀ : w₀.catalog.users.contains name = false := by
                rw [← Bool.not_eq_true, hcreated.users_eq, contains_insert_iff, habsent]
                simp [hne]
              have hgroup : validateIdentifier group = .ok () := by
                obtain rfl | hin := hgroups group List.mem_cons_self
                · exact hname
                · exact hnamed group hin
              have hfails := enroll_absent server user database hgroup hname groups habsent₀
              rw [After, hexec] at hfails
              obtain ⟨_, ⟨⟩⟩ := hfails
        subst htextname
        have henrolled := hcreated.enrolled server hnamed htext hadmin hgroups
        rw [After, hexec] at henrolled
        obtain ⟨hok, hentries⟩ := henrolled
        have hentry := (hentries ⟨_, rfl⟩ text).symm.trans (hexact text)
        rw [hcreated.users_eq, KeyMap.get_insert, KeyMap.get_insert, if_pos rfl, if_pos rfl,
          Option.map_some, Option.map_some, Option.some.injEq] at hentry
        obtain ⟨rfl, rfl⟩ : credentials = some made ∧ now = now' := by
          split at hentry
          · exact new_inj hentry
          · exact new_inj hentry
        exact ⟨rfl, ⟨made, rfl, hmade⟩, hgroups, (hcreated.exact_iff (hentries ⟨_, rfl⟩)).mp hexact,
          hok.mp ⟨_, rfl⟩⟩
  · rintro ⟨rfl, ⟨made, rfl, hmade⟩, hgroups, hnone, henrolls⟩
    apply After.mono (hcreated.enrolled server hnamed htext hadmin hgroups)
    rintro r w' ⟨hok, hentries⟩
    obtain ⟨_, rfl⟩ := hok.mpr henrolls
    exact ⟨hcreated.absent, hgroups, made, now, hmade,
      (hcreated.exact_iff (hentries ⟨_, rfl⟩)).mpr hnone⟩

theorem create_met_iff (server : Server) (user database generated name password : String)
    (groups : List String) (hnamed : NamedByIdentifiers w.catalog.users) :
  After (sendStatements server.pg user database (createUserStatements name password groups)) w
      ((createUser name password groups).Met server.outside generated w.catalog.users)
    ↔ HoldsForCreate server (wireSession user database) w.catalog w.calls generated name password
      groups
  := by
  rw [createUserStatements, after_sendStatements]
  have hfirst := server.after_simpleQuery user database
    s!"CREATE USER {name} PASSWORD {sqlLiteral password}" w
  rcases hexec : exec (server.pg.simpleQuery user database
    s!"CREATE USER {name} PASSWORD {sqlLiteral password}") w with ⟨r, w₀⟩
  simp only [After, hexec] at hfirst ⊢
  obtain ⟨hfails, hdoes⟩ := hfirst
  by_cases hrefuses : server.Refuses (wireSession user database) w.catalog w.calls
      s!"CREATE USER {name} PASSWORD {sqlLiteral password}"
  · obtain ⟨⟨e, rfl⟩, husers⟩ := hfails hrefuses
    exact ⟨fun _ => .inl hrefuses, fun _ => husers⟩
  · simp only [Server.Refuses, not_forall, not_not] at hrefuses
    obtain ⟨statement, haccepts⟩ := hrefuses
    obtain ⟨husers, hdatabases, hsaved, -⟩ := hdoes statement haccepts
    have hread := haccepts.2.1
    rw [createUser_text] at hread
    obtain ⟨text, read, rfl⟩ := SqlParser.read_createUser _ _ hread
    obtain ⟨htext, hcredentials, hadmin, habsent⟩ := haccepts.2.2
    obtain ⟨hcalls, hok⟩ := hsaved rfl
    have hholds : HoldsForCreate server (wireSession user database) w.catalog w.calls generated name
          password groups
        ↔ (createUser name password groups).Asks server.outside generated (w.calls + 1)
            w.catalog.users (.createUser text read)
          ∧ server.Saves w.calls (.createUser text read)
          ∧ (∀ group ∈ groups, group = name ∨ w.catalog.users.contains group = true)
          ∧ NoOtherGroup w.catalog.users name groups
          ∧ server.Enrolls name (server.callAfter w.calls (.createUser text read)) groups := by
      constructor
      · rintro (hrefuses | ⟨statement, haccepts', hone⟩)
        · exact absurd haccepts (hrefuses _)
        · rw [accepts_unique haccepts haccepts']
          exact hone
      · exact fun hone => .inr ⟨_, haccepts, hone⟩
    rw [hholds]
    cases r with
    | error e =>
        have hsave : ¬ server.Saves w.calls (.createUser text read) := by
          intro hsave
          obtain ⟨_, ⟨⟩⟩ := hok.mpr hsave
        have hne : w₀.catalog.users ≠ w.catalog.users := by
          rw [husers]
          cases read with
          | none => exact insert_ne _ habsent
          | some read => exact insert_ne _ habsent
        exact ⟨fun hmet => absurd hmet hne, fun hone => absurd hone.2.1 hsave⟩
    | ok messages =>
        have hsave := hok.mp ⟨messages, rfl⟩
        cases read with
        | none =>
            have hcreated : Created w w₀ text none (server.outside.now (w.calls + 1)) :=
              ⟨habsent, husers, hdatabases⟩
            have hmet := created_met_iff server generated name password groups hnamed htext hadmin
              hcreated
            rw [← hcalls]
            refine hmet.trans ⟨?_, ?_⟩
            · rintro ⟨-, ⟨_, ⟨⟩, -⟩, -⟩
            · rintro ⟨⟨_, _, ⟨⟩, -⟩, -⟩
        | some read =>
            obtain ⟨credentials, hread'⟩ := hcredentials read rfl
            have hcreated : Created w w₀ text (some credentials)
                (server.outside.now (w.calls + 1 + 2)) := by
              refine ⟨habsent, ?_, hdatabases⟩
              rw [husers, MetadataStatement.usersAfter, hread']
              rfl
            have hmet := created_met_iff server generated name password groups hnamed htext hadmin
              hcreated
            rw [← hcalls]
            refine hmet.trans ⟨?_, ?_⟩
            · rintro ⟨rfl, ⟨_, ⟨⟩, hmade⟩, hgroups, hnone, henrolls⟩
              exact ⟨⟨read, credentials, rfl, hread', hmade⟩, hsave, hgroups, hnone, henrolls⟩
            · rintro ⟨⟨_, credentials', ⟨⟩, hread'', hmade⟩, -, hgroups, hnone, henrolls⟩
              rw [hread'] at hread''
              cases hread''
              exact ⟨rfl, ⟨credentials, rfl, hmade⟩, hgroups, hnone, henrolls⟩

/-- A request of one statement is met just when it holds of the statement. -/
theorem one_met_iff (server : Server) (user database : String)
    (hrequest : request.statements generated = [sql])
    (hcreate : ∀ name password groups, request ≠ .createUser name password groups) :
  After (sendStatements server.pg user database (request.statements generated)) w
      (request.Met server.outside generated w.catalog.users)
    ↔ ∀ sql ∈ request.statements generated,
      request.HoldsForOne server (wireSession user database) w.catalog w.calls generated sql
  := by
  rw [hrequest, List.forall_mem_singleton]
  have hone := after_sendStatements_one server user database w sql
  rcases hexec : exec (sendStatements server.pg user database [sql]) w with ⟨r, w'⟩
  rw [After, hexec] at hone ⊢
  exact met_one_iff hone (fun _ haccepts => done_iff hrequest hcreate haccepts)

end

/-- A request to change users or groups is met just when it is not sent to the server, or the
server refuses its first statement, or executes what is asked for and saves it. -/
theorem met_iff_holds (request : AdminRequest) (server : Server)
    (catalog : Except String CatalogState) (endpoint : String) (sessions : Sessions)
    (claims : SessionClaims) (generated : String) (w : World)
    (hnamed : NamedByIdentifiers w.catalog.users) :
  After (request.handle catalog server.pg endpoint sessions claims generated) w
      (request.Met server.outside generated w.catalog.users)
    ↔ ¬ Sent catalog server sessions claims w.catalog
      ∨ request.Holds server (wireSession claims.sub DEFAULT_DATABASE) w.catalog w.calls generated
  := by
  rw [handle_met_iff]
  apply or_congr_right
  cases request with
  | createUser name password groups => exact create_met_iff server _ _ _ _ _ _ hnamed
  | dropUser name => exact one_met_iff server _ _ rfl (by rintro _ _ _ ⟨⟩)
  | resetUserPassword name password => exact one_met_iff server _ _ rfl (by rintro _ _ _ ⟨⟩)
  | createGroup name => exact one_met_iff server _ _ rfl (by rintro _ _ _ ⟨⟩)
  | dropGroup name => exact one_met_iff server _ _ rfl (by rintro _ _ _ ⟨⟩)
  | addGroupMember name user => exact one_met_iff server _ _ rfl (by rintro _ _ _ ⟨⟩)
  | removeGroupMember name user => exact one_met_iff server _ _ rfl (by rintro _ _ _ ⟨⟩)

/-! ### Names that are identifiers -/

/-- The statements a request asks for. -/
def asked (generated : String) : AdminRequest → List MetadataStatement
  | .createUser name password groups =>
    .createUser name (some password) :: groups.map (fun group => .alterGroup group (.addUser name))
  | .dropUser name => [.dropUser name false]
  | .resetUserPassword name password =>
    [.alterUserPassword name (newPassword generated password)]
  | .createGroup name => [.createGroup name]
  | .dropGroup name => [.dropGroup name false]
  | .addGroupMember name user => [.alterGroup name (.addUser user)]
  | .removeGroupMember name user => [.alterGroup name (.dropUser user)]

/-- The names of a request. -/
def names : AdminRequest → List String
  | .createUser name _ groups => name :: groups
  | .dropUser name | .resetUserPassword name _ | .createGroup name | .dropGroup name => [name]
  | .addGroupMember name user | .removeGroupMember name user => [name, user]

/-- A request whose names are identifiers is read as it asks, whatever its password, by a parser
that leaves its statements as they are. -/
theorem read_statements (request : AdminRequest) (generated : String) (parser : SqlParser)
    (hnames : ∀ name ∈ request.names, validateIdentifier name = .ok ())
    (hparser : ∀ sql ∈ request.statements generated,
      parser.reprint sql = none ∧ parser.dropped sql = none) :
  (request.statements generated).map parser.read = (request.asked generated).map some
  := by
  have hread : ∀ sql ∈ request.statements generated,
      parser.read sql = parseMetadataStatementFallback sql := by
    intro sql hsql
    rw [SqlParser.read, (hparser sql hsql).1, Option.getD_none, SqlParser.parseMetadataStatement,
      (hparser sql hsql).2]
  rw [List.map_congr_left hread]
  cases request with
  | createUser name password groups =>
      have hname := hnames name List.mem_cons_self
      have hgroups : groups.map (parseMetadataStatementFallback ∘ fun group =>
            s!"ALTER GROUP {group} ADD USER {name}")
          = groups.map (some ∘ fun group => MetadataStatement.alterGroup group (.addUser name)) := by
        apply List.map_congr_left
        intro group hgroup
        rw [Function.comp_apply, addUser_text,
          fallback_addUser (hnames group (List.mem_cons_of_mem _ hgroup)) hname]
        rfl
      simp only [statements, createUserStatements, asked, List.map_cons, List.map_map]
      rw [createUser_text, fallback_createUser hname (isVerb_sqlLiteral password)
        (parse_sqlLiteral password), hgroups]
  | dropUser name =>
      simp only [statements, asked, List.map_cons, List.map_nil]
      rw [dropUser_text, fallback_dropUser (hnames name (by simp [names]))]
  | resetUserPassword name password =>
      simp only [statements, asked, List.map_cons, List.map_nil]
      rw [alterUser_text, fallback_alterUser (hnames name (by simp [names])) (isVerb_sqlLiteral _)
        (parse_sqlLiteral _)]
  | createGroup name =>
      simp only [statements, asked, List.map_cons, List.map_nil]
      rw [createGroup_text, fallback_createGroup (hnames name (by simp [names]))]
  | dropGroup name =>
      simp only [statements, asked, List.map_cons, List.map_nil]
      rw [dropGroup_text, fallback_dropGroup (hnames name (by simp [names]))]
  | addGroupMember name user =>
      simp only [statements, asked, List.map_cons, List.map_nil]
      rw [addUser_text, fallback_addUser (hnames name (by simp [names]))
        (hnames user (by simp [names]))]
  | removeGroupMember name user =>
      simp only [statements, asked, List.map_cons, List.map_nil]
      rw [removeUser_text, fallback_removeUser (hnames name (by simp [names]))
        (hnames user (by simp [names]))]

end AdminRequest

/-! ### A request that is left half done -/

/-- A server with a parser that knows no statement on accounts, and that turns nobody away. -/
def sampleServer : Server :=
  { outside := Outside.faultless
    parser := SqlParser.foreign
    connects := fun _ _ _ _ => .ok ()
    turnedAway := fun _ _ => none
    unread := fun _ => "Unsupported statement" }

/-- The administrator has signed in. -/
def loggedIn : Sessions := (login sampleEnv Sessions.initial "admin" "secret").1

/-- A request of the administrator to the server of a first install. -/
@[irreducible] def AdminRequest.sample (request : AdminRequest) : Eff World GatewayError AdminAnswer :=
  request.handle sampleEnv.catalog sampleServer.pg sampleEnv.pgEndpoint loggedIn (sampleToken 0)
    "generated"

/-- The accounts of a first install are named by identifiers. -/
theorem bootstrap_named : NamedByIdentifiers World.bootstrap.catalog.users
  := reachable_named (o := Outside.faultless)
    (.start ⟨fun _ => ⟨"", "", ""⟩, fun _ => 0, .inl rfl⟩)

/-- A group is created as the administrator asks for it. -/
theorem createGroup_met :
  After (AdminRequest.createGroup "staff").sample World.bootstrap
    ((AdminRequest.createGroup "staff").Met sampleServer.outside "generated"
      World.bootstrap.catalog.users)
  := by
  rw [AdminRequest.sample]
  apply (AdminRequest.met_iff_holds _ _ _ _ _ _ _ _ bootstrap_named).mpr
  refine .inr ?_
  intro sql hsql
  obtain rfl : sql = "CREATE GROUP staff" := List.mem_singleton.mp hsql
  have hread : SqlParser.foreign.read "CREATE GROUP staff" = some (.createGroup "staff") := by
    rfl
  refine .inr ⟨.createGroup "staff", ⟨rfl, hread, ?_⟩, .inl ⟨rfl, rfl⟩⟩
  refine ⟨by decide, ⟨?_, ?_⟩, ?_⟩
  · rfl
  · rfl
  · decide

/-- A user is created although the request fails, as there is no group of the name it is to be in.
-/
theorem createUser_not_met :
  ¬ After (AdminRequest.createUser "alice" "pw" ["nosuch"]).sample World.bootstrap
    ((AdminRequest.createUser "alice" "pw" ["nosuch"]).Met sampleServer.outside "generated"
      World.bootstrap.catalog.users)
  := by
  have hcreated : (exec (AdminRequest.createUser "alice" "pw" ["nosuch"]).sample
      World.bootstrap).2.catalog.users.contains "alice" = true := by
    decide +kernel
  have hfailed : (exec (AdminRequest.createUser "alice" "pw" ["nosuch"]).sample
      World.bootstrap).1.toOption.isNone = true := by
    decide +kernel
  intro hmet
  rw [After] at hmet
  rcases hexec : exec (AdminRequest.createUser "alice" "pw" ["nosuch"]).sample World.bootstrap
    with ⟨r, w'⟩
  rw [hexec] at hmet hcreated hfailed
  cases r with
  | ok answer => cases hfailed
  | error e =>
      have husers : w'.catalog.users = World.bootstrap.catalog.users := hmet
      rw [husers] at hcreated
      exact absurd hcreated (by decide)

/-- Not every request is met. -/
theorem not_met :
  ¬ ∀ (request : AdminRequest) (server : Server) (catalog : Except String CatalogState)
    (endpoint : String) (sessions : Sessions) (claims : SessionClaims) (generated : String)
    (w : World), NamedByIdentifiers w.catalog.users →
    After (request.handle catalog server.pg endpoint sessions claims generated) w
      (request.Met server.outside generated w.catalog.users)
  := by
  intro hall
  have hsample : ∀ (request : AdminRequest) (w : World), NamedByIdentifiers w.catalog.users →
      After request.sample w
        (request.Met sampleServer.outside "generated" w.catalog.users) := by
    intro request w hnamed
    rw [AdminRequest.sample]
    exact hall request sampleServer _ _ _ _ _ w hnamed
  exact createUser_not_met (hsample _ _ bootstrap_named)

end Gateway
