import AnalyticsDB.Control.Namespace

/-!
# Built-in accounts and fresh accounts

Two properties of whole runs of operations.  The internal user `postgres`, the database
`postgres` and its schema `public` survive as long as nobody renames them or drops the user as a
group.  An account that is created has no privileges as long as nobody was dropped or renamed
while a group listed them.
-/

open Eff

/-- The session of an administrative action of `actor`. -/
def adminSession (actor : String) : SessionContext :=
  { user := actor, role := actor, database := "postgres", schema := "public" }

/-- An account that exists and has administrator privileges. -/
def IsAdministrator (state : CatalogState) (actor : String) : Prop :=
  state.users.contains actor = true ∧ userIsAdmin state actor = true

/-- The built-in account and namespace are there. -/
structure CatalogState.Protected (state : CatalogState) : Prop where
  postgres_admin : ∃ user : CatalogUser, state.users["postgres"]? = some user ∧ user.isAdmin = true
  postgres_public : ∃ database : CatalogDatabase, state.databases["postgres"]? = some database
    ∧ database.schemas.contains "public" = true

/-- An operation neither renames the built-in account or namespace nor drops the account as a
group. -/
def ControlOp.Spares (session : SessionContext) : ControlOp → Prop
  | .alterDatabase name (.rename _) => name ≠ "postgres"
  | .renameSchema database name _ =>
    ¬ (database.getD session.database = "postgres" ∧ name = "public")
  | .alterGroup name (.rename _) => name ≠ "postgres"
  | .dropGroup name _ => name ≠ "postgres"
  | _ => True

/-- In a catalogue with the built-in namespace the session of every account is valid. -/
theorem CatalogState.Protected.adminSession_valid {state : CatalogState} (h : state.Protected)
    {actor : String} (hactor : state.users.contains actor = true) :
  validateSession state (adminSession actor) = .ok ()
  := by
  obtain ⟨database, hdatabase, hpublic⟩ := h.postgres_public
  rw [Std.ExtTreeMap.contains_eq_isSome_getElem?] at hactor
  obtain ⟨user, huser⟩ := Option.isSome_iff_exists.mp hactor
  unfold validateSession adminSession
  simp only [huser, hdatabase, hpublic, ne_eq, not_true, if_false]
  rfl

section

variable {session : SessionContext} {state state' : CatalogState} {op : ControlOp}

/-- A user that exists is not created again. -/
theorem ne_of_contains_eq_false {users : KeyMap CatalogUser} {name : String} {user : CatalogUser}
    {key : String} (hnew : users.contains name = false) (huser : users[key]? = some user) :
  name ≠ key
  := by
  rintro rfl
  rw [KeyMap.get_eq_none users hnew] at huser
  cases huser

/-- Changing an account in a way that keeps its flag keeps the internal user. -/
theorem postgres_admin_insert {users : KeyMap CatalogUser} {name : String}
    {group edited : CatalogUser} (hgroup : users[name]? = some group)
    (hadmin : edited.isAdmin = group.isAdmin)
    (h : ∃ user : CatalogUser, users["postgres"]? = some user ∧ user.isAdmin = true) :
  ∃ user : CatalogUser, (users.insert name edited)["postgres"]? = some user ∧ user.isAdmin = true
  := by
  obtain ⟨user, huser, hflag⟩ := h
  rw [KeyMap.get_insert]
  by_cases hname : name = "postgres"
  · subst hname
    rw [huser] at hgroup
    cases hgroup
    exact ⟨edited, if_pos rfl, hadmin.trans hflag⟩
  · exact ⟨user, (if_neg hname).trans huser, hflag⟩

theorem postgres_admin_modify {users : KeyMap CatalogUser} (name : String)
    {f : CatalogUser → CatalogUser} (hf : ∀ user, (f user).isAdmin = user.isAdmin)
    (h : ∃ user : CatalogUser, users["postgres"]? = some user ∧ user.isAdmin = true) :
  ∃ user : CatalogUser, (users.modify name f)["postgres"]? = some user ∧ user.isAdmin = true
  := by
  obtain ⟨user, huser, hflag⟩ := h
  rw [KeyMap.get_modify, huser]
  by_cases hname : name = "postgres"
  · exact ⟨f user, if_pos hname, (hf user).trans hflag⟩
  · exact ⟨user, if_neg hname, hflag⟩

/-- No effect of an operation that spares it removes the internal user. -/
theorem ControlOp.Effect.postgres_admin (h : op.Effect session state state')
    (hspares : op.Spares session)
    (hold : ∃ user : CatalogUser, state.users["postgres"]? = some user ∧ user.isAdmin = true) :
  ∃ user : CatalogUser, state'.users["postgres"]? = some user ∧ user.isAdmin = true
  := by
  cases hop : op.onAccounts with
  | false =>
      rw [h.rest.users_eq hop]
      exact hold
  | true =>
      cases op with
      | createUser name password =>
          obtain ⟨_, _, -, hnew, rfl⟩ := h
          obtain ⟨user, huser, hadmin⟩ := hold
          refine ⟨user, ?_, hadmin⟩
          rw [KeyMap.get_insert, if_neg (ne_of_contains_eq_false hnew huser), huser]
      | createGroup name =>
          obtain ⟨-, hnew, rfl⟩ := h
          obtain ⟨user, huser, hadmin⟩ := hold
          refine ⟨user, ?_, hadmin⟩
          rw [KeyMap.get_insert, if_neg (ne_of_contains_eq_false hnew huser), huser]
      | rotateUserPassword userName password =>
          obtain ⟨credentials, now, rfl⟩ := h
          exact postgres_admin_modify userName (fun _ => rfl) hold
      | resetAdminPassword user password =>
          obtain ⟨credentials, now, rfl⟩ := h
          exact postgres_admin_modify PRIMARY_ADMIN_USER (fun _ => rfl) hold
      | dropUser name ifExists =>
          obtain ⟨hpostgres, -, -, rfl⟩ := h
          rw [KeyMap.get_erase, if_neg hpostgres]
          exact hold
      | dropGroup name ifExists =>
          obtain ⟨_, -, -, rfl⟩ := h
          rw [KeyMap.get_erase, if_neg hspares]
          exact hold
      | alterGroup name operation =>
          cases operation with
          | addUser userName =>
              obtain ⟨group, hgroup, -, rfl⟩ := h
              exact postgres_admin_insert hgroup rfl hold
          | dropUser userName =>
              obtain ⟨group, hgroup, -, rfl⟩ := h
              exact postgres_admin_insert hgroup rfl hold
          | rename newName =>
              obtain ⟨group, -, -, hnew, rfl⟩ := h
              obtain ⟨user, huser, hadmin⟩ := hold
              refine ⟨user, ?_, hadmin⟩
              rw [KeyMap.get_insert, if_neg (ne_of_contains_eq_false hnew huser), KeyMap.get_erase,
                if_neg hspares, huser]
      | _ => cases hop

/-- Changing the databases in a way that keeps the schemas `public` keeps the namespace. -/
theorem postgres_public_modify {databases : KeyMap CatalogDatabase} {name : String}
    {f : CatalogDatabase → CatalogDatabase}
    (hf : name = "postgres" → ∀ d : CatalogDatabase, d.schemas.contains "public" = true →
      (f d).schemas.contains "public" = true)
    (h : ∃ database : CatalogDatabase, databases["postgres"]? = some database
      ∧ database.schemas.contains "public" = true) :
  ∃ database : CatalogDatabase, (databases.modify name f)["postgres"]? = some database
    ∧ database.schemas.contains "public" = true
  := by
  obtain ⟨database, hdatabase, hpublic⟩ := h
  rw [KeyMap.get_modify, hdatabase]
  by_cases hname : name = "postgres"
  · exact ⟨f database, if_pos hname, hf hname database hpublic⟩
  · exact ⟨database, if_neg hname, hpublic⟩

/-- No effect of an operation that spares it removes the namespace. -/
theorem ControlOp.Effect.postgres_public (h : op.Effect session state state')
    (hspares : op.Spares session)
    (hold : ∃ database : CatalogDatabase, state.databases["postgres"]? = some database
      ∧ database.schemas.contains "public" = true) :
  ∃ database : CatalogDatabase, state'.databases["postgres"]? = some database
    ∧ database.schemas.contains "public" = true
  := by
  cases hop : op.onDatabases with
  | false =>
      rw [h.rest.databases_eq hop]
      exact hold
  | true =>
      cases op with
      | createDatabase name =>
          obtain ⟨-, hnew, rfl⟩ := h
          obtain ⟨database, hdatabase, hpublic⟩ := hold
          refine ⟨database, ?_, hpublic⟩
          rw [KeyMap.get_insert, if_neg, hdatabase]
          rintro rfl
          rw [KeyMap.get_eq_none _ hnew] at hdatabase
          cases hdatabase
      | alterDatabase name operation =>
          cases operation with
          | rename newName => cases h
          | ownerTo newOwner =>
              cases h
              exact postgres_public_modify (fun _ _ hd => hd) hold
          | setParam parameter value =>
              cases h
              exact postgres_public_modify (fun _ _ hd => hd) hold
      | dropDatabase name ifExists =>
          obtain ⟨-, hpostgres, rfl⟩ := h
          rw [KeyMap.get_erase, if_neg hpostgres]
          exact hold
      | createSchema database schemaName =>
          obtain ⟨-, rfl⟩ := h
          refine postgres_public_modify ?_ hold
          intro _ d hd
          simp [Std.ExtTreeSet.contains_insert, hd]
      | renameSchema database name newName =>
          obtain ⟨_, -, -, -, -, rfl⟩ := h
          refine postgres_public_modify ?_ hold
          intro hpostgres d hd
          have hname : name ≠ "public" := fun hname => hspares ⟨hpostgres, hname⟩
          simp [Std.ExtTreeSet.contains_insert, Std.ExtTreeSet.contains_erase, hd, hname]
      | dropSchema database name ifExists cascade =>
          obtain ⟨-, hname, rfl⟩ := h
          refine postgres_public_modify ?_ hold
          intro _ d hd
          simp [Std.ExtTreeSet.contains_erase, hd, hname]
      | _ => cases hop

/-- Renaming another database keeps the namespace. -/
theorem RenamesDatabase.postgres_public {name newName : String}
    (h : RenamesDatabase state name newName state') (hname : name ≠ "postgres")
    (hold : ∃ database : CatalogDatabase, state.databases["postgres"]? = some database
      ∧ database.schemas.contains "public" = true) :
  ∃ database : CatalogDatabase, state'.databases["postgres"]? = some database
    ∧ database.schemas.contains "public" = true
  := by
  obtain ⟨_, -, -, -, hnew, rfl⟩ := h
  obtain ⟨database, hdatabase, hpublic⟩ := hold
  have hnewName : newName ≠ "postgres" := by
    rintro rfl
    rw [KeyMap.get_eq_none _ hnew] at hdatabase
    cases hdatabase
  refine ⟨database, ?_, hpublic⟩
  rw [renameDatabaseState, KeyMap.get_insert, if_neg hnewName, KeyMap.get_erase, if_neg hname,
    hdatabase]

/-- An operation that spares the built-in account and namespace keeps them. -/
theorem performOp_protected (o : Outside) (session : SessionContext) (op : ControlOp) (w : World)
    (hspares : op.Spares session) (h : w.catalog.Protected) :
  After (performOp o session op) w (fun _ w' => w'.catalog.Protected)
  := by
  apply performOp_keeps o session op w h
  · intro state hstate
    exact ⟨hstate.postgres_admin, hstate.postgres_public⟩
  · intro state heffect
    exact ⟨heffect.postgres_admin hspares h.postgres_admin,
      heffect.postgres_public hspares h.postgres_public⟩
  · intro state hquiet
    constructor
    · rw [hquiet.rest.2]
      exact h.postgres_admin
    · cases hop : op.onDatabases with
      | false =>
          rw [hquiet.rest.1.databases_eq hop]
          exact h.postgres_public
      | true =>
          cases op with
          | alterDatabase name operation =>
              cases operation with
              | rename newName => exact hquiet.postgres_public hspares h.postgres_public
              | ownerTo newOwner => cases hquiet
              | setParam parameter value => cases hquiet
          | setTlsPaths | setJwtSecret | setStorageRoot => cases hop
          | _ => cases hquiet
  · intro state hspoil
    constructor
    · rw [hspoil.rest.2]
      exact h.postgres_admin
    · cases hop : op.onDatabases with
      | false =>
          rw [hspoil.rest.1.databases_eq hop]
          exact h.postgres_public
      | true =>
          cases op with
          | alterDatabase name operation =>
              cases operation with
              | rename newName => exact hspoil.1.postgres_public hspares h.postgres_public
              | ownerTo newOwner => cases hspoil
              | setParam parameter value => cases hspoil
          | alterAggregate | alterCollation | alterFunction => cases hop
          | _ => cases hspoil

end

/-- The systems whose catalogue is that of a freshly initialised cluster. -/
def FreshlyInitialised (w : World) : Prop :=
  ∃ credentials now, w.catalog = freshInitState credentials now

/-- A step performs one operation of the control plane that is allowed, in any session and
whatever its outcome. -/
def AllowedStep (o : Outside) (allowed : SessionContext × ControlOp → World → Prop) :
    World → World → Prop :=
  Run.byOps (fun (call : SessionContext × ControlOp) w => (exec (performOp o call.1 call.2) w).2)
    allowed

theorem freshInitState_protected (credentials : String → Credentials) (now : String → Nat) :
  (freshInitState credentials now).Protected
  := by
  constructor
  · refine ⟨CatalogUser.new "postgres" true (some (credentials "postgres"))
      (some (now "postgres")), ?_, rfl⟩
    simp only [freshInitState, initialState, KeyMap.get_insert]
    rw [if_neg (by decide), if_neg (by decide), if_pos trivial]
  · refine ⟨postgresDatabase, ?_, by decide⟩
    simp only [freshInitState, initialState, KeyMap.get_insert, if_true]

/-- In every run of operations that spare them, the internal user, the database `postgres` and
its schema `public` stay, and the session of every administrator is valid. -/
theorem reachable_protected (o : Outside) {w : World}
    (h : Run.Reachable FreshlyInitialised (AllowedStep o (fun call _ => call.2.Spares call.1)) w) :
  w.catalog.Protected
    ∧ ∀ actor, IsAdministrator w.catalog actor →
      validateSession w.catalog (adminSession actor) = .ok ()
  := by
  have hprotected : w.catalog.Protected := by
    apply h.invariant
    · rintro w ⟨credentials, now, hw⟩
      rw [hw]
      apply freshInitState_protected
    · rintro w _ hw ⟨⟨session, op⟩, hspares, rfl⟩
      exact performOp_protected o session op w hspares hw
  refine ⟨hprotected, ?_⟩
  rintro actor ⟨hactor, -⟩
  exact hprotected.adminSession_valid hactor

/-- A freshly initialised cluster. -/
def World.freshInit : World :=
  { World.bootstrap with catalog := freshInitState (fun _ => ⟨"", "", ""⟩) (fun _ => 0) }

theorem World.freshInit_freshlyInitialised :
  FreshlyInitialised World.freshInit
  := ⟨fun _ => ⟨"", "", ""⟩, fun _ => 0, rfl⟩

theorem reachable_protected_createDatabase :
  let w := (exec (performOp Outside.faultless (adminSession PRIMARY_ADMIN_USER)
    (.createDatabase "sales")) World.freshInit).2
  IsAdministrator w.catalog PRIMARY_ADMIN_USER
    ∧ validateSession w.catalog (adminSession PRIMARY_ADMIN_USER) = .ok ()
  := by
  intro w
  have hreachable : Run.Reachable FreshlyInitialised
      (AllowedStep Outside.faultless (fun call _ => call.2.Spares call.1)) w :=
    (Run.Reachable.start World.freshInit_freshlyInitialised).step
      ⟨(adminSession PRIMARY_ADMIN_USER, .createDatabase "sales"), trivial, rfl⟩
  have hadministrator : IsAdministrator w.catalog PRIMARY_ADMIN_USER := by
    unfold IsAdministrator
    decide
  exact ⟨hadministrator,
    (reachable_protected Outside.faultless hreachable).2 PRIMARY_ADMIN_USER hadministrator⟩

/-- The primary administrator drops the internal user as a group. -/
theorem dropGroup_removes_postgres :
  ∃ w, Run.Reachable FreshlyInitialised (AllowedStep Outside.faultless (fun _ _ => True)) w
    ∧ ¬ w.catalog.Protected
  := by
  refine ⟨_, (Run.Reachable.start World.freshInit_freshlyInitialised).step
    ⟨(adminSession PRIMARY_ADMIN_USER, .dropGroup "postgres" false), trivial, rfl⟩, ?_⟩
  intro hprotected
  obtain ⟨user, huser, -⟩ := hprotected.postgres_admin
  have hgone : ((exec (performOp Outside.faultless (adminSession PRIMARY_ADMIN_USER)
      (.dropGroup "postgres" false)) World.freshInit).2.catalog.users["postgres"]?).isSome
        = false := by
    decide
  rw [huser] at hgone
  cases hgone

/-! ### Fresh accounts -/

/-- Nobody lists the account as a member. -/
def CatalogState.Unlisted (state : CatalogState) (name : String) : Prop :=
  ∀ (key : String) (group : CatalogUser), state.users[key]? = some group →
    group.members.contains name = false

/-- The account has no privileges: it is no administrator and a member of no group. -/
structure CatalogState.Unprivileged (state : CatalogState) (name : String) : Prop where
  not_admin : userIsAdmin state name = false
  unlisted : state.Unlisted name

/-- Every member of a group is an account. -/
def CatalogState.MembersExist (state : CatalogState) : Prop :=
  ∀ (key : String) (group : CatalogUser), state.users[key]? = some group →
    ∀ member, group.members.contains member = true → state.users.contains member = true

/-- An operation that removes or renames an account does so when no group lists it: for a removal
no other account, for a renaming none at all. -/
def ControlOp.LeavesNoTrace (state : CatalogState) : ControlOp → Prop
  | .dropUser name _ | .dropGroup name _ =>
    ∀ (key : String) (group : CatalogUser), key ≠ name → state.users[key]? = some group →
      group.members.contains name = false
  | .alterGroup name (.rename _) => state.Unlisted name
  | _ => True

/-- An operation that creates an account of this name. -/
def ControlOp.CreatesAccount (name : String) : ControlOp → Prop
  | .createUser userName _ => userName = name
  | .createGroup groupName => groupName = name
  | _ => False

section

variable {session : SessionContext} {state state' : CatalogState} {op : ControlOp}

/-- When every member is an account, somebody who is none is not listed. -/
theorem CatalogState.MembersExist.unlisted (h : state.MembersExist) {name : String}
    (hnew : state.users.contains name = false) :
  state.Unlisted name
  := by
  intro key group hgroup
  cases hmember : group.members.contains name with
  | false => rfl
  | true =>
      rw [h key group hgroup name hmember] at hnew
      cases hnew

/-- A new account is unprivileged when nobody lists its name. -/
theorem unprivileged_insert {name : String} {entry : CatalogUser}
    (hentry : entry.isAdmin = false ∧ entry.members = ∅)
    (hstate' : state' = { state with users := state.users.insert name entry })
    (hunlisted : state.Unlisted name) :
  state'.Unprivileged name
  := by
  obtain ⟨hadmin, hmembers⟩ := hentry
  have hlisted : state'.Unlisted name := by
    intro key group hgroup
    rw [hstate', KeyMap.get_insert] at hgroup
    split at hgroup
    · cases hgroup
      rw [hmembers]
      simp
    · exact hunlisted key group hgroup
  refine ⟨?_, hlisted⟩
  rw [userIsAdmin, Bool.or_eq_false_iff]
  constructor
  · rw [hstate', KeyMap.get_insert, if_pos rfl, Option.map_some, Option.getD_some, hadmin]
  · cases hgroup : state'.users[ADMINISTRATORS_GROUP]? with
    | none => rfl
    | some group => exact hlisted _ group hgroup

/-- A change of one account that keeps its members among the accounts keeps all of them. -/
theorem membersExist_insert {users : KeyMap CatalogUser} {name : String} {entry : CatalogUser}
    (h : ∀ (key : String) (group : CatalogUser), users[key]? = some group →
      ∀ member, group.members.contains member = true → users.contains member = true)
    (hentry : ∀ member, entry.members.contains member = true → users.contains member = true) :
  ∀ (key : String) (group : CatalogUser), (users.insert name entry)[key]? = some group →
    ∀ member, group.members.contains member = true → (users.insert name entry).contains member
      = true
  := by
  intro key group hgroup member hmember
  have hold : users.contains member = true := by
    rw [KeyMap.get_insert] at hgroup
    split at hgroup
    · cases hgroup
      exact hentry member hmember
    · exact h key group hgroup member hmember
  simp [Std.ExtTreeMap.contains_insert, hold]

theorem membersExist_modify {users : KeyMap CatalogUser} {name : String}
    {f : CatalogUser → CatalogUser} (hf : ∀ user, (f user).members = user.members)
    (h : ∀ (key : String) (group : CatalogUser), users[key]? = some group →
      ∀ member, group.members.contains member = true → users.contains member = true) :
  ∀ (key : String) (group : CatalogUser), (users.modify name f)[key]? = some group →
    ∀ member, group.members.contains member = true → (users.modify name f).contains member = true
  := by
  intro key group hgroup member hmember
  rw [Std.ExtTreeMap.contains_modify]
  rw [KeyMap.get_modify] at hgroup
  split at hgroup
  · obtain ⟨old, hold, rfl⟩ := Option.map_eq_some_iff.mp hgroup
    rw [hf] at hmember
    exact h key old hold member hmember
  · exact h key group hgroup member hmember

/-- Removing an account that no other account lists keeps the members among the accounts. -/
theorem membersExist_erase {users : KeyMap CatalogUser} {name : String}
    (hunlisted : ∀ (key : String) (group : CatalogUser), key ≠ name → users[key]? = some group →
      group.members.contains name = false)
    (h : ∀ (key : String) (group : CatalogUser), users[key]? = some group →
      ∀ member, group.members.contains member = true → users.contains member = true) :
  ∀ (key : String) (group : CatalogUser), (users.erase name)[key]? = some group →
    ∀ member, group.members.contains member = true → (users.erase name).contains member = true
  := by
  intro key group hgroup member hmember
  rw [KeyMap.get_erase] at hgroup
  split at hgroup
  · cases hgroup
  · rename_i hkey
    have hne : name ≠ member := by
      rintro rfl
      rw [hunlisted key group (Ne.symm hkey) hgroup] at hmember
      cases hmember
    rw [Std.ExtTreeMap.contains_erase, h key group hgroup member hmember]
    simp [hne]

/-- An operation that leaves no trace keeps the members among the accounts. -/
theorem ControlOp.Effect.membersExist (h : op.Effect session state state')
    (htrace : op.LeavesNoTrace state) (hold : state.MembersExist) :
  state'.MembersExist
  := by
  unfold CatalogState.MembersExist at hold ⊢
  cases hop : op.onAccounts with
  | false =>
      rw [h.rest.users_eq hop]
      exact hold
  | true =>
      cases op with
      | createUser name password =>
          obtain ⟨_, _, -, -, rfl⟩ := h
          apply membersExist_insert hold
          simp [CatalogUser.new]
      | createGroup name =>
          obtain ⟨-, -, rfl⟩ := h
          apply membersExist_insert hold
          simp [CatalogUser.new]
      | rotateUserPassword userName password =>
          obtain ⟨_, _, rfl⟩ := h
          exact membersExist_modify (fun _ => rfl) hold
      | resetAdminPassword user password =>
          obtain ⟨_, _, rfl⟩ := h
          exact membersExist_modify (fun _ => rfl) hold
      | dropUser name ifExists =>
          obtain ⟨-, -, -, rfl⟩ := h
          exact membersExist_erase htrace hold
      | dropGroup name ifExists =>
          obtain ⟨_, -, -, rfl⟩ := h
          exact membersExist_erase htrace hold
      | alterGroup name operation =>
          cases operation with
          | addUser userName =>
              obtain ⟨group, hgroup, huser, rfl⟩ := h
              apply membersExist_insert hold
              intro member hmember
              rw [Std.ExtTreeSet.contains_insert, Bool.or_eq_true, beq_iff_eq,
                Std.compare_eq_iff_eq] at hmember
              rcases hmember with rfl | hmember
              · exact huser
              · exact hold name group hgroup member hmember
          | dropUser userName =>
              obtain ⟨group, hgroup, -, rfl⟩ := h
              apply membersExist_insert hold
              intro member hmember
              rw [Std.ExtTreeSet.contains_erase, Bool.and_eq_true] at hmember
              exact hold name group hgroup member hmember.2
          | rename newName =>
              obtain ⟨group, hgroup, -, -, rfl⟩ := h
              apply membersExist_insert
                (membersExist_erase (fun key group _ => htrace key group) hold)
              intro member hmember
              have hne : name ≠ member := by
                rintro rfl
                rw [htrace name group hgroup] at hmember
                cases hmember
              rw [Std.ExtTreeMap.contains_erase, hold name group hgroup member hmember]
              simp [hne]
      | _ => cases hop

/-- An account an operation creates is unprivileged when nobody lists its name. -/
theorem ControlOp.Effect.unprivileged {name : String}
    (h : op.Effect session state state')
    (hop : op.CreatesAccount name) (hold : state.MembersExist) :
  state'.Unprivileged name
  := by
  cases op with
  | createUser userName password =>
      cases hop
      obtain ⟨_, _, -, hnew, hstate'⟩ := h
      exact unprivileged_insert ⟨rfl, rfl⟩ hstate' (hold.unlisted hnew)
  | createGroup groupName =>
      cases hop
      obtain ⟨-, hnew, hstate'⟩ := h
      exact unprivileged_insert ⟨rfl, rfl⟩ hstate' (hold.unlisted hnew)
  | _ => cases hop

end

/-- An account that is inserted and persisted is there. -/
theorem insertUser_returns (o : Outside) (w : World) (name : String) (entry : CatalogUser)
    (message : String) :
  Returns (do
    writeState (fun state => { state with users := state.users.insert name entry })
    persist o
    return message : Op String) w (fun _ w' => w'.catalog.users.contains name = true)
  := by
  apply Returns.of_after
  apply After.mono (after_edit o _ message w)
  rintro _ w' ⟨-, hedit⟩ _
  rw [hedit]
  exact Std.ExtTreeMap.contains_insert_self

/-- An account whose creation returns was not there before and is there now. -/
theorem createUser_returns (o : Outside) (session : SessionContext) (w : World) (name : String)
    (password : Option String) :
  Returns (createUser o session name password) w (fun _ w' =>
    w.catalog.users.contains name = false ∧ w'.catalog.users.contains name = true)
  := by
  rw [createUser, returns_bind, returns_orBail]
  intro _ _
  rw [returns_bind]
  apply Returns.of_after
  apply After.mono (after_optionalCredentials o w password)
  rintro _ w₁ ⟨hcatalog, -⟩ credentials
  rw [returns_bind, returns_outsideCall, returns_bind, returns_readState, returns_bind,
    returns_orBail]
  intro _ _
  rw [hcatalog, returns_ite]
  refine ⟨fun _ => returns_bail_bind _ _ _ _, fun _ => ?_⟩
  rw [returns_ite]
  refine ⟨fun _ => returns_bail_bind _ _ _ _, fun hnew => ?_⟩
  refine Returns.mono (insertUser_returns o _ name _ _) ?_
  intro _ w' hthere
  exact ⟨Bool.not_eq_true _ ▸ hnew, hthere⟩

theorem createGroup_returns (o : Outside) (session : SessionContext) (w : World) (name : String) :
  Returns (createGroup o session name) w (fun _ w' =>
    w.catalog.users.contains name = false ∧ w'.catalog.users.contains name = true)
  := by
  rw [createGroup, returns_bind, returns_orBail]
  intro _ _
  rw [returns_bind, returns_readState, returns_bind, returns_orBail]
  intro _ _
  rw [returns_ite]
  refine ⟨fun _ => returns_bail_bind _ _ _ _, fun _ => ?_⟩
  rw [returns_ite]
  refine ⟨fun _ => returns_bail_bind _ _ _ _, fun hnew => ?_⟩
  refine Returns.mono (insertUser_returns o w name _ _) ?_
  intro _ w' hthere
  exact ⟨Bool.not_eq_true _ ▸ hnew, hthere⟩

/-- When every member is an account, an account whose creation returns is unprivileged. -/
theorem performOp_unprivileged (o : Outside) (session : SessionContext) (op : ControlOp) (w : World)
    {name : String} (hop : op.CreatesAccount name) (hmembers : w.catalog.MembersExist) :
  Returns (performOp o session op) w (fun _ w' => w'.catalog.Unprivileged name)
  := by
  have hcreated : Returns (performOp o session op) w (fun _ w' =>
      w.catalog.users.contains name = false ∧ w'.catalog.users.contains name = true) := by
    cases op with
    | createUser userName password =>
        cases hop
        apply createUser_returns
    | createGroup groupName =>
        cases hop
        apply createGroup_returns
    | _ => cases hop
  refine After.mono (After.and hcreated (performOp_performs o session w op)) ?_
  rintro r w' ⟨hcreated, -, houtcome⟩ message rfl
  obtain ⟨hnew, hthere⟩ := hcreated message rfl
  cases houtcome with
  | same hcatalog _ =>
      rw [hcatalog, hnew] at hthere
      cases hthere
  | saved state hstate hcatalog _ =>
      rw [hcatalog]
      obtain ⟨hadmin, hunlisted⟩ := hstate.unprivileged hop hmembers
      exact ⟨hadmin, hunlisted⟩
  | quiet hstate _ _ =>
      cases op with
      | createUser | createGroup => cases hstate
      | _ => cases hop

/-- An operation that leaves no trace keeps the members among the accounts. -/
theorem performOp_membersExist (o : Outside) (session : SessionContext) (op : ControlOp) (w : World)
    (htrace : op.LeavesNoTrace w.catalog) (h : w.catalog.MembersExist) :
  After (performOp o session op) w (fun _ w' => w'.catalog.MembersExist)
  := by
  apply performOp_keeps o session op w h
  · intro state hstate
    exact hstate
  · intro state heffect
    exact heffect.membersExist htrace h
  · intro state hquiet
    unfold CatalogState.MembersExist
    rw [hquiet.rest.2]
    exact h
  · intro state hspoil
    unfold CatalogState.MembersExist
    rw [hspoil.rest.2]
    exact h

/-- In the catalogues a system starts with every member of a group is an account. -/
theorem Initial.membersExist {w : World} (h : Initial w) :
  w.catalog.MembersExist
  := by
  intro key group hgroup member hmember
  obtain ⟨credentials, now, hw | hw⟩ := h
  · rw [hw] at hgroup
    simp only [bootstrapState, initialState, KeyMap.get_insert] at hgroup
    split_ifs at hgroup
    all_goals
      first
        | cases hgroup
          simp [CatalogUser.new] at hmember
        | simp at hgroup
  · rw [hw] at hgroup ⊢
    simp only [freshInitState, initialState, KeyMap.get_insert] at hgroup ⊢
    split_ifs at hgroup
    · cases hgroup
      change ((∅ : NameSet).insert PRIMARY_ADMIN_USER).contains member = true at hmember
      have hprimary : member = PRIMARY_ADMIN_USER := by
        rw [Std.ExtTreeSet.contains_insert, Bool.or_eq_true, beq_iff_eq,
          Std.compare_eq_iff_eq] at hmember
        rcases hmember with hmember | hmember
        · exact hmember.symm
        · cases hmember
      rw [hprimary]
      simp
    all_goals
      first
        | cases hgroup
          simp [CatalogUser.new] at hmember
        | simp at hgroup

/-- In every run of operations that leave no trace, an account whose creation returns is no
administrator and a member of no group. -/
theorem reachable_created_unprivileged (o : Outside) {w : World}
    (h : Run.Reachable Initial (AllowedStep o (fun call w => call.2.LeavesNoTrace w.catalog)) w)
    (session : SessionContext) {op : ControlOp} {name : String} (hop : op.CreatesAccount name) :
  Returns (performOp o session op) w (fun _ w' => w'.catalog.Unprivileged name)
  := by
  apply performOp_unprivileged o session op w hop
  apply h.invariant
  · intro w hw
    exact hw.membersExist
  · rintro w _ hw ⟨⟨session, op⟩, htrace, rfl⟩
    exact performOp_membersExist o session op w htrace hw

theorem World.freshInit_initial :
  Initial World.freshInit
  := ⟨fun _ => ⟨"", "", ""⟩, fun _ => 0, .inr rfl⟩

/-- Whether an operation of the primary administrator returns, and what it leaves. -/
def byAdmin (op : ControlOp) (w : World) : Bool × World :=
  let (r, w') := exec (performOp Outside.faultless (adminSession PRIMARY_ADMIN_USER) op) w
  (r.toBool, w')

/-- What holds of an operation that returned. -/
theorem returned_byAdmin {op : ControlOp} {w : World} {Q : World → Prop}
    (hreturned : (byAdmin op w).1 = true)
    (h : Returns (performOp Outside.faultless (adminSession PRIMARY_ADMIN_USER) op) w
      (fun _ w' => Q w')) :
  Q (byAdmin op w).2
  := by
  unfold Returns After at h
  unfold byAdmin at hreturned ⊢
  rcases hexec : exec (performOp Outside.faultless (adminSession PRIMARY_ADMIN_USER) op) w
    with ⟨r, w'⟩
  rw [hexec] at h hreturned
  cases r with
  | error e => cases hreturned
  | ok message => exact h message rfl

/-- An account created after a group of another name. -/
theorem reachable_created_unprivileged_eve :
  (byAdmin (.createUser "eve" none) (byAdmin (.createGroup "staff") World.freshInit).2).1 = true
    ∧ (byAdmin (.createUser "eve" none)
      (byAdmin (.createGroup "staff") World.freshInit).2).2.catalog.Unprivileged "eve"
  := by
  have hreturned : (byAdmin (.createUser "eve" none)
      (byAdmin (.createGroup "staff") World.freshInit).2).1 = true := by
    decide
  refine ⟨hreturned, @returned_byAdmin _ _ (fun w' => w'.catalog.Unprivileged "eve") hreturned ?_⟩
  apply reachable_created_unprivileged Outside.faultless
  · apply (Run.Reachable.start World.freshInit_initial).step
    exact ⟨(adminSession PRIMARY_ADMIN_USER, .createGroup "staff"), trivial, rfl⟩
  · rfl

/-- An administrator who is dropped and created again is an administrator. -/
theorem createUser_resurrects :
  ∃ w, Run.Reachable Initial (AllowedStep Outside.faultless (fun _ _ => True)) w
    ∧ ¬ Returns (performOp Outside.faultless (adminSession PRIMARY_ADMIN_USER)
      (.createUser "eve" none)) w (fun _ w' => w'.catalog.Unprivileged "eve")
  := by
  let ops : List (SessionContext × ControlOp) :=
    [(adminSession PRIMARY_ADMIN_USER, .createUser "eve" none),
      (adminSession PRIMARY_ADMIN_USER, .alterGroup ADMINISTRATORS_GROUP (.addUser "eve")),
      (adminSession PRIMARY_ADMIN_USER, .dropUser "eve" false)]
  refine ⟨_, (Run.Reachable.start World.freshInit_initial).performAll
    (show Run.AllAllowed _ _ ops _ from ⟨trivial, trivial, trivial, trivial⟩), ?_⟩
  intro hunprivileged
  have hadmin : (byAdmin (.createUser "eve" none) (Run.performAll (fun call w =>
      (exec (performOp Outside.faultless call.1 call.2) w).2) ops World.freshInit)).1 = true
      ∧ userIsAdmin (byAdmin (.createUser "eve" none) (Run.performAll (fun call w =>
      (exec (performOp Outside.faultless call.1 call.2) w).2) ops World.freshInit)).2.catalog "eve"
        = true := by
    decide
  have hnot := @returned_byAdmin _ _ (fun w' => w'.catalog.Unprivileged "eve") hadmin.1
    hunprivileged
  rw [hnot.not_admin] at hadmin
  cases hadmin.2
