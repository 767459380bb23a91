import AnalyticsDB.Control.AccountGuards
import AnalyticsDB.Control.Namespace

/-!
# What statements on accounts change

What a statement on users and groups does is decided before it starts: whether its checks pass, the
users it leaves, and as which call to the outside it saves them.  A change that could not be saved
is reported as an error, and is made all the same.
-/

open Eff

/-- The credentials made of a password as this call and the next. -/
def credentialsAt (o : Outside) (call : Nat) (password : String) : Except String Credentials :=
  match o.hashPassword call password with
  | .error message => .error message
  | .ok hash =>
    (o.scramVerifier (call + 1) password).map (fun (salt, saltedPassword) =>
      { hash := hash, scramSaltB64 := salt, scramSaltedPasswordB64 := saltedPassword })

/-- The number of the next call after the catalogue is saved. -/
def Outside.callAfterSave (o : Outside) (call : Nat) : Nat :=
  match o.catalogPath with
  | none => call
  | some _ => call + 1

/-- The session is valid, and its user an administrator. -/
def Administers (session : SessionContext) (state : CatalogState) : Prop :=
  validateSession state session = .ok () ∧ userIsAdmin state session.user = true

/-- Add to a group, or take out of it. -/
def CatalogUser.enrolled (userName : String) (member : Bool) (group : CatalogUser) : CatalogUser :=
  { group with
    members := if member then group.members.insert userName else group.members.erase userName }

namespace MetadataStatement

variable (o : Outside) (session : SessionContext)

/-- The checks of a statement on accounts pass. -/
def Passes (state : CatalogState) (call : Nat) : MetadataStatement → Prop
  | .createUser name password =>
    validateIdentifier name = .ok ()
      ∧ (∀ text, password = some text → ∃ credentials, credentialsAt o call text = .ok credentials)
      ∧ Administers session state ∧ state.users.contains name = false
  | .alterUserPassword name password =>
    password.isEmpty = false
      ∧ (∃ credentials, credentialsAt o call password = .ok credentials)
      ∧ Administers session state ∧ state.users.contains name = true
  | .dropUser name ifExists =>
    Administers session state ∧ name ≠ "postgres" ∧ name ≠ session.user
      ∧ (state.users.contains name = true ∨ ifExists = true)
  | .createGroup name =>
    validateIdentifier name = .ok () ∧ Administers session state
      ∧ state.users.contains name = false
  | .alterGroup name (.addUser userName) =>
    Administers session state ∧ state.users.contains name = true
      ∧ state.users.contains userName = true
  | .alterGroup name (.dropUser userName) =>
    Administers session state
      ∧ ∃ group, state.users[name]? = some group ∧ group.members.contains userName = true
  | .alterGroup name (.rename newName) =>
    Administers session state ∧ state.users.contains name = true
      ∧ validateIdentifier newName = .ok () ∧ state.users.contains newName = false
  | .dropGroup name ifExists =>
    Administers session state
      ∧ (∀ user, state.users[name]? = some user → user.members.isEmpty = true)
      ∧ (state.users.contains name = true ∨ ifExists = true)
  | _ => False

/-- The users a statement on accounts leaves. -/
def usersAfter (users : KeyMap CatalogUser) (call : Nat) :
    MetadataStatement → KeyMap CatalogUser
  | .createUser name none => users.insert name (CatalogUser.new name false none (some (o.now call)))
  | .createUser name (some password) =>
    users.insert name (CatalogUser.new name false (credentialsAt o call password).toOption
      (some (o.now (call + 2))))
  | .alterUserPassword name password =>
    match credentialsAt o call password with
    | .ok credentials => users.modify name (CatalogUser.rotate credentials (o.now (call + 2)))
    | .error _ => users
  | .dropUser name _ => users.erase name
  | .createGroup name => users.insert name (CatalogUser.new name false none none)
  | .alterGroup name (.addUser userName) => users.modify name (CatalogUser.enrolled userName true)
  | .alterGroup name (.dropUser userName) => users.modify name (CatalogUser.enrolled userName false)
  | .alterGroup name (.rename newName) =>
    match users[name]? with
    | some group =>
      (users.erase name).insert newName
        { group with
          name := newName }
    | none => users
  | .dropGroup name _ => users.erase name
  | _ => users

/-- The calls a statement on accounts makes before it saves. -/
def callsBeforeSave : MetadataStatement → Nat
  | .createUser _ none => 1
  | .createUser _ (some _) => 3
  | .alterUserPassword .. => 3
  | _ => 0

/-- A statement that passes its checks has something to save, unless it drops an account that does
not exist. -/
def saves (users : KeyMap CatalogUser) : MetadataStatement → Bool
  | .dropUser name _ => users.contains name
  | .dropGroup name _ => users.contains name
  | _ => true

def onAccounts : MetadataStatement → Bool
  | .createUser .. | .alterUserPassword .. | .dropUser .. | .createGroup .. | .alterGroup ..
  | .dropGroup .. => true
  | _ => false

end MetadataStatement

/-- An operation fails and leaves the users of a catalogue, unless its checks pass: then it leaves
other users, and fails only when it saves them as a call that fails. -/
def ChangesUsers (o : Outside) (state : CatalogState) (passes : Prop) (saves : Bool)
    (users : KeyMap CatalogUser) (call : Nat) {α : Type} (m : Op α) (w : World) : Prop :=
  After m w (fun r w' =>
    (¬ passes → (∃ e, r = .error e) ∧ w'.catalog.users = state.users)
    ∧ (passes → w'.catalog.users = users ∧ w'.catalog.databases = state.databases
      ∧ (saves = true → w'.calls = o.callAfterSave call
        ∧ ((∃ a, r = .ok a) ↔ o.saved call = .ok ()))
      ∧ (saves = false → ∃ a, r = .ok a)))

section

variable {o : Outside} {session : SessionContext} {state : CatalogState} {passes : Prop}
  {saves : Bool} {users : KeyMap CatalogUser} {call : Nat} {w : World} {α β : Type}

theorem changesUsers_bail (message : String) (hw : w.catalog = state) (h : ¬ passes) :
  ChangesUsers o state passes saves users call (bail message : Op α) w
  := ⟨fun _ => ⟨⟨_, rfl⟩, congrArg CatalogState.users hw⟩, fun hpasses => absurd hpasses h⟩

theorem changesUsers_bail_bind (message : String) (f : α → Op β) (hw : w.catalog = state)
    (h : ¬ passes) :
  ChangesUsers o state passes saves users call (bail message >>= f) w
  := changesUsers_bail message hw h

theorem changesUsers_orBail {x : Except String α} {f : α → Op β} (hw : w.catalog = state)
    (herror : ∀ message, x = .error message → ¬ passes)
    (hok : ∀ a, x = .ok a → ChangesUsers o state passes saves users call (f a) w) :
  ChangesUsers o state passes saves users call (orBail x >>= f) w
  := by
  cases hx : x with
  | error message => exact changesUsers_bail_bind message f hw (herror message hx)
  | ok a => exact hok a hx

theorem changesUsers_readState {f : CatalogState → Op α} (hw : w.catalog = state)
    (h : ChangesUsers o state passes saves users call (f state) w) :
  ChangesUsers o state passes saves users call (readState >>= f) w
  := by
  rw [ChangesUsers, after_bind, after_readState, resume_ok, hw]
  exact h

theorem changesUsers_outsideCall {f : Nat → Op α}
    (h : ChangesUsers o state passes saves users call (f w.calls)
      { w with calls := w.calls + 1 }) :
  ChangesUsers o state passes saves users call (outsideCall >>= f) w
  := by
  rw [ChangesUsers, after_bind, after_outsideCall, resume_ok]
  exact h

theorem changesUsers_ite {c : Prop} [Decidable c] {m n : Op α}
    (hm : c → ChangesUsers o state passes saves users call m w)
    (hn : ¬ c → ChangesUsers o state passes saves users call n w) :
  ChangesUsers o state passes saves users call (if c then m else n) w
  := by
  rw [ChangesUsers, after_ite]
  exact ⟨hm, hn⟩

/-- Change the catalogue and save it. -/
theorem changesUsers_write {f : CatalogState → CatalogState} {a : α} (hw : w.catalog = state)
    (hpasses : passes) (hsaves : saves = true) (hcall : w.calls = call)
    (husers : (f state).users = users) (hdatabases : (f state).databases = state.databases) :
  ChangesUsers o state passes saves users call
    (writeState f >>= fun _ => persist o >>= fun _ => pure a) w
  := by
  rw [ChangesUsers, after_bind, after_writeState, resume_ok, after_bind, after_persist]
  subst hw hcall hsaves
  unfold Outside.saved Outside.afterSave Outside.callAfterSave
  cases o.catalogPath with
  | none =>
      refine ⟨fun h => absurd hpasses h, fun _ => ⟨husers, hdatabases, fun _ => ?_, by simp⟩⟩
      exact ⟨rfl, fun _ => rfl, fun _ => ⟨a, rfl⟩⟩
  | some path =>
      cases o.saveError w.calls with
      | none =>
          refine ⟨fun h => absurd hpasses h, fun _ => ⟨husers, hdatabases, fun _ => ?_, by simp⟩⟩
          exact ⟨rfl, fun _ => rfl, fun _ => ⟨a, rfl⟩⟩
      | some message =>
          refine ⟨fun h => absurd hpasses h, fun _ => ⟨husers, hdatabases, fun _ => ?_, by simp⟩⟩
          exact ⟨rfl, by simp⟩

theorem changesUsers_newCredentials {password : String} {f : Credentials → Op α}
    (hw : w.catalog = state)
    (herror : ∀ message, credentialsAt o w.calls password = .error message → ¬ passes)
    (hok : ∀ credentials, credentialsAt o w.calls password = .ok credentials →
      ChangesUsers o state passes saves users call (f credentials)
        { w with calls := w.calls + 2 }) :
  ChangesUsers o state passes saves users call (newCredentials o password >>= f) w
  := by
  simp only [newCredentials, bind_assoc]
  apply changesUsers_outsideCall
  apply changesUsers_orBail
  · exact hw
  · intro message hhash
    apply herror message
    rw [credentialsAt, hhash]
  · intro hash hhash
    apply changesUsers_outsideCall
    apply changesUsers_orBail
    · exact hw
    · intro message hverifier
      apply herror message
      rw [credentialsAt, hhash]
      simp only [hverifier, Except.map]
    · intro verifier hverifier
      apply hok
      rw [credentialsAt, hhash]
      simp only [hverifier, Except.map]

/-- Nothing is left to do. -/
theorem changesUsers_pure {a : α} (hw : w.catalog = state) (hpasses : passes)
    (hsaves : saves = false) (husers : users = state.users) :
  ChangesUsers o state passes saves users call (pure a) w
  := by
  subst hw hsaves husers
  exact ⟨fun h => absurd hpasses h, fun _ => ⟨rfl, rfl, by simp, fun _ => ⟨a, rfl⟩⟩⟩

/-- Only administrators may go on. -/
theorem changesUsers_administers {message : String} {f : PUnit → Op α} {m : Op α}
    (hw : w.catalog = state) (hpasses : passes → Administers session state)
    (h : Administers session state → ChangesUsers o state passes saves users call m w) :
  ChangesUsers o state passes saves users call
    (orBail (validateSession state session) >>= fun _ =>
      if (!userIsAdmin state session.user) = true then bail message >>= f else m) w
  := by
  apply changesUsers_orBail hw
  · intro error hsession hp
    have hvalid := (hpasses hp).1
    rw [hsession] at hvalid
    cases hvalid
  · intro _ hsession
    apply changesUsers_ite
    · intro hadmin
      apply changesUsers_bail_bind _ _ hw
      intro hp
      simp [(hpasses hp).2] at hadmin
    · intro hadmin
      exact h ⟨hsession, by simpa using hadmin⟩

/-- A check whose failure keeps the statement from passing. -/
theorem changesUsers_unless {c : Prop} [Decidable c] {message : String} {f : PUnit → Op α}
    {m : Op α} (hw : w.catalog = state) (hpasses : passes → ¬ c)
    (h : ¬ c → ChangesUsers o state passes saves users call m w) :
  ChangesUsers o state passes saves users call (if c then bail message >>= f else m) w
  := by
  apply changesUsers_ite
  · intro hc
    exact changesUsers_bail_bind _ _ hw (fun hp => hpasses hp hc)
  · exact h

/-- A name that has to be an identifier. -/
theorem changesUsers_identifier {name : String} {m : Op α} (hw : w.catalog = state)
    (hpasses : passes → validateIdentifier name = .ok ())
    (h : validateIdentifier name = .ok () → ChangesUsers o state passes saves users call m w) :
  ChangesUsers o state passes saves users call
    (orBail (validateIdentifier name) >>= fun _ => m) w
  := by
  apply changesUsers_orBail hw
  · intro message hname hp
    rw [hname] at hpasses
    cases hpasses hp
  · intro _ hname
    exact h hname

end

section

variable (o : Outside) (session : SessionContext) (w : World)

theorem createGroup_changes (name : String) :
  ChangesUsers o w.catalog ((MetadataStatement.createGroup name).Passes o session w.catalog w.calls)
    true ((MetadataStatement.createGroup name).usersAfter o w.catalog.users w.calls) w.calls
    (createGroup o session name) w
  := by
  rw [createGroup]
  apply changesUsers_identifier rfl And.left
  intro hname
  apply changesUsers_readState rfl
  apply changesUsers_administers rfl (fun hp => hp.2.1)
  intro hadmin
  apply changesUsers_unless rfl (fun hp => by simp [hp.2.2])
  intro hnew
  apply changesUsers_write rfl _ rfl rfl rfl rfl
  exact ⟨hname, hadmin, (Bool.not_eq_true _).mp hnew⟩

theorem createUser_changes (name : String) (password : Option String) :
  ChangesUsers o w.catalog
    ((MetadataStatement.createUser name password).Passes o session w.catalog w.calls) true
    ((MetadataStatement.createUser name password).usersAfter o w.catalog.users w.calls)
    (w.calls + (MetadataStatement.createUser name password).callsBeforeSave)
    (createUser o session name password) w
  := by
  rw [createUser]
  apply changesUsers_identifier rfl And.left
  intro hname
  cases password with
  | none =>
      rw [optionalCredentials, pure_bind]
      apply changesUsers_outsideCall
      apply changesUsers_readState rfl
      apply changesUsers_administers rfl (fun hp => hp.2.2.1)
      intro hadmin
      apply changesUsers_unless rfl (fun hp => by simp [hp.2.2.2])
      intro hnew
      apply changesUsers_write rfl _ rfl rfl rfl rfl
      exact ⟨hname, by rintro _ ⟨⟩, hadmin, (Bool.not_eq_true _).mp hnew⟩
  | some password =>
      rw [optionalCredentials, bind_assoc]
      apply changesUsers_newCredentials rfl
      · rintro message hmessage ⟨-, hcredentials, -⟩
        obtain ⟨credentials, hok⟩ := hcredentials password rfl
        rw [hmessage] at hok
        cases hok
      · intro credentials hcredentials
        rw [pure_bind]
        apply changesUsers_outsideCall
        apply changesUsers_readState rfl
        apply changesUsers_administers rfl (fun hp => hp.2.2.1)
        intro hadmin
        apply changesUsers_unless rfl (fun hp => by simp [hp.2.2.2])
        intro hnew
        apply changesUsers_write rfl _ rfl rfl _ rfl
        · refine ⟨hname, ?_, hadmin, (Bool.not_eq_true _).mp hnew⟩
          rintro _ ⟨⟩
          exact ⟨credentials, hcredentials⟩
        · simp only [MetadataStatement.usersAfter, hcredentials]
          rfl

theorem rotateUserPassword_changes (name password : String) :
  ChangesUsers o w.catalog
    ((MetadataStatement.alterUserPassword name password).Passes o session w.catalog w.calls) true
    ((MetadataStatement.alterUserPassword name password).usersAfter o w.catalog.users w.calls)
    (w.calls + 3) (rotateUserPassword o session name password) w
  := by
  rw [rotateUserPassword]
  apply changesUsers_unless rfl (fun hp => by simp [hp.1])
  intro hpassword
  apply changesUsers_newCredentials rfl
  · rintro message hmessage ⟨-, ⟨credentials, hok⟩, -⟩
    rw [hmessage] at hok
    cases hok
  · intro credentials hcredentials
    apply changesUsers_outsideCall
    apply changesUsers_readState rfl
    apply changesUsers_administers rfl (fun hp => hp.2.2.1)
    intro hadmin
    apply changesUsers_unless rfl (fun hp => by simp [hp.2.2.2])
    intro hexists
    apply changesUsers_write rfl _ rfl rfl _ rfl
    · exact ⟨(Bool.not_eq_true _).mp hpassword, ⟨credentials, hcredentials⟩, hadmin,
        by simpa using hexists⟩
    · simp only [MetadataStatement.usersAfter, hcredentials]

/-- Dropping an account that does not exist changes nothing. -/
theorem erase_of_absent {users : KeyMap CatalogUser} {name : String}
    (h : users.contains name = false) :
  users.erase name = users
  := by
  apply Std.ExtTreeMap.ext_getElem?
  intro other
  rw [KeyMap.get_erase]
  split
  · rename_i hname
    rw [← hname, KeyMap.get_eq_none users h]
  · rfl

theorem dropUser_changes (name : String) (ifExists : Bool) :
  ChangesUsers o w.catalog
    ((MetadataStatement.dropUser name ifExists).Passes o session w.catalog w.calls)
    (w.catalog.users.contains name)
    ((MetadataStatement.dropUser name ifExists).usersAfter o w.catalog.users w.calls) w.calls
    (dropUser o session name ifExists) w
  := by
  rw [dropUser]
  apply changesUsers_readState rfl
  apply changesUsers_administers rfl And.left
  intro hadmin
  apply changesUsers_unless rfl (fun hp => hp.2.1)
  intro hpostgres
  apply changesUsers_unless rfl (fun hp => hp.2.2.1)
  intro hself
  apply changesUsers_ite
  · intro hexists
    exact changesUsers_write rfl ⟨hadmin, hpostgres, hself, .inl hexists⟩ hexists rfl rfl rfl
  · intro hexists
    rw [Bool.not_eq_true] at hexists
    apply changesUsers_ite
    · intro hifExists
      exact changesUsers_pure rfl ⟨hadmin, hpostgres, hself, .inr hifExists⟩ hexists
        (erase_of_absent hexists)
    · intro hifExists
      apply changesUsers_bail _ rfl
      rintro ⟨-, -, -, hp | hp⟩
      · rw [hexists] at hp
        cases hp
      · exact hifExists hp

theorem dropGroup_changes (name : String) (ifExists : Bool) :
  ChangesUsers o w.catalog
    ((MetadataStatement.dropGroup name ifExists).Passes o session w.catalog w.calls)
    (w.catalog.users.contains name)
    ((MetadataStatement.dropGroup name ifExists).usersAfter o w.catalog.users w.calls) w.calls
    (dropGroup o session name ifExists) w
  := by
  rw [dropGroup]
  apply changesUsers_readState rfl
  apply changesUsers_administers rfl And.left
  intro hadmin
  cases hgroup : w.catalog.users[name]? with
  | some user =>
      have hexists : w.catalog.users.contains name = true := by
        rw [Std.ExtTreeMap.contains_eq_isSome_getElem?, hgroup]
        rfl
      apply changesUsers_unless rfl (fun hp => by simp [hp.2.1 user rfl])
      intro hempty
      apply changesUsers_write rfl _ hexists rfl rfl rfl
      refine ⟨hadmin, ?_, .inl hexists⟩
      rintro _ ⟨⟩
      simpa using hempty
  | none =>
      have hexists : w.catalog.users.contains name = false := by
        rw [Std.ExtTreeMap.contains_eq_isSome_getElem?, hgroup]
        rfl
      apply changesUsers_ite
      · intro hifExists
        exact changesUsers_pure rfl ⟨hadmin, by rintro _ ⟨⟩, .inr hifExists⟩ hexists
          (erase_of_absent hexists)
      · intro hifExists
        apply changesUsers_bail _ rfl
        rintro ⟨-, -, hp | hp⟩
        · rw [hexists] at hp
          cases hp
        · exact hifExists hp

/-- Replacing the entry of a group by one that it gives. -/
theorem modify_eq_insert {users : KeyMap CatalogUser} {name : String} {group : CatalogUser}
    (hgroup : users[name]? = some group) (f : CatalogUser → CatalogUser) :
  users.modify name f = users.insert name (f group)
  := by
  apply Std.ExtTreeMap.ext_getElem?
  intro other
  rw [KeyMap.get_modify, KeyMap.get_insert]
  split
  · rename_i hname
    rw [← hname, hgroup, Option.map_some]
  · rfl

theorem alterGroup_changes (name : String) (operation : AlterGroupOperation) :
  ChangesUsers o w.catalog
    ((MetadataStatement.alterGroup name operation).Passes o session w.catalog w.calls) true
    ((MetadataStatement.alterGroup name operation).usersAfter o w.catalog.users w.calls) w.calls
    (alterGroup o session name operation) w
  := by
  rw [alterGroup]
  apply changesUsers_readState rfl
  apply changesUsers_administers rfl (by cases operation <;> exact And.left)
  intro hadmin
  cases hgroup : w.catalog.users[name]? with
  | none =>
      have hexists : w.catalog.users.contains name = false := by
        rw [Std.ExtTreeMap.contains_eq_isSome_getElem?, hgroup]
        rfl
      apply changesUsers_bail _ rfl
      cases operation with
      | addUser userName => simp [MetadataStatement.Passes, hexists]
      | dropUser userName => simp [MetadataStatement.Passes, hgroup]
      | rename newName => simp [MetadataStatement.Passes, hexists]
  | some group =>
      have hexists : w.catalog.users.contains name = true := by
        rw [Std.ExtTreeMap.contains_eq_isSome_getElem?, hgroup]
        rfl
      cases operation with
      | addUser userName =>
          apply changesUsers_unless rfl (fun hp => by simp [hp.2.2])
          intro huser
          apply changesUsers_write rfl ⟨hadmin, hexists, by simpa using huser⟩ rfl rfl _ rfl
          exact (modify_eq_insert hgroup (CatalogUser.enrolled userName true)).symm
      | dropUser userName =>
          apply changesUsers_unless rfl
          · rintro ⟨-, group', hgroup', hmember⟩
            rw [hgroup] at hgroup'
            cases hgroup'
            simp [hmember]
          · intro hmember
            apply changesUsers_write rfl ⟨hadmin, group, hgroup, by simpa using hmember⟩ rfl rfl _ rfl
            exact (modify_eq_insert hgroup (CatalogUser.enrolled userName false)).symm
      | rename newName =>
          apply changesUsers_identifier rfl (fun hp => hp.2.2.1)
          intro hnewName
          apply changesUsers_unless rfl (fun hp => by simp [hp.2.2.2])
          intro hnew
          apply changesUsers_write rfl _ rfl rfl _ rfl
          · exact ⟨hadmin, hexists, hnewName, (Bool.not_eq_true _).mp hnew⟩
          · simp only [MetadataStatement.usersAfter, hgroup]

/-- What a statement on accounts does is decided by its checks and by whether it can be saved. -/
theorem executeMessage_changes {statement : MetadataStatement}
    (h : statement.onAccounts = true) :
  ChangesUsers o w.catalog (statement.Passes o session w.catalog w.calls)
    (statement.saves w.catalog.users) (statement.usersAfter o w.catalog.users w.calls)
    (w.calls + statement.callsBeforeSave) (executeMessage o session statement) w
  := by
  cases statement with
  | createUser name password => exact createUser_changes o session w name password
  | alterUserPassword name password => exact rotateUserPassword_changes o session w name password
  | dropUser name ifExists => exact dropUser_changes o session w name ifExists
  | createGroup name => exact createGroup_changes o session w name
  | alterGroup name operation => exact alterGroup_changes o session w name operation
  | dropGroup name ifExists => exact dropGroup_changes o session w name ifExists
  | _ => cases h

end

/-! ### The names of accounts -/

theorem contains_insert_iff (users : KeyMap CatalogUser) (name other : String)
    (user : CatalogUser) :
  (users.insert name user).contains other = true ↔ name = other ∨ users.contains other = true
  := by
  simp only [Std.ExtTreeMap.contains_eq_isSome_getElem?, KeyMap.get_insert]
  split
  · rename_i hname
    simp [hname]
  · rename_i hname
    simp [hname]

theorem contains_erase_iff (users : KeyMap CatalogUser) (name other : String) :
  (users.erase name).contains other = true ↔ name ≠ other ∧ users.contains other = true
  := by
  simp only [Std.ExtTreeMap.contains_eq_isSome_getElem?, KeyMap.get_erase]
  split
  · rename_i hname
    simp [hname]
  · rename_i hname
    simp [hname]

theorem contains_modify_eq (users : KeyMap CatalogUser) (name other : String)
    (f : CatalogUser → CatalogUser) :
  (users.modify name f).contains other = users.contains other
  := by
  simp only [Std.ExtTreeMap.contains_eq_isSome_getElem?, KeyMap.get_modify]
  split
  · rw [Option.isSome_map]
  · rfl

/-- Every account has an identifier as its name. -/
def NamedByIdentifiers (users : KeyMap CatalogUser) : Prop :=
  ∀ name, users.contains name = true → validateIdentifier name = .ok ()

theorem insert_ne {users : KeyMap CatalogUser} {name : String} (user : CatalogUser)
    (h : users.contains name = false) :
  users.insert name user ≠ users
  := by
  intro heq
  have hname := (contains_insert_iff users name name user).mpr (.inl rfl)
  rw [heq, h] at hname
  cases hname

theorem erase_ne {users : KeyMap CatalogUser} {name : String} (h : users.contains name = true) :
  users.erase name ≠ users
  := by
  intro heq
  rw [← heq] at h
  exact ((contains_erase_iff users name name).mp h).1 rfl

/-- The account that a modification leaves. -/
theorem modify_get {users : KeyMap CatalogUser} {name : String} {user : CatalogUser}
    (f : CatalogUser → CatalogUser) (h : users[name]? = some user) :
  (users.modify name f)[name]? = some (f user)
  := by
  rw [KeyMap.get_modify, if_pos rfl, h, Option.map_some]

/-- A modification changes nothing when it keeps the account. -/
theorem modify_eq_iff {users : KeyMap CatalogUser} {name : String} {user : CatalogUser}
    (f : CatalogUser → CatalogUser) (h : users[name]? = some user) :
  users.modify name f = users ↔ f user = user
  := by
  constructor
  · intro heq
    have hget := modify_get f h
    rw [heq, h] at hget
    exact (Option.some.inj hget).symm
  · intro hf
    apply Std.ExtTreeMap.ext_getElem?
    intro other
    rw [KeyMap.get_modify]
    split
    · rename_i hname
      rw [← hname, h, Option.map_some, hf]
    · rfl

theorem enrolled_true_eq_iff (userName : String) (group : CatalogUser) :
  group.enrolled userName true = group ↔ group.members.contains userName = true
  := by
  constructor
  · intro heq
    rw [← heq]
    simp [CatalogUser.enrolled]
  · intro hmember
    have hmembers : group.members.insert userName = group.members := by
      apply Std.ExtTreeSet.ext_mem
      intro other
      rw [Std.ExtTreeSet.mem_insert, Std.compare_eq_iff_eq]
      constructor
      · rintro (rfl | hother)
        · exact Std.ExtTreeSet.mem_iff_contains.mpr hmember
        · exact hother
      · exact .inr
    rw [CatalogUser.enrolled, if_pos rfl, hmembers]

theorem enrolled_false_eq_iff (userName : String) (group : CatalogUser) :
  group.enrolled userName false = group ↔ group.members.contains userName = false
  := by
  constructor
  · intro heq
    rw [← heq]
    simp [CatalogUser.enrolled]
  · intro hmember
    have hmembers : group.members.erase userName = group.members := by
      apply Std.ExtTreeSet.ext_mem
      intro other
      rw [Std.ExtTreeSet.mem_erase, ne_eq, Std.compare_eq_iff_eq]
      constructor
      · exact And.right
      · intro hother
        refine ⟨?_, hother⟩
        rintro rfl
        rw [Std.ExtTreeSet.mem_iff_contains, hmember] at hother
        cases hother
    rw [CatalogUser.enrolled, if_neg (by simp), hmembers]

theorem rotate_ne (credentials : Credentials) (now : Nat) (user : CatalogUser) :
  user.rotate credentials now ≠ user
  := by
  intro heq
  have hversion := congrArg CatalogUser.passwordVersion heq
  simp [CatalogUser.rotate] at hversion

theorem exists_get_of_contains {users : KeyMap CatalogUser} {name : String}
    (h : users.contains name = true) :
  ∃ user, users[name]? = some user
  := by
  rw [Std.ExtTreeMap.contains_eq_isSome_getElem?] at h
  exact Option.isSome_iff_exists.mp h

theorem contains_enrolled (userName member : String) (add : Bool) (group : CatalogUser) :
  (group.enrolled userName add).members.contains member
    = if userName = member then add else group.members.contains member
  := by
  rw [CatalogUser.enrolled]
  cases add with
  | true =>
      rw [if_pos rfl, Std.ExtTreeSet.contains_insert]
      split
      · rename_i hname
        simp [hname]
      · rename_i hname
        simp [hname]
  | false =>
      rw [if_neg Bool.false_ne_true, Std.ExtTreeSet.contains_erase]
      split
      · rename_i hname
        simp [hname]
      · rename_i hname
        simp [hname]

/-- The effect of an operation on accounts keeps them named by identifiers. -/
theorem effect_named {session : SessionContext} {op : ControlOp} {state state' : CatalogState}
    (heffect : op.Effect session state state') (hop : op.onAccounts = true)
    (h : NamedByIdentifiers state.users) :
  NamedByIdentifiers state'.users
  := by
  intro other hother
  cases op with
  | createUser name password =>
      obtain ⟨_, _, hname, -, rfl⟩ := heffect
      obtain rfl | hother := (contains_insert_iff _ _ _ _).mp hother
      · exact hname
      · exact h other hother
  | createGroup name =>
      obtain ⟨hname, -, rfl⟩ := heffect
      obtain rfl | hother := (contains_insert_iff _ _ _ _).mp hother
      · exact hname
      · exact h other hother
  | rotateUserPassword | resetAdminPassword =>
      obtain ⟨_, _, rfl⟩ := heffect
      rw [contains_modify_eq] at hother
      exact h other hother
  | dropUser name ifExists =>
      obtain ⟨-, -, -, rfl⟩ := heffect
      exact h other ((contains_erase_iff _ _ _).mp hother).2
  | dropGroup name ifExists =>
      obtain ⟨_, -, -, rfl⟩ := heffect
      exact h other ((contains_erase_iff _ _ _).mp hother).2
  | alterGroup name operation =>
      cases operation with
      | addUser userName =>
          obtain ⟨group, hgroup, -, rfl⟩ := heffect
          obtain rfl | hother := (contains_insert_iff _ _ _ _).mp hother
          · apply h name
            rw [Std.ExtTreeMap.contains_eq_isSome_getElem?, hgroup]
            rfl
          · exact h other hother
      | dropUser userName =>
          obtain ⟨group, hgroup, -, rfl⟩ := heffect
          obtain rfl | hother := (contains_insert_iff _ _ _ _).mp hother
          · apply h name
            rw [Std.ExtTreeMap.contains_eq_isSome_getElem?, hgroup]
            rfl
          · exact h other hother
      | rename newName =>
          obtain ⟨_, -, hname, -, rfl⟩ := heffect
          obtain rfl | hother := (contains_insert_iff _ _ _ _).mp hother
          · exact hname
          · exact h other ((contains_erase_iff _ _ _).mp hother).2
  | _ => cases hop

/-- An operation keeps the accounts named by identifiers, whatever its outcome. -/
theorem performOp_named (o : Outside) (session : SessionContext) (op : ControlOp) {w : World}
    (h : NamedByIdentifiers w.catalog.users) :
  After (performOp o session op) w (fun _ w' => NamedByIdentifiers w'.catalog.users)
  := by
  apply performOp_keeps o session op w (P := fun state => NamedByIdentifiers state.users) h
  · exact fun _ hstate => hstate
  · intro state heffect
    cases hop : op.onAccounts with
    | true => exact effect_named heffect hop h
    | false =>
        rw [heffect.rest.users_eq hop]
        exact h
  · intro state hquiet
    rw [hquiet.rest.2]
    exact h
  · intro state hspoil
    rw [hspoil.rest.2]
    exact h

/-- The accounts of every catalogue a system can reach are named by identifiers. -/
theorem reachable_named {o : Outside} {w : World}
    (h : Run.Reachable Initial (ControlStep o) w) :
  NamedByIdentifiers w.catalog.users
  := by
  refine Run.Reachable.invariant (P := fun w => NamedByIdentifiers w.catalog.users) ?_ ?_ h
  · rintro w ⟨credentials, now, hw | hw⟩
    · rw [hw]
      intro name hname
      simp only [bootstrapState, initialState, contains_insert_iff] at hname
      obtain rfl | rfl | rfl | rfl | hname := hname <;> first | decide | cases hname
    · rw [hw]
      intro name hname
      simp only [freshInitState, initialState, contains_insert_iff] at hname
      obtain rfl | rfl | rfl | hname := hname <;> first | decide | cases hname
  · rintro w _ hw ⟨call, -, rfl⟩
    exact performOp_named o call.1 call.2 hw

namespace MetadataStatement

variable {o : Outside} {session : SessionContext} {state : CatalogState} {call : Nat}
  {statement : MetadataStatement}

theorem administers_of_passes (h : statement.Passes o session state call) :
  Administers session state
  := by
  cases statement with
  | createUser name password => exact h.2.2.1
  | alterUserPassword name password => exact h.2.2.1
  | dropUser name ifExists => exact h.1
  | createGroup name => exact h.2.1
  | alterGroup name operation => cases operation <;> exact h.1
  | dropGroup name ifExists => exact h.1
  | _ => cases h

/-- The accounts there are after a statement were there before, or have a name that is checked. -/
theorem usersAfter_named (hpasses : statement.Passes o session state call)
    (h : NamedByIdentifiers state.users) :
  NamedByIdentifiers (statement.usersAfter o state.users call)
  := by
  intro other hother
  cases statement with
  | createUser name password =>
      have hcreated : name = other ∨ state.users.contains other = true := by
        cases password <;> exact (contains_insert_iff _ _ _ _).mp hother
      obtain rfl | hother := hcreated
      · exact hpasses.1
      · exact h other hother
  | alterUserPassword name password =>
      obtain ⟨-, ⟨credentials, hcredentials⟩, -⟩ := hpasses
      simp only [usersAfter, hcredentials, contains_modify_eq] at hother
      exact h other hother
  | dropUser name ifExists => exact h other ((contains_erase_iff _ _ _).mp hother).2
  | createGroup name =>
      obtain rfl | hother := (contains_insert_iff _ _ _ _).mp hother
      · exact hpasses.1
      · exact h other hother
  | alterGroup name operation =>
      cases operation with
      | addUser userName =>
          rw [usersAfter, contains_modify_eq] at hother
          exact h other hother
      | dropUser userName =>
          rw [usersAfter, contains_modify_eq] at hother
          exact h other hother
      | rename newName =>
          rw [usersAfter] at hother
          split at hother
          · obtain rfl | hother := (contains_insert_iff _ _ _ _).mp hother
            · exact hpasses.2.2.1
            · exact h other ((contains_erase_iff _ _ _).mp hother).2
          · exact h other hother
  | dropGroup name ifExists => exact h other ((contains_erase_iff _ _ _).mp hother).2
  | _ => cases hpasses

/-- An alteration of a group keeps the number of accounts. -/
theorem usersAfter_size {groupName : String} {operation : AlterGroupOperation}
    (hpasses : (alterGroup groupName operation).Passes o session state call) :
  ((alterGroup groupName operation).usersAfter o state.users call).size = state.users.size
  := by
  cases operation with
  | addUser userName => rw [usersAfter, Std.ExtTreeMap.size_modify]
  | dropUser userName => rw [usersAfter, Std.ExtTreeMap.size_modify]
  | rename newName =>
      obtain ⟨-, hexists, -, hnew⟩ := hpasses
      rw [usersAfter]
      split
      · have hnew' : ¬ (state.users.erase groupName).contains newName = true := by
          intro hmem
          rw [((contains_erase_iff _ _ _).mp hmem).2] at hnew
          cases hnew
        have hpos : state.users.size ≠ 0 := by
          intro hzero
          rw [Std.ExtTreeMap.eq_empty_iff_size_eq_zero.mpr hzero] at hexists
          simp at hexists
        rw [Std.ExtTreeMap.size_insert, if_neg hnew', Std.ExtTreeMap.size_erase, if_pos hexists]
        omega
      · rfl

/-! ### Statements that change nothing -/

/-- A statement that adds a member to a group that has it. -/
def Idle (users : KeyMap CatalogUser) (statement : MetadataStatement) : Prop :=
  ∃ name user group, statement = .alterGroup name (.addUser user) ∧ users[name]? = some group
    ∧ group.members.contains user = true

/-- A statement that saves something changes the users, unless it adds a member there is. -/
theorem usersAfter_eq_iff (hpasses : statement.Passes o session state call)
    (hsaves : statement.saves state.users = true) :
  statement.usersAfter o state.users call = state.users ↔ statement.Idle state.users
  := by
  cases statement with
  | createUser name password =>
      have hne : (createUser name password).usersAfter o state.users call ≠ state.users := by
        cases password with
        | none => exact insert_ne _ hpasses.2.2.2
        | some password => exact insert_ne _ hpasses.2.2.2
      simp [hne, Idle]
  | alterUserPassword name password =>
      obtain ⟨-, ⟨credentials, hcredentials⟩, -, hexists⟩ := hpasses
      obtain ⟨user, huser⟩ := exists_get_of_contains hexists
      simp [usersAfter, hcredentials, modify_eq_iff _ huser, rotate_ne, Idle]
  | dropUser name ifExists =>
      simp [usersAfter, erase_ne hsaves, Idle]
  | createGroup name => simp [usersAfter, insert_ne _ hpasses.2.2, Idle]
  | alterGroup name operation =>
      cases operation with
      | addUser userName =>
          obtain ⟨group, hgroup⟩ := exists_get_of_contains hpasses.2.1
          rw [usersAfter, modify_eq_iff _ hgroup, enrolled_true_eq_iff]
          constructor
          · intro hmember
            exact ⟨name, userName, group, rfl, hgroup, hmember⟩
          · rintro ⟨_, _, group', ⟨⟩, hgroup', hmember⟩
            rw [hgroup] at hgroup'
            cases hgroup'
            exact hmember
      | dropUser userName =>
          obtain ⟨-, group, hgroup, hmember⟩ := hpasses
          rw [usersAfter, modify_eq_iff _ hgroup, enrolled_false_eq_iff, hmember]
          simp [Idle]
      | rename newName =>
          obtain ⟨-, hexists, -, hnew⟩ := hpasses
          obtain ⟨group, hgroup⟩ := exists_get_of_contains hexists
          have hne : (alterGroup name (.rename newName)).usersAfter o state.users call
              ≠ state.users := by
            intro heq
            have hname := (contains_insert_iff (state.users.erase name) newName newName
              { group with
                name := newName }).mpr (.inl rfl)
            rw [usersAfter, hgroup] at heq
            simp only at heq
            rw [heq, hnew] at hname
            cases hname
          simp [hne, Idle]
  | dropGroup name ifExists => simp [usersAfter, erase_ne hsaves, Idle]
  | _ => cases hpasses

end MetadataStatement
