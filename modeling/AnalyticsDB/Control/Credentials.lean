import AnalyticsDB.Control.Effects

/-!
# Credentials and their versions

What the control plane answers to those who authenticate users, and how long an answer stays
good.  The version of a password only grows while its user stays in the catalogue, and every
rotation makes it grow, so a version seen before a rotation is not the version after it.  A
user that leaves the catalogue and comes back starts again at version 1.
-/

open Eff

section

variable (o : Outside) (state : CatalogState)

/-- The entry of a user. -/
def catalogUser (user : String) : Except String CatalogUser :=
  match state.users[user]? with
  | none => .error s!"Unknown user '{user}'"
  | some entry => .ok entry

/-- Check a password; a user without a stored password needs none, and any will do. -/
def validateCredentials (user : String) (password : Option String) :
    Except String CatalogUser := do
  let entry ← catalogUser state user
  match entry.password with
  | none => return entry
  | some stored =>
    match password with
    | none => throw s!"Password required for user '{user}'"
    | some provided =>
      if !verifyPassword o provided stored then
        throw s!"Invalid credentials for user '{user}'"
      return entry

/-- A user may assume its own role, and an administrator any. -/
def authorizeRoleAssumption (user role : String) : Except String Unit := do
  let entry ← catalogUser state user
  if user = role then
    return ()
  match state.users[role]? with
  | none => throw s!"Unknown role '{role}'"
  | some roleEntry =>
    if !userIsAdmin state entry.name && entry.name != roleEntry.name then
      throw s!"User '{user}' is not authorized to assume role '{role}'"

end

/-- The version of the password of a user that is in the catalogue. -/
def CatalogState.passwordVersion? (state : CatalogState) (user : String) : Option Nat :=
  state.users[user]?.map (·.passwordVersion)

/-- The entry of a user has the version of its password. -/
theorem catalogUser_ok {state : CatalogState} {user : String} {entry : CatalogUser}
    (h : catalogUser state user = .ok entry) :
  state.passwordVersion? user = some entry.passwordVersion
  := by
  revert h
  simp only [catalogUser, CatalogState.passwordVersion?]
  cases state.users[user]? with
  | none =>
      intro h
      cases h
  | some found =>
      intro h
      cases h
      rfl

/-- The operations that take a user out of the catalogue; users and groups share their
names. -/
def ControlOp.removes (user : String) : ControlOp → Bool
  | dropUser name _ => name = user
  | dropGroup name _ => name = user
  | alterGroup name (.rename _) => name = user
  | _ => false

/-- The operations that give a user a new password. -/
def ControlOp.rotates (user : String) : ControlOp → Bool
  | rotateUserPassword userName _ => userName = user
  | resetAdminPassword .. => user = PRIMARY_ADMIN_USER
  | _ => false

/-- The user is still there, and its password has no smaller version. -/
def CatalogState.KeepsPassword (user : String) (version : Nat) (state : CatalogState) : Prop :=
  ∃ version', state.passwordVersion? user = some version' ∧ version ≤ version'

section

variable {user : String} {version : Nat} {state : CatalogState}

theorem CatalogState.KeepsPassword.of_users {state' : CatalogState}
    (h : state.KeepsPassword user version) (husers : state'.users = state.users) :
  state'.KeepsPassword user version
  := by
  obtain ⟨version', hversion', hle⟩ := h
  refine ⟨version', ?_, hle⟩
  rw [passwordVersion?, husers]
  exact hversion'

/-- Replacing entries by entries that are no older keeps the password of a user. -/
theorem CatalogState.KeepsPassword.of_get {state' : CatalogState}
    (h : state.KeepsPassword user version)
    (hget : ∀ entry, state.users[user]? = some entry →
      ∃ entry', state'.users[user]? = some entry'
        ∧ entry.passwordVersion ≤ entry'.passwordVersion) :
  state'.KeepsPassword user version
  := by
  obtain ⟨version', hversion', hle⟩ := h
  obtain ⟨entry, hentry, rfl⟩ := Option.map_eq_some_iff.mp hversion'
  obtain ⟨entry', hentry', hle'⟩ := hget entry hentry
  refine ⟨entry'.passwordVersion, ?_, hle.trans hle'⟩
  rw [passwordVersion?, hentry']
  rfl

/-- A user that is created was not in the catalogue. -/
theorem get_insert_of_absent {users : KeyMap CatalogUser} {name : String}
    {entry new : CatalogUser} (hname : users.contains name = false)
    (hentry : users[user]? = some entry) :
  (users.insert name new)[user]? = some entry
  := by
  rw [KeyMap.get_insert, if_neg]
  · exact hentry
  · rintro rfl
    rw [KeyMap.get_eq_none users hname] at hentry
    cases hentry

/-- A rotation keeps every user, and no version of a password gets smaller. -/
theorem get_modify_rotate {users : KeyMap CatalogUser} {entry : CatalogUser}
    (name : String) (credentials : Credentials) (now : Nat)
    (hentry : users[user]? = some entry) :
  ∃ entry', (users.modify name (CatalogUser.rotate credentials now))[user]? = some entry'
    ∧ entry.passwordVersion ≤ entry'.passwordVersion
  := by
  rw [KeyMap.get_modify, hentry]
  split
  · exact ⟨_, rfl, Nat.le_succ _⟩
  · exact ⟨_, rfl, le_refl _⟩

/-- Changing the members of a group keeps every user and its version. -/
theorem get_insert_members {users : KeyMap CatalogUser} {entry group : CatalogUser}
    {name : String} (members : NameSet) (hgroup : users[name]? = some group)
    (hentry : users[user]? = some entry) :
  ∃ entry', (users.insert name { group with members := members })[user]? = some entry'
    ∧ entry.passwordVersion ≤ entry'.passwordVersion
  := by
  rw [KeyMap.get_insert]
  split
  · rename_i hname
    rw [← hname, hgroup] at hentry
    cases hentry
    exact ⟨_, rfl, le_refl _⟩
  · exact ⟨_, hentry, le_refl _⟩

/-- An operation that does not remove a user keeps its password or rotates it. -/
theorem ControlOp.Effect.keepsPassword {session : SessionContext} {state' : CatalogState}
    {op : ControlOp} (h : op.Effect session state state') (hop : op.removes user = false)
    (hkeeps : state.KeepsPassword user version) :
  state'.KeepsPassword user version
  := by
  cases haccounts : op.onAccounts with
  | false => exact hkeeps.of_users (h.rest.users_eq haccounts)
  | true =>
      apply hkeeps.of_get
      intro entry hentry
      cases op with
      | createUser name password =>
          obtain ⟨_, _, -, hname, rfl⟩ := h
          exact ⟨entry, get_insert_of_absent hname hentry, le_refl _⟩
      | createGroup name =>
          obtain ⟨-, hname, rfl⟩ := h
          exact ⟨entry, get_insert_of_absent hname hentry, le_refl _⟩
      | rotateUserPassword userName password =>
          obtain ⟨credentials, now, rfl⟩ := h
          exact get_modify_rotate userName credentials now hentry
      | resetAdminPassword authenticatingUser authenticatingPassword =>
          obtain ⟨credentials, now, rfl⟩ := h
          exact get_modify_rotate PRIMARY_ADMIN_USER credentials now hentry
      | dropUser name ifExists =>
          obtain ⟨-, -, -, rfl⟩ := h
          refine ⟨entry, ?_, le_refl _⟩
          rw [KeyMap.get_erase, if_neg (by simpa [removes] using hop)]
          exact hentry
      | dropGroup name ifExists =>
          obtain ⟨_, -, -, rfl⟩ := h
          refine ⟨entry, ?_, le_refl _⟩
          rw [KeyMap.get_erase, if_neg (by simpa [removes] using hop)]
          exact hentry
      | alterGroup name operation =>
          cases operation with
          | addUser userName =>
              obtain ⟨group, hgroup, -, rfl⟩ := h
              exact get_insert_members _ hgroup hentry
          | dropUser userName =>
              obtain ⟨group, hgroup, -, rfl⟩ := h
              exact get_insert_members _ hgroup hentry
          | rename newName =>
              obtain ⟨group, -, -, hnewName, rfl⟩ := h
              refine ⟨entry, ?_, le_refl _⟩
              rw [KeyMap.get_insert, if_neg, KeyMap.get_erase,
                if_neg (by simpa [removes] using hop)]
              · exact hentry
              · rintro rfl
                rw [KeyMap.get_eq_none _ hnewName] at hentry
                cases hentry
      | _ => cases haccounts

/-- Whether it succeeds or not, an operation that does not remove a user does not make the
version of its password smaller. -/
theorem performOp_keepsPassword (o : Outside) (session : SessionContext) {op : ControlOp}
    {w : World} (hop : op.removes user = false) (h : w.catalog.KeepsPassword user version) :
  (exec (performOp o session op) w).2.catalog.KeepsPassword user version
  := by
  apply performOp_keeps o session op w h
  · intro state hstate
    exact hstate.of_users rfl
  · intro state heffect
    exact heffect.keepsPassword hop h
  · intro state hquiet
    exact h.of_users hquiet.rest.2
  · intro state hspoil
    exact h.of_users hspoil.rest.2

/-- A rotation leaves a version that is greater by one. -/
theorem passwordVersion?_modify_rotate {state' : CatalogState} (credentials : Credentials)
    (now : Nat)
    (husers : state'.users = state.users.modify user (CatalogUser.rotate credentials now)) :
  state'.passwordVersion? user = (state.passwordVersion? user).map (· + 1)
  := by
  rw [CatalogState.passwordVersion?, CatalogState.passwordVersion?, husers, KeyMap.get_modify,
    if_pos rfl]
  cases state.users[user]? with
  | none => rfl
  | some entry => rfl

/-- Giving a user a new password, once everything is checked. -/
theorem after_rotate {α : Type} (o : Outside) (credentials : Credentials) (now : Nat) (a : α)
    (w : World) :
  After (writeState (fun state => { state with
      users := state.users.modify user (CatalogUser.rotate credentials now) }) >>= fun _ =>
        persist o >>= fun _ => pure a : Op α) w
    (fun _ w' =>
      w'.catalog.passwordVersion? user = (w.catalog.passwordVersion? user).map (· + 1))
  := by
  apply After.mono (after_edit o _ a w)
  rintro r w' ⟨-, hcatalog⟩
  apply passwordVersion?_modify_rotate credentials now
  rw [hcatalog]
  rfl

/-- A rotation of its password that returns made the version of a user greater by one. -/
theorem rotateUserPassword_returns (o : Outside) (session : SessionContext) (w : World)
    (user password : String) :
  Returns (rotateUserPassword o session user password) w (fun _ w' =>
    w'.catalog.passwordVersion? user = (w.catalog.passwordVersion? user).map (· + 1))
  := by
  rw [rotateUserPassword, returns_ite]
  refine ⟨fun _ => returns_bail_bind _ _ _ _, fun _ => ?_⟩
  rw [returns_bind]
  apply Returns.of_after
  apply After.mono (after_newCredentials o w password)
  rintro _ w₁ ⟨hcatalog, -⟩ credentials
  rw [returns_bind, returns_outsideCall, returns_bind, returns_readState, returns_bind,
    returns_orBail]
  intro _ _
  rw [← hcatalog, returns_ite]
  refine ⟨fun _ => returns_bail_bind _ _ _ _, fun _ => ?_⟩
  rw [returns_ite]
  refine ⟨fun _ => returns_bail_bind _ _ _ _, fun _ => ?_⟩
  apply Returns.of_after
  apply After.mono (after_rotate o credentials _ _ _)
  intro _ w' hversion _
  exact hversion

/-- So did a reset of the password of the primary administrator. -/
theorem resetAdminPassword_returns (o : Outside) (w : World) (user password : String) :
  Returns (resetAdminPassword o user password) w (fun _ w' =>
    w'.catalog.passwordVersion? PRIMARY_ADMIN_USER
      = (w.catalog.passwordVersion? PRIMARY_ADMIN_USER).map (· + 1))
  := by
  rw [resetAdminPassword, returns_bind]
  apply Returns.of_after
  apply After.mono (after_verifyAdminCredentials o w user password)
  rintro _ w₁ ⟨hcatalog₁, -⟩ _
  rw [returns_bind, returns_outsideCall, returns_bind]
  apply Returns.of_after
  apply After.mono (after_newCredentials o _ _)
  rintro _ w₂ ⟨hcatalog₂, -⟩ credentials
  rw [returns_bind, returns_outsideCall, returns_bind, returns_readState, returns_ite]
  refine ⟨fun _ => returns_bail_bind _ _ _ _, fun _ => ?_⟩
  apply Returns.of_after
  apply After.mono (after_rotate o credentials _ _ _)
  intro _ w' hversion _
  rw [hversion, ← hcatalog₁]
  exact congrArg (fun state => (CatalogState.passwordVersion? state PRIMARY_ADMIN_USER).map (· + 1))
    hcatalog₂

/-- A rotation that returns leaves no version that was seen before it. -/
theorem performOp_rotates (o : Outside) (session : SessionContext) {op : ControlOp} {w : World}
    (hop : op.rotates user = true) (h : w.catalog.KeepsPassword user version) :
  Returns (performOp o session op) w (fun _ w' =>
    w'.catalog.KeepsPassword user (version + 1))
  := by
  have hnext : ∀ w' : World,
      w'.catalog.passwordVersion? user = (w.catalog.passwordVersion? user).map (· + 1) →
      w'.catalog.KeepsPassword user (version + 1) := by
    intro w' hw'
    obtain ⟨version', hversion', hle⟩ := h
    refine ⟨version' + 1, ?_, Nat.succ_le_succ hle⟩
    rw [hw', hversion']
    rfl
  cases op with
  | rotateUserPassword userName password =>
      obtain rfl : userName = user := by simpa [ControlOp.rotates] using hop
      exact Returns.mono (rotateUserPassword_returns o session w userName password)
        (fun _ => hnext)
  | resetAdminPassword authenticatingUser authenticatingPassword =>
      obtain rfl : user = PRIMARY_ADMIN_USER := by simpa [ControlOp.rotates] using hop
      exact Returns.mono (resetAdminPassword_returns o w _ _) (fun _ => hnext)
  | _ => cases hop

end
