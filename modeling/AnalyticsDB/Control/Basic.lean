import AnalyticsDB.Lib.Effect
import AnalyticsDB.Catalog.State
import AnalyticsDB.Storage.Object

/-!
# The control plane

The state every operation of the system acts on, the failures an operation ends with, and
the checks the operations of the control plane share: the session, the identifiers, and the
write of the catalogue after a change.  An operation changes the catalogue in place, so the
changes it made before a failure stay.
-/

/-- How an operation fails: with an error it reports, or with a panic. -/
inductive Failure where
  | error (message : String)
  | panic (message : String)
  deriving DecidableEq, Repr

/-- A row of the SQLite table `object_permissions`. -/
structure ObjectPermission where
  grantee : String
  objectType : String
  objectName : String
  privilege : String
  deriving DecidableEq, Repr

/-- The state of the system: the catalogue with the version last sent to its subscribers,
the granted privileges, the objects of the stores, and the number of calls made so far to
the world outside. -/
structure World where
  catalog : CatalogState
  published : Nat
  permissions : List ObjectPermission
  store : ObjectStore
  calls : Nat

/-- How an operation of an object store fails. -/
inductive OsError where
  | notFound
  | alreadyExists
  | precondition
  | notImplemented
  | generic (message : String)
  deriving DecidableEq, Repr

/-- What the system gets from outside: its paths, and the outcome of each call to the
outside, by the number of the call. -/
structure Outside where
  catalogPath : Option String
  dataDir : Option String
  currentDir : String
  /-- Whether the stores support conditional writes. -/
  conditionalPut : Bool
  /-- The error, if any, of the write of the catalogue made as a call. -/
  saveError : Nat → Option String
  /-- The error, if any, of the object-store operation made as a call. -/
  storeError : Nat → Option OsError
  /-- The identifier `Uuid::now_v7` returns as a call. -/
  uuid : Nat → String
  /-- No two calls return the same identifier. -/
  uuid_injective : ∀ m n, uuid m = uuid n → m = n
  /-- The clock, in milliseconds. -/
  now : Nat → Nat
  /-- The lower case of a text, as `str::to_lowercase` gives it. -/
  lowercase : String → String
  /-- No character is lost by lower-casing. -/
  length_le_lowercase : ∀ text, text.toList.length ≤ (lowercase text).toList.length
  /-- The size of an encoded Parquet file. -/
  encodedSize : RecordBatch → Nat
  /-- The Argon2id hash of a password, with the salt drawn by the call. -/
  hashPassword : Nat → String → Except String String
  /-- The salt and the salted password of a SCRAM verifier, with the salt drawn by the
  call. -/
  scramVerifier : Nat → String → Except String (String × String)
  /-- Whether a password matches an Argon2id hash. -/
  argon2Verify : String → String → Bool
  /-- The random password drawn as a call. -/
  randomPassword : Nat → String

/-- An outside in which no call fails. -/
def Outside.faultless : Outside :=
  { catalogPath := some "/data/catalog.db"
    dataDir := none
    currentDir := "/"
    conditionalPut := true
    saveError := fun _ => none
    storeError := fun _ => none
    uuid := fun call => String.ofList (List.replicate call 'u')
    uuid_injective := by
      intro m n h
      have hlist := congrArg (fun s => s.toList.length) h
      simpa using hlist
    now := fun call => call
    lowercase := fun text => String.ofList (text.toList.map Char.toLower)
    length_le_lowercase := by
      intro text
      simp
    encodedSize := fun batch => batch.rows.length
    hashPassword := fun _ password => .ok ("$argon2id$" ++ password)
    scramVerifier := fun _ password => .ok ("", password)
    argon2Verify := fun provided stored => stored = "$argon2id$" ++ provided
    randomPassword := fun call => String.ofList (List.replicate call 'p') }

/-- An operation of the system. -/
abbrev Op (α : Type) := Eff World Failure α

/-- Fail with an error. -/
def bail {α : Type} (message : String) : Op α := throw (.error message)

/-- Lift a check that reports an error. -/
def orBail {α : Type} : Except String α → Op α
  | .ok a => pure a
  | .error message => bail message

/-- The number of the call to the outside made now. -/
def outsideCall : Op Nat := do
  let w ← get
  set { w with calls := w.calls + 1 }
  return w.calls

/-- The catalogue. -/
def readState : Op CatalogState := do
  return (← get).catalog

/-- Change the catalogue in place. -/
def writeState (f : CatalogState → CatalogState) : Op Unit :=
  modify (fun w => { w with catalog := f w.catalog })

/-- The greatest `u64`. -/
def u64Max : Nat := 2 ^ 64 - 1

/-- Identifiers are non-empty and made of ASCII letters, digits and underscores. -/
def validateIdentifier (value : String) : Except String Unit :=
  if value.isEmpty then
    .error "Identifiers must not be empty"
  else if value.toList.all isIdentifierChar then
    .ok ()
  else
    .error s!"Identifier '{value}' is invalid in the current prototype. Use ASCII letters, digits, or underscores."

/-- A session is valid when its user exists, may assume its role, and its database and
schema exist. -/
def validateSession (state : CatalogState) (session : SessionContext) : Except String Unit := do
  let some user := state.users[session.user]?
    | throw s!"Unknown user '{session.user}'"
  if session.role ≠ session.user then
    let some role := state.users[session.role]?
      | throw s!"Unknown role '{session.role}'"
    if !userIsAdmin state user.name && role.name != user.name then
      throw s!"User '{session.user}' is not authorized to assume role '{session.role}'"
  let some database := state.databases[session.database]?
    | throw s!"Unknown database '{session.database}'"
  if !database.schemas.contains session.schema then
    throw s!"Unknown schema '{session.database}.{session.schema}'"

section

variable (o : Outside)

/-- Write the catalogue to its file, when it has one. -/
def persistState : Op Unit :=
  match o.catalogPath with
  | none => pure ()
  | some _ => do
    let n ← outsideCall
    match o.saveError n with
    | none => pure ()
    | some message => bail message

/-- Bump the version, write the catalogue, and send the version to the subscribers. -/
def persist : Op Unit := do
  writeState (fun state =>
    { state with catalogueVersion := min (state.catalogueVersion + 1) u64Max })
  let newVersion := (← readState).catalogueVersion
  persistState o
  modify (fun w => { w with published := newVersion })

end

/-! ### How the shared steps act -/

open Eff

@[simp]
theorem after_bail {α : Type} (message : String) (w : World)
    (Q : Except Failure α → World → Prop) :
  After (bail message : Op α) w Q ↔ Q (.error (.error message)) w
  := Iff.rfl

@[simp]
theorem after_orBail {α : Type} (x : Except String α) (w : World)
    (Q : Except Failure α → World → Prop) :
  After (orBail x) w Q
    ↔ (∀ message, x = .error message → Q (.error (.error message)) w)
      ∧ (∀ a, x = .ok a → Q (.ok a) w)
  := by
  cases x with
  | ok a => simp [orBail]
  | error message => simp [orBail]

@[simp]
theorem after_readState (w : World) (Q : Except Failure CatalogState → World → Prop) :
  After readState w Q ↔ Q (.ok w.catalog) w
  := Iff.rfl

@[simp]
theorem after_writeState (f : CatalogState → CatalogState) (w : World)
    (Q : Except Failure Unit → World → Prop) :
  After (writeState f) w Q ↔ Q (.ok ()) { w with catalog := f w.catalog }
  := Iff.rfl

@[simp]
theorem returns_bail {α : Type} (message : String) (w : World) (Q : α → World → Prop) :
  Returns (bail message : Op α) w Q
  := returns_throw _ w Q

theorem returns_bail_bind {α β : Type} (message : String) (f : α → Op β) (w : World)
    (Q : β → World → Prop) :
  Returns (bail message >>= f) w Q
  := by
  simp

@[simp]
theorem returns_orBail {α : Type} (x : Except String α) (w : World) (Q : α → World → Prop) :
  Returns (orBail x) w Q ↔ ∀ a, x = .ok a → Q a w
  := by
  cases x with
  | ok a => simp [orBail]
  | error message => simp [orBail]

@[simp]
theorem returns_readState (w : World) (Q : CatalogState → World → Prop) :
  Returns readState w Q ↔ Q w.catalog w
  := by
  simp [Returns]

@[simp]
theorem after_outsideCall (w : World) (Q : Except Failure Nat → World → Prop) :
  After outsideCall w Q ↔ Q (.ok w.calls) { w with calls := w.calls + 1 }
  := Iff.rfl

@[simp]
theorem returns_outsideCall (w : World) (Q : Nat → World → Prop) :
  Returns outsideCall w Q ↔ Q w.calls { w with calls := w.calls + 1 }
  := by
  simp [Returns]

@[simp]
theorem succeeds_outsideCall (w : World) (Q : Nat → World → Prop) :
  Succeeds outsideCall w Q ↔ Q w.calls { w with calls := w.calls + 1 }
  := by
  simp [Succeeds]

@[simp]
theorem succeeds_orBail {α : Type} (x : Except String α) (w : World) (Q : α → World → Prop) :
  Succeeds (orBail x) w Q ↔ ∃ a, x = .ok a ∧ Q a w
  := by
  cases x with
  | ok a => simp [orBail]
  | error message => simp [orBail, Succeeds]

@[simp]
theorem succeeds_readState (w : World) (Q : CatalogState → World → Prop) :
  Succeeds readState w Q ↔ Q w.catalog w
  := by
  simp [Succeeds]

@[simp]
theorem succeeds_writeState (f : CatalogState → CatalogState) (w : World)
    (Q : Unit → World → Prop) :
  Succeeds (writeState f) w Q ↔ Q () { w with catalog := f w.catalog }
  := by
  rw [Succeeds, after_writeState]
  constructor
  · rintro ⟨_, _, h⟩
    apply h
  · intro h
    exact ⟨(), rfl, h⟩

/-- The catalogue with its version bumped. -/
def CatalogState.bump (state : CatalogState) : CatalogState :=
  { state with catalogueVersion := min (state.catalogueVersion + 1) u64Max }

/-- The outcome of writing the catalogue to its file as a call. -/
def Outside.saved (o : Outside) (call : Nat) : Except Failure Unit :=
  match o.catalogPath, o.saveError call with
  | some _, some message => .error (.error message)
  | _, _ => .ok ()

/-- The system after the catalogue is written to its file: one more call was made, when
there is a file. -/
def Outside.afterSave (o : Outside) (w : World) : World :=
  match o.catalogPath with
  | none => w
  | some _ => { w with calls := w.calls + 1 }

@[simp]
theorem Outside.afterSave_catalog (o : Outside) (w : World) :
  (o.afterSave w).catalog = w.catalog
  := by
  unfold Outside.afterSave
  split
  · rfl
  · rfl

@[simp]
theorem Outside.afterSave_permissions (o : Outside) (w : World) :
  (o.afterSave w).permissions = w.permissions
  := by
  unfold Outside.afterSave
  split
  · rfl
  · rfl

@[simp]
theorem after_persistState (o : Outside) (w : World) (Q : Except Failure Unit → World → Prop) :
  After (persistState o) w Q ↔ Q (o.saved w.calls) (o.afterSave w)
  := by
  unfold persistState Outside.saved Outside.afterSave
  cases o.catalogPath with
  | none => exact Iff.rfl
  | some path =>
      simp only [after_bind, after_outsideCall, resume_ok]
      cases o.saveError w.calls with
      | none => exact Iff.rfl
      | some message => exact Iff.rfl

/-- Whether the write succeeds or not, `persist` bumps the version of the catalogue and
changes nothing else of the system but what was sent to the subscribers. -/
theorem after_persist (o : Outside) (w : World) (Q : Except Failure Unit → World → Prop) :
  After (persist o) w Q
    ↔ Resume (fun _ => modify (fun w' =>
          { w' with published := w.catalog.bump.catalogueVersion })) Q
        (o.saved w.calls) (o.afterSave { w with catalog := w.catalog.bump })
  := by
  simp only [persist, after_bind, after_writeState, resume_ok, after_readState,
    after_persistState]
  exact Iff.rfl

/-- Whether the write succeeds or not, an edit that is persisted changes the catalogue and none
of the objects. -/
theorem after_write (o : Outside) (f : CatalogState → CatalogState) (w : World) :
  After (writeState f >>= fun _ => persist o) w (fun _ w' =>
    w'.store = w.store ∧ w'.catalog = (f w.catalog).bump)
  := by
  rw [after_bind, after_writeState, resume_ok, after_persist]
  unfold Outside.saved Outside.afterSave
  cases o.catalogPath with
  | none => exact ⟨rfl, rfl⟩
  | some path =>
      cases o.saveError w.calls with
      | none => exact ⟨rfl, rfl⟩
      | some message => exact ⟨rfl, rfl⟩

/-- An edit that is persisted and then returns a value. -/
theorem after_edit {α : Type} (o : Outside) (f : CatalogState → CatalogState) (a : α) (w : World) :
  After (writeState f >>= fun _ => persist o >>= fun _ => pure a : Op α) w (fun _ w' =>
    w'.store = w.store ∧ w'.catalog = (f w.catalog).bump)
  := by
  rw [← bind_assoc, after_bind]
  apply After.mono (after_write o f w)
  intro r w' h
  cases r with
  | ok _ => exact h
  | error e => exact h

/-- When no write of the catalogue fails, `persist` succeeds. -/
theorem persist_succeeds {o : Outside} (hsave : ∀ n, o.saveError n = none) (w : World) :
  Succeeds (persist o) w (fun _ w' => w'.catalog = w.catalog.bump)
  := by
  have hsaved : o.saved w.calls = .ok () := by
    unfold Outside.saved
    rw [hsave]
    split
    · rename_i h
      cases h
    · rfl
  rw [Succeeds, after_persist, hsaved, resume_ok, after_modify]
  exact ⟨(), rfl, Outside.afterSave_catalog o _⟩

/-- A valid identifier is not empty and has only identifier characters. -/
theorem validateIdentifier_ok {value : String} (h : validateIdentifier value = .ok ()) :
  value.isEmpty = false ∧ value.toList.all isIdentifierChar = true
  := by
  unfold validateIdentifier at h
  split at h
  · cases h
  · rename_i hne
    split at h
    · rename_i hall
      exact ⟨Bool.eq_false_iff.mpr hne, hall⟩
    · cases h

/-- A session stays valid when the users are the same and its schema still exists. -/
theorem validateSession_of_schemas {state state' : CatalogState} {session : SessionContext}
    (husers : state'.users = state.users)
    (hschemas : ∀ d : CatalogDatabase, state.databases[session.database]? = some d →
      d.schemas.contains session.schema = true → ∃ d' : CatalogDatabase,
        state'.databases[session.database]? = some d' ∧ d'.schemas.contains session.schema = true)
    (h : validateSession state session = .ok ()) :
  validateSession state' session = .ok ()
  := by
  have hadmin : userIsAdmin state' = userIsAdmin state := by
    funext user
    rw [userIsAdmin, userIsAdmin, husers]
  unfold validateSession at h ⊢
  rw [husers, hadmin]
  cases huser : state.users[session.user]? with
  | none =>
    rw [huser] at h
    cases h
  | some user =>
    rw [huser] at h
    -- what follows the checks of the user and the role
    have hrest : ∀ {e e' : String},
        (match state.databases[session.database]? with
          | some database =>
            if (!database.schemas.contains session.schema) = true then throw e else pure ()
          | _ => throw e' : Except String Unit) = .ok () →
        (match state'.databases[session.database]? with
          | some database =>
            if (!database.schemas.contains session.schema) = true then throw e else pure ()
          | _ => throw e' : Except String Unit) = .ok () := by
      intro e e' hdatabase
      cases hd : state.databases[session.database]? with
      | none =>
        rw [hd] at hdatabase
        cases hdatabase
      | some d =>
        rw [hd] at hdatabase
        cases hcontains : d.schemas.contains session.schema with
        | false =>
          simp only [hcontains] at hdatabase
          cases hdatabase
        | true =>
          obtain ⟨d', hd', hcontains'⟩ := hschemas d hd hcontains
          simp only [hd', hcontains']
          rfl
    dsimp only at h ⊢
    by_cases hrole : session.role ≠ session.user
    · rw [if_pos hrole] at h ⊢
      cases hr : state.users[session.role]? with
      | none =>
        rw [hr] at h
        cases h
      | some role =>
        rw [hr] at h
        dsimp only at h ⊢
        split at h
        · cases h
        · rename_i hnot
          rw [if_neg hnot]
          apply hrest h
    · rw [if_neg hrole] at h ⊢
      apply hrest h
