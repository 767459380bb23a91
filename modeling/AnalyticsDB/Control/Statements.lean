import AnalyticsDB.Control.Effects
import AnalyticsDB.Control.Grants

/-!
# Metadata statements

The statements the control plane executes itself, and what a statement that fails leaves in the
catalogue: what it found, except when an alteration was rejected after its entry had been taken
out of the catalogue, or the directory of a renamed database could not be moved.
-/

open Eff

/-- The metadata statements, with the data the control plane reads of them. -/
inductive MetadataStatement where
  | createDatabase (name : String)
  | createAggregate (database schema : Option String) (name : String)
  | createCollation (database schema : Option String) (name : String)
  | createConversion (database schema : Option String) (name : String)
  | createSchema (database : Option String) (name : String)
  | alterDatabase (name : String) (operation : AlterDatabaseOperation)
  | alterAggregate (database schema : Option String) (name : String)
      (operation : AlterObjectOperation)
  | alterCollation (database schema : Option String) (name : String)
      (operation : AlterObjectOperation)
  | alterConversion (database schema : Option String) (name : String)
      (operation : AlterObjectOperation)
  | createFunction (database schema : Option String) (name : String) (orReplace : Bool)
      (definitionSql : String)
  | alterFunction (database schema : Option String) (name : String)
      (operation : AlterObjectOperation)
  | dropFunction (database schema : Option String) (name : String) (ifExists cascade : Bool)
  | alterUserPassword (name password : String)
  | createUser (name : String) (password : Option String)
  | dropUser (name : String) (ifExists : Bool)
  | createGroup (name : String)
  | alterGroup (name : String) (operation : AlterGroupOperation)
  | dropGroup (name : String) (ifExists : Bool)
  | begin
  | commit
  | rollback
  | createIndex (database schema : Option String) (table name : String) (columns : List String)
      (unique concurrently : Bool)
  | dropIndex (database schema : Option String) (name : String) (ifExists cascade : Bool)
  | grantPrivilege (permission : ObjectPermission)
  | revokePrivilege (permission : ObjectPermission)
  -- executed by the engine
  | createView | createTableAs | selectInto | createTable | alterIndex | reindex
  | createExternalTable | insertInto | update | delete | truncate | alterTable | alterSchema
  | dropTable | dropView | dropDatabase | dropSchema | killQuery | vacuumTable | vacuumQueryLog
  -- answered from the catalogue by the engine
  | showDatabases | showSchemas | showNodes | showTables | showViews | showColumns
  | informationSchemaSchemata | informationSchemaTables | informationSchemaColumns
  | informationSchemaViews | informationSchemaTableConstraints | informationSchemaKeyColumnUsage
  | informationSchemaConstraintColumnUsage | informationSchemaConstraintTableUsage
  | informationSchemaReferentialConstraints | informationSchemaRoutines
  | informationSchemaParameters | informationSchemaTriggers

section

variable (o : Outside) (session : SessionContext)

/-- Check the session and answer with a message. -/
def validated (message : String) : Op String := do
  let state ← readState
  orBail (validateSession state session)
  return message

/-- Do what a statement asks for and answer with its message. -/
def executeMessage : MetadataStatement → Op String
  | .createDatabase name => createDatabase o session name
  | .createAggregate database schema name => createAggregate o session database schema name
  | .createCollation database schema name => createCollation o session database schema name
  | .createConversion database schema name => createConversion o session database schema name
  | .alterDatabase name operation => alterDatabase o session name operation
  | .alterAggregate database schema name operation =>
    alterAggregate o session database schema name operation
  | .alterCollation database schema name operation =>
    alterCollation o session database schema name operation
  | .alterConversion database schema name operation =>
    alterConversion o session database schema name operation
  | .createFunction database schema name orReplace definitionSql =>
    createFunction o session database schema name orReplace definitionSql
  | .alterFunction database schema name operation =>
    alterFunction o session database schema name operation
  | .dropFunction database schema name ifExists _ =>
    dropFunction o session database schema name ifExists
  | .createSchema database name => createSchema o session database name
  | .alterUserPassword name password => rotateUserPassword o session name password
  | .createUser name password => createUser o session name password
  | .dropUser name ifExists => dropUser o session name ifExists
  | .createGroup name => createGroup o session name
  | .alterGroup name operation => alterGroup o session name operation
  | .dropGroup name ifExists => dropGroup o session name ifExists
  | .begin | .commit | .rollback =>
    validated session "Command completed. 0 row(s) affected."
  | .createIndex database schema table name columns unique _ =>
    createIndex o session database schema table name columns unique
  | .dropIndex database schema name ifExists _ =>
    dropIndex o session database schema name ifExists
  | .grantPrivilege permission => do
    requireAdmin session "grant"
    grantPrivilege o permission
    return "GRANT"
  | .revokePrivilege permission => do
    requireAdmin session "revoke"
    revokePrivilege o permission
    return "REVOKE"
  | .createView | .createTableAs | .selectInto | .createTable | .alterIndex | .reindex
  | .createExternalTable | .insertInto | .update | .delete | .truncate | .alterTable
  | .alterSchema | .dropTable | .dropView | .dropDatabase | .dropSchema | .killQuery
  | .vacuumTable | .vacuumQueryLog =>
    bail "Relation DDL and DML should be handled by the engine persistence flow"
  | .showDatabases | .showSchemas | .showNodes | .showTables | .showViews | .showColumns
  | .informationSchemaSchemata | .informationSchemaTables | .informationSchemaColumns
  | .informationSchemaViews | .informationSchemaTableConstraints
  | .informationSchemaKeyColumnUsage | .informationSchemaConstraintColumnUsage
  | .informationSchemaConstraintTableUsage | .informationSchemaReferentialConstraints
  | .informationSchemaRoutines | .informationSchemaParameters | .informationSchemaTriggers =>
    validated session "Command completed."

/-- The session a statement leaves. -/
def newSession : MetadataStatement → SessionContext
  | .begin => { session with transactionStatus := .inTransaction }
  | .commit | .rollback => { session with transactionStatus := .idle }
  | _ => session

/-- Execute a metadata statement; returned are its message and the session it leaves. -/
def executeMetadataStatement (statement : MetadataStatement) : Op (String × SessionContext) := do
  let message ← executeMessage o session statement
  return (message, newSession session statement)

end

/-- The operation on the catalogue a statement is. -/
def MetadataStatement.operation : MetadataStatement → Option ControlOp
  | .createDatabase name => some (.createDatabase name)
  | .createAggregate database schema name => some (.createAggregate database schema name)
  | .createCollation database schema name => some (.createCollation database schema name)
  | .createConversion database schema name => some (.createConversion database schema name)
  | .createSchema database name => some (.createSchema database name)
  | .alterDatabase name operation => some (.alterDatabase name operation)
  | .alterAggregate database schema name operation =>
    some (.alterAggregate database schema name operation)
  | .alterCollation database schema name operation =>
    some (.alterCollation database schema name operation)
  | .alterConversion database schema name operation =>
    some (.alterConversion database schema name operation)
  | .createFunction database schema name orReplace definitionSql =>
    some (.createFunction database schema name orReplace definitionSql)
  | .alterFunction database schema name operation =>
    some (.alterFunction database schema name operation)
  | .dropFunction database schema name ifExists _ =>
    some (.dropFunction database schema name ifExists)
  | .alterUserPassword name password => some (.rotateUserPassword name password)
  | .createUser name password => some (.createUser name password)
  | .dropUser name ifExists => some (.dropUser name ifExists)
  | .createGroup name => some (.createGroup name)
  | .alterGroup name operation => some (.alterGroup name operation)
  | .dropGroup name ifExists => some (.dropGroup name ifExists)
  | .createIndex database schema table name columns unique _ =>
    some (.createIndex database schema table name columns unique)
  | .dropIndex database schema name ifExists _ => some (.dropIndex database schema name ifExists)
  | _ => none

namespace ObjectKind

variable {β : Type} (kind : ObjectKind β)

/-- The entry an alteration asks for. -/
def requested (entry : β) : AlterObjectOperation → β
  | .rename newName => kind.setName newName entry
  | .ownerTo newOwner => (kind.setOwner.map (fun setOwner => setOwner newOwner entry)).getD entry
  | .setSchema newSchema => kind.setSchema newSchema entry

/-- The catalogue does not allow an alteration: the new name or schema is no identifier, the new
owner or the new schema does not exist. -/
def Rejects (state : CatalogState) (entry : β) : AlterObjectOperation → Prop
  | .rename newName => validateIdentifier newName ≠ .ok ()
  | .ownerTo newOwner => kind.setOwner.isSome = true ∧ state.users.contains newOwner = false
  | .setSchema newSchema => validateIdentifier newSchema ≠ .ok ()
    ∨ ∀ database : CatalogDatabase, state.databases[kind.database entry]? = some database →
        database.schemas.contains newSchema = false

/-- An alteration in a valid session of an entry that exists is rejected, or changes it so that
its new key is that of another entry. -/
def Damages (state : CatalogState) (session : SessionContext) (key : String)
    (operation : AlterObjectOperation) : Prop :=
  validateSession state session = .ok () ∧ ∃ entry, (kind.entries state)[key]? = some entry
    ∧ (kind.Rejects state entry operation
      ∨ kind.Collides state key (kind.requested entry operation)
        ∧ kind.requested entry operation ≠ entry)

/-- The code makes the requested entry unless the catalogue does not allow it. -/
theorem altered_eq (state : CatalogState) (entry : β) (operation : AlterObjectOperation) :
  (kind.Rejects state entry operation
      ∧ ∃ message, kind.altered state entry operation = .error message)
    ∨ ¬ kind.Rejects state entry operation
      ∧ kind.altered state entry operation = .ok (kind.requested entry operation)
  := by
  cases operation with
  | rename newName =>
      cases hname : validateIdentifier newName with
      | ok _ =>
          right
          simp only [Rejects, altered, hname]
          exact ⟨fun h => h rfl, rfl⟩
      | error message =>
          left
          simp only [Rejects, altered, hname]
          exact ⟨by simp, message, rfl⟩
  | ownerTo newOwner =>
      cases hsetOwner : kind.setOwner with
      | none =>
          right
          simp only [Rejects, altered, requested, hsetOwner]
          exact ⟨by simp, rfl⟩
      | some setOwner =>
          cases howner : state.users.contains newOwner with
          | true =>
              right
              simp only [Rejects, altered, requested, hsetOwner, howner]
              exact ⟨by simp, rfl⟩
          | false =>
              left
              simp only [Rejects, altered, hsetOwner, howner]
              exact ⟨by simp, _, rfl⟩
  | setSchema newSchema =>
      cases hname : validateIdentifier newSchema with
      | error message =>
          left
          simp only [Rejects, altered, hname]
          exact ⟨by simp, message, rfl⟩
      | ok _ =>
          cases hdatabase : state.databases[kind.database entry]? with
          | none =>
              left
              simp only [Rejects, altered, hname, hdatabase]
              exact ⟨by simp, _, rfl⟩
          | some database =>
              cases hschema : database.schemas.contains newSchema with
              | true =>
                  right
                  simp only [Rejects, altered, hname, hdatabase, hschema]
                  exact ⟨by simp [hschema], rfl⟩
              | false =>
                  left
                  simp only [Rejects, altered, hname, hdatabase, hschema]
                  exact ⟨by simp [hschema], _, rfl⟩

/-- A catalogue from which an entry was taken is another one. -/
theorem setEntries_erase_ne {state : CatalogState} {key : String} {entry : β}
    (hentry : (kind.entries state)[key]? = some entry) :
  kind.setEntries ((kind.entries state).erase key) state ≠ state
  := by
  intro h
  have hentries := congrArg (fun s => (kind.entries s)[key]?) h
  simp only [kind.entries_setEntries, KeyMap.get_erase, if_true, hentry] at hentries
  cases hentries

/-- A catalogue in which an entry was replaced is the same one exactly when the new entry is the
old one. -/
theorem setEntries_replace_eq_iff {state : CatalogState} {key : String} {entry altered : β}
    (hentry : (kind.entries state)[key]? = some entry) :
  kind.setEntries (((kind.entries state).erase key).insert key altered) state = state
    ↔ altered = entry
  := by
  constructor
  · intro h
    have hentries := congrArg (fun s => (kind.entries s)[key]?) h
    simp only [kind.entries_setEntries, KeyMap.get_insert, if_true, hentry] at hentries
    cases hentries
    rfl
  · rintro rfl
    have hentries : ((kind.entries state).erase key).insert key altered = kind.entries state := by
      apply Std.ExtTreeMap.ext_getElem?
      intro other
      rw [KeyMap.get_insert, KeyMap.get_erase]
      split
      · rename_i hkey
        rw [← hkey, hentry]
      · rfl
    rw [hentries, kind.setEntries_entries]

/-- What is left behind differs from what was found only when an alteration damages it. -/
theorem Spoils.damages {state state' : CatalogState} {session : SessionContext} {key : String}
    {operation : AlterObjectOperation} (h : kind.Spoils state session key operation state')
    (hne : state' ≠ state) :
  kind.Damages state session key operation
  := by
  obtain ⟨hsession, entry, hentry, hspoiled⟩ := h
  refine ⟨hsession, entry, hentry, ?_⟩
  obtain ⟨hrejects, -⟩ | ⟨-, haltered⟩ := kind.altered_eq state entry operation
  · exact .inl hrejects
  · obtain ⟨message, hmessage, -⟩ | ⟨altered, hok, hcollides, rfl⟩ := hspoiled
    · rw [haltered] at hmessage
      cases hmessage
    · rw [haltered] at hok
      cases hok
      refine .inr ⟨hcollides, ?_⟩
      intro hsame
      exact hne ((kind.setEntries_replace_eq_iff hentry).mpr hsame)

/-- An alteration that damages the catalogue fails and leaves another one. -/
theorem alter_damages (o : Outside) (session : SessionContext) {key : String}
    {operation : AlterObjectOperation} {w : World}
    (h : kind.Damages w.catalog session key operation) :
  After (kind.alter o session key operation) w (fun r w' =>
    (∃ message, r = .error (.error message)) ∧ w'.catalog ≠ w.catalog)
  := by
  obtain ⟨hsession, entry, hentry, hdamage⟩ := h
  simp only [alter, after_bind, after_readState, resume_ok, hsession, orBail, after_pure, hentry,
    after_writeState]
  obtain ⟨-, message, haltered⟩ | ⟨haccepts, haltered⟩ := kind.altered_eq w.catalog entry operation
  · rw [haltered]
    exact ⟨⟨message, rfl⟩, kind.setEntries_erase_ne hentry⟩
  · obtain ⟨hcollides, hne⟩ := hdamage.resolve_left haccepts
    simp only [haltered, after_pure, resume_ok]
    unfold Collides at hcollides
    rw [if_pos hcollides, after_bind, after_writeState, resume_ok, kind.setEntries_setEntries]
    refine ⟨⟨_, rfl⟩, ?_⟩
    intro hsame
    exact hne ((kind.setEntries_replace_eq_iff hentry).mp hsame)

end ObjectKind

/-- A database is renamed in the catalogue and its directory cannot be. -/
def RenameDamages (o : Outside) (session : SessionContext) (name newName : String) (w : World) :
    Prop :=
  validateIdentifier name = .ok () ∧ validateSession w.catalog session = .ok ()
    ∧ userIsAdmin w.catalog session.user = true ∧ validateIdentifier newName = .ok ()
    ∧ w.catalog.databases.contains newName = false ∧ w.catalog.databases.contains name = true
    ∧ DirectoryStays o name newName w

/-- A renamed catalogue is another one. -/
theorem renameDatabaseState_ne {state : CatalogState} {name newName : String}
    (hnew : state.databases.contains newName = false) (database : CatalogDatabase) :
  renameDatabaseState name newName database state ≠ state
  := by
  intro h
  have hdatabases := congrArg (fun s => s.databases.contains newName) h
  simp [renameDatabaseState, hnew] at hdatabases

/-- Renaming the directory of a database does not panic. -/
theorem after_renameDatabaseDirectory_error (o : Outside) (name newName : String) (w : World) :
  After (renameDatabaseDirectory o name newName) w (fun r _ =>
    ∀ e, r = .error e → ∃ message, e = .error message)
  := by
  unfold renameDatabaseDirectory renameDirectory
  cases databasesRoot o with
  | none => simp
  | some root =>
      simp only [after_bind, after_get, resume_ok, after_ite, after_outsideCall]
      cases o.storeError w.calls with
      | some e => simp
      | none =>
          simp only [after_bind, after_get, resume_ok, after_ite, after_bail]
          simp [After]

theorem alterDatabase_damages (o : Outside) (session : SessionContext) {name newName : String}
    {w : World} (h : RenameDamages o session name newName w) :
  After (alterDatabase o session name (.rename newName)) w (fun r w' =>
    (∃ message, r = .error (.error message)) ∧ w'.catalog ≠ w.catalog)
  := by
  obtain ⟨hname, hsession, hadmin, hnewName, hnew, hold, hstays⟩ := h
  rw [Std.ExtTreeMap.contains_eq_isSome_getElem?] at hold
  obtain ⟨database, hdatabase⟩ := Option.isSome_iff_exists.mp hold
  simp only [alterDatabase, after_bind, hname, orBail, after_pure, resume_ok, after_readState,
    hsession, hadmin, hnewName, hnew, hdatabase]
  simp only [Bool.not_true, Bool.false_eq_true, if_false, after_bind, after_pure, resume_ok,
    after_writeState]
  apply After.mono (After.and (after_renameDatabaseDirectory o _ name newName)
    (after_renameDatabaseDirectory_error o name newName _))
  rintro r w' ⟨⟨hcatalog, -, -, hfails⟩, herror⟩
  obtain ⟨e, rfl⟩ := hfails.mpr hstays
  obtain ⟨message, rfl⟩ := herror e rfl
  rw [resume_error, hcatalog]
  exact ⟨⟨message, rfl⟩, renameDatabaseState_ne hnew database⟩

/-- A database is altered only in a valid session of an administrator. -/
theorem alterDatabase_guarded (o : Outside) (session : SessionContext) (name : String)
    (operation : AlterDatabaseOperation) {w : World}
    (h : ¬ (validateSession w.catalog session = .ok ()
      ∧ userIsAdmin w.catalog session.user = true)) :
  After (alterDatabase o session name operation) w (fun _ w' => w'.catalog = w.catalog)
  := by
  rw [alterDatabase, after_bind, after_orBail]
  refine ⟨fun _ _ => rfl, fun _ _ => ?_⟩
  rw [resume_ok, after_bind, after_readState, resume_ok, after_bind, after_orBail]
  refine ⟨fun _ _ => rfl, fun _ hsession => ?_⟩
  rw [resume_ok, after_ite]
  refine ⟨fun _ => rfl, fun hadmin => ?_⟩
  rw [Bool.not_eq_true', Bool.not_eq_false] at hadmin
  exact absurd ⟨hsession, hadmin⟩ h

/-- A database that is renamed in the catalogue alone damages it. -/
theorem ControlOp.Spoil.renameDamages {o : Outside} {session : SessionContext}
    {name newName : String} {w : World} {state' : CatalogState}
    (hspoil : ControlOp.Spoil session o w (.alterDatabase name (.rename newName)) state')
    (hguard : validateSession w.catalog session = .ok ()
      ∧ userIsAdmin w.catalog session.user = true) :
  RenameDamages o session name newName w
  := by
  obtain ⟨⟨database, hname, hnewName, hdatabase, hnew, -⟩, hstays⟩ := hspoil
  refine ⟨hname, hguard.1, hguard.2, hnewName, hnew, ?_, hstays⟩
  rw [Std.ExtTreeMap.contains_eq_isSome_getElem?, hdatabase]
  rfl

/-- A statement fails after it changed the catalogue. -/
def MetadataStatement.Damages (o : Outside) (session : SessionContext) (w : World) :
    MetadataStatement → Prop
  | .alterDatabase name (.rename newName) => RenameDamages o session name newName w
  | .alterAggregate database schema name operation =>
    aggregateKind.Damages w.catalog session (objectKey session database schema name) operation
  | .alterCollation database schema name operation =>
    collationKind.Damages w.catalog session (objectKey session database schema name) operation
  | .alterFunction database schema name operation =>
    functionKind.Damages w.catalog session (objectKey session database schema name) operation
  | _ => False

section

variable (o : Outside) (session : SessionContext) (statement : MetadataStatement) (w : World)

/-- A statement that is an operation on the catalogue performs it. -/
theorem executeMessage_operation {op : ControlOp} (hop : statement.operation = some op) :
  executeMessage o session statement = performOp o session op
  := by
  cases statement
  all_goals
    cases hop
    try rfl

theorem after_validated (message : String) :
  After (validated session message) w (fun _ w' => w'.catalog = w.catalog)
  := by
  rw [validated, after_bind, after_readState, resume_ok, after_bind, after_orBail]
  exact ⟨fun _ _ => rfl, fun _ _ => rfl⟩

/-- A change of the grants leaves the catalogue alone. -/
theorem after_changeGrants (f : World → World) (hf : ∀ w : World, (f w).catalog = w.catalog) :
  After (if o.storesGrants then do
      catalogCall o
      modify f
    else
      pure () : Op Unit) w (fun _ w' => w'.catalog = w.catalog)
  := by
  simp only [after_ite, after_pure, implies_true, and_true, catalogCall, after_bind,
    after_outsideCall, resume_ok]
  intro _
  cases o.saveError w.calls with
  | some message => rfl
  | none => apply hf

/-- So does one for which only administrators may ask. -/
theorem after_byAdministrator (change message : String) {m : Op Unit}
    (hm : After m w (fun _ w' => w'.catalog = w.catalog)) :
  After (do
    requireAdmin session change
    m
    return message : Op String) w (fun _ w' => w'.catalog = w.catalog)
  := by
  simp only [requireAdmin, after_bind, after_readState, resume_ok, after_ite, after_bail,
    resume_error, after_pure, implies_true, true_and]
  intro _ _
  apply After.mono hm
  intro r w' hcatalog
  cases r with
  | ok _ => exact hcatalog
  | error e => exact hcatalog

/-- Any other statement leaves the catalogue alone. -/
theorem executeMessage_keeps (hop : statement.operation = none) :
  After (executeMessage o session statement) w (fun _ w' => w'.catalog = w.catalog)
  := by
  cases statement
  case grantPrivilege permission =>
    apply after_byAdministrator
    apply after_changeGrants
    intro w
    rfl
  case revokePrivilege permission =>
    apply after_byAdministrator
    apply after_changeGrants
    intro w
    rfl
  all_goals
    first
      | cases hop
        done
      | apply after_validated
      | rfl

/-- What an operation leaves behind differs from what it found only when the statement damages the
catalogue. -/
theorem ControlOp.Spoil.damages {op : ControlOp} (hop : statement.operation = some op)
    {state' : CatalogState} (hspoil : op.Spoil session o w state') (hne : state' ≠ w.catalog)
    (hguard : ∀ name operation, op = .alterDatabase name operation →
      validateSession w.catalog session = .ok () ∧ userIsAdmin w.catalog session.user = true) :
  statement.Damages o session w
  := by
  cases statement with
  | alterDatabase name operation =>
      cases hop
      cases operation with
      | rename newName => exact hspoil.renameDamages (hguard name _ rfl)
      | _ => cases hspoil
  | alterAggregate database schema name operation =>
      cases hop
      exact ObjectKind.Spoils.damages aggregateKind hspoil hne
  | alterCollation database schema name operation =>
      cases hop
      exact ObjectKind.Spoils.damages collationKind hspoil hne
  | alterFunction database schema name operation =>
      cases hop
      exact ObjectKind.Spoils.damages functionKind hspoil hne
  | _ =>
      cases hop
      try cases hspoil

/-- What a statement that fails leaves is what it found, unless it damages the catalogue. -/
theorem executeMessage_atomic (hsave : ∀ call, o.saveError call = none)
    (hdamages : ¬ statement.Damages o session w) :
  After (executeMessage o session statement) w (fun r w' =>
    ∀ e, r = .error e → w'.catalog = w.catalog)
  := by
  have hsaves : ¬ o.SaveFails := by
    rintro ⟨call, message, hmessage⟩
    rw [hsave] at hmessage
    cases hmessage
  cases hop : statement.operation with
  | none =>
      apply After.mono (executeMessage_keeps o session statement w hop)
      intro _ _ hsame _ _
      exact hsame
  | some op =>
      rw [executeMessage_operation o session statement hop]
      by_cases hguard : ∀ name operation, op = .alterDatabase name operation →
          validateSession w.catalog session = .ok () ∧ userIsAdmin w.catalog session.user = true
      · apply After.mono (performOp_performs o session w op)
        rintro r w' ⟨-, houtcome⟩ e rfl
        cases houtcome with
        | same hcatalog _ => exact hcatalog
        | unsaved _ _ _ _ hfails => exact absurd hfails hsaves
        | quiet _ _ hfails => exact absurd (hfails e rfl) hsaves
        | spoiled hspoil _ =>
            by_contra hne
            exact hdamages (hspoil.damages o session statement w hop hne hguard)
      · push Not at hguard
        obtain ⟨name, operation, rfl, hguard⟩ := hguard
        apply After.mono (alterDatabase_guarded o session name operation (not_and.mpr hguard))
        intro _ _ hsame _ _
        exact hsame

/-- A statement that damages the catalogue fails and leaves another one. -/
theorem executeMessage_damages (hdamages : statement.Damages o session w) :
  After (executeMessage o session statement) w (fun r w' =>
    (∃ message, r = .error (.error message)) ∧ w'.catalog ≠ w.catalog)
  := by
  cases statement with
  | alterDatabase name operation =>
      cases operation with
      | rename newName => exact alterDatabase_damages o session hdamages
      | _ => cases hdamages
  | alterAggregate database schema name operation =>
      exact aggregateKind.alter_damages o session hdamages
  | alterCollation database schema name operation =>
      exact collationKind.alter_damages o session hdamages
  | alterFunction database schema name operation =>
      exact functionKind.alter_damages o session hdamages
  | _ => cases hdamages

/-- A statement that fails leaves the catalogue it found exactly when it does not damage it. -/
theorem executeMetadataStatement_atomic_iff (hsave : ∀ call, o.saveError call = none) :
  After (executeMetadataStatement o session statement) w (fun r w' =>
      ∀ message, r = .error (.error message) → w'.catalog = w.catalog)
    ↔ ¬ statement.Damages o session w
  := by
  rw [executeMetadataStatement, after_bind]
  constructor
  · intro hatomic hdamages
    obtain ⟨⟨message, hfailed⟩, hne⟩ := executeMessage_damages o session statement w hdamages
    unfold After at hatomic
    rw [hfailed, resume_error] at hatomic
    exact hne (hatomic message rfl)
  · intro hdamages
    apply After.mono (executeMessage_atomic o session statement w hsave hdamages)
    intro r w' hatomic
    cases r with
    | ok message => simp
    | error e =>
        intro _ _
        exact hatomic e rfl

end

/-- Creating a database that exists fails and changes nothing. -/
theorem executeMetadataStatement_atomic_createDatabase :
  exec (executeMetadataStatement Outside.faultless {} (.createDatabase "postgres")) World.bootstrap
      = (.error (.error "Database 'postgres' already exists"), World.bootstrap)
    ∧ After (executeMetadataStatement Outside.faultless {} (.createDatabase "postgres"))
      World.bootstrap (fun r w' => ∀ message, r = .error (.error message) →
        w'.catalog = World.bootstrap.catalog)
  := by
  constructor
  · rfl
  · apply (executeMetadataStatement_atomic_iff Outside.faultless {} (.createDatabase "postgres")
      World.bootstrap (fun _ => rfl)).mpr
    intro hdamages
    cases hdamages

/-- An aggregate whose new owner does not exist is gone. -/
theorem alterAggregate_loses_entry :
  ∃ w, (∀ call, Outside.faultless.saveError call = none)
    ∧ ¬ After (executeMetadataStatement Outside.faultless {}
      (.alterAggregate none none "f" (.ownerTo "eve"))) w (fun r w' =>
        ∀ message, r = .error (.error message) → w'.catalog = w.catalog)
  := by
  refine ⟨(exec (executeMetadataStatement Outside.faultless {} (.createAggregate none none "f"))
    World.bootstrap).2, fun _ => rfl, ?_⟩
  intro hatomic
  have hfailed : (exec (executeMetadataStatement Outside.faultless {}
      (.alterAggregate none none "f" (.ownerTo "eve")))
      (exec (executeMetadataStatement Outside.faultless {} (.createAggregate none none "f"))
        World.bootstrap).2).1 = .error (.error "User 'eve' does not exist") := by
    decide
  have hgone := congrArg (fun state => state.aggregates.contains "postgres.public.f")
    (hatomic _ hfailed)
  revert hgone
  decide
