import AnalyticsDB.Control.Grants
import AnalyticsDB.Engine.Mutations
import AnalyticsDB.Engine.RenameRuns

/-!
# Privileges on tables

Grants are rows of a table of their own, beside the catalogue, keyed by the name of the role
and the qualified name of the object.  What is proved is what a history of statements leaves
there: a row is in the table exactly when it was granted and not revoked since, whatever
happened to the tables and the users of these names.
-/

/-- The fully qualified name of the table a statement names. -/
def qualifyGrantObjectName (name : String) (session : SessionContext) : String :=
  match (name.toList.splitOn '.').map String.ofList with
  | [table] => session.database ++ "." ++ session.schema ++ "." ++ table
  | [schema, table] => session.database ++ "." ++ schema ++ "." ++ table
  | [database, schema, table] => database ++ "." ++ schema ++ "." ++ table
  | _ => name

/-- The permission a statement names, its object qualified when it is a table. -/
def qualifiedPermission (session : SessionContext) (permission : ObjectPermission) :
    ObjectPermission :=
  if permission.objectType = "table" then
    { permission with
      objectName := qualifyGrantObjectName permission.objectName session }
  else
    permission

section

variable (o : Outside) (session : SessionContext)

def executeGrant (permission : ObjectPermission) : Op String := do
  requireAdmin session "grant"
  grantPrivilege o (qualifiedPermission session permission)
  return "GRANT"

def executeRevoke (permission : ObjectPermission) : Op String := do
  requireAdmin session "revoke"
  revokePrivilege o (qualifiedPermission session permission)
  return "REVOKE"

/-- Administrators may do anything; the role of anybody else needs a grant. -/
def checkTableAccess (tableName privilege : String) : Op Unit := do
  let state ← readState
  if userIsAdmin state session.user then
    pure ()
  else
    let granted ← checkPrivilege o session.role "table" tableName privilege
    if granted then
      pure ()
    else
      bail s!"permission denied for table {tableName}"

end

/-! ### Histories -/

/-- The statements of a history. -/
inductive HistoryOp where
  | grant (permission : ObjectPermission)
  | revoke (permission : ObjectPermission)
  | createTable (database schema : Option String) (name : String) (statement : CreateStatement)
  | dropTable (database schema : Option String) (name : String) (ifExists : Bool)
  | rename (statement : RenameStatement)
  | control (op : ControlOp)

/-- A statement of a history, with the session it was executed in and whether it returned. -/
structure Event where
  session : SessionContext
  op : HistoryOp
  returned : Bool

section

variable (o : Outside) (df : DataFusion)

def performHistoryOp (session : SessionContext) : HistoryOp → Op String
  | .grant permission => executeGrant o session permission
  | .revoke permission => executeRevoke o session permission
  | .createTable database schema name statement =>
    executeCreate o df session database schema name statement
  | .dropTable database schema name ifExists =>
    executeDropTable o session database schema name ifExists
  | .rename statement => executeRename o session statement
  | .control op => performOp o session op

/-- What a history of statements, starting from a new installation without grants, leads
to. -/
inductive History : List Event → World → Prop
  | start {w : World} : Initial w → w.permissions = [] → History [] w
  | step {events : List Event} {w : World} (session : SessionContext) (op : HistoryOp) :
      History events w →
      History (events ++ [⟨session, op, (Eff.exec (performHistoryOp o df session op) w).1.isOk⟩])
        (Eff.exec (performHistoryOp o df session op) w).2

end

/-- The event is a grant of the permission that returned. -/
def Event.Grants (event : Event) (permission : ObjectPermission) : Prop :=
  event.returned = true ∧ ∃ named, event.op = .grant named
    ∧ qualifiedPermission event.session named = permission

/-- The event is a revocation of the permission that returned. -/
def Event.Revokes (event : Event) (permission : ObjectPermission) : Prop :=
  event.returned = true ∧ ∃ named, event.op = .revoke named
    ∧ qualifiedPermission event.session named = permission

/-- The event drops the role the permission is granted to, or drops or renames the table it is
granted on. -/
def Event.Ends (event : Event) (permission : ObjectPermission) : Prop :=
  event.returned = true ∧ match event.op with
    | .control (.dropUser name _) => name = permission.grantee
    | .dropTable database schema name _ | .rename (.ofTable database schema name _) =>
      relationKey (database.getD event.session.database) (schema.getD event.session.schema) name
        = permission.objectName
    | _ => False

/-- Some event starts what no later event ends. -/
def LastsIn (starts ends : Event → Prop) (events : List Event) : Prop :=
  ∃ before event after, events = before ++ event :: after ∧ starts event
    ∧ ∀ later ∈ after, ¬ ends later

/-- The permission was granted and not revoked since. -/
def GrantedIn (events : List Event) (permission : ObjectPermission) : Prop :=
  LastsIn (·.Grants permission) (·.Revokes permission) events

/-- The permission was granted and not revoked since, and neither its role nor its table was
dropped or renamed since. -/
def GrantedToCurrent (events : List Event) (permission : ObjectPermission) : Prop :=
  LastsIn (·.Grants permission) (fun event => event.Revokes permission ∨ event.Ends permission)
    events

/-! ### What each statement does to the grants -/

section

open Eff

variable (o : Outside) (session : SessionContext)

theorem leads_of_modifies {α : Type} {touched : OPath → Prop} {m : Op α}
    (hm : ModifiesOnly touched m) (w : World) :
  Leads m w
  := by
  apply leads_of_same
  apply After.mono (hm w)
  intro r w' hframe
  exact ⟨hframe.catalog, hframe.permissions⟩

theorem moveTable_leads (move : TableMove) (w : World) :
  Leads (moveTable o session move) w
  := by
  unfold moveTable
  split
  · apply leads_pure
  · rw [leads_orBail]
    intro old _
    rw [leads_orBail]
    intro new _
    apply leads_bind _ (leads_of_modifies (renamePrefix_modifies o old new) w)
    intro _ w₁
    apply leads_bind _ (performOp_leads o session w₁ (.updateRelationStoragePath _ _ _ _))
    intro _ w₂
    apply leads_pure

theorem moveTables_leads (moves : List TableMove) (w : World) :
  Leads (moveTables o session moves) w
  := by
  induction moves generalizing w with
  | nil => apply leads_pure
  | cons move moves ih =>
      apply leads_bind _ (moveTable_leads o session move w)
      intro _ w'
      apply ih

theorem executeRename_leads (statement : RenameStatement) (w : World) :
  Leads (executeRename o session statement) w
  := by
  cases statement with
  | ofTable database schema name newName =>
      apply leads_bind _ (leads_of_modifies
        (tableRelation_modifies (fun _ => True) session database schema name) w)
      intro relation w₁
      apply leads_bind _ (performOp_leads o session w₁
        (.renameRelation database schema name newName))
      intro _ w₂
      apply leads_bind _ (moveTable_leads o session _ w₂)
      intro _ w₃
      apply leads_pure
  | ofSchema database name newName =>
      have hlist : Leads (listRelations session database (some name) .table) w := by
        apply leads_of_same
        apply After.mono (after_listRelations database (some name))
        rintro r w' ⟨rfl, -⟩
        exact ⟨rfl, rfl⟩
      apply leads_bind _ hlist
      intro relations w₁
      apply leads_bind _ (performOp_leads o session w₁ (.renameSchema database name newName))
      intro _ w₂
      apply leads_bind _ (moveTables_leads o session _ w₂)
      intro _ w₃
      apply leads_pure
  | ofDatabase name newName =>
      have hlist : Leads (listRelationsForDatabase session name .table) w := by
        apply leads_of_same
        apply After.mono (after_listRelationsForDatabase name)
        rintro r w' ⟨rfl, -⟩
        exact ⟨rfl, rfl⟩
      apply leads_bind _ hlist
      intro relations w₁
      apply leads_bind _ (performOp_leads o session w₁ (.alterDatabase name (.rename newName)))
      intro message w₂
      apply leads_bind _ (moveTables_leads o session _ w₂)
      intro _ w₃
      apply leads_pure

theorem executeDropTable_leads (database schema : Option String) (name : String)
    (ifExists : Bool) (w : World) :
  Leads (executeDropTable o session database schema name ifExists) w
  := by
  have htarget : ∀ w, Leads (dropTarget session database schema name ifExists) w := by
    intro w
    rw [dropTarget]
    apply leads_bind
    · apply leads_of_same
      rw [after_attempt]
      apply After.mono (findRelation_keeps session database schema name w)
      rintro r w' rfl
      exact ⟨rfl, rfl⟩
    · intro found w₁
      cases found with
      | ok relation =>
          simp only [leads_ite, leads_bail_bind, leads_pure, implies_true, and_self]
      | error e =>
          simp only [leads_ite, leads_bail, leads_pure, implies_true, and_self]
  have hdrop : ∀ w, Leads (dropRelation o session database schema name .table ifExists) w := by
    intro w
    exact performOp_leads o session w (.dropRelation database schema name .table ifExists)
  have hdelete : ∀ relation w, Leads (deleteManagedObjects o relation) w := by
    intro relation w
    unfold deleteManagedObjects
    split
    · rw [leads_orBail]
      intro base _
      apply leads_of_modifies (deletePrefix_modifies o base) w
    · apply leads_pure
  apply leads_bind _ (htarget w)
  intro relation w₁
  cases relation with
  | none =>
      dsimp only
      apply hdrop
  | some relation =>
      apply leads_bind _ (hdelete relation w₁)
      intro _ w₂
      apply hdrop

theorem createManagedTable_leads {α : Type} (database schema : Option String) (name : String)
    {write : OPath → Op (List CatalogColumn × List CatalogTableConstraint × α)}
    (hwrite : ∀ base w, Leads (write base) w) (w : World) :
  Leads (createManagedTable o session database schema name write) w
  := by
  rw [createManagedTable]
  apply leads_bind
  · simp only [managedTableStorageLocation, leads_orBail, leads_readState, leads_pure, implies_true]
  · intro location w₁
    rw [leads_orBail]
    intro base _
    apply leads_bind _ (hwrite base w₁)
    intro written w₂
    apply leads_bind _ (performOp_leads o session w₂ (.registerManagedTable _ _ _ _ _ _))
    intro created w₃
    apply leads_pure

theorem leads_of_wrote {α : Type} {base : OPath} {files : World → Option Nat} {m : Op α}
    (hm : ∀ w, After m w (Wrote base (files w) w)) (w : World) :
  Leads m w
  := by
  apply leads_of_same
  apply After.mono (hm w)
  intro r w' hwrote
  exact ⟨hwrote.touched.catalog, hwrote.touched.permissions⟩

theorem executeCreate_leads (df : DataFusion) (database schema : Option String) (name : String)
    (statement : CreateStatement) (w : World) :
  Leads (executeCreate o df session database schema name statement) w
  := by
  have hquery : ∀ querySql base w, Leads (writeQueryResult o df querySql base) w := by
    intro querySql base
    apply leads_of_wrote (after_writeQueryResult o df querySql base)
  cases statement with
  | createTable columns constraints =>
      have hdefinition : ∀ base w, Leads (writeDefinition o df columns constraints base) w := by
        intro base
        apply leads_of_wrote (after_writeDefinition o df columns constraints base)
      apply leads_bind _ (createManagedTable_leads o session database schema name hdefinition w)
      rintro ⟨created, _⟩ w₁
      apply leads_bind _ (leads_of_modifies
        (tableRelation_modifies (fun _ => True) session database schema name) w₁)
      intro relation w₂
      apply leads_bind
      · apply leads_bind _ (leads_of_modifies
          (tableStorePrefix_modifies o (fun _ => True) relation) w₂)
        intro base w₃
        apply leads_of_modifies (rebuildIndexSnapshots_modifies o df session relation base _)
      · intro _ w₃
        apply leads_pure
  | createTableAs querySql =>
      apply leads_bind _ (createManagedTable_leads o session database schema name
        (hquery querySql) w)
      intro created w₁
      apply leads_pure
  | selectInto querySql =>
      apply leads_bind _ (createManagedTable_leads o session database schema name
        (hquery querySql) w)
      intro created w₁
      apply leads_pure

theorem after_requireAdmin (change : String) (w : World) :
  After (requireAdmin session change) w (fun _ w' => w' = w)
  := by
  simp only [requireAdmin, after_bind, after_readState, resume_ok, after_ite, after_bail,
    resume_error, after_pure, implies_true, and_self]

/-- A change of the grants that fails leaves them as they are. -/
theorem after_change {change : String} {edit : Op Unit} {message : String}
    {f : List ObjectPermission → List ObjectPermission}
    (hedit : ∀ w, After edit w (fun r w' =>
      w'.permissions = if r.isOk then f w.permissions else w.permissions)) (w : World) :
  After (do requireAdmin session change; edit; return message) w (fun r w' =>
    w'.permissions = if r.isOk then f w.permissions else w.permissions)
  := by
  rw [after_bind]
  apply After.mono (after_requireAdmin session change w)
  rintro r w' rfl
  cases r with
  | error e => rfl
  | ok _ =>
      rw [resume_ok, after_bind]
      apply After.mono (hedit w')
      intro r w'' h
      cases r with
      | error e => exact h
      | ok _ => exact h

theorem after_grantPrivilege (hstores : o.storesGrants = true) (permission : ObjectPermission)
    (w : World) :
  After (grantPrivilege o permission) w (fun r w' => w'.permissions =
    if r.isOk then permission :: w.permissions.filter (· ≠ permission) else w.permissions)
  := by
  rw [grantPrivilege, if_pos hstores]
  simp only [catalogCall, after_bind, after_outsideCall, resume_ok]
  cases o.saveError w.calls with
  | none => rfl
  | some message => rfl

theorem after_revokePrivilege (hstores : o.storesGrants = true) (permission : ObjectPermission)
    (w : World) :
  After (revokePrivilege o permission) w (fun r w' => w'.permissions =
    if r.isOk then w.permissions.filter (· ≠ permission) else w.permissions)
  := by
  rw [revokePrivilege, if_pos hstores]
  simp only [catalogCall, after_bind, after_outsideCall, resume_ok]
  cases o.saveError w.calls with
  | none => rfl
  | some message => rfl

theorem after_executeGrant (hstores : o.storesGrants = true) (permission : ObjectPermission)
    (w : World) :
  After (executeGrant o session permission) w (fun r w' =>
    w'.permissions = if r.isOk then
        qualifiedPermission session permission
          :: w.permissions.filter (· ≠ qualifiedPermission session permission)
      else w.permissions)
  := by
  have hgrant := after_grantPrivilege o hstores (qualifiedPermission session permission)
  exact @after_change session "grant" _ "GRANT" (fun permissions =>
    qualifiedPermission session permission
      :: permissions.filter (· ≠ qualifiedPermission session permission)) hgrant w

theorem after_executeRevoke (hstores : o.storesGrants = true) (permission : ObjectPermission)
    (w : World) :
  After (executeRevoke o session permission) w (fun r w' =>
    w'.permissions = if r.isOk then
        w.permissions.filter (· ≠ qualifiedPermission session permission)
      else w.permissions)
  := by
  have hrevoke := after_revokePrivilege o hstores (qualifiedPermission session permission)
  exact @after_change session "revoke" _ "REVOKE" (fun permissions =>
    permissions.filter (· ≠ qualifiedPermission session permission)) hrevoke w

end

/-! ### What a history leaves -/

section

open Eff

variable {o : Outside} {df : DataFusion}

/-- After a statement a permission is there when the statement granted it, or when it was
there before and the statement did not revoke it. -/
theorem after_performHistoryOp (hstores : o.storesGrants = true) (session : SessionContext)
    (op : HistoryOp) (p : ObjectPermission) (w : World) :
  After (performHistoryOp o df session op) w (fun r w' =>
    p ∈ w'.permissions ↔ (⟨session, op, r.isOk⟩ : Event).Grants p
      ∨ p ∈ w.permissions ∧ ¬ (⟨session, op, r.isOk⟩ : Event).Revokes p)
  := by
  -- the statements that neither grant nor revoke
  have hother : (∀ named, op ≠ .grant named) → (∀ named, op ≠ .revoke named) →
      Leads (performHistoryOp o df session op) w →
      After (performHistoryOp o df session op) w (fun r w' =>
        p ∈ w'.permissions ↔ (⟨session, op, r.isOk⟩ : Event).Grants p
          ∨ p ∈ w.permissions ∧ ¬ (⟨session, op, r.isOk⟩ : Event).Revokes p) := by
    intro hgrant hrevoke hleads
    apply After.mono hleads
    rintro r w' ⟨-, hpermissions⟩
    simp [Event.Grants, Event.Revokes, hgrant, hrevoke, hpermissions]
  cases op with
  | grant named =>
      apply After.mono (after_executeGrant o session hstores named w)
      intro r w' hpermissions
      rw [hpermissions]
      by_cases hp : p = qualifiedPermission session named
      · cases r <;> simp [Event.Grants, Event.Revokes, hp, Except.isOk, Except.toBool]
      · cases r <;> simp [Event.Grants, Event.Revokes, hp, Ne.symm hp, Except.isOk, Except.toBool]
  | revoke named =>
      apply After.mono (after_executeRevoke o session hstores named w)
      intro r w' hpermissions
      rw [hpermissions]
      by_cases hp : p = qualifiedPermission session named
      · cases r <;> simp [Event.Grants, Event.Revokes, hp, Except.isOk, Except.toBool]
      · cases r <;> simp [Event.Grants, Event.Revokes, hp, Ne.symm hp, Except.isOk, Except.toBool]
  | createTable database schema name statement =>
      apply hother (by simp) (by simp)
      apply executeCreate_leads
  | dropTable database schema name ifExists =>
      apply hother (by simp) (by simp)
      apply executeDropTable_leads
  | rename statement =>
      apply hother (by simp) (by simp)
      apply executeRename_leads
  | control op =>
      apply hother (by simp) (by simp)
      apply performOp_leads

/-- Something lasts after one more event when the event starts it, or when it lasted before and
the event does not end it. -/
theorem lastsIn_append {starts ends : Event → Prop} {events : List Event} {event : Event} :
  LastsIn starts ends (events ++ [event])
    ↔ starts event ∨ LastsIn starts ends events ∧ ¬ ends event
  := by
  constructor
  · rintro ⟨before, first, after, hsplit, hstarts, hkept⟩
    obtain rfl | ⟨after, last, rfl⟩ := List.eq_nil_or_concat after
    · left
      have hlast := List.append_inj_right' hsplit rfl
      cases hlast
      exact hstarts
    · right
      rw [List.concat_eq_append, ← List.cons_append, ← List.append_assoc] at hsplit
      have hinit := List.append_inj_left' hsplit rfl
      have hlast := List.append_inj_right' hsplit rfl
      cases hlast
      refine ⟨⟨before, first, after, hinit, hstarts, ?_⟩, ?_⟩
      · intro later hlater
        apply hkept
        simp [hlater]
      · apply hkept
        simp
  · rintro (hstarts | ⟨⟨before, first, after, rfl, hstarts, hkept⟩, hends⟩)
    · exact ⟨events, event, [], rfl, hstarts, by simp⟩
    · refine ⟨before, first, after ++ [event], by simp, hstarts, ?_⟩
      intro later hlater
      rcases List.mem_append.mp hlater with h | h
      · apply hkept _ h
      · cases List.mem_singleton.mp h
        exact hends

/-- In a SQLite catalogue the permissions are those granted and not revoked since. -/
theorem history_permissions (hstores : o.storesGrants = true) {events : List Event} {w : World}
    (h : History o df events w) (p : ObjectPermission) :
  p ∈ w.permissions ↔ GrantedIn events p
  := by
  induction h with
  | start _ hnone => simp [hnone, GrantedIn, LastsIn]
  | step session op _ ih =>
      rw [GrantedIn, lastsIn_append, ← GrantedIn, ← ih]
      exact after_performHistoryOp hstores session op p _

/-- What the check of a privilege answers in a SQLite catalogue. -/
theorem after_checkPrivilege (hstores : o.storesGrants = true)
    (grantee objectType objectName privilege : String) (w : World) :
  After (checkPrivilege o grantee objectType objectName privilege) w (fun r _ => r =
    match o.saveError w.calls with
    | none => .ok (w.permissions.any (·.covers grantee objectType objectName privilege))
    | some message => .error (.error message))
  := by
  rw [checkPrivilege, if_pos hstores]
  simp only [catalogCall, after_bind, after_outsideCall, resume_ok]
  cases o.saveError w.calls with
  | none => rfl
  | some message => rfl

theorem any_covers_iff {permissions : List ObjectPermission}
    {grantee objectType objectName privilege : String} :
  permissions.any (·.covers grantee objectType objectName privilege) = true
    ↔ ∃ granted, (granted = privilege ∨ granted = "ALL")
      ∧ ⟨grantee, objectType, objectName, granted⟩ ∈ permissions
  := by
  rw [List.any_eq_true]
  constructor
  · rintro ⟨p, hp, hcovers⟩
    simp only [ObjectPermission.covers, Bool.and_eq_true, Bool.or_eq_true, decide_eq_true_eq]
      at hcovers
    obtain ⟨⟨⟨rfl, rfl⟩, rfl⟩, hprivilege⟩ := hcovers
    exact ⟨p.privilege, hprivilege, hp⟩
  · rintro ⟨granted, hgranted, hp⟩
    refine ⟨_, hp, ?_⟩
    simpa [ObjectPermission.covers] using hgranted

/-- Somebody who is not an administrator passes the check of a privilege exactly when the
catalogue can be read and a row covers the privilege. -/
theorem checkTableAccess_ok_iff (hstores : o.storesGrants = true) {session : SessionContext}
    {tableName privilege : String} {w : World}
    (hadmin : userIsAdmin w.catalog session.user = false) :
  (exec (checkTableAccess o session tableName privilege) w).1 = .ok ()
    ↔ o.saveError w.calls = none
      ∧ w.permissions.any (·.covers session.role "table" tableName privilege) = true
  := by
  have hcheck : After (checkTableAccess o session tableName privilege) w (fun r _ => r = .ok ()
      ↔ o.saveError w.calls = none
        ∧ w.permissions.any (·.covers session.role "table" tableName privilege) = true) := by
    simp only [checkTableAccess, after_bind, after_readState, resume_ok, hadmin,
      Bool.false_eq_true, if_false]
    apply After.mono (after_checkPrivilege hstores session.role "table" tableName privilege w)
    rintro r w' rfl
    cases o.saveError w.calls with
    | some message => simp
    | none =>
        rw [resume_ok, after_ite]
        cases w.permissions.any (·.covers session.role "table" tableName privilege) with
        | false => simp
        | true => simp
  exact hcheck

/-- In a SQLite catalogue, somebody who is not an administrator passes the check of a privilege
on a table exactly when the catalogue can be read and the privilege, or `ALL`, was granted to the
name of the role on the name of the table and not revoked since. -/
theorem history_checkTableAccess_iff (o : Outside) (df : DataFusion)
    (hstores : o.storesGrants = true) {events : List Event} {w : World}
    (h : History o df events w) (session : SessionContext) (tableName privilege : String)
    (hadmin : userIsAdmin w.catalog session.user = false) :
  (exec (checkTableAccess o session tableName privilege) w).1 = .ok ()
    ↔ o.saveError w.calls = none
      ∧ ∃ granted, (granted = privilege ∨ granted = "ALL")
        ∧ GrantedIn events ⟨session.role, "table", tableName, granted⟩
  := by
  have hpermissions := history_permissions hstores h
  rw [checkTableAccess_ok_iff hstores hadmin, any_covers_iff]
  simp only [hpermissions]

end

/-! ### A role that is dropped and created again -/

/-- A new table, a grant on it, and the role dropped and created again. -/
def sampleHistory : List HistoryOp :=
  [.createTable none none "t" (.createTable [⟨"k", "INT", true, none⟩] []),
    .grant ⟨"analytics_reader", "table", "t", "SELECT"⟩,
    .control (.dropUser "analytics_reader" false),
    .control (.createUser "analytics_reader" none)]

/-- A statement of the administrator at `w`. -/
def sampleStep (op : HistoryOp) (w : World) : Except Failure String × World :=
  Eff.exec (performHistoryOp sampleOutside (DataFusion.faultless (fun _ _ => .ok none)) {} op) w

/-- The events of such statements, one after another. -/
def sampleEvents : List HistoryOp → World → List Event
  | [], _ => []
  | op :: ops, w => ⟨{}, op, (sampleStep op w).1.isOk⟩ :: sampleEvents ops (sampleStep op w).2

theorem history_sampleEvents {events : List Event} {w : World} (ops : List HistoryOp)
    (h : History sampleOutside (DataFusion.faultless (fun _ _ => .ok none)) events w) :
  History sampleOutside (DataFusion.faultless (fun _ _ => .ok none))
    (events ++ sampleEvents ops w) (Run.performAll (fun op w => (sampleStep op w).2) ops w)
  := by
  induction ops generalizing events w with
  | nil => rwa [sampleEvents, List.append_nil]
  | cons op ops ih =>
      rw [sampleEvents, ← List.singleton_append, ← List.append_assoc]
      apply ih (h.step {} op)

theorem history_sampleHistory (n : Nat) :
  History sampleOutside (DataFusion.faultless (fun _ _ => .ok none))
    (sampleEvents (sampleHistory.take n) World.bootstrap)
    (Run.performAll (fun op w => (sampleStep op w).2) (sampleHistory.take n) World.bootstrap)
  := by
  have hstart : History sampleOutside (DataFusion.faultless (fun _ _ => .ok none)) []
      World.bootstrap := by
    apply History.start
    · use fun _ => ⟨"", "", ""⟩, fun _ => 0
      left
      rfl
    · rfl
  exact history_sampleEvents _ hstart

/-- The session of the role. -/
def readerSession : SessionContext := { user := "analytics_reader", role := "analytics_reader" }

theorem history_checkTableAccess_granted :
  ∃ w, userIsAdmin w.catalog readerSession.user = false
    ∧ (Eff.exec (checkTableAccess sampleOutside readerSession "postgres.public.t" "SELECT") w).1
      = .ok ()
    ∧ ∃ granted, (granted = "SELECT" ∨ granted = "ALL")
      ∧ GrantedIn (sampleEvents (sampleHistory.take 2) World.bootstrap)
        ⟨"analytics_reader", "table", "postgres.public.t", granted⟩
  := by
  have hchecked : ∃ w, Run.performAll (fun op w => (sampleStep op w).2) (sampleHistory.take 2)
      World.bootstrap = w ∧ userIsAdmin w.catalog readerSession.user = false
      ∧ (Eff.exec (checkTableAccess sampleOutside readerSession "postgres.public.t" "SELECT") w).1
        = .ok () := ⟨_, rfl, by decide +kernel⟩
  obtain ⟨w, hw, hadmin, hok⟩ := hchecked
  have h := history_sampleHistory 2
  rw [hw] at h
  have hiff := history_checkTableAccess_iff sampleOutside _ (by decide +kernel) h readerSession
    "postgres.public.t" "SELECT" hadmin
  exact ⟨w, hadmin, hok, (hiff.mp hok).2⟩

/-- The role created again passes the check with the grant of the role that was dropped. -/
theorem checkTableAccess_recreated_user :
  ∃ events w, History sampleOutside (DataFusion.faultless (fun _ _ => .ok none)) events w
    ∧ userIsAdmin w.catalog readerSession.user = false
    ∧ (Eff.exec (checkTableAccess sampleOutside readerSession "postgres.public.t" "SELECT") w).1
      = .ok ()
    ∧ ¬ ∃ granted, (granted = "SELECT" ∨ granted = "ALL")
      ∧ GrantedToCurrent events ⟨"analytics_reader", "table", "postgres.public.t", granted⟩
  := by
  have hchecked : ∃ w, Run.performAll (fun op w => (sampleStep op w).2) sampleHistory
      World.bootstrap = w ∧ userIsAdmin w.catalog readerSession.user = false
      ∧ (Eff.exec (checkTableAccess sampleOutside readerSession "postgres.public.t" "SELECT") w).1
        = .ok () := ⟨_, rfl, by decide +kernel⟩
  obtain ⟨w, hw, hadmin, hok⟩ := hchecked
  have h := history_sampleHistory 4
  rw [sampleHistory.take_of_length_le (by decide), hw] at h
  refine ⟨_, w, h, hadmin, hok, ?_⟩
  rintro ⟨granted, -, hcurrent⟩
  -- the two last events: the role is dropped, and created again
  have hdropped : ((sampleEvents sampleHistory World.bootstrap).map (·.returned))[2]? = some true :=
    by decide +kernel
  obtain ⟨e₁, e₂, e₃, e₄, hevents, h₃, h₄⟩ : ∃ e₁ e₂ e₃ e₄,
      sampleEvents sampleHistory World.bootstrap = [e₁] ++ [e₂] ++ [e₃] ++ [e₄]
        ∧ e₃.op = .control (.dropUser "analytics_reader" false)
        ∧ e₄.op = .control (.createUser "analytics_reader" none) :=
    ⟨_, _, _, _, rfl, rfl, rfl⟩
  rw [hevents] at hcurrent hdropped
  have hreturned : e₃.returned = true := by simpa using hdropped
  rw [GrantedToCurrent, lastsIn_append, lastsIn_append] at hcurrent
  simp [Event.Grants, Event.Ends, h₃, h₄, hreturned] at hcurrent
