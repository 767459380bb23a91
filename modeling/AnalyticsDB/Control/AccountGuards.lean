import AnalyticsDB.Control.Statements
import AnalyticsDB.Lib.Run

/-!
# Accounts and administrators

The operations on users and groups check, each by itself, that the user of the session is an
administrator.  All other statements leave the users alone, so a run of statements in sessions of
users who are no administrators changes no account, and makes nobody an administrator.
-/

section

variable (o : Outside) {session : SessionContext} {w : World}

/-- An operation is refused, or changes nothing: whatever its outcome, the catalogue is the one it
found. -/
abbrev Refuses {α : Type} (m : Op α) (w : World) : Prop :=
  Performs o (fun _ => False) (fun _ => False) (fun _ => False) m w

theorem Refuses.catalog_eq {α : Type} {m : Op α} (h : Refuses o m w) :
  Eff.After m w (fun _ w' => w'.catalog = w.catalog)
  := by
  apply Eff.After.mono h
  rintro r w' ⟨-, houtcome⟩
  cases houtcome with
  | same hcatalog _ => exact hcatalog
  | saved _ heffect _ _ => cases heffect
  | unsaved _ heffect _ _ _ => cases heffect
  | quiet hquiet _ _ => cases hquiet
  | spoiled hspoil _ => cases hspoil

variable (h : userIsAdmin w.catalog session.user = false)

include h

theorem createUser_refuses (name : String) (password : Option String) :
  Refuses o (createUser o session name password) w
  := by
  rw [createUser, Refuses, performs_orBail]
  intro _ _
  apply performs_after (after_optionalCredentials o w password)
  intro credentials w' hcatalog
  simp only [performs_outsideCall, performs_readState, performs_orBail, performs_ite,
    performs_bail_bind, implies_true, true_and, hcatalog, h, Bool.not_false, not_true,
    false_implies]

theorem rotateUserPassword_refuses (userName password : String) :
  Refuses o (rotateUserPassword o session userName password) w
  := by
  simp only [rotateUserPassword, Refuses, performs_ite, performs_bail_bind, implies_true, true_and]
  intro _
  apply performs_after (after_newCredentials o w password)
  intro credentials w' hcatalog
  simp only [performs_outsideCall, performs_readState, performs_orBail, performs_ite,
    performs_bail_bind, implies_true, true_and, hcatalog, h, Bool.not_false, not_true,
    false_implies]

theorem dropUser_refuses (name : String) (ifExists : Bool) :
  Refuses o (dropUser o session name ifExists) w
  := by
  simp only [dropUser, Refuses, performs_readState, performs_orBail, performs_ite,
    performs_bail_bind, implies_true, true_and, h, Bool.not_false, not_true, false_implies]

theorem createGroup_refuses (name : String) :
  Refuses o (createGroup o session name) w
  := by
  simp only [createGroup, Refuses, performs_readState, performs_orBail, performs_ite,
    performs_bail_bind, implies_true, true_and, h, Bool.not_false, not_true, false_implies]

theorem alterGroup_refuses (name : String) (operation : AlterGroupOperation) :
  Refuses o (alterGroup o session name operation) w
  := by
  simp only [alterGroup, Refuses, performs_readState, performs_orBail, performs_ite,
    performs_bail_bind, implies_true, true_and, h, Bool.not_false, not_true, false_implies]

theorem dropGroup_refuses (name : String) (ifExists : Bool) :
  Refuses o (dropGroup o session name ifExists) w
  := by
  simp only [dropGroup, Refuses, performs_readState, performs_orBail, performs_ite,
    performs_bail_bind, implies_true, true_and, h, Bool.not_false, not_true, false_implies]

omit h

/-- An operation that is not on accounts keeps the users. -/
theorem performOp_users (op : ControlOp) (hop : op.onAccounts = false) :
  Eff.After (performOp o session op) w (fun _ w' => w'.catalog.users = w.catalog.users)
  := by
  apply performOp_keeps o session op w (P := fun state => state.users = w.catalog.users)
  · rfl
  · exact fun _ h => h
  · exact fun _ heffect => heffect.rest.users_eq hop
  · exact fun _ hquiet => hquiet.rest.2
  · exact fun _ hspoil => hspoil.rest.2

/-- A statement in the session of a user who is no administrator keeps the users. -/
theorem executeMessage_users (statement : MetadataStatement)
    (h : userIsAdmin w.catalog session.user = false) :
  Eff.After (executeMessage o session statement) w (fun _ w' =>
    w'.catalog.users = w.catalog.users)
  := by
  have hrefused : ∀ {m : Op String}, Refuses o m w →
      Eff.After m w (fun _ w' => w'.catalog.users = w.catalog.users) := by
    intro m hm
    apply Eff.After.mono (hm.catalog_eq o)
    rintro r w' hcatalog
    rw [hcatalog]
  cases hop : statement.operation with
  | none =>
      apply Eff.After.mono (executeMessage_keeps o session statement w hop)
      rintro r w' hcatalog
      rw [hcatalog]
  | some op =>
      cases haccounts : op.onAccounts with
      | false =>
          rw [executeMessage_operation o session statement hop]
          exact performOp_users o op haccounts
      | true =>
          cases statement with
          | alterUserPassword name password =>
              exact hrefused (rotateUserPassword_refuses o h name password)
          | createUser name password => exact hrefused (createUser_refuses o h name password)
          | dropUser name ifExists => exact hrefused (dropUser_refuses o h name ifExists)
          | createGroup name => exact hrefused (createGroup_refuses o h name)
          | alterGroup name operation => exact hrefused (alterGroup_refuses o h name operation)
          | dropGroup name ifExists => exact hrefused (dropGroup_refuses o h name ifExists)
          | _ =>
              cases hop <;> cases haccounts

end

/-- The system after a statement in a session. -/
def executed (o : Outside) (call : SessionContext × MetadataStatement) (w : World) : World :=
  (Eff.exec (executeMetadataStatement o call.1 call.2) w).2

/-- The user of the session is no administrator. -/
def byNonAdministrator (call : SessionContext × MetadataStatement) (w : World) : Prop :=
  userIsAdmin w.catalog call.1.user = false

instance (call : SessionContext × MetadataStatement) (w : World) :
    Decidable (byNonAdministrator call w) :=
  inferInstanceAs (Decidable (_ = _))

theorem executed_users (o : Outside) {call : SessionContext × MetadataStatement} {w : World}
    (h : byNonAdministrator call w) :
  (executed o call w).catalog.users = w.catalog.users
  := by
  have husers : Eff.After (executeMetadataStatement o call.1 call.2) w (fun _ w' =>
      w'.catalog.users = w.catalog.users) := by
    rw [executeMetadataStatement, Eff.after_bind]
    apply Eff.After.mono (executeMessage_users o call.2 h)
    intro r w' hw'
    cases r with
    | ok message => exact hw'
    | error e => exact hw'
  exact husers

/-- Whatever statements are executed in sessions of users who are no administrators when they are
executed, the users stay as they are, and the administrators are the same. -/
theorem statements_keep_users (o : Outside) (calls : List (SessionContext × MetadataStatement))
    (w : World) (h : Run.AllAllowed (executed o) byNonAdministrator calls w) :
  (Run.performAll (executed o) calls w).catalog.users = w.catalog.users
    ∧ userIsAdmin (Run.performAll (executed o) calls w).catalog = userIsAdmin w.catalog
  := by
  have husers : (Run.performAll (executed o) calls w).catalog.users = w.catalog.users := by
    induction calls generalizing w with
    | nil => rfl
    | cons call calls ih => exact (ih (executed o call w) h.2).trans (executed_users o h.1)
  refine ⟨husers, ?_⟩
  funext user
  rw [userIsAdmin, userIsAdmin, husers]

/-- The reader of a first install tries to become an administrator, and creates a schema. -/
theorem statements_keep_users_reader :
  (Run.performAll (executed Outside.faultless)
      [({ user := "analytics_reader", role := "analytics_reader" },
          .alterGroup "postgres" (.addUser "analytics_reader")),
        ({ user := "analytics_reader", role := "analytics_reader" }, .createSchema none "s")]
      World.bootstrap).catalog.users = World.bootstrap.catalog.users
    ∧ userIsAdmin (Run.performAll (executed Outside.faultless)
      [({ user := "analytics_reader", role := "analytics_reader" },
          .alterGroup "postgres" (.addUser "analytics_reader")),
        ({ user := "analytics_reader", role := "analytics_reader" }, .createSchema none "s")]
      World.bootstrap).catalog = userIsAdmin World.bootstrap.catalog
  := statements_keep_users Outside.faultless _ World.bootstrap (by decide)
