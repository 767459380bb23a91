import AnalyticsDB.Engine.Privileges

/-!
# GRANT and REVOKE statements

A statement names privileges, objects and grantees, of each any number.  The engine keeps the
first of each.  What is proved is in which histories the statements still mean what they say:
that whoever was granted a privilege passes the check, and whoever it was revoked from does not,
until it is granted again.
-/

/-- A privilege of a statement, by its text in upper case.  `ALL` is no such privilege. -/
structure PrivilegeAction where
  text : String
  not_all : text ≠ "ALL"

/-- The parser takes no empty list. -/
inductive PrivilegeList where
  | all
  | actions (listed : List PrivilegeAction) (nonempty : listed ≠ [])

/-- The name of an object as it is written: its identifiers. -/
abbrev ObjectName := List String

inductive GrantObjects where
  | tables (names : List ObjectName) (nonempty : names ≠ [])
  | schemas (names : List ObjectName)
  | databases (names : List ObjectName)
  /-- All tables of a schema, functions, and so on. -/
  | other

/-- What a GRANT or a REVOKE names.  `PUBLIC` is a grantee without a name. -/
structure PrivilegeStatement where
  privileges : PrivilegeList
  objects : GrantObjects
  grantees : List (Option String)

/-- Whether a statement grants or revokes. -/
inductive PrivilegeChange where
  | grant
  | revoke
  deriving DecidableEq

def ObjectName.text (name : ObjectName) : String := ".".intercalate name

/-- The text of the first privilege. -/
def PrivilegeList.first : PrivilegeList → String
  | .all => "ALL"
  | .actions listed _ => (listed.head?.map (·.text)).getD ""

/-- The type of the objects and the text of the first of them. -/
def GrantObjects.first? : GrantObjects → Option (String × String)
  | .tables names _ => some ("table", (names.head?.map ObjectName.text).getD "")
  | .schemas names => some ("schema", (names.head?.map ObjectName.text).getD "")
  | .databases names => some ("database", (names.head?.map ObjectName.text).getD "")
  | .other => none

/-- The permission `parse_metadata_statement` makes of a statement. -/
def PrivilegeStatement.parse (statement : PrivilegeStatement) : Option ObjectPermission := do
  let (objectType, objectName) ← statement.objects.first?
  let grantee ← statement.grantees.head?.join
  return { grantee := grantee
           objectType := objectType
           objectName := objectName
           privilege := statement.privileges.first }

section

variable (o : Outside) (unsupported : String)

/-- Execute a GRANT or a REVOKE.  A statement that is not parsed goes to DataFusion, which
supports neither. -/
def executePrivilegeStatement (session : SessionContext) (change : PrivilegeChange)
    (statement : PrivilegeStatement) : Op String :=
  match statement.parse, change with
  | some permission, .grant => executeGrant o session permission
  | some permission, .revoke => executeRevoke o session permission
  | none, _ => bail unsupported

/-- The world after a statement. -/
def afterPrivilegeStatement (session : SessionContext) (change : PrivilegeChange)
    (statement : PrivilegeStatement) (w : World) : World :=
  (Eff.exec (executePrivilegeStatement o unsupported session change statement) w).2

/-- A statement that was executed, with its session and whether it returned. -/
structure PrivilegeEvent where
  session : SessionContext
  change : PrivilegeChange
  statement : PrivilegeStatement
  returned : Bool

/-- The event of a statement executed in a world. -/
def eventOf (session : SessionContext) (change : PrivilegeChange)
    (statement : PrivilegeStatement) (w : World) : PrivilegeEvent :=
  { session := session
    change := change
    statement := statement
    returned :=
      (Eff.exec (executePrivilegeStatement o unsupported session change statement) w).1.isOk }

/-- What a history of statements leads to from a world, where each meets a condition in the world
it is executed in. -/
inductive PrivilegeHistory
    (allowed : SessionContext → PrivilegeChange → PrivilegeStatement → World → Prop)
    (w₀ : World) : List PrivilegeEvent → World → Prop
  | start : PrivilegeHistory allowed w₀ [] w₀
  | step {events : List PrivilegeEvent} {w : World} (session : SessionContext)
      (change : PrivilegeChange) (statement : PrivilegeStatement) :
      PrivilegeHistory allowed w₀ events w → allowed session change statement w →
      PrivilegeHistory allowed w₀
        (events ++ [eventOf o unsupported session change statement w])
        (afterPrivilegeStatement o unsupported session change statement w)

end

/-! ### What a statement says -/

/-- The qualified name of the table a name denotes for a session. -/
def ObjectName.resolve (session : SessionContext) : ObjectName → Option String
  | [table] => some (session.database ++ "." ++ session.schema ++ "." ++ table)
  | [schema, table] => some (session.database ++ "." ++ schema ++ "." ++ table)
  | [database, schema, table] => some (database ++ "." ++ schema ++ "." ++ table)
  | _ => none

def PrivilegeList.Names (privilege : String) : PrivilegeList → Prop
  | .all => True
  | .actions listed _ => ∃ action ∈ listed, action.text = privilege

def GrantObjects.NamesTable (session : SessionContext) (table : String) : GrantObjects → Prop
  | .tables names _ => ∃ name ∈ names, name.resolve session = some table
  | .schemas _ | .databases _ | .other => False

/-- The statement names the grantee, the table and the privilege. -/
def PrivilegeStatement.Names (session : SessionContext) (statement : PrivilegeStatement)
    (grantee table privilege : String) : Prop :=
  some grantee ∈ statement.grantees ∧ statement.objects.NamesTable session table
    ∧ statement.privileges.Names privilege

/-- The event is a statement that returned and names the privilege. -/
def PrivilegeEvent.Says (event : PrivilegeEvent) (change : PrivilegeChange)
    (grantee table privilege : String) : Prop :=
  event.returned = true ∧ event.change = change
    ∧ event.statement.Names event.session grantee table privilege

/-- After a GRANT, everybody in the role of a grantee passes the check of what was granted, when
the catalogue can be read.  After a REVOKE, nobody in the role of a grantee but administrators
passes the check of what was revoked, until it is granted again. -/
structure MeansWhatItSays (o : Outside) (events : List PrivilegeEvent) (w : World) : Prop where
  granted : ∀ before event, events = before ++ [event] →
    ∀ grantee table privilege, event.Says .grant grantee table privilege →
    ∀ session : SessionContext, session.role = grantee → o.saveError w.calls = none →
      (Eff.exec (checkTableAccess o session table privilege) w).1 = .ok ()
  revoked : ∀ before event after, events = before ++ event :: after →
    ∀ grantee table privilege, event.Says .revoke grantee table privilege →
    (∀ later ∈ after, ¬ later.Says .grant grantee table privilege) →
    ∀ session : SessionContext, session.role = grantee →
      userIsAdmin w.catalog session.user = false →
      (Eff.exec (checkTableAccess o session table privilege) w).1 ≠ .ok ()

/-! ### When it is kept -/

/-- The name denotes a table, and its text is split at the dots between its identifiers. -/
def ObjectName.Plain : ObjectName → Prop
  | [table] => '.' ∉ table.toList
  | [schema, table] => '.' ∉ schema.toList ∧ '.' ∉ table.toList
  | [_, _, _] => True
  | _ => False

def GrantObjects.firstTable : GrantObjects → Option ObjectName
  | .tables names _ => names.head?
  | .schemas _ | .databases _ | .other => none

/-- The first grantee and the first table of a statement. -/
structure PrivilegeStatement.First (session : SessionContext) (statement : PrivilegeStatement)
    (grantee table : String) : Prop where
  grantee : statement.grantees.head? = some (some grantee)
  table : ∃ name, statement.objects.firstTable = some name ∧ name.Plain
    ∧ name.resolve session = some table

/-- A row of the grants gives the privilege on the table to the grantee. -/
def Covers (w : World) (grantee table privilege : String) : Prop :=
  w.permissions.any (·.covers grantee "table" table privilege) = true

/-- What a GRANT names is its first grantee, table and privilege, or was granted before.  What a
REVOKE names was granted at most by the row of its first grantee, table and privilege. -/
def SaysFirst (session : SessionContext) (change : PrivilegeChange)
    (statement : PrivilegeStatement) (w : World) : Prop :=
  match change with
  | .grant =>
    (∀ name, statement.objects.firstTable = some name → name.Plain)
      ∧ ∀ grantee table privilege, statement.Names session grantee table privilege →
        statement.First session grantee table
            ∧ (statement.privileges.first = privilege ∨ statement.privileges.first = "ALL")
          ∨ Covers w grantee table privilege
  | .revoke =>
    ∀ grantee table privilege, statement.Names session grantee table privilege →
      ∀ row ∈ w.permissions, row.covers grantee "table" table privilege = true →
        statement.First session grantee table ∧ row.privilege = statement.privileges.first

/-! ### The permission of a statement -/

section

variable {session : SessionContext}

/-- A name that splits into three parts or more is left as it is. -/
theorem qualifyGrantObjectName_of_three {name : String}
    (h : 3 ≤ (name.toList.splitOn '.').length) :
  qualifyGrantObjectName name session = name
  := by
  have hjoin : ['.'].intercalate (name.toList.splitOn '.') = name.toList :=
    List.intercalate_splitOn _
  unfold qualifyGrantObjectName
  generalize name.toList.splitOn '.' = parts at h hjoin
  match parts, h with
  | [a, b, c], _ =>
      apply String.toList_injective
      rw [← hjoin]
      simp
  | _ :: _ :: _ :: _ :: _, _ => rfl

/-- The table a plain name denotes is the one its text is qualified to. -/
theorem qualifyGrantObjectName_text {name : ObjectName} (h : name.Plain) :
  name.resolve session = some (qualifyGrantObjectName name.text session)
  := by
  match name with
  | [table] =>
      have hsplit : table.toList.splitOn '.' = [table.toList] := List.splitOn_eq_singleton h
      simp [ObjectName.resolve, ObjectName.text, qualifyGrantObjectName, hsplit]
  | [schema, table] =>
      obtain ⟨hschema, htable⟩ := h
      have htext : (ObjectName.text [schema, table]).toList.splitOn '.'
          = [schema.toList, table.toList] := by
        simp only [ObjectName.text, String.toList_intercalate]
        apply List.splitOn_intercalate
        · simp [hschema, htable]
        · simp
      simp [ObjectName.resolve, qualifyGrantObjectName, htext]
  | [database, schema, table] =>
      rw [qualifyGrantObjectName_of_three]
      · simp [ObjectName.resolve, ObjectName.text, String.append_assoc]
      · have htext : (ObjectName.text [database, schema, table]).toList
            = database.toList ++ '.' :: (schema.toList ++ '.' :: table.toList) := by
          simp [ObjectName.text]
        have hpos : ∀ s : String, 0 < (s.toList.splitOn '.').length := by
          intro s
          apply List.length_pos_of_ne_nil
          apply List.splitOn_ne_nil
        have hdatabase := hpos database
        have hschema := hpos schema
        have htable := hpos table
        rw [htext, List.splitOn_append_cons_self, List.splitOn_append_cons_self,
          List.length_append, List.length_append]
        omega

theorem GrantObjects.first_of_firstTable {objects : GrantObjects} {name : ObjectName}
    (h : objects.firstTable = some name) :
  objects.first? = some ("table", name.text)
  := by
  cases objects with
  | tables names hnonempty =>
      rw [firstTable] at h
      simp [first?, h]
  | schemas names => cases h
  | databases names => cases h
  | other => cases h

/-- The permission of a statement is that of its first grantee, table and privilege. -/
theorem PrivilegeStatement.First.permission {statement : PrivilegeStatement}
    {grantee table : String} (h : statement.First session grantee table) :
  statement.parse.map (qualifiedPermission session)
    = some ⟨grantee, "table", table, statement.privileges.first⟩
  := by
  obtain ⟨name, hname, hplain, hresolve⟩ := h.table
  have htable := hresolve.symm.trans (qualifyGrantObjectName_text hplain)
  obtain rfl := Option.some.inj htable
  simp [parse, GrantObjects.first_of_firstTable hname, h.grantee, qualifiedPermission]

theorem PrivilegeList.names_first {privileges : PrivilegeList} {privilege : String}
    (h : privileges.first = privilege ∨ privileges.first = "ALL") :
  privileges.Names privilege
  := by
  cases privileges with
  | all => trivial
  | actions listed hnonempty =>
      match listed with
      | action :: rest =>
          have hfirst : first (.actions (action :: rest) hnonempty) = action.text := rfl
          rw [hfirst] at h
          obtain h | h := h
          · exact ⟨action, List.mem_cons_self, h⟩
          · exact absurd h action.not_all

/-- What the permission of a statement covers is what the statement names. -/
theorem PrivilegeStatement.names_of_covers {statement : PrivilegeStatement}
    (hplain : ∀ name, statement.objects.firstTable = some name → name.Plain)
    {permission : ObjectPermission}
    (hparse : statement.parse.map (qualifiedPermission session) = some permission)
    {grantee table privilege : String}
    (hcovers : permission.covers grantee "table" table privilege = true) :
  statement.Names session grantee table privilege
  := by
  obtain ⟨privileges, objects, grantees⟩ := statement
  obtain ⟨parsed, hparsed, rfl⟩ := Option.map_eq_some_iff.mp hparse
  simp only [parse, Option.bind_eq_bind, Option.bind_eq_some_iff, Prod.exists] at hparsed
  obtain ⟨objectType, objectName, hobjects, named, hgrantee, hreturn⟩ := hparsed
  obtain rfl := Option.some.inj hreturn
  simp only [ObjectPermission.covers, Bool.and_eq_true, Bool.or_eq_true, decide_eq_true_eq]
    at hcovers
  obtain ⟨⟨⟨hgrantee', htype⟩, hname⟩, hprivilege⟩ := hcovers
  have htable : objectType = "table" := by
    by_contra hother
    simp [qualifiedPermission, hother] at htype
  subst htable
  simp only [qualifiedPermission, if_true] at hgrantee' hname hprivilege
  refine ⟨?_, ?_, PrivilegeList.names_first hprivilege⟩
  · rw [← hgrantee']
    apply List.mem_of_mem_head?
    exact Option.join_eq_some_iff.mp hgrantee
  · cases objects with
    | tables names hnonempty =>
        obtain ⟨name, rest, rfl⟩ := List.exists_cons_of_ne_nil hnonempty
        have hresolve := @qualifyGrantObjectName_text session name (hplain name rfl)
        simp only [GrantObjects.first?, List.head?_cons, Option.map_some, Option.getD_some,
          Option.some.injEq, Prod.mk.injEq, true_and] at hobjects
        rw [hobjects, hname] at hresolve
        exact ⟨name, List.mem_cons_self, hresolve⟩
    | schemas names => simp [GrantObjects.first?] at hobjects
    | databases names => simp [GrantObjects.first?] at hobjects
    | other => simp [GrantObjects.first?] at hobjects

end

/-! ### What a history leaves -/

section

open Eff

variable {o : Outside} {unsupported : String} {session : SessionContext}
  {change : PrivilegeChange} {statement : PrivilegeStatement} {w : World}
  {grantee table privilege : String}

/-- The rows with one of them added or deleted. -/
def PrivilegeChange.rows (change : PrivilegeChange) (permission : ObjectPermission)
    (rows : List ObjectPermission) : List ObjectPermission :=
  match change with
  | .grant => permission :: rows.filter (· ≠ permission)
  | .revoke => rows.filter (· ≠ permission)

/-- A statement that returns adds or deletes the row of its permission; a statement that fails
leaves the rows as they are. -/
theorem after_executePrivilegeStatement (hstores : o.storesGrants = true) :
  After (executePrivilegeStatement o unsupported session change statement) w (fun r w' =>
    if r.isOk then
      ∃ permission, statement.parse.map (qualifiedPermission session) = some permission
        ∧ w'.permissions = change.rows permission w.permissions
    else
      w'.permissions = w.permissions)
  := by
  unfold executePrivilegeStatement
  cases hparse : statement.parse with
  | none => rfl
  | some permission =>
      cases change with
      | grant =>
          apply After.mono (after_executeGrant o session hstores permission w)
          intro r w' hw'
          cases r with
          | error e => exact hw'
          | ok message => exact ⟨_, rfl, hw'⟩
      | revoke =>
          apply After.mono (after_executeRevoke o session hstores permission w)
          intro r w' hw'
          cases r with
          | error e => exact hw'
          | ok message => exact ⟨_, rfl, hw'⟩

theorem checkTableAccess_admin {checked : SessionContext}
    (hadmin : userIsAdmin w.catalog checked.user = true) :
  (exec (checkTableAccess o checked table privilege) w).1 = .ok ()
  := by
  have hcheck : After (checkTableAccess o checked table privilege) w (fun r _ => r = .ok ()) := by
    simp only [checkTableAccess, after_bind, after_readState, resume_ok, hadmin, if_true,
      after_pure]
  exact hcheck

theorem covers_iff : Covers w grantee table privilege
    ↔ ∃ row ∈ w.permissions, row.covers grantee "table" table privilege = true
  := List.any_eq_true

/-- The rows after a statement that returned. -/
theorem permissions_of_returned (hstores : o.storesGrants = true)
    (h : (eventOf o unsupported session change statement w).returned = true) :
  ∃ permission, statement.parse.map (qualifiedPermission session) = some permission
    ∧ (afterPrivilegeStatement o unsupported session change statement w).permissions
      = change.rows permission w.permissions
  := by
  have hafter := @after_executePrivilegeStatement o unsupported session change statement w hstores
  exact (if_pos h).mp hafter

theorem permissions_of_failed (hstores : o.storesGrants = true)
    (h : (eventOf o unsupported session change statement w).returned = false) :
  (afterPrivilegeStatement o unsupported session change statement w).permissions = w.permissions
  := by
  have hafter := @after_executePrivilegeStatement o unsupported session change statement w hstores
  exact (if_neg (Bool.eq_false_iff.mp h)).mp hafter

/-- What a GRANT names is covered after it. -/
theorem covers_of_granted (hstores : o.storesGrants = true)
    (hmeets : SaysFirst session change statement w)
    (h : (eventOf o unsupported session change statement w).Says .grant grantee table privilege) :
  Covers (afterPrivilegeStatement o unsupported session change statement w) grantee table privilege
  := by
  obtain ⟨hreturned, rfl, hnames⟩ := h
  obtain ⟨permission, hparse, hpermissions⟩ := permissions_of_returned hstores hreturned
  rw [covers_iff, hpermissions]
  obtain ⟨hfirst, hprivilege⟩ | hcovers := hmeets.2 grantee table privilege hnames
  · obtain rfl := Option.some.inj (hparse.symm.trans hfirst.permission)
    refine ⟨_, List.mem_cons_self, ?_⟩
    simpa [ObjectPermission.covers] using hprivilege
  · obtain ⟨row, hrow, hcovers⟩ := covers_iff.mp hcovers
    refine ⟨row, ?_, hcovers⟩
    by_cases hsame : row = permission
    · exact hsame ▸ List.mem_cons_self
    · apply List.mem_cons_of_mem
      simpa [hsame] using hrow

/-- What a REVOKE names is not covered after it. -/
theorem not_covers_of_revoked (hstores : o.storesGrants = true)
    (hmeets : SaysFirst session change statement w)
    (h : (eventOf o unsupported session change statement w).Says .revoke grantee table privilege) :
  ¬ Covers (afterPrivilegeStatement o unsupported session change statement w) grantee table
    privilege
  := by
  obtain ⟨hreturned, rfl, hnames⟩ := h
  obtain ⟨permission, hparse, hpermissions⟩ := permissions_of_returned hstores hreturned
  rw [covers_iff, hpermissions]
  rintro ⟨row, hrow, hcovers⟩
  obtain ⟨hbefore, hother⟩ := List.mem_filter.mp hrow
  -- The row is the one of the statement, and that one was deleted.
  obtain ⟨hfirst, hprivilege⟩ := hmeets grantee table privilege hnames row hbefore hcovers
  have hrow : row = ⟨grantee, "table", table, statement.privileges.first⟩ := by
    simp only [ObjectPermission.covers, Bool.and_eq_true, decide_eq_true_eq] at hcovers
    obtain ⟨⟨⟨hgrantee, htype⟩, htable⟩, -⟩ := hcovers
    rw [← hgrantee, ← htype, ← htable, ← hprivilege]
  rw [hfirst.permission] at hparse
  rw [hrow, Option.some.inj hparse] at hother
  simp at hother

/-- A statement covers nothing that was not covered before, but what it grants. -/
theorem covers_before (hstores : o.storesGrants = true)
    (hmeets : SaysFirst session change statement w)
    (h : Covers (afterPrivilegeStatement o unsupported session change statement w) grantee table
      privilege) :
  Covers w grantee table privilege
    ∨ (eventOf o unsupported session change statement w).Says .grant grantee table privilege
  := by
  obtain ⟨row, hrow, hcovers⟩ := covers_iff.mp h
  cases hreturned : (eventOf o unsupported session change statement w).returned with
  | false =>
      rw [permissions_of_failed hstores hreturned] at hrow
      exact .inl (covers_iff.mpr ⟨row, hrow, hcovers⟩)
  | true =>
      obtain ⟨permission, hparse, hpermissions⟩ := permissions_of_returned hstores hreturned
      rw [hpermissions] at hrow
      cases change with
      | grant =>
          obtain rfl | hkept := List.mem_cons.mp hrow
          · right
            exact ⟨hreturned, rfl, PrivilegeStatement.names_of_covers hmeets.1 hparse hcovers⟩
          · exact .inl (covers_iff.mpr ⟨row, (List.mem_filter.mp hkept).1, hcovers⟩)
      | revoke => exact .inl (covers_iff.mpr ⟨row, (List.mem_filter.mp hrow).1, hcovers⟩)

/-- What was revoked and not granted since is not covered. -/
def RevokedUncovered (events : List PrivilegeEvent) (w : World) : Prop :=
  ∀ before event after, events = before ++ event :: after →
    ∀ grantee table privilege, event.Says .revoke grantee table privilege →
    (∀ later ∈ after, ¬ later.Says .grant grantee table privilege) →
    ¬ Covers w grantee table privilege

/-- What the last statement granted is covered. -/
def GrantedCovered (events : List PrivilegeEvent) (w : World) : Prop :=
  ∀ before event, events = before ++ [event] →
    ∀ grantee table privilege, event.Says .grant grantee table privilege →
    Covers w grantee table privilege

theorem PrivilegeHistory.revokedUncovered (hstores : o.storesGrants = true) {w₀ : World}
    {events : List PrivilegeEvent} (h : PrivilegeHistory o unsupported SaysFirst w₀ events w) :
  RevokedUncovered events w
  := by
  induction h with
  | start =>
      intro before event after hevents
      simp at hevents
  | @step events w session change statement hhistory hmeets ih =>
      intro before event after hevents grantee table privilege hrevokes hlater hcovers
      obtain rfl | ⟨after', last, rfl⟩ := List.eq_nil_or_concat after
      · obtain ⟨rfl, hlast⟩ := List.append_inj' hevents rfl
        obtain rfl := (List.cons.inj hlast).1
        exact not_covers_of_revoked hstores hmeets hrevokes hcovers
      · rw [List.concat_eq_append, ← List.cons_append, ← List.append_assoc] at hevents
        obtain ⟨rfl, hlast⟩ := List.append_inj' hevents rfl
        obtain rfl := (List.cons.inj hlast).1
        obtain hbefore | hgrants := covers_before hstores hmeets hcovers
        · apply ih before event after' rfl grantee table privilege hrevokes _ hbefore
          intro later hmem
          apply hlater later
          simp [hmem]
        · apply hlater _ _ hgrants
          simp

theorem PrivilegeHistory.grantedCovered (hstores : o.storesGrants = true) {w₀ : World}
    {events : List PrivilegeEvent} (h : PrivilegeHistory o unsupported SaysFirst w₀ events w) :
  GrantedCovered events w
  := by
  intro before event hevents grantee table privilege hgrants
  cases h with
  | start => simp at hevents
  | step session change statement hhistory hmeets =>
      obtain ⟨rfl, hlast⟩ := List.append_inj' hevents rfl
      obtain rfl := (List.cons.inj hlast).1
      exact covers_of_granted hstores hmeets hgrants

/-- In every history in which each GRANT names its first grantee, table and privilege only, or
what was granted before, and each REVOKE meets no other row than that of its first, the statements
mean what they say. -/
theorem privilegeHistory_meansWhatItSays (hstores : o.storesGrants = true) {w₀ w : World}
    {events : List PrivilegeEvent} (h : PrivilegeHistory o unsupported SaysFirst w₀ events w) :
  MeansWhatItSays o events w
  := by
  constructor
  case granted =>
    rintro before event hevents _ table privilege hgrants checked rfl hread
    have hcovers := h.grantedCovered hstores before event hevents _ _ _ hgrants
    cases hadmin : userIsAdmin w.catalog checked.user with
    | true => exact checkTableAccess_admin hadmin
    | false => exact (checkTableAccess_ok_iff hstores hadmin).mpr ⟨hread, hcovers⟩
  case revoked =>
    rintro before event after hevents _ table privilege hrevokes hlater checked rfl hadmin hok
    obtain ⟨-, hcovers⟩ := (checkTableAccess_ok_iff hstores hadmin).mp hok
    exact h.revokedUncovered hstores before event after hevents _ _ _ hrevokes hlater hcovers

end

/-! ### Statements of one privilege, table and grantee -/

section

variable {session : SessionContext} {w : World}

/-- A statement on one table for one grantee. -/
def oneStatement (privileges : PrivilegeList) (name : ObjectName) (grantee : String) :
    PrivilegeStatement :=
  { privileges := privileges
    objects := .tables [name] (List.cons_ne_nil _ _)
    grantees := [some grantee] }

/-- `ALL`, or one privilege. -/
def PrivilegeList.One : PrivilegeList → Prop
  | .all => True
  | .actions listed _ => listed.length = 1

theorem PrivilegeList.One.first {privileges : PrivilegeList} (h : privileges.One)
    {privilege : String} (hnames : privileges.Names privilege) :
  privileges.first = privilege ∨ privileges = .all
  := by
  cases privileges with
  | all =>
      right
      rfl
  | actions listed hnonempty =>
      left
      obtain ⟨action, rfl⟩ := List.length_eq_one_iff.mp h
      obtain ⟨_, hmem, rfl⟩ := hnames
      rw [List.mem_singleton.mp hmem]
      rfl

theorem oneStatement_first {privileges : PrivilegeList} {name : ObjectName} {named : String}
    (hplain : name.Plain) {grantee table privilege : String}
    (h : (oneStatement privileges name named).Names session grantee table privilege) :
  (oneStatement privileges name named).First session grantee table
  := by
  obtain ⟨hgrantee, ⟨name', hname, hresolve⟩, -⟩ := h
  obtain rfl := List.mem_singleton.mp hname
  obtain rfl := Option.some.inj (List.mem_singleton.mp hgrantee)
  exact ⟨rfl, name', rfl, hplain, hresolve⟩

/-- A GRANT of one privilege, or of `ALL`, on one table to one grantee says its first. -/
theorem saysFirst_grant {privileges : PrivilegeList} (hone : privileges.One) {name : ObjectName}
    (hplain : name.Plain) (named : String) :
  SaysFirst session .grant (oneStatement privileges name named) w
  := by
  constructor
  · intro name' hname'
    rw [← Option.some.inj hname']
    exact hplain
  · intro grantee table privilege hnames
    left
    apply And.intro (oneStatement_first hplain hnames)
    obtain hfirst | hall := hone.first hnames.2.2
    · left
      exact hfirst
    · right
      rw [show (oneStatement privileges name named).privileges = .all from hall]
      rfl

/-- A REVOKE of one privilege, or of `ALL`, on one table from one grantee says its first, when the
grantee was not granted `ALL` instead of the privilege, or a privilege instead of `ALL`. -/
theorem saysFirst_revoke {privileges : PrivilegeList} (hone : privileges.One) {name : ObjectName}
    (hplain : name.Plain) {named : String}
    (hrows : ∀ row ∈ w.permissions, row.grantee = named → row.objectType = "table" →
      name.resolve session = some row.objectName → privileges = .all ∨ row.privilege = "ALL" →
      row.privilege = privileges.first) :
  SaysFirst session .revoke (oneStatement privileges name named) w
  := by
  intro grantee table privilege hnames row hrow hcovers
  apply And.intro (oneStatement_first hplain hnames)
  simp only [ObjectPermission.covers, Bool.and_eq_true, Bool.or_eq_true, decide_eq_true_eq]
    at hcovers
  obtain ⟨⟨⟨hgrantee, htype⟩, htable⟩, hprivilege⟩ := hcovers
  obtain ⟨hnamed, ⟨name', hname, hresolve⟩, hlisted⟩ := hnames
  obtain rfl := List.mem_singleton.mp hname
  obtain rfl := Option.some.inj (List.mem_singleton.mp hnamed)
  rw [← htable] at hresolve
  obtain hfirst | hall := hone.first hlisted
  · obtain hsame | hwide := hprivilege
    · exact hsame.trans hfirst.symm
    · exact hrows row hrow hgrantee htype hresolve (.inr hwide)
  · exact hrows row hrow hgrantee htype hresolve (.inl hall)

end

/-! ### Two histories of an administrator -/

def selectAction : PrivilegeAction := ⟨"SELECT", by decide⟩

def insertAction : PrivilegeAction := ⟨"INSERT", by decide⟩

/-- A list of one privilege. -/
def justSelect : PrivilegeList := .actions [selectAction] (List.cons_ne_nil _ _)

/-- The world after statements of the administrator on the table `t`. -/
def sampleStatements : List (PrivilegeChange × PrivilegeStatement) → World → World
  | [], w => w
  | (change, statement) :: rest, w =>
    sampleStatements rest (afterPrivilegeStatement sampleOutside "" {} change statement w)

/-- The events of these statements. -/
def sampleStatementEvents : List (PrivilegeChange × PrivilegeStatement) → World →
    List PrivilegeEvent
  | [], _ => []
  | (change, statement) :: rest, w =>
    eventOf sampleOutside "" {} change statement w
      :: sampleStatementEvents rest (afterPrivilegeStatement sampleOutside "" {} change statement w)

theorem privilegeHistory_sample
    {allowed : SessionContext → PrivilegeChange → PrivilegeStatement → World → Prop}
    {w₀ w : World} {events : List PrivilegeEvent}
    (h : PrivilegeHistory sampleOutside "" allowed w₀ events w)
    (statements : List (PrivilegeChange × PrivilegeStatement))
    (hallowed : Run.AllAllowed (fun s w => afterPrivilegeStatement sampleOutside "" {} s.1 s.2 w)
      (fun s w => allowed {} s.1 s.2 w) statements w) :
  PrivilegeHistory sampleOutside "" allowed w₀ (events ++ sampleStatementEvents statements w)
    (sampleStatements statements w)
  := by
  induction statements generalizing w events with
  | nil => simpa [sampleStatementEvents, sampleStatements] using h
  | cons statement rest ih =>
      have hstep := ih (h.step {} statement.1 statement.2 hallowed.1) hallowed.2
      rw [List.append_assoc] at hstep
      exact hstep

/-- The administrator grants `SELECT` on `t`, and revokes it again. -/
def grantThenRevoke : List (PrivilegeChange × PrivilegeStatement) :=
  [(.grant, oneStatement justSelect ["t"] "analytics_reader"),
    (.revoke, oneStatement justSelect ["public", "t"] "analytics_reader")]

theorem privilegeHistory_meansWhatItSays_revoked :
  MeansWhatItSays sampleOutside (sampleStatementEvents grantThenRevoke World.bootstrap)
    (sampleStatements grantThenRevoke World.bootstrap)
  := by
  have hrows : (afterPrivilegeStatement sampleOutside "" {} .grant
      (oneStatement justSelect ["t"] "analytics_reader") World.bootstrap).permissions
        = [⟨"analytics_reader", "table", "postgres.public.t", "SELECT"⟩] := by decide
  have hallowed : Run.AllAllowed (fun s w => afterPrivilegeStatement sampleOutside "" {} s.1 s.2 w)
      (fun s w => SaysFirst {} s.1 s.2 w) grantThenRevoke World.bootstrap := by
    have hone : justSelect.One := rfl
    refine ⟨saysFirst_grant hone ?_ _, saysFirst_revoke hone ?_ ?_, trivial⟩
    · rw [ObjectName.Plain]
      decide
    · rw [ObjectName.Plain]
      decide
    · intro row hrow _ _ _ _
      rw [hrows, List.mem_singleton] at hrow
      rw [hrow]
      rfl
  exact privilegeHistory_meansWhatItSays (by decide)
    (privilegeHistory_sample .start grantThenRevoke hallowed)

/-- The administrator grants two privileges, and one of them is dropped. -/
def grantTwo : PrivilegeStatement :=
  oneStatement (.actions [selectAction, insertAction] (List.cons_ne_nil _ _)) ["t"]
    "analytics_reader"

/-- The administrator grants `ALL`, and revokes `SELECT`. -/
def grantAllRevokeSelect : List (PrivilegeChange × PrivilegeStatement) :=
  [(.grant, oneStatement .all ["t"] "analytics_reader"),
    (.revoke, oneStatement justSelect ["t"] "analytics_reader")]

/-- Statements that do not mean what they say: the second privilege of a GRANT is not granted; and
a REVOKE leaves the row of `ALL`. -/
theorem privilegeHistory_not_meansWhatItSays :
  (¬ ∀ w₀ events w, PrivilegeHistory sampleOutside "" (fun _ _ _ _ => True) w₀ events w →
      MeansWhatItSays sampleOutside events w)
    ∧ ¬ MeansWhatItSays sampleOutside
        (sampleStatementEvents grantAllRevokeSelect World.bootstrap)
        (sampleStatements grantAllRevokeSelect World.bootstrap)
  := by
  constructor
  · intro h
    have hhistory : PrivilegeHistory sampleOutside "" (fun _ _ _ _ => True) World.bootstrap
        ([] ++ [eventOf sampleOutside "" {} .grant grantTwo World.bootstrap])
        (afterPrivilegeStatement sampleOutside "" {} .grant grantTwo World.bootstrap) :=
      PrivilegeHistory.start.step {} .grant grantTwo trivial
    have hgranted := (h _ _ _ hhistory).granted [] _ rfl "analytics_reader" "postgres.public.t"
      "INSERT" ?_ readerSession rfl (by decide)
    · revert hgranted
      decide
    · refine ⟨by decide, rfl, List.mem_singleton.mpr rfl, ?_, ?_⟩
      · exact ⟨["t"], List.mem_singleton.mpr rfl, rfl⟩
      · exact ⟨insertAction, by simp, rfl⟩
  · intro h
    apply h.revoked [_] _ [] rfl "analytics_reader" "postgres.public.t" "SELECT" _ (by simp)
      readerSession rfl
    · decide
    · decide
    · refine ⟨by decide, rfl, List.mem_singleton.mpr rfl, ?_, ?_⟩
      · exact ⟨["t"], List.mem_singleton.mpr rfl, rfl⟩
      · exact ⟨selectAction, List.mem_singleton.mpr rfl, rfl⟩
