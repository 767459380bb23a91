import AnalyticsDB.Control.TableEdits
import AnalyticsDB.Lib.Dotted

/-!
# What depends on a constraint

A primary key or a unique constraint that foreign keys refer to may be dropped only with
`CASCADE`, which drops these foreign keys too.  The test for such foreign keys resolves an
unqualified reference in the schema of the table that makes it and does not look at the table
itself; the cascade resolves it in the schema of the table that loses the constraint, and does not
look at the kind of the constraint.  Both agree with what is meant exactly when the constraint
alone has its name, the table does not refer to itself, and no other foreign key is taken for one
that depends on the constraint.
-/

open Eff

/-- A foreign key refers to the table when what its reference leaves out is read as the database
and the schema of the table. -/
def namesTable (databaseName schemaName tableName : String) (constraint : CatalogTableConstraint) :
    Bool :=
  constraint.kind = .foreignKey
    && constraint.referencedDatabase.getD databaseName = databaseName
    && constraint.referencedSchema.getD schemaName = schemaName
    && constraint.referencedTable.getD "" = tableName

namespace CatalogState

variable (state : CatalogState) (databaseName schemaName tableName : String)

/-- A foreign key of some relation refers to the table. -/
def references : Bool :=
  state.relations.toList.any (fun (_, other) =>
    other.constraints.any (referencesTable other databaseName schemaName tableName))

/-- A foreign key of a relation other than the table refers to the table. -/
def referencesFromOther : Bool :=
  state.relations.toList.any (fun (otherKey, other) =>
    otherKey ≠ relationKey databaseName schemaName tableName
      && other.constraints.any (referencesTable other databaseName schemaName tableName))

end CatalogState

/-- What is meant to remain of the constraints of the relation under `otherKey` when a constraint
of the table under `key` is dropped: with `cascade` all but the constraint and the foreign keys
that depend on it, and else all but the constraint. -/
def CatalogTableConstraint.remaining (constraint : CatalogTableConstraint)
    (databaseName schemaName tableName : String) (cascade : Bool) (otherKey : String)
    (other : CatalogRelation) : List CatalogTableConstraint :=
  (if otherKey = relationKey databaseName schemaName tableName then
      other.constraints.erase constraint
    else other.constraints).filter (fun c =>
      !(cascade && constraint.kind.isBacked
        && referencesTable other databaseName schemaName tableName c))

/-- An operation fails and changes nothing. -/
def Refused (m : Op String) (w : World) : Prop :=
  ∃ message, exec m w = (.error (.error message), w)

/-- An operation leaves given constraints of each relation, and it fails only when the catalogue
cannot be saved. -/
def LeavesConstraints (o : Outside) (m : Op String) (w : World)
    (remaining : String → CatalogRelation → List CatalogTableConstraint) : Prop :=
  After m w (fun r w' => (o.saved w.calls = .ok () → ∃ message, r = .ok message)
    ∧ ∀ key, (w'.catalog.relations[key]?).map (·.constraints)
      = (w.catalog.relations[key]?).map (remaining key))

section

variable (o : Outside) (session : SessionContext) (w : World) (database schema : Option String)
  (tableName : String)

/-- A constraint is dropped as meant: without `CASCADE` unless a foreign key depends on it, and
with `CASCADE` together with these foreign keys and nothing else. -/
structure DropsAsMeant (constraint : CatalogTableConstraint) (ifExists : Bool) : Prop where
  restrict :
    Refused (dropConstraint o session database schema tableName constraint.name ifExists false) w
      ↔ constraint.kind.isBacked = true ∧ w.catalog.references (database.getD session.database)
          (schema.getD session.schema) tableName = true
  dropped :
    ¬ Refused (dropConstraint o session database schema tableName constraint.name ifExists false)
        w →
    LeavesConstraints o
      (dropConstraint o session database schema tableName constraint.name ifExists false) w
      (constraint.remaining (database.getD session.database) (schema.getD session.schema)
        tableName false)
  cascade : LeavesConstraints o
    (dropConstraint o session database schema tableName constraint.name ifExists true) w
    (constraint.remaining (database.getD session.database) (schema.getD session.schema)
      tableName true)

end

/-- The text that makes `IF EXISTS` take an error for a missing constraint is in one of the
names the error reports. -/
def saysNotFound (databaseName schemaName tableName constraintName : String) : Bool :=
  [constraintName, databaseName, schemaName, tableName].any (contains · "not found")

/-- A constraint and the foreign keys that depend on it can be told apart from all others: it
alone has its name, it is not referred to from its own table, and every foreign key elsewhere that
the cascade takes to depend on it does. -/
structure CatalogState.DependsPlainly (state : CatalogState) (relation : CatalogRelation)
    (databaseName schemaName tableName : String) (constraint : CatalogTableConstraint)
    (ifExists : Bool) : Prop where
  alone : (relation.constraints.filter (·.name = constraint.name)).length = 1
  outside : constraint.kind.isBacked = true → ∀ c ∈ relation.constraints,
    referencesTable relation databaseName schemaName tableName c = false
  agree : ∀ otherKey other, state.relations[otherKey]? = some other →
    otherKey ≠ relationKey databaseName schemaName tableName → ∀ c ∈ other.constraints,
      namesTable databaseName schemaName tableName c = true →
      constraint.kind.isBacked = true
        ∧ referencesTable other databaseName schemaName tableName c = true
  reported : ifExists = true → constraint.kind.isBacked = true →
    state.referencesFromOther databaseName schemaName tableName = true →
    saysNotFound databaseName schemaName tableName constraint.name = false

/-! ### How the drop ends -/

theorem dropForeignKeysTo_constraints (databaseName schemaName tableName : String)
    (other : CatalogRelation) :
  (dropForeignKeysTo databaseName schemaName tableName other).constraints
    = other.constraints.filter (fun c => !namesTable databaseName schemaName tableName c)
  := rfl

/-- The error of a drop that is refused. -/
def dependedOnMessage (databaseName schemaName tableName constraintName : String) : String :=
  s!"Cannot drop constraint '{constraintName}' on table '{databaseName}.{schemaName}.{tableName}' because other objects depend on it. Use CASCADE to drop dependent objects."

theorem contains_iff_isInfix {s part : String} :
  contains s part = true ↔ part.toList <:+: s.toList
  := by
  simp only [contains, List.any_eq_true, List.mem_tails, List.isPrefixOf_iff_prefix,
    List.infix_iff_prefix_suffix]
  constructor
  · rintro ⟨t, hsuffix, hstart⟩
    exact ⟨t, hstart, hsuffix⟩
  · rintro ⟨t, hstart, hsuffix⟩
    exact ⟨t, hsuffix, hstart⟩

/-- The error says that something is not found exactly when one of the names does. -/
theorem contains_dependedOnMessage (databaseName schemaName tableName constraintName : String) :
  contains (dependedOnMessage databaseName schemaName tableName constraintName) "not found"
    = saysNotFound databaseName schemaName tableName constraintName
  := by
  -- the quotes and dots around the names are not in the text
  have hstart : "Cannot drop constraint '".toList = "Cannot drop constraint ".toList ++ ['\''] := by
    decide
  have hon : "' on table '".toList = '\'' :: (" on table ".toList ++ ['\'']) := by decide
  have hend : "' because other objects depend on it. Use CASCADE to drop dependent objects.".toList
      = '\'' :: (" because other objects depend on it".toList ++ '.' ::
          " Use CASCADE to drop dependent objects".toList ++ ['.']) := by decide
  have hone : ".".toList = ['.'] := by decide
  have hquote : '\'' ∉ "not found".toList := by decide
  have hdot : '.' ∉ "not found".toList := by decide
  have htexts : ∀ text ∈ ["Cannot drop constraint ", " on table ",
      " because other objects depend on it", " Use CASCADE to drop dependent objects", ""],
      ¬ "not found".toList <:+: text.toList := by decide
  simp only [List.forall_mem_cons, String.toList_empty] at htexts
  have hmessage : dependedOnMessage databaseName schemaName tableName constraintName
      = "Cannot drop constraint '" ++ constraintName ++ "' on table '" ++ databaseName ++ "."
        ++ schemaName ++ "." ++ tableName
        ++ "' because other objects depend on it. Use CASCADE to drop dependent objects." := rfl
  apply Bool.eq_iff_iff.mpr
  simp only [contains_iff_isInfix, hmessage, String.toList_append, hstart, hon, hend, hone,
    List.nil_append, Dotted.isInfix_append_cons_iff hquote, Dotted.isInfix_append_cons_iff hdot, htexts,
    false_or, or_false, List.append_assoc, List.cons_append, saysNotFound, List.any_cons,
    List.any_nil, Bool.or_false, Bool.or_eq_true]

section

variable {state : CatalogState} {relation : CatalogRelation} {databaseName schemaName tableName
  constraintName : String}

/-- The constraint is taken to be depended on. -/
def CatalogState.dependedOn (state : CatalogState) (relation : CatalogRelation)
    (databaseName schemaName tableName constraintName : String) : Bool :=
  match relation.constraints.find? (·.name = constraintName) with
  | none => false
  | some target => target.kind.isBacked
      && state.referencesFromOther databaseName schemaName tableName

/-- A constraint that is there is dropped unless it is taken to be depended on. -/
theorem buildRelationWithDroppedConstraint_of_hasConstraint
    (hrelation : state.relations[relationKey databaseName schemaName tableName]? = some relation)
    (hkind : relation.kind = .table) (hname : relation.hasConstraint constraintName = true)
    (cascade : Bool) :
  buildRelationWithDroppedConstraint state databaseName schemaName tableName constraintName cascade
    = if state.dependedOn relation databaseName schemaName tableName constraintName && !cascade
      then .error (dependedOnMessage databaseName schemaName tableName constraintName)
      else .ok (relation.withoutConstraint constraintName)
  := by
  have hlength : (relation.constraints.filter (·.name ≠ constraintName)).length
      ≠ relation.constraints.length := by
    obtain ⟨constraint, hconstraint, hconstraintName⟩ := List.any_eq_true.mp hname
    apply Nat.ne_of_lt
    apply List.length_filter_lt_length_iff_exists.mpr
    exact ⟨constraint, hconstraint, by simpa using hconstraintName⟩
  unfold buildRelationWithDroppedConstraint
  simp only [hrelation]
  rw [if_neg (by simpa using hkind)]
  change (if CatalogState.dependedOn state relation databaseName schemaName tableName
      constraintName && !cascade then _ else _) = _
  by_cases hdependedOn : (state.dependedOn relation databaseName schemaName tableName
      constraintName && !cascade) = true
  · rw [if_pos hdependedOn, if_pos hdependedOn]
    rfl
  · rw [if_neg hdependedOn, if_neg hdependedOn, if_neg hlength]
    rfl

end

section

variable {o : Outside} {session : SessionContext} {w : World} {database schema : Option String}
  {tableName constraintName : String} {ifExists : Bool} {relation : CatalogRelation}

/-- An edit that is persisted fails only when the catalogue cannot be saved. -/
theorem after_saved_edit (o : Outside) (f : CatalogState → CatalogState) (message : String)
    (w : World) :
  After (writeState f >>= fun _ => persist o >>= fun _ => pure message : Op String) w (fun r w' =>
    (o.saved w.calls = .ok () → r = .ok message) ∧ w'.catalog = (f w.catalog).bump)
  := by
  have houtcome : After (writeState f >>= fun _ => persist o >>= fun _ => pure message : Op String)
      w (fun r _ => o.saved w.calls = .ok () → r = .ok message) := by
    rw [after_bind, after_writeState, resume_ok, after_bind, after_persist]
    cases o.saved w.calls with
    | ok _ =>
        intro _
        rfl
    | error e =>
        intro hsaved
        cases hsaved
  apply After.mono (houtcome.and (after_edit o f message w))
  rintro r w' ⟨hresult, -, hcatalog⟩
  exact ⟨hresult, hcatalog⟩

/-- What a drop that is not refused leaves of the constraints of the relation under `otherKey`. -/
def droppedConstraints (databaseName schemaName tableName constraintName : String) (cascade : Bool)
    (otherKey : String) (other : CatalogRelation) : List CatalogTableConstraint :=
  if otherKey = relationKey databaseName schemaName tableName then
    other.constraints.filter (·.name ≠ constraintName)
  else if cascade then
    other.constraints.filter (fun c => !namesTable databaseName schemaName tableName c)
  else
    other.constraints

/-- The constraints of each relation once the table is replaced. -/
theorem constraints_insert_withoutConstraint {state : CatalogState}
    {databaseName schemaName : String}
    (hrelation : state.relations[relationKey databaseName schemaName tableName]? = some relation)
    (otherKey : String) :
  ((state.relations.insert (relationKey databaseName schemaName tableName)
      (relation.withoutConstraint constraintName))[otherKey]?).map (·.constraints)
    = (state.relations[otherKey]?).map
        (droppedConstraints databaseName schemaName tableName constraintName false otherKey)
  := by
  rw [KeyMap.get_insert]
  by_cases hother : relationKey databaseName schemaName tableName = otherKey
  · subst hother
    rw [if_pos rfl, hrelation, Option.map_some, Option.map_some, droppedConstraints, if_pos rfl]
    rfl
  · rw [if_neg hother]
    congr 1
    funext other
    rw [droppedConstraints, if_neg (Ne.symm hother)]
    rfl

/-- The constraints of each relation once the foreign keys are dropped, too. -/
theorem constraints_withoutForeignKeysTo {state : CatalogState} {databaseName schemaName : String}
    (hrelation : state.relations[relationKey databaseName schemaName tableName]? = some relation)
    (otherKey : String) :
  ((CatalogState.withoutForeignKeysTo { state with
      relations := state.relations.insert (relationKey databaseName schemaName tableName)
        (relation.withoutConstraint constraintName) }
      databaseName schemaName tableName).relations[otherKey]?).map (·.constraints)
    = (state.relations[otherKey]?).map
        (droppedConstraints databaseName schemaName tableName constraintName true otherKey)
  := by
  rw [CatalogState.withoutForeignKeysTo, Std.ExtTreeMap.getElem?_map, KeyMap.get_insert]
  by_cases hother : relationKey databaseName schemaName tableName = otherKey
  · subst hother
    rw [if_pos rfl, hrelation, Option.map_some, Option.map_some, Option.map_some, if_pos rfl,
      droppedConstraints, if_pos rfl]
    rfl
  · rw [if_neg hother, Option.map_map]
    congr 1
    funext other
    rw [Function.comp_apply, if_neg (Ne.symm hother), dropForeignKeysTo_constraints,
      droppedConstraints, if_neg (Ne.symm hother)]
    rfl

/-- A drop that is not refused removes the constraints of the name, and with `CASCADE` the foreign
keys that are taken to depend on the table. -/
theorem leavesConstraints_dropConstraint
    (hsession : validateSession w.catalog session = .ok ())
    (hrelation : w.catalog.relations[relationKey (database.getD session.database)
      (schema.getD session.schema) tableName]? = some relation)
    (hkind : relation.kind = .table) (hname : relation.hasConstraint constraintName = true)
    {cascade : Bool} (hdropped : (w.catalog.dependedOn relation (database.getD session.database)
      (schema.getD session.schema) tableName constraintName && !cascade) = false) :
  LeavesConstraints o
    (dropConstraint o session database schema tableName constraintName ifExists cascade) w
    (droppedConstraints (database.getD session.database) (schema.getD session.schema) tableName
      constraintName cascade)
  := by
  have hbuild := buildRelationWithDroppedConstraint_of_hasConstraint hrelation hkind hname cascade
  rw [hdropped] at hbuild
  rw [LeavesConstraints, dropConstraint, after_bind, after_readState, resume_ok, hsession,
    after_bind, after_orBail]
  refine ⟨fun _ h => (by cases h), ?_⟩
  rintro ⟨⟩ -
  simp only [resume_ok, hbuild, Bool.false_eq_true, if_false]
  cases cascade with
  | false =>
      apply After.mono (after_saved_edit o (fun state => { state with
        relations := state.relations.insert _ (relation.withoutConstraint constraintName) }) _ w)
      rintro r w' ⟨hresult, hcatalog⟩
      refine ⟨fun hsaved => ⟨_, hresult hsaved⟩, ?_⟩
      rw [hcatalog]
      exact constraints_insert_withoutConstraint hrelation
  | true =>
      apply After.mono (after_saved_edit o (fun state =>
        CatalogState.withoutForeignKeysTo { state with
          relations := state.relations.insert _ (relation.withoutConstraint constraintName) }
          (database.getD session.database) (schema.getD session.schema) tableName) _ w)
      rintro r w' ⟨hresult, hcatalog⟩
      refine ⟨fun hsaved => ⟨_, hresult hsaved⟩, ?_⟩
      rw [hcatalog]
      exact constraints_withoutForeignKeysTo hrelation

/-- A constraint that is taken to be depended on is not dropped without `CASCADE`; `IF EXISTS` takes
an error that says that something is not found for a missing constraint. -/
theorem exec_dropConstraint_dependedOn
    (hsession : validateSession w.catalog session = .ok ())
    (hrelation : w.catalog.relations[relationKey (database.getD session.database)
      (schema.getD session.schema) tableName]? = some relation)
    (hkind : relation.kind = .table) (hname : relation.hasConstraint constraintName = true)
    (hdependedOn : w.catalog.dependedOn relation (database.getD session.database)
      (schema.getD session.schema) tableName constraintName = true) :
  exec (dropConstraint o session database schema tableName constraintName ifExists false) w
    = (if ifExists && saysNotFound (database.getD session.database) (schema.getD session.schema)
            tableName constraintName then
          .ok s!"Constraint '{constraintName}' does not exist, skipping."
        else
          .error (.error (dependedOnMessage (database.getD session.database)
            (schema.getD session.schema) tableName constraintName)), w)
  := by
  have hbuild := buildRelationWithDroppedConstraint_of_hasConstraint hrelation hkind hname false
  rw [hdependedOn] at hbuild
  have hread : exec readState w = (.ok w.catalog, w) := rfl
  rw [dropConstraint, exec_bind, hread]
  simp only [hsession, orBail, pure_bind, hbuild, Bool.not_false, Bool.and_self, if_true,
    contains_dependedOnMessage]
  split
  · rfl
  · rfl

end

/-! ### What is dropped and what is meant to be -/

/-- The only element with a property is removed with the elements that have it. -/
theorem filter_not_eq_erase {α : Type} [DecidableEq α] {p : α → Bool} {l : List α} {a : α}
    (ha : a ∈ l) (hp : p a = true) (hone : (l.filter p).length = 1) :
  l.filter (fun b => !p b) = l.erase a
  := by
  induction l with
  | nil => cases ha
  | cons b l ih =>
      by_cases hb : p b = true
      · -- no element of the rest has the property
        rw [List.filter_cons_of_pos hb, List.length_cons, Nat.add_eq_right,
          List.length_eq_zero_iff, List.filter_eq_nil_iff] at hone
        have hab : b = a := by
          rcases List.mem_cons.mp ha with rfl | ha
          · rfl
          · exact absurd hp (hone a ha)
        rw [hab, List.erase_cons_head, List.filter_cons_of_neg (by simpa using hp),
          List.filter_eq_self]
        intro c hc
        simpa using hone c hc
      · have hab : b ≠ a := by
          rintro rfl
          exact hb hp
        rw [List.filter_cons_of_neg hb] at hone
        rw [List.filter_cons_of_pos (by simpa using hb), List.erase_cons_tail (by simpa using hab),
          ih ((List.mem_cons.mp ha).resolve_left (Ne.symm hab)) hone]

/-- When removing an element removes all that have a property, it is the only one. -/
theorem length_filter_of_erase {α : Type} [DecidableEq α] {p : α → Bool} {l : List α} {a : α}
    (ha : a ∈ l) (hp : p a = true) (hnone : (l.erase a).filter p = []) :
  (l.filter p).length = 1
  := by
  have hmem : a ∈ l.filter p := List.mem_filter.mpr ⟨ha, hp⟩
  have hlength := List.length_erase_of_mem hmem
  rw [List.erase_filter, hnone, List.length_nil] at hlength
  have hpos := List.length_pos_of_mem hmem
  omega

section

variable {databaseName schemaName tableName : String} {other relation : CatalogRelation}
  {constraint c : CatalogTableConstraint}

theorem namesTable_of_referencesTable
    (h : referencesTable other databaseName schemaName tableName c = true) :
  namesTable databaseName schemaName tableName c = true
  := by
  simp only [referencesTable, namesTable, Bool.and_eq_true, decide_eq_true_eq] at h ⊢
  obtain ⟨⟨⟨hkind, hdatabase⟩, hschema⟩, htable⟩ := h
  refine ⟨⟨⟨hkind, ?_⟩, ?_⟩, htable⟩
  · cases hreferenced : c.referencedDatabase with
    | none => rfl
    | some name => rwa [hreferenced] at hdatabase
  · cases hreferenced : c.referencedSchema with
    | none => rfl
    | some name => rwa [hreferenced] at hschema

/-- A constraint that refers to a table is a foreign key. -/
theorem isBacked_of_referencesTable
    (h : referencesTable other databaseName schemaName tableName c = true) :
  c.kind.isBacked = false
  := by
  simp only [referencesTable, Bool.and_eq_true, decide_eq_true_eq] at h
  rw [h.1.1.1]
  rfl

end

section

variable {o : Outside} {w : World} {m : Op String}
  {remaining remaining' : String → CatalogRelation → List CatalogTableConstraint}

theorem LeavesConstraints.congr (h : LeavesConstraints o m w remaining)
    (heq : ∀ key other, w.catalog.relations[key]? = some other →
      remaining key other = remaining' key other) :
  LeavesConstraints o m w remaining'
  := by
  apply After.mono h
  rintro r w' ⟨hresult, hconstraints⟩
  refine ⟨hresult, ?_⟩
  intro key
  rw [hconstraints key]
  cases hother : w.catalog.relations[key]? with
  | none => rfl
  | some other => rw [Option.map_some, Option.map_some, heq key other hother]

/-- What an operation leaves is determined. -/
theorem LeavesConstraints.unique (h : LeavesConstraints o m w remaining)
    (h' : LeavesConstraints o m w remaining') {key : String} {other : CatalogRelation}
    (hother : w.catalog.relations[key]? = some other) :
  remaining key other = remaining' key other
  := by
  have hconstraints := (h.2 key).symm.trans (h'.2 key)
  rw [hother, Option.map_some, Option.map_some] at hconstraints
  exact Option.some.inj hconstraints

/-- An operation that leaves other constraints of a relation than there were is not refused. -/
theorem LeavesConstraints.not_refused (h : LeavesConstraints o m w remaining) {key : String}
    {relation : CatalogRelation} (hrelation : w.catalog.relations[key]? = some relation)
    (hchanged : remaining key relation ≠ relation.constraints) :
  ¬ Refused m w
  := by
  rintro ⟨message, hexec⟩
  have hconstraints := h.2 key
  rw [hexec, hrelation, Option.map_some, Option.map_some] at hconstraints
  exact hchanged (Option.some.inj hconstraints).symm

end

section

variable {state : CatalogState} {databaseName schemaName tableName : String}
  {relation : CatalogRelation} {constraint : CatalogTableConstraint}

theorem CatalogState.references_iff :
  state.references databaseName schemaName tableName = true
    ↔ ∃ (key : String) (other : CatalogRelation), state.relations[key]? = some other
      ∧ other.constraints.any (referencesTable other databaseName schemaName tableName) = true
  := by
  simp only [CatalogState.references, List.any_eq_true (l := Std.ExtTreeMap.toList _), Prod.exists,
    Std.ExtTreeMap.mem_toList_iff_getElem?_eq_some]

theorem CatalogState.referencesFromOther_iff :
  state.referencesFromOther databaseName schemaName tableName = true
    ↔ ∃ (key : String) (other : CatalogRelation), state.relations[key]? = some other
      ∧ key ≠ relationKey databaseName schemaName tableName
      ∧ other.constraints.any (referencesTable other databaseName schemaName tableName) = true
  := by
  simp only [CatalogState.referencesFromOther, List.any_eq_true (l := Std.ExtTreeMap.toList _),
    Prod.exists, Std.ExtTreeMap.mem_toList_iff_getElem?_eq_some, Bool.and_eq_true,
    decide_eq_true_eq]

/-- A constraint that alone has its name is found under it. -/
theorem CatalogState.dependedOn_of_alone
    (halone : (relation.constraints.filter (·.name = constraint.name)).length = 1)
    (hconstraint : constraint ∈ relation.constraints) :
  state.dependedOn relation databaseName schemaName tableName constraint.name
    = (constraint.kind.isBacked && state.referencesFromOther databaseName schemaName tableName)
  := by
  obtain ⟨found, hfound⟩ := List.length_eq_one_iff.mp halone
  have hmem : constraint ∈ relation.constraints.filter (·.name = constraint.name) :=
    List.mem_filter.mpr ⟨hconstraint, by simp⟩
  rw [hfound, List.mem_singleton] at hmem
  rw [CatalogState.dependedOn, ← List.head?_filter, hfound, ← hmem]
  rfl

theorem CatalogState.references_of_other
    (h : state.referencesFromOther databaseName schemaName tableName = true) :
  state.references databaseName schemaName tableName = true
  := by
  obtain ⟨key, other, hother, -, hreferences⟩ := CatalogState.referencesFromOther_iff.mp h
  exact CatalogState.references_iff.mpr ⟨key, other, hother, hreferences⟩

/-- What is dropped is what is meant to be. -/
theorem CatalogState.DependsPlainly.droppedConstraints_eq {ifExists : Bool}
    (h : state.DependsPlainly relation databaseName schemaName tableName constraint ifExists)
    (hconstraint : constraint ∈ relation.constraints)
    (hrelation : state.relations[relationKey databaseName schemaName tableName]? = some relation)
    (cascade : Bool) {key : String} {other : CatalogRelation}
    (hother : state.relations[key]? = some other) :
  droppedConstraints databaseName schemaName tableName constraint.name cascade key other
    = constraint.remaining databaseName schemaName tableName cascade key other
  := by
  unfold droppedConstraints CatalogTableConstraint.remaining
  by_cases hkey : key = relationKey databaseName schemaName tableName
  · -- the table itself: the constraint is the only one that is removed
    subst hkey
    rw [hrelation] at hother
    cases hother
    have herase := filter_not_eq_erase hconstraint (p := fun c => c.name = constraint.name)
      (by simp) h.alone
    have hkept : (relation.constraints.erase constraint).filter (fun c =>
        !(cascade && constraint.kind.isBacked
          && referencesTable relation databaseName schemaName tableName c))
        = relation.constraints.erase constraint := by
      rw [List.filter_eq_self]
      intro c hc
      cases hbacked : constraint.kind.isBacked with
      | false => simp
      | true => simp [h.outside hbacked c (List.mem_of_mem_erase hc)]
    rw [if_pos rfl, if_pos rfl, hkept, ← herase]
    apply List.filter_congr
    intro c _
    simp
  · rw [if_neg hkey, if_neg hkey]
    cases cascade with
    | false => simp
    | true =>
        apply List.filter_congr
        intro c hc
        -- the two readings of a reference agree
        congr 1
        rw [Bool.eq_iff_iff, Bool.and_eq_true, Bool.and_eq_true]
        constructor
        · intro hnames
          obtain ⟨hbacked, hreferences⟩ := h.agree key other hother hkey c hc hnames
          exact ⟨⟨rfl, hbacked⟩, hreferences⟩
        · rintro ⟨-, hreferences⟩
          exact namesTable_of_referencesTable hreferences

/-- The foreign keys that depend on the constraint are not in its table. -/
theorem CatalogState.DependsPlainly.references_eq {ifExists : Bool}
    (h : state.DependsPlainly relation databaseName schemaName tableName constraint ifExists)
    (hrelation : state.relations[relationKey databaseName schemaName tableName]? = some relation)
    (hbacked : constraint.kind.isBacked = true) :
  state.references databaseName schemaName tableName
    = state.referencesFromOther databaseName schemaName tableName
  := by
  rw [Bool.eq_iff_iff]
  refine ⟨?_, CatalogState.references_of_other⟩
  rw [CatalogState.references_iff, CatalogState.referencesFromOther_iff]
  rintro ⟨key, other, hother, hreferences⟩
  refine ⟨key, other, hother, ?_, hreferences⟩
  rintro rfl
  rw [hrelation] at hother
  cases hother
  obtain ⟨c, hc, hreferencesTable⟩ := List.any_eq_true.mp hreferences
  rw [h.outside hbacked c hc] at hreferencesTable
  cases hreferencesTable

end

section

variable {o : Outside} {session : SessionContext} {w : World} {database schema : Option String}
  {tableName : String} {ifExists : Bool} {relation : CatalogRelation}
  {constraint : CatalogTableConstraint}

/-- A constraint whose dependencies are plain is dropped as meant. -/
theorem CatalogState.DependsPlainly.dropsAsMeant
    (h : w.catalog.DependsPlainly relation (database.getD session.database)
      (schema.getD session.schema) tableName constraint ifExists)
    (hsession : validateSession w.catalog session = .ok ())
    (hrelation : w.catalog.relations[relationKey (database.getD session.database)
      (schema.getD session.schema) tableName]? = some relation)
    (hkind : relation.kind = .table) (hconstraint : constraint ∈ relation.constraints) :
  DropsAsMeant o session w database schema tableName constraint ifExists
  := by
  have hname : relation.hasConstraint constraint.name = true :=
    List.any_eq_true.mpr ⟨constraint, hconstraint, by simp⟩
  have hdependedOn : w.catalog.dependedOn relation (database.getD session.database)
      (schema.getD session.schema) tableName constraint.name
      = (constraint.kind.isBacked && w.catalog.referencesFromOther (database.getD session.database)
          (schema.getD session.schema) tableName) :=
    CatalogState.dependedOn_of_alone h.alone hconstraint
  -- dropping the constraint takes it from the table
  have hchanged : ∀ cascade, droppedConstraints (database.getD session.database)
      (schema.getD session.schema) tableName constraint.name cascade
      (relationKey (database.getD session.database) (schema.getD session.schema) tableName) relation
      ≠ relation.constraints := by
    intro cascade heq
    rw [droppedConstraints, if_pos rfl, List.filter_eq_self] at heq
    simpa using heq constraint hconstraint
  have hrestrict : w.catalog.dependedOn relation (database.getD session.database)
      (schema.getD session.schema) tableName constraint.name = false →
      LeavesConstraints o (dropConstraint o session database schema tableName constraint.name
        ifExists false) w (droppedConstraints (database.getD session.database)
          (schema.getD session.schema) tableName constraint.name false) := by
    intro hfree
    exact leavesConstraints_dropConstraint hsession hrelation hkind hname (by simp [hfree])
  have hrefused : w.catalog.dependedOn relation (database.getD session.database)
      (schema.getD session.schema) tableName constraint.name = true →
      Refused (dropConstraint o session database schema tableName constraint.name ifExists false)
        w := by
    intro hdepended
    rw [Refused, exec_dropConstraint_dependedOn hsession hrelation hkind hname hdepended]
    rw [hdependedOn, Bool.and_eq_true] at hdepended
    have hreported : (ifExists && saysNotFound (database.getD session.database)
        (schema.getD session.schema) tableName constraint.name) = false := by
      cases hif : ifExists with
      | false => rfl
      | true => exact h.reported hif hdepended.1 hdepended.2
    rw [hreported]
    exact ⟨_, rfl⟩
  constructor
  · cases hdepended : w.catalog.dependedOn relation (database.getD session.database)
        (schema.getD session.schema) tableName constraint.name with
    | true =>
        rw [iff_true_left (hrefused hdepended)]
        rw [hdependedOn, Bool.and_eq_true] at hdepended
        rw [h.references_eq hrelation hdepended.1]
        exact hdepended
    | false =>
        rw [iff_false_left ((hrestrict hdepended).not_refused hrelation (hchanged false))]
        rintro ⟨hbacked, hreferences⟩
        rw [h.references_eq hrelation hbacked] at hreferences
        rw [hdependedOn, hbacked, hreferences] at hdepended
        cases hdepended
  · intro hnotRefused
    have hfree := Bool.eq_false_iff.mpr (mt hrefused hnotRefused)
    exact (hrestrict hfree).congr (fun key other => h.droppedConstraints_eq hconstraint hrelation _)
  · refine LeavesConstraints.congr ?_
      (fun key other => h.droppedConstraints_eq hconstraint hrelation true)
    exact leavesConstraints_dropConstraint hsession hrelation hkind hname (by simp)

/-- The cascade removes what is meant to be removed. -/
theorem DropsAsMeant.droppedConstraints_eq
    (h : DropsAsMeant o session w database schema tableName constraint ifExists)
    (hsession : validateSession w.catalog session = .ok ())
    (hrelation : w.catalog.relations[relationKey (database.getD session.database)
      (schema.getD session.schema) tableName]? = some relation)
    (hkind : relation.kind = .table) (hconstraint : constraint ∈ relation.constraints) {key : String}
    {other : CatalogRelation} (hother : w.catalog.relations[key]? = some other) :
  droppedConstraints (database.getD session.database) (schema.getD session.schema) tableName
      constraint.name true key other
    = constraint.remaining (database.getD session.database) (schema.getD session.schema) tableName
        true key other
  := by
  have hname : relation.hasConstraint constraint.name = true :=
    List.any_eq_true.mpr ⟨constraint, hconstraint, by simp⟩
  refine LeavesConstraints.unique ?_ h.cascade hother
  exact leavesConstraints_dropConstraint hsession hrelation hkind hname (by simp)

/-- A constraint that is dropped as meant and takes no constraint of its name with it is the only
one of its name. -/
theorem DropsAsMeant.alone
    (h : DropsAsMeant o session w database schema tableName constraint ifExists)
    (hsession : validateSession w.catalog session = .ok ())
    (hrelation : w.catalog.relations[relationKey (database.getD session.database)
      (schema.getD session.schema) tableName]? = some relation)
    (hkind : relation.kind = .table) (hconstraint : constraint ∈ relation.constraints)
    (hnone : constraint.kind.isBacked = true → ∀ c ∈ relation.constraints,
      c.name = constraint.name → c.kind.isBacked = true) :
  (relation.constraints.filter (·.name = constraint.name)).length = 1
  := by
  have hdropped := h.droppedConstraints_eq hsession hrelation hkind hconstraint hrelation
  rw [droppedConstraints, if_pos rfl, CatalogTableConstraint.remaining, if_pos rfl] at hdropped
  refine length_filter_of_erase hconstraint (by simp) ?_
  rw [List.filter_eq_nil_iff]
  intro c hc
  simp only [decide_eq_true_eq]
  intro hcname
  have hkept : c ∈ relation.constraints.filter (·.name ≠ constraint.name) := by
    rw [hdropped, List.mem_filter]
    refine ⟨hc, ?_⟩
    cases hbacked : constraint.kind.isBacked with
    | false => simp
    | true =>
        have hcbacked := hnone hbacked c (List.mem_of_mem_erase hc) hcname
        cases hreferences : referencesTable relation (database.getD session.database)
            (schema.getD session.schema) tableName c with
        | false => rfl
        | true =>
            rw [isBacked_of_referencesTable hreferences] at hcbacked
            cases hcbacked
  simpa [hcname] using (List.mem_filter.mp hkept).2

/-- When all constraints of its name are dropped as meant, the dependencies of a constraint are
plain. -/
theorem dependsPlainly_of_dropsAsMeant
    (hall : ∀ c ∈ relation.constraints, c.name = constraint.name →
      DropsAsMeant o session w database schema tableName c ifExists)
    (hsession : validateSession w.catalog session = .ok ())
    (hrelation : w.catalog.relations[relationKey (database.getD session.database)
      (schema.getD session.schema) tableName]? = some relation)
    (hkind : relation.kind = .table) (hconstraint : constraint ∈ relation.constraints) :
  w.catalog.DependsPlainly relation (database.getD session.database) (schema.getD session.schema)
    tableName constraint ifExists
  := by
  have h := hall constraint hconstraint rfl
  have hname : relation.hasConstraint constraint.name = true :=
    List.any_eq_true.mpr ⟨constraint, hconstraint, by simp⟩
  have halone : (relation.constraints.filter (·.name = constraint.name)).length = 1 := by
    -- a foreign key of the name takes nothing else with it
    by_cases hforeign : ∃ c ∈ relation.constraints,
        c.name = constraint.name ∧ c.kind.isBacked = false
    · obtain ⟨c, hc, hcname, hcbacked⟩ := hforeign
      rw [← hcname]
      apply (hall c hc hcname).alone hsession hrelation hkind hc
      intro hbacked
      rw [hcbacked] at hbacked
      cases hbacked
    · push Not at hforeign
      apply h.alone hsession hrelation hkind hconstraint
      intro _ c hc hcname
      simpa using hforeign c hc hcname
  have houtside : constraint.kind.isBacked = true → ∀ c ∈ relation.constraints,
      referencesTable relation (database.getD session.database) (schema.getD session.schema)
        tableName c = false := by
    intro hbacked c hc
    by_contra hreferences
    rw [Bool.not_eq_false] at hreferences
    have hdropped := h.droppedConstraints_eq hsession hrelation hkind hconstraint hrelation
    rw [droppedConstraints, if_pos rfl, CatalogTableConstraint.remaining, if_pos rfl] at hdropped
    -- the foreign key stays although it depends on the constraint
    have hcname : c.name ≠ constraint.name := by
      intro hcname
      obtain ⟨found, hfound⟩ := List.length_eq_one_iff.mp halone
      have hmem : ∀ b ∈ relation.constraints, b.name = constraint.name → b = found := by
        intro b hb hbname
        rw [← List.mem_singleton, ← hfound, List.mem_filter]
        exact ⟨hb, by simpa using hbname⟩
      rw [hmem c hc hcname, ← hmem constraint hconstraint rfl] at hreferences
      rw [isBacked_of_referencesTable hreferences] at hbacked
      cases hbacked
    have hkept : c ∈ relation.constraints.filter (·.name ≠ constraint.name) :=
      List.mem_filter.mpr ⟨hc, by simpa using hcname⟩
    rw [hdropped, List.mem_filter, hbacked, hreferences] at hkept
    exact absurd hkept.2 (by decide)
  refine ⟨halone, houtside, ?_, ?_⟩
  · intro key other hother hkey c hc hnames
    have hdropped := h.droppedConstraints_eq hsession hrelation hkind hconstraint hother
    rw [droppedConstraints, if_neg hkey, if_pos rfl, CatalogTableConstraint.remaining,
      if_neg hkey] at hdropped
    by_contra hdepends
    have hkept : c ∈ other.constraints.filter (fun c => !namesTable (database.getD session.database)
        (schema.getD session.schema) tableName c) := by
      rw [hdropped, List.mem_filter]
      refine ⟨hc, ?_⟩
      rw [← Bool.and_eq_true, Bool.not_eq_true] at hdepends
      rw [Bool.true_and, hdepends]
      rfl
    rw [List.mem_filter, hnames] at hkept
    exact absurd hkept.2 (by decide)
  · intro hif hbacked hother
    have hdepended : w.catalog.dependedOn relation (database.getD session.database)
        (schema.getD session.schema) tableName constraint.name = true := by
      rw [CatalogState.dependedOn_of_alone halone hconstraint, hbacked, hother]
      rfl
    obtain ⟨message, hrefused⟩ := h.restrict.mpr
      ⟨hbacked, CatalogState.references_of_other hother⟩
    rw [exec_dropConstraint_dependedOn hsession hrelation hkind hname hdepended, hif,
      Bool.true_and] at hrefused
    by_contra hmissing
    rw [Bool.not_eq_false] at hmissing
    rw [hmissing] at hrefused
    cases congrArg Prod.fst hrefused

end

/-- Whether the constraints of a name are dropped as meant depends on them and on the foreign keys
of the catalogue as they are before. -/
theorem dropConstraint_asMeant_iff (o : Outside) (session : SessionContext) (w : World)
    (database schema : Option String) (tableName constraintName : String) (ifExists : Bool)
    {relation : CatalogRelation} (hsession : validateSession w.catalog session = .ok ())
    (hrelation : w.catalog.relations[relationKey (database.getD session.database)
      (schema.getD session.schema) tableName]? = some relation)
    (hkind : relation.kind = .table) :
  (∀ constraint ∈ relation.constraints, constraint.name = constraintName →
      DropsAsMeant o session w database schema tableName constraint ifExists)
    ↔ ∀ constraint ∈ relation.constraints, constraint.name = constraintName →
      w.catalog.DependsPlainly relation (database.getD session.database)
        (schema.getD session.schema) tableName constraint ifExists
  := by
  constructor
  · rintro h constraint hconstraint rfl
    exact dependsPlainly_of_dropsAsMeant h hsession hrelation hkind hconstraint
  · rintro h constraint hconstraint rfl
    exact (h constraint hconstraint rfl).dropsAsMeant hsession hrelation hkind hconstraint

namespace Installed

/-- A primary key. -/
def customersKey : CatalogTableConstraint := ⟨"customers_pk", .primaryKey, ["a"], none, none, none, []⟩

/-- A foreign key that refers to a table of the same schema. -/
def customerReference : CatalogTableConstraint :=
  ⟨"orders_fk", .foreignKey, ["b"], none, none, some "customers", ["a"]⟩

/-- Customers and their orders, in two schemas. -/
def customers : List (SessionContext × ControlOp) :=
  [(session, .createSchema none "archive"),
    (session, .registerManagedTable none none "customers" "/data/c" columns [customersKey]),
    (session, .registerManagedTable none (some "archive") "customers" "/data/d" columns
      [customersKey]),
    (session, .registerManagedTable none (some "archive") "orders" "/data/o" columns
      [customerReference])]

end Installed

open Installed in
/-- The customers of the archive lose their key and the orders their reference. -/
theorem dropConstraint_asMeant_archive :
  DropsAsMeant Outside.faultless session (after customers) none (some "archive") "customers"
    customersKey false
  := by
  have hrelation : (after customers).catalog.relations["postgres.archive.customers"]?
      = some (.managedTable "postgres" "archive" "customers" "/data/d" columns [customersKey]) := by
    decide
  refine (dropConstraint_asMeant_iff Outside.faultless session (after customers) none
    (some "archive") "customers" "customers_pk" false (by decide) hrelation rfl).mpr ?_
      customersKey (by decide) rfl
  rintro constraint hconstraint -
  rw [CatalogRelation.managedTable, List.mem_singleton] at hconstraint
  subst hconstraint
  refine ⟨by decide, ?_, ?_, ?_⟩
  · decide
  · have hagree : (after customers).catalog.relations.toList.all (fun (key, other) =>
        key = "postgres.archive.customers" || other.constraints.all (fun c =>
          !namesTable "postgres" "archive" "customers" c
            || referencesTable other "postgres" "archive" "customers" c)) = true := by
      decide
    intro key other hother hkey c hc hnames
    have hall := List.all_eq_true.mp hagree (key, other)
      (Std.ExtTreeMap.mem_toList_iff_getElem?_eq_some.mpr hother)
    simp only [Bool.or_eq_true, decide_eq_true_eq] at hall
    have hreferences := List.all_eq_true.mp (hall.resolve_left hkey) c hc
    rw [show namesTable "postgres" "archive" "customers" c = true from hnames] at hreferences
    exact ⟨rfl, hreferences⟩
  · rintro ⟨⟩

open Installed in
/-- No foreign key refers to the customers of the public schema, and their key is dropped without
`CASCADE`; yet with `CASCADE` the orders of the archive lose the reference to their own customers. -/
theorem cascade_not_asMeant :
  ¬ DropsAsMeant Outside.faultless session (after customers) none none "customers" customersKey
      false
    ∧ (after customers).catalog.references "postgres" "public" "customers" = false
    ∧ ((after (customers ++ [(session, .dropConstraint none none "customers" "customers_pk" false
        false)])).catalog.relations["postgres.archive.orders"]?).map (·.constraints)
      = some [customerReference]
    ∧ ((after (customers ++ [(session, .dropConstraint none none "customers" "customers_pk" false
        true)])).catalog.relations["postgres.archive.orders"]?).map (·.constraints) = some []
  := by
  refine ⟨?_, by decide, by decide, by decide⟩
  intro h
  have horders := h.cascade.2 "postgres.archive.orders"
  revert horders
  decide
