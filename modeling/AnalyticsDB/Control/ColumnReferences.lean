import AnalyticsDB.Control.Namespace
import AnalyticsDB.Control.TableEdits

/-!
# Columns that indexes and constraints refer to

Indexes and constraints refer to the columns of their table by name, and foreign keys to those of
another table.  The operations that drop or rename a column do not look at them, and those that
add an index, a constraint or a table do not look for the columns.  What is proved is which
operations keep every column that is referred to.
-/

namespace CatalogRelation

/-- The key of the relation a foreign key refers to. -/
def referencedKey (relation : CatalogRelation) (constraint : CatalogTableConstraint) : String :=
  relationKey (constraint.referencedDatabase.getD relation.database)
    (constraint.referencedSchema.getD relation.schema) (constraint.referencedTable.getD "")

/-- An index or a constraint of the relation refers to a column of it. -/
def usesColumn (relation : CatalogRelation) (column : String) : Bool :=
  relation.indexes.any (·.columns.contains column)
    || relation.constraints.any (·.columns.contains column)

end CatalogRelation

namespace CatalogState

variable (state : CatalogState)

/-- A foreign key refers to a column of the relation of a key. -/
def referencesColumn (key column : String) : Bool :=
  state.relations.toList.any (fun (_, other) => other.constraints.any (fun constraint =>
    constraint.kind = .foreignKey && other.referencedKey constraint = key
      && constraint.referencedColumns.contains column))

/-- The columns exist that indexes and constraints refer to in their own relation, and those that
foreign keys refer to in a relation that exists. -/
structure ColumnsExist : Prop where
  indexed : ∀ (key : String) (relation : CatalogRelation), state.relations[key]? = some relation →
    ∀ index ∈ relation.indexes, ∀ column ∈ index.columns, relation.hasColumn column = true
  constrained : ∀ (key : String) (relation : CatalogRelation),
    state.relations[key]? = some relation → ∀ constraint ∈ relation.constraints,
      ∀ column ∈ constraint.columns, relation.hasColumn column = true
  referenced : ∀ (key : String) (relation target : CatalogRelation),
    state.relations[key]? = some relation → ∀ constraint ∈ relation.constraints,
      constraint.kind = .foreignKey →
      state.relations[relation.referencedKey constraint]? = some target →
      ∀ column ∈ constraint.referencedColumns, target.hasColumn column = true

/-- The columns exist that a constraint of a relation refers to in the relation it refers to, when
that relation exists. -/
def canReference (relation : CatalogRelation) (constraint : CatalogTableConstraint) : Bool :=
  constraint.kind ≠ .foreignKey ||
    match state.relations[relation.referencedKey constraint]? with
    | none => true
    | some target => constraint.referencedColumns.all target.hasColumn

/-- A column may go from the relation of a key, of which `remaining` are left: another one has its
name, or nothing refers to it. -/
def canLose (key column : String) (remaining : CatalogRelation → List CatalogColumn) : Bool :=
  match state.relations[key]? with
  | none => true
  | some relation => (remaining relation).any (·.name = column)
    || !(relation.usesColumn column || state.referencesColumn key column)

end CatalogState

/-- An operation refers only to columns that exist, and takes away none that is referred to. -/
def ControlOp.keepsColumns (session : SessionContext) (state : CatalogState) : ControlOp → Bool
  | registerManagedTable database schema tableName storageUri columns constraints =>
    let key := objectKey session database schema tableName
    let table := CatalogRelation.managedTable (database.getD session.database)
      (schema.getD session.schema) tableName storageUri columns constraints
    let state' := { state with relations := state.relations.insert key table }
    constraints.all (fun constraint => constraint.columns.all table.hasColumn
        && state'.canReference table constraint)
      && state.relations.toList.all (fun (_, other) =>
        other.constraints.all (state'.canReference other))
  | dropColumn database schema tableName columnName _ =>
    state.canLose (objectKey session database schema tableName) columnName
      (fun relation => relation.columns.eraseP (·.name = columnName))
  | renameColumn database schema tableName oldName newName =>
    state.canLose (objectKey session database schema tableName) oldName (fun relation =>
      modifyFirst (·.name = oldName) (fun c => { c with name := newName }) relation.columns)
  | addConstraint database schema tableName constraint =>
    match state.relations[objectKey session database schema tableName]? with
    | none => true
    | some relation => constraint.columns.all relation.hasColumn
      && state.canReference relation constraint
  | createIndex database schema table _ columns _ =>
    match state.relations[objectKey session database schema table]? with
    | none => true
    | some relation => columns.all relation.hasColumn
  | _ => true

/-! ### The operations keep the columns -/

section

variable {state : CatalogState}

/-- A relation that is stored refers to columns that exist, and those that others refer to in it
are there. -/
theorem CatalogState.ColumnsExist.insert (h : state.ColumnsExist) {key : String}
    {edited : CatalogRelation}
    (hindexed : ∀ index ∈ edited.indexes, ∀ column ∈ index.columns, edited.hasColumn column = true)
    (hconstrained : ∀ constraint ∈ edited.constraints, ∀ column ∈ constraint.columns,
      edited.hasColumn column = true)
    (hreferences : ∀ target constraint, constraint ∈ edited.constraints →
      constraint.kind = .foreignKey →
      (state.relations.insert key edited)[edited.referencedKey constraint]? = some target →
      ∀ column ∈ constraint.referencedColumns, target.hasColumn column = true)
    (hreferenced : ∀ (otherKey : String) (other : CatalogRelation),
      state.relations[otherKey]? = some other → ∀ constraint ∈ other.constraints,
      constraint.kind = .foreignKey → other.referencedKey constraint = key →
      ∀ column ∈ constraint.referencedColumns, edited.hasColumn column = true) :
  CatalogState.ColumnsExist { state with relations := state.relations.insert key edited }
  := by
  constructor
  · intro otherKey other hother
    rw [KeyMap.get_insert] at hother
    split at hother
    · cases hother
      exact hindexed
    · exact h.indexed otherKey other hother
  · intro otherKey other hother
    rw [KeyMap.get_insert] at hother
    split at hother
    · cases hother
      exact hconstrained
    · exact h.constrained otherKey other hother
  · intro otherKey other target hother constraint hconstraint hkind htarget
    rw [KeyMap.get_insert] at hother
    split at hother
    · cases hother
      exact hreferences target constraint hconstraint hkind htarget
    · rw [KeyMap.get_insert] at htarget
      split at htarget
      · rename_i hkey
        cases htarget
        exact hreferenced otherKey other hother constraint hconstraint hkind hkey.symm
      · exact h.referenced otherKey other target hother constraint hconstraint hkind htarget

/-- What no index and no constraint refers to is not among the columns of one. -/
theorem CatalogRelation.usesColumn_eq_false {relation : CatalogRelation} {column : String} :
  relation.usesColumn column = false
    ↔ (∀ index ∈ relation.indexes, column ∉ index.columns)
      ∧ ∀ constraint ∈ relation.constraints, column ∉ constraint.columns
  := by
  simp [usesColumn]

theorem CatalogState.referencesColumn_eq_false {key column : String} :
  state.referencesColumn key column = false
    ↔ ∀ (otherKey : String) (other : CatalogRelation), state.relations[otherKey]? = some other →
      ∀ constraint ∈ other.constraints, constraint.kind = .foreignKey →
        other.referencedKey constraint = key → column ∉ constraint.referencedColumns
  := by
  simp [referencesColumn, Std.ExtTreeMap.mem_toList_iff_getElem?_eq_some]

/-- An edit of a relation that takes away no column that is referred to, and adds only indexes
and constraints that refer to columns that exist. -/
theorem CatalogState.ColumnsExist.replace (h : state.ColumnsExist) {key : String}
    {relation edited : CatalogRelation} (hold : state.relations[key]? = some relation)
    (hsame : relation.SameName edited)
    (hcolumns : ∀ column, relation.hasColumn column = true → edited.hasColumn column = true
      ∨ relation.usesColumn column = false ∧ state.referencesColumn key column = false)
    (hindexes : ∀ index ∈ edited.indexes, (∃ old ∈ relation.indexes, old.columns = index.columns)
      ∨ ∀ column ∈ index.columns, edited.hasColumn column = true)
    (hconstraints : ∀ constraint ∈ edited.constraints, constraint ∈ relation.constraints
      ∨ edited.columns = relation.columns
        ∧ (∀ column ∈ constraint.columns, relation.hasColumn column = true)
        ∧ state.canReference relation constraint = true) :
  CatalogState.ColumnsExist { state with relations := state.relations.insert key edited }
  := by
  have hkeys : ∀ constraint, edited.referencedKey constraint
    = relation.referencedKey constraint := by
    intro constraint
    rw [CatalogRelation.referencedKey, CatalogRelation.referencedKey, hsame.database, hsame.schema]
  have hreferenced : ∀ (otherKey : String) (other : CatalogRelation),
      state.relations[otherKey]? = some other → ∀ constraint ∈ other.constraints,
      constraint.kind = .foreignKey → other.referencedKey constraint = key →
      ∀ column ∈ constraint.referencedColumns, edited.hasColumn column = true := by
    intro otherKey other hother constraint hconstraint hkind hkey column hcolumn
    have hhas := h.referenced otherKey other relation hother constraint hconstraint hkind
      (by rwa [hkey]) column hcolumn
    rcases hcolumns column hhas with hedited | ⟨-, hunreferenced⟩
    · exact hedited
    · exact absurd hcolumn (referencesColumn_eq_false.mp hunreferenced otherKey other hother
        constraint hconstraint hkind hkey)
  apply h.insert
  · intro index hindex column hcolumn
    rcases hindexes index hindex with ⟨old, hmem, heq⟩ | hnew
    · rw [← heq] at hcolumn
      rcases hcolumns column (h.indexed key relation hold old hmem column hcolumn)
        with hedited | ⟨hunused, -⟩
      · exact hedited
      · exact absurd hcolumn ((CatalogRelation.usesColumn_eq_false.mp hunused).1 old hmem)
    · exact hnew column hcolumn
  · intro constraint hconstraint column hcolumn
    rcases hconstraints constraint hconstraint with hmem | ⟨hsameColumns, hnew, -⟩
    · rcases hcolumns column (h.constrained key relation hold constraint hmem column hcolumn)
        with hedited | ⟨hunused, -⟩
      · exact hedited
      · exact absurd hcolumn ((CatalogRelation.usesColumn_eq_false.mp hunused).2 constraint hmem)
    · rw [CatalogRelation.hasColumn, hsameColumns]
      exact hnew column hcolumn
  · intro target constraint hconstraint hkind htarget column hcolumn
    rw [hkeys, KeyMap.get_insert] at htarget
    rcases hconstraints constraint hconstraint with hmem | ⟨hsameColumns, -, hnew⟩
    · split at htarget
      · rename_i hkey
        cases htarget
        exact hreferenced key relation hold constraint hmem hkind hkey.symm column hcolumn
      · exact h.referenced key relation target hold constraint hmem hkind htarget column hcolumn
    · simp only [canReference, hkind, ne_eq, not_true_eq_false, decide_false, Bool.false_or] at hnew
      split at htarget
      · rename_i hkey
        cases htarget
        rw [← hkey, hold, List.all_eq_true] at hnew
        rw [CatalogRelation.hasColumn, hsameColumns]
        exact hnew column hcolumn
      · rw [htarget, List.all_eq_true] at hnew
        exact hnew column hcolumn
  · exact hreferenced

theorem CatalogState.ColumnsExist.bump (h : state.ColumnsExist) :
  state.bump.ColumnsExist
  := ⟨h.indexed, h.constrained, h.referenced⟩

theorem CatalogRelation.hasColumn_iff {relation : CatalogRelation} {column : String} :
  relation.hasColumn column = true ↔ ∃ c ∈ relation.columns, c.name = column
  := by
  simp [hasColumn]

/-- A column that may go from a relation, when all other columns stay. -/
theorem CatalogState.lost_of_canLose {key column : String} {relation edited : CatalogRelation}
    {remaining : CatalogRelation → List CatalogColumn}
    (h : state.canLose key column remaining = true) (hold : state.relations[key]? = some relation)
    (hremaining : edited.columns = remaining relation)
    (hothers : ∀ c ∈ relation.columns, c.name ≠ column → c ∈ edited.columns) :
  ∀ name, relation.hasColumn name = true → edited.hasColumn name = true
    ∨ relation.usesColumn name = false ∧ state.referencesColumn key name = false
  := by
  intro name hname
  obtain ⟨c, hc, rfl⟩ := CatalogRelation.hasColumn_iff.mp hname
  by_cases hlost : c.name = column
  · rw [hlost]
    simp only [canLose, hold, Bool.or_eq_true, Bool.not_eq_true', Bool.or_eq_false_iff] at h
    rwa [← hremaining] at h
  · exact .inl (CatalogRelation.hasColumn_iff.mpr ⟨c, hothers c hc hlost, rfl⟩)

/-- Foreign keys may be removed. -/
theorem CatalogState.ColumnsExist.withoutForeignKeysTo (h : state.ColumnsExist)
    (databaseName schemaName tableName : String) :
  (state.withoutForeignKeysTo databaseName schemaName tableName).ColumnsExist
  := by
  -- every relation keeps its columns, its indexes and its place, and gets no new constraint
  have hfound : ∀ (key : String) (relation : CatalogRelation),
      (state.withoutForeignKeysTo databaseName schemaName tableName).relations[key]?
        = some relation →
      ∃ old : CatalogRelation, state.relations[key]? = some old ∧ relation.columns = old.columns
        ∧ relation.indexes = old.indexes ∧ old.SameName relation
        ∧ ∀ constraint ∈ relation.constraints, constraint ∈ old.constraints := by
    intro key relation hrelation
    rw [CatalogState.withoutForeignKeysTo, Std.ExtTreeMap.getElem?_map, Option.map_eq_some_iff]
      at hrelation
    obtain ⟨old, hold, rfl⟩ := hrelation
    refine ⟨old, hold, ?_⟩
    split
    · exact ⟨rfl, rfl, ⟨rfl, rfl, rfl⟩, fun _ h => h⟩
    · exact ⟨rfl, rfl, ⟨rfl, rfl, rfl⟩, fun _ h => List.mem_of_mem_filter h⟩
  constructor
  · intro key relation hrelation index hindex column hcolumn
    obtain ⟨old, hold, hcolumns, hindexes, -, -⟩ := hfound key relation hrelation
    rw [CatalogRelation.hasColumn, hcolumns]
    rw [hindexes] at hindex
    exact h.indexed key old hold index hindex column hcolumn
  · intro key relation hrelation constraint hconstraint column hcolumn
    obtain ⟨old, hold, hcolumns, -, -, hconstraints⟩ := hfound key relation hrelation
    rw [CatalogRelation.hasColumn, hcolumns]
    exact h.constrained key old hold constraint (hconstraints _ hconstraint) column hcolumn
  · intro key relation target hrelation constraint hconstraint hkind htarget column hcolumn
    obtain ⟨old, hold, -, -, hsame, hconstraints⟩ := hfound key relation hrelation
    obtain ⟨oldTarget, holdTarget, hcolumns, -, -, -⟩ := hfound _ target htarget
    rw [CatalogRelation.referencedKey, hsame.database, hsame.schema] at holdTarget
    rw [CatalogRelation.hasColumn, hcolumns]
    exact h.referenced key old oldTarget hold constraint (hconstraints _ hconstraint) hkind
      holdTarget column hcolumn

end

/-- An edit that keeps the columns of a relation, its indexes up to their names, and its constraints
up to some that are removed. -/
theorem CatalogState.ColumnsExist.replace_sameColumns {state : CatalogState}
    (h : state.ColumnsExist)
    {key : String} {relation edited : CatalogRelation}
    (hold : state.relations[key]? = some relation) (hsame : relation.SameName edited)
    (hcolumns : edited.columns.map (·.name) = relation.columns.map (·.name))
    (hindexes : ∀ index ∈ edited.indexes, ∃ old ∈ relation.indexes, old.columns = index.columns)
    (hconstraints : ∀ constraint ∈ edited.constraints, constraint ∈ relation.constraints) :
  CatalogState.ColumnsExist { state with relations := state.relations.insert key edited }
  := by
  apply h.replace hold hsame
  · intro name hname
    left
    obtain ⟨c, hc, rfl⟩ := CatalogRelation.hasColumn_iff.mp hname
    have hmem : c.name ∈ edited.columns.map (·.name) := by
      rw [hcolumns]
      exact List.mem_map_of_mem hc
    obtain ⟨c', hc', hname'⟩ := List.mem_map.mp hmem
    exact CatalogRelation.hasColumn_iff.mpr ⟨c', hc', hname'⟩
  · intro index hindex
    exact .inl (hindexes index hindex)
  · intro constraint hconstraint
    exact .inl (hconstraints constraint hconstraint)

/-- The indexes of a new table are on the columns of its constraints. -/
theorem indexesFromConstraints_columns {tableName : String}
    {constraints : List CatalogTableConstraint} {index : CatalogIndex}
    (h : index ∈ indexesFromConstraints tableName constraints) :
  ∃ constraint ∈ constraints, index.columns = constraint.columns
  := by
  rw [indexesFromConstraints, List.mem_map] at h
  obtain ⟨unnamed, hunnamed, rfl⟩ := h
  obtain ⟨constraint, hconstraint, hindex⟩ := List.mem_filterMap.mp hunnamed
  refine ⟨constraint, hconstraint, ?_⟩
  have hcolumns : unnamed.columns = constraint.columns := by
    split at hindex
    · cases hindex
      rfl
    · cases hindex
      rfl
    · cases hindex
  split
  · exact hcolumns
  · exact hcolumns

/-- What a constraint may refer to exists. -/
theorem CatalogState.hasColumn_of_canReference {state : CatalogState}
    {relation target : CatalogRelation} {constraint : CatalogTableConstraint}
    (h : state.canReference relation constraint = true) (hkind : constraint.kind = .foreignKey)
    (htarget : state.relations[relation.referencedKey constraint]? = some target) :
  ∀ column ∈ constraint.referencedColumns, target.hasColumn column = true
  := by
  simp only [canReference, hkind, htarget, ne_eq, not_true_eq_false, decide_false,
    Bool.false_or, List.all_eq_true] at h
  exact h

/-- Every operation that refers only to columns that exist, and takes away none that is referred
to, keeps the columns. -/
theorem ControlOp.TableEffect.columnsExist {session : SessionContext} {op : ControlOp}
    {state state' : CatalogState} (h : state.ColumnsExist)
    (hkeeps : op.keepsColumns session state = true)
    (heffect : op.TableEffect session state state') :
  state'.ColumnsExist
  := by
  cases op with
  | registerManagedTable database schema tableName storageUri columns constraints =>
      obtain ⟨-, rfl⟩ := heffect
      simp only [keepsColumns, Bool.and_eq_true, List.all_eq_true] at hkeeps
      obtain ⟨hown, hothers⟩ := hkeeps
      apply h.insert
      · intro index hindex column hcolumn
        obtain ⟨constraint, hconstraint, heq⟩ := indexesFromConstraints_columns hindex
        exact (hown constraint hconstraint).1 column (heq ▸ hcolumn)
      · intro constraint hconstraint
        exact (hown constraint hconstraint).1
      · intro target constraint hconstraint hkind htarget
        exact CatalogState.hasColumn_of_canReference (hown constraint hconstraint).2 hkind htarget
      · intro otherKey other hother constraint hconstraint hkind hkey
        have hcan := hothers (otherKey, other)
          (Std.ExtTreeMap.mem_toList_iff_getElem?_eq_some.mpr hother) constraint hconstraint
        apply CatalogState.hasColumn_of_canReference hcan hkind
        rw [KeyMap.get_insert, if_pos hkey.symm]
  | addColumn database schema tableName column =>
      obtain ⟨relation, hold, -, rfl⟩ := heffect
      apply h.replace hold
      · exact ⟨rfl, rfl, rfl⟩
      · intro name hname
        left
        simp only [CatalogRelation.hasColumn, List.any_append, Bool.or_eq_true]
        exact .inl hname
      · intro index hindex
        exact .inl ⟨index, hindex, rfl⟩
      · intro constraint hconstraint
        exact .inl hconstraint
  | dropColumn database schema tableName columnName ifExists =>
      obtain ⟨relation, hold, -, rfl⟩ := heffect
      apply h.replace hold
      · exact ⟨rfl, rfl, rfl⟩
      · refine CatalogState.lost_of_canLose hkeeps hold rfl ?_
        intro c hc hname
        exact (List.mem_eraseP_of_neg (by simpa using hname)).mpr hc
      · intro index hindex
        exact .inl ⟨index, hindex, rfl⟩
      · intro constraint hconstraint
        exact .inl hconstraint
  | renameColumn database schema tableName oldName newName =>
      obtain ⟨relation, hold, -, rfl⟩ := heffect
      apply h.replace hold
      · exact ⟨rfl, rfl, rfl⟩
      · refine CatalogState.lost_of_canLose hkeeps hold rfl ?_
        intro c hc hname
        exact mem_modifyFirst_of_neg hc (by simpa using hname)
      · intro index hindex
        exact .inl ⟨index, hindex, rfl⟩
      · intro constraint hconstraint
        exact .inl hconstraint
  | alterColumn database schema tableName columnName operation =>
      obtain ⟨relation, hold, -, rfl⟩ := heffect
      apply h.replace_sameColumns hold
      · exact ⟨rfl, rfl, rfl⟩
      · apply map_modifyFirst
        intro column
        cases operation with
        | _ => rfl
      · intro index hindex
        exact ⟨index, hindex, rfl⟩
      · intro constraint hconstraint
        exact hconstraint
  | addConstraint database schema tableName constraint =>
      obtain ⟨relation, hold, -, rfl⟩ := heffect
      simp only [keepsColumns, hold, Bool.and_eq_true, List.all_eq_true] at hkeeps
      apply h.replace hold
      · exact ⟨rfl, rfl, rfl⟩
      · intro name hname
        exact .inl hname
      · intro index hindex
        rw [CatalogRelation.withConstraint] at hindex
        split at hindex
        · rcases List.mem_append.mp hindex with hmem | hmem
          · exact .inl ⟨index, hmem, rfl⟩
          · cases List.mem_singleton.mp hmem
            exact .inr hkeeps.1
        · exact .inl ⟨index, hindex, rfl⟩
      · intro other hother
        rcases List.mem_append.mp hother with hmem | hmem
        · exact .inl hmem
        · cases List.mem_singleton.mp hmem
          exact .inr ⟨rfl, hkeeps⟩
  | dropConstraint database schema tableName constraintName ifExists cascade =>
      obtain ⟨dropped, ⟨relation, hold, -, rfl⟩, rfl⟩ := heffect
      have hdropped := h.replace_sameColumns hold
        (⟨rfl, rfl, rfl⟩ : relation.SameName (relation.withoutConstraint constraintName)) rfl
        (fun index hindex => ⟨index, List.mem_of_mem_filter hindex, rfl⟩)
        (fun _ hconstraint => List.mem_of_mem_filter hconstraint)
      split
      · exact hdropped.withoutForeignKeysTo _ _ _
      · exact hdropped
  | createIndex database schema table name columns unique =>
      obtain ⟨relation, hold, -, rfl⟩ := heffect
      simp only [keepsColumns, hold, List.all_eq_true] at hkeeps
      apply h.replace hold
      · exact ⟨rfl, rfl, rfl⟩
      · intro name hname
        exact .inl hname
      · intro index hindex
        rcases List.mem_append.mp hindex with hmem | hmem
        · exact .inl ⟨index, hmem, rfl⟩
        · cases List.mem_singleton.mp hmem
          exact .inr hkeeps
      · intro constraint hconstraint
        exact .inl hconstraint
  | dropIndex database schema name ifExists =>
      obtain ⟨key, relation, hfound, -, rfl⟩ := heffect
      have hold := Std.ExtTreeMap.mem_toList_iff_getElem?_eq_some.mp
        (List.mem_of_find?_eq_some hfound)
      exact h.replace_sameColumns hold ⟨rfl, rfl, rfl⟩ rfl
        (fun index hindex => ⟨index, List.mem_of_mem_eraseP hindex, rfl⟩) (fun _ h => h)
  | renameIndex database schema tableName oldName newName =>
      obtain ⟨relation, hold, -, rfl⟩ := heffect
      apply h.replace_sameColumns hold
      · exact ⟨rfl, rfl, rfl⟩
      · rfl
      · intro index hindex
        rcases mem_modifyFirst hindex with hmem | ⟨old, hmem, -, rfl⟩
        · exact ⟨index, hmem, rfl⟩
        · exact ⟨old, hmem, rfl⟩
      · intro constraint hconstraint
        exact hconstraint
  | updateRelationStoragePath database schema name newStoragePath =>
      obtain ⟨relation, hold, -, rfl⟩ := heffect
      apply h.replace_sameColumns hold
      · exact ⟨rfl, rfl, rfl⟩
      · rfl
      · intro index hindex
        exact ⟨index, hindex, rfl⟩
      · intro constraint hconstraint
        exact hconstraint
  | _ => cases heffect

/-- In every catalogue reached by operations on tables that refer only to columns that exist, and
take away none that is referred to, every column that an index or a constraint refers to exists. -/
theorem reachable_columnsExist (o : Outside) {w : World}
    (h : Run.Reachable (fun w : World => w.catalog.ColumnsExist)
      (Run.byOps (performedOp o) (fun call w => call.2.onTables = true
        ∧ call.2.keepsColumns call.1 w.catalog = true)) w) :
  w.catalog.ColumnsExist
  := reachable_keeps o (fun _ hstate => hstate.bump)
    (fun _ _ _ _ hstate hkeeps heffect => heffect.columnsExist hstate hkeeps) h

/-! ### An index that loses its column -/

theorem initialState_columnsExist (users : KeyMap CatalogUser) :
  (initialState users).ColumnsExist
  := by
  constructor
  · intro key relation hrelation
    simp [initialState] at hrelation
  · intro key relation hrelation
    simp [initialState] at hrelation
  · intro key relation target hrelation
    simp [initialState] at hrelation

namespace Installed

/-- A table with two columns, and an index on the first one. -/
def indexed : List (SessionContext × ControlOp) :=
  [(session, .registerManagedTable none none "t" "/data/t" columns []),
    (session, .createIndex none none "t" "i" ["a"] false)]

/-- The column without an index is dropped, and a constraint is added. -/
def constrained : List (SessionContext × ControlOp) :=
  indexed ++ [(session, .dropColumn none none "t" "b" false),
    (session, .addConstraint none none "t" ⟨"k", .unique, ["a"], none, none, none, []⟩)]

/-- The indexed column is dropped. -/
def dangling : List (SessionContext × ControlOp) :=
  indexed ++ [(session, .dropColumn none none "t" "a" false)]

end Installed

open Installed in
theorem reachable_columnsExist_constrained :
  (after constrained).catalog.ColumnsExist
  := by
  refine reachable_columnsExist Outside.faultless (Run.Reachable.performAll
    (.start (initialState_columnsExist _)) ?_)
  decide

open Installed in
theorem dangling_not_columnsExist :
  Run.Reachable Initial (Run.byOps (performedOp Outside.faultless)
      (fun call _ => call.2.onTables = true)) (after dangling)
    ∧ ¬ (after dangling).catalog.ColumnsExist
  := by
  constructor
  · refine Run.Reachable.performAll (.start ⟨fun _ => ⟨"", "", ""⟩, fun _ => 0, .inl rfl⟩) ?_
    decide
  · intro h
    have hfound : ((after dangling).catalog.relations["postgres.public.t"]?).map
        (fun relation => (relation.indexes, relation.hasColumn "a"))
          = some ([⟨"i", ["a"], false, false⟩], false) := by
      decide
    obtain ⟨relation, hrelation, heq⟩ := Option.map_eq_some_iff.mp hfound
    cases hindexes : relation.indexes with
    | nil => simp [hindexes] at heq
    | cons index indexes =>
        rw [hindexes] at heq
        simp only [Prod.mk.injEq, List.cons.injEq] at heq
        obtain ⟨⟨rfl, -⟩, hcolumn⟩ := heq
        have ha := h.indexed _ relation hrelation _ (by rw [hindexes]; apply List.mem_cons_self) "a"
          (by simp)
        rw [hcolumn] at ha
        cases ha
