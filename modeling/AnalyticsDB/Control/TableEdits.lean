import AnalyticsDB.Control.Effects
import AnalyticsDB.Lib.Run

/-!
# The edits of tables

What exactly the operations on a table make of its entry in the catalogue: those that register it,
and those that change its columns, constraints and indexes.  The invariants over the columns,
constraints and indexes of all tables are derived from this.
-/

section

variable {α : Type} {p : α → Bool} {f : α → α} {l : List α}

/-- The first element that satisfies `p` is changed, the others stay. -/
theorem mem_modifyFirst_of_neg {a : α} (ha : a ∈ l) (hp : p a = false) :
  a ∈ modifyFirst p f l
  := by
  induction l with
  | nil => cases ha
  | cons b l ih =>
      rw [modifyFirst]
      split
      · rename_i hb
        rcases List.mem_cons.mp ha with rfl | ha
        · rw [hp] at hb
          cases hb
        · exact List.mem_cons_of_mem _ ha
      · rcases List.mem_cons.mp ha with rfl | ha
        · exact List.mem_cons_self ..
        · exact List.mem_cons_of_mem _ (ih ha)

/-- An element after the change was there, or is the changed one. -/
theorem mem_modifyFirst {b : α} (hb : b ∈ modifyFirst p f l) :
  b ∈ l ∨ ∃ a ∈ l, p a = true ∧ b = f a
  := by
  induction l with
  | nil => cases hb
  | cons a l ih =>
      rw [modifyFirst] at hb
      split at hb
      · rename_i ha
        rcases List.mem_cons.mp hb with rfl | hb
        · exact .inr ⟨a, List.mem_cons_self .., ha, rfl⟩
        · exact .inl (List.mem_cons_of_mem _ hb)
      · rcases List.mem_cons.mp hb with rfl | hb
        · exact .inl (List.mem_cons_self ..)
        · rcases ih hb with hmem | ⟨c, hmem, hc, rfl⟩
          · exact .inl (List.mem_cons_of_mem _ hmem)
          · exact .inr ⟨c, List.mem_cons_of_mem _ hmem, hc, rfl⟩

/-- Keys stay distinct when the changed one is new. -/
theorem nodup_map_modifyFirst {β : Type} {g : α → β} (h : (l.map g).Nodup)
    (hnew : ∀ a ∈ l, p a = true → ∀ b ∈ l, g b ≠ g (f a)) :
  ((modifyFirst p f l).map g).Nodup
  := by
  induction l with
  | nil => exact List.nodup_nil
  | cons a l ih =>
      rw [List.map_cons, List.nodup_cons] at h
      rw [modifyFirst]
      split
      · rename_i ha
        rw [List.map_cons, List.nodup_cons]
        refine ⟨?_, h.2⟩
        intro hmem
        obtain ⟨b, hb, heq⟩ := List.mem_map.mp hmem
        exact hnew a (List.mem_cons_self ..) ha b (List.mem_cons_of_mem _ hb) heq
      · rw [List.map_cons, List.nodup_cons]
        constructor
        · intro hmem
          obtain ⟨b, hb, heq⟩ := List.mem_map.mp hmem
          rcases mem_modifyFirst hb with hb | ⟨c, hc, hpc, rfl⟩
          · exact h.1 (heq ▸ List.mem_map_of_mem hb)
          · exact hnew c (List.mem_cons_of_mem _ hc) hpc a (List.mem_cons_self ..) heq.symm
        · apply ih h.2
          intro b hb hpb c hc
          exact hnew b (List.mem_cons_of_mem _ hb) hpb c (List.mem_cons_of_mem _ hc)

/-- What the change keeps of every element is kept of all. -/
theorem map_modifyFirst {β : Type} (g : α → β) (hf : ∀ a, g (f a) = g a) :
  (modifyFirst p f l).map g = l.map g
  := by
  induction l with
  | nil => rfl
  | cons a l ih =>
      rw [modifyFirst]
      split
      · rw [List.map_cons, List.map_cons, hf]
      · rw [List.map_cons, List.map_cons, ih]

end

/-- The index that backs a constraint under its name. -/
def CatalogTableConstraint.backingIndex (constraint : CatalogTableConstraint) : CatalogIndex :=
  ⟨constraint.name, constraint.columns, true, constraint.kind = .primaryKey⟩

namespace CatalogRelation

/-- The relation has a column of a name. -/
def hasColumn (relation : CatalogRelation) (name : String) : Bool :=
  relation.columns.any (·.name = name)

/-- The relation has an index of a name. -/
def hasIndex (relation : CatalogRelation) (name : String) : Bool :=
  relation.indexes.any (·.name = name)

/-- The relation has a constraint of a name. -/
def hasConstraint (relation : CatalogRelation) (name : String) : Bool :=
  relation.constraints.any (·.name = name)

theorem hasIndex_eq_false {relation : CatalogRelation} {name : String} :
  relation.hasIndex name = false ↔ ∀ index ∈ relation.indexes, index.name ≠ name
  := by
  simp [hasIndex]

theorem hasConstraint_eq_false {relation : CatalogRelation} {name : String} :
  relation.hasConstraint name = false
    ↔ ∀ constraint ∈ relation.constraints, constraint.name ≠ name
  := by
  simp [hasConstraint]

/-- The entry of a new table. -/
def managedTable (database schema name storageUri : String) (columns : List CatalogColumn)
    (constraints : List CatalogTableConstraint) : CatalogRelation :=
  { database := database, schema := schema, name := name, kind := .table
    definitionSql := none, storagePath := some storageUri, externalFormat := none
    columns := columns, constraints := constraints
    indexes := indexesFromConstraints name constraints }

/-- The relation with a constraint, and with its index when it is backed by one. -/
def withConstraint (constraint : CatalogTableConstraint) (relation : CatalogRelation) :
    CatalogRelation :=
  { relation with
    constraints := relation.constraints ++ [constraint]
    indexes :=
      if constraint.kind.isBacked then relation.indexes ++ [constraint.backingIndex]
      else relation.indexes }

/-- The relation without the constraints and the indexes of a name. -/
def withoutConstraint (name : String) (relation : CatalogRelation) : CatalogRelation :=
  { relation with
    constraints := relation.constraints.filter (·.name ≠ name)
    indexes := relation.indexes.filter (·.name ≠ name) }

end CatalogRelation

namespace CatalogState

variable (state : CatalogState)

/-- The relation of a key, which meets a condition, is replaced by what `edit` makes of it. -/
def Replaces (key : String) (guard : CatalogRelation → Prop)
    (edit : CatalogRelation → CatalogRelation) (state' : CatalogState) : Prop :=
  ∃ relation, state.relations[key]? = some relation ∧ guard relation
    ∧ state' = { state with relations := state.relations.insert key (edit relation) }

/-- The foreign keys that refer to a table are removed from all other relations. -/
def withoutForeignKeysTo (databaseName schemaName tableName : String) : CatalogState :=
  { state with
    relations := state.relations.map (fun otherKey other =>
      if otherKey = relationKey databaseName schemaName tableName then other
      else dropForeignKeysTo databaseName schemaName tableName other) }

/-- The relation of a schema that `DROP INDEX` finds for the name of an index. -/
def findIndexed (databaseName schemaName name : String) : Option (String × CatalogRelation) :=
  state.relations.toList.find? (fun (_, relation) => relation.database = databaseName
    && relation.schema = schemaName && relation.hasIndex name)

end CatalogState

/-- The index of a name is backing a constraint, as far as `DROP INDEX` can tell. -/
def CatalogRelation.guardsIndex (relation : CatalogRelation) (name : String) : Bool :=
  ((relation.indexes.find? (·.name = name)).map (·.isPrimary)).getD false
    || relation.hasConstraint name

namespace ControlOp

variable (session : SessionContext) (state : CatalogState)

/-- The operations that register a table or change its columns, constraints or indexes, or its
place in the storage. -/
def onTables : ControlOp → Bool
  | registerManagedTable .. | addColumn .. | dropColumn .. | renameColumn .. | alterColumn ..
  | addConstraint .. | dropConstraint .. | createIndex .. | dropIndex .. | renameIndex ..
  | updateRelationStoragePath .. => true
  | _ => false

/-- What exactly such an operation makes of the catalogue, the version apart. -/
def TableEffect : ControlOp → CatalogState → Prop
  | registerManagedTable database schema tableName storageUri columns constraints, state' =>
    state.relations.contains (objectKey session database schema tableName) = false
      ∧ state' = { state with
        relations := state.relations.insert (objectKey session database schema tableName)
          (.managedTable (database.getD session.database) (schema.getD session.schema) tableName
            storageUri columns constraints) }
  | addColumn database schema tableName column, state' =>
    state.Replaces (objectKey session database schema tableName)
      (fun relation => relation.hasColumn column.name = false)
      (fun relation => { relation with columns := relation.columns ++ [column] }) state'
  | dropColumn database schema tableName columnName _, state' =>
    state.Replaces (objectKey session database schema tableName) (fun _ => True)
      (fun relation => { relation with
        columns := relation.columns.eraseP (·.name = columnName) }) state'
  | renameColumn database schema tableName oldName newName, state' =>
    state.Replaces (objectKey session database schema tableName)
      (fun relation => relation.hasColumn newName = false ∧ relation.hasColumn oldName = true)
      (fun relation => { relation with
        columns :=
          modifyFirst (·.name = oldName) (fun c => { c with name := newName }) relation.columns })
      state'
  | alterColumn database schema tableName columnName operation, state' =>
    state.Replaces (objectKey session database schema tableName) (fun _ => True)
      (fun relation => { relation with
        columns := modifyFirst (·.name = columnName) operation.apply relation.columns }) state'
  | addConstraint database schema tableName constraint, state' =>
    state.Replaces (objectKey session database schema tableName)
      (fun relation => relation.hasConstraint constraint.name = false
        ∧ (constraint.kind.isBacked = true →
          schemaContainsIndexName state (database.getD session.database)
            (schema.getD session.schema) constraint.name
            (some (objectKey session database schema tableName)) = false))
      (CatalogRelation.withConstraint constraint) state'
  | dropConstraint database schema tableName constraintName _ cascade, state' =>
    ∃ dropped, state.Replaces (objectKey session database schema tableName)
        (fun relation => relation.hasConstraint constraintName = true)
        (CatalogRelation.withoutConstraint constraintName) dropped
      ∧ state' = if cascade then
          dropped.withoutForeignKeysTo (database.getD session.database)
            (schema.getD session.schema) tableName
        else dropped
  | createIndex database schema table name columns unique, state' =>
    state.Replaces (objectKey session database schema table)
      (fun relation => relation.hasIndex name = false)
      (fun relation => { relation with
        indexes := relation.indexes ++ [⟨name, columns, unique, false⟩] }) state'
  | dropIndex database schema name _, state' =>
    ∃ key relation, state.findIndexed (database.getD session.database) (schema.getD session.schema)
        name = some (key, relation)
      ∧ relation.guardsIndex name = false
      ∧ state' = { state with
        relations := state.relations.insert key
          { relation with
            indexes := relation.indexes.eraseP (·.name = name) } }
  | renameIndex database schema tableName oldName newName, state' =>
    state.Replaces (objectKey session database schema tableName)
      (fun relation => relation.hasIndex newName = false ∧ relation.hasIndex oldName = true)
      (fun relation => { relation with
        indexes :=
          modifyFirst (·.name = oldName) (fun i => { i with name := newName }) relation.indexes })
      state'
  | updateRelationStoragePath database schema name newStoragePath, state' =>
    state.Replaces (objectKey session database schema name) (fun _ => True)
      (fun relation => { relation with storagePath := some newStoragePath }) state'
  | _, _ => False

end ControlOp

/-! ### Each operation makes its edit -/

section

open Eff

variable {quiet spoil : CatalogState → Prop} (o : Outside) (session : SessionContext) (w : World)
  (database schema : Option String)

/-- A new relation is stored under a free key. -/
theorem registerRelation_adds (relation : CatalogRelation) (message : String) :
  Performs o (fun state =>
      w.catalog.relations.contains (relationKey relation.database relation.schema relation.name)
          = false
        ∧ state = { w.catalog with
          relations := w.catalog.relations.insert
            (relationKey relation.database relation.schema relation.name) relation })
    quiet spoil (registerRelation o session relation message) w
  := by
  simp only [registerRelation, performs_orBail, performs_readState]
  intro _ _ _ _
  split
  · apply performs_bail
  · simp only [performs_ite, performs_bail_bind, implies_true, true_and, Bool.not_eq_true]
    intro _ hnew
    apply performs_persist
    exact ⟨hnew, rfl⟩

theorem registerManagedTable_edits (tableName storageUri : String) (columns : List CatalogColumn)
    (constraints : List CatalogTableConstraint) :
  Performs o (ControlOp.TableEffect session w.catalog
      (.registerManagedTable database schema tableName storageUri columns constraints)) quiet spoil
    (registerManagedTable o session database schema tableName storageUri columns constraints) w
  := by
  rw [registerManagedTable]
  apply (registerRelation_adds o session w _ _).mono
  · intro state h
    exact h
  · intro state h
    exact h
  · intro state h
    exact h

/-- An edit of a relation replaces it. -/
theorem editRelation_edits (key notFound : String)
    (edit : CatalogState → CatalogRelation → Except String CatalogRelation) (message : String)
    (guard : CatalogRelation → Prop) (make : CatalogRelation → CatalogRelation)
    (hedit : ∀ relation edited, edit w.catalog relation = .ok edited →
      guard relation ∧ edited = make relation) :
  Performs o (w.catalog.Replaces key guard make) quiet spoil
    (editRelation o session key notFound edit message) w
  := by
  simp only [editRelation, performs_readState, performs_orBail]
  intro _ _
  cases hold : w.catalog.relations[key]? with
  | none => apply performs_bail
  | some relation =>
      simp only [performs_orBail]
      intro edited hedited
      obtain ⟨hguard, rfl⟩ := hedit relation edited hedited
      apply performs_persist
      exact ⟨relation, hold, hguard, rfl⟩

theorem addColumn_edits (tableName : String) (column : CatalogColumn) :
  Performs o (ControlOp.TableEffect session w.catalog (.addColumn database schema tableName column))
    quiet spoil (addColumn o session database schema tableName column) w
  := by
  apply editRelation_edits
  intro relation edited h
  obtain ⟨_, hnew, ⟨⟩⟩ := by simpa only [ite_throw_bind_eq_ok, Bool.not_eq_true] using h
  exact ⟨hnew, rfl⟩

theorem dropColumn_edits (tableName columnName : String) (ifExists : Bool) :
  Performs o (ControlOp.TableEffect session w.catalog
      (.dropColumn database schema tableName columnName ifExists)) quiet spoil
    (dropColumn o session database schema tableName columnName ifExists) w
  := by
  apply editRelation_edits
  intro relation edited h
  refine ⟨trivial, ?_⟩
  split at h
  · cases h
    rfl
  · rename_i hmissing
    split at h
    · -- there is nothing to erase
      cases h
      rw [List.eraseP_of_forall_not]
      intro column hcolumn hname
      exact hmissing (List.any_eq_true.mpr ⟨column, hcolumn, hname⟩)
    · cases h

theorem renameColumn_edits (tableName oldName newName : String) :
  Performs o (ControlOp.TableEffect session w.catalog
      (.renameColumn database schema tableName oldName newName)) quiet spoil
    (renameColumn o session database schema tableName oldName newName) w
  := by
  rw [renameColumn, performs_orBail]
  intro _ _
  apply editRelation_edits
  intro relation edited h
  obtain ⟨hnew, hold, ⟨⟩⟩ := by
    simpa only [ite_throw_bind_eq_ok, Bool.not_eq_true, Bool.not_eq_false'] using h
  exact ⟨⟨hnew, hold⟩, rfl⟩

theorem alterColumn_edits (tableName columnName : String) (operation : AlterColumnOperation) :
  Performs o (ControlOp.TableEffect session w.catalog
      (.alterColumn database schema tableName columnName operation)) quiet spoil
    (alterColumn o session database schema tableName columnName operation) w
  := by
  apply editRelation_edits
  intro relation edited h
  obtain ⟨_, ⟨⟩⟩ := by simpa only [ite_throw_bind_eq_ok] using h
  exact ⟨trivial, rfl⟩

theorem createIndex_edits (table name : String) (columns : List String) (unique : Bool) :
  Performs o (ControlOp.TableEffect session w.catalog
      (.createIndex database schema table name columns unique)) quiet spoil
    (createIndex o session database schema table name columns unique) w
  := by
  apply editRelation_edits
  intro relation edited h
  split at h
  · cases h
  · rename_i hnew
    cases h
    exact ⟨Bool.eq_false_iff.mpr hnew, rfl⟩

theorem renameIndex_edits (tableName oldName newName : String) :
  Performs o (ControlOp.TableEffect session w.catalog
      (.renameIndex database schema tableName oldName newName)) quiet spoil
    (renameIndex o session database schema tableName oldName newName) w
  := by
  rw [renameIndex, performs_orBail]
  intro _ _
  apply editRelation_edits
  intro relation edited h
  obtain ⟨hnew, hold, ⟨⟩⟩ := by
    simpa only [ite_throw_bind_eq_ok, Bool.not_eq_true, Bool.not_eq_false'] using h
  exact ⟨⟨hnew, hold⟩, rfl⟩

/-- A constraint that is added is new to its table, and the index that backs it to the others. -/
theorem buildRelationWithCatalogConstraint_eq {state : CatalogState}
    {databaseName schemaName tableName : String} {constraint : CatalogTableConstraint}
    {preview : CatalogRelation}
    (h : buildRelationWithCatalogConstraint state databaseName schemaName tableName constraint
      = .ok preview) :
  ∃ relation, state.relations[relationKey databaseName schemaName tableName]? = some relation
    ∧ relation.kind = .table
    ∧ relation.hasConstraint constraint.name = false
    ∧ (constraint.kind.isBacked = true →
      schemaContainsIndexName state databaseName schemaName constraint.name
        (some (relationKey databaseName schemaName tableName)) = false)
    ∧ preview = relation.withConstraint constraint
  := by
  unfold buildRelationWithCatalogConstraint at h
  cases hold : state.relations[relationKey databaseName schemaName tableName]? with
  | none =>
      simp only [hold] at h
      cases h
  | some relation =>
      simp only [hold, ite_throw_bind_eq_ok, Bool.not_eq_true, Bool.and_eq_true, not_and,
        not_not, ne_eq] at h
      obtain ⟨hkind, hname, hindex, hpreview⟩ := h
      refine ⟨relation, rfl, hkind, hname, hindex, ?_⟩
      rw [CatalogRelation.withConstraint]
      split at hpreview
      · rename_i hbacked
        cases hpreview
        rw [if_pos hbacked]
        rfl
      · rename_i hbacked
        cases hpreview
        rw [if_neg hbacked]

theorem addConstraint_edits (tableName : String) (constraint : CatalogTableConstraint) :
  Performs o (ControlOp.TableEffect session w.catalog
      (.addConstraint database schema tableName constraint)) quiet spoil
    (addConstraint o session database schema tableName constraint) w
  := by
  simp only [addConstraint, performs_orBail, performs_readState]
  intro _ _ preview hpreview
  apply performs_persist
  obtain ⟨relation, hold, -, hname, hindex, rfl⟩ := buildRelationWithCatalogConstraint_eq hpreview
  exact ⟨relation, hold, ⟨hname, hindex⟩, rfl⟩

/-- A constraint that is dropped was there. -/
theorem buildRelationWithDroppedConstraint_eq {state : CatalogState}
    {databaseName schemaName tableName constraintName : String} {cascade : Bool}
    {preview : CatalogRelation}
    (h : buildRelationWithDroppedConstraint state databaseName schemaName tableName
      constraintName cascade = .ok preview) :
  ∃ relation, state.relations[relationKey databaseName schemaName tableName]? = some relation
    ∧ relation.hasConstraint constraintName = true
    ∧ preview = relation.withoutConstraint constraintName
  := by
  unfold buildRelationWithDroppedConstraint at h
  cases hold : state.relations[relationKey databaseName schemaName tableName]? with
  | none =>
      simp only [hold] at h
      cases h
  | some relation =>
      simp only [hold, ite_throw_bind_eq_ok] at h
      obtain ⟨_, _, hlength, ⟨⟩⟩ := h
      refine ⟨relation, rfl, ?_, rfl⟩
      -- were it not there, as many constraints would remain as there were
      by_contra hmissing
      apply hlength
      rw [List.filter_eq_self.mpr]
      intro constraint hconstraint
      rw [decide_eq_true_iff]
      intro hname
      exact hmissing (List.any_eq_true.mpr ⟨constraint, hconstraint, by simpa using hname⟩)

theorem dropConstraint_edits (tableName constraintName : String) (ifExists cascade : Bool) :
  Performs o (ControlOp.TableEffect session w.catalog
      (.dropConstraint database schema tableName constraintName ifExists cascade)) quiet spoil
    (dropConstraint o session database schema tableName constraintName ifExists cascade) w
  := by
  simp only [dropConstraint, performs_orBail, performs_readState]
  intro _ _
  split
  · simp only [performs_ite, performs_pure, performs_bail, implies_true, and_self]
  · rename_i preview hpreview
    obtain ⟨relation, hold, hname, rfl⟩ := buildRelationWithDroppedConstraint_eq hpreview
    have hreplaces : w.catalog.Replaces (objectKey session database schema tableName)
        (fun relation => relation.hasConstraint constraintName = true)
        (CatalogRelation.withoutConstraint constraintName) _ := ⟨relation, hold, hname, rfl⟩
    cases cascade with
    | false =>
        simp only [Bool.false_eq_true, if_false]
        apply performs_persist
        exact ⟨_, hreplaces, rfl⟩
    | true =>
        simp only [if_true]
        exact performs_persist (fun state => { state with
            relations := (state.relations.insert _ _).map _ }) _ ⟨_, hreplaces, rfl⟩

theorem dropIndex_edits (name : String) (ifExists : Bool) :
  Performs o (ControlOp.TableEffect session w.catalog (.dropIndex database schema name ifExists))
    quiet spoil (dropIndex o session database schema name ifExists) w
  := by
  simp only [dropIndex, performs_orBail, performs_readState]
  intro _ _
  split
  · simp only [performs_ite, performs_pure, performs_bail, implies_true, and_self]
  · rename_i key relation hfound
    simp only [performs_ite, performs_bail_bind, implies_true, true_and, Bool.not_eq_true]
    intro hguard
    apply performs_persist
    exact ⟨key, relation, hfound, hguard, rfl⟩

theorem updateRelationStoragePath_edits (name newStoragePath : String) :
  Performs o (ControlOp.TableEffect session w.catalog
      (.updateRelationStoragePath database schema name newStoragePath)) quiet spoil
    (updateRelationStoragePath o session database schema name newStoragePath) w
  := by
  apply editRelation_edits
  intro relation edited h
  cases h
  exact ⟨trivial, rfl⟩

/-- Every such operation makes its edit. -/
theorem performOp_edits (op : ControlOp) (hop : op.onTables = true) :
  Performs o (op.TableEffect session w.catalog) quiet spoil (performOp o session op) w
  := by
  cases op with
  | registerManagedTable => apply registerManagedTable_edits
  | addColumn => apply addColumn_edits
  | dropColumn => apply dropColumn_edits
  | renameColumn => apply renameColumn_edits
  | alterColumn => apply alterColumn_edits
  | addConstraint => apply addConstraint_edits
  | dropConstraint => apply dropConstraint_edits
  | createIndex => apply createIndex_edits
  | dropIndex => apply dropIndex_edits
  | renameIndex => apply renameIndex_edits
  | updateRelationStoragePath => apply updateRelationStoragePath_edits
  | _ => cases hop

end

/-! ### Runs of such operations -/

/-- The system after an operation in a session. -/
def performedOp (o : Outside) (call : SessionContext × ControlOp) (w : World) : World :=
  (Eff.exec (performOp o call.1 call.2) w).2

/-- A property of catalogues that bumping the version and the edit of an operation do not break
holds after the operation, whatever its outcome. -/
theorem performedOp_keeps (o : Outside) {call : SessionContext × ControlOp} {w : World}
    {P : CatalogState → Prop} (hop : call.2.onTables = true) (hP : P w.catalog)
    (hbump : ∀ state, P state → P state.bump)
    (hedit : ∀ state, call.2.TableEffect call.1 w.catalog state → P state) :
  P (performedOp o call w).catalog
  := by
  have hperforms : Performs o (call.2.TableEffect call.1 w.catalog) (fun _ => False)
      (fun _ => False) (performOp o call.1 call.2) w := performOp_edits o call.1 w call.2 hop
  exact hperforms.keeps hP hbump hedit (fun _ h => h.elim) (fun _ h => h.elim)

/-- In every state reached by operations on tables, each allowed where it is performed, a property
holds that holds at first and that no edit of an allowed operation breaks. -/
theorem reachable_keeps (o : Outside) {P : CatalogState → Prop}
    {allowed : SessionContext → ControlOp → CatalogState → Prop}
    (hbump : ∀ state, P state → P state.bump)
    (hedit : ∀ session op state state', P state → allowed session op state →
      op.TableEffect session state state' → P state') {w : World}
    (h : Run.Reachable (fun w : World => P w.catalog)
      (Run.byOps (performedOp o) (fun call w => call.2.onTables = true
        ∧ allowed call.1 call.2 w.catalog)) w) :
  P w.catalog
  := by
  refine Run.Reachable.invariant (P := fun w : World => P w.catalog) (fun _ hw => hw) ?_ h
  rintro w w' hw ⟨call, ⟨hop, hallowed⟩, rfl⟩
  exact performedOp_keeps o hop hw hbump
    (fun state => hedit call.1 call.2 w.catalog state hw hallowed)

/-! ### Operations on a first install -/

namespace Installed

/-- A session of the administrator. -/
def session : SessionContext := {}

/-- The columns of a table. -/
def columns : List CatalogColumn := [⟨"a", "Int32", true, none⟩, ⟨"b", "Int32", true, none⟩]

/-- The system after operations on a first install. -/
def after (calls : List (SessionContext × ControlOp)) : World :=
  Run.performAll (performedOp Outside.faultless) calls World.bootstrap

end Installed
