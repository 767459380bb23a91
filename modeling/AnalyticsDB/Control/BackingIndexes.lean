import AnalyticsDB.Control.Namespace
import AnalyticsDB.Control.TableEdits

/-!
# Constraints and the indexes that back them

A primary key or a unique constraint is backed by the index of its name.  Some operations make or
remove both together, others compare names.  What is proved is which operations keep every such
constraint backed by exactly one index, and no other index in its place.
-/

namespace CatalogRelation

/-- A constraint of the relation that is to be backed has a name. -/
def hasBacked (relation : CatalogRelation) (name : String) : Bool :=
  relation.constraints.any (fun constraint => constraint.kind.isBacked && constraint.name = name)

/-- A foreign key of the relation has a name. -/
def hasUnbacked (relation : CatalogRelation) (name : String) : Bool :=
  relation.constraints.any (fun constraint => !constraint.kind.isBacked && constraint.name = name)

/-- The indexes that back no constraint, which users created. -/
def userIndexes (relation : CatalogRelation) : List CatalogIndex :=
  relation.indexes.filter (fun index => !relation.hasBacked index.name)

/-- Indexes have different names, and the one of a constraint's name is the index that backs it, if
it is to be backed, and else is not there. -/
structure InStep (relation : CatalogRelation) : Prop where
  distinct : (relation.indexes.map (·.name)).Nodup
  backed : ∀ constraint ∈ relation.constraints, constraint.kind.isBacked = true →
    constraint.backingIndex ∈ relation.indexes
  unbacked : ∀ constraint ∈ relation.constraints, constraint.kind.isBacked = false →
    relation.hasIndex constraint.name = false

end CatalogRelation

/-- Every relation's constraints and indexes are in step. -/
def CatalogState.InStep (state : CatalogState) : Prop :=
  ∀ (key : String) (relation : CatalogRelation), state.relations[key]? = some relation →
    relation.InStep

/-- The constraints of a new table get indexes of their names: each that is to be backed has a name
of its own, and was given it. -/
def namesApart (constraints : List CatalogTableConstraint) : Bool :=
  let backed := (constraints.filter (·.kind.isBacked)).map (·.name)
  decide backed.Nodup && !backed.contains "auto_constraint"
    && (constraints.filter (!·.kind.isBacked)).all (fun constraint =>
      !backed.contains constraint.name)

/-- An operation does not give an index the name of a constraint, nor a constraint that of an
index, nor takes the name from an index that backs a constraint. -/
def ControlOp.keepsInStep (session : SessionContext) (state : CatalogState) : ControlOp → Bool
  | registerManagedTable _ _ _ _ _ constraints => namesApart constraints
  | addConstraint database schema tableName constraint =>
    match state.relations[objectKey session database schema tableName]? with
    | none => true
    | some relation => !relation.hasIndex constraint.name
  | createIndex database schema table name _ _ =>
    match state.relations[objectKey session database schema table]? with
    | none => true
    | some relation => !relation.hasUnbacked name
  | renameIndex database schema tableName oldName newName =>
    match state.relations[objectKey session database schema tableName]? with
    | none => true
    | some relation => !relation.hasBacked oldName && !relation.hasUnbacked newName
  | _ => true

/-! ### The operations keep constraints and indexes in step -/

@[simp]
theorem CatalogTableConstraint.backingIndex_name (constraint : CatalogTableConstraint) :
  constraint.backingIndex.name = constraint.name
  := rfl

section

variable {relation : CatalogRelation}

theorem CatalogRelation.hasUnbacked_eq_false {name : String} :
  relation.hasUnbacked name = false ↔ ∀ constraint ∈ relation.constraints,
    constraint.kind.isBacked = false → constraint.name ≠ name
  := by
  simp [hasUnbacked]

theorem CatalogRelation.hasBacked_eq_false {name : String} :
  relation.hasBacked name = false ↔ ∀ constraint ∈ relation.constraints,
    constraint.kind.isBacked = true → constraint.name ≠ name
  := by
  simp [hasBacked]

/-- Fewer constraints and indexes are in step as long as the backing indexes stay. -/
theorem CatalogRelation.InStep.of_fewer (h : relation.InStep) {edited : CatalogRelation}
    (hindexes : edited.indexes.Sublist relation.indexes)
    (hconstraints : ∀ constraint ∈ edited.constraints, constraint ∈ relation.constraints)
    (hbacked : ∀ constraint ∈ edited.constraints, constraint.kind.isBacked = true →
      constraint.backingIndex ∈ edited.indexes) :
  edited.InStep
  := by
  constructor
  · exact (hindexes.map _).nodup h.distinct
  · exact hbacked
  · intro constraint hconstraint hkind
    rw [hasIndex_eq_false]
    intro index hindex
    exact hasIndex_eq_false.mp (h.unbacked constraint (hconstraints _ hconstraint) hkind) index
      (hindexes.subset hindex)

/-- The same constraints and indexes are in step. -/
theorem CatalogRelation.InStep.of_same (h : relation.InStep) {edited : CatalogRelation}
    (hconstraints : edited.constraints = relation.constraints)
    (hindexes : edited.indexes = relation.indexes) :
  edited.InStep
  := by
  apply h.of_fewer
  · rw [hindexes]
  · intro constraint hconstraint
    rwa [hconstraints] at hconstraint
  · rw [hconstraints, hindexes]
    exact h.backed

/-- A constraint whose name no constraint and no index has. -/
theorem CatalogRelation.InStep.withConstraint (h : relation.InStep)
    {constraint : CatalogTableConstraint}
    (hname : relation.hasConstraint constraint.name = false)
    (hindex : relation.hasIndex constraint.name = false) :
  (relation.withConstraint constraint).InStep
  := by
  have hother := hasConstraint_eq_false.mp hname
  have hnoIndex := hasIndex_eq_false.mp hindex
  unfold CatalogRelation.withConstraint
  cases hkind : constraint.kind.isBacked with
  | false =>
      simp only [Bool.false_eq_true, if_false]
      constructor
      · exact h.distinct
      · intro other hmem hbacked
        rcases List.mem_append.mp hmem with hmem | hmem
        · exact h.backed other hmem hbacked
        · cases List.mem_singleton.mp hmem
          rw [hkind] at hbacked
          cases hbacked
      · intro other hmem hunbacked
        rcases List.mem_append.mp hmem with hmem | hmem
        · exact h.unbacked other hmem hunbacked
        · cases List.mem_singleton.mp hmem
          exact hindex
  | true =>
      simp only [if_true]
      constructor
      · rw [List.map_append, List.map_singleton, List.nodup_append]
        refine ⟨h.distinct, List.nodup_singleton _, ?_⟩
        intro name hold new hnew heq
        obtain ⟨index, hmem, rfl⟩ := List.mem_map.mp hold
        cases List.mem_singleton.mp hnew
        exact hnoIndex index hmem heq
      · intro other hmem hbacked
        rcases List.mem_append.mp hmem with hmem | hmem
        · exact List.mem_append_left _ (h.backed other hmem hbacked)
        · cases List.mem_singleton.mp hmem
          exact List.mem_append_right _ (List.mem_singleton_self _)
      · intro other hmem hunbacked
        rcases List.mem_append.mp hmem with hmem | hmem
        · rw [hasIndex_eq_false]
          intro index hindex
          rcases List.mem_append.mp hindex with hindex | hindex
          · exact hasIndex_eq_false.mp (h.unbacked other hmem hunbacked) index hindex
          · cases List.mem_singleton.mp hindex
            exact (hother other hmem).symm
        · cases List.mem_singleton.mp hmem
          rw [hkind] at hunbacked
          cases hunbacked

/-- A constraint goes with its index. -/
theorem CatalogRelation.InStep.withoutConstraint (h : relation.InStep) (name : String) :
  (relation.withoutConstraint name).InStep
  := by
  apply h.of_fewer
  · exact List.filter_sublist
  · intro constraint hconstraint
    exact List.mem_of_mem_filter hconstraint
  · intro constraint hconstraint hkind
    obtain ⟨hmem, hname⟩ := List.mem_filter.mp hconstraint
    exact List.mem_filter.mpr ⟨h.backed constraint hmem hkind, hname⟩

/-- An index whose name no constraint and no index has. -/
theorem CatalogRelation.InStep.withIndex (h : relation.InStep) {index : CatalogIndex}
    (hindex : relation.hasIndex index.name = false)
    (hunbacked : relation.hasUnbacked index.name = false) :
  CatalogRelation.InStep { relation with indexes := relation.indexes ++ [index] }
  := by
  constructor
  · rw [List.map_append, List.map_singleton, List.nodup_append]
    refine ⟨h.distinct, List.nodup_singleton _, ?_⟩
    intro name hold new hnew heq
    obtain ⟨other, hmem, rfl⟩ := List.mem_map.mp hold
    cases List.mem_singleton.mp hnew
    exact hasIndex_eq_false.mp hindex other hmem heq
  · intro constraint hconstraint hkind
    exact List.mem_append_left _ (h.backed constraint hconstraint hkind)
  · intro constraint hconstraint hkind
    rw [hasIndex_eq_false]
    intro other hother
    rcases List.mem_append.mp hother with hother | hother
    · exact hasIndex_eq_false.mp (h.unbacked constraint hconstraint hkind) other hother
    · cases List.mem_singleton.mp hother
      exact (hasUnbacked_eq_false.mp hunbacked constraint hconstraint hkind).symm

/-- An index that no constraint has the name of may go. -/
theorem CatalogRelation.InStep.withoutIndex (h : relation.InStep) {name : String}
    (hname : relation.hasConstraint name = false) :
  CatalogRelation.InStep { relation with indexes := relation.indexes.eraseP (·.name = name) }
  := by
  apply h.of_fewer
  · exact List.eraseP_sublist
  · intro constraint hconstraint
    exact hconstraint
  · intro constraint hconstraint hkind
    apply (List.mem_eraseP_of_neg _).mpr (h.backed constraint hconstraint hkind)
    rw [decide_eq_true_iff]
    exact hasConstraint_eq_false.mp hname constraint hconstraint

/-- An index that backs no constraint gets a name that no index and no foreign key has. -/
theorem CatalogRelation.InStep.renameIndex (h : relation.InStep) {oldName newName : String}
    (hnew : relation.hasIndex newName = false) (hbacked : relation.hasBacked oldName = false)
    (hunbacked : relation.hasUnbacked newName = false) :
  CatalogRelation.InStep { relation with
    indexes :=
      modifyFirst (·.name = oldName) (fun i => { i with name := newName }) relation.indexes }
  := by
  constructor
  · apply nodup_map_modifyFirst h.distinct
    intro _ _ _ index hindex
    exact hasIndex_eq_false.mp hnew index hindex
  · intro constraint hconstraint hkind
    apply mem_modifyFirst_of_neg (h.backed constraint hconstraint hkind)
    exact decide_eq_false (hasBacked_eq_false.mp hbacked constraint hconstraint hkind)
  · intro constraint hconstraint hkind
    rw [hasIndex_eq_false]
    intro index hindex
    rcases mem_modifyFirst hindex with hmem | ⟨old, -, -, rfl⟩
    · exact hasIndex_eq_false.mp (h.unbacked constraint hconstraint hkind) index hmem
    · exact (hasUnbacked_eq_false.mp hunbacked constraint hconstraint hkind).symm

/-- Constraints that were given names get indexes of these names. -/
theorem indexesFromConstraints_eq (tableName : String) {constraints : List CatalogTableConstraint}
    (h : ∀ constraint ∈ constraints, constraint.kind.isBacked = true →
      constraint.name ≠ "auto_constraint") :
  indexesFromConstraints tableName constraints
    = (constraints.filter (·.kind.isBacked)).map CatalogTableConstraint.backingIndex
  := by
  induction constraints with
  | nil => rfl
  | cons constraint constraints ih =>
      have hrest := ih (fun other hother => h other (List.mem_cons_of_mem _ hother))
      have hfirst := h constraint (List.mem_cons_self ..)
      obtain ⟨name, kind, columns, _, _, _, _⟩ := constraint
      cases kind with
      | foreignKey => exact hrest
      | primaryKey | unique =>
          rw [indexesFromConstraints] at hrest ⊢
          simp only [List.filterMap_cons, List.map_cons, hrest]
          rw [if_neg (hfirst rfl)]
          rfl

/-- The constraints of a new table are in step with its indexes. -/
theorem managedTable_inStep (database schema name storageUri : String)
    (columns : List CatalogColumn) {constraints : List CatalogTableConstraint}
    (h : namesApart constraints = true) :
  (CatalogRelation.managedTable database schema name storageUri columns constraints).InStep
  := by
  simp only [namesApart, Bool.and_eq_true, decide_eq_true_iff, Bool.not_eq_true',
    List.all_eq_true, List.contains_eq_mem, decide_eq_false_iff_not] at h
  obtain ⟨⟨hnodup, hnamed⟩, hapart⟩ := h
  have hindexes : (CatalogRelation.managedTable database schema name storageUri columns
      constraints).indexes
        = (constraints.filter (·.kind.isBacked)).map CatalogTableConstraint.backingIndex := by
    apply indexesFromConstraints_eq
    intro constraint hconstraint hkind hname
    apply hnamed
    rw [← hname]
    exact List.mem_map_of_mem (List.mem_filter.mpr ⟨hconstraint, hkind⟩)
  constructor
  · rw [hindexes, List.map_map]
    exact hnodup
  · intro constraint hconstraint hkind
    rw [hindexes]
    exact List.mem_map_of_mem (List.mem_filter.mpr ⟨hconstraint, hkind⟩)
  · intro constraint hconstraint hkind
    rw [CatalogRelation.hasIndex_eq_false, hindexes]
    intro index hindex hname
    obtain ⟨other, hother, rfl⟩ := List.mem_map.mp hindex
    have hmem := hapart constraint (List.mem_filter.mpr ⟨hconstraint, by simpa using hkind⟩)
    exact hmem (hname ▸ List.mem_map_of_mem hother)

end

/-- A relation that is in step takes the place of another. -/
theorem CatalogState.InStep.insert {state : CatalogState} (h : state.InStep) (key : String)
    {edited : CatalogRelation} (hedited : edited.InStep) :
  CatalogState.InStep { state with relations := state.relations.insert key edited }
  := by
  intro otherKey other hother
  rw [KeyMap.get_insert] at hother
  split at hother
  · cases hother
    exact hedited
  · exact h otherKey other hother

theorem dropForeignKeysTo_inStep {relation : CatalogRelation} (h : relation.InStep)
    (databaseName schemaName tableName : String) :
  (dropForeignKeysTo databaseName schemaName tableName relation).InStep
  := by
  apply h.of_fewer
  · exact List.Sublist.refl _
  · intro constraint hconstraint
    exact List.mem_of_mem_filter hconstraint
  · intro constraint hconstraint hkind
    exact h.backed constraint (List.mem_of_mem_filter hconstraint) hkind

/-- Foreign keys may be removed. -/
theorem CatalogState.InStep.withoutForeignKeysTo {state : CatalogState} (h : state.InStep)
    (databaseName schemaName tableName : String) :
  (state.withoutForeignKeysTo databaseName schemaName tableName).InStep
  := by
  intro key relation hrelation
  rw [CatalogState.withoutForeignKeysTo, Std.ExtTreeMap.getElem?_map, Option.map_eq_some_iff]
    at hrelation
  obtain ⟨old, hold, rfl⟩ := hrelation
  split
  · exact h key old hold
  · exact dropForeignKeysTo_inStep (h key old hold) _ _ _

/-- Every operation that keeps the names of indexes and constraints apart keeps them in step. -/
theorem ControlOp.TableEffect.inStep {session : SessionContext} {op : ControlOp}
    {state state' : CatalogState} (h : state.InStep)
    (hkeeps : op.keepsInStep session state = true) (heffect : op.TableEffect session state state') :
  state'.InStep
  := by
  cases op with
  | registerManagedTable database schema tableName storageUri columns constraints =>
      obtain ⟨-, rfl⟩ := heffect
      exact h.insert _ (managedTable_inStep _ _ _ _ _ hkeeps)
  | addColumn | dropColumn | renameColumn | alterColumn | updateRelationStoragePath =>
      obtain ⟨relation, hold, -, rfl⟩ := heffect
      exact h.insert _ ((h _ relation hold).of_same rfl rfl)
  | addConstraint database schema tableName constraint =>
      obtain ⟨relation, hold, ⟨hname, -⟩, rfl⟩ := heffect
      simp only [keepsInStep, hold, Bool.not_eq_true'] at hkeeps
      exact h.insert _ ((h _ relation hold).withConstraint hname hkeeps)
  | dropConstraint database schema tableName constraintName ifExists cascade =>
      obtain ⟨dropped, ⟨relation, hold, -, rfl⟩, rfl⟩ := heffect
      have hdropped := h.insert (objectKey session database schema tableName)
        ((h _ relation hold).withoutConstraint constraintName)
      split
      · exact hdropped.withoutForeignKeysTo _ _ _
      · exact hdropped
  | createIndex database schema table name columns unique =>
      obtain ⟨relation, hold, hindex, rfl⟩ := heffect
      simp only [keepsInStep, hold, Bool.not_eq_true'] at hkeeps
      exact h.insert _ ((h _ relation hold).withIndex hindex hkeeps)
  | dropIndex database schema name ifExists =>
      obtain ⟨key, relation, hfound, hguard, rfl⟩ := heffect
      have hold := Std.ExtTreeMap.mem_toList_iff_getElem?_eq_some.mp
        (List.mem_of_find?_eq_some hfound)
      exact h.insert _ ((h _ relation hold).withoutIndex (Bool.or_eq_false_iff.mp hguard).2)
  | renameIndex database schema tableName oldName newName =>
      obtain ⟨relation, hold, ⟨hnew, -⟩, rfl⟩ := heffect
      simp only [keepsInStep, hold, Bool.and_eq_true, Bool.not_eq_true'] at hkeeps
      exact h.insert _ ((h _ relation hold).renameIndex hnew hkeeps.1 hkeeps.2)
  | _ => cases heffect

/-! ### What it means to be in step -/

/-- Every constraint that is to be backed is backed by exactly one index, which is unique, on the
same columns, and not dropped by `DROP INDEX`; and a constraint that is dropped goes with its index
while the indexes that users created stay. -/
structure World.ConstraintsBacked (o : Outside) (w : World) : Prop where
  backed : ∀ (key : String) (relation : CatalogRelation), w.catalog.relations[key]?
    = some relation →
    ∀ constraint ∈ relation.constraints, constraint.kind.isBacked = true →
      relation.indexes.filter (·.name = constraint.name) = [constraint.backingIndex]
  refused : ∀ (key : String) (relation : CatalogRelation),
    w.catalog.relations[key]? = some relation →
    ∀ constraint ∈ relation.constraints, constraint.kind.isBacked = true →
      ∀ session database schema ifExists,
        (performedOp o (session, .dropIndex database schema constraint.name ifExists)
          w).catalog.relations[key]? = some relation
  dropped : ∀ (key : String) (relation : CatalogRelation),
    w.catalog.relations[key]? = some relation →
    ∀ session database schema tableName constraintName ifExists cascade,
      ∃ relation' : CatalogRelation,
        (performedOp o (session, .dropConstraint database schema tableName constraintName ifExists
          cascade) w).catalog.relations[key]? = some relation'
        ∧ relation'.userIndexes = relation.userIndexes
        ∧ ∀ constraint ∈ relation.constraints, constraint ∉ relation'.constraints →
          relation'.hasIndex constraint.name = false

/-- Among elements with different keys one is the only one of its key. -/
theorem filter_eq_of_nodup_map {α β : Type} [DecidableEq β] {g : α → β} {l : List α}
    (h : (l.map g).Nodup) {a : α} (ha : a ∈ l) :
  l.filter (fun b => g b = g a) = [a]
  := by
  induction l with
  | nil => cases ha
  | cons b l ih =>
      rw [List.map_cons, List.nodup_cons] at h
      rcases List.mem_cons.mp ha with rfl | ha
      · rw [List.filter_cons_of_pos (by simp), List.filter_eq_nil_iff.mpr]
        intro b hb
        rw [decide_eq_true_iff]
        intro heq
        exact h.1 (heq ▸ List.mem_map_of_mem hb)
      · rw [List.filter_cons_of_neg, ih h.2 ha]
        rw [decide_eq_true_iff]
        intro heq
        exact h.1 (heq ▸ List.mem_map_of_mem ha)

section

variable {relation : CatalogRelation}

/-- When a constraint is dropped, the indexes that users created stay, and its own goes. -/
theorem CatalogRelation.InStep.dropped (h : relation.InStep) {name : String}
    (hname : relation.hasConstraint name = true) :
  (relation.withoutConstraint name).userIndexes = relation.userIndexes
    ∧ ∀ constraint ∈ relation.constraints,
      constraint ∉ (relation.withoutConstraint name).constraints →
      (relation.withoutConstraint name).hasIndex constraint.name = false
  := by
  constructor
  · rw [userIndexes, userIndexes, CatalogRelation.withoutConstraint, List.filter_filter]
    apply List.filter_congr
    intro index hindex
    by_cases heq : index.name = name
    · -- the index of the name backs the constraint
      obtain ⟨constraint, hconstraint, hconstraintName⟩ := List.any_eq_true.mp hname
      rw [decide_eq_true_iff] at hconstraintName
      have hbacked : relation.hasBacked index.name = true := by
        cases hkind : constraint.kind.isBacked with
        | true =>
            refine List.any_eq_true.mpr ⟨constraint, hconstraint, ?_⟩
            simp [hkind, hconstraintName, heq]
        | false =>
            have hnone := hasIndex_eq_false.mp (h.unbacked constraint hconstraint hkind) index
              hindex
            exact absurd (heq.trans hconstraintName.symm) hnone
      simp [heq, heq ▸ hbacked]
    · have hsame : CatalogRelation.hasBacked { relation with
            constraints := relation.constraints.filter (·.name ≠ name)
            indexes := relation.indexes.filter (·.name ≠ name) } index.name
          = relation.hasBacked index.name := by
        rw [hasBacked, hasBacked, List.any_filter]
        congr 1
        funext constraint
        by_cases hconstraint : constraint.name = index.name
        · simp [hconstraint, heq]
        · simp [hconstraint]
      simp only [hsame, ne_eq, heq, not_false_eq_true, decide_true, Bool.and_true]
  · intro constraint hconstraint hdropped
    have hconstraintName : constraint.name = name := by
      by_contra hne
      exact hdropped (List.mem_filter.mpr ⟨hconstraint, by simpa using hne⟩)
    rw [hasIndex_eq_false, hconstraintName]
    intro index hindex
    simpa using (List.mem_filter.mp hindex).2

/-- When foreign keys are removed, no index goes, and they had none. -/
theorem CatalogRelation.InStep.foreignKeysDropped (h : relation.InStep)
    (databaseName schemaName tableName : String) :
  (dropForeignKeysTo databaseName schemaName tableName relation).userIndexes = relation.userIndexes
    ∧ ∀ constraint ∈ relation.constraints,
      constraint ∉ (dropForeignKeysTo databaseName schemaName tableName relation).constraints →
      (dropForeignKeysTo databaseName schemaName tableName relation).hasIndex constraint.name
        = false
  := by
  constructor
  · rw [userIndexes, userIndexes]
    apply List.filter_congr
    intro index hindex
    congr 1
    rw [hasBacked, hasBacked, dropForeignKeysTo, List.any_filter]
    congr 1
    funext constraint
    obtain ⟨_, kind, _, _, _, _, _⟩ := constraint
    cases kind with
    | primaryKey | unique => simp [CatalogTableConstraintKind.isBacked]
    | foreignKey => simp [CatalogTableConstraintKind.isBacked]
  · intro constraint hconstraint hdropped
    apply h.unbacked constraint hconstraint
    obtain ⟨_, kind, _, _, _, _, _⟩ := constraint
    cases kind with
    | foreignKey => rfl
    | primaryKey | unique =>
        exact absurd (List.mem_filter.mpr ⟨hconstraint, by simp⟩) hdropped

end

/-- In a catalogue in step every constraint is backed. -/
theorem CatalogState.InStep.constraintsBacked (o : Outside) {w : World} (h : w.catalog.InStep) :
  w.ConstraintsBacked o
  := by
  constructor
  · intro key relation hrelation constraint hconstraint hkind
    have hstep := h key relation hrelation
    exact filter_eq_of_nodup_map hstep.distinct (hstep.backed constraint hconstraint hkind)
  · intro key relation hrelation constraint hconstraint hkind session database schema ifExists
    refine performedOp_keeps o (P := fun state => state.relations[key]? = some relation) rfl
      hrelation (fun _ hstate => hstate) ?_
    rintro state ⟨otherKey, other, hfound, hguard, rfl⟩
    have hother := Std.ExtTreeMap.mem_toList_iff_getElem?_eq_some.mp
      (List.mem_of_find?_eq_some hfound)
    rw [KeyMap.get_insert, if_neg]
    · exact hrelation
    · -- an index of the name of a constraint is guarded
      rintro rfl
      rw [hrelation] at hother
      cases hother
      have hnone := CatalogRelation.hasConstraint_eq_false.mp (Bool.or_eq_false_iff.mp hguard).2
      exact hnone constraint hconstraint rfl
  · intro key relation hrelation session database schema tableName constraintName ifExists cascade
    have hstep := h key relation hrelation
    refine performedOp_keeps o (P := fun state => ∃ relation' : CatalogRelation,
      state.relations[key]? = some relation' ∧ relation'.userIndexes = relation.userIndexes
        ∧ ∀ constraint ∈ relation.constraints, constraint ∉ relation'.constraints →
          relation'.hasIndex constraint.name = false) rfl ?_ (fun _ hstate => hstate) ?_
    · refine ⟨relation, hrelation, rfl, ?_⟩
      intro constraint hconstraint hdropped
      exact absurd hconstraint hdropped
    · rintro state ⟨dropped, ⟨target, htarget, hname, rfl⟩, rfl⟩
      by_cases hkey : objectKey session database schema tableName = key
      · -- the table itself
        rw [hkey, hrelation] at htarget
        cases htarget
        refine ⟨relation.withoutConstraint constraintName, ?_, hstep.dropped hname⟩
        have hself : relationKey (database.getD session.database) (schema.getD session.schema)
            tableName = key := hkey
        split
        · rw [CatalogState.withoutForeignKeysTo, Std.ExtTreeMap.getElem?_map, KeyMap.get_insert,
            if_pos hkey, Option.map_some, if_pos hself.symm]
        · rw [KeyMap.get_insert, if_pos hkey]
      · have hother : relationKey (database.getD session.database) (schema.getD session.schema)
            tableName ≠ key := hkey
        split
        · refine ⟨_, ?_, hstep.foreignKeysDropped (database.getD session.database)
            (schema.getD session.schema) tableName⟩
          rw [CatalogState.withoutForeignKeysTo, Std.ExtTreeMap.getElem?_map, KeyMap.get_insert,
            if_neg hkey, hrelation, Option.map_some, if_neg (Ne.symm hother)]
        · refine ⟨relation, ?_, rfl, ?_⟩
          · rw [KeyMap.get_insert, if_neg hkey, hrelation]
          · intro constraint hconstraint hdropped
            exact absurd hconstraint hdropped

theorem CatalogState.InStep.bump {state : CatalogState} (h : state.InStep) :
  state.bump.InStep
  := h

/-- In every system reached by operations on tables that keep the names of indexes and constraints
apart, constraints and their indexes are in step. -/
theorem reachable_constraintsBacked (o : Outside) {w : World}
    (h : Run.Reachable (fun w : World => w.catalog.InStep)
      (Run.byOps (performedOp o) (fun call w => call.2.onTables = true
        ∧ call.2.keepsInStep call.1 w.catalog = true)) w) :
  w.ConstraintsBacked o
  := by
  apply CatalogState.InStep.constraintsBacked
  exact reachable_keeps o (fun _ hstate => hstate.bump)
    (fun _ _ _ _ hstate hkeeps heffect => heffect.inStep hstate hkeeps) h

/-! ### A constraint without an index, and one with two -/

theorem initialState_inStep (users : KeyMap CatalogUser) :
  (initialState users).InStep
  := by
  intro key relation hrelation
  simp [initialState] at hrelation

namespace Installed

/-- A table with a unique constraint of a given name, and an index of another name. -/
def unique : List (SessionContext × ControlOp) :=
  [(session, .registerManagedTable none none "t" "/data/t" columns
      [⟨"k", .unique, ["a"], none, none, none, []⟩]),
    (session, .createIndex none none "t" "i" ["b"] false)]

/-- A table with a unique constraint that was given no name. -/
def unnamed : List (SessionContext × ControlOp) :=
  [(session, .registerManagedTable none none "t" "/data/t" columns
      [⟨"auto_constraint", .unique, ["a"], none, none, none, []⟩])]

/-- An index, and then a unique constraint of its name on another column. -/
def taken : List (SessionContext × ControlOp) :=
  [(session, .registerManagedTable none none "t" "/data/t" columns []),
    (session, .createIndex none none "t" "k" ["b"] false),
    (session, .addConstraint none none "t" ⟨"k", .unique, ["a"], none, none, none, []⟩)]

end Installed

open Installed in
theorem reachable_constraintsBacked_unique :
  (after unique).ConstraintsBacked Outside.faultless
  := by
  refine reachable_constraintsBacked Outside.faultless (Run.Reachable.performAll
    (.start (initialState_inStep _)) ?_)
  decide +kernel

open Installed in
/-- The index of the unnamed constraint is dropped while the constraint stays, and the index a user
created goes with the constraint that got its name. -/
theorem names_not_constraintsBacked :
  (Run.Reachable Initial (Run.byOps (performedOp Outside.faultless)
        (fun call _ => call.2.onTables = true)) (after unnamed)
      ∧ ¬ (after unnamed).ConstraintsBacked Outside.faultless
      ∧ ((after (unnamed ++ [(session, .dropIndex none none "t_a_idx" false)])).catalog.relations[
          "postgres.public.t"]?).map
            (fun relation => (relation.constraints.length, relation.indexes))
        = some (1, []))
    ∧ Run.Reachable Initial (Run.byOps (performedOp Outside.faultless)
        (fun call _ => call.2.onTables = true)) (after taken)
      ∧ ¬ (after taken).ConstraintsBacked Outside.faultless
      ∧ ((after (taken ++ [(session, .dropConstraint none none "t" "k" false false)]
          )).catalog.relations["postgres.public.t"]?).map (·.indexes) = some []
  := by
  have hreachable : ∀ calls, Run.AllAllowed (performedOp Outside.faultless)
      (fun call _ => call.2.onTables = true) calls World.bootstrap →
      Run.Reachable Initial (Run.byOps (performedOp Outside.faultless)
        (fun call _ => call.2.onTables = true)) (after calls) := by
    intro calls hcalls
    exact Run.Reachable.performAll (.start ⟨fun _ => ⟨"", "", ""⟩, fun _ => 0, .inl rfl⟩) hcalls
  -- no table has a backed constraint whose name is not that of exactly one index
  have hbacked : ∀ w : World, w.ConstraintsBacked Outside.faultless →
      (w.catalog.relations["postgres.public.t"]?).all (fun relation =>
        relation.constraints.all (fun constraint => !constraint.kind.isBacked
          || (relation.indexes.filter (·.name = constraint.name)).length = 1)) = true := by
    intro w hw
    rw [Option.all_eq_true]
    intro relation hrelation
    rw [List.all_eq_true]
    intro constraint hconstraint
    cases hkind : constraint.kind.isBacked with
    | false => rfl
    | true =>
        rw [hw.backed _ relation hrelation constraint hconstraint hkind]
        rfl
  refine ⟨⟨hreachable _ (by decide +kernel), ?_, by decide +kernel⟩,
    hreachable _ (by decide +kernel), ?_, by decide +kernel⟩
  · intro h
    have hall := hbacked _ h
    revert hall
    decide +kernel
  · intro h
    have hall := hbacked _ h
    revert hall
    decide +kernel
