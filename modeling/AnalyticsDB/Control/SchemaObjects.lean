import AnalyticsDB.Control.Namespace
import AnalyticsDB.Control.TableEdits
import Mathlib

/-!
# The namespace of the other objects

Aggregates, collations, conversions and functions are stored under their dotted names, like
relations.  Dropping and renaming databases and schemas leaves them where they are, conversions are
stored unchecked, and an alteration that fails stores what it failed to make.  What is proved is
which operations keep them in their namespace.
-/

/-- Conversions are altered without the checks of the other kinds, but are stored like them. -/
def conversionKind : ObjectKind CatalogConversion :=
  { label := "Conversion"
    command := "CONVERSION"
    entries := CatalogState.conversions
    setEntries := fun entries state => { state with conversions := entries }
    database := CatalogConversion.database
    schema := CatalogConversion.schema
    name := CatalogConversion.name
    setName := fun name conversion => { conversion with name := name }
    setOwner := none
    setSchema := fun schema conversion => { conversion with schema := schema }
    entries_setEntries := fun _ _ => rfl
    setEntries_setEntries := fun _ _ _ => rfl
    setEntries_entries := Eq.refl }

/-- A schema of a database is there. -/
def CatalogState.hasSchema (state : CatalogState) (database schema : String) : Bool :=
  match state.databases[database]? with
  | none => false
  | some entry => entry.schemas.contains schema

theorem CatalogState.hasSchema_iff {state : CatalogState} {database schema : String} :
  state.hasSchema database schema = true
    ↔ ∃ entry, state.databases[database]? = some entry ∧ entry.schemas.contains schema = true
  := by
  unfold hasSchema
  cases state.databases[database]? with
  | none => simp
  | some entry => simp

namespace ObjectKind

variable {β : Type} (kind : ObjectKind β) (state : CatalogState)

/-- An object is stored under its own name, in a schema that is there. -/
structure Placed (key : String) (entry : β) : Prop where
  key_eq : key = kind.keyOf entry
  schema_exists : state.hasSchema (kind.database entry) (kind.schema entry) = true

/-- All objects of the kind are placed. -/
def AllPlaced : Prop :=
  ∀ (key : String) (entry : β), (kind.entries state)[key]? = some entry →
    kind.Placed state key entry

/-- Some object of the kind is in one of the given schemas. -/
def anyWithin (within : String → String → Bool) : Bool :=
  (kind.entries state).toList.any
    (fun (_, entry) => within (kind.database entry) (kind.schema entry))

/-- The key an object gets when it is altered. -/
def alteredKey (entry : β) : AlterObjectOperation → String
  | .rename newName => relationKey (kind.database entry) (kind.schema entry) newName
  | .ownerTo _ => kind.keyOf entry
  | .setSchema newSchema => relationKey (kind.database entry) newSchema (kind.name entry)

/-- An object is altered to a key that no other has. -/
def altersFreely (key : String) (operation : AlterObjectOperation) : Bool :=
  match (kind.entries state)[key]? with
  | none => true
  | some entry => kind.alteredKey entry operation = key
    || !(kind.entries state).contains (kind.alteredKey entry operation)

/-- An object is altered to be in a schema that is there, as far as the alteration gives it one. -/
def altersWithin (key : String) (operation : AlterObjectOperation) : Bool :=
  match (kind.entries state)[key]?, operation with
  | some entry, .setSchema newSchema => state.hasSchema (kind.database entry) newSchema
  | _, _ => true

end ObjectKind

/-- The objects of all kinds are placed. -/
structure CatalogState.ObjectsPlaced (state : CatalogState) : Prop where
  aggregates : aggregateKind.AllPlaced state
  collations : collationKind.AllPlaced state
  conversions : conversionKind.AllPlaced state
  functions : functionKind.AllPlaced state

/-- Some object is in one of the given schemas. -/
def CatalogState.anyObjectWithin (state : CatalogState) (within : String → String → Bool) : Bool :=
  aggregateKind.anyWithin state within || collationKind.anyWithin state within
    || conversionKind.anyWithin state within || functionKind.anyWithin state within

/-! ### The operations that keep the objects placed -/

namespace ControlOp

variable (session : SessionContext) (state : CatalogState)

/-- The schemas an operation drops or gives another name. -/
def leavesSchema : ControlOp → String → String → Bool
  | dropDatabase name _, database, _ | alterDatabase name (.rename _), database, _ =>
    database = name
  | dropSchema databaseName name _ _, database, schema
  | renameSchema databaseName name _, database, schema =>
    database = databaseName.getD session.database && schema = name
  | _, _, _ => false

/-- An operation stores objects in schemas that are there, and under keys that are free where it
does not look. -/
def makesPlaced : ControlOp → Bool
  | createAggregate database schema _ | createCollation database schema _
  | createFunction database schema _ _ _ =>
    state.hasSchema (database.getD session.database) (schema.getD session.schema)
  | createConversion database schema name =>
    state.hasSchema (database.getD session.database) (schema.getD session.schema)
      && !state.conversions.contains (objectKey session database schema name)
  | alterAggregate database schema name operation =>
    aggregateKind.altersFreely state (objectKey session database schema name) operation
  | alterCollation database schema name operation =>
    collationKind.altersFreely state (objectKey session database schema name) operation
  | alterFunction database schema name operation =>
    functionKind.altersFreely state (objectKey session database schema name) operation
  | alterConversion database schema name operation =>
    conversionKind.altersFreely state (objectKey session database schema name) operation
      && conversionKind.altersWithin state (objectKey session database schema name) operation
  | _ => true

/-- An operation stores objects so, and leaves no schema that has objects. -/
def keepsPlaced (op : ControlOp) : Bool :=
  !state.anyObjectWithin (op.leavesSchema session) && op.makesPlaced session state

end ControlOp

/-! ### What a creation or an alteration leaves of the other objects -/

/-- What a statement does to the objects of a kind: the key of the one it alters or replaces, and
how many it creates. -/
structure ObjectStep where
  altered : Option String := none
  created : Nat := 0

/-- What a statement does to the objects of each kind. -/
structure ObjectSteps where
  aggregates : ObjectStep := {}
  collations : ObjectStep := {}
  conversions : ObjectStep := {}
  functions : ObjectStep := {}

/-- What a statement is to do to the objects. -/
def ControlOp.objectSteps (session : SessionContext) : ControlOp → ObjectSteps
  | createAggregate .. => { aggregates := { created := 1 } }
  | createCollation .. => { collations := { created := 1 } }
  | createConversion .. => { conversions := { created := 1 } }
  | createFunction .. => { functions := { created := 1 } }
  | alterAggregate database schema name _ =>
    { aggregates := { altered := some (objectKey session database schema name) } }
  | alterCollation database schema name _ =>
    { collations := { altered := some (objectKey session database schema name) } }
  | alterConversion database schema name _ =>
    { conversions := { altered := some (objectKey session database schema name) } }
  | alterFunction database schema name _ =>
    { functions := { altered := some (objectKey session database schema name) } }
  | _ => {}

/-- The statements that are to remove or to replace a function. -/
def ControlOp.removesFunction : ControlOp → Bool
  | createFunction _ _ _ orReplace _ => orReplace
  | dropFunction .. => true
  | _ => false

/-- The objects of a kind after a step: those that it does not alter stay as they are, and none is
gone. -/
structure ObjectKind.Leaves {β : Type} (kind : ObjectKind β) (step : ObjectStep)
    (state state' : CatalogState) : Prop where
  kept : ∀ (key : String) (entry : β), (kind.entries state)[key]? = some entry →
    step.altered ≠ some key → (kind.entries state')[key]? = some entry
  size_eq : (kind.entries state').size = (kind.entries state).size + step.created

/-- The objects of all kinds after their steps. -/
structure CatalogState.LeavesObjects (steps : ObjectSteps) (state state' : CatalogState) :
    Prop where
  aggregates : aggregateKind.Leaves steps.aggregates state state'
  collations : collationKind.Leaves steps.collations state state'
  conversions : conversionKind.Leaves steps.conversions state state'
  functions : functionKind.Leaves steps.functions state state'

/-! ### The laws of a kind -/

/-- Giving an object a name, an owner or a schema changes nothing else of its key, and storing
objects does not change the databases. -/
structure ObjectKind.Lawful {β : Type} (kind : ObjectKind β) : Prop where
  keyOf_setName : ∀ name entry, kind.keyOf (kind.setName name entry)
    = relationKey (kind.database entry) (kind.schema entry) name
  keyOf_setSchema : ∀ schema entry, kind.keyOf (kind.setSchema schema entry)
    = relationKey (kind.database entry) schema (kind.name entry)
  keyOf_setOwner : ∀ setOwner, kind.setOwner = some setOwner → ∀ owner entry,
    kind.keyOf (setOwner owner entry) = kind.keyOf entry
  place_setName : ∀ name entry, kind.database (kind.setName name entry) = kind.database entry
    ∧ kind.schema (kind.setName name entry) = kind.schema entry
  place_setSchema : ∀ schema entry,
    kind.database (kind.setSchema schema entry) = kind.database entry
      ∧ kind.schema (kind.setSchema schema entry) = schema
  place_setOwner : ∀ setOwner, kind.setOwner = some setOwner → ∀ owner entry,
    kind.database (setOwner owner entry) = kind.database entry
      ∧ kind.schema (setOwner owner entry) = kind.schema entry
  databases_setEntries : ∀ entries state, (kind.setEntries entries state).databases
    = state.databases

theorem aggregateKind_lawful : aggregateKind.Lawful where
  keyOf_setName _ _ := rfl
  keyOf_setSchema _ _ := rfl
  keyOf_setOwner _ h _ _ := by
    cases h
    rfl
  place_setName _ _ := ⟨rfl, rfl⟩
  place_setSchema _ _ := ⟨rfl, rfl⟩
  place_setOwner _ h _ _ := by
    cases h
    exact ⟨rfl, rfl⟩
  databases_setEntries _ _ := rfl

theorem collationKind_lawful : collationKind.Lawful where
  keyOf_setName _ _ := rfl
  keyOf_setSchema _ _ := rfl
  keyOf_setOwner _ h _ _ := by cases h
  place_setName _ _ := ⟨rfl, rfl⟩
  place_setSchema _ _ := ⟨rfl, rfl⟩
  place_setOwner _ h _ _ := by cases h
  databases_setEntries _ _ := rfl

theorem conversionKind_lawful : conversionKind.Lawful where
  keyOf_setName _ _ := rfl
  keyOf_setSchema _ _ := rfl
  keyOf_setOwner _ h _ _ := by cases h
  place_setName _ _ := ⟨rfl, rfl⟩
  place_setSchema _ _ := ⟨rfl, rfl⟩
  place_setOwner _ h _ _ := by cases h
  databases_setEntries _ _ := rfl

theorem functionKind_lawful : functionKind.Lawful where
  keyOf_setName _ _ := rfl
  keyOf_setSchema _ _ := rfl
  keyOf_setOwner _ h _ _ := by
    cases h
    rfl
  place_setName _ _ := ⟨rfl, rfl⟩
  place_setSchema _ _ := ⟨rfl, rfl⟩
  place_setOwner _ h _ _ := by
    cases h
    exact ⟨rfl, rfl⟩
  databases_setEntries _ _ := rfl

/-! ### The objects of one kind -/

namespace ObjectKind

variable {β : Type} {kind : ObjectKind β} {state state' : CatalogState}

/-- What is left after an object is taken out was there. -/
theorem get_of_erased {entries : KeyMap β} {erased key : String} {entry : β}
    (h : (entries.erase erased)[key]? = some entry) :
  entries[key]? = some entry
  := by
  rw [KeyMap.get_erase] at h
  split at h
  · cases h
  · exact h

theorem hasSchema_of_altersWithin (kind : ObjectKind β) {key newSchema : String} {entry : β}
    (hentry : (kind.entries state)[key]? = some entry)
    (h : kind.altersWithin state key (.setSchema newSchema) = true) :
  state.hasSchema (kind.database entry) newSchema = true
  := by
  unfold altersWithin at h
  simp only [hentry] at h
  exact h

theorem hasSchema_setEntries (hlaws : kind.Lawful) (entries : KeyMap β)
    (database schema : String) :
  (kind.setEntries entries state).hasSchema database schema = state.hasSchema database schema
  := by
  unfold CatalogState.hasSchema
  rw [hlaws.databases_setEntries]

/-- An object that is altered has its new key, in a schema that is there. -/
theorem altered_placed (hlaws : kind.Lawful) {entry altered : β}
    {operation : AlterObjectOperation} (haltered : kind.altered state entry operation = .ok altered)
    (hschema : state.hasSchema (kind.database entry) (kind.schema entry) = true) :
  kind.keyOf altered = kind.alteredKey entry operation
    ∧ state.hasSchema (kind.database altered) (kind.schema altered) = true
  := by
  cases operation with
  | rename newName =>
      rw [ObjectKind.altered] at haltered
      cases hname : validateIdentifier newName with
      | error message =>
          rw [hname] at haltered
          cases haltered
      | ok _ =>
          rw [hname] at haltered
          cases haltered
          obtain ⟨hdatabase, hsame⟩ := hlaws.place_setName newName entry
          rw [hdatabase, hsame]
          exact ⟨hlaws.keyOf_setName newName entry, hschema⟩
  | ownerTo newOwner =>
      rw [ObjectKind.altered] at haltered
      cases howner : kind.setOwner with
      | none =>
          rw [howner] at haltered
          cases haltered
          exact ⟨rfl, hschema⟩
      | some setOwner =>
          simp only [howner, ite_throw_bind_eq_ok] at haltered
          obtain ⟨-, ⟨⟩⟩ := haltered
          obtain ⟨hdatabase, hsame⟩ := hlaws.place_setOwner setOwner howner newOwner entry
          rw [hdatabase, hsame]
          exact ⟨hlaws.keyOf_setOwner setOwner howner newOwner entry, hschema⟩
  | setSchema newSchema =>
      rw [ObjectKind.altered] at haltered
      cases hname : validateIdentifier newSchema with
      | error message =>
          rw [hname] at haltered
          cases haltered
      | ok _ =>
          rw [hname] at haltered
          cases hold : state.databases[kind.database entry]? with
          | none =>
              rw [hold] at haltered
              cases haltered
          | some database =>
              simp only [hold] at haltered
              cases hcontains : database.schemas.contains newSchema with
              | false =>
                  rw [hcontains] at haltered
                  cases haltered
              | true =>
                  rw [hcontains] at haltered
                  cases haltered
                  obtain ⟨hdatabase, hsame⟩ := hlaws.place_setSchema newSchema entry
                  rw [hdatabase, hsame]
                  exact ⟨hlaws.keyOf_setSchema newSchema entry,
                    CatalogState.hasSchema_iff.mpr ⟨database, hold, hcontains⟩⟩

namespace AllPlaced

/-- The databases change, but no schema that has objects of the kind is left. -/
theorem of_databases (h : kind.AllPlaced state)
    (hentries : kind.entries state' = kind.entries state)
    {gone : String → String → Bool} (hnone : kind.anyWithin state gone = false)
    (hschemas : ∀ database schema, state.hasSchema database schema = true →
      gone database schema = false → state'.hasSchema database schema = true) :
  kind.AllPlaced state'
  := by
  intro key entry hentry
  rw [hentries] at hentry
  obtain ⟨hkey, hschema⟩ := h key entry hentry
  refine ⟨hkey, hschemas _ _ hschema ?_⟩
  have hmem := Std.ExtTreeMap.mem_toList_iff_getElem?_eq_some.mpr hentry
  exact Bool.eq_false_iff.mpr (fun hgone =>
    Bool.eq_false_iff.mp hnone (List.any_eq_true.mpr ⟨(key, entry), hmem, hgone⟩))

/-- The objects of the kind and the databases are the same. -/
theorem of_eq (h : kind.AllPlaced state) (hentries : kind.entries state' = kind.entries state)
    (hdatabases : state'.databases = state.databases) :
  kind.AllPlaced state'
  := by
  intro key entry hentry
  rw [hentries] at hentry
  obtain ⟨hkey, hschema⟩ := h key entry hentry
  refine ⟨hkey, ?_⟩
  rw [CatalogState.hasSchema, hdatabases]
  exact hschema

/-- Some objects are left as they are. -/
theorem of_fewer (h : kind.AllPlaced state) (hlaws : kind.Lawful) {entries : KeyMap β}
    (hentries : ∀ (key : String) (entry : β), entries[key]? = some entry →
      (kind.entries state)[key]? = some entry) :
  kind.AllPlaced (kind.setEntries entries state)
  := by
  intro key entry hentry
  rw [kind.entries_setEntries] at hentry
  obtain ⟨hkey, hschema⟩ := h key entry (hentries key entry hentry)
  exact ⟨hkey, (hasSchema_setEntries hlaws entries _ _).trans hschema⟩

/-- Some objects are left as they are, and one is stored under its own key. -/
theorem insert (h : kind.AllPlaced state) (hlaws : kind.Lawful) {entries : KeyMap β}
    (hentries : ∀ (key : String) (entry : β), entries[key]? = some entry →
      (kind.entries state)[key]? = some entry) {entry : β}
    (hschema : state.hasSchema (kind.database entry) (kind.schema entry) = true) :
  kind.AllPlaced (kind.setEntries (entries.insert (kind.keyOf entry) entry) state)
  := by
  intro key entry' hentry
  rw [kind.entries_setEntries, KeyMap.get_insert] at hentry
  constructor
  · split at hentry
    · rename_i heq
      cases hentry
      exact heq.symm
    · exact (h key entry' (hentries key entry' hentry)).key_eq
  · rw [hasSchema_setEntries hlaws]
    split at hentry
    · cases hentry
      exact hschema
    · exact (h key entry' (hentries key entry' hentry)).schema_exists

/-- An alteration that is freely made, or fails, keeps the objects placed. -/
theorem spoils (h : kind.AllPlaced state) (hlaws : kind.Lawful) {session : SessionContext}
    {key : String} {operation : AlterObjectOperation}
    (hfree : kind.altersFreely state key operation = true)
    (hspoils : kind.Spoils state session key operation state') :
  kind.AllPlaced state'
  := by
  obtain ⟨-, entry, hentry, ⟨message, -, rfl⟩ | ⟨altered, haltered, hcollides, rfl⟩⟩ := hspoils
  · exact h.of_fewer hlaws (fun _ _ hrest => get_of_erased hrest)
  · -- the new key would have to be another object's
    obtain ⟨hkey, -⟩ := altered_placed hlaws haltered (h key entry hentry).schema_exists
    obtain ⟨hne, hcontains⟩ := hcollides
    rw [hkey] at hne hcontains
    rw [Std.ExtTreeMap.contains_erase] at hcontains
    simp only [altersFreely, hentry, hne, decide_false, Bool.false_or, Bool.not_eq_true'] at hfree
    rw [hfree, Bool.and_false] at hcontains
    cases hcontains

/-- A new object is stored under its own key, in a schema that is there. -/
theorem creates (h : kind.AllPlaced state) (hlaws : kind.Lawful) {key name : String}
    {replace : Bool} {entry : β} (hcreates : kind.Creates state key name replace entry state')
    (hkey : key = kind.keyOf entry)
    (hschema : state.hasSchema (kind.database entry) (kind.schema entry) = true) :
  kind.AllPlaced state'
  := by
  obtain ⟨-, -, rfl⟩ := hcreates
  rw [hkey]
  exact h.insert hlaws (fun _ _ hentry => hentry) hschema

theorem alters (h : kind.AllPlaced state) (hlaws : kind.Lawful) {key : String}
    {operation : AlterObjectOperation} (halters : kind.Alters state key operation state') :
  kind.AllPlaced state'
  := by
  obtain ⟨entry, altered, hentry, haltered, -, rfl⟩ := halters
  apply h.insert hlaws (fun _ _ hrest => get_of_erased hrest)
  exact (altered_placed hlaws haltered (h key entry hentry).schema_exists).2

end AllPlaced

end ObjectKind

/-! ### Schemas that are left -/

section

variable {state state' : CatalogState} {session : SessionContext} {op : ControlOp}

/-- Editing the entry of a database keeps the schemas that are still in it. -/
theorem CatalogState.hasSchema_modify {name : String} {f : CatalogDatabase → CatalogDatabase}
    (hdatabases : state'.databases = state.databases.modify name f) {database schema : String}
    (hschema : state.hasSchema database schema = true)
    (hf : database = name → ∀ entry : CatalogDatabase, entry.schemas.contains schema = true →
      (f entry).schemas.contains schema = true) :
  state'.hasSchema database schema = true
  := by
  obtain ⟨entry, hentry, hcontains⟩ := hasSchema_iff.mp hschema
  rw [hasSchema_iff, hdatabases, KeyMap.get_modify, hentry]
  split
  · rename_i hname
    exact ⟨f entry, rfl, hf hname.symm entry hcontains⟩
  · exact ⟨entry, rfl, hcontains⟩

theorem RenamesDatabase.hasSchema {name newName : String}
    (h : RenamesDatabase state name newName state') {database schema : String}
    (hschema : state.hasSchema database schema = true) (hname : database ≠ name) :
  state'.hasSchema database schema = true
  := by
  obtain ⟨old, -, -, -, hnew, rfl⟩ := h
  obtain ⟨entry, hentry, hcontains⟩ := CatalogState.hasSchema_iff.mp hschema
  have hne : newName ≠ database := by
    rintro rfl
    rw [KeyMap.get_eq_none _ hnew] at hentry
    cases hentry
  refine CatalogState.hasSchema_iff.mpr ⟨entry, ?_, hcontains⟩
  rw [renameDatabaseState, KeyMap.get_insert, if_neg hne, KeyMap.get_erase, if_neg hname.symm]
  exact hentry

/-- The schemas that an operation does not leave are still there. -/
theorem ControlOp.Effect.hasSchema (h : op.Effect session state state') {database schema : String}
    (hschema : state.hasSchema database schema = true)
    (hleaves : op.leavesSchema session database schema = false) :
  state'.hasSchema database schema = true
  := by
  have hsame : op.onDatabases = false → state'.hasSchema database schema = true := by
    intro hop
    rw [CatalogState.hasSchema, h.rest.databases_eq hop]
    exact hschema
  cases op with
  | createDatabase name =>
      obtain ⟨-, hnew, rfl⟩ := h
      obtain ⟨entry, hentry, hcontains⟩ := CatalogState.hasSchema_iff.mp hschema
      refine CatalogState.hasSchema_iff.mpr ⟨entry, ?_, hcontains⟩
      rw [KeyMap.get_insert, if_neg, hentry]
      rintro rfl
      rw [KeyMap.get_eq_none _ hnew] at hentry
      cases hentry
  | alterDatabase name operation =>
      cases operation with
      | rename newName => cases h
      | ownerTo | setParam =>
          cases h
          apply CatalogState.hasSchema_modify rfl hschema
          intro _ entry hcontains
          exact hcontains
  | dropDatabase name =>
      obtain ⟨-, -, rfl⟩ := h
      obtain ⟨entry, hentry, hcontains⟩ := CatalogState.hasSchema_iff.mp hschema
      refine CatalogState.hasSchema_iff.mpr ⟨entry, ?_, hcontains⟩
      rw [KeyMap.get_erase, if_neg, hentry]
      exact Ne.symm (of_decide_eq_false hleaves)
  | createSchema =>
      obtain ⟨-, rfl⟩ := h
      apply CatalogState.hasSchema_modify rfl hschema
      intro _ entry hcontains
      simp [hcontains]
  | renameSchema databaseName name newName =>
      obtain ⟨_, -, -, -, -, rfl⟩ := h
      apply CatalogState.hasSchema_modify rfl hschema
      intro hdatabase entry hcontains
      have hne : schema ≠ name := by simpa [leavesSchema, hdatabase] using hleaves
      simp [hcontains, hne.symm]
  | dropSchema databaseName name =>
      obtain ⟨-, -, rfl⟩ := h
      apply CatalogState.hasSchema_modify rfl hschema
      intro hdatabase entry hcontains
      have hne : schema ≠ name := by simpa [leavesSchema, hdatabase] using hleaves
      simp [hcontains, hne.symm]
  | _ => exact hsame rfl

/-- The objects stay placed when they stay the same and no schema they are in is left. -/
theorem CatalogState.ObjectsPlaced.of_same (h : state.ObjectsPlaced)
    (hsame : state.SameNamedObjects state') {gone : String → String → Bool}
    (hnone : state.anyObjectWithin gone = false)
    (hschemas : ∀ database schema, state.hasSchema database schema = true →
      gone database schema = false → state'.hasSchema database schema = true) :
  state'.ObjectsPlaced
  := by
  simp only [anyObjectWithin, Bool.or_eq_false_iff] at hnone
  obtain ⟨⟨⟨haggregates, hcollations⟩, hconversions⟩, hfunctions⟩ := hnone
  exact ⟨h.aggregates.of_databases hsame.aggregates haggregates hschemas,
    h.collations.of_databases hsame.collations hcollations hschemas,
    h.conversions.of_databases hsame.conversions hconversions hschemas,
    h.functions.of_databases hsame.functions hfunctions hschemas⟩

/-! ### Each operation -/

namespace CatalogState.ObjectsPlaced

theorem bump (h : state.ObjectsPlaced) :
  state.bump.ObjectsPlaced
  := ⟨h.aggregates.of_eq rfl rfl, h.collations.of_eq rfl rfl, h.conversions.of_eq rfl rfl,
    h.functions.of_eq rfl rfl⟩

theorem setAggregates (h : state.ObjectsPlaced) {entries : KeyMap CatalogAggregate}
    (hplaced : aggregateKind.AllPlaced (aggregateKind.setEntries entries state)) :
  (aggregateKind.setEntries entries state).ObjectsPlaced
  := ⟨hplaced, h.collations.of_eq rfl rfl, h.conversions.of_eq rfl rfl, h.functions.of_eq rfl rfl⟩

theorem setCollations (h : state.ObjectsPlaced) {entries : KeyMap CatalogCollation}
    (hplaced : collationKind.AllPlaced (collationKind.setEntries entries state)) :
  (collationKind.setEntries entries state).ObjectsPlaced
  := ⟨h.aggregates.of_eq rfl rfl, hplaced, h.conversions.of_eq rfl rfl, h.functions.of_eq rfl rfl⟩

theorem setConversions (h : state.ObjectsPlaced) {entries : KeyMap CatalogConversion}
    (hplaced : conversionKind.AllPlaced (conversionKind.setEntries entries state)) :
  (conversionKind.setEntries entries state).ObjectsPlaced
  := ⟨h.aggregates.of_eq rfl rfl, h.collations.of_eq rfl rfl, hplaced, h.functions.of_eq rfl rfl⟩

theorem setFunctions (h : state.ObjectsPlaced) {entries : KeyMap CatalogFunction}
    (hplaced : functionKind.AllPlaced (functionKind.setEntries entries state)) :
  (functionKind.setEntries entries state).ObjectsPlaced
  := ⟨h.aggregates.of_eq rfl rfl, h.collations.of_eq rfl rfl, h.conversions.of_eq rfl rfl, hplaced⟩

end CatalogState.ObjectsPlaced

/-- What the operation is allowed for: no schema with objects is left. -/
theorem ControlOp.anyObjectWithin_of_keepsPlaced (h : op.keepsPlaced session state = true) :
  state.anyObjectWithin (op.leavesSchema session) = false
  := by
  rw [keepsPlaced, Bool.and_eq_true, Bool.not_eq_true'] at h
  exact h.1

theorem ControlOp.Effect.objectsPlaced (h : op.Effect session state state')
    (hplaced : state.ObjectsPlaced) (hkeeps : op.keepsPlaced session state = true) :
  state'.ObjectsPlaced
  := by
  have hsame : op.onObjects = false → state'.ObjectsPlaced := fun hop =>
    hplaced.of_same (h.maps.objects_eq hop) (op.anyObjectWithin_of_keepsPlaced hkeeps)
      (fun _ _ => h.hasSchema)
  have hmake : op.makesPlaced session state = true := (Bool.and_eq_true_iff.mp hkeeps).2
  cases op with
  | createAggregate =>
      have hcreated := hplaced.aggregates.creates aggregateKind_lawful h rfl hmake
      obtain ⟨-, -, rfl⟩ := h
      exact hplaced.setAggregates hcreated
  | alterAggregate =>
      have haltered := hplaced.aggregates.alters aggregateKind_lawful h
      obtain ⟨_, _, -, -, -, rfl⟩ := h
      exact hplaced.setAggregates haltered
  | createCollation =>
      have hcreated := hplaced.collations.creates collationKind_lawful h rfl hmake
      obtain ⟨-, -, rfl⟩ := h
      exact hplaced.setCollations hcreated
  | alterCollation =>
      have haltered := hplaced.collations.alters collationKind_lawful h
      obtain ⟨_, _, -, -, -, rfl⟩ := h
      exact hplaced.setCollations haltered
  | createConversion =>
      obtain ⟨-, rfl⟩ := h
      apply hplaced.setConversions
      exact @ObjectKind.AllPlaced.insert _ _ _ hplaced.conversions conversionKind_lawful _
        (fun _ _ hentry => hentry) ⟨_, _, _⟩ (Bool.and_eq_true_iff.mp hmake).1
  | alterConversion database schema name operation =>
      obtain ⟨conversion, hold, rfl⟩ := h
      apply hplaced.setConversions
      apply hplaced.conversions.insert conversionKind_lawful
      · intro key entry hrest
        exact ObjectKind.get_of_erased hrest
      · have hplace := (hplaced.conversions _ conversion hold).schema_exists
        cases operation with
        | rename newName => exact hplace
        | ownerTo newOwner => exact hplace
        | setSchema newSchema =>
            exact @ObjectKind.hasSchema_of_altersWithin _ _ conversionKind _ _ conversion hold
              (Bool.and_eq_true_iff.mp hmake).2
  | createFunction =>
      have hcreated := hplaced.functions.creates functionKind_lawful h rfl hmake
      obtain ⟨-, -, rfl⟩ := h
      exact hplaced.setFunctions hcreated
  | alterFunction =>
      have haltered := hplaced.functions.alters functionKind_lawful h
      obtain ⟨_, _, -, -, -, rfl⟩ := h
      exact hplaced.setFunctions haltered
  | dropFunction =>
      obtain ⟨-, rfl⟩ := h
      apply hplaced.setFunctions
      apply hplaced.functions.of_fewer functionKind_lawful
      intro key entry hrest
      exact ObjectKind.get_of_erased hrest
  | _ => exact hsame rfl

theorem ControlOp.Quiet.objectsPlaced (h : op.Quiet state state') (hplaced : state.ObjectsPlaced)
    (hkeeps : op.keepsPlaced session state = true) :
  state'.ObjectsPlaced
  := by
  have hnone := op.anyObjectWithin_of_keepsPlaced hkeeps
  cases op with
  | alterDatabase name operation =>
      cases operation with
      | rename newName =>
          apply hplaced.of_same (h.maps.objects_eq rfl) hnone
          intro database schema hschema hleaves
          exact RenamesDatabase.hasSchema h hschema (of_decide_eq_false hleaves)
      | ownerTo | setParam => cases h
  | setTlsPaths | setJwtSecret | setStorageRoot =>
      obtain ⟨_, rfl⟩ := h
      exact hplaced.of_same ⟨rfl, rfl, rfl, rfl⟩ hnone (fun _ _ hschema _ => hschema)
  | _ => cases h

theorem ControlOp.Spoil.objectsPlaced {o : Outside} {w : World}
    (h : op.Spoil session o w state') (hplaced : w.catalog.ObjectsPlaced)
    (hkeeps : op.keepsPlaced session w.catalog = true) :
  state'.ObjectsPlaced
  := by
  have hnone := op.anyObjectWithin_of_keepsPlaced hkeeps
  have hmake : op.makesPlaced session w.catalog = true := (Bool.and_eq_true_iff.mp hkeeps).2
  cases op with
  | alterDatabase name operation =>
      cases operation with
      | rename newName =>
          apply hplaced.of_same (h.maps.objects_eq rfl) hnone
          intro database schema hschema hleaves
          exact RenamesDatabase.hasSchema h.1 hschema (of_decide_eq_false hleaves)
      | ownerTo | setParam => cases h
  | alterAggregate database schema name operation =>
      have hspoiled := hplaced.aggregates.spoils aggregateKind_lawful hmake h
      obtain ⟨-, _, -, ⟨_, -, rfl⟩ | ⟨_, -, -, rfl⟩⟩ := h
      · exact hplaced.setAggregates hspoiled
      · exact hplaced.setAggregates hspoiled
  | alterCollation database schema name operation =>
      have hspoiled := hplaced.collations.spoils collationKind_lawful hmake h
      obtain ⟨-, _, -, ⟨_, -, rfl⟩ | ⟨_, -, -, rfl⟩⟩ := h
      · exact hplaced.setCollations hspoiled
      · exact hplaced.setCollations hspoiled
  | alterFunction database schema name operation =>
      have hspoiled := hplaced.functions.spoils functionKind_lawful hmake h
      obtain ⟨-, _, -, ⟨_, -, rfl⟩ | ⟨_, -, -, rfl⟩⟩ := h
      · exact hplaced.setFunctions hspoiled
      · exact hplaced.setFunctions hspoiled
  | _ => cases h

/-- An allowed operation keeps the objects placed, whatever its outcome. -/
theorem performOp_objectsPlaced (o : Outside) {w : World} (hplaced : w.catalog.ObjectsPlaced)
    (hkeeps : op.keepsPlaced session w.catalog = true) :
  (performedOp o (session, op) w).catalog.ObjectsPlaced
  := by
  have hafter : Eff.After (performOp o session op) w (fun _ w' => w'.catalog.ObjectsPlaced) := by
    apply performOp_keeps o session op w hplaced
    · intro state hstate
      exact hstate.bump
    · intro state heffect
      exact heffect.objectsPlaced hplaced hkeeps
    · intro state hquiet
      exact hquiet.objectsPlaced hplaced hkeeps
    · intro state hspoil
      exact hspoil.objectsPlaced hplaced hkeeps
  exact hafter

end

/-! ### Operations that return an answer -/

section

open Eff

variable {α β : Type} {effect : CatalogState → Prop} {w : World}

/-- An operation that returns an answer has made its effect and bumped the version. -/
def Makes (effect : CatalogState → Prop) (m : Op α) (w : World) : Prop :=
  After m w (fun r w' => ∀ a, r = .ok a → ∃ state, effect state ∧ w'.catalog = state.bump)

theorem makes_bail (message : String) :
  Makes effect (bail message : Op α) w
  := by
  intro a h
  cases h

theorem makes_bail_bind (message : String) (f : α → Op β) :
  Makes effect (bail message >>= f) w
  := by
  intro a h
  cases h

theorem makes_orBail (x : Except String α) (f : α → Op β) :
  Makes effect (orBail x >>= f) w ↔ ∀ a, x = .ok a → Makes effect (f a) w
  := by
  cases x with
  | ok a => simp [Makes, orBail]
  | error message =>
      simp only [reduceCtorEq, false_implies, implies_true, iff_true]
      apply makes_bail_bind

theorem makes_readState (f : CatalogState → Op α) :
  Makes effect (readState >>= f) w ↔ Makes effect (f w.catalog) w
  := Iff.rfl

theorem makes_ite (c : Prop) [Decidable c] (m n : Op α) :
  Makes effect (if c then m else n) w ↔ (c → Makes effect m w) ∧ (¬ c → Makes effect n w)
  := after_ite c m n w _

theorem makes_persist (o : Outside) (f : CatalogState → CatalogState) (a : α)
    (heffect : effect (f w.catalog)) :
  Makes effect (writeState f >>= fun _ => persist o >>= fun _ => pure a) w
  := by
  apply After.mono (after_edit o f a w)
  rintro r w' ⟨-, hcatalog⟩ _ _
  exact ⟨f w.catalog, heffect, hcatalog⟩

end

section

variable (o : Outside) (session : SessionContext) (w : World) (database schema : Option String)
  (key name : String) (operation : AlterObjectOperation)

/-- An object is created under a key that is free. -/
theorem ObjectKind.create_makes {β : Type} (kind : ObjectKind β) (entry : β) :
  Makes (fun state => (kind.entries w.catalog).contains key = false
      ∧ state = kind.setEntries ((kind.entries w.catalog).insert key entry) w.catalog)
    (kind.create o session key name false entry) w
  := by
  simp only [ObjectKind.create, makes_orBail, makes_readState, makes_ite, makes_bail_bind,
    implies_true, true_and, Bool.not_false, Bool.and_true, Bool.not_eq_true]
  intro _ _ _ _ hfree
  apply makes_persist
  exact ⟨hfree, rfl⟩

/-- An object is altered to have its key or one that is free. -/
theorem ObjectKind.alter_makes {β : Type} (kind : ObjectKind β) :
  Makes (kind.Alters w.catalog key operation) (kind.alter o session key operation) w
  := by
  simp only [ObjectKind.alter, makes_readState, makes_orBail]
  intro _ _
  cases hentry : (kind.entries w.catalog)[key]? with
  | none => apply makes_bail
  | some entry =>
      rw [Makes, Eff.after_bind, after_writeState, Eff.resume_ok]
      change Makes _ _ _
      simp only [makes_orBail, makes_ite]
      intro altered haltered
      constructor
      · intro _
        rw [Makes, Eff.after_bind, after_writeState, Eff.resume_ok]
        apply makes_bail
      · intro hfree
        apply makes_persist o (fun state => kind.setEntries _ state)
        exact ⟨entry, altered, hentry, haltered, hfree, kind.setEntries_setEntries _ _ _⟩

theorem createConversion_makes :
  Makes (fun state => state = conversionKind.setEntries (w.catalog.conversions.insert
        (objectKey session database schema name)
        ⟨database.getD session.database, schema.getD session.schema, name⟩) w.catalog)
    (createConversion o session database schema name) w
  := by
  rw [createConversion, makes_orBail]
  intro _ _
  apply makes_persist
  rfl

theorem alterConversion_makes :
  Makes (fun state => ∃ conversion,
      w.catalog.conversions[objectKey session database schema name]? = some conversion
        ∧ state = conversionKind.setEntries ((w.catalog.conversions.erase
            (objectKey session database schema name)).insert
          (conversionKind.alteredKey conversion operation) (conversion.altered operation))
          w.catalog)
    (alterConversion o session database schema name operation) w
  := by
  rw [alterConversion, makes_readState]
  cases hold : w.catalog.conversions[objectKey session database schema name]? with
  | none => apply makes_bail
  | some conversion =>
      apply makes_persist
      refine ⟨conversion, rfl, ?_⟩
      cases operation with
      | rename newName => rfl
      | ownerTo newOwner => rfl
      | setSchema newSchema => rfl

end

/-! ### No other object is removed or replaced -/

namespace ObjectKind

variable {β : Type} {kind : ObjectKind β} {state state' : CatalogState}

theorem leaves_of_eq (hentries : kind.entries state' = kind.entries state) :
  kind.Leaves {} state state'
  := by
  constructor
  · intro key entry hentry _
    rw [hentries]
    exact hentry
  · rw [hentries]
    rfl

/-- An object under a free key is one more, and replaces none. -/
theorem leaves_insert {key : String} {entry : β}
    (hfree : (kind.entries state).contains key = false)
    (hentries : kind.entries state' = (kind.entries state).insert key entry) :
  kind.Leaves { created := 1 } state state'
  := by
  constructor
  · intro other entry' hentry' _
    rw [hentries, KeyMap.get_insert, if_neg, hentry']
    rintro rfl
    rw [KeyMap.get_eq_none _ hfree] at hentry'
    cases hentry'
  · rw [hentries, Std.ExtTreeMap.size_insert, hfree]
    rfl

/-- An object that is moved to its own key or a free one replaces no other. -/
theorem leaves_move {key newKey : String} {entry altered : β}
    (hold : (kind.entries state)[key]? = some entry)
    (hfree : newKey = key ∨ (kind.entries state).contains newKey = false)
    (hentries : kind.entries state' = ((kind.entries state).erase key).insert newKey altered) :
  kind.Leaves { altered := some key } state state'
  := by
  have hcontains : (kind.entries state).contains key = true := by
    rw [Std.ExtTreeMap.contains_eq_isSome_getElem?, hold]
    rfl
  have hgone : ((kind.entries state).erase key).contains newKey = false := by
    rw [Std.ExtTreeMap.contains_erase]
    rcases hfree with rfl | hfree
    · simp
    · simp [hfree]
  constructor
  · intro other entry' hentry' hne
    have hother : key ≠ other := fun h => hne (congrArg some h)
    rw [hentries, KeyMap.get_insert, if_neg, KeyMap.get_erase, if_neg hother, hentry']
    rintro rfl
    rcases hfree with rfl | hfree
    · exact hother rfl
    · rw [KeyMap.get_eq_none _ hfree] at hentry'
      cases hentry'
  · rw [hentries, Std.ExtTreeMap.size_insert, hgone, Std.ExtTreeMap.size_erase, hcontains]
    have hpos : 0 < (kind.entries state).size := by
      rw [Nat.pos_iff_ne_zero, ne_eq, ← Std.ExtTreeMap.eq_empty_iff_size_eq_zero]
      intro hempty
      rw [hempty] at hcontains
      cases hcontains
    exact Nat.sub_add_cancel hpos

/-- An alteration that is made replaces no other object. -/
theorem Alters.leaves {key : String} {operation : AlterObjectOperation}
    (h : kind.Alters state key operation state') :
  kind.Leaves { altered := some key } state state'
  := by
  obtain ⟨entry, altered, hold, -, hcollides, rfl⟩ := h
  apply leaves_move hold _ (kind.entries_setEntries _ _)
  by_cases hkey : kind.keyOf altered = key
  · exact .inl hkey
  · right
    rw [Collides, not_and] at hcollides
    have hgone := Bool.eq_false_iff.mpr (hcollides hkey)
    rw [Std.ExtTreeMap.contains_erase] at hgone
    simpa [Ne.symm hkey] using hgone

end ObjectKind

namespace CatalogState

variable {state state' : CatalogState}

theorem SameNamedObjects.leavesObjects (h : state.SameNamedObjects state') :
  state.LeavesObjects {} state'
  := ⟨ObjectKind.leaves_of_eq h.aggregates, ObjectKind.leaves_of_eq h.collations,
    ObjectKind.leaves_of_eq h.conversions, ObjectKind.leaves_of_eq h.functions⟩

theorem LeavesObjects.bump {steps : ObjectSteps} (h : state.LeavesObjects steps state') :
  state.LeavesObjects steps state'.bump
  := ⟨⟨h.aggregates.kept, h.aggregates.size_eq⟩, ⟨h.collations.kept, h.collations.size_eq⟩,
    ⟨h.conversions.kept, h.conversions.size_eq⟩, ⟨h.functions.kept, h.functions.size_eq⟩⟩

theorem leavesObjects_aggregates {step : ObjectStep} {entries : KeyMap CatalogAggregate}
    (h : aggregateKind.Leaves step state (aggregateKind.setEntries entries state)) :
  state.LeavesObjects { aggregates := step } (aggregateKind.setEntries entries state)
  := ⟨h, ObjectKind.leaves_of_eq rfl, ObjectKind.leaves_of_eq rfl, ObjectKind.leaves_of_eq rfl⟩

theorem leavesObjects_collations {step : ObjectStep} {entries : KeyMap CatalogCollation}
    (h : collationKind.Leaves step state (collationKind.setEntries entries state)) :
  state.LeavesObjects { collations := step } (collationKind.setEntries entries state)
  := ⟨ObjectKind.leaves_of_eq rfl, h, ObjectKind.leaves_of_eq rfl, ObjectKind.leaves_of_eq rfl⟩

theorem leavesObjects_conversions {step : ObjectStep} {entries : KeyMap CatalogConversion}
    (h : conversionKind.Leaves step state (conversionKind.setEntries entries state)) :
  state.LeavesObjects { conversions := step } (conversionKind.setEntries entries state)
  := ⟨ObjectKind.leaves_of_eq rfl, ObjectKind.leaves_of_eq rfl, h, ObjectKind.leaves_of_eq rfl⟩

theorem leavesObjects_functions {step : ObjectStep} {entries : KeyMap CatalogFunction}
    (h : functionKind.Leaves step state (functionKind.setEntries entries state)) :
  state.LeavesObjects { functions := step } (functionKind.setEntries entries state)
  := ⟨ObjectKind.leaves_of_eq rfl, ObjectKind.leaves_of_eq rfl, ObjectKind.leaves_of_eq rfl, h⟩

end CatalogState

section

variable (o : Outside) {session : SessionContext} {op : ControlOp} {w : World}

/-- What an operation makes that returns an answer leaves the other objects alone. -/
theorem Makes.leavesObjects {effect : CatalogState → Prop} {steps : ObjectSteps} {m : Op String}
    (h : Makes effect m w) (heffect : ∀ state, effect state → w.catalog.LeavesObjects steps state) :
  Eff.After m w (fun r w' => ∀ message, r = .ok message →
    w.catalog.LeavesObjects steps w'.catalog)
  := by
  apply Eff.After.mono h
  intro r w' hr message hmessage
  obtain ⟨state, hstate, hcatalog⟩ := hr message hmessage
  rw [hcatalog]
  exact (heffect state hstate).bump

/-- A conversion keeps its key, or gets one that no other has. -/
theorem conversionKind_freely {key : String} {operation : AlterObjectOperation}
    {conversion : CatalogConversion} (hold : w.catalog.conversions[key]? = some conversion)
    (hfree : conversionKind.altersFreely w.catalog key operation = true) :
  conversionKind.alteredKey conversion operation = key
    ∨ (conversionKind.entries w.catalog).contains
        (conversionKind.alteredKey conversion operation) = false
  := by
  have hfound : (conversionKind.entries w.catalog)[key]? = some conversion := hold
  rw [ObjectKind.altersFreely] at hfree
  simpa only [hfound, Bool.or_eq_true, decide_eq_true_iff, Bool.not_eq_true'] using hfree

/-- An allowed operation that returns an answer does to the objects what it is to do, and neither
removes nor replaces another. -/
theorem performOp_leavesObjects (hkeeps : op.keepsPlaced session w.catalog = true)
    (hremoves : op.removesFunction = false) :
  Eff.After (performOp o session op) w (fun r w' => ∀ message, r = .ok message →
    w.catalog.LeavesObjects (op.objectSteps session) w'.catalog)
  := by
  have hmake : op.makesPlaced session w.catalog = true := (Bool.and_eq_true_iff.mp hkeeps).2
  have hsame : op.onObjects = false → Eff.After (performOp o session op) w (fun r w' =>
      ∀ message, r = .ok message → w.catalog.LeavesObjects {} w'.catalog) := by
    intro hop
    have hafter : Eff.After (performOp o session op) w (fun _ w' =>
        w.catalog.LeavesObjects {} w'.catalog) := by
      apply performOp_keeps o session op w (P := fun state => w.catalog.LeavesObjects {} state)
      · exact CatalogState.SameNamedObjects.leavesObjects ⟨rfl, rfl, rfl, rfl⟩
      · intro state hstate
        exact hstate.bump
      · intro state heffect
        exact (heffect.maps.objects_eq hop).leavesObjects
      · intro state hquiet
        exact (hquiet.maps.objects_eq hop).leavesObjects
      · intro state hspoil
        exact (hspoil.maps.objects_eq hop).leavesObjects
    exact Eff.After.mono hafter (fun _ _ hleaves _ _ => hleaves)
  cases op with
  | createAggregate =>
      apply (aggregateKind.create_makes o session w _ _ _).leavesObjects
      rintro state ⟨hfree, rfl⟩
      exact CatalogState.leavesObjects_aggregates (ObjectKind.leaves_insert hfree rfl)
  | createCollation =>
      apply (collationKind.create_makes o session w _ _ _).leavesObjects
      rintro state ⟨hfree, rfl⟩
      exact CatalogState.leavesObjects_collations (ObjectKind.leaves_insert hfree rfl)
  | createConversion database schema name =>
      apply (createConversion_makes o session w database schema name).leavesObjects
      rintro state rfl
      have hfree := (Bool.and_eq_true_iff.mp hmake).2
      rw [Bool.not_eq_true'] at hfree
      exact CatalogState.leavesObjects_conversions (ObjectKind.leaves_insert hfree rfl)
  | createFunction database schema name orReplace definitionSql =>
      cases hremoves
      apply (functionKind.create_makes o session w _ _ _).leavesObjects
      rintro state ⟨hfree, rfl⟩
      exact CatalogState.leavesObjects_functions (ObjectKind.leaves_insert hfree rfl)
  | alterAggregate database schema name operation =>
      apply (aggregateKind.alter_makes o session w _ operation).leavesObjects
      intro state halters
      have hleaves := halters.leaves
      obtain ⟨_, _, -, -, -, rfl⟩ := halters
      exact CatalogState.leavesObjects_aggregates hleaves
  | alterCollation database schema name operation =>
      apply (collationKind.alter_makes o session w _ operation).leavesObjects
      intro state halters
      have hleaves := halters.leaves
      obtain ⟨_, _, -, -, -, rfl⟩ := halters
      exact CatalogState.leavesObjects_collations hleaves
  | alterConversion database schema name operation =>
      apply (alterConversion_makes o session w database schema name operation).leavesObjects
      rintro state ⟨conversion, hold, rfl⟩
      apply CatalogState.leavesObjects_conversions
      exact ObjectKind.leaves_move hold
        (conversionKind_freely hold (Bool.and_eq_true_iff.mp hmake).1) rfl
  | alterFunction database schema name operation =>
      apply (functionKind.alter_makes o session w _ operation).leavesObjects
      intro state halters
      have hleaves := halters.leaves
      obtain ⟨_, _, -, -, -, rfl⟩ := halters
      exact CatalogState.leavesObjects_functions hleaves
  | dropFunction => cases hremoves
  | _ => exact hsame rfl

end

/-! ### Every run -/

theorem initialState_objectsPlaced (users : KeyMap CatalogUser) :
  (initialState users).ObjectsPlaced
  := by
  constructor
  · intro key entry hentry
    simp [aggregateKind, initialState] at hentry
  · intro key entry hentry
    simp [collationKind, initialState] at hentry
  · intro key entry hentry
    simp [conversionKind, initialState] at hentry
  · intro key entry hentry
    simp [functionKind, initialState] at hentry

/-- In every system reached from a new cluster by operations that store objects in schemas that are
there, under keys that are free, and leave no schema that has objects, all objects are stored under
their own names in schemas that are there; and no such operation that is not to remove or replace
a function does so with another object when it returns an answer. -/
theorem reachable_objectsPlaced (o : Outside) {w : World}
    (h : Run.Reachable Initial (Run.byOps (performedOp o)
      (fun call w => call.2.keepsPlaced call.1 w.catalog = true)) w) :
  w.catalog.ObjectsPlaced
    ∧ ∀ (session : SessionContext) (op : ControlOp) (message : String),
      op.keepsPlaced session w.catalog = true → op.removesFunction = false →
      (Eff.exec (performOp o session op) w).1 = .ok message →
      w.catalog.LeavesObjects (op.objectSteps session) (performedOp o (session, op) w).catalog
  := by
  constructor
  · refine Run.Reachable.invariant (P := fun w : World => w.catalog.ObjectsPlaced) ?_ ?_ h
    · rintro w ⟨credentials, now, hw | hw⟩
      · rw [hw]
        exact initialState_objectsPlaced _
      · rw [hw]
        exact initialState_objectsPlaced _
    · rintro w w' hplaced ⟨call, hkeeps, rfl⟩
      exact performOp_objectsPlaced o hplaced hkeeps
  · intro session op message hkeeps hremoves hanswer
    exact performOp_leavesObjects o hkeeps hremoves message hanswer

/-! ### A schema dropped, and a conversion replaced -/

namespace Installed

/-- Objects of all kinds in a schema of their own, some of them renamed. -/
def withObjects : List (SessionContext × ControlOp) :=
  [(session, .createSchema none "s"),
    (session, .createAggregate none (some "s") "total"),
    (session, .createCollation none (some "s") "german"),
    (session, .createConversion none (some "s") "latin"),
    (session, .createFunction none (some "s") "twice" true "SELECT 2"),
    (session, .alterAggregate none (some "s") "total" (.setSchema "public")),
    (session, .alterConversion none (some "s") "latin" (.rename "greek"))]

/-- An aggregate in a schema that is dropped. -/
def schemaDropped : List (SessionContext × ControlOp) :=
  [(session, .createSchema none "s"),
    (session, .createAggregate none (some "s") "total"),
    (session, .dropSchema none "s" false true)]

/-- Two conversions. -/
def conversions : List (SessionContext × ControlOp) :=
  [(session, .createConversion none none "latin"),
    (session, .createConversion none none "greek")]

end Installed

open Installed in
theorem reachable_objectsPlaced_renamed :
  (after withObjects).catalog.ObjectsPlaced
    ∧ ∀ (session : SessionContext) (op : ControlOp) (message : String),
      op.keepsPlaced session (after withObjects).catalog = true → op.removesFunction = false →
      (Eff.exec (performOp Outside.faultless session op) (after withObjects)).1 = .ok message →
      (after withObjects).catalog.LeavesObjects (op.objectSteps session)
        (performedOp Outside.faultless (session, op) (after withObjects)).catalog
  := by
  refine reachable_objectsPlaced Outside.faultless (Run.Reachable.performAll
    (.start ⟨fun _ => ⟨"", "", ""⟩, fun _ => 0, .inl rfl⟩) ?_)
  decide

open Installed in
/-- An aggregate stays in a schema that is dropped, and a conversion that gets the name of another
replaces it. -/
theorem schemaDropped_not_objectsPlaced :
  (Run.Reachable Initial (Run.byOps (performedOp Outside.faultless) (fun _ _ => True))
        (after schemaDropped)
      ∧ ¬ (after schemaDropped).catalog.ObjectsPlaced)
    ∧ Run.Reachable Initial (Run.byOps (performedOp Outside.faultless) (fun _ _ => True))
        (after conversions)
      ∧ (Eff.exec (performOp Outside.faultless session
          (.alterConversion none none "latin" (.rename "greek"))) (after conversions)).1
        = .ok "ALTER CONVERSION completed for 'postgres.public.latin'."
      ∧ (after conversions).catalog.conversions.size = 2
      ∧ (performedOp Outside.faultless
          (session, .alterConversion none none "latin" (.rename "greek"))
          (after conversions)).catalog.conversions.size = 1
  := by
  refine ⟨⟨?_, ?_⟩, ?_, by decide, by decide, by decide⟩
  · exact Run.Reachable.performAll (.start ⟨fun _ => ⟨"", "", ""⟩, fun _ => 0, .inl rfl⟩)
      (Run.allAllowed_true _ _)
  · intro h
    have hfound : (after schemaDropped).catalog.aggregates["postgres.s.total"]?
        = some ⟨"postgres", "s", "total", "postgres"⟩ := by
      decide
    have hgone : (after schemaDropped).catalog.hasSchema "postgres" "s" = false := by
      decide
    have hplaced := (h.aggregates _ _ hfound).schema_exists
    rw [show aggregateKind.database ⟨"postgres", "s", "total", "postgres"⟩ = "postgres" from rfl,
      show aggregateKind.schema ⟨"postgres", "s", "total", "postgres"⟩ = "s" from rfl, hgone]
      at hplaced
    cases hplaced
  · exact Run.Reachable.performAll (.start ⟨fun _ => ⟨"", "", ""⟩, fun _ => 0, .inl rfl⟩)
      (Run.allAllowed_true _ _)
