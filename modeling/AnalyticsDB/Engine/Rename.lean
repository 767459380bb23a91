import AnalyticsDB.Control.Namespace
import AnalyticsDB.Engine.Create
import AnalyticsDB.Storage.Placement

/-!
# Renaming tables, schemas and databases

A rename changes the catalogue first.  It then moves the objects of each table whose location
contains the old name to the location with the new name, and records that location.  The
statement is not undone when it fails between two of these steps.  What is proved is which
renames leave every relation with its objects below its recorded path, at every exit and over
whole runs.
-/

/-! ### The statements -/

/-- Replace the occurrences of a pattern in a text, from left to right; the first `skip`
characters belong to an occurrence already replaced. -/
def replaceFrom (pattern replacement : List Char) : Nat → List Char → List Char
  | _, [] => []
  | skip + 1, _ :: text => replaceFrom pattern replacement skip text
  | 0, c :: text =>
    if pattern.isPrefixOf (c :: text) then
      replacement ++ replaceFrom pattern replacement (pattern.length - 1) text
    else
      c :: replaceFrom pattern replacement 0 text

/-- `str::replace`, for a pattern that is not empty. -/
def replaceAll (text pattern replacement : String) : String :=
  String.ofList (replaceFrom pattern.toList replacement.toList 0 text.toList)

example : replaceAll "file:///m/db=a/table=aa" "table=a" "table=b" = "file:///m/db=a/table=ba"
  := by decide

/-- The move of one table: where its entry is found after the catalogue has changed, the
location it had, and the location it gets. -/
structure TableMove where
  database : Option String
  schema : Option String
  name : String
  storagePath : Option String
  newLocation : String → String

inductive RenameStatement where
  | ofTable (database schema : Option String) (name newName : String)
  | ofSchema (database : Option String) (name newName : String)
  | ofDatabase (name newName : String)

/-- The location of a table of that name after `ALTER TABLE … RENAME`. -/
def renamedTableLocation (name newName location : String) : String :=
  replaceAll
    (replaceAll location (name ++ ".table.parquet") (newName ++ ".table.parquet"))
    ("table=" ++ name) ("table=" ++ newName)

/-- The location of a table of that schema after `ALTER SCHEMA … RENAME`. -/
def renamedSchemaLocation (database name newName location : String) : String :=
  replaceAll
    (replaceAll location (database ++ "__" ++ name ++ "__") (database ++ "__" ++ newName ++ "__"))
    ("schema=" ++ name) ("schema=" ++ newName)

/-- The location of a table of that database and schema after `ALTER DATABASE … RENAME`. -/
def renamedDatabaseLocation (name newName schema location : String) : String :=
  replaceAll
    (replaceAll location (name ++ "__" ++ schema ++ "__") (newName ++ "__" ++ schema ++ "__"))
    ("db=" ++ name) ("db=" ++ newName)

section

variable (o : Outside) (session : SessionContext)

/-- Move the objects of a table and record its new location. -/
def moveTable (move : TableMove) : Op Unit :=
  match move.storagePath with
  | none => pure ()
  | some location => do
    let oldPrefix ← orBail (storeForLocation o location)
    let newPrefix ← orBail (storeForLocation o (move.newLocation location))
    renamePrefix o oldPrefix newPrefix
    let _ ← updateRelationStoragePath o session move.database move.schema move.name
      (move.newLocation location)

/-- Move tables one after the other. -/
def moveTables : List TableMove → Op Unit
  | [] => pure ()
  | move :: moves => do
    moveTable o session move
    moveTables moves

def executeRenameTable (database schema : Option String) (name newName : String) :
    Op String := do
  let relation ← tableRelation session database schema name
  let _ ← renameRelation o session database schema name newName
  moveTable o session
    { database := database, schema := schema, name := newName
      storagePath := relation.storagePath, newLocation := renamedTableLocation name newName }
  return s!"ALTER TABLE completed. Relation '{relation.database}.{relation.schema}.{relation.name}' renamed to '{newName}'."

def executeAlterSchema (database : Option String) (name newName : String) : Op String := do
  let relations ← listRelations session database (some name) .table
  let _ ← renameSchema o session database name newName
  let databaseName := database.getD session.database
  moveTables o session (relations.map (fun relation =>
    { database := some databaseName, schema := some newName, name := relation.name
      storagePath := relation.storagePath
      newLocation := renamedSchemaLocation databaseName name newName }))
  return s!"ALTER SCHEMA completed. Schema '{databaseName}.{name}' renamed to '{newName}'."

def executeRenameDatabase (name newName : String) : Op String := do
  let relations ← listRelationsForDatabase session name .table
  let message ← alterDatabase o session name (.rename newName)
  moveTables o session (relations.map (fun relation =>
    { database := some newName, schema := some relation.schema, name := relation.name
      storagePath := relation.storagePath
      newLocation := renamedDatabaseLocation name newName relation.schema }))
  return message

/-- Execute a statement that renames a table, a schema or a database. -/
def executeRename : RenameStatement → Op String
  | .ofTable database schema name newName =>
    executeRenameTable o session database schema name newName
  | .ofSchema database name newName => executeAlterSchema o session database name newName
  | .ofDatabase name newName => executeRenameDatabase o session name newName

end

/-! ### One table moves -/

section

variable (o : Outside) (session : SessionContext)

/-- Where the relations of a catalogue are, by key, according to their recorded locations. -/
def recorded (relations : KeyMap CatalogRelation) : Placement String :=
  fun key => relations[key]?.bind (·.base? o)

/-- The key of the entry of a table that moves. -/
def TableMove.key (move : TableMove) : String :=
  relationKey (move.database.getD session.database) (move.schema.getD session.schema) move.name

/-- The paths between which a table moves, when both its locations can be read. -/
def TableMove.paths (move : TableMove) : Option (OPath × OPath) :=
  move.storagePath.bind (fun location =>
    match storeForLocation o location, storeForLocation o (move.newLocation location) with
    | .ok old, .ok new => some (old, new)
    | _, _ => none)

/-- The relations with another location recorded for one of them. -/
def withLocation (relations : KeyMap CatalogRelation) (key location : String) :
    KeyMap CatalogRelation :=
  match relations[key]? with
  | none => relations
  | some relation => relations.insert key { relation with storagePath := some location }

end

section

open Eff

variable {o : Outside} {session : SessionContext}

theorem recorded_withLocation {relations : KeyMap CatalogRelation} {key location : String}
    {path : OPath} {relation : CatalogRelation} (hfound : relations[key]? = some relation)
    (hpath : storeForLocation o location = .ok path) :
  recorded o (withLocation relations key location)
    = Function.update (recorded o relations) key (some path)
  := by
  funext other
  rw [withLocation, hfound, Function.update_apply, recorded, KeyMap.get_insert]
  by_cases h : other = key
  · rw [if_pos h, if_pos h.symm]
    simp only [Option.bind_some, CatalogRelation.base?, hpath]
    rfl
  · rw [if_neg h, if_neg (Ne.symm h)]
    rfl

theorem isSome_withLocation (relations : KeyMap CatalogRelation) (key location other : String) :
  ((withLocation relations key location)[other]?).isSome = (relations[other]?).isSome
  := by
  unfold withLocation
  split
  · rfl
  · rename_i relation hfound
    rw [KeyMap.get_insert]
    split
    · rename_i h
      rw [← h, hfound]
      rfl
    · rfl

/-- Recording a location changes the catalogue whether the write to its file succeeds or
not. -/
theorem after_updateRelationStoragePath {move : TableMove} {relation : CatalogRelation} {w : World}
    (hsession : validateSession w.catalog session = .ok ())
    (hfound : w.catalog.relations[move.key session]? = some relation) (location : String) :
  After (updateRelationStoragePath o session move.database move.schema move.name location) w
    (fun r w' => w'.store = w.store
      ∧ w'.catalog = CatalogState.bump { w.catalog with
          relations := withLocation w.catalog.relations (move.key session) location }
      ∧ ((∀ n, o.saveError n = none) → ∃ message, r = .ok message))
  := by
  have hkey : relationKey (move.database.getD session.database) (move.schema.getD session.schema)
      move.name = move.key session := rfl
  simp only [updateRelationStoragePath, editRelation, after_bind, after_readState, resume_ok,
    hsession, hkey, hfound, orBail, after_pure, after_writeState, withLocation]
  rw [after_persist]
  unfold Outside.saved Outside.afterSave
  cases hpath : o.catalogPath with
  | none => exact ⟨rfl, rfl, fun _ => ⟨_, rfl⟩⟩
  | some path =>
      cases hsave : o.saveError w.calls with
      | none => exact ⟨rfl, rfl, fun _ => ⟨_, rfl⟩⟩
      | some message =>
          refine ⟨rfl, rfl, fun h => ?_⟩
          rw [h] at hsave
          cases hsave

/-- What is known of a table about to move, when its objects are where `p` says and both its
locations can be read: the session is valid, no store call fails, and either its objects are
to be moved to a path apart from every table, or they are there already. -/
structure TableMove.Ready (o : Outside) (session : SessionContext) (p : Placement String)
    (w : World)
    (move : TableMove) : Prop where
  found : ∃ relation, w.catalog.relations[move.key session]? = some relation
  placed : ∀ old new, move.paths o = some (old, new) →
    (p (move.key session) = some old ∧ old.take 1 = new.take 1
        ∧ ∀ key base, p key = some base → Apart new base)
      ∨ (p (move.key session) = some new ∧ w.store.below old = [])
  valid : (∃ paths, move.paths o = some paths) → validateSession w.catalog session = .ok ()
  faultless : (∃ paths, move.paths o = some paths) → ∀ n, o.storeError n = none

/-- Two moves that do not disturb each other. -/
structure TableMove.Clear (o : Outside) (session : SessionContext) (move later : TableMove) :
    Prop where
  keys : move.key session ≠ later.key session
  paths : ∀ old new old' new', move.paths o = some (old, new) →
    later.paths o = some (old', new') → Apart new new' ∧ Apart old' old ∧ Apart old' new

/-- How the objects of a table are moved: from where they were, or they had arrived. -/
inductive ObjectsMoved (p : Placement String) (key : String) (old new : OPath)
    (store store' : ObjectStore) : Prop
  | relocated : p key = some old → Relocated old new store store' →
      (∀ other base, p other = some base → Apart new base) →
      ObjectsMoved p key old new store store'
  | arrived : p key = some new → store' = store → ObjectsMoved p key old new store store'

/-- How a move ends: nothing is done, as the table has no location or one that cannot be
read, or its objects are where its new location says. -/
inductive TableMove.Ended (o : Outside) (session : SessionContext) (p : Placement String)
    (move : TableMove) (w : World) : Except Failure Unit → World → Prop
  | unplaced : move.storagePath = none → move.Ended o session p w (.ok ()) w
  | unread (e : Failure) : move.storagePath.isSome = true → move.paths o = none →
      move.Ended o session p w (.error e) w
  | moved {r : Except Failure Unit} {w' : World} {location : String} {old new : OPath} :
      move.storagePath = some location → move.paths o = some (old, new) →
      storeForLocation o (move.newLocation location) = .ok new →
      w'.catalog = CatalogState.bump { w.catalog with
        relations := withLocation w.catalog.relations (move.key session)
          (move.newLocation location) } →
      ObjectsMoved p (move.key session) old new w.store w'.store →
      ((∀ n, o.saveError n = none) → r = .ok ()) →
      move.Ended o session p w r w'

theorem TableMove.paths_some {move : TableMove} {location : String}
    (h : move.storagePath = some location) :
  move.paths o = match storeForLocation o location,
      storeForLocation o (move.newLocation location) with
    | .ok old, .ok new => some (old, new)
    | _, _ => none
  := by
  rw [TableMove.paths, h, Option.bind_some]

theorem renamePrefix_moved {move : TableMove} {p : Placement String} {old new : OPath} {w : World}
    (hready : move.Ready o session p w) (hpaths : move.paths o = some (old, new)) :
  Succeeds (renamePrefix o old new) w (fun _ w' =>
    w'.catalog = w.catalog ∧ ObjectsMoved p (move.key session) old new w.store w'.store)
  := by
  have hstore := hready.faultless ⟨_, hpaths⟩
  rcases hready.placed old new hpaths with ⟨hplaced, hsame, hapart⟩ | ⟨hplaced, hempty⟩
  · refine Succeeds.mono (renamePrefix_succeeds hstore (hapart _ _ hplaced).symm hsame w) ?_
    rintro _ w' ⟨hcatalog, hmove⟩
    exact ⟨hcatalog, .relocated hplaced hmove hapart⟩
  · refine Succeeds.mono (renamePrefix_empty hstore hempty) ?_
    rintro _ w' ⟨hcatalog, hsame⟩
    exact ⟨hcatalog, .arrived hplaced hsame⟩

theorem after_moveTable {move : TableMove} {p : Placement String} {w : World}
    (hready : move.Ready o session p w) :
  After (moveTable o session move) w (move.Ended o session p w)
  := by
  unfold moveTable
  cases hlocation : move.storagePath with
  | none => exact .unplaced hlocation
  | some location =>
      have hpaths := TableMove.paths_some (o := o) hlocation
      have hplaced : move.storagePath.isSome = true := by rw [hlocation]; rfl
      cases hold : storeForLocation o location with
      | error message =>
          simp only [hold] at hpaths
          simp only [orBail, hold, after_bind, after_bail, resume_error]
          apply TableMove.Ended.unread _ hplaced hpaths
      | ok old =>
          cases hnew : storeForLocation o (move.newLocation location) with
          | error message =>
              simp only [hold, hnew] at hpaths
              simp only [orBail, hold, hnew, pure_bind, after_bind, after_bail, resume_error]
              apply TableMove.Ended.unread _ hplaced hpaths
          | ok new =>
              simp only [hold, hnew] at hpaths
              simp only [orBail, hold, hnew, pure_bind, after_bind]
              apply After.mono (renamePrefix_moved hready hpaths)
              rintro _ w₁ ⟨_, rfl, hcatalog, hmoved⟩
              have hsession := hready.valid ⟨_, hpaths⟩
              obtain ⟨relation, hfound⟩ := hready.found
              rw [← hcatalog] at hsession hfound
              rw [resume_ok, after_bind]
              apply After.mono (after_updateRelationStoragePath hsession hfound
                (move.newLocation location))
              rintro r w₂ ⟨hstore, hupdated, hsaved⟩
              rw [hcatalog] at hupdated
              rw [← hstore] at hmoved
              rcases r with e | message
              · rw [resume_error]
                refine TableMove.Ended.moved hlocation hpaths hnew hupdated hmoved ?_
                intro h
                obtain ⟨message, hmessage⟩ := hsaved h
                cases hmessage
              · rw [resume_ok, after_pure]
                apply TableMove.Ended.moved hlocation hpaths hnew hupdated hmoved
                intro _
                rfl

/-! ### Tables move one after the other -/

theorem ObjectsMoved.spread {p : Placement String} {key : String} {old new : OPath}
    {store store' : ObjectStore} (hmoved : ObjectsMoved p key old new store store')
    (hspread : p.Spread) :
  Placement.Spread (Function.update p key (some new))
  := by
  cases hmoved with
  | relocated _ _ hapart => apply spread_update hapart hspread
  | arrived hplaced _ =>
      rw [← hplaced, Function.update_eq_self]
      apply hspread

theorem ObjectsMoved.carried {p : Placement String} {key : String} {old new : OPath}
    {store store' : ObjectStore} (hmoved : ObjectsMoved p key old new store store')
    (hspread : p.Spread) :
  Carried p (Function.update p key (some new)) store store'
  := by
  cases hmoved with
  | relocated hplaced hmove hapart => apply carried_update hapart hspread hplaced hmove
  | arrived hplaced hsame =>
      rw [← hplaced, Function.update_eq_self, hsame]
      apply Carried.refl

theorem ObjectsMoved.below_eq_nil {p : Placement String} {key : String} {old new path : OPath}
    {store store' : ObjectStore} (hmoved : ObjectsMoved p key old new store store')
    (hold : Apart path old) (hnew : Apart path new) (hempty : store.below path = []) :
  store'.below path = []
  := by
  cases hmoved with
  | arrived _ hsame =>
      rw [hsame]
      apply hempty
  | relocated _ hmove _ =>
      rw [ObjectStore.below_eq_nil_iff] at hempty ⊢
      intro rest hrest
      rw [hmove.kept, hempty rest hrest]
      · intro h
        exact absurd h (hold.not_below (List.prefix_append _ _))
      · intro h
        exact absurd h (hnew.not_below (List.prefix_append _ _))

/-- A move leaves the later ones ready. -/
theorem TableMove.Ready.after {move later : TableMove} {p : Placement String} {old new : OPath}
    {location : String} {w w' : World} (hlater : later.Ready o session p w)
    (hclear : move.Clear o session later) (hpaths : move.paths o = some (old, new))
    (hcatalog : w'.catalog = CatalogState.bump { w.catalog with
      relations := withLocation w.catalog.relations (move.key session) location })
    (hmoved : ObjectsMoved p (move.key session) old new w.store w'.store) :
  later.Ready o session (Function.update p (move.key session) (some new)) w'
  := by
  constructor
  · obtain ⟨relation, hfound⟩ := hlater.found
    apply Option.isSome_iff_exists.mp
    rw [hcatalog, CatalogState.bump, isSome_withLocation, hfound]
    rfl
  · intro old' new' hpaths'
    obtain ⟨hnew, hold, hold'⟩ := hclear.paths old new old' new' hpaths hpaths'
    rw [Function.update_of_ne hclear.keys.symm]
    rcases hlater.placed old' new' hpaths' with ⟨hplaced, hsame, hapart⟩ | ⟨hplaced, hempty⟩
    · left
      refine ⟨hplaced, hsame, ?_⟩
      intro key base hbase
      rw [Function.update_apply] at hbase
      split at hbase
      · cases hbase
        apply hnew.symm
      · apply hapart key base hbase
    · right
      exact ⟨hplaced, hmoved.below_eq_nil hold hold' hempty⟩
  · intro hread
    rw [hcatalog]
    apply hlater.valid hread
  · apply hlater.faultless

theorem withLocation_edits (state : CatalogState) (key location : String) :
  Edits state (CatalogState.bump { state with
    relations := withLocation state.relations key location })
  := by
  unfold withLocation
  split
  · apply Relation.ReflTransGen.single
    apply CatalogEdit.bump
  · rename_i relation hfound
    apply CatalogEdit.persisted
    apply CatalogEdit.editRelation _ key relation _ hfound
    exact ⟨rfl, rfl, rfl⟩

/-- How a list of moves ends, when the objects of the tables were where `p` says: every table
has its objects, at paths apart; they are recorded where they are if they were so at the
beginning or all moves were made; and all are made when every location can be read and no
write of the catalogue fails. -/
structure MovesEnded (o : Outside) (p : Placement String) (moves : List TableMove) (w : World)
    (r : Except Failure Unit) (w' : World) : Prop where
  keys : ∀ key : String, (w'.catalog.relations[key]?).isSome = (w.catalog.relations[key]?).isSome
  edits : Edits w.catalog w'.catalog
  placed : ∃ p' : Placement String, Carried p p' w.store w'.store ∧ p'.Spread
    ∧ (p = recorded o w.catalog.relations ∨ r = .ok () → p' = recorded o w'.catalog.relations)
  completed : (∀ n, o.saveError n = none) →
    (∀ move ∈ moves, move.storagePath.isSome = true → (move.paths o).isSome = true) → r = .ok ()

theorem after_moveTables {moves : List TableMove} {p : Placement String} {w : World}
    (hclear : moves.Pairwise (TableMove.Clear o session))
    (hready : ∀ move ∈ moves, move.Ready o session p w) (hspread : p.Spread)
    (hagree : ∀ key, p key = recorded o w.catalog.relations key
      ∨ ∃ move ∈ moves, move.key session = key ∧ move.storagePath.isSome = true) :
  After (moveTables o session moves) w (MovesEnded o p moves w)
  := by
  induction moves generalizing p w with
  | nil =>
      rw [moveTables, after_pure]
      refine ⟨fun _ => rfl, edits_refl _, ⟨p, Carried.refl _ _, hspread, ?_⟩, fun _ _ => rfl⟩
      intro _
      funext key
      rcases hagree key with h | ⟨_, h, _⟩
      · apply h
      · cases h
  | cons move moves ih =>
      rw [List.pairwise_cons] at hclear
      rw [List.forall_mem_cons] at hready
      rw [moveTables, after_bind]
      apply After.mono (after_moveTable hready.1)
      intro r w₁ hended
      cases hended with
      | unplaced hnone =>
          rw [resume_ok]
          refine After.mono (ih hclear.2 hready.2 hspread ?_) ?_
          · intro key
            rcases hagree key with h | ⟨other, hother, hkey, hplaced⟩
            · exact .inl h
            · rcases List.mem_cons.mp hother with rfl | hother
              · rw [hnone] at hplaced
                cases hplaced
              · exact .inr ⟨other, hother, hkey, hplaced⟩
          · rintro r w₂ ⟨hkeys, hedits, hplaced, hcompleted⟩
            refine ⟨hkeys, hedits, hplaced, ?_⟩
            intro hsave hread
            apply hcompleted hsave
            intro other hother
            apply hread other (List.mem_cons_of_mem _ hother)
      | unread e hplaced hpaths =>
          rw [resume_error]
          refine ⟨fun _ => rfl, edits_refl _, ⟨p, Carried.refl _ _, hspread, ?_⟩, ?_⟩
          · rintro (h | h)
            · apply h
            · cases h
          · intro _ hread
            have h := hread move List.mem_cons_self hplaced
            rw [hpaths] at h
            cases h
      | @moved r w₁ location old new hlocation hpaths hnew hcatalog hmoved hsaved =>
          obtain ⟨relation, hfound⟩ := hready.1.found
          have hrecorded : recorded o w₁.catalog.relations
              = Function.update (recorded o w.catalog.relations) (move.key session) (some new) := by
            rw [hcatalog]
            apply recorded_withLocation hfound hnew
          have hkeys : ∀ key : String, (w₁.catalog.relations[key]?).isSome
              = (w.catalog.relations[key]?).isSome := by
            intro key
            rw [hcatalog]
            apply isSome_withLocation
          have hedits : Edits w.catalog w₁.catalog := by
            rw [hcatalog]
            apply withLocation_edits
          have hspread₁ := hmoved.spread hspread
          have hcarried := hmoved.carried hspread
          rcases r with e | _
          · rw [resume_error]
            refine ⟨hkeys, hedits, ⟨_, hcarried, hspread₁, ?_⟩, ?_⟩
            · rintro (h | h)
              · rw [hrecorded, h]
              · cases h
            · intro hsave _
              cases hsaved hsave
          · rw [resume_ok]
            refine After.mono (ih hclear.2 ?_ hspread₁ ?_) ?_
            · intro later hlater
              apply (hready.2 later hlater).after (hclear.1 later hlater) hpaths hcatalog hmoved
            · intro key
              rw [hrecorded]
              by_cases hkey : key = move.key session
              · left
                rw [hkey, Function.update_self, Function.update_self]
              · rw [Function.update_of_ne hkey, Function.update_of_ne hkey]
                rcases hagree key with h | ⟨other, hother, rfl, hplaced⟩
                · exact .inl h
                · rcases List.mem_cons.mp hother with rfl | hother
                  · exact absurd rfl hkey
                  · exact .inr ⟨other, hother, rfl, hplaced⟩
            · rintro r w₂ ⟨hkeys₂, hedits₂, ⟨p₂, hcarried₂, hspread₂, hrecorded₂⟩, hcompleted⟩
              refine ⟨?_, hedits.trans hedits₂, ⟨p₂, hcarried.trans hcarried₂, hspread₂, ?_⟩, ?_⟩
              · intro key
                rw [hkeys₂, hkeys]
              · rintro (h | h)
                · apply hrecorded₂
                  rw [hrecorded, h]
                  exact .inl rfl
                · exact hrecorded₂ (.inr h)
              · intro hsave hread
                apply hcompleted hsave
                intro other hother
                apply hread other (List.mem_cons_of_mem _ hother)

end
