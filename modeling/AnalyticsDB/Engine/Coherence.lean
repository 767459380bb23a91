import AnalyticsDB.Engine.Rename

/-!
# Storage paths stay coherent

After a rename every relation has its objects below its recorded path and no two relations
are at paths of which one lies below the other, provided that the rename is a safe one.  The
conditions are on the state before the statement: where the tables would move to, the
session, and the calls to the outside.
-/

namespace RenameStatement

variable (session : SessionContext)

/-- The relations whose name a statement changes. -/
def covers : RenameStatement → CatalogRelation → Bool
  | .ofTable database schema name _, r => r.database = database.getD session.database
      && r.schema = schema.getD session.schema && r.name = name
  | .ofSchema database name _, r => r.database = database.getD session.database && r.schema = name
  | .ofDatabase name _, r => r.database = name

/-- A relation with its new name. -/
def rename : RenameStatement → CatalogRelation → CatalogRelation
  | .ofTable _ _ _ newName, r => { r with name := newName }
  | .ofSchema _ _ newName, r => { r with schema := newName }
  | .ofDatabase _ newName, r => { r with database := newName }

/-- The key of a relation after a statement. -/
def newKey (statement : RenameStatement) (r : CatalogRelation) : String :=
  if statement.covers session r then (statement.rename r).key else r.key

/-- The move of a table that a statement covers. -/
def move : RenameStatement → CatalogRelation → TableMove
  | .ofTable database schema name newName, r =>
    { database := database, schema := schema, name := newName
      storagePath := r.storagePath, newLocation := renamedTableLocation name newName }
  | .ofSchema database name newName, r =>
    { database := some (database.getD session.database), schema := some newName, name := r.name
      storagePath := r.storagePath
      newLocation := renamedSchemaLocation (database.getD session.database) name newName }
  | .ofDatabase name newName, r =>
    { database := some newName, schema := some r.schema, name := r.name
      storagePath := r.storagePath
      newLocation := renamedDatabaseLocation name newName r.schema }

/-- The new name is not taken. -/
def NameFree (state : CatalogState) : RenameStatement → Prop
  | .ofTable database schema _ newName => state.relations.contains (relationKey
      (database.getD session.database) (schema.getD session.schema) newName) = false
  | .ofSchema database _ newName => ∀ d : CatalogDatabase,
      state.databases[database.getD session.database]? = some d → d.schemas.contains newName = false
  | .ofDatabase _ newName => state.databases.contains newName = false

/-- The session does not stand in the schema or database that is renamed. -/
def SessionElsewhere : RenameStatement → Prop
  | .ofTable _ _ _ _ => True
  | .ofSchema database name _ =>
    session.database = database.getD session.database → session.schema ≠ name
  | .ofDatabase name _ => session.database ≠ name

end RenameStatement

section

variable (o : Outside) (session : SessionContext) (statement : RenameStatement) (w : World)

/-- The tables a statement moves. -/
def Moves (r : CatalogRelation) : Prop :=
  (∃ key : String, w.catalog.relations[key]? = some r) ∧ r.kind = .table
    ∧ statement.covers session r = true

/-- A statement that finds its new name free moves tables safely: each goes to a path of its
own store apart from every relation and from the other tables that move; and when there are
any, the session stays valid and no store call fails. -/
structure MovesSafely : Prop where
  apart : ∀ r old new, Moves session statement w r →
    (statement.move session r).paths o = some (old, new) → old.take 1 = new.take 1
      ∧ ∀ key base, recorded o w.catalog.relations key = some base → Apart new base
  distinct : ∀ r r' old new old' new', Moves session statement w r →
    Moves session statement w r' → r.key ≠ r'.key →
      (statement.move session r).paths o = some (old, new) →
        (statement.move session r').paths o = some (old', new') → Apart new new'
  elsewhere : ∀ r paths, Moves session statement w r →
    (statement.move session r).paths o = some paths → statement.SessionElsewhere session
  faultless : ∀ r paths, Moves session statement w r →
    (statement.move session r).paths o = some paths → ∀ n, o.storeError n = none

/-- The directories between which the rename of a database moves everything: the old one
holds something, the new one nothing. -/
def RenamesDirectory (old new : OPath) : Prop :=
  match statement with
  | .ofDatabase name newName => ∃ catalogPath root, o.catalogPath = some catalogPath
      ∧ storeForLocation o (managedRootOfCatalog catalogPath) = .ok root
      ∧ old = root ++ [s!"db={name}"] ∧ new = root ++ [s!"db={newName}"]
      ∧ w.store.below old ≠ [] ∧ w.store.below new = []
  | _ => False

/-- A directory is renamed safely: the relations below it are tables that the statement moves
to the same place below the new one, and when there are any, every table of the statement
has a new location that can be read and no write of the catalogue fails; all others are apart
from the directory. -/
structure DirectorySafe (old new : OPath) : Prop where
  sides : ∀ key base, recorded o w.catalog.relations key = some base → Apart base old
    ∨ old <+: base ∧ ∃ r, w.catalog.relations[key]? = some r ∧ Moves session statement w r
      ∧ (statement.move session r).paths o = some (base, redirectPath old new base)
  completes : (∃ key base, recorded o w.catalog.relations key = some base ∧ old <+: base) →
    (∀ n, o.saveError n = none) ∧ ∀ r, Moves session statement w r → r.storagePath.isSome = true →
      ((statement.move session r).paths o).isSome = true

/-- The renames that keep the storage paths coherent: those whose new name is taken, and
those that move tables and directories safely. -/
structure RenameSafe : Prop where
  moves : statement.NameFree session w.catalog → MovesSafely o session statement w
  directory : statement.NameFree session w.catalog → ∀ old new,
    RenamesDirectory o statement w old new → DirectorySafe o session statement w old new

end

/-! ### The catalogue changes -/

/-- The relations under their new keys, with the locations they had. -/
structure CatalogRenamed (newKey : CatalogRelation → String)
    (relations relations' : KeyMap CatalogRelation) : Prop where
  forth : ∀ (key : String) (r : CatalogRelation), relations[key]? = some r →
    ∃ r', relations'[newKey r]? = some r' ∧ r'.storagePath = r.storagePath
  back : ∀ (key : String) (r' : CatalogRelation), relations'[key]? = some r' →
    ∃ (key₀ : String) (r : CatalogRelation), relations[key₀]? = some r ∧ key = newKey r
      ∧ r'.storagePath = r.storagePath
  inj : ∀ (key key' : String) (r r' : CatalogRelation), relations[key]? = some r →
    relations[key']? = some r' → newKey r = newKey r' → key = key'

section

variable {o : Outside} {newKey : CatalogRelation → String}
  {relations relations' : KeyMap CatalogRelation}

theorem recorded_of_found {key : String} {r : CatalogRelation} (hr : relations[key]? = some r) :
  recorded o relations key = r.base? o
  := by
  rw [recorded, hr]
  rfl

theorem recorded_eq_some {key : String} {base : OPath} :
  recorded o relations key = some base
    ↔ ∃ r, relations[key]? = some r ∧ r.base? o = some base
  := Option.bind_eq_some_iff

theorem CatalogRenamed.recorded_newKey (h : CatalogRenamed newKey relations relations')
    {key : String} {r : CatalogRelation} (hr : relations[key]? = some r) :
  recorded o relations' (newKey r) = r.base? o
  := by
  obtain ⟨r', hr', hpath⟩ := h.forth key r hr
  rw [recorded_of_found hr', CatalogRelation.base?, hpath]
  rfl

/-- A recorded path is one that was recorded before. -/
theorem CatalogRenamed.recorded_before (h : CatalogRenamed newKey relations relations')
    {key : String} {base : OPath} (hbase : recorded o relations' key = some base) :
  ∃ (key₀ : String) (r : CatalogRelation), relations[key₀]? = some r ∧ key = newKey r
    ∧ recorded o relations key₀ = some base
  := by
  obtain ⟨r', hr', hbase'⟩ := recorded_eq_some.mp hbase
  obtain ⟨key₀, r, hr, hkey, hpath⟩ := h.back key r' hr'
  refine ⟨key₀, r, hr, hkey, ?_⟩
  rw [recorded_of_found hr, CatalogRelation.base?, ← hpath]
  apply hbase'

theorem CatalogRenamed.spread (h : CatalogRenamed newKey relations relations')
    (hspread : (recorded o relations).Spread) :
  (recorded o relations').Spread
  := by
  intro i j a b hne ha hb
  obtain ⟨key, r, hr, hi, ha'⟩ := h.recorded_before ha
  obtain ⟨key', r', hr', hj, hb'⟩ := h.recorded_before hb
  apply hspread key key' a b _ ha' hb'
  rintro rfl
  rw [hr] at hr'
  cases hr'
  apply hne (hi.trans hj.symm)

end

section

variable (session : SessionContext) {state : CatalogState} (hstate : state.Namespaced)

include hstate

/-- A bulk move to fresh keys of the relations that a statement covers. -/
theorem catalogRenamed_moveRelations {statement : RenameStatement} {start : String}
    {f : CatalogRelation → CatalogRelation} {key : CatalogRelation → String}
    (hstarts : ∀ (k : String) (r : CatalogRelation), state.relations[k]? = some r →
      startsWith k start = statement.covers session r)
    (hf : ∀ r, (f r).storagePath = r.storagePath)
    (hkey : ∀ (k : String) (r : CatalogRelation), state.relations[k]? = some r →
      statement.covers session r = true → key (f r) = (statement.rename r).key)
    (hfresh : FreshKeys start f key state.relations) :
  CatalogRenamed (statement.newKey session) state.relations
    (moveRelations start f key state.relations)
  := by
  have hnewKey : ∀ (k : String) (r : CatalogRelation), state.relations[k]? = some r →
      statement.newKey session r = if startsWith k start then key (f r) else k := by
    intro k r hr
    rw [RenameStatement.newKey, hstarts k r hr]
    cases hcovers : statement.covers session r with
    | true =>
        rw [if_pos rfl, if_pos rfl, hkey k r hr hcovers]
    | false =>
        rw [if_neg Bool.false_ne_true, if_neg Bool.false_ne_true, hstate.key_eq hr]
  constructor
  · intro k r hr
    have hmoved := moveRelations_entryMoved hfresh hr
    rw [hnewKey k r hr]
    split
    · rename_i hstart
      rw [if_pos hstart] at hmoved
      exact ⟨f r, hmoved, hf r⟩
    · rename_i hstart
      rw [if_neg hstart] at hmoved
      exact ⟨r, hmoved, rfl⟩
  · intro k r' hr'
    rcases moveRelations_entry hfresh.start_ne hr' with ⟨hr, hnot⟩ | ⟨k₀, r, hr, hstart, rfl, rfl⟩
    · refine ⟨k, r', hr, ?_, rfl⟩
      rw [hnewKey k r' hr, hnot, if_neg Bool.false_ne_true]
    · refine ⟨k₀, r, hr, ?_, hf r⟩
      rw [hnewKey k₀ r hr, hstart, if_pos rfl]
  · intro k k' r r' hr hr' heq
    rw [hnewKey k r hr, hnewKey k' r' hr'] at heq
    split at heq
    · rename_i hstart
      split at heq
      · rename_i hstart'
        apply hfresh.inj k k' r r' hr hr' hstart hstart' heq
      · have hfree := hfresh.free k r hr hstart
        rw [heq, hr'] at hfree
        cases hfree
    · split at heq
      · rename_i hstart'
        have hfree := hfresh.free k' r' hr' hstart'
        rw [← heq, hr] at hfree
        cases hfree
      · apply heq

theorem catalogRenamed_table {database schema : Option String} {name newName : String}
    {relation : CatalogRelation}
    (hold : state.relations[relationKey (database.getD session.database)
      (schema.getD session.schema) name]? = some relation)
    (hfree : (RenameStatement.ofTable database schema name newName).NameFree session state) :
  CatalogRenamed ((RenameStatement.ofTable database schema name newName).newKey session)
    state.relations
    ((state.relations.erase (relationKey (database.getD session.database)
        (schema.getD session.schema) name)).insert
      (relationKey (database.getD session.database) (schema.getD session.schema) newName)
      { relation with name := newName })
  := by
  have hnewKey : ∀ (key : String) (r : CatalogRelation), state.relations[key]? = some r →
      (RenameStatement.ofTable database schema name newName).newKey session r
        = if key = relationKey (database.getD session.database) (schema.getD session.schema) name
          then relationKey (database.getD session.database) (schema.getD session.schema) newName
          else key := by
    intro key r hr
    obtain ⟨hd, hs, hn⟩ := hstate.plain_of_relation hr
    rw [hstate.key_eq hr]
    unfold RenameStatement.newKey
    split
    · rename_i hcovers
      simp only [RenameStatement.covers, Bool.and_eq_true, decide_eq_true_eq] at hcovers
      obtain ⟨⟨hdatabase, hschema⟩, hname⟩ := hcovers
      rw [if_pos]
      · simp only [RenameStatement.rename, CatalogRelation.key, hdatabase, hschema]
      · rw [CatalogRelation.key, hdatabase, hschema, hname]
    · rename_i hcovers
      rw [if_neg]
      intro h
      obtain ⟨hdatabase, hschema, hname⟩ := relationKey_inj hd hs hn h.symm
      apply hcovers
      simp [RenameStatement.covers, hdatabase, hschema, hname]
  have hnone : state.relations[relationKey (database.getD session.database)
      (schema.getD session.schema) newName]? = none := KeyMap.get_eq_none _ hfree
  constructor
  · intro key r hr
    rw [hnewKey key r hr]
    split
    · rename_i hkey
      rw [hkey, hold] at hr
      cases hr
      rw [KeyMap.get_insert, if_pos rfl]
      exact ⟨_, rfl, rfl⟩
    · rename_i hkey
      refine ⟨r, ?_, rfl⟩
      rw [KeyMap.get_insert, if_neg, KeyMap.get_erase, if_neg (Ne.symm hkey), hr]
      intro h
      rw [h, hr] at hnone
      cases hnone
  · intro key r' hr'
    rw [KeyMap.get_insert] at hr'
    split at hr'
    · rename_i hkey
      cases hr'
      refine ⟨_, relation, hold, ?_, rfl⟩
      rw [hnewKey _ relation hold, if_pos rfl, hkey]
    · rw [KeyMap.get_erase] at hr'
      split at hr'
      · cases hr'
      · rename_i hkey
        refine ⟨key, r', hr', ?_, rfl⟩
        rw [hnewKey key r' hr', if_neg (Ne.symm hkey)]
  · intro key key' r r' hr hr' heq
    rw [hnewKey key r hr, hnewKey key' r' hr'] at heq
    split at heq
    · rename_i hkey
      split at heq
      · rename_i hkey'
        rw [hkey, hkey']
      · rw [heq, hr'] at hnone
        cases hnone
    · split at heq
      · rw [← heq, hr] at hnone
        cases hnone
      · apply heq

theorem catalogRenamed_schema {database : Option String} {name newName : String}
    {entry : CatalogDatabase} (hnewName : validateIdentifier newName = .ok ())
    (hdatabase : state.databases[database.getD session.database]? = some entry)
    (hold : entry.schemas.contains name = true)
    (hnew : entry.schemas.contains newName = false) :
  CatalogRenamed ((RenameStatement.ofSchema database name newName).newKey session) state.relations
    (moveRelations (schemaStart (database.getD session.database) name)
      (fun r => { r with schema := newName })
      (fun r => schemaStart (database.getD session.database) newName ++ r.name) state.relations)
  := by
  have hplain := (hstate.databases_ok _ entry hdatabase).schema_plain name hold
  apply catalogRenamed_moveRelations session hstate
  · intro key r hr
    rw [Bool.eq_iff_iff, hstate.inSchema_iff hplain hr]
    simp only [RenameStatement.covers, Bool.and_eq_true, decide_eq_true_eq]
  · intro r
    rfl
  · intro key r hr hcovers
    simp only [RenameStatement.covers, Bool.and_eq_true, decide_eq_true_eq] at hcovers
    simp only [RenameStatement.rename, CatalogRelation.key, hcovers.1]
    rfl
  · exact hstate.freshKeys_schema (plain_of_validateIdentifier hnewName) hdatabase hold hnew

theorem catalogRenamed_database {name newName : String}
    (hname : validateIdentifier name = .ok ()) (hnewName : validateIdentifier newName = .ok ())
    {entry : CatalogDatabase} (hold : state.databases[name]? = some entry)
    (hnew : state.databases.contains newName = false) :
  CatalogRenamed ((RenameStatement.ofDatabase name newName).newKey session) state.relations
    (renameDatabaseState name newName entry state).relations
  := by
  have hplain := plain_of_validateIdentifier hname
  apply catalogRenamed_moveRelations session hstate
  · intro key r hr
    rw [Bool.eq_iff_iff, hstate.inDatabase_iff hplain hr]
    simp only [RenameStatement.covers, decide_eq_true_eq]
  · intro r
    rfl
  · intro key r _ _
    rfl
  · exact hstate.freshKeys_database hplain (plain_of_validateIdentifier hnewName) hold hnew

end

/-! ### The tables move -/

/-- Every relation is at `w'` under its new key, with the objects it had at `w` below its path,
and there are no others. -/
structure Followed (o : Outside) (newKey : CatalogRelation → String) (w w' : World) : Prop where
  forth : ∀ (key : String) (r : CatalogRelation), w.catalog.relations[key]? = some r →
    ∃ r', w'.catalog.relations[newKey r]? = some r' ∧ ∀ base, r.base? o = some base →
      ∃ base', r'.base? o = some base' ∧ ∀ rest obj, rest ≠ [] →
        w.store[base ++ rest]? = some obj → w'.store[base' ++ rest]? = some obj
  back : ∀ (key : String) (r' : CatalogRelation), w'.catalog.relations[key]? = some r' →
    ∃ (key₀ : String) (r : CatalogRelation), w.catalog.relations[key₀]? = some r ∧ key = newKey r

/-- The catalogue after the first part of a rename that found its new name free. -/
structure RenamePhase (session : SessionContext) (statement : RenameStatement) (w w₁ : World) :
    Prop where
  free : statement.NameFree session w.catalog
  namespaced : w₁.catalog.Namespaced
  renamed : CatalogRenamed (statement.newKey session) w.catalog.relations w₁.catalog.relations
  valid : statement.SessionElsewhere session → validateSession w₁.catalog session = .ok ()

/-- The tables that a statement moves, each once. -/
structure Listed (session : SessionContext) (statement : RenameStatement) (w : World)
    (listed : List CatalogRelation) : Prop where
  mem_iff : ∀ r, r ∈ listed ↔ Moves session statement w r
  pairwise : listed.Pairwise (fun r r' => r.key ≠ r'.key)

section

open Eff

variable {o : Outside} {session : SessionContext} {statement : RenameStatement} {w w₁ : World}

theorem CatalogRenamed.followed {newKey : CatalogRelation → String} {w' : World}
    (h : CatalogRenamed newKey w.catalog.relations w₁.catalog.relations)
    (hkeys : ∀ key : String, (w'.catalog.relations[key]?).isSome
      = (w₁.catalog.relations[key]?).isSome)
    (hcarried : Carried (recorded o w₁.catalog.relations) (recorded o w'.catalog.relations)
      w.store w'.store) :
  Followed o newKey w w'
  := by
  constructor
  · intro key r hr
    obtain ⟨r₁, hr₁, -⟩ := h.forth key r hr
    obtain ⟨r', hr'⟩ : ∃ r', w'.catalog.relations[newKey r]? = some r' := by
      apply Option.isSome_iff_exists.mp
      rw [hkeys, hr₁]
      rfl
    refine ⟨r', hr', ?_⟩
    intro base hbase
    rw [← h.recorded_newKey hr] at hbase
    obtain ⟨base', hbase', hobjects⟩ := hcarried _ base hbase
    rw [recorded_of_found hr'] at hbase'
    exact ⟨base', hbase', hobjects⟩
  · intro key r' hr'
    obtain ⟨r₁, hr₁⟩ : ∃ r₁, w₁.catalog.relations[key]? = some r₁ := by
      apply Option.isSome_iff_exists.mp
      rw [← hkeys, hr']
      rfl
    obtain ⟨key₀, r, hr, hkey, -⟩ := h.back key r₁ hr₁
    exact ⟨key₀, r, hr, hkey⟩

theorem RenameStatement.move_key {r : CatalogRelation}
    (hcovers : statement.covers session r = true) :
  (statement.move session r).key session = statement.newKey session r
  := by
  rw [RenameStatement.newKey, if_pos hcovers]
  cases statement with
  | ofTable database schema name newName =>
      simp only [RenameStatement.covers, Bool.and_eq_true, decide_eq_true_eq] at hcovers
      obtain ⟨⟨hdatabase, hschema⟩, -⟩ := hcovers
      simp only [RenameStatement.rename, CatalogRelation.key, hdatabase, hschema]
      rfl
  | ofSchema database name newName =>
      simp only [RenameStatement.covers, Bool.and_eq_true, decide_eq_true_eq] at hcovers
      simp only [RenameStatement.rename, CatalogRelation.key, hcovers.1]
      rfl
  | ofDatabase name newName => rfl

theorem RenameStatement.move_storagePath (r : CatalogRelation) :
  (statement.move session r).storagePath = r.storagePath
  := by
  cases statement with
  | ofTable database schema name newName => rfl
  | ofSchema database name newName => rfl
  | ofDatabase name newName => rfl

/-- A table moves from its recorded path. -/
theorem RenameStatement.base_of_paths {r : CatalogRelation} {old new : OPath}
    (hpaths : (statement.move session r).paths o = some (old, new)) :
  r.base? o = some old
  := by
  unfold TableMove.paths at hpaths
  rw [RenameStatement.move_storagePath] at hpaths
  obtain ⟨location, hlocation, hpaths⟩ := Option.bind_eq_some_iff.mp hpaths
  rw [CatalogRelation.base?, hlocation, Option.bind_some]
  split at hpaths
  · rename_i old' new' hold _
    cases hpaths
    rw [hold]
    rfl
  · cases hpaths

section

variable (hstate : w.catalog.Namespaced) (hphase : RenamePhase session statement w w₁)
  (hsafe : MovesSafely o session statement w)

include hstate

theorem Moves.found {r : CatalogRelation} (hmoves : Moves session statement w r) :
  w.catalog.relations[r.key]? = some r
  := by
  obtain ⟨⟨key, hr⟩, -⟩ := hmoves
  rw [← hstate.key_eq hr, hr]

theorem Moves.recorded {r : CatalogRelation} (hmoves : Moves session statement w r)
    {old new : OPath} (hpaths : (statement.move session r).paths o = some (old, new)) :
  recorded o w.catalog.relations r.key = some old
  := by
  rw [recorded_of_found (hmoves.found hstate)]
  apply RenameStatement.base_of_paths hpaths

include hphase hsafe

/-- The moves of a statement are ready, when each table is at its path or at its target. -/
theorem moves_ready {listed : List CatalogRelation} (hlisted : Listed session statement w listed)
    {p : Placement String}
    (hplaced : ∀ r old new, Moves session statement w r →
      (statement.move session r).paths o = some (old, new) →
        (p (statement.newKey session r) = some old ∧ ∀ key base, p key = some base → Apart new base)
          ∨ (p (statement.newKey session r) = some new ∧ w₁.store.below old = [])) :
  ∀ move ∈ listed.map (statement.move session), move.Ready o session p w₁
  := by
  rw [List.forall_mem_map]
  intro r hr
  have hmoves := (hlisted.mem_iff r).mp hr
  have hkey := RenameStatement.move_key hmoves.2.2
  constructor
  · obtain ⟨r₁, hr₁, -⟩ := hphase.renamed.forth _ r (hmoves.found hstate)
    use r₁
    rw [hkey, hr₁]
  · intro old new hpaths
    rw [hkey]
    rcases hplaced r old new hmoves hpaths with ⟨hold, hapart⟩ | harrived
    · exact .inl ⟨hold, (hsafe.apart r old new hmoves hpaths).1, hapart⟩
    · exact .inr harrived
  · rintro ⟨paths, hpaths⟩
    apply hphase.valid
    apply hsafe.elsewhere r paths hmoves hpaths
  · rintro ⟨paths, hpaths⟩
    apply hsafe.faultless r paths hmoves hpaths

theorem moves_clear (hspread : (recorded o w.catalog.relations).Spread)
    {listed : List CatalogRelation} (hlisted : Listed session statement w listed) :
  (listed.map (statement.move session)).Pairwise (TableMove.Clear o session)
  := by
  rw [List.pairwise_map]
  refine List.Pairwise.imp_of_mem ?_ hlisted.pairwise
  intro r r' hr hr' hne
  have hmoves := (hlisted.mem_iff r).mp hr
  have hmoves' := (hlisted.mem_iff r').mp hr'
  constructor
  · rw [RenameStatement.move_key hmoves.2.2, RenameStatement.move_key hmoves'.2.2]
    intro h
    apply hne
    apply hphase.renamed.inj _ _ r r' (hmoves.found hstate) (hmoves'.found hstate) h
  · intro old new old' new' hpaths hpaths'
    refine ⟨hsafe.distinct r r' old new old' new' hmoves hmoves' hne hpaths hpaths', ?_, ?_⟩
    · apply hspread _ _ _ _ hne.symm (hmoves'.recorded hstate hpaths')
        (hmoves.recorded hstate hpaths)
    · apply Apart.symm
      apply (hsafe.apart r old new hmoves hpaths).2 _ _ (hmoves'.recorded hstate hpaths')

/-- The moves of a statement that renamed no directory leave the paths coherent wherever they
end. -/
theorem after_moveTables_safe (hspread : (recorded o w.catalog.relations).Spread)
    {listed : List CatalogRelation} (hlisted : Listed session statement w listed)
    (hstore : w₁.store = w.store) :
  After (moveTables o session (listed.map (statement.move session))) w₁ (fun _ w' =>
    w'.catalog.Namespaced ∧ Followed o (statement.newKey session) w w'
      ∧ (recorded o w'.catalog.relations).Spread)
  := by
  have hready := moves_ready hstate hphase hsafe hlisted
    (p := recorded o w₁.catalog.relations) ?_
  · refine After.mono (after_moveTables (moves_clear hstate hphase hsafe hspread hlisted) hready
      (hphase.renamed.spread hspread) (fun _ => .inl rfl)) ?_
    rintro r w' ⟨hkeys, hedits, ⟨p', hcarried, hspread', hrecorded⟩, -⟩
    rw [hrecorded (.inl rfl)] at hcarried hspread'
    rw [hstore] at hcarried
    exact ⟨hedits.namespaced hphase.namespaced, hphase.renamed.followed hkeys hcarried, hspread'⟩
  · intro r old new hmoves hpaths
    left
    constructor
    · rw [hphase.renamed.recorded_newKey (hmoves.found hstate)]
      apply RenameStatement.base_of_paths hpaths
    · intro key base hbase
      obtain ⟨key₀, -, -, -, hbase₀⟩ := hphase.renamed.recorded_before hbase
      apply (hsafe.apart r old new hmoves hpaths).2 key₀ base hbase₀

end

/-! ### A directory moves -/

section

variable (hphase : RenamePhase session statement w w₁) {old new : OPath}

include hphase

/-- A directory below which there is no table is renamed without any effect on them. -/
theorem redirect_directory
    (hnone : ¬ ∃ key base, recorded o w.catalog.relations key = some base ∧ old <+: base) :
  (recorded o w₁.catalog.relations).redirect old new = recorded o w₁.catalog.relations
  := by
  funext key
  rw [Placement.redirect]
  cases hbase : recorded o w₁.catalog.relations key with
  | none => rfl
  | some base =>
      rw [Option.map_some]
      obtain ⟨key₀, -, -, -, hbase₀⟩ := hphase.renamed.recorded_before hbase
      rw [redirectPath, if_neg]
      intro hbelow
      exact hnone ⟨key₀, base, hbase₀, hbelow⟩

variable (hdirectory : DirectorySafe o session statement w old new)

include hdirectory

/-- A recorded path after the catalogue changed is apart from the directory, or it is that of
a table that moves with the directory. -/
theorem recorded_sides {key : String} {base : OPath}
    (hbase : recorded o w₁.catalog.relations key = some base) :
  Apart base old ∨ old <+: base ∧ ∃ r, Moves session statement w r
    ∧ key = statement.newKey session r
    ∧ (statement.move session r).paths o = some (base, redirectPath old new base)
  := by
  obtain ⟨key₀, r, hr, hkey, hbase₀⟩ := hphase.renamed.recorded_before hbase
  rcases hdirectory.sides key₀ base hbase₀ with h | ⟨hbelow, r', hr', hmoves, hpaths⟩
  · exact .inl h
  · rw [hr] at hr'
    cases hr'
    exact .inr ⟨hbelow, r, hmoves, hkey, hpaths⟩

theorem carried_directory (hempty : w.store.below new = []) (hapart : Apart old new) :
  Carried (recorded o w₁.catalog.relations) ((recorded o w₁.catalog.relations).redirect old new)
    w.store (moveDirectory old new w.store)
  := by
  refine carried_redirect ?_ hempty (moveDirectory_relocated hapart w.store).1
  intro key base hbase
  rcases recorded_sides hphase hdirectory hbase with h | ⟨h, -⟩
  · exact .inr h
  · exact .inl h

variable (hsafe : MovesSafely o session statement w)

include hsafe

theorem spread_directory (hspread : (recorded o w.catalog.relations).Spread) :
  ((recorded o w₁.catalog.relations).redirect old new).Spread
  := by
  apply spread_redirect
  · intro key base hbase
    rcases recorded_sides hphase hdirectory hbase with h | ⟨h, -⟩
    · exact .inr h
    · exact .inl h
  · apply hphase.renamed.spread hspread
  · intro key key' base base' hbase hbelow hbase' _
    rcases recorded_sides hphase hdirectory hbase with h | ⟨-, r, hmoves, -, hpaths⟩
    · exact absurd hbelow h.2
    · obtain ⟨key₀, -, -, -, hbase₀⟩ := hphase.renamed.recorded_before hbase'
      apply (hsafe.apart r _ _ hmoves hpaths).2 key₀ base' hbase₀

variable (hstate : w.catalog.Namespaced)

include hstate

/-- After the directory moved, each table is where it was, or it has arrived. -/
theorem placed_directory (hempty : w₁.store.below old = []) {r : CatalogRelation}
    {old' new' : OPath} (hmoves : Moves session statement w r)
    (hpaths : (statement.move session r).paths o = some (old', new')) :
  (((recorded o w₁.catalog.relations).redirect old new) (statement.newKey session r) = some old'
      ∧ ∀ key base, ((recorded o w₁.catalog.relations).redirect old new) key = some base →
        Apart new' base)
    ∨ (((recorded o w₁.catalog.relations).redirect old new) (statement.newKey session r) = some new'
      ∧ w₁.store.below old' = [])
  := by
  have hrecorded : recorded o w₁.catalog.relations (statement.newKey session r) = some old' := by
    rw [hphase.renamed.recorded_newKey (hmoves.found hstate)]
    apply RenameStatement.base_of_paths hpaths
  rw [Placement.redirect, hrecorded, Option.map_some]
  rcases hdirectory.sides _ _ (hmoves.recorded hstate hpaths) with
    hapart | ⟨hbelow, r', hr', -, hpaths'⟩
  · left
    rw [redirectPath_of_apart hapart]
    refine ⟨rfl, ?_⟩
    intro key base hbase
    obtain ⟨base₀, hbase₀, rfl⟩ := Option.map_eq_some_iff.mp hbase
    rcases recorded_sides hphase hdirectory hbase₀ with
      h | ⟨hbelow, r', hmoves', -, hpaths'⟩
    · rw [redirectPath_of_apart h]
      obtain ⟨key₀, -, -, -, hbefore⟩ := hphase.renamed.recorded_before hbase₀
      apply (hsafe.apart r old' new' hmoves hpaths).2 key₀ base₀ hbefore
    · apply hsafe.distinct r r' old' new' _ _ hmoves hmoves' _ hpaths hpaths'
      -- a table apart from the directory is not one below it
      intro hkey
      have hold := hmoves.recorded hstate hpaths
      rw [hkey, hmoves'.recorded hstate hpaths'] at hold
      cases hold
      apply hapart.2 hbelow
  · right
    rw [hmoves.found hstate] at hr'
    cases hr'
    rw [hpaths] at hpaths'
    obtain ⟨-, hnew⟩ := Prod.mk.inj (Option.some.inj hpaths')
    refine ⟨by rw [hnew], ?_⟩
    obtain ⟨rest, rfl⟩ := hbelow
    rw [ObjectStore.below_eq_nil_iff] at hempty ⊢
    intro rest' hrest'
    rw [List.append_assoc]
    apply hempty
    simp [hrest']

/-- The moves of a statement that renamed a directory leave the paths coherent. -/
theorem after_moveTables_directory (hspread : (recorded o w.catalog.relations).Spread)
    {listed : List CatalogRelation} (hlisted : Listed session statement w listed)
    (hempty : w.store.below new = []) (hapart : Apart old new)
    (hstore : w₁.store = moveDirectory old new w.store) :
  After (moveTables o session (listed.map (statement.move session))) w₁ (fun _ w' =>
    w'.catalog.Namespaced ∧ Followed o (statement.newKey session) w w'
      ∧ (recorded o w'.catalog.relations).Spread)
  := by
  have hgone : w₁.store.below old = [] := by
    rw [hstore]
    apply (moveDirectory_relocated hapart w.store).2
  have hready := moves_ready hstate hphase hsafe hlisted
    (p := (recorded o w₁.catalog.relations).redirect old new)
    (fun r old' new' hmoves hpaths =>
      placed_directory hphase hdirectory hsafe hstate hgone hmoves hpaths)
  refine After.mono (after_moveTables (moves_clear hstate hphase hsafe hspread hlisted) hready
    (spread_directory hphase hdirectory hsafe hspread) ?_) ?_
  · intro key
    rw [Placement.redirect]
    cases hbase : recorded o w₁.catalog.relations key with
    | none => exact .inl rfl
    | some base =>
        rcases recorded_sides hphase hdirectory hbase with
          h | ⟨-, r, hmoves, rfl, hpaths⟩
        · left
          rw [Option.map_some, redirectPath_of_apart h]
        · right
          refine ⟨statement.move session r, List.mem_map_of_mem ((hlisted.mem_iff r).mpr hmoves),
            RenameStatement.move_key hmoves.2.2, ?_⟩
          obtain ⟨location, hlocation, -⟩ := Option.bind_eq_some_iff.mp hpaths
          rw [hlocation]
          rfl
  · rintro r w' ⟨hkeys, hedits, ⟨p', hcarried, hspread', hrecorded⟩, hcompleted⟩
    have hcoherent : p' = recorded o w'.catalog.relations := by
      apply hrecorded
      by_cases hbelow : ∃ key base, recorded o w.catalog.relations key = some base ∧ old <+: base
      · right
        obtain ⟨hsave, hread⟩ := hdirectory.completes hbelow
        apply hcompleted hsave
        rw [List.forall_mem_map]
        intro r hr hpath
        rw [RenameStatement.move_storagePath] at hpath
        apply hread r ((hlisted.mem_iff r).mp hr) hpath
      · left
        apply redirect_directory hphase hbelow
    rw [hcoherent] at hcarried hspread'
    rw [hstore] at hcarried
    refine ⟨hedits.namespaced hphase.namespaced, hphase.renamed.followed hkeys ?_, hspread'⟩
    apply (carried_directory hphase hdirectory hempty hapart).trans hcarried

end

/-! ### Whole statements -/

/-- How the first part of a rename ends: refused, with the catalogue renamed, or with the
directory of the database renamed as well. -/
inductive RenameOutcome (o : Outside) (session : SessionContext) (statement : RenameStatement)
    (w : World) : Except Failure String → World → Prop
  | refused (e : Failure) : RenameOutcome o session statement w (.error e) w
  | renamed {r : Except Failure String} {w₁ : World} :
      RenamePhase session statement w w₁ → w₁.store = w.store →
      RenameOutcome o session statement w r w₁
  | directory {r : Except Failure String} {w₁ : World} {old new : OPath} :
      RenamePhase session statement w w₁ → RenamesDirectory o statement w old new →
      Apart old new → w.store.below new = [] → w₁.store = moveDirectory old new w.store →
      ((∀ n, o.saveError n = none) → ∃ message, r = .ok message) →
      RenameOutcome o session statement w r w₁

/-- The paths are coherent after a statement: it left the names as they were or changed them,
every relation has its objects below its recorded path, and no two relations share one. -/
structure PathsCoherent (o : Outside) (session : SessionContext) (statement : RenameStatement)
    (w w' : World) : Prop where
  followed : Followed o CatalogRelation.key w w' ∨ Followed o (statement.newKey session) w w'
  spread : (recorded o w'.catalog.relations).Spread

theorem followed_refl (hstate : w.catalog.Namespaced) :
  Followed o CatalogRelation.key w w
  := by
  constructor
  · intro key r hr
    refine ⟨r, ?_, fun base hbase => ⟨base, hbase, fun _ _ _ h => h⟩⟩
    rw [← hstate.key_eq hr, hr]
  · intro key r hr
    exact ⟨key, r, hr, hstate.key_eq hr⟩

/-- A statement that changes the catalogue and then moves its tables. -/
theorem after_statement {edit : Op String} {listed : List CatalogRelation} (text : String → String)
    (hstate : w.catalog.Namespaced) (hspread : (recorded o w.catalog.relations).Spread)
    (hsafe : RenameSafe o session statement w) (hlisted : Listed session statement w listed)
    (hedit : After edit w (RenameOutcome o session statement w)) :
  After (do
      let message ← edit
      moveTables o session (listed.map (statement.move session))
      return text message) w
    (fun _ w' => w'.catalog.Namespaced ∧ PathsCoherent o session statement w w')
  := by
  rw [after_bind]
  apply After.mono hedit
  intro r w₁ houtcome
  cases houtcome with
  | refused e => exact ⟨hstate, .inl (followed_refl hstate), hspread⟩
  | renamed hphase hstore =>
      rcases r with e | message
      · rw [resume_error]
        refine ⟨hphase.namespaced, .inr (hphase.renamed.followed (fun _ => rfl) ?_),
          hphase.renamed.spread hspread⟩
        rw [hstore]
        apply Carried.refl
      · rw [resume_ok, after_bind]
        refine After.mono (after_moveTables_safe hstate hphase (hsafe.moves hphase.free) hspread
          hlisted hstore) ?_
        rintro r w' ⟨hnamespaced, hfollowed, hspread'⟩
        cases r with
        | error e => exact ⟨hnamespaced, .inr hfollowed, hspread'⟩
        | ok _ => exact ⟨hnamespaced, .inr hfollowed, hspread'⟩
  | @directory r w₁ old new hphase hrenames hapart hempty hstore hsaved =>
      have hdirectory := hsafe.directory hphase.free old new hrenames
      have hmoves := hsafe.moves hphase.free
      rcases r with e | message
      · rw [resume_error]
        -- the write of the catalogue failed, so that no table is below the directory
        have hnone : ¬ ∃ key base, recorded o w.catalog.relations key = some base
            ∧ old <+: base := by
          intro hbelow
          obtain ⟨message, hmessage⟩ := hsaved (hdirectory.completes hbelow).1
          cases hmessage
        refine ⟨hphase.namespaced, .inr (hphase.renamed.followed (fun _ => rfl) ?_),
          hphase.renamed.spread hspread⟩
        have hcarried := carried_directory hphase hdirectory hempty hapart
        rw [redirect_directory hphase hnone, ← hstore] at hcarried
        apply hcarried
      · rw [resume_ok, after_bind]
        refine After.mono (after_moveTables_directory hphase hdirectory hmoves hstate hspread
          hlisted hempty hapart hstore) ?_
        rintro r w' ⟨hnamespaced, hfollowed, hspread'⟩
        cases r with
        | error e => exact ⟨hnamespaced, .inr hfollowed, hspread'⟩
        | ok _ => exact ⟨hnamespaced, .inr hfollowed, hspread'⟩

theorem CatalogState.Namespaced.bump {state : CatalogState} (h : state.Namespaced) :
  state.bump.Namespaced
  := ⟨h.databases_ok, h.relations_ok⟩

theorem after_renameRelation (hstate : w.catalog.Namespaced) (database schema : Option String)
    (name newName : String) :
  After (renameRelation o session database schema name newName) w
    (RenameOutcome o session (.ofTable database schema name newName) w)
  := by
  simp only [renameRelation, after_bind, after_orBail, after_readState, resume_ok, resume_error]
  refine ⟨fun _ _ => .refused _, fun _ hnewName => ⟨fun _ _ => .refused _, fun _ hsession => ?_⟩⟩
  split
  · apply RenameOutcome.refused
  · rename_i relation hold
    rw [after_ite]
    refine ⟨fun _ => .refused _, fun hfree => ?_⟩
    rw [Bool.not_eq_true] at hfree
    refine After.mono (after_edit o _ _ w) ?_
    rintro r w₁ ⟨hstore, hcatalog⟩
    refine .renamed ⟨hfree, ?_, ?_, ?_⟩ hstore
    · rw [hcatalog]
      apply CatalogState.Namespaced.bump
      apply namespaced_renameRelation hstate hnewName hold
    · rw [hcatalog]
      apply catalogRenamed_table session hstate hold hfree
    · intro _
      rw [hcatalog]
      apply hsession

theorem after_renameSchema (hstate : w.catalog.Namespaced) (database : Option String)
    (name newName : String) :
  After (renameSchema o session database name newName) w
    (RenameOutcome o session (.ofSchema database name newName) w)
  := by
  simp only [renameSchema, after_bind, after_orBail, after_readState, resume_ok, resume_error]
  refine ⟨fun _ _ => .refused _, fun _ hnewName => ⟨fun _ _ => .refused _, fun _ hsession => ?_⟩⟩
  split
  · apply RenameOutcome.refused
  · rename_i entry hentry
    rw [after_ite]
    refine ⟨fun _ => .refused _, fun hold => ?_⟩
    rw [Bool.not_eq_true, Bool.not_eq_false'] at hold
    rw [after_ite]
    refine ⟨fun _ => .refused _, fun hfree => ?_⟩
    rw [Bool.not_eq_true] at hfree
    refine After.mono (after_edit o _ _ w) ?_
    rintro r w₁ ⟨hstore, hcatalog⟩
    refine .renamed ⟨?_, ?_, ?_, ?_⟩ hstore
    · intro d hd
      rw [hentry] at hd
      cases hd
      apply hfree
    · rw [hcatalog]
      apply CatalogState.Namespaced.bump
      apply namespaced_renameSchema hstate hnewName hentry hold hfree
    · rw [hcatalog]
      apply catalogRenamed_schema session hstate hnewName hentry hold hfree
    · intro helsewhere
      rw [hcatalog]
      refine validateSession_of_schemas ?_ ?_ hsession
      · rfl
      · intro d hd hcontains
        simp only [CatalogState.bump, KeyMap.get_modify]
        by_cases hdatabase : database.getD session.database = session.database
        · rw [if_pos hdatabase, hd]
          refine ⟨_, rfl, ?_⟩
          have hne := (helsewhere hdatabase.symm).symm
          simpa [hne] using Or.inr hcontains
        · rw [if_neg hdatabase]
          exact ⟨d, hd, hcontains⟩

/-- Two names make two directories apart. -/
theorem apart_directories (root : OPath) {name newName : String} (hne : name ≠ newName) :
  Apart (root ++ [s!"db={name}"]) (root ++ [s!"db={newName}"])
  := by
  have hsegment : ∀ {a b : String}, [s!"db={a}"] <+: [s!"db={b}"] → a = b := by
    intro a b h
    have hlist := List.singleton_inj.mp (h.eq_of_length rfl)
    have hchars : (toString a).toList = (toString b).toList := by
      simpa using congrArg String.toList hlist
    exact String.toList_inj.mp hchars
  rw [Apart, List.prefix_append_right_inj, List.prefix_append_right_inj]
  constructor
  · intro h
    apply hne (hsegment h)
  · intro h
    apply hne (hsegment h).symm

theorem databasesRoot_eq_some {root : OPath} (h : databasesRoot o = some root) :
  ∃ catalogPath, o.catalogPath = some catalogPath
    ∧ storeForLocation o (managedRootOfCatalog catalogPath) = .ok root
  := by
  obtain ⟨catalogPath, hpath, hlocation⟩ := Option.bind_eq_some_iff.mp h
  refine ⟨catalogPath, hpath, ?_⟩
  cases hstore : storeForLocation o (managedRootOfCatalog catalogPath) with
  | error message =>
      rw [hstore] at hlocation
      cases hlocation
  | ok path =>
      rw [hstore] at hlocation
      cases hlocation
      rfl

/-- Renaming the directory of a database does nothing, or moves everything below it. -/
theorem after_renameDatabaseDirectory_objects (name newName : String) :
  After (renameDatabaseDirectory o name newName) w (fun r w' => w'.catalog = w.catalog
    ∧ (w'.store = w.store ∨ (r = .ok () ∧ ∃ root,
        RenamesDirectory o (.ofDatabase name newName) w (root ++ [s!"db={name}"])
            (root ++ [s!"db={newName}"])
          ∧ w.store.below (root ++ [s!"db={newName}"]) = []
          ∧ w'.store = moveDirectory (root ++ [s!"db={name}"]) (root ++ [s!"db={newName}"])
            w.store)))
  := by
  unfold renameDatabaseDirectory renameDirectory
  cases hroot : databasesRoot o with
  | none => exact ⟨rfl, .inl rfl⟩
  | some root =>
      obtain ⟨catalogPath, hpath, hlocation⟩ := databasesRoot_eq_some hroot
      simp only [after_bind, resume_ok, after_get, after_ite, after_pure, after_outsideCall,
        true_or, and_true, implies_true]
      intro hsome
      cases o.storeError w.calls with
      | some e => exact ⟨rfl, .inl rfl⟩
      | none =>
          simp only [after_bind, after_get, resume_ok, after_ite, after_bail, true_or, and_true,
            implies_true]
          refine fun hempty => ⟨rfl, .inr ⟨rfl, root, ?_, ?_, rfl⟩⟩
          · refine ⟨catalogPath, root, hpath, hlocation, rfl, rfl, ?_, ?_⟩
            · intro h
              rw [h] at hsome
              cases hsome
            · exact List.isEmpty_iff.mp hempty
          · exact List.isEmpty_iff.mp hempty

theorem after_alterDatabase_rename (hstate : w.catalog.Namespaced) (name newName : String) :
  After (alterDatabase o session name (.rename newName)) w
    (RenameOutcome o session (.ofDatabase name newName) w)
  := by
  simp only [alterDatabase, after_bind, after_orBail, after_readState, resume_ok, resume_error]
  refine ⟨fun _ _ => .refused _, fun _ hname => ⟨fun _ _ => .refused _, fun _ hsession => ?_⟩⟩
  rw [after_ite]
  refine ⟨fun _ => .refused _, fun _ => ?_⟩
  simp only [after_bind, after_orBail, resume_ok, resume_error]
  refine ⟨fun _ _ => .refused _, fun _ hnewName => ?_⟩
  rw [after_ite]
  refine ⟨fun _ => .refused _, fun hfree => ?_⟩
  rw [Bool.not_eq_true] at hfree
  split
  · apply RenameOutcome.refused
  · rename_i entry hentry
    have hne : name ≠ newName := by
      rintro rfl
      rw [KeyMap.get_eq_none _ hfree] at hentry
      cases hentry
    have hphase : ∀ w₁ : World,
        w₁.catalog = renameDatabaseState name newName entry w.catalog →
        RenamePhase session (.ofDatabase name newName) w w₁ := by
      intro w₁ hcatalog
      refine ⟨hfree, ?_, ?_, ?_⟩
      · rw [hcatalog]
        apply namespaced_renameDatabase hstate hname hnewName hentry hfree
      · rw [hcatalog]
        apply catalogRenamed_database session hstate hname hnewName hentry hfree
      · intro helsewhere
        rw [hcatalog]
        refine @validateSession_of_schemas w.catalog _ _ rfl ?_ hsession
        intro d hd hcontains
        refine ⟨d, ?_, hcontains⟩
        have hother : newName ≠ session.database := by
          rintro rfl
          rw [KeyMap.get_eq_none _ hfree] at hd
          cases hd
        simp only [renameDatabaseState]
        rw [KeyMap.get_insert, if_neg hother, KeyMap.get_erase, if_neg (Ne.symm helsewhere), hd]
    rw [after_bind, after_writeState, resume_ok, after_bind]
    apply After.mono (after_renameDatabaseDirectory_objects name newName)
    rintro r w₁ ⟨hcatalog, hstore⟩
    rcases r with e | _
    · rw [resume_error]
      refine .renamed (hphase w₁ hcatalog) ?_
      rcases hstore with hstore | ⟨h, -⟩
      · apply hstore
      · cases h
    · rw [resume_ok, after_bind, after_persistState]
      have hsaved : ∀ w₂ : World, w₂.catalog = w₁.catalog → w₂.store = w₁.store →
          ∀ r, ((∀ n, o.saveError n = none) → ∃ message, r = .ok message) →
          RenameOutcome o session (.ofDatabase name newName) w r w₂ := by
        intro w₂ hcatalog₂ hstore₂ r hr
        rcases hstore with hstore | ⟨-, root, hrenames, hempty, hstore⟩
        · exact .renamed (hphase w₂ (hcatalog₂.trans hcatalog)) (hstore₂.trans hstore)
        · exact .directory (hphase w₂ (hcatalog₂.trans hcatalog)) hrenames
            (apart_directories root hne) hempty (hstore₂.trans hstore) hr
      unfold Outside.saved Outside.afterSave
      cases o.catalogPath with
      | none =>
          rw [resume_ok, after_pure]
          exact hsaved _ rfl rfl _ (fun _ => ⟨_, rfl⟩)
      | some path =>
          cases hsave : o.saveError w₁.calls with
          | none =>
              rw [resume_ok, after_pure]
              exact hsaved { w₁ with calls := w₁.calls + 1 } rfl rfl _ (fun _ => ⟨_, rfl⟩)
          | some message =>
              rw [resume_error]
              refine hsaved { w₁ with calls := w₁.calls + 1 } rfl rfl _ (fun h => ?_)
              rw [h] at hsave
              cases hsave

/-- The tables that a filter keeps are those a statement moves. -/
theorem listed_filter (hstate : w.catalog.Namespaced) {keep : CatalogRelation → Bool}
    (hkeep : ∀ (key : String) (r : CatalogRelation), w.catalog.relations[key]? = some r →
      (keep r = true ↔ r.kind = .table ∧ statement.covers session r = true)) :
  Listed session statement w ((w.catalog.relations.toList.map (·.2)).filter keep)
  := by
  have hmem : ∀ entry ∈ w.catalog.relations.toList,
      w.catalog.relations[entry.1]? = some entry.2 := by
    intro entry hentry
    exact Std.ExtTreeMap.mem_toList_iff_getElem?_eq_some.mp hentry
  constructor
  · intro r
    rw [List.mem_filter, List.mem_map]
    constructor
    · rintro ⟨⟨⟨key, _⟩, hentry, rfl⟩, hr⟩
      have hfound := hmem _ hentry
      exact ⟨⟨key, hfound⟩, (hkeep key _ hfound).mp hr⟩
    · rintro ⟨⟨key, hr⟩, hcovers⟩
      refine ⟨⟨(key, r), ?_, rfl⟩, (hkeep key r hr).mpr hcovers⟩
      exact Std.ExtTreeMap.mem_toList_iff_getElem?_eq_some.mpr hr
  · apply List.Pairwise.filter
    rw [List.pairwise_map]
    refine List.Pairwise.imp_of_mem ?_ Std.ExtTreeMap.distinct_keys_toList
    intro a b ha hb hne h
    apply hne
    rw [hstate.key_eq (hmem a ha), hstate.key_eq (hmem b hb), h]
    exact Std.compare_self

theorem after_listRelations (database schema : Option String) :
  After (listRelations session database schema .table) w (fun r w' => w' = w
    ∧ ∀ listed, r = .ok listed → listed = (w.catalog.relations.toList.map (·.2)).filter
      (fun relation => relation.kind = .table && relation.database = database.getD session.database
        && relation.schema = schema.getD session.schema))
  := by
  simp only [listRelations, after_bind, after_readState, resume_ok, after_orBail, resume_error,
    after_pure]
  refine ⟨fun _ _ => ⟨trivial, fun _ h => ?_⟩, fun _ _ => ⟨trivial, fun _ h => ?_⟩⟩
  · cases h
  · cases h
    rfl

theorem after_listRelationsForDatabase (database : String) :
  After (listRelationsForDatabase session database .table) w (fun r w' => w' = w
    ∧ ∀ listed, r = .ok listed → ∃ entry : CatalogDatabase,
      w.catalog.databases[database]? = some entry
        ∧ listed = (w.catalog.relations.toList.map (·.2)).filter (fun relation =>
          relation.kind = .table && relation.database = entry.name
            && entry.schemas.contains relation.schema))
  := by
  simp only [listRelationsForDatabase, after_bind, after_readState, resume_ok, after_orBail,
    resume_error]
  refine ⟨fun _ _ => ⟨trivial, fun _ h => ?_⟩, fun _ _ => ?_⟩
  · cases h
  · split
    · refine ⟨rfl, fun _ h => ?_⟩
      cases h
    · rename_i entry hentry
      refine ⟨rfl, fun _ h => ?_⟩
      cases h
      exact ⟨entry, hentry, rfl⟩

theorem after_tableRelation (database schema : Option String) (name : String) :
  After (tableRelation session database schema name) w (fun r w' => w' = w
    ∧ ∀ relation, r = .ok relation → relation.kind = .table
      ∧ w.catalog.relations[relationKey (database.getD session.database)
        (schema.getD session.schema) name]? = some relation)
  := by
  simp only [tableRelation, findRelation, after_bind, after_readState, resume_ok, after_orBail,
    resume_error]
  refine ⟨fun _ _ => ⟨trivial, fun _ h => ?_⟩, fun _ _ => ?_⟩
  · cases h
  · split
    · rename_i relation hfound
      simp only [after_pure, resume_ok, after_ite, after_bind, after_bail, resume_error]
      refine ⟨fun _ => ⟨trivial, fun _ h => ?_⟩, fun hkind => ⟨trivial, fun _ h => ?_⟩⟩
      · cases h
      · cases h
        exact ⟨not_not.mp hkind, hfound⟩
    · refine ⟨rfl, fun _ h => ?_⟩
      cases h

theorem moveTables_singleton (move : TableMove) :
  moveTables o session [move] = moveTable o session move
  := by
  simp [moveTables]

/-- A rename fails before it changes anything, or edits the catalogue and then moves the tables it
covers. -/
theorem after_executeRename_of_parts (hstate : w.catalog.Namespaced)
    {Q : Except Failure String → World → Prop} (hfails : ∀ e, Q (.error e) w)
    (hparts : ∀ (edit : Op String) (listed : List CatalogRelation) (text : String → String),
      Listed session statement w listed → After edit w (RenameOutcome o session statement w) →
        After (do
          let message ← edit
          moveTables o session (listed.map (statement.move session))
          return text message) w Q) :
  After (executeRename o session statement) w Q
  := by
  cases statement with
  | ofTable database schema name newName =>
      rw [executeRename, executeRenameTable, after_bind]
      apply After.mono (after_tableRelation database schema name)
      rintro r w₁ ⟨rfl, hfound⟩
      rcases r with e | relation
      · apply hfails
      · obtain ⟨hkind, hfound⟩ := hfound relation rfl
        have hlisted : Listed session (.ofTable database schema name newName) w₁ [relation] := by
          constructor
          · intro r
            rw [List.mem_singleton]
            constructor
            · rintro rfl
              obtain ⟨hd, hs, hn⟩ := hstate.plain_of_relation hfound
              obtain ⟨hdatabase, hschema, hname⟩ := relationKey_inj hd hs hn (hstate.key_eq hfound)
              refine ⟨⟨_, hfound⟩, hkind, ?_⟩
              simp [RenameStatement.covers, hdatabase, hschema, hname]
            · rintro ⟨⟨key, hr⟩, -, hcovers⟩
              simp only [RenameStatement.covers, Bool.and_eq_true, decide_eq_true_eq] at hcovers
              obtain ⟨⟨hdatabase, hschema⟩, hname⟩ := hcovers
              rw [hstate.key_eq hr, CatalogRelation.key, hdatabase, hschema, hname, hfound] at hr
              cases hr
              rfl
          · apply List.pairwise_singleton
        have hstatement := fun text => hparts _ [relation] text hlisted
          (after_renameRelation hstate database schema name newName)
        rw [resume_ok, ← moveTables_singleton]
        apply hstatement
  | ofSchema database name newName =>
      rw [executeRename, executeAlterSchema, after_bind]
      apply After.mono (after_listRelations database (some name))
      rintro r w₁ ⟨rfl, hlist⟩
      rcases r with e | listed
      · apply hfails
      · have hlisted : Listed session (.ofSchema database name newName) w₁ listed := by
          rw [hlist listed rfl]
          apply listed_filter hstate
          intro key r _
          simp [RenameStatement.covers, and_assoc]
        have hstatement := fun text => hparts _ listed text hlisted
          (after_renameSchema hstate database name newName)
        rw [resume_ok]
        apply hstatement
  | ofDatabase name newName =>
      rw [executeRename, executeRenameDatabase, after_bind]
      apply After.mono (after_listRelationsForDatabase name)
      rintro r w₁ ⟨rfl, hlist⟩
      rcases r with e | listed
      · apply hfails
      · obtain ⟨entry, hentry, hlisted⟩ := hlist listed rfl
        have hlisted : Listed session (.ofDatabase name newName) w₁ listed := by
          rw [hlisted]
          apply listed_filter hstate
          intro key r hr
          obtain ⟨d, hd, hcontains⟩ := (hstate.relations_ok key r hr).schema_exists
          simp only [RenameStatement.covers, Bool.and_eq_true, decide_eq_true_eq,
            (hstate.databases_ok name entry hentry).name_eq]
          constructor
          · rintro ⟨h, -⟩
            apply h
          · rintro ⟨hkind, hdatabase⟩
            refine ⟨⟨hkind, hdatabase⟩, ?_⟩
            rw [hdatabase, hentry] at hd
            cases hd
            apply hcontains
        have hstatement := hparts _ listed (fun message => message) hlisted
          (after_alterDatabase_rename hstate name newName)
        rw [resume_ok]
        apply hstatement

/-- A safe rename leaves the paths coherent, whether it returns or fails. -/
theorem after_executeRename (hstate : w.catalog.Namespaced)
    (hspread : (recorded o w.catalog.relations).Spread)
    (hsafe : RenameSafe o session statement w) :
  After (executeRename o session statement) w (fun _ w' =>
    w'.catalog.Namespaced ∧ PathsCoherent o session statement w w')
  := by
  apply after_executeRename_of_parts hstate
  · intro e
    exact ⟨hstate, .inl (followed_refl hstate), hspread⟩
  · intro edit listed text hlisted hedit
    exact after_statement text hstate hspread hsafe hlisted hedit

end
