import AnalyticsDB.Engine.Coherence

/-!
# Runs with renames

A run renames tables, schemas and databases, creates tables, and does whatever else leaves the
recorded paths alone.  In every state it reaches the paths of the relations are apart, a
safe rename follows the objects, and a later creation disturbs no relation.
-/

/-! ### Later creations -/

/-- What a creation at `base` changes: objects below `base`, and the catalogue by at most one
new relation, which is there. -/
structure CreatedAt (o : Outside) (base : OPath) (w w' : World) : Prop where
  objects : ∀ key, ¬ base <+: key → w'.store[key]? = w.store[key]?
  edits : Edits w.catalog w'.catalog
  relations : w'.catalog.relations = w.catalog.relations
    ∨ ∃ (key : String) (relation : CatalogRelation), w.catalog.relations[key]? = none
      ∧ w'.catalog.relations = w.catalog.relations.insert key relation
      ∧ relation.base? o = some base

/-- Every relation is at `w'` what it was at `w`, with its objects below its path. -/
def Undisturbed (o : Outside) (w w' : World) : Prop :=
  ∀ (key : String) (r : CatalogRelation), w.catalog.relations[key]? = some r →
    w'.catalog.relations[key]? = some r
      ∧ ∀ base rest, r.base? o = some base → w'.store[base ++ rest]? = w.store[base ++ rest]?

section

open Eff

variable {o : Outside} {session : SessionContext} {database schema : Option String} {name : String}
  {w : World}

theorem CreatedAt.of_frame {base : OPath} {touched : OPath → Prop} {w₁ w' : World}
    (h : CreatedAt o base w w₁) (hframe : Frame touched w₁ w')
    (htouched : ∀ key, touched key → base <+: key) :
  CreatedAt o base w w'
  := by
  constructor
  · intro key hkey
    rw [hframe.store key (fun h => hkey (htouched key h)), h.objects key hkey]
  · rw [hframe.catalog]
    apply h.edits
  · rw [hframe.catalog]
    apply h.relations

theorem createdAt_refl (base : OPath) (w : World) :
  CreatedAt o base w w
  := ⟨fun _ _ => rfl, edits_refl _, .inl rfl⟩

/-- A registration is refused, or stores the table at its location. -/
theorem after_registerManagedTable (location : String) (columns : List CatalogColumn)
    (constraints : List CatalogTableConstraint) :
  After (registerManagedTable o session database schema name location columns constraints) w
    (fun r w' => ((∃ e, r = .error e) ∧ w' = w) ∨ (w'.store = w.store
      ∧ w.catalog.relations.contains (relationKey (database.getD session.database)
        (schema.getD session.schema) name) = false
      ∧ ∃ relation, relation.storagePath = some location ∧ relation.columns = columns
        ∧ w'.catalog.relations = w.catalog.relations.insert (relationKey
          (database.getD session.database) (schema.getD session.schema) name) relation))
  := by
  simp only [registerManagedTable, registerRelation, after_bind, after_orBail, after_readState,
    resume_ok, resume_error]
  refine ⟨fun _ _ => .inl ⟨⟨_, rfl⟩, trivial⟩, fun _ _ =>
    ⟨fun _ _ => .inl ⟨⟨_, rfl⟩, trivial⟩, fun _ _ => ?_⟩⟩
  split
  · exact .inl ⟨⟨_, rfl⟩, rfl⟩
  · rw [after_ite]
    refine ⟨fun _ => .inl ⟨⟨_, rfl⟩, rfl⟩, fun _ => ?_⟩
    rw [after_ite]
    refine ⟨fun _ => .inl ⟨⟨_, rfl⟩, rfl⟩, fun hfree => ?_⟩
    rw [Bool.not_eq_true] at hfree
    refine After.mono (after_edit o _ _ w) ?_
    rintro r w' ⟨hstore, hcatalog⟩
    right
    refine ⟨hstore, hfree, ?_⟩
    rw [hcatalog]
    refine ⟨_, ?_, ?_, rfl⟩
    · rfl
    · rfl

/-- A creation whose writer touches only the snapshot at its target. -/
theorem after_createManagedTable_createdAt {α : Type}
    {write : OPath → Op (List CatalogColumn × List CatalogTableConstraint × α)}
    (hwrite : ∀ base, After (write base) w (fun _ w' => Frame (SnapshotKey base) w w')) :
  After (createManagedTable o session database schema name write) w (fun r w' =>
    ((∃ e, r = .error e) ∧ w' = w)
      ∨ ∃ base, createTarget o session database schema name w.catalog = .ok base
        ∧ CreatedAt o base w w'
        ∧ (∀ key, key ≠ relationKey (database.getD session.database) (schema.getD session.schema)
          name → w'.catalog.relations[key]? = w.catalog.relations[key]?)
        ∧ ∀ a, r = .ok a → ∃ relation, w'.catalog.relations[relationKey
          (database.getD session.database) (schema.getD session.schema) name]? = some relation
            ∧ relation.base? o = some base)
  := by
  rw [after_createManagedTable_iff]
  constructor
  · intro message _
    exact .inl ⟨⟨_, rfl⟩, rfl⟩
  · intro base htarget
    have hlocation : storeForLocation o (managedTableUri o w.catalog
        (database.getD session.database) (schema.getD session.schema) name) = .ok base := by
      obtain ⟨_, -, h⟩ := Except.bind_eq_ok_iff.mp htarget
      obtain ⟨_, -, h⟩ := Except.bind_eq_ok_iff.mp h
      apply h
    apply After.mono (hwrite base)
    intro r w₁ hframe
    have hwritten : CreatedAt o base w w₁ :=
      (createdAt_refl base w).of_frame hframe (fun _ => snapshotKey_below)
    have hsame : ∀ key : String, w₁.catalog.relations[key]? = w.catalog.relations[key]? := by
      intro key
      rw [hframe.catalog]
    rcases r with e | written
    · refine .inr ⟨base, htarget, hwritten, fun key _ => hsame key, ?_⟩
      intro a h
      cases h
    · rw [resume_ok, after_bind]
      refine After.mono ((after_registerManagedTable _ _ _).and
        (performOp_leads o session w₁ (.registerManagedTable _ _ _ _ _ _))) ?_
      rintro r w₂ ⟨⟨⟨e, rfl⟩, rfl⟩ | ⟨hstore, hfree, relation, hpath, -, hrelations⟩, hedits, -⟩
      · refine .inr ⟨base, htarget, hwritten, fun key _ => hsame key, ?_⟩
        intro a h
        cases h
      · have hbase : relation.base? o = some base := by
          rw [CatalogRelation.base?, hpath, Option.bind_some, hlocation]
          rfl
        have hcreated : CreatedAt o base w w₂ := by
          constructor
          · intro key hkey
            rw [hstore, hwritten.objects key hkey]
          · apply hwritten.edits.trans hedits
          · right
            rw [← hframe.catalog]
            exact ⟨_, relation, KeyMap.get_eq_none _ hfree, hrelations, hbase⟩
        have hfound : w₂.catalog.relations[relationKey (database.getD session.database)
            (schema.getD session.schema) name]? = some relation := by
          rw [hrelations, KeyMap.get_insert, if_pos rfl]
        have hothers : ∀ key, key ≠ relationKey (database.getD session.database)
            (schema.getD session.schema) name →
            w₂.catalog.relations[key]? = w.catalog.relations[key]? := by
          intro key hkey
          rw [hrelations, KeyMap.get_insert, if_neg (Ne.symm hkey), hsame]
        rcases r with e | message
        · refine .inr ⟨base, htarget, hcreated, hothers, ?_⟩
          intro a h
          cases h
        · exact .inr ⟨base, htarget, hcreated, hothers, fun _ _ => ⟨relation, hfound, hbase⟩⟩

/-- A creation does nothing, or changes only what is below its target. -/
theorem after_executeCreate_createdAt (df : DataFusion) (statement : CreateStatement) :
  After (executeCreate o df session database schema name statement) w (fun _ w' => w' = w
    ∨ ∃ base, createTarget o session database schema name w.catalog = .ok base
      ∧ CreatedAt o base w w'
      ∧ ∀ key, key ≠ relationKey (database.getD session.database) (schema.getD session.schema)
        name → w'.catalog.relations[key]? = w.catalog.relations[key]?)
  := by
  have hquery : ∀ querySql (text : String × Nat → String),
      After (createManagedTable o session database schema name (writeQueryResult o df querySql)
        >>= fun created => pure (text created) : Op String) w (fun _ w' => w' = w
          ∨ ∃ base, createTarget o session database schema name w.catalog = .ok base
            ∧ CreatedAt o base w w'
            ∧ ∀ key, key ≠ relationKey (database.getD session.database)
              (schema.getD session.schema) name →
                w'.catalog.relations[key]? = w.catalog.relations[key]?) := by
    intro querySql text
    rw [after_bind]
    refine After.mono (after_createManagedTable_createdAt (fun base =>
      After.mono (after_writeQueryResult o df querySql base w) (fun _ _ h => h.touched))) ?_
    rintro r w' (⟨⟨e, rfl⟩, rfl⟩ | ⟨base, htarget, hcreated, hothers, -⟩)
    · exact .inl rfl
    · rcases r with e | created
      · exact .inr ⟨base, htarget, hcreated, hothers⟩
      · exact .inr ⟨base, htarget, hcreated, hothers⟩
  rcases statement with ⟨columns, constraints⟩ | querySql | querySql
  · rw [executeCreate, after_bind]
    refine After.mono (after_createManagedTable_createdAt (fun base =>
      After.mono (after_writeDefinition o df columns constraints base w) (fun _ _ h => h.touched)))
        ?_
    rintro r w₁ (⟨⟨e, rfl⟩, rfl⟩ | ⟨base, htarget, hcreated, hothers, hregistered⟩)
    · exact .inl rfl
    · rcases r with e | created
      · exact .inr ⟨base, htarget, hcreated, hothers⟩
      · obtain ⟨relation, hfound, hbase⟩ := hregistered created rfl
        rw [resume_ok, after_bind]
        apply After.mono (after_tableRelation database schema name)
        rintro r w₂ ⟨rfl, hrelation⟩
        rcases r with e | other
        · exact .inr ⟨base, htarget, hcreated, hothers⟩
        · obtain ⟨-, hother⟩ := hrelation other rfl
          rw [hfound] at hother
          cases hother
          rw [resume_ok, after_bind]
          refine After.mono (rebuildAllIndexSnapshots_modifies o df session hbase w₂) ?_
          intro r w₃ hframe
          have hcreated₃ := hcreated.of_frame hframe (fun _ => indexKey_below)
          rw [← hframe.catalog] at hothers
          rcases r with e | _
          · exact .inr ⟨base, htarget, hcreated₃, hothers⟩
          · exact .inr ⟨base, htarget, hcreated₃, hothers⟩
  · apply hquery
  · apply hquery

/-- A statement whose target is apart from every relation. -/
def CreateApart (o : Outside) (session : SessionContext) (database schema : Option String)
    (name : String) (w : World) : Prop :=
  ∀ base, createTarget o session database schema name w.catalog = .ok base →
    ∀ key path, recorded o w.catalog.relations key = some path → Apart base path

/-- A creation apart from every relation leaves them and their objects, and the new table is
apart from them. -/
theorem after_executeCreate_apart (df : DataFusion) (statement : CreateStatement)
    (hstate : w.catalog.Namespaced) (hspread : (recorded o w.catalog.relations).Spread)
    (hapart : CreateApart o session database schema name w) :
  After (executeCreate o df session database schema name statement) w (fun _ w' =>
    w'.catalog.Namespaced ∧ Undisturbed o w w' ∧ (recorded o w'.catalog.relations).Spread)
  := by
  refine After.mono (after_executeCreate_createdAt df statement) ?_
  rintro r w' (rfl | ⟨base, htarget, ⟨hobjects, hedits, hrelations⟩, -⟩)
  · exact ⟨hstate, fun key r hr => ⟨hr, fun _ _ _ => rfl⟩, hspread⟩
  · have hothers := hapart base htarget
    refine ⟨hedits.namespaced hstate, ?_, ?_⟩
    · intro key r hr
      constructor
      · rcases hrelations with h | ⟨new, relation, hnew, h, -⟩
        · rw [h, hr]
        · rw [h, KeyMap.get_insert, if_neg, hr]
          rintro rfl
          rw [hnew] at hr
          cases hr
      · intro path rest hpath
        apply hobjects
        apply (hothers key path _).symm.not_below (List.prefix_append _ _)
        rw [recorded_of_found hr, hpath]
    · rcases hrelations with h | ⟨new, relation, hnew, h, hbase⟩
      · rw [h]
        apply hspread
      · have hrecorded : recorded o w'.catalog.relations
            = Function.update (recorded o w.catalog.relations) new (some base) := by
          funext key
          rw [recorded, h, KeyMap.get_insert, Function.update_apply]
          by_cases hkey : key = new
          · rw [if_pos hkey, if_pos hkey.symm, Option.bind_some, hbase]
          · rw [if_neg hkey, if_neg (Ne.symm hkey)]
            rfl
        rw [hrecorded]
        apply spread_update hothers hspread

end

/-! ### Runs -/

/-- The outside with other failures. -/
def Outside.withFaults (o : Outside) (storeError : Nat → Option OsError)
    (saveError : Nat → Option String) : Outside :=
  { o with
    storeError := storeError
    saveError := saveError }

/-- The steps of a run, each with its own failures: renames that are safe, creations at a path
apart from every relation, and whatever else the system does to objects and catalogue that
records no path for a relation but the one it had or one apart from the others. -/
inductive CoherentStep (o : Outside) : World → World → Prop
  | rename (storeError : Nat → Option OsError) (saveError : Nat → Option String)
      (session : SessionContext) (statement : RenameStatement) (w : World) :
      RenameSafe (o.withFaults storeError saveError) session statement w →
      CoherentStep o w
        (Eff.exec (executeRename (o.withFaults storeError saveError) session statement) w).2
  | create (storeError : Nat → Option OsError) (saveError : Nat → Option String) (df : DataFusion)
      (session : SessionContext) (database schema : Option String) (name : String)
      (statement : CreateStatement) (w : World) :
      CreateApart o session database schema name w →
      CoherentStep o w (Eff.exec (executeCreate (o.withFaults storeError saveError) df session
        database schema name statement) w).2
  | other (w w' : World) : w'.catalog.Namespaced →
      (∀ key base, recorded o w'.catalog.relations key = some base →
        recorded o w.catalog.relations key = some base
          ∨ ∀ key' base', key' ≠ key → recorded o w'.catalog.relations key' = some base' →
            Apart base base') →
      CoherentStep o w w'

/-- Failures have no part in where the relations are. -/
theorem recorded_withFaults (o : Outside) (storeError : Nat → Option OsError)
    (saveError : Nat → Option String) :
  recorded (o.withFaults storeError saveError) = recorded o
  := rfl

theorem Followed.of_withFaults {o : Outside} {storeError : Nat → Option OsError}
    {saveError : Nat → Option String} {newKey : CatalogRelation → String} {w w' : World}
    (h : Followed (o.withFaults storeError saveError) newKey w w') :
  Followed o newKey w w'
  := ⟨h.forth, h.back⟩

theorem after_executeRename_withFaults {o : Outside} {storeError : Nat → Option OsError}
    {saveError : Nat → Option String} {session : SessionContext} {statement : RenameStatement}
    {w : World} (hstate : w.catalog.Namespaced) (hspread : (recorded o w.catalog.relations).Spread)
    (hsafe : RenameSafe (o.withFaults storeError saveError) session statement w) :
  Eff.After (executeRename (o.withFaults storeError saveError) session statement) w (fun _ w' =>
    w'.catalog.Namespaced ∧ PathsCoherent o session statement w w')
  := by
  rw [← recorded_withFaults o storeError saveError] at hspread
  refine Eff.After.mono (after_executeRename hstate hspread hsafe) ?_
  rintro _ w' ⟨hstate', hfollowed, hspread'⟩
  refine ⟨hstate', ?_, hspread'⟩
  rcases hfollowed with h | h
  · exact .inl h.of_withFaults
  · exact .inr h.of_withFaults

theorem after_executeCreate_withFaults {o : Outside} {storeError : Nat → Option OsError}
    {saveError : Nat → Option String} (df : DataFusion) {session : SessionContext}
    {database schema : Option String} {name : String} (statement : CreateStatement) {w : World}
    (hstate : w.catalog.Namespaced) (hspread : (recorded o w.catalog.relations).Spread)
    (hapart : CreateApart o session database schema name w) :
  Eff.After (executeCreate (o.withFaults storeError saveError) df session database schema name
    statement) w (fun _ w' =>
      w'.catalog.Namespaced ∧ Undisturbed o w w' ∧ (recorded o w'.catalog.relations).Spread)
  := by
  rw [← recorded_withFaults o storeError saveError] at hspread
  have hapart' : CreateApart (o.withFaults storeError saveError) session database schema name w :=
    hapart
  refine Eff.After.mono (after_executeCreate_apart df statement hstate hspread hapart') ?_
  rintro _ w' ⟨hstate', hundisturbed, hspread'⟩
  exact ⟨hstate', hundisturbed, hspread'⟩

theorem coherentStep_keeps {o : Outside} {w w' : World} (hstep : CoherentStep o w w')
    (h : w.catalog.Namespaced ∧ (recorded o w.catalog.relations).Spread) :
  w'.catalog.Namespaced ∧ (recorded o w'.catalog.relations).Spread
  := by
  obtain ⟨hstate, hspread⟩ := h
  cases hstep with
  | rename storeError saveError session statement _ hsafe =>
      have hkept : Eff.After (executeRename (o.withFaults storeError saveError) session statement) w
          (fun _ w' => w'.catalog.Namespaced ∧ (recorded o w'.catalog.relations).Spread) := by
        refine Eff.After.mono (after_executeRename_withFaults hstate hspread hsafe) ?_
        rintro _ w' ⟨hstate', hcoherent⟩
        exact ⟨hstate', hcoherent.spread⟩
      exact hkept
  | create storeError saveError df session database schema name statement _ hapart =>
      have hkept : Eff.After (executeCreate (o.withFaults storeError saveError) df session database
          schema name statement) w
          (fun _ w' => w'.catalog.Namespaced ∧ (recorded o w'.catalog.relations).Spread) := by
        refine Eff.After.mono
          (after_executeCreate_withFaults df statement hstate hspread hapart) ?_
        rintro _ w' ⟨hstate', -, hspread'⟩
        exact ⟨hstate', hspread'⟩
      exact hkept
  | other _ _ hstate' hpaths =>
      refine ⟨hstate', ?_⟩
      intro key key' base base' hne hbase hbase'
      rcases hpaths key base hbase with hold | hnew
      · rcases hpaths key' base' hbase' with hold' | hnew'
        · apply hspread key key' base base' hne hold hold'
        · apply (hnew' key base hne hbase).symm
      · apply hnew key' base' hne.symm hbase'

/-- In every state that a run of safe steps reaches, no two relations are at paths of which one
lies below the other; a safe rename there, whether it returns or fails, leaves every relation
with its objects below its recorded path; and a later creation apart from every relation
leaves them all undisturbed. -/
theorem reachable_pathsCoherent (o : Outside) {w : World}
    (h : Run.Reachable Initial (CoherentStep o) w) :
  (recorded o w.catalog.relations).Spread
    ∧ (∀ storeError saveError session statement,
        RenameSafe (o.withFaults storeError saveError) session statement w →
          Eff.After (executeRename (o.withFaults storeError saveError) session statement) w
            (fun _ w' => PathsCoherent o session statement w w'))
    ∧ ∀ storeError saveError df session database schema name statement,
        CreateApart o session database schema name w →
          Eff.After (executeCreate (o.withFaults storeError saveError) df session database schema
            name statement) w (fun _ w' => Undisturbed o w w'
              ∧ (recorded o w'.catalog.relations).Spread)
  := by
  have hinv : w.catalog.Namespaced ∧ (recorded o w.catalog.relations).Spread := by
    refine Run.Reachable.invariant
      (P := fun w => w.catalog.Namespaced ∧ (recorded o w.catalog.relations).Spread) ?_ ?_ h
    · rintro w ⟨credentials, now, hw | hw⟩
      · rw [hw]
        refine ⟨initialState_namespaced _, ?_⟩
        intro key key' base base' _ hbase
        simp [recorded, bootstrapState, initialState] at hbase
      · rw [hw]
        refine ⟨initialState_namespaced _, ?_⟩
        intro key key' base base' _ hbase
        simp [recorded, freshInitState, initialState] at hbase
    · intro w w' hw hstep
      apply coherentStep_keeps hstep hw
  obtain ⟨hstate, hspread⟩ := hinv
  refine ⟨hspread, ?_, ?_⟩
  · intro storeError saveError session statement hsafe
    refine Eff.After.mono (after_executeRename_withFaults hstate hspread hsafe) ?_
    rintro _ w' ⟨-, hcoherent⟩
    apply hcoherent
  · intro storeError saveError df session database schema name statement hapart
    refine Eff.After.mono (after_executeCreate_withFaults df statement hstate hspread hapart) ?_
    rintro _ w' ⟨-, hundisturbed⟩
    apply hundisturbed

/-! ### A table in the schema of the session -/

/-- An outside in which no call fails and managed tables are kept in `/d`. -/
def sampleOutside : Outside :=
  { Outside.faultless with
    dataDir := some "/d" }

/-- The sample table at the location its name stands for. -/
def samplePlacedTable : CatalogRelation :=
  { sampleTable with
    storagePath := some "file:///d/db=postgres/schema=public/table=t" }

/-- A first install with that table added. -/
def samplePlacedWorld : World :=
  World.bootstrap.withTable samplePlacedTable
    ["file://", "d", "db=postgres", "schema=public", "table=t"]
    { schema := [⟨"k", .int64, true⟩, rowIdField], rows := sampleRows }

theorem samplePlacedWorld_relation {key : String} {r : CatalogRelation}
    (hr : samplePlacedWorld.catalog.relations[key]? = some r) :
  key = "postgres.public.t" ∧ r = samplePlacedTable
  := by
  simp only [samplePlacedWorld, World.withTable, KeyMap.get_insert] at hr
  split at hr
  · rename_i hkey
    cases hr
    exact ⟨hkey.symm, rfl⟩
  · simp [World.bootstrap, bootstrapState, initialState] at hr

theorem samplePlacedTable_base :
  samplePlacedTable.base? sampleOutside
    = some ["file://", "d", "db=postgres", "schema=public", "table=t"]
  := by decide

theorem samplePlacedWorld_namespaced :
  samplePlacedWorld.catalog.Namespaced
  := by
  apply namespaced_insert (initialState_namespaced _)
  constructor
  · rfl
  · refine ⟨postgresDatabase, ?_, ?_⟩
    · exact (KeyMap.get_insert _ _ _ _).trans (if_pos rfl)
    · decide
  · decide

theorem samplePlacedWorld_reachable :
  Run.Reachable Initial (CoherentStep sampleOutside) samplePlacedWorld
  := by
  refine .step (s := World.bootstrap) (.start ?_) (.other _ _ samplePlacedWorld_namespaced ?_)
  · use fun _ => ⟨"", "", ""⟩, fun _ => 0
    left
    rfl
  · intro key base hbase
    right
    intro key' base' hne hbase'
    obtain ⟨r, hr, -⟩ := recorded_eq_some.mp hbase
    obtain ⟨r', hr', -⟩ := recorded_eq_some.mp hbase'
    have hkey := (samplePlacedWorld_relation hr).1
    have hkey' := (samplePlacedWorld_relation hr').1
    exact absurd (hkey'.trans hkey.symm) hne

/-- `ALTER TABLE t RENAME TO u` is safe there. -/
theorem samplePlacedWorld_renameSafe :
  RenameSafe sampleOutside {} (.ofTable none none "t" "u") samplePlacedWorld
  := by
  have hpaths : ((RenameStatement.ofTable none none "t" "u").move {} samplePlacedTable).paths
        sampleOutside
      = some (["file://", "d", "db=postgres", "schema=public", "table=t"],
        ["file://", "d", "db=postgres", "schema=public", "table=u"]) := by
    decide
  constructor
  · intro _
    constructor
    · rintro r old new ⟨⟨key, hr⟩, -⟩ h
      obtain ⟨-, rfl⟩ := samplePlacedWorld_relation hr
      rw [hpaths] at h
      cases h
      refine ⟨rfl, ?_⟩
      intro key base hbase
      obtain ⟨r, hr, hbase⟩ := recorded_eq_some.mp hbase
      obtain ⟨-, rfl⟩ := samplePlacedWorld_relation hr
      rw [samplePlacedTable_base] at hbase
      cases hbase
      unfold Apart
      decide
    · rintro r r' old new old' new' ⟨⟨key, hr⟩, -⟩ ⟨⟨key', hr'⟩, -⟩ hne
      obtain ⟨-, rfl⟩ := samplePlacedWorld_relation hr
      obtain ⟨-, rfl⟩ := samplePlacedWorld_relation hr'
      exact absurd rfl hne
    · intro _ _ _ _
      trivial
    · intro _ _ _ _ n
      rfl
  · intro _ old new h
    cases h

theorem reachable_pathsCoherent_renameTable :
  RenameSafe sampleOutside {} (.ofTable none none "t" "u") samplePlacedWorld
    ∧ Eff.After (executeRename sampleOutside {} (.ofTable none none "t" "u")) samplePlacedWorld
      (fun _ w' =>
        PathsCoherent sampleOutside {} (.ofTable none none "t" "u") samplePlacedWorld w')
  := ⟨samplePlacedWorld_renameSafe,
    (reachable_pathsCoherent sampleOutside samplePlacedWorld_reachable).2.1 (fun _ => none)
      (fun _ => none) {} (.ofTable none none "t" "u") samplePlacedWorld_renameSafe⟩

/-- `ALTER SCHEMA public RENAME TO sales`, in a session whose schema is `public`: the objects
of the table move, and then its new location is not recorded. -/
theorem executeRename_loses_table :
  Run.Reachable Initial (CoherentStep sampleOutside) samplePlacedWorld
    ∧ ¬ Eff.After (executeRename sampleOutside {} (.ofSchema none "public" "sales"))
      samplePlacedWorld (fun _ w' =>
        PathsCoherent sampleOutside {} (.ofSchema none "public" "sales") samplePlacedWorld w')
  := by
  refine ⟨samplePlacedWorld_reachable, ?_⟩
  have hafter : ∃ w', (Eff.exec (executeRename sampleOutside {} (.ofSchema none "public" "sales"))
      samplePlacedWorld).2 = w'
        ∧ w'.catalog.relations["postgres.public.t"]? = none
        ∧ w'.catalog.relations["postgres.sales.t"]?.map (·.storagePath)
          = some samplePlacedTable.storagePath
        ∧ w'.store[manifestKey ["file://", "d", "db=postgres", "schema=public", "table=t"]]? = none
      := ⟨_, rfl, by decide +kernel⟩
  obtain ⟨w', hw', hold, hnew, hmanifest⟩ := hafter
  rw [Eff.After, hw']
  rintro ⟨hfollowed | hfollowed, -⟩
  · -- the table is not found under its old name
    obtain ⟨r', hr', -⟩ := hfollowed.forth "postgres.public.t" samplePlacedTable (by decide)
    have hkey : samplePlacedTable.key = "postgres.public.t" := by decide
    rw [hkey, hold] at hr'
    cases hr'
  · -- its manifest is not below the path recorded under the new name
    obtain ⟨r', hr', hobjects⟩ :=
      hfollowed.forth "postgres.public.t" samplePlacedTable (by decide)
    obtain ⟨base', hbase', hobjects⟩ := hobjects _ samplePlacedTable_base
    have hkey : (RenameStatement.ofSchema none "public" "sales").newKey {} samplePlacedTable
        = "postgres.sales.t" := by decide
    rw [hkey] at hr'
    rw [hr', Option.map_some] at hnew
    have hbase : r'.base? sampleOutside = samplePlacedTable.base? sampleOutside := by
      rw [CatalogRelation.base?, Option.some.inj hnew]
      rfl
    rw [hbase, samplePlacedTable_base] at hbase'
    cases hbase'
    obtain ⟨obj, hobj⟩ : ∃ obj, samplePlacedWorld.store[manifestKey
        ["file://", "d", "db=postgres", "schema=public", "table=t"]]? = some obj := by
      rw [samplePlacedWorld, World.withTable, ObjectStore.get_insert, if_pos rfl]
      exact ⟨_, rfl⟩
    have hthere := hobjects ["meta", "manifest.json"] obj (by decide) hobj
    rw [manifestKey] at hmanifest
    rw [hmanifest] at hthere
    cases hthere
