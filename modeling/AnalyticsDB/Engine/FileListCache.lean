import AnalyticsDB.Engine.Mutations
import AnalyticsDB.Engine.RenameRuns

/-!
# The cache of file lists

A distributed SELECT takes the files of its table from a cache.  The cache is keyed by the name
of the table, and an entry is valid as long as the epoch of its key is the one it was made in.
Only INSERTs of a query result begin a new epoch; every other statement leaves the cache alone.
What is proved is over which runs of statements a SELECT still obtains the files its table has.
-/

/-- A file of a table, with its size and its number of rows. -/
abbrev ListedFile := OPath × Nat × Nat

/-- The cached lists with the epochs they were made in, and the epochs of the keys. -/
structure FileListCache where
  cache : KeyMap (Nat × List ListedFile)
  epochs : KeyMap Nat
  /-- No list was made in an epoch to come. -/
  bounded : ∀ (key : String) (epoch : Nat) (files : List ListedFile),
    cache[key]? = some (epoch, files) → epoch ≤ epochs[key]?.getD 0

namespace FileListCache

/-- The cache of an engine that was just started. -/
def new : FileListCache :=
  { cache := ∅
    epochs := ∅
    bounded := by
      intro key epoch files h
      simp at h }

/-- The current epoch of a key. -/
def currentEpoch (c : FileListCache) (key : String) : Nat := c.epochs[key]?.getD 0

/-- The list cached for a key in its current epoch. -/
def cached (c : FileListCache) (key : String) : Option (List ListedFile) :=
  match c.cache[key]? with
  | some (epoch, files) => if epoch = c.currentEpoch key then some files else none
  | none => none

/-- Cache a list in the current epoch of its key. -/
def fill (c : FileListCache) (key : String) (files : List ListedFile) : FileListCache :=
  { c with
    cache := c.cache.insert key (c.currentEpoch key, files)
    bounded := by
      intro key' epoch files' h
      rw [KeyMap.get_insert] at h
      split at h
      · rename_i hkey
        obtain rfl := hkey
        cases h
        exact Nat.le_refl _
      · exact c.bounded _ _ _ h }

/-- Begin a new epoch of a key. -/
def invalidate (c : FileListCache) (key : String) : FileListCache :=
  { c with
    epochs := c.epochs.insert key (match c.epochs[key]? with
      | some epoch => epoch + 1
      | none => 1)
    bounded := by
      intro key' epoch files h
      have hle := c.bounded _ _ _ h
      rw [KeyMap.get_insert]
      split
      · rename_i hkey
        obtain rfl := hkey
        cases hepoch : c.epochs[key]? with
        | none =>
            rw [hepoch] at hle
            exact Nat.le_succ_of_le hle
        | some current =>
            rw [hepoch] at hle
            exact Nat.le_succ_of_le hle
      · exact hle }

theorem cached_fill (c : FileListCache) (key key' : String) (files : List ListedFile) :
  (c.fill key files).cached key' = if key = key' then some files else c.cached key'
  := by
  unfold cached currentEpoch fill
  dsimp only
  rw [KeyMap.get_insert]
  by_cases hkey : key = key'
  · subst hkey
    simp [currentEpoch]
  · rw [if_neg hkey, if_neg hkey]

theorem cached_invalidate (c : FileListCache) (key key' : String) :
  (c.invalidate key).cached key' = if key = key' then none else c.cached key'
  := by
  unfold cached currentEpoch invalidate
  dsimp only
  rw [KeyMap.get_insert]
  by_cases hkey : key = key'
  · subst hkey
    rw [if_pos rfl, if_pos rfl]
    cases hentry : c.cache[key]? with
    | none => rfl
    | some entry =>
        obtain ⟨epoch, files⟩ := entry
        have hle := c.bounded _ _ _ hentry
        dsimp only
        rw [if_neg]
        cases hepoch : c.epochs[key]? with
        | none =>
            rw [hepoch] at hle
            simp only [Option.getD_some, Option.getD_none] at hle ⊢
            omega
        | some current =>
            rw [hepoch] at hle
            simp only [Option.getD_some] at hle ⊢
            omega
  · rw [if_neg hkey, if_neg hkey]

end FileListCache

/-- An engine: the state of the system, and its cache of file lists. -/
structure EngineState where
  world : World
  fileListCache : FileListCache

/-- An operation of an engine. -/
abbrev EngineOp (α : Type) := Eff EngineState Failure α

/-- An operation that does not use the cache. -/
def onWorld {α : Type} (m : Op α) : EngineOp α :=
  Eff.zoom (·.world) (fun w s => { s with world := w }) m

def invalidateFileList (relation : CatalogRelation) : EngineOp Unit :=
  modify (fun s => { s with fileListCache := s.fileListCache.invalidate relation.key })

/-- What a worker of a distributed insert does: the files it writes, and whether the coordinator
hears of it. -/
structure WorkerRun where
  files : List RecordBatch
  acknowledged : Bool

/-- What the query of an insert reads. -/
inductive InsertSource where
  | generateSeries
  | table (database schema : Option String) (name : String)
  | other

/-- `INSERT INTO name [(columns)] query`, with the workers the cluster has for each attempt to
distribute it. -/
structure InsertSelect where
  database : Option String
  schema : Option String
  name : String
  columns : Option (List String)
  querySql : String
  source : InsertSource
  attempts : List (Except String (List WorkerRun))

section

variable (o : Outside) (df : DataFusion) (x : Execution)

/-- The entry of a file in the list of a table. -/
def listedEntry (base : OPath) (entry : ManifestEntry) : ListedFile :=
  (localKey (entry.key base), entry.size, entry.rowCount)

/-- The Parquet files directly below a path. -/
def listedDirectory (store : ObjectStore) (base : OPath) : List ListedFile :=
  ((store.below base).filter (fun (key, _) => match key.drop base.length with
    | [fileName] => isParquetName fileName
    | _ => false)).map (fun (key, obj) => (localKey key, x.objectSize obj, 0))

/-- List the files of a table with their sizes and numbers of rows. -/
def listFilesWithSizesAndRows (base : OPath) : Op (List ListedFile) := do
  match ← readManifest o base with
  | some manifest => return manifest.files.map (listedEntry base)
  | none =>
    match ← storeFault o with
    | some .notFound => return []
    | some e => bail e.message
    | none => return listedDirectory x (← get).store base

/-- The list of files cached for a table, or a new one. -/
def getOrList (key : String) (base : OPath) : EngineOp (List ListedFile) := do
  match (← get).fileListCache.cached key with
  | some files => return files
  | none => do
    let files ← onWorld (listFilesWithSizesAndRows o x base)
    modify (fun s => { s with fileListCache := s.fileListCache.fill key files })
    return files

/-- The files of the table a SELECT names, when the table is one of the catalogue with a
location. -/
def distributedFiles (session : SessionContext) (database schema : Option String)
    (name : String) : EngineOp (Option (List ListedFile)) := do
  match ← onWorld (Eff.attempt (tableRelation session database schema name)) with
  | .error _ => return none
  | .ok relation =>
    match relation.storagePath with
    | none => return none
    | some location => do
      let base ← onWorld (orBail (storeForLocation o location))
      let files ← getOrList o x relation.key base
      return some files

/-! ### Inserts of a query result -/

/-- A worker writes its files directly below the path of the table; a write that fails ends its
work without acknowledgement. -/
def writeWorkerFiles (base : OPath) (attempt : String) :
    List RecordBatch → Op (Except OsError (List OPath))
  | [] => pure (.ok [])
  | file :: files => do
    let n ← outsideCall
    let key := base ++ [attempt ++ "__" ++ o.uuid n ++ ".parquet"]
    match ← storePut o key (.parquet file) .overwrite with
    | .error e => return .error e
    | .ok _ =>
      match ← writeWorkerFiles base attempt files with
      | .error e => return .error e
      | .ok keys => return .ok (key :: keys)

/-- The files of the workers the coordinator hears of, and whether these are all. -/
def dispatchWorkers (base : OPath) (attempt : String) :
    List WorkerRun → Op (List OPath × Bool)
  | [] => pure ([], true)
  | worker :: workers => do
    let written ← writeWorkerFiles o base attempt worker.files
    let (keys, complete) ← dispatchWorkers base attempt workers
    match written, worker.acknowledged with
    | .ok written, true => return (written ++ keys, complete)
    | _, _ => return (keys, false)

/-- Reject the files of a distributed insert with keys that an index already has, or has twice. -/
def validateFilesAgainstIndex (relation : CatalogRelation) (base : OPath)
    (files : List RecordBatch) (index : CatalogIndex) : Op Unit := do
  queryFault df
  if !files.all (hasIndexColumns index) then
    bail "Schema error: No field named"
  if hasDuplicates (files.flatMap (batchKeys index)) then
    bail s!"Unique index '{index.name}' on '{relation.database}.{relation.schema}.{relation.name}' would contain duplicate keys across distributed partitions"
  match ← readIndexSnapshot o base index with
  | none => pure ()
  | some snapshot =>
    if meetsSnapshot index snapshot (files.flatMap (batchKeys index)) then
      bail s!"Unique index '{index.name}' on '{relation.database}.{relation.schema}.{relation.name}' would conflict with existing rows"

def validateUniquenessAcrossNewFiles (relation : CatalogRelation) (base : OPath)
    (files : List RecordBatch) : List CatalogIndex → Op Unit
  | [] => pure ()
  | index :: indexes => do
    (if (index.isUnique || index.isPrimary) && !files.isEmpty then
        validateFilesAgainstIndex o df relation base files index
      else
        pure ())
    validateUniquenessAcrossNewFiles relation base files indexes

/-- One attempt to distribute an insert, which returns the number of rows, and nothing when it is
to be tried again. -/
def distributeInsert (session : SessionContext) (relation : CatalogRelation) (base : OPath)
    (attempt : String) (workers : List WorkerRun) : Op (Option Nat) := do
  let (written, complete) ← dispatchWorkers o base attempt workers
  if complete then
    match ← Eff.attempt (validateUniquenessAcrossNewFiles o df relation base
        (workers.flatMap (·.files)) relation.indexes) with
    | .error e =>
      let _ ← Eff.attempt (deleteObjects o written)
      throw e
    | .ok _ =>
      refreshIndexSnapshotsAfterMutation o df session relation
      return some ((workers.flatMap (·.files)).map (·.rows.length)).sum
  else
    let _ ← Eff.attempt (deleteObjects o written)
    return none

/-- Distribute an insert, and try again while a worker fails: none when it has to be executed by
the coordinator alone. -/
def runDistributedInsert (session : SessionContext) (relation : CatalogRelation) (base : OPath) :
    Nat → Nat → List (Except String (List WorkerRun)) → EngineOp (Option DmlOutcome)
  | 0, _, _ | _, _, [] | _, _, .ok [] :: _ => pure none
  | _, _, .error message :: _ => onWorld (bail message)
  | remaining + 1, attempt, .ok (worker :: workers) :: attempts => do
    let n ← onWorld outsideCall
    match ← onWorld (distributeInsert o df session relation base (o.uuid n)
        (worker :: workers)) with
    | some rowCount => do
      invalidateFileList relation
      let nodes := workers.length + 1
      return some
        { message := s!"Distributed insert: {rowCount} row(s) inserted into '{relation.database}.{relation.schema}.{relation.name}' via {nodes} node(s) (attempt {attempt})."
          rowCount := rowCount }
    | none => runDistributedInsert session relation base remaining (attempt + 1) attempts

/-- Try to distribute an insert: none when it has to be executed by the coordinator alone. -/
def tryDistributedInsert (session : SessionContext) (insert : InsertSelect) :
    EngineOp (Option DmlOutcome) := do
  match ← onWorld (Eff.attempt
      (tableRelation session insert.database insert.schema insert.name)) with
  | .error _ => return none
  | .ok relation =>
    match relation.storagePath with
    | none => return none
    | some location =>
      let run := do
        let base ← onWorld (orBail (storeForLocation o location))
        runDistributedInsert o df session relation base 3 1 insert.attempts
      match insert.source with
      | .generateSeries => run
      | .other => return none
      | .table database schema name => do
        match ← distributedFiles o x session database schema name with
        | none => return none
        | some [] =>
          return some
            { message := s!"Inserted 0 row(s) into '{relation.database}.{relation.schema}.{relation.name}' (source table is empty)."
              rowCount := 0 }
        | some (_ :: _) => run

/-- Insert the rows of a query, and return the table they went to when the coordinator inserted
them. -/
def insertSelectRows (session : SessionContext) (insert : InsertSelect) :
    EngineOp (DmlOutcome × Option CatalogRelation) := do
  match ← tryDistributedInsert o df x session insert with
  | some outcome => return (outcome, none)
  | none => do
    let relation ← onWorld (tableRelation session insert.database insert.schema insert.name)
    let base ← onWorld (tableStorePrefix o relation)
    let rowCount ← onWorld (insertSelected o df x relation base insert.columns insert.querySql)
    invalidateFileList relation
    return ({ message :=
      s!"Inserted {rowCount} row(s) into '{relation.database}.{relation.schema}.{relation.name}'."
              rowCount := rowCount }, some relation)

def executeInsertSelect (session : SessionContext) (insert : InsertSelect) :
    EngineOp DmlOutcome := do
  let (outcome, inserted) ← insertSelectRows o df x session insert
  match inserted with
  | none => return outcome
  | some relation => do
    onWorld (rebuildAllIndexSnapshots o df session relation)
    return outcome

/-! ### Statements -/

/-- The statements on tables. -/
inductive TableStatement where
  | select (database schema : Option String) (name : String)
  | insertInto (database schema : Option String) (name : String) (columns : Option (List String))
      (rows : List (List String))
  | insertSelect (insert : InsertSelect)
  | update (database schema : Option String) (name : String)
      (assignments : List (String × String)) (selection : Option String)
  | delete (database schema : Option String) (name : String) (selection : Option String)
  | truncate (database schema : Option String) (name : String)
  | vacuum (database schema : Option String) (name : String)
  | dropTable (database schema : Option String) (name : String) (ifExists : Bool)
  | create (database schema : Option String) (name : String) (statement : CreateStatement)
  | rename (statement : RenameStatement)

/-- Execute a statement. -/
def executeStatement (session : SessionContext) : TableStatement → EngineOp Unit
  | .select database schema name => do
    let _ ← distributedFiles o x session database schema name
  | .insertInto database schema name columns rows => do
    let _ ← onWorld (executeInsertInto o df x session database schema name columns rows)
  | .insertSelect insert => do
    let _ ← executeInsertSelect o df x session insert
  | .update database schema name assignments selection => do
    let _ ← onWorld (executeUpdate o df session database schema name assignments selection)
  | .delete database schema name selection => do
    let _ ← onWorld (executeDelete o df session database schema name selection)
  | .truncate database schema name => do
    let _ ← onWorld (executeTruncate o df session database schema name)
  | .vacuum database schema name => do
    let _ ← onWorld (executeVacuumTable o x session database schema name)
  | .dropTable database schema name ifExists => do
    let _ ← onWorld (executeDropTable o session database schema name ifExists)
  | .create database schema name statement => do
    let _ ← onWorld (executeCreate o df session database schema name statement)
  | .rename statement => do
    let _ ← onWorld (executeRename o session statement)

/-- The state after a statement, whether it succeeds or not. -/
def afterStatement (request : SessionContext × TableStatement) (s : EngineState) : EngineState :=
  (Eff.exec (executeStatement o df x request.1 request.2) s).2

/-! ### Statements in time -/

/-- The files of the table at `base`, if its manifest can be read. -/
def currentFiles (store : ObjectStore) (base : OPath) : Option (List ListedFile) :=
  match store[manifestKey base]? with
  | some (.manifest manifest) => some (manifest.files.map (listedEntry base))
  | some _ => none
  | none => some (listedDirectory x store base)

/-- The key of the table a statement names. -/
def namedKey (session : SessionContext) (database schema : Option String) (name : String) :
    String :=
  relationKey (database.getD session.database) (schema.getD session.schema) name

/-- A table of the catalogue and its path. -/
structure TableAt (w : World) (key : String) (relation : CatalogRelation) (base : OPath) :
    Prop where
  found : w.catalog.relations[key]? = some relation
  located : relation.base? o = some base

/-- The tables with cached lists, but for those that are spared, are apart from a path. -/
def CachedApart (s : EngineState) (spared : String → Prop) (base : OPath) : Prop :=
  ∀ key relation other, TableAt o s.world key relation other →
    s.fileListCache.cached key ≠ none → ¬ spared key → Apart other base

/-- A list is cached for a table, or it can be made without a failing call. -/
def Listable (s : EngineState) (key : String) : Prop :=
  s.fileListCache.cached key ≠ none
    ∨ o.storeError s.world.calls = none ∧ o.storeError (s.world.calls + 1) = none

/-- The key of the table an insert names. -/
def InsertSelect.targetKey (insert : InsertSelect) (session : SessionContext) : String :=
  namedKey session insert.database insert.schema insert.name

/-- The key of the table whose files the workers of an insert read. -/
def InsertSelect.SourceKey (insert : InsertSelect) (session : SessionContext) (key : String) :
    Prop :=
  ∃ database schema name, insert.source = .table database schema name
    ∧ key = namedKey session database schema name

/-- The key of a relation that a rename covers. -/
def Covered (w : World) (session : SessionContext) (statement : RenameStatement) (key : String) :
    Prop :=
  ∃ relation, w.catalog.relations[key]? = some relation
    ∧ statement.covers session relation = true

/-- A statement that comes in time for the cache: no list is cached for a table whose files it
changes without beginning a new epoch, and the lists it caches are made without a failing
call. -/
def InTime (s : EngineState) (session : SessionContext) : TableStatement → Prop
  | .select database schema name => ∀ relation base,
    TableAt o s.world (namedKey session database schema name) relation base →
      Listable o s (namedKey session database schema name)
  | .insertInto database schema name _ _ | .update database schema name _ _
  | .delete database schema name _ | .truncate database schema name
  | .vacuum database schema name => ∀ relation base,
    TableAt o s.world (namedKey session database schema name) relation base →
      CachedApart o s (fun _ => False) base
  | .insertSelect insert =>
    (∀ key relation base, insert.SourceKey session key → TableAt o s.world key relation base →
      Listable o s key)
    ∧ ∀ relation base, TableAt o s.world (insert.targetKey session) relation base →
      CachedApart o s (· = insert.targetKey session) base
        ∧ (∀ key source other, insert.SourceKey session key → key ≠ insert.targetKey session →
          TableAt o s.world key source other → Apart other base)
        ∧ (s.fileListCache.cached (insert.targetKey session) = none
            ∧ ¬ insert.SourceKey session (insert.targetKey session)
          ∨ ∃ outcome, (Eff.exec (insertSelectRows o df x session insert) s).1 = .ok outcome)
  | .dropTable database schema name _ => ∀ relation base,
    TableAt o s.world (namedKey session database schema name) relation base →
      relation.externalFormat = none →
        CachedApart o s (· = namedKey session database schema name) base
          ∧ (s.fileListCache.cached (namedKey session database schema name) = none
            ∨ (Eff.exec (deleteManagedObjects o relation) s.world).1 = .ok ())
  | .create database schema name _ => ∀ base,
    createTarget o session database schema name s.world.catalog = .ok base →
      CachedApart o s (fun _ => False) base
        ∧ (s.world.catalog.relations[namedKey session database schema name]? = none →
          s.fileListCache.cached (namedKey session database schema name) = none)
  | .rename statement =>
    (∀ (key : String) (relation : CatalogRelation),
      s.world.catalog.relations[key]? = some relation →
      statement.covers session relation = true →
        s.fileListCache.cached (statement.newKey session relation) = none)
    ∧ (∀ relation old new, Moves session statement s.world relation →
        (statement.move session relation).paths o = some (old, new) →
          CachedApart o s (Covered s.world session statement) old
            ∧ CachedApart o s (Covered s.world session statement) (old.take 1 ++ new.drop 1))
    ∧ ∀ old new, RenamesDirectory o statement s.world old new →
        CachedApart o s (Covered s.world session statement) old
          ∧ CachedApart o s (Covered s.world session statement) new

end

/-! ### Lists that are up to date -/

section

open Eff

variable {o : Outside} {df : DataFusion} {x : Execution}

theorem after_onWorld {α : Type} {m : Op α} {s : EngineState}
    {Q : Except Failure α → EngineState → Prop} :
  After (onWorld m) s Q ↔ After m s.world (fun r w => Q r { s with world := w })
  := by
  unfold After onWorld
  rw [exec_zoom]

/-- The files of a table depend on the objects below its path only. -/
theorem currentFiles_congr {store store' : ObjectStore} {base : OPath}
    (h : ∀ key, base <+: key → store'[key]? = store[key]?) :
  currentFiles x store' base = currentFiles x store base
  := by
  unfold currentFiles listedDirectory
  rw [h (manifestKey base) (List.prefix_append _ _), ObjectStore.below_congr h]

/-- The catalogue is in order, and the lists that are cached are those of the tables. -/
structure ListsCurrent (o : Outside) (x : Execution) (s : EngineState) : Prop where
  namespaced : s.world.catalog.Namespaced
  current : ∀ key relation base files, TableAt o s.world key relation base →
    s.fileListCache.cached key = some files → currentFiles x s.world.store base = some files

/-- The tables with lists in a cache are at `w'` where they were at `w`, with their objects. -/
def KeepsListed (o : Outside) (c : FileListCache) (w w' : World) : Prop :=
  ∀ key relation' base, TableAt o w' key relation' base → c.cached key ≠ none →
    (∃ relation, TableAt o w key relation base)
      ∧ ∀ object, base <+: object → w'.store[object]? = w.store[object]?

/-- Lists stay up to date as long as nothing is added to the cache and the listed tables are
kept. -/
theorem ListsCurrent.of_kept {s s' : EngineState} (h : ListsCurrent o x s)
    (hnamespaced : s'.world.catalog.Namespaced)
    (hcache : ∀ key files, s'.fileListCache.cached key = some files →
      s.fileListCache.cached key = some files)
    (hkept : KeepsListed o s'.fileListCache s.world s'.world) :
  ListsCurrent o x s'
  := by
  refine ⟨hnamespaced, ?_⟩
  intro key relation' base files hat hfiles
  have hne : s'.fileListCache.cached key ≠ none := by
    rw [hfiles]
    nofun
  obtain ⟨⟨relation, hbefore⟩, hobjects⟩ := hkept key relation' base hat hne
  rw [currentFiles_congr hobjects]
  exact h.current key relation base files hbefore (hcache key files hfiles)

/-- A change of objects that are apart from the listed tables keeps them. -/
theorem keepsListed_of_frame {c : FileListCache} {w w' : World} {touched : OPath → Prop}
    (hframe : Frame touched w w')
    (hapart : ∀ key relation base, TableAt o w key relation base → c.cached key ≠ none →
      ∀ object, base <+: object → ¬ touched object) :
  KeepsListed o c w w'
  := by
  intro key relation base hat hcached
  have hbefore : TableAt o w key relation base := by
    refine ⟨?_, hat.located⟩
    rw [← hframe.catalog]
    exact hat.found
  refine ⟨⟨relation, hbefore⟩, ?_⟩
  intro object hobject
  exact hframe.store object (hapart key relation base hbefore hcached object hobject)

theorem CachedApart.not_below {s : EngineState} {spared : String → Prop} {base : OPath}
    (h : CachedApart o s spared base) {key : String} {relation : CatalogRelation} {other : OPath}
    (hat : TableAt o s.world key relation other) (hcached : s.fileListCache.cached key ≠ none)
    (hspared : ¬ spared key) {object : OPath} (hobject : other <+: object) :
  ¬ base <+: object
  := (h key relation other hat hcached hspared).not_below hobject

/-! ### Statements on one table -/

/-- A statement that resolves its table and then changes objects below its path. -/
theorem onTable_modifies {α : Type} {session : SessionContext} {database schema : Option String}
    {name : String} {w : World} {body : CatalogRelation → OPath → Op α}
    (hbody : ∀ relation base, relation.base? o = some base →
      ModifiesOnly (base <+: ·) (body relation base)) :
  After (do
    let relation ← tableRelation session database schema name
    let base ← tableStorePrefix o relation
    body relation base) w (fun _ w' => Frame (fun key => ∃ relation base,
      TableAt o w (namedKey session database schema name) relation base ∧ base <+: key) w w')
  := by
  rw [after_bind]
  apply After.mono (after_tableRelation database schema name)
  rintro r w₁ ⟨rfl, hrelation⟩
  cases r with
  | error e => apply Frame.refl
  | ok relation =>
      obtain ⟨-, hfound⟩ := hrelation relation rfl
      rw [resume_ok, after_bind]
      apply After.mono (after_tableStorePrefix relation)
      rintro r w₂ ⟨rfl, hbase⟩
      cases r with
      | error e => apply Frame.refl
      | ok base =>
          have hlocated := hbase base rfl
          rw [resume_ok]
          apply After.mono (hbody relation base hlocated w₂)
          intro r w' hframe
          apply hframe.mono
          intro key hkey
          exact ⟨relation, base, ⟨hfound, hlocated⟩, hkey⟩

variable {s : EngineState} {session : SessionContext} {database schema : Option String}
  {name : String}

/-- A statement on a table without cached lists near it keeps the lists up to date. -/
theorem ListsCurrent.onTable {α : Type} (h : ListsCurrent o x s) {m : Op α}
    (hapart : ∀ relation base,
      TableAt o s.world (namedKey session database schema name) relation base →
        CachedApart o s (fun _ => False) base)
    (hm : After m s.world (fun _ w' => Frame (fun object => ∃ relation base,
      TableAt o s.world (namedKey session database schema name) relation base
        ∧ base <+: object) s.world w')) :
  After (do let _ ← onWorld m; pure () : EngineOp Unit) s (fun _ => ListsCurrent o x)
  := by
  rw [after_bind, after_onWorld]
  apply After.mono hm
  intro r w' hframe
  have hcurrent : ListsCurrent o x { s with world := w' } := by
    apply h.of_kept
    · rw [hframe.catalog]
      exact h.namespaced
    · exact fun _ _ hfiles => hfiles
    · apply keepsListed_of_frame hframe
      rintro key relation base hat hcached object hobject ⟨target, path, htarget, hbelow⟩
      exact (hapart target path htarget).not_below hat hcached not_false hobject hbelow
  cases r with
  | ok _ => exact hcurrent
  | error e => exact hcurrent

theorem after_executeUpdate_frame (assignments : List (String × String))
    (selection : Option String) {w : World} :
  After (executeUpdate o df session database schema name assignments selection) w (fun _ w' =>
    Frame (fun object => ∃ relation base,
      TableAt o w (namedKey session database schema name) relation base ∧ base <+: object) w w')
  := by
  apply onTable_modifies
  intro relation base hbase
  apply ModifiesOnly.bind (queryFault_modifies df _)
  intro _
  apply ModifiesOnly.bind (scanTable_modifies o df _ session relation)
  intro scan
  apply ModifiesOnly.guard
  apply ModifiesOnly.bind (ModifiesOnly.orBail _)
  intro updated
  apply ModifiesOnly.bind (ModifiesOnly.orBail _)
  intro _
  apply ModifiesOnly.bind ((writeDataframeToTableSnapshot_modifies o df _ _ base).mono
    (fun _ => snapshotKey_below))
  intro rowCount
  apply ModifiesOnly.bind (refreshIndexSnapshotsAfterMutation_below o df session hbase)
  intro _
  apply ModifiesOnly.pure

theorem after_executeDelete_frame (selection : Option String) {w : World} :
  After (executeDelete o df session database schema name selection) w (fun _ w' =>
    Frame (fun object => ∃ relation base,
      TableAt o w (namedKey session database schema name) relation base ∧ base <+: object) w w')
  := by
  apply onTable_modifies
  intro relation base hbase
  apply ModifiesOnly.bind (queryFault_modifies df _)
  intro _
  apply ModifiesOnly.bind (scanTable_modifies o df _ session relation)
  intro scan
  apply ModifiesOnly.bind (ModifiesOnly.orBail _)
  intro remaining
  apply ModifiesOnly.bind ((writeDataframeToTableSnapshot_modifies o df _ _ base).mono
    (fun _ => snapshotKey_below))
  intro rowCount
  apply ModifiesOnly.bind (refreshIndexSnapshotsAfterMutation_below o df session hbase)
  intro _
  apply ModifiesOnly.pure

theorem after_executeInsertInto_frame (columns : Option (List String))
    (rows : List (List String)) {w : World} :
  After (executeInsertInto o df x session database schema name columns rows) w (fun _ w' =>
    Frame (fun object => ∃ relation base,
      TableAt o w (namedKey session database schema name) relation base ∧ base <+: object) w w')
  := by
  apply onTable_modifies
  intro relation base hbase
  dsimp only
  split
  · apply ModifiesOnly.bail
  · apply ModifiesOnly.bind (buildRecordBatchFromRows_modifies o x _ _ _ _ _)
    intro batch
    apply ModifiesOnly.bind (prepareBatchForStorage_modifies o _ _)
    intro prepared
    apply ModifiesOnly.bind (validateBatchAgainstTableUniqueness_modifies o df _ relation _ _)
    intro _
    apply ModifiesOnly.bind (appendBatch_below o prepared)
    intro _
    apply ModifiesOnly.bind (refreshIndexSnapshotsAfterMutation_below o df session hbase)
    intro _
    apply ModifiesOnly.pure

theorem after_executeTruncate_frame {w : World} :
  After (executeTruncate o df session database schema name) w (fun _ w' =>
    Frame (fun object => ∃ relation base,
      TableAt o w (namedKey session database schema name) relation base ∧ base <+: object) w w')
  := by
  apply onTable_modifies
  intro relation base hbase
  apply ModifiesOnly.bind ((persistEmptyTableSnapshot_modifies o base _).mono
    (fun _ => snapshotKey_below))
  intro _
  apply ModifiesOnly.bind (refreshIndexSnapshotsAfterMutation_below o df session hbase)
  intro _
  apply ModifiesOnly.pure

theorem after_executeVacuumTable_frame {w : World} :
  After (executeVacuumTable o x session database schema name) w (fun _ w' =>
    Frame (fun object => ∃ relation base,
      TableAt o w (namedKey session database schema name) relation base ∧ base <+: object) w w')
  := by
  apply onTable_modifies
  intro relation base _
  apply ModifiesOnly.bind (compactTable_below o x _ _)
  intro _
  apply ModifiesOnly.pure

/-! ### SELECT -/

/-- Listing the files of a table changes nothing. -/
theorem listFilesWithSizesAndRows_modifies (touched : OPath → Prop) (base : OPath) :
  ModifiesOnly touched (listFilesWithSizesAndRows o x base)
  := by
  apply ModifiesOnly.bind (readManifest_modifies o touched base)
  intro manifest
  cases manifest with
  | some manifest => apply ModifiesOnly.pure
  | none =>
      apply ModifiesOnly.bind (storeFault_modifies o touched)
      intro fault
      split
      · apply ModifiesOnly.pure
      · apply ModifiesOnly.bail
      · apply ModifiesOnly.bind ModifiesOnly.get
        intro w
        apply ModifiesOnly.pure

/-- A list that is made without a failing call is that of the table. -/
theorem listFilesWithSizesAndRows_returns {w : World} {base : OPath}
    (hget : o.storeError w.calls = none) (hnext : o.storeError (w.calls + 1) = none) :
  Returns (listFilesWithSizesAndRows o x base) w (fun files _ =>
    currentFiles x w.store base = some files)
  := by
  unfold currentFiles
  simp only [listFilesWithSizesAndRows, readManifest, readManifestVersioned, storeGet, storeFault,
    returns_bind, returns_outsideCall, returns_pure, returns_get, hget]
  cases hobj : w.store[manifestKey base]? with
  | none => simp only [returns_bind, returns_outsideCall, returns_pure, returns_get, hnext]
  | some obj =>
      cases obj with
      | manifest manifest => simp [hnext]
      | parquet file => simp [hnext]
      | other text => simp [hnext]

/-- Lists stay up to date while nothing changes. -/
theorem ListsCurrent.of_frame (h : ListsCurrent o x s) {w' : World}
    (hframe : Frame (fun _ => False) s.world w') :
  ListsCurrent o x { s with world := w' }
  := by
  apply h.of_kept
  · rw [hframe.catalog]
    exact h.namespaced
  · exact fun _ _ hfiles => hfiles
  · apply keepsListed_of_frame hframe
    exact fun _ _ _ _ _ _ _ => not_false

/-- A list that is up to date may be cached. -/
theorem ListsCurrent.fill (h : ListsCurrent o x s) {key : String} {files : List ListedFile}
    (hfiles : ∀ relation base, TableAt o s.world key relation base →
      currentFiles x s.world.store base = some files) :
  ListsCurrent o x { s with fileListCache := s.fileListCache.fill key files }
  := by
  refine ⟨h.namespaced, ?_⟩
  intro key' relation base files' hat hcached
  dsimp only at hcached
  rw [FileListCache.cached_fill] at hcached
  split at hcached
  · rename_i hkey
    subst hkey
    cases hcached
    exact hfiles relation base hat
  · exact h.current key' relation base files' hat hcached

/-- A key has one table and one path. -/
theorem TableAt.unique {w : World} {key : String} {relation relation' : CatalogRelation}
    {base base' : OPath} (h : TableAt o w key relation base)
    (h' : TableAt o w key relation' base') :
  relation' = relation ∧ base' = base
  := by
  have hrelation := h'.found
  rw [h.found] at hrelation
  cases hrelation
  have hbase := h'.located
  rw [h.located] at hbase
  cases hbase
  exact ⟨rfl, rfl⟩

theorem TableAt.of_frame {w w' : World} {touched : OPath → Prop} (hframe : Frame touched w w')
    {key : String} {relation : CatalogRelation} {base : OPath}
    (h : TableAt o w' key relation base) :
  TableAt o w key relation base
  := by
  refine ⟨?_, h.located⟩
  rw [← hframe.catalog]
  exact h.found

/-- The list a SELECT takes, and the lists that are cached after it. -/
theorem after_getOrList (h : ListsCurrent o x s) {key : String} {relation : CatalogRelation}
    {base : OPath} (hat : TableAt o s.world key relation base) (hlistable : Listable o s key) :
  After (getOrList o x key base) s (fun r s' => ListsCurrent o x s'
    ∧ Frame (fun _ => False) s.world s'.world
    ∧ (∀ key', key' ≠ key → s'.fileListCache.cached key' = s.fileListCache.cached key')
    ∧ ∀ files, r = .ok files → currentFiles x s.world.store base = some files)
  := by
  unfold getOrList
  rw [after_bind, after_get, resume_ok]
  cases hcached : s.fileListCache.cached key with
  | some files =>
      refine ⟨h, Frame.refl _ _, fun _ _ => rfl, ?_⟩
      rintro _ ⟨rfl⟩
      exact h.current key relation base files hat hcached
  | none =>
      obtain hne | ⟨hget, hnext⟩ := hlistable
      · exact absurd hcached hne
      have hmodifies := @listFilesWithSizesAndRows_modifies o x (fun _ => False) base s.world
      have hreturns := @listFilesWithSizesAndRows_returns o x s.world base hget hnext
      rw [after_bind, after_onWorld]
      apply After.mono (hmodifies.and hreturns)
      rintro r w' ⟨hframe, hfiles⟩
      cases r with
      | error e => exact ⟨h.of_frame hframe, hframe, fun _ _ => rfl, nofun⟩
      | ok files =>
          have hcurrent := hfiles files rfl
          rw [resume_ok, after_bind, after_modify, resume_ok, after_pure]
          refine ⟨(h.of_frame hframe).fill ?_, hframe, ?_, ?_⟩
          · intro relation' base' hat'
            obtain ⟨rfl, rfl⟩ := hat.unique (hat'.of_frame hframe)
            rw [hframe.store_eq]
            exact hcurrent
          · intro key' hkey'
            dsimp only
            rw [FileListCache.cached_fill, if_neg (Ne.symm hkey')]
          · rintro _ ⟨rfl⟩
            exact hcurrent

/-- A SELECT in time obtains the files its table has, and what is cached stays up to date. -/
theorem after_distributedFiles (h : ListsCurrent o x s)
    (hlistable : ∀ relation base,
      TableAt o s.world (namedKey session database schema name) relation base →
        Listable o s (namedKey session database schema name)) :
  After (distributedFiles o x session database schema name) s (fun r s' => ListsCurrent o x s'
    ∧ Frame (fun _ => False) s.world s'.world
    ∧ (∀ key, key ≠ namedKey session database schema name →
      s'.fileListCache.cached key = s.fileListCache.cached key)
    ∧ ∀ files, r = .ok (some files) → ∃ relation base,
      TableAt o s.world (namedKey session database schema name) relation base
        ∧ currentFiles x s.world.store base = some files)
  := by
  have hnothing : ∀ r : Except Failure (Option (List ListedFile)),
      (∀ files, r ≠ .ok (some files)) → ListsCurrent o x s
        ∧ Frame (fun _ => False) s.world s.world
        ∧ (∀ key, key ≠ namedKey session database schema name →
          s.fileListCache.cached key = s.fileListCache.cached key)
        ∧ ∀ files, r = .ok (some files) → ∃ relation base,
          TableAt o s.world (namedKey session database schema name) relation base
            ∧ currentFiles x s.world.store base = some files := by
    intro r hr
    exact ⟨h, Frame.refl _ _, fun _ _ => rfl, fun files hfiles => absurd hfiles (hr files)⟩
  unfold distributedFiles
  rw [after_bind, after_onWorld, after_attempt]
  apply After.mono (after_tableRelation database schema name)
  rintro r w₁ ⟨rfl, hrelation⟩
  rw [resume_ok]
  cases r with
  | error e => exact hnothing _ (fun _ h => by cases h)
  | ok relation =>
      obtain ⟨-, hfound⟩ := hrelation relation rfl
      have hkey : relation.key = namedKey session database schema name :=
        (h.namespaced.key_eq hfound).symm
      dsimp only
      cases hpath : relation.storagePath with
      | none => exact hnothing _ (fun _ h => by cases h)
      | some location =>
          dsimp only
          rw [after_bind, after_onWorld, after_orBail]
          refine ⟨fun _ _ => hnothing _ (fun _ h => by cases h), ?_⟩
          intro base hbase
          have hat : TableAt o s.world (namedKey session database schema name) relation base := by
            refine ⟨hfound, ?_⟩
            rw [CatalogRelation.base?, hpath, Option.bind_some, hbase]
            rfl
          rw [resume_ok, after_bind, hkey]
          apply After.mono (after_getOrList h hat (hlistable relation base hat))
          rintro r s' ⟨hcurrent, hframe, hothers, hfiles⟩
          cases r with
          | error e => exact ⟨hcurrent, hframe, hothers, fun _ h => by cases h⟩
          | ok files =>
              refine ⟨hcurrent, hframe, hothers, ?_⟩
              rintro _ ⟨rfl⟩
              exact ⟨relation, base, hat, hfiles files rfl⟩

/-! ### CREATE and DROP -/

theorem ListsCurrent.create (h : ListsCurrent o x s) {statement : CreateStatement}
    (hin : InTime o df x s session (.create database schema name statement)) :
  After (executeStatement o df x session (.create database schema name statement)) s
    (fun _ => ListsCurrent o x)
  := by
  unfold executeStatement
  rw [after_bind, after_onWorld]
  apply After.mono (after_executeCreate_createdAt df statement)
  intro r w' hcreated
  have hcurrent : ListsCurrent o x { s with world := w' } := by
    obtain rfl | ⟨base, htarget, ⟨hobjects, hedits, hrelations⟩, hothers⟩ := hcreated
    · exact h
    · obtain ⟨hapart, huncached⟩ := hin base htarget
      apply h.of_kept
      · exact hedits.namespaced h.namespaced
      · exact fun _ _ hfiles => hfiles
      intro key relation path hat hcached
      -- a relation that is new has no cached list, and all others are as they were
      have hbefore : TableAt o s.world key relation path := by
        refine ⟨?_, hat.located⟩
        by_cases hkey : key = namedKey session database schema name
        · subst hkey
          have hknown : s.world.catalog.relations[namedKey session database schema name]? ≠ none :=
            fun hnone => hcached (huncached hnone)
          obtain hsame | ⟨new, created, hnew, hinsert, -⟩ := hrelations
          · rw [← hsame]
            exact hat.found
          · have hfound := hat.found
            rw [hinsert, KeyMap.get_insert, if_neg] at hfound
            · exact hfound
            · rintro rfl
              exact hknown hnew
        · rw [← hothers key hkey]
          exact hat.found
      refine ⟨⟨relation, hbefore⟩, ?_⟩
      intro object hobject
      apply hobjects
      exact hapart.not_below hbefore hcached not_false hobject
  cases r with
  | ok _ => exact hcurrent
  | error e => exact hcurrent

/-- The table a DROP finds. -/
theorem after_dropTarget {ifExists : Bool} {w : World} :
  After (dropTarget session database schema name ifExists) w (fun r w' => w' = w
    ∧ ∀ relation, r = .ok (some relation) → validateSession w.catalog session = .ok ()
      ∧ relation.kind = .table
      ∧ w.catalog.relations[namedKey session database schema name]? = some relation)
  := by
  unfold dropTarget
  rw [after_bind, after_attempt]
  simp only [findRelation, after_bind, after_readState, resume_ok, after_orBail, resume_error]
  refine ⟨?_, ?_⟩
  · intro message _
    cases ifExists with
    | true => exact ⟨rfl, fun _ h => by cases h⟩
    | false => exact ⟨rfl, fun _ h => by cases h⟩
  · intro _ hsession
    split
    · rename_i relation hfound
      rw [after_pure]
      dsimp only
      rw [after_ite]
      refine ⟨fun _ => ⟨rfl, fun _ h => by cases h⟩, fun hkind => ⟨rfl, ?_⟩⟩
      rintro _ ⟨rfl⟩
      exact ⟨hsession, not_not.mp hkind, hfound⟩
    · rw [after_bail]
      cases ifExists with
      | true => exact ⟨rfl, fun _ h => by cases h⟩
      | false => exact ⟨rfl, fun _ h => by cases h⟩

/-- What the catalogue has after a DROP. -/
theorem after_dropRelation {kind : CatalogRelationKind} {ifExists : Bool} {w : World} :
  After (dropRelation o session database schema name kind ifExists) w (fun _ w' =>
    w'.store = w.store
      ∧ (w'.catalog.relations = w.catalog.relations
        ∨ w'.catalog.relations
          = w.catalog.relations.erase (namedKey session database schema name))
      ∧ ∀ relation, validateSession w.catalog session = .ok () → relation.kind = kind →
        w.catalog.relations[namedKey session database schema name]? = some relation →
          w'.catalog.relations
            = w.catalog.relations.erase (namedKey session database schema name))
  := by
  simp only [dropRelation, after_bind, after_orBail, after_readState, resume_ok, resume_error]
  refine ⟨?_, ?_⟩
  · intro message hmessage
    refine ⟨trivial, .inl trivial, ?_⟩
    intro _ hsession
    rw [hmessage] at hsession
    cases hsession
  · intro _ _
    split
    · rename_i relation hfound
      rw [after_ite]
      constructor
      · intro hkind
        refine ⟨rfl, .inl rfl, ?_⟩
        intro relation' _ hkind' hfound'
        rw [namedKey, hfound] at hfound'
        cases hfound'
        exact absurd hkind' hkind
      · intro _
        refine After.mono (after_edit o _ _ w) ?_
        rintro r w' ⟨hstore, hcatalog⟩
        rw [hcatalog]
        exact ⟨hstore, .inr rfl, fun _ _ _ _ => rfl⟩
    · rename_i hnone
      have hkeeps : ∀ relation, w.catalog.relations[namedKey session database schema name]?
          ≠ some relation := by
        intro relation hfound
        rw [namedKey, hnone] at hfound
        cases hfound
      rw [after_ite]
      exact ⟨fun _ => ⟨rfl, .inl rfl, fun _ _ _ hfound => absurd hfound (hkeeps _)⟩,
        fun _ => ⟨rfl, .inl rfl, fun _ _ _ hfound => absurd hfound (hkeeps _)⟩⟩

theorem deleteManagedObjects_below {relation : CatalogRelation} {w : World} :
  After (deleteManagedObjects o relation) w (fun _ w' => Frame (fun object => ∃ base,
    relation.base? o = some base ∧ relation.externalFormat = none ∧ base <+: object) w w')
  := by
  unfold deleteManagedObjects
  split
  · rename_i location hformat hpath
    rw [after_bind, after_orBail]
    refine ⟨fun _ _ => Frame.refl _ _, ?_⟩
    intro base hbase
    rw [resume_ok]
    apply After.mono (deletePrefix_modifies o base w)
    intro r w' hframe
    apply hframe.mono
    intro object hobject
    refine ⟨base, ?_, hformat, hobject⟩
    rw [CatalogRelation.base?, hpath, Option.bind_some, hbase]
    rfl
  · apply Frame.refl

/-- Lists stay up to date while tables are dropped and objects deleted that are of no listed
table that stays. -/
theorem ListsCurrent.of_dropped (h : ListsCurrent o x s) {w w' : World} {touched : OPath → Prop}
    (hframe : Frame touched s.world w) (hstore : w'.store = w.store)
    (hnamespaced : w'.catalog.Namespaced)
    (hrelations : ∀ (key : String) (relation : CatalogRelation),
      w'.catalog.relations[key]? = some relation → w.catalog.relations[key]? = some relation)
    (hapart : ∀ key relation base, TableAt o s.world key relation base →
      s.fileListCache.cached key ≠ none → w'.catalog.relations[key]? = some relation →
        ∀ object, base <+: object → ¬ touched object) :
  ListsCurrent o x { s with world := w' }
  := by
  apply h.of_kept hnamespaced
  · exact fun _ _ hfiles => hfiles
  · intro key relation base hat hcached
    have hbefore : TableAt o s.world key relation base := by
      refine ⟨?_, hat.located⟩
      rw [← hframe.catalog]
      exact hrelations key relation hat.found
    refine ⟨⟨relation, hbefore⟩, ?_⟩
    intro object hobject
    dsimp only
    rw [hstore]
    exact hframe.store object (hapart key relation base hbefore hcached hat.found object hobject)

/-- The catalogue stays in order when a relation is dropped. -/
theorem dropRelation_namespaced {kind : CatalogRelationKind} {ifExists : Bool} {w : World}
    (h : w.catalog.Namespaced) :
  After (dropRelation o session database schema name kind ifExists) w (fun _ w' =>
    w'.catalog.Namespaced)
  := by
  apply After.mono (performOp_leads o session w (.dropRelation database schema name kind ifExists))
  rintro r w' ⟨hedits, -⟩
  exact hedits.namespaced h

theorem get_of_get_erase {relations relations' : KeyMap CatalogRelation} {key₀ key : String}
    {relation : CatalogRelation}
    (h : relations' = relations ∨ relations' = relations.erase key₀)
    (hfound : relations'[key]? = some relation) :
  relations[key]? = some relation
  := by
  obtain rfl | rfl := h
  · exact hfound
  · rw [KeyMap.get_erase] at hfound
    split at hfound
    · cases hfound
    · exact hfound

theorem ListsCurrent.dropTable (h : ListsCurrent o x s) {ifExists : Bool}
    (hin : InTime o df x s session (.dropTable database schema name ifExists)) :
  After (executeStatement o df x session (.dropTable database schema name ifExists)) s
    (fun _ => ListsCurrent o x)
  := by
  unfold executeStatement executeDropTable
  rw [after_bind, after_onWorld, after_bind]
  apply After.mono after_dropTarget
  rintro r w₁ ⟨rfl, htarget⟩
  cases r with
  | error e => exact h
  | ok target =>
      rw [resume_ok]
      cases target with
      | none =>
          apply After.mono (after_dropRelation.and (dropRelation_namespaced h.namespaced))
          rintro r w' ⟨⟨hstore, hrelations, -⟩, hnamespaced⟩
          have hcurrent : ListsCurrent o x { s with world := w' } := by
            apply h.of_dropped (Frame.refl (fun _ => False) s.world) hstore hnamespaced
            · exact fun key relation hfound => get_of_get_erase hrelations hfound
            · exact fun _ _ _ _ _ _ _ _ => not_false
          cases r with
          | error e => exact hcurrent
          | ok message => exact hcurrent
      | some relation =>
          obtain ⟨hsession, hkind, hfound⟩ := htarget relation rfl
          have houtcome : After (deleteManagedObjects o relation) s.world (fun r _ =>
              r = (exec (deleteManagedObjects o relation) s.world).1) := rfl
          dsimp only
          rw [after_bind]
          apply After.mono (deleteManagedObjects_below.and houtcome)
          rintro r w₁ ⟨hframe, hr⟩
          -- the other tables with cached lists are apart from what was deleted
          have hothers : ∀ key relation' base, TableAt o s.world key relation' base →
              s.fileListCache.cached key ≠ none → key ≠ namedKey session database schema name →
                ∀ object, base <+: object → ¬ ∃ path, relation.base? o = some path
                  ∧ relation.externalFormat = none ∧ path <+: object := by
            rintro key relation' base hat hcached hkey object hobject ⟨path, hpath, hformat, hbelow⟩
            obtain ⟨hapart, -⟩ := hin relation path ⟨hfound, hpath⟩ hformat
            exact hapart.not_below hat hcached hkey hobject hbelow
          cases r with
          | error e =>
              apply h.of_dropped hframe rfl
              · rw [hframe.catalog]
                exact h.namespaced
              · exact fun _ _ hfound => hfound
              · intro key relation' base hat hcached _ object hobject
                by_cases hkey : key = namedKey session database schema name
                · subst hkey
                  rintro ⟨path, hpath, hformat, -⟩
                  obtain ⟨-, huncached | hok⟩ := hin relation path ⟨hfound, hpath⟩ hformat
                  · exact hcached huncached
                  · rw [hok] at hr
                    cases hr
                · exact hothers key relation' base hat hcached hkey object hobject
          | ok _ =>
              rw [resume_ok]
              have hnamespaced : w₁.catalog.Namespaced := by
                rw [hframe.catalog]
                exact h.namespaced
              apply After.mono (after_dropRelation.and (dropRelation_namespaced hnamespaced))
              rintro r w' ⟨⟨hstore, hrelations, herased⟩, hnamespaced'⟩
              have hcurrent : ListsCurrent o x { s with world := w' } := by
                apply h.of_dropped hframe hstore hnamespaced'
                · exact fun key relation hfound => get_of_get_erase hrelations hfound
                · intro key relation' base hat hcached hstays
                  apply hothers key relation' base hat hcached
                  rintro rfl
                  rw [herased relation] at hstays
                  · rw [KeyMap.get_erase, if_pos rfl] at hstays
                    cases hstays
                  · rw [hframe.catalog]
                    exact hsession
                  · exact hkind
                  · rw [hframe.catalog]
                    exact hfound
              cases r with
              | error e => exact hcurrent
              | ok message => exact hcurrent

/-! ### RENAME -/

/-- The objects that a rename may touch. -/
def RenameTouches (o : Outside) (session : SessionContext) (statement : RenameStatement)
    (w : World) (object : OPath) : Prop :=
  (∃ relation old new, Moves session statement w relation
      ∧ (statement.move session relation).paths o = some (old, new)
      ∧ (old <+: object ∨ old.take 1 ++ new.drop 1 <+: object))
    ∨ ∃ old new, RenamesDirectory o statement w old new ∧ (old <+: object ∨ new <+: object)

/-- What a rename leaves: the relations it does not cover at their paths, and no others but those
it covers under their new names. -/
structure RenamedAround (o : Outside) (session : SessionContext) (statement : RenameStatement)
    (w w' : World) : Prop where
  namespaced : w'.catalog.Namespaced
  relations : ∀ (key : String) (r' : CatalogRelation), w'.catalog.relations[key]? = some r' →
    (∃ r, w.catalog.relations[key]? = some r ∧ r'.storagePath = r.storagePath
      ∧ statement.covers session r = false)
    ∨ ∃ (key₀ : String) (r : CatalogRelation), w.catalog.relations[key₀]? = some r
      ∧ statement.covers session r = true ∧ key = statement.newKey session r
  store : ∀ object, ¬ RenameTouches o session statement w object →
    w'.store[object]? = w.store[object]?

theorem RenamePhase.around {statement : RenameStatement} {w w₁ : World}
    (hstate : w.catalog.Namespaced) (hphase : RenamePhase session statement w w₁)
    (hstore : ∀ object, ¬ RenameTouches o session statement w object →
      w₁.store[object]? = w.store[object]?) :
  RenamedAround o session statement w w₁
  := by
  refine ⟨hphase.namespaced, ?_, hstore⟩
  intro key r' hr'
  obtain ⟨key₀, r, hr, hkey, hpath⟩ := hphase.renamed.back key r' hr'
  cases hcovers : statement.covers session r with
  | true => exact .inr ⟨key₀, r, hr, hcovers, hkey⟩
  | false =>
      left
      refine ⟨r, ?_, hpath, hcovers⟩
      rw [hkey, RenameStatement.newKey, if_neg (by simp [hcovers]), ← hstate.key_eq hr]
      exact hr

/-- Recording a location changes what is recorded of one relation only. -/
theorem after_updateRelationStoragePath_others {w : World} (location : String) :
  After (updateRelationStoragePath o session database schema name location) w (fun _ w' =>
    w'.store = w.store
      ∧ ∀ key, key ≠ namedKey session database schema name →
        w'.catalog.relations[key]? = w.catalog.relations[key]?)
  := by
  simp only [updateRelationStoragePath, editRelation, after_bind, after_orBail, after_readState,
    resume_ok, resume_error]
  refine ⟨fun _ _ => ⟨trivial, fun _ _ => trivial⟩, fun _ _ => ?_⟩
  split
  · exact ⟨rfl, fun _ _ => rfl⟩
  · simp only [after_bind, after_orBail]
    refine ⟨fun _ h => (by cases h), ?_⟩
    intro edited _
    rw [resume_ok]
    refine After.mono (after_edit o _ _ w) ?_
    rintro r w' ⟨hstore, hcatalog⟩
    refine ⟨hstore, ?_⟩
    intro key hkey
    rw [hcatalog]
    exact (KeyMap.get_insert _ _ _ _).trans (if_neg (Ne.symm hkey))

theorem RenamedAround.of_frame {statement : RenameStatement} {w w₁ w₂ : World}
    (h : RenamedAround o session statement w w₁) {touched : OPath → Prop}
    (hframe : Frame touched w₁ w₂)
    (htouched : ∀ object, touched object → RenameTouches o session statement w object) :
  RenamedAround o session statement w w₂
  := by
  constructor
  · rw [hframe.catalog]
    exact h.namespaced
  · rw [hframe.catalog]
    exact h.relations
  · intro object hobject
    rw [hframe.store object (fun ht => hobject (htouched object ht)), h.store object hobject]

/-- Moving a table that the statement covers changes what is recorded of that table only. -/
theorem RenamedAround.after_moveTable {statement : RenameStatement} {w w₁ : World}
    (h : RenamedAround o session statement w w₁) {r : CatalogRelation}
    (hmoves : Moves session statement w r) :
  After (moveTable o session (statement.move session r)) w₁ (fun _ =>
    RenamedAround o session statement w)
  := by
  unfold moveTable
  cases hlocation : (statement.move session r).storagePath with
  | none => exact h
  | some location =>
      dsimp only
      rw [after_bind, after_orBail]
      refine ⟨fun _ _ => h, ?_⟩
      intro old hold
      rw [resume_ok, after_bind, after_orBail]
      refine ⟨fun _ _ => h, ?_⟩
      intro new hnew
      have hpaths : (statement.move session r).paths o = some (old, new) := by
        rw [TableMove.paths, hlocation, Option.bind_some, hold, hnew]
      rw [resume_ok, after_bind]
      apply After.mono (renamePrefix_modifies o old new w₁)
      intro outcome w₂ hframe
      have haround₂ : RenamedAround o session statement w w₂ := by
        apply h.of_frame hframe
        intro object hobject
        exact .inl ⟨r, old, new, hmoves, hpaths, hobject⟩
      cases outcome with
      | error e => exact haround₂
      | ok _ =>
          have hleads := performOp_leads o session w₂ (.updateRelationStoragePath
            (statement.move session r).database (statement.move session r).schema
            (statement.move session r).name ((statement.move session r).newLocation location))
          rw [resume_ok, after_bind]
          apply After.mono ((after_updateRelationStoragePath_others _).and hleads)
          rintro outcome w₃ ⟨⟨hstore, hothers⟩, hedits, -⟩
          have haround₃ : RenamedAround o session statement w w₃ := by
            refine ⟨hedits.namespaced haround₂.namespaced, ?_, ?_⟩
            · intro key r' hr'
              by_cases hkey : key = (statement.move session r).key session
              · obtain ⟨⟨key₀, hr⟩, -, hcovers⟩ := hmoves
                right
                exact ⟨key₀, r, hr, hcovers, hkey.trans (RenameStatement.move_key hcovers)⟩
              · rw [hothers key hkey] at hr'
                exact haround₂.relations key r' hr'
            · intro object hobject
              rw [hstore, haround₂.store object hobject]
          cases outcome with
          | error e => exact haround₃
          | ok _ => exact haround₃

theorem RenamedAround.after_moveTables {statement : RenameStatement} {w w₁ : World}
    (h : RenamedAround o session statement w w₁) {listed : List CatalogRelation}
    (hlisted : ∀ r ∈ listed, Moves session statement w r) :
  After (moveTables o session (listed.map (statement.move session))) w₁ (fun _ =>
    RenamedAround o session statement w)
  := by
  induction listed generalizing w₁ with
  | nil => exact h
  | cons r listed ih =>
      rw [List.map_cons, moveTables, after_bind]
      apply After.mono (h.after_moveTable (hlisted r List.mem_cons_self))
      intro outcome w₂ haround
      cases outcome with
      | error e => exact haround
      | ok _ => exact ih haround (fun r hr => hlisted r (List.mem_cons_of_mem _ hr))

/-- A rename changes nothing, or renames what it covers and leaves everything else. -/
theorem after_executeRename_around {statement : RenameStatement} {w : World}
    (hstate : w.catalog.Namespaced) :
  After (executeRename o session statement) w (fun _ w' => w' = w
    ∨ RenamedAround o session statement w w')
  := by
  apply after_executeRename_of_parts hstate
  · exact fun _ => .inl rfl
  · intro edit listed text hlisted hedit
    rw [after_bind]
    apply After.mono hedit
    intro r w₁ houtcome
    -- the catalogue is refused, renamed, or renamed with the directory of the database
    have hphase : (w₁ = w ∧ ∃ e, r = .error e) ∨ RenamedAround o session statement w w₁ := by
      cases houtcome with
      | refused e => exact .inl ⟨rfl, e, rfl⟩
      | renamed hphase hstore =>
          right
          apply hphase.around hstate
          intro object _
          rw [hstore]
      | @directory r w₁ old new hphase hrenames hapart hempty hstore hsaved =>
          right
          apply hphase.around hstate
          intro object hobject
          rw [hstore]
          apply (moveDirectory_relocated hapart w.store).1.kept
          · intro hold
            exact absurd (.inr ⟨old, new, hrenames, .inl hold⟩) hobject
          · intro hnew
            exact absurd (.inr ⟨old, new, hrenames, .inr hnew⟩) hobject
    obtain ⟨rfl, e, rfl⟩ | haround := hphase
    · exact .inl rfl
    · cases r with
      | error e => exact .inr haround
      | ok message =>
          rw [resume_ok, after_bind]
          apply After.mono (haround.after_moveTables (fun r => (hlisted.mem_iff r).mp))
          intro outcome w₂ haround₂
          cases outcome with
          | error e => exact .inr haround₂
          | ok _ => exact .inr haround₂

theorem ListsCurrent.rename (h : ListsCurrent o x s) {statement : RenameStatement}
    (hin : InTime o df x s session (.rename statement)) :
  After (executeStatement o df x session (.rename statement)) s (fun _ => ListsCurrent o x)
  := by
  obtain ⟨hnew, hmoved, hdirectory⟩ := hin
  unfold executeStatement
  rw [after_bind, after_onWorld]
  apply After.mono (after_executeRename_around h.namespaced)
  intro r w' hrenamed
  have hcurrent : ListsCurrent o x { s with world := w' } := by
    obtain rfl | haround := hrenamed
    · exact h
    · apply h.of_kept haround.namespaced
      · exact fun _ _ hfiles => hfiles
      intro key relation' base hat hcached
      obtain ⟨relation, hfound, hpath, hcovers⟩ | ⟨key₀, relation, hfound, hcovers, hkey⟩ :=
        haround.relations key relation' hat.found
      · have hbefore : TableAt o s.world key relation base := by
          refine ⟨hfound, ?_⟩
          rw [← hat.located, CatalogRelation.base?, CatalogRelation.base?, hpath]
        have hspared : ¬ Covered s.world session statement key := by
          rintro ⟨relation₂, hfound₂, hcovers₂⟩
          rw [hfound] at hfound₂
          cases hfound₂
          rw [hcovers] at hcovers₂
          cases hcovers₂
        refine ⟨⟨relation, hbefore⟩, ?_⟩
        intro object hobject
        apply haround.store
        rintro (⟨moved, old, new, hmoves, hpaths, hbelow⟩ | ⟨old, new, hrenames, hbelow⟩)
        · obtain ⟨hold, hnew⟩ := hmoved moved old new hmoves hpaths
          obtain hbelow | hbelow := hbelow
          · exact hold.not_below hbefore hcached hspared hobject hbelow
          · exact hnew.not_below hbefore hcached hspared hobject hbelow
        · obtain ⟨hold, hnew⟩ := hdirectory old new hrenames
          obtain hbelow | hbelow := hbelow
          · exact hold.not_below hbefore hcached hspared hobject hbelow
          · exact hnew.not_below hbefore hcached hspared hobject hbelow
      · rw [hkey] at hcached
        exact absurd (hnew key₀ relation hfound hcovers) hcached
  cases r with
  | ok _ => exact hcurrent
  | error e => exact hcurrent

/-! ### INSERT of a query result -/

/-- The keys of the files that workers write: those directly below the path of the table. -/
def WorkerKey (base key : OPath) : Prop := ∃ fileName, key = base ++ [fileName]

/-- A worker writes directly below the path of the table. -/
theorem after_writeWorkerFiles {base : OPath} {attempt : String} (files : List RecordBatch)
    (w : World) :
  After (writeWorkerFiles o base attempt files) w (fun r w' => Frame (WorkerKey base) w w'
    ∧ ∀ keys, r = .ok (.ok keys) → ∀ key ∈ keys, WorkerKey base key)
  := by
  induction files generalizing w with
  | nil =>
      refine ⟨Frame.refl _ _, ?_⟩
      rintro keys ⟨rfl⟩
      nofun
  | cons file files ih =>
      rw [writeWorkerFiles, after_bind, after_outsideCall, resume_ok, after_bind]
      apply After.mono (storePut_modifies o _ _ _ _)
      intro r w₁ hput
      have hframe : Frame (WorkerKey base) w w₁ := by
        apply (Frame.call _ w).trans
        apply hput.mono
        rintro key rfl
        exact ⟨_, rfl⟩
      cases r with
      | error e => exact ⟨hframe, nofun⟩
      | ok outcome =>
          rw [resume_ok]
          cases outcome with
          | error e => exact ⟨hframe, nofun⟩
          | ok _ =>
              dsimp only
              rw [after_bind]
              apply After.mono (ih w₁)
              rintro r w₂ ⟨hframe', hkeys⟩
              cases r with
              | error e => exact ⟨hframe.trans hframe', nofun⟩
              | ok outcome =>
                  rw [resume_ok]
                  cases outcome with
                  | error e => exact ⟨hframe.trans hframe', nofun⟩
                  | ok keys =>
                      refine ⟨hframe.trans hframe', ?_⟩
                      rintro _ ⟨rfl⟩ key hkey
                      obtain rfl | hkey := List.mem_cons.mp hkey
                      · exact ⟨_, rfl⟩
                      · exact hkeys keys rfl key hkey

theorem after_dispatchWorkers {base : OPath} {attempt : String} (workers : List WorkerRun)
    (w : World) :
  After (dispatchWorkers o base attempt workers) w (fun r w' => Frame (WorkerKey base) w w'
    ∧ ∀ keys complete, r = .ok (keys, complete) → ∀ key ∈ keys, WorkerKey base key)
  := by
  induction workers generalizing w with
  | nil =>
      refine ⟨Frame.refl _ _, ?_⟩
      rintro keys complete ⟨rfl, rfl⟩
      nofun
  | cons worker workers ih =>
      rw [dispatchWorkers, after_bind]
      apply After.mono (after_writeWorkerFiles worker.files w)
      rintro r w₁ ⟨hframe, hwritten⟩
      cases r with
      | error e => exact ⟨hframe, nofun⟩
      | ok written =>
          rw [resume_ok, after_bind]
          apply After.mono (ih w₁)
          rintro r w₂ ⟨hframe', hkeys⟩
          cases r with
          | error e => exact ⟨hframe.trans hframe', nofun⟩
          | ok outcome =>
              obtain ⟨keys, complete⟩ := outcome
              rw [resume_ok]
              dsimp only
              split
              · rename_i written' _
                refine ⟨hframe.trans hframe', ?_⟩
                rintro _ _ ⟨rfl, rfl⟩ key hkey
                obtain hkey | hkey := List.mem_append.mp hkey
                · exact hwritten written' rfl key hkey
                · exact hkeys keys complete rfl key hkey
              · refine ⟨hframe.trans hframe', ?_⟩
                rintro _ _ ⟨rfl, rfl⟩ key hkey
                exact hkeys keys complete rfl key hkey

theorem validateFilesAgainstIndex_modifies (touched : OPath → Prop) (relation : CatalogRelation)
    (base : OPath) (files : List RecordBatch) (index : CatalogIndex) :
  ModifiesOnly touched (validateFilesAgainstIndex o df relation base files index)
  := by
  apply ModifiesOnly.bind (queryFault_modifies df touched)
  intro _
  apply ModifiesOnly.guard
  apply ModifiesOnly.guard
  apply ModifiesOnly.bind (readIndexSnapshot_modifies o touched index)
  intro snapshot
  cases snapshot with
  | none => apply ModifiesOnly.pure
  | some snapshot =>
      apply ModifiesOnly.ite
      · apply ModifiesOnly.bail
      · apply ModifiesOnly.pure

theorem validateUniquenessAcrossNewFiles_modifies (touched : OPath → Prop)
    (relation : CatalogRelation) (base : OPath) (files : List RecordBatch)
    (indexes : List CatalogIndex) :
  ModifiesOnly touched
    (validateUniquenessAcrossNewFiles o df relation base files indexes)
  := by
  induction indexes with
  | nil => apply ModifiesOnly.pure
  | cons index indexes ih =>
      apply ModifiesOnly.bind
      · apply ModifiesOnly.ite
        · apply validateFilesAgainstIndex_modifies
        · apply ModifiesOnly.pure
      · intro _
        apply ih

/-- The keys of the objects that a distributed insert writes and deletes. -/
def InsertKey (base key : OPath) : Prop := WorkerKey base key ∨ IndexKey base key

theorem insertKey_below {base key : OPath} (h : InsertKey base key) :
  base <+: key
  := by
  obtain ⟨fileName, rfl⟩ | hindex := h
  · exact List.prefix_append _ _
  · exact indexKey_below hindex

theorem distributeInsert_modifies {relation : CatalogRelation} {base : OPath}
    (hbase : relation.base? o = some base) (attemptId : String) (workers : List WorkerRun) :
  ModifiesOnly (InsertKey base) (distributeInsert o df session relation base attemptId workers)
  := by
  intro w
  rw [distributeInsert, after_bind]
  apply After.mono (after_dispatchWorkers workers w)
  rintro r w₁ ⟨hframe, hkeys⟩
  replace hframe : Frame (InsertKey base) w w₁ := hframe.mono (fun _ => .inl)
  cases r with
  | error e => exact hframe
  | ok outcome =>
      obtain ⟨written, complete⟩ := outcome
      have hdelete : ModifiesOnly (InsertKey base) (attempt (deleteObjects o written)) := by
        apply ModifiesOnly.attempt
        apply (deleteObjects_modifies o written).mono
        intro key hkey
        exact .inl (hkeys written complete rfl key hkey)
      rw [resume_ok]
      refine After.mono ((?_ : ModifiesOnly (InsertKey base) _) w₁) (fun _ _ h => hframe.trans h)
      dsimp only
      apply ModifiesOnly.ite
      · apply ModifiesOnly.bind
        · apply ModifiesOnly.attempt
          apply validateUniquenessAcrossNewFiles_modifies
        intro valid
        cases valid with
        | error e =>
            apply ModifiesOnly.bind hdelete
            intro _ w
            exact Frame.refl _ w
        | ok _ =>
            apply ModifiesOnly.bind
            · apply (refreshIndexSnapshotsAfterMutation_modifies o df session hbase).mono
              intro key hkey
              exact .inr hkey
            · intro _
              apply ModifiesOnly.pure
      · apply ModifiesOnly.bind hdelete
        intro _
        apply ModifiesOnly.pure

theorem distributeInsert_below {relation : CatalogRelation} {base : OPath}
    (hbase : relation.base? o = some base) (attemptId : String) (workers : List WorkerRun) :
  ModifiesOnly (base <+: ·) (distributeInsert o df session relation base attemptId workers)
  := (distributeInsert_modifies hbase attemptId workers).mono (fun _ => insertKey_below)

/-- What an insert did to the table at `base` with the key `key`: objects below `base` changed, and
no list is cached for the key any more, unless the insert did not get through. -/
structure InsertedInto (key : String) (base : OPath) (through : Prop) (s s' : EngineState) :
    Prop where
  frame : Frame (base <+: ·) s.world s'.world
  others : ∀ other, other ≠ key →
    s'.fileListCache.cached other = s.fileListCache.cached other
  target : s'.fileListCache.cached key = none
    ∨ s'.fileListCache.cached key = s.fileListCache.cached key ∧ ¬ through

theorem insertedInto_refl (key : String) (base : OPath) {through : Prop} (h : ¬ through)
    (s : EngineState) :
  InsertedInto key base through s s
  := ⟨Frame.refl _ _, fun _ _ => rfl, .inr ⟨rfl, h⟩⟩

/-- An insert goes on after one that did not get through. -/
theorem InsertedInto.trans {key : String} {base : OPath} {before through : Prop}
    {s s₁ s₂ : EngineState} (h : InsertedInto key base before s s₁)
    (h' : InsertedInto key base through s₁ s₂) :
  InsertedInto key base through s s₂
  := by
  refine ⟨h.frame.trans h'.frame, ?_, ?_⟩
  · intro other hother
    rw [h'.others other hother, h.others other hother]
  · obtain hnone | ⟨hsame, hnot⟩ := h'.target
    · exact .inl hnone
    · rw [hsame]
      obtain hnone | ⟨hsame', -⟩ := h.target
      · exact .inl hnone
      · exact .inr ⟨hsame', hnot⟩

/-- A change of objects does not get an insert through. -/
theorem insertedInto_of_frame {key : String} {base : OPath} {through : Prop} (h : ¬ through)
    {s : EngineState} {w' : World} (hframe : Frame (base <+: ·) s.world w') :
  InsertedInto key base through s { s with world := w' }
  := ⟨hframe, fun _ _ => rfl, .inr ⟨rfl, h⟩⟩

/-- A new epoch gets an insert through. -/
theorem insertedInto_invalidate (key : String) (base : OPath) (through : Prop) (s : EngineState) :
  InsertedInto key base through s { s with fileListCache := s.fileListCache.invalidate key }
  := by
  refine ⟨Frame.refl _ _, ?_, ?_⟩
  · intro other hother
    exact (FileListCache.cached_invalidate _ _ _).trans (if_neg (Ne.symm hother))
  · left
    exact (FileListCache.cached_invalidate _ _ _).trans (if_pos rfl)

theorem after_runDistributedInsert {relation : CatalogRelation} {base : OPath}
    (hbase : relation.base? o = some base) (remaining attemptNumber : Nat)
    (attempts : List (Except String (List WorkerRun))) (s : EngineState) :
  After (runDistributedInsert o df session relation base remaining attemptNumber attempts) s
    (fun r s' => InsertedInto relation.key base (∃ outcome, r = .ok (some outcome)) s s')
  := by
  induction remaining generalizing s attemptNumber attempts with
  | zero =>
      unfold runDistributedInsert
      exact insertedInto_refl _ _ (fun h => nomatch h) s
  | succ remaining ih =>
      rcases attempts with _ | ⟨message | _ | ⟨worker, workers⟩, attempts⟩
      · exact insertedInto_refl _ _ (fun h => nomatch h) s
      · change After (onWorld (bail message)) s _
        rw [after_onWorld]
        exact insertedInto_refl _ _ (fun h => nomatch h) s
      · exact insertedInto_refl _ _ (fun h => nomatch h) s
      · rw [runDistributedInsert, after_bind, after_onWorld, after_outsideCall, resume_ok,
          after_bind, after_onWorld]
        apply After.mono (distributeInsert_below hbase _ _ _)
        intro r w₁ hframe
        have hwritten := fun through (h : ¬ through) => @insertedInto_of_frame relation.key base
          through h s w₁ ((Frame.call (base <+: ·) s.world).trans hframe)
        cases r with
        | error e => exact hwritten _ (fun h => nomatch h)
        | ok outcome =>
            rw [resume_ok]
            cases outcome with
            | none =>
                apply After.mono (ih _ _ _)
                intro r s' h
                exact (hwritten False not_false).trans h
            | some rowCount =>
                dsimp only
                rw [after_bind, invalidateFileList, after_modify, resume_ok, after_pure]
                exact (hwritten False not_false).trans (insertedInto_invalidate _ _ _ _)

/-- The state after the source of an insert was listed. -/
structure SourceListed (o : Outside) (x : Execution) (session : SessionContext)
    (insert : InsertSelect) (s s₁ : EngineState) : Prop where
  current : ListsCurrent o x s₁
  frame : Frame (fun _ => False) s.world s₁.world
  others : ∀ key, ¬ insert.SourceKey session key →
    s₁.fileListCache.cached key = s.fileListCache.cached key

/-- How far an insert got: its source was listed, and then rows may have gone to its table. -/
def InsertProgress (o : Outside) (x : Execution) (session : SessionContext)
    (insert : InsertSelect) (through : Prop) (s s' : EngineState) : Prop :=
  ∃ s₁, SourceListed o x session insert s s₁
    ∧ (s' = s₁ ∨ ∃ relation base, TableAt o s.world (insert.targetKey session) relation base
      ∧ InsertedInto (insert.targetKey session) base through s₁ s')

theorem insertProgress_refl {insert : InsertSelect} (h : ListsCurrent o x s) (through : Prop) :
  InsertProgress o x session insert through s s
  := ⟨s, ⟨h, Frame.refl _ _, fun _ _ => rfl⟩, .inl rfl⟩

/-- The path of a table that is in the catalogue. -/
theorem tableAt_of_location {w : World} {key location : String} {relation : CatalogRelation}
    {base : OPath} (hfound : w.catalog.relations[key]? = some relation)
    (hpath : relation.storagePath = some location)
    (hbase : storeForLocation o location = .ok base) :
  TableAt o w key relation base
  := by
  refine ⟨hfound, ?_⟩
  rw [CatalogRelation.base?, hpath, Option.bind_some, hbase]
  rfl

theorem after_tryDistributedInsert (h : ListsCurrent o x s) {insert : InsertSelect}
    (hsource : ∀ key relation base, insert.SourceKey session key →
      TableAt o s.world key relation base → Listable o s key) :
  After (tryDistributedInsert o df x session insert) s (fun r s' =>
    InsertProgress o x session insert (∃ outcome, r = .ok (some outcome)) s s')
  := by
  unfold tryDistributedInsert
  rw [after_bind, after_onWorld, after_attempt]
  apply After.mono (after_tableRelation insert.database insert.schema insert.name)
  rintro r w₁ ⟨rfl, hrelation⟩
  rw [resume_ok]
  cases r with
  | error e => exact insertProgress_refl h _
  | ok relation =>
      obtain ⟨-, hfound⟩ := hrelation relation rfl
      have hkey : relation.key = insert.targetKey session := (h.namespaced.key_eq hfound).symm
      dsimp only
      cases hpath : relation.storagePath with
      | none => exact insertProgress_refl h _
      | some location =>
          -- what the workers do after the source was listed
          have hrun : ∀ s₁, SourceListed o x session insert s s₁ →
              After (do
                let base ← onWorld (orBail (storeForLocation o location))
                runDistributedInsert o df session relation base 3 1 insert.attempts) s₁
                (fun r s' => InsertProgress o x session insert
                  (∃ outcome, r = .ok (some outcome)) s s') := by
            intro s₁ hlisted
            rw [after_bind, after_onWorld, after_orBail]
            refine ⟨fun _ _ => ⟨s₁, hlisted, .inl rfl⟩, ?_⟩
            intro base hbase
            have hat := tableAt_of_location hfound hpath hbase
            rw [resume_ok]
            apply After.mono (after_runDistributedInsert hat.located 3 1 insert.attempts s₁)
            intro r s' hinserted
            rw [hkey] at hinserted
            exact ⟨s₁, hlisted, .inr ⟨relation, base, hat, hinserted⟩⟩
          dsimp only
          cases hinsert : insert.source with
          | generateSeries => exact hrun s ⟨h, Frame.refl _ _, fun _ _ => rfl⟩
          | other => exact insertProgress_refl h _
          | table database schema name =>
              have hsourceKey : insert.SourceKey session (namedKey session database schema name) :=
                ⟨database, schema, name, hinsert, rfl⟩
              have hlistable := fun relation base => hsource _ relation base hsourceKey
              dsimp only
              rw [after_bind]
              apply After.mono (after_distributedFiles h hlistable)
              rintro r s₁ ⟨hcurrent, hframe, hothers, -⟩
              have hlisted : SourceListed o x session insert s s₁ := by
                refine ⟨hcurrent, hframe, ?_⟩
                intro key hkey
                apply hothers
                rintro rfl
                exact hkey hsourceKey
              rcases r with e | _ | _ | ⟨file, files⟩
              · exact ⟨s₁, hlisted, .inl rfl⟩
              · exact ⟨s₁, hlisted, .inl rfl⟩
              · exact ⟨s₁, hlisted, .inl rfl⟩
              · rw [resume_ok]
                exact hrun s₁ hlisted

theorem InsertProgress.catalog {insert : InsertSelect} {through : Prop} {s' : EngineState}
    (h : InsertProgress o x session insert through s s') :
  s'.world.catalog = s.world.catalog
  := by
  obtain ⟨s₁, hlisted, rfl | ⟨relation, base, -, hinserted⟩⟩ := h
  · exact hlisted.frame.catalog
  · rw [hinserted.frame.catalog, hlisted.frame.catalog]

/-- An insert that goes on in its table. -/
theorem InsertProgress.trans {insert : InsertSelect} {before through : Prop} {s₂ s' : EngineState}
    (h : InsertProgress o x session insert before s s₂) {relation : CatalogRelation} {base : OPath}
    (hat : TableAt o s.world (insert.targetKey session) relation base)
    (hinserted : InsertedInto (insert.targetKey session) base through s₂ s') :
  InsertProgress o x session insert through s s'
  := by
  obtain ⟨s₁, hlisted, rfl | ⟨relation', base', hat', hinserted'⟩⟩ := h
  · exact ⟨_, hlisted, .inr ⟨relation, base, hat, hinserted⟩⟩
  · obtain ⟨rfl, rfl⟩ := hat'.unique hat
    exact ⟨s₁, hlisted, .inr ⟨relation, base, hat, hinserted'.trans hinserted⟩⟩

theorem InsertProgress.imp {insert : InsertSelect} {before through : Prop} {s' : EngineState}
    (h : InsertProgress o x session insert before s s') (himp : through → before) :
  InsertProgress o x session insert through s s'
  := by
  obtain ⟨s₁, hlisted, hs | ⟨relation, base, hat, hinserted⟩⟩ := h
  · exact ⟨s₁, hlisted, .inl hs⟩
  · refine ⟨s₁, hlisted, .inr ⟨relation, base, hat, hinserted.frame, hinserted.others, ?_⟩⟩
    obtain hnone | ⟨hsame, hnot⟩ := hinserted.target
    · exact .inl hnone
    · exact .inr ⟨hsame, fun hthrough => hnot (himp hthrough)⟩

theorem after_insertSelectRows (h : ListsCurrent o x s) {insert : InsertSelect}
    (hsource : ∀ key relation base, insert.SourceKey session key →
      TableAt o s.world key relation base → Listable o s key) :
  After (insertSelectRows o df x session insert) s (fun r s' =>
    InsertProgress o x session insert (∃ outcome, r = .ok outcome) s s'
      ∧ ∀ outcome relation, r = .ok (outcome, some relation) →
        (∃ base, TableAt o s.world (insert.targetKey session) relation base)
          ∧ s'.fileListCache.cached (insert.targetKey session) = none)
  := by
  rw [insertSelectRows, after_bind]
  apply After.mono (after_tryDistributedInsert h hsource)
  intro r s₁ hprogress
  rcases r with e | _ | outcome
  · exact ⟨hprogress.imp (fun ⟨_, h⟩ => nomatch h), nofun⟩
  · rw [resume_ok]
    dsimp only
    rw [after_bind, after_onWorld]
    apply After.mono (after_tableRelation insert.database insert.schema insert.name)
    rintro r w₁ ⟨rfl, hrelation⟩
    rcases r with e | relation
    · exact ⟨hprogress.imp (fun ⟨_, h⟩ => nomatch h), nofun⟩
    · obtain ⟨-, hfound⟩ := hrelation relation rfl
      rw [hprogress.catalog] at hfound
      have hkey : relation.key = insert.targetKey session := (h.namespaced.key_eq hfound).symm
      rw [resume_ok, after_bind, after_onWorld]
      apply After.mono (after_tableStorePrefix relation)
      rintro r w₁ ⟨rfl, hbase⟩
      rcases r with e | base
      · exact ⟨hprogress.imp (fun ⟨_, h⟩ => nomatch h), nofun⟩
      · have hat : TableAt o s.world (insert.targetKey session) relation base :=
          ⟨hfound, hbase base rfl⟩
        rw [resume_ok, after_bind, after_onWorld]
        apply After.mono (insertSelected_below o df x relation _ _ _)
        intro r w₂ hframe
        rcases r with e | rowCount
        · refine ⟨?_, nofun⟩
          exact hprogress.trans hat (insertedInto_of_frame (fun ⟨_, h⟩ => nomatch h) hframe)
        · rw [resume_ok, after_bind, invalidateFileList, after_modify, resume_ok, after_pure]
          rw [hkey]
          refine ⟨?_, ?_⟩
          · apply hprogress.trans hat
            exact (insertedInto_of_frame not_false hframe).trans (insertedInto_invalidate _ _ _ _)
          · rintro _ _ ⟨rfl, rfl⟩
            exact ⟨⟨base, hat⟩, (FileListCache.cached_invalidate _ _ _).trans (if_pos rfl)⟩
  · refine ⟨hprogress.imp (fun _ => ⟨outcome, rfl⟩), ?_⟩
    rintro _ _ ⟨rfl, h⟩

theorem after_executeInsertSelect (h : ListsCurrent o x s) {insert : InsertSelect}
    (hsource : ∀ key relation base, insert.SourceKey session key →
      TableAt o s.world key relation base → Listable o s key) :
  After (executeInsertSelect o df x session insert) s (fun _ =>
    InsertProgress o x session insert
      (∃ outcome, (exec (insertSelectRows o df x session insert) s).1 = .ok outcome) s)
  := by
  have houtcome : After (insertSelectRows o df x session insert) s (fun r _ =>
      r = (exec (insertSelectRows o df x session insert) s).1) := rfl
  rw [executeInsertSelect, after_bind]
  apply After.mono ((after_insertSelectRows h hsource).and houtcome)
  rintro r s₁ ⟨⟨hprogress, hinserted⟩, hr⟩
  rw [hr] at hprogress
  rcases r with e | ⟨outcome, _ | relation⟩
  · exact hprogress
  · exact hprogress
  · obtain ⟨⟨base, hat⟩, huncached⟩ := hinserted outcome relation rfl
    rw [resume_ok]
    dsimp only
    rw [after_bind, after_onWorld]
    apply After.mono (rebuildAllIndexSnapshots_modifies o df session hat.located _)
    intro r w' hframe
    have hrebuilt : InsertProgress o x session insert
        (∃ outcome, (exec (insertSelectRows o df x session insert) s).1 = .ok outcome) s
        { s₁ with world := w' } := by
      apply hprogress.trans hat
      exact ⟨hframe.mono (fun _ => indexKey_below), fun _ _ => rfl, .inl huncached⟩
    rcases r with e | _
    · exact hrebuilt
    · exact hrebuilt

/-- The lists after an insert are up to date when the tables with cached lists, and the source,
are apart from its table, and its table has no list or the insert gets through. -/
theorem InsertProgress.current {insert : InsertSelect} {through : Prop} {s' : EngineState}
    (hprogress : InsertProgress o x session insert through s s')
    (hin : ∀ relation base, TableAt o s.world (insert.targetKey session) relation base →
      CachedApart o s (· = insert.targetKey session) base
        ∧ (∀ key source other, insert.SourceKey session key → key ≠ insert.targetKey session →
          TableAt o s.world key source other → Apart other base)
        ∧ (s.fileListCache.cached (insert.targetKey session) = none
            ∧ ¬ insert.SourceKey session (insert.targetKey session) ∨ through)) :
  ListsCurrent o x s'
  := by
  obtain ⟨s₁, hlisted, rfl | ⟨relation, base, hat, hinserted⟩⟩ := hprogress
  · exact hlisted.current
  obtain ⟨hcached, hsource, htarget⟩ := hin relation base hat
  have hlist : ∀ key files, s'.fileListCache.cached key = some files →
      s₁.fileListCache.cached key = some files := by
    intro key files hfiles
    by_cases hkey : key = insert.targetKey session
    · subst hkey
      obtain hnone | ⟨hsame, -⟩ := hinserted.target
      · rw [hnone] at hfiles
        cases hfiles
      · rw [← hsame]
        exact hfiles
    · rw [← hinserted.others key hkey]
      exact hfiles
  apply hlisted.current.of_kept
  · rw [hinserted.frame.catalog]
    exact hlisted.current.namespaced
  · exact hlist
  · apply keepsListed_of_frame hinserted.frame
    intro key relation' other hother hne object hobject
    obtain ⟨files, hfiles⟩ := Option.ne_none_iff_exists'.mp hne
    have hlisted₁ := hlist key files hfiles
    have hother := hother.of_frame hlisted.frame
    by_cases hkey : key = insert.targetKey session
    · subst hkey
      obtain hnone | ⟨hsame, hnot⟩ := hinserted.target
      · exact absurd hnone hne
      · obtain ⟨huncached, hnotSource⟩ | hthrough := htarget
        · rw [hlisted.others _ hnotSource, huncached] at hlisted₁
          cases hlisted₁
        · exact absurd hthrough hnot
    · by_cases hsourceKey : insert.SourceKey session key
      · exact (hsource key relation' other hsourceKey hkey hother).not_below hobject
      · rw [hlisted.others key hsourceKey] at hlisted₁
        apply hcached.not_below hother _ hkey hobject
        rw [hlisted₁]
        nofun

/-! ### Runs -/

/-- A statement in time keeps the lists up to date. -/
theorem ListsCurrent.statement (h : ListsCurrent o x s) {statement : TableStatement}
    (hin : InTime o df x s session statement) :
  After (executeStatement o df x session statement) s (fun _ => ListsCurrent o x)
  := by
  cases statement with
  | select database schema name =>
      unfold executeStatement
      rw [after_bind]
      apply After.mono (after_distributedFiles h hin)
      rintro r s' ⟨hcurrent, -⟩
      rcases r with e | files
      · exact hcurrent
      · exact hcurrent
  | insertInto database schema name columns rows =>
      exact h.onTable hin (after_executeInsertInto_frame columns rows)
  | insertSelect insert =>
      obtain ⟨hsource, htarget⟩ := hin
      unfold executeStatement
      rw [after_bind]
      apply After.mono (after_executeInsertSelect h hsource)
      intro r s' hprogress
      rcases r with e | outcome
      · exact hprogress.current htarget
      · exact hprogress.current htarget
  | update database schema name assignments selection =>
      exact h.onTable hin (after_executeUpdate_frame assignments selection)
  | delete database schema name selection =>
      exact h.onTable hin (after_executeDelete_frame selection)
  | truncate database schema name => exact h.onTable hin after_executeTruncate_frame
  | vacuum database schema name => exact h.onTable hin after_executeVacuumTable_frame
  | dropTable database schema name ifExists => exact h.dropTable hin
  | create database schema name statement => exact h.create hin
  | rename statement => exact h.rename hin

/-- An engine that was just started, on a catalogue in order. -/
def Started (s : EngineState) : Prop :=
  s.world.catalog.Namespaced ∧ s.fileListCache = .new

/-- Statements, each in time for the cache. -/
abbrev TimelyStep (o : Outside) (df : DataFusion) (x : Execution) :
    EngineState → EngineState → Prop :=
  Run.byOps (afterStatement o df x) (fun request s => InTime o df x s request.1 request.2)

theorem reachable_listsCurrent (h : Run.Reachable Started (TimelyStep o df x) s) :
  ListsCurrent o x s
  := by
  apply h.invariant
  · rintro s ⟨hnamespaced, hnew⟩
    refine ⟨hnamespaced, ?_⟩
    intro key relation base files _ hcached
    rw [hnew] at hcached
    simp [FileListCache.cached, FileListCache.new] at hcached
  · rintro s t hcurrent ⟨request, hin, rfl⟩
    exact hcurrent.statement hin

/-- In every state statements in time lead to, the list of files a distributed SELECT obtains is
the one its table has. -/
theorem timely_select_obtains_current_files
    (h : Run.Reachable Started (TimelyStep o df x) s)
    (hin : InTime o df x s session (.select database schema name)) {files : List ListedFile}
    (hfiles : (exec (distributedFiles o x session database schema name) s).1
      = .ok (some files)) :
  ∃ relation base, TableAt o s.world (namedKey session database schema name) relation base
    ∧ currentFiles x s.world.store base = some files
  := (after_distributedFiles (reachable_listsCurrent h) hin).2.2.2 files hfiles

end

/-! ### A table with one file -/

section

open Eff

/-- What the sample statements are executed with. -/
abbrev sampleDataFusion : DataFusion := .faultless (fun _ _ => .ok none)

/-- An engine that was just started, with one table. -/
def sampleEngine : EngineState :=
  { world := samplePlacedWorld
    fileListCache := .new }

/-- The engine after some statements. -/
abbrev runEngine (statements : List TableStatement) : EngineState :=
  Run.performAll (afterStatement sampleOutside sampleDataFusion .idle)
    (statements.map (fun statement => (({} : SessionContext), statement))) sampleEngine

/-- The table is listed for the first time after a row was inserted. -/
theorem timely_select_obtains_current_files_insert :
  ∃ relation base,
    TableAt sampleOutside (runEngine [.insertInto none none "t" none [["3"]]]).world
        (namedKey {} none none "t") relation base
      ∧ currentFiles .idle (runEngine [.insertInto none none "t" none [["3"]]]).world.store base
        = some [(["file://", "d", "db=postgres", "schema=public", "table=t", "data", "0.parquet"],
            0, 0),
          (["file://", "d", "db=postgres", "schema=public", "table=t", "data", "u.parquet"], 1, 1)]
  := by
  have hreachable : Run.Reachable Started (TimelyStep sampleOutside sampleDataFusion .idle)
      (runEngine [.insertInto none none "t" none [["3"]]]) := by
    apply Run.Reachable.performAll (.start ⟨samplePlacedWorld_namespaced, rfl⟩)
    refine ⟨?_, trivial⟩
    intro relation base _ key relation' other _ hcached
    simp [sampleEngine, FileListCache.cached, FileListCache.new] at hcached
  apply timely_select_obtains_current_files hreachable
  · intro relation base _
    exact .inr ⟨rfl, rfl⟩
  · decide

/-- A SELECT, an INSERT that succeeds, and a SELECT that obtains the list of the first one. -/
theorem select_obtains_stale_files :
  Started sampleEngine
    ∧ (exec (executeStatement sampleOutside sampleDataFusion .idle {}
        (.insertInto none none "t" none [["3"]])) (runEngine [.select none none "t"])).1 = .ok ()
    ∧ ∃ files, (exec (distributedFiles sampleOutside .idle {} none none "t")
        (runEngine [.select none none "t", .insertInto none none "t" none [["3"]]])).1
          = .ok (some files)
      ∧ ∀ relation base,
        TableAt sampleOutside
            (runEngine [.select none none "t", .insertInto none none "t" none [["3"]]]).world
            (namedKey {} none none "t") relation base →
          currentFiles .idle
            (runEngine [.select none none "t", .insertInto none none "t" none [["3"]]]).world.store
            base ≠ some files
  := by
  refine ⟨⟨samplePlacedWorld_namespaced, rfl⟩, by decide,
    [(["file://", "d", "db=postgres", "schema=public", "table=t", "data", "0.parquet"], 0, 0)],
    by decide, ?_⟩
  rintro relation base ⟨hfound, hlocated⟩
  have hrelation : (runEngine [.select none none "t",
      .insertInto none none "t" none [["3"]]]).world.catalog.relations[namedKey {} none none "t"]?
      = some samplePlacedTable := by
    decide
  rw [hrelation] at hfound
  cases hfound
  rw [samplePlacedTable_base] at hlocated
  cases hlocated
  decide

end
