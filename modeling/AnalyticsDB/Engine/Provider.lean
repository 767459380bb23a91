import AnalyticsDB.Engine.Snapshot

/-!
# What readers of a table see

A table is read in two ways: by the provider that DataFusion asks for the tables of a
query, and by the indexed path, which takes from the files the rows whose ids an index has
found.  Both read the files of the manifest.  When there are none, or when the manifest
could not be read, both read what the directory of the table holds.
-/

section

variable (o : Outside) (df : DataFusion)

/-- Whether the row id of a row is among those an index has found. -/
def hasRowId (columns rowIds : List String) (row : Row) : Bool :=
  match ((columns.zip row).lookup "_row_id").join with
  | some (.text id) => rowIds.contains id
  | _ => false

/-- The rows with the given ids, over the columns of a projection. -/
def indexedRows (relation : CatalogRelation) (rowIds projection : List String)
    (rows : List Row) : List Row :=
  ((df.castRows relation.columns rows).filter (hasRowId (providerColumns relation) rowIds)).map
    (pick (providerColumns relation) projection)

/-- The rows of an indexed SELECT, given the row ids the index has found. -/
def tryExecuteIndexedSelect (relation : CatalogRelation) (rowIds : List String)
    (projection : Option (List String)) : Op (List Row) := do
  if rowIds.isEmpty then
    return []
  let projection := projection.getD relation.userColumns
  let rows ← readTable o df relation (providerColumns relation)
  if !projection.all (providerColumns relation).contains then
    bail "Schema error: No field named"
  return indexedRows df relation rowIds projection rows

/-! ### The files that are read -/

/-- What a first reading of the manifest of the table at `base` gives: the files it lists,
nothing when the object could not be got, or an error when it could not be read. -/
def manifestRead (w : World) (base : OPath) : Except Unit (Option (List ManifestEntry)) :=
  match o.storeError w.calls, w.store[manifestKey base]? with
  | none, some obj =>
    match o.storeError (w.calls + 1), obj with
    | none, .manifest m => .ok (some m.files)
    | _, _ => .error ()
  | _, _ => .ok none

/-- The Parquet files directly below a path, as they are read. -/
def parquetChildren (store : ObjectStore) (base : OPath) : List OPath :=
  (((store.below base).map (·.1)).filter (fun key => match key.drop base.length with
    | [fileName] => isParquetName fileName
    | _ => false)).map localKey

/-- The files a scan of the directory of a table without a manifest finds. -/
def directoryScan (w : World) (base : OPath) : List OPath :=
  let files := if o.storeError (w.calls + 1) = none then parquetChildren w.store base else []
  if files.isEmpty then df.directoryFiles w.store base else files

/-- The files that are read. -/
def filesSeen (w : World) (base : OPath) : List OPath :=
  match manifestRead o w base with
  | .ok none => directoryScan o df w base
  | .ok (some []) => df.directoryFiles w.store base
  | .ok (some entries) => entries.map (fun entry => localKey (entry.key base))
  | .error _ => df.directoryFiles w.store base

end

section

open Eff

variable (o : Outside) (df : DataFusion)

theorem after_listParquetFiles (base : OPath) (w : World) :
  After (listParquetFiles o base) w (fun outcome w' => w'.store = w.store
    ∧ outcome.toOption.getD []
      = if o.storeError w.calls = none then parquetChildren w.store base else [])
  := by
  simp only [listParquetFiles, storeList, storeFault, after_bind, after_outsideCall, resume_ok,
    after_pure]
  split
  · rename_i hfault
    simp [hfault, Except.toOption]
  · rename_i e hfault
    simp [hfault, Except.toOption]
  · rename_i hfault
    simp only [hfault, if_true, after_bind, after_get, resume_ok, after_pure, true_and]
    rfl

/-- Listing the files of a table takes them from the manifest, and from its directory when
the manifest could not be got. -/
theorem after_listFiles (base : OPath) (w : World) :
  After (listFiles o base) w (fun outcome w' => w'.store = w.store
    ∧ outcome.toOption.getD [] = match manifestRead o w base with
      | .ok none =>
          if o.storeError (w.calls + 1) = none then parquetChildren w.store base else []
      | .ok (some entries) => entries.map (fun entry => localKey (entry.key base))
      | .error _ => [])
  := by
  unfold manifestRead
  simp only [listFiles, readManifest, readManifestVersioned, storeGet, storeFault, after_bind,
    after_outsideCall, resume_ok, after_pure]
  cases hfault : o.storeError w.calls with
  | some e => apply after_listParquetFiles
  | none =>
      simp only [after_bind, after_get, resume_ok]
      cases hobj : w.store[manifestKey base]? with
      | none => apply after_listParquetFiles
      | some obj =>
          simp only [after_pure, resume_ok, after_bind, after_outsideCall]
          cases hread : o.storeError (w.calls + 1) with
          | some e => exact ⟨rfl, rfl⟩
          | none =>
              cases obj with
              | manifest m => exact ⟨rfl, rfl⟩
              | parquet batch => exact ⟨rfl, rfl⟩
              | other bytes => exact ⟨rfl, rfl⟩

theorem filesSeen_eq (w : World) (base : OPath) :
  filesSeen o df w base = (
    let files := match manifestRead o w base with
      | .ok none =>
          if o.storeError (w.calls + 1) = none then parquetChildren w.store base else []
      | .ok (some entries) => entries.map (fun entry => localKey (entry.key base))
      | .error _ => []
    if files.isEmpty then df.directoryFiles w.store base else files)
  := by
  unfold filesSeen directoryScan
  rcases manifestRead o w base with e | _ | _ | ⟨entry, entries⟩
  · rfl
  · rfl
  · rfl
  · rfl

theorem committedFiles_returns (location : String) (w : World) :
  Returns (committedFiles o location) w (fun files w' => w'.store = w.store
    ∧ match storeForLocation o location with
      | .error _ => files = []
      | .ok base => filesSeen o df w base
          = if files.isEmpty then df.directoryFiles w.store base else files)
  := by
  unfold committedFiles
  cases storeForLocation o location with
  | error message => simp
  | ok base =>
      rw [returns_bind, returns_attempt]
      apply After.mono (after_listFiles o base w)
      rintro outcome w' ⟨hstore, hfiles⟩
      have hseen := filesSeen_eq o df w base
      rw [← hfiles] at hseen
      cases outcome with
      | ok files =>
          rw [returns_pure]
          exact ⟨hstore, hseen⟩
      | error e =>
          rw [returns_pure]
          exact ⟨hstore, hseen⟩

/-- Which files of a table are read. -/
theorem filesToRead_returns (location : String) (w : World) :
  Returns (filesToRead o df location) w (fun files w' => w'.store = w.store
    ∧ ∃ base, storeForLocation o location = .ok base ∧ files = filesSeen o df w base)
  := by
  rw [filesToRead, returns_bind]
  refine Returns.mono (committedFiles_returns o df location w) ?_
  rintro files w' ⟨hstore, hfiles⟩
  rw [returns_ite]
  constructor
  · intro hempty
    rw [returns_bind, returns_orBail]
    intro base hbase
    simp only [returns_ite, returns_bind, returns_get, returns_pure]
    constructor
    · intro _
      apply returns_bail
    · intro _
      rw [hbase] at hfiles
      refine ⟨hstore, base, hbase, ?_⟩
      rw [hfiles, if_pos hempty, hstore]
  · intro hempty
    rw [returns_pure]
    cases hbase : storeForLocation o location with
    | error message =>
        rw [hbase] at hfiles
        exact absurd (by rw [hfiles]; rfl) hempty
    | ok base =>
        rw [hbase] at hfiles
        refine ⟨hstore, base, rfl, ?_⟩
        rw [hfiles, if_neg hempty]

/-- The rows of a list of files. -/
theorem readFiles_ok {columns : List String} {store : ObjectStore} {files : List OPath}
    {rows : List Row} (h : readFiles df columns store files = .ok rows) :
  rows = files.flatMap (fileRows columns store)
  := by
  induction files generalizing rows with
  | nil =>
      cases h
      rfl
  | cons path files ih =>
      obtain ⟨first, hfirst, h⟩ := Except.bind_eq_ok_iff.mp h
      obtain ⟨rest, hrest, ⟨⟩⟩ := Except.bind_eq_ok_iff.mp h
      rw [List.flatMap_cons, ← ih hrest]
      congr 1
      unfold readFile at hfirst
      unfold fileRows
      split at hfirst
      · rename_i hobj
        cases hfirst
        rw [hobj]
      · cases hfirst
      · rename_i hobj _
        cases hfirst
        rw [hobj]
      · cases hfirst

/-- Reading a table reads the files that are seen. -/
theorem readTable_filesSeen (relation : CatalogRelation) (columns : List String) (w : World) :
  Returns (readTable o df relation columns) w (fun rows _ =>
    ∃ base, relation.base? o = some base
      ∧ rows = (filesSeen o df w base).flatMap (fileRows columns w.store))
  := by
  unfold readTable
  split
  · apply returns_bail
  · rename_i location hlocation
    rw [returns_bind]
    refine Returns.mono (filesToRead_returns o df location w) ?_
    rintro _ w₁ ⟨hstore, base, hbase, rfl⟩
    rw [returns_bind]
    refine Returns.of_after (After.mono (queryFault_modifies df (fun _ => False) w₁) ?_)
    intro _ w₂ hframe _
    simp only [returns_ite, returns_bind, returns_get, returns_orBail]
    constructor
    · intro _
      apply returns_bail
    · intro _ rows hrows
      refine ⟨base, ?_, ?_⟩
      · rw [CatalogRelation.base?, hlocation, Option.bind_some, hbase]
        rfl
      · rw [readFiles_ok df hrows, hframe.store_eq, hstore]

/-! ### The rows that are seen -/

/-- What a reader of the table at `base` that presents the rows it reads by `present` gets.
When the manifest is read and lists files, these are the rows of the listed files (of a
table on local storage).  When it lists none, and the directory holds no rows either, there
are none.  When it could not be got or read, they are those the directory holds. -/
structure SeesCommitted (w : World) (base : OPath) (columns : List String)
    (present : List Row → List Row) (rows : List Row) : Prop where
  listed : ∀ entries, manifestRead o w base = .ok (some entries) → entries ≠ [] →
    base.head? = some "file://" → rows = present (committedRows columns w.store base)
  unlisted : manifestRead o w base = .ok (some []) →
    (df.directoryFiles w.store base).flatMap (fileRows columns w.store) = [] → rows = []
  missing : manifestRead o w base = .ok none →
    rows = present ((directoryScan o df w base).flatMap (fileRows columns w.store))
  unreadable : ∀ e, manifestRead o w base = .error e →
    rows = present ((df.directoryFiles w.store base).flatMap (fileRows columns w.store))

theorem manifestRead_ok {w : World} {base : OPath} {entries : List ManifestEntry}
    (h : manifestRead o w base = .ok (some entries)) :
  ∃ m, w.store[manifestKey base]? = some (.manifest m) ∧ m.files = entries
  := by
  unfold manifestRead at h
  split at h
  · rename_i obj _ hobj
    split at h
    · rename_i m _
      cases h
      exact ⟨m, hobj, rfl⟩
    · cases h
  · cases h

/-- A reader of the files that are seen sees what is committed. -/
theorem seesCommitted_filesSeen (w : World) (base : OPath) (columns : List String)
    {present : List Row → List Row} (hnil : present [] = []) :
  SeesCommitted o df w base columns present
    (present ((filesSeen o df w base).flatMap (fileRows columns w.store)))
  := by
  constructor
  · intro entries hread hentries hlocal
    obtain ⟨m, hm, rfl⟩ := manifestRead_ok o hread
    have hseen : filesSeen o df w base
        = m.files.map (fun entry => localKey (entry.key base)) := by
      unfold filesSeen
      rw [hread]
      cases hfiles : m.files with
      | nil => exact absurd hfiles hentries
      | cons entry entries => rfl
    rw [hseen, committedRows, hm, List.flatMap_map]
    congr 2
    funext entry
    -- on local storage the engine's local path of a key is the key itself
    cases base with
    | nil => cases hlocal
    | cons store base =>
        cases hlocal
        rfl
  · intro hread hempty
    have hseen : filesSeen o df w base = df.directoryFiles w.store base := by
      rw [filesSeen, hread]
    rw [hseen, hempty, hnil]
  · intro hread
    rw [filesSeen, hread]
  · intro e hread
    rw [filesSeen, hread]

/-- Both ways of reading a table see what is committed. -/
theorem readers_seeCommitted (session : SessionContext) (relation : CatalogRelation)
    (rowIds : List String) (projection : Option (List String)) (w : World) :
  Returns (scanTable o df session relation) w (fun scan _ => ∃ found base,
      (exec (findRelation { session with database := relation.database }
        (some relation.database) (some relation.schema) relation.name) w).1 = .ok found
      ∧ found.base? o = some base
      ∧ SeesCommitted o df w base (providerColumns found) (df.readAs found.columns) scan.2)
    ∧ Returns (tryExecuteIndexedSelect o df relation rowIds projection) w (fun rows _ =>
      rowIds = [] ∧ rows = []
      ∨ ∃ base, relation.base? o = some base
        ∧ SeesCommitted o df w base (providerColumns relation)
          (indexedRows df relation rowIds (projection.getD relation.userColumns)) rows)
  := by
  constructor
  · rw [scanTable, returns_bind]
    refine Returns.mono ((Returns.outcome _ w).with_after (findRelation_keeps _ _ _ _ w)) ?_
    rintro found w₁ ⟨rfl, hfound⟩
    rw [returns_ite]
    constructor
    · intro _
      apply returns_bail
    · intro _
      rw [returns_bind]
      refine Returns.mono (readTable_filesSeen o df found _ w₁) ?_
      rintro _ w₂ ⟨base, hbase, rfl⟩
      rw [returns_pure]
      refine ⟨found, base, ?_, hbase, ?_⟩
      · rw [hfound]
      · apply seesCommitted_filesSeen
        apply List.eq_nil_of_length_eq_zero
        have hwidths := congrArg List.length (df.readAs_widths found.columns [])
        simpa using hwidths
  · unfold tryExecuteIndexedSelect
    rw [returns_ite]
    constructor
    · intro hempty
      rw [returns_pure]
      exact .inl ⟨List.isEmpty_iff.mp hempty, rfl⟩
    · intro _
      rw [returns_bind]
      refine Returns.mono (readTable_filesSeen o df relation _ w) ?_
      rintro _ w' ⟨base, hbase, rfl⟩
      rw [returns_ite]
      constructor
      · intro _
        apply returns_bail
      · intro _
        rw [returns_pure]
        refine .inr ⟨base, hbase, ?_⟩
        apply seesCommitted_filesSeen
        rw [indexedRows, df.castRows_nil]
        rfl

/-- An outside in which the first call to a store fails. -/
def Outside.failingOnce : Outside :=
  { Outside.faultless with
    storeError := fun call => if call = 0 then some (.generic "connection reset") else none }

/-- When the manifest cannot be got, reading the table succeeds and returns no rows, though
the manifest lists a file with three. -/
theorem scanTable_hides_rows :
  ¬ Returns (scanTable Outside.failingOnce (DataFusion.faultless (fun _ _ => .ok none)) {}
      sampleTable) sampleWorld (fun scan _ =>
    scan.2.Perm (committedRows scan.1 sampleWorld.store ["file://", "m", "t"]))
  := by
  intro h
  have hrows := h (["k", "_row_id"], []) (by decide +kernel)
  apply absurd hrows
  decide +kernel

end
