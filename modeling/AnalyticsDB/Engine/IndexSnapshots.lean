import AnalyticsDB.Engine.FileListCache
import AnalyticsDB.Storage.Success

/-!
# Index snapshots

A published snapshot of an index holds the key and the row id of every row.  It is built from what
a scan of the table yields, and an insert is checked against it.  What these return is determined
when nothing that is asked of a store or of DataFusion fails.
-/

/-- Nothing that is asked of a store or of DataFusion fails, a table over a directory reads the
Parquet files in it, and rows are presented as they are stored. -/
structure Reliable (o : Outside) (df : DataFusion) : Prop where
  store : ∀ n, o.storeError n = none
  query : ∀ n, df.queryError n = none
  directory : ∀ store base, ∀ key ∈ df.directoryFiles store base,
    ∃ fileName, key = base ++ [fileName] ∧ isParquetName fileName = true ∧ store[key]? ≠ none
  presented : ∀ columns rows, df.readAs columns rows = rows

section

variable (o : Outside) (session : SessionContext) (relation : CatalogRelation) (base : OPath)

/-- A table of the catalogue that queries of a session can read: its files are in the local store,
and those that it has besides the committed ones are not directly below its path. -/
structure Readable (w : World) : Prop where
  session : validateSession w.catalog { session with database := relation.database } = .ok ()
  found : w.catalog.relations[relation.key]? = some relation
  kind : relation.kind = .table
  located : relation.base? o = some base
  isLocal : base.head? = some "file://"
  distinct : (providerColumns relation).Nodup
  directory : ∀ fileName, isParquetName fileName = true → w.store[base ++ [fileName]]? = none

/-- An index whose snapshot can be built. -/
structure ReadyIndex (index : CatalogIndex) : Prop where
  columns : index.columns ≠ []
  distinct : (index.columns ++ ["_row_id"]).Nodup
  known : ∀ column ∈ index.columns, column ∈ providerColumns relation

end

/-- Whether the keys of an index are to be distinct. -/
def CatalogIndex.unique (index : CatalogIndex) : Bool := index.isUnique || index.isPrimary

/-- The keys of an index in the rows of some files. -/
def indexKeysOf (index : CatalogIndex) (batches : List RecordBatch) : List Row :=
  batches.flatMap (·.rowsOver index.columns)

/-- The entries of an index: keys with row ids. -/
def indexEntriesOf (index : CatalogIndex) (batches : List RecordBatch) : List Row :=
  batches.flatMap (·.rowsOver (index.columns ++ ["_row_id"]))

/-- The schema of the snapshot of an index. -/
def snapshotSchema (index : CatalogIndex) : Schema :=
  (index.columns ++ ["_row_id"]).map (fun column => { rowIdField with name := column })

/-- The published snapshot of an index holds the given entries. -/
def Published (store : ObjectStore) (base : OPath) (index : CatalogIndex) (entries : List Row) :
    Prop :=
  ∃ version metadata, store[indexKey base index.name ++ ["manifest.json"]]? = some (.other version)
    ∧ store[indexKey base index.name ++ ["versions", version] ++ ["metadata.json"]]?
      = some (.other metadata)
    ∧ store[indexKey base index.name ++ ["versions", version] ++ ["data.parquet"]]?
      = some (.parquet { schema := snapshotSchema index, rows := entries })

section

open Eff

variable {o : Outside} {df : DataFusion} {session : SessionContext} {relation : CatalogRelation}
  {base : OPath} {w : World}

/-! ### What a scan yields -/

theorem readFiles_eq {columns : List String} {store : ObjectStore}
    (hlocal : base.head? = some "file://") {entries : List ManifestEntry}
    {batches : List RecordBatch} (h : StoredAs store base entries batches) :
  readFiles df columns store (entries.map (fun entry => localKey (entry.key base)))
    = .ok (batches.flatMap (·.rowsOver columns))
  := by
  have hkey : ∀ entry : ManifestEntry, localKey (entry.key base) = entry.key base := by
    intro entry
    cases base with
    | nil => cases hlocal
    | cons head base =>
        cases hlocal
        rfl
  unfold StoredAs at h
  induction h with
  | nil => rfl
  | cons hentry _ ih =>
      rw [List.map_cons, readFiles, hkey, readFile, hentry.2, ih]
      rfl

/-- A directory without Parquet files. -/
theorem directoryFiles_eq_nil (h : Reliable o df) {store : ObjectStore}
    (hdirectory : ∀ fileName, isParquetName fileName = true → store[base ++ [fileName]]? = none) :
  df.directoryFiles store base = []
  := by
  rw [List.eq_nil_iff_forall_not_mem]
  intro key hkey
  obtain ⟨fileName, rfl, hname, hsome⟩ := h.directory store base key hkey
  exact hsome (hdirectory fileName hname)

theorem queryFault_succeeds (h : Reliable o df) (w : World) :
  Succeeds (queryFault df) w (fun _ w' => Frame (fun _ => False) w w')
  := by
  rw [queryFault, succeeds_bind, succeeds_outsideCall]
  simp only [h.query]
  rw [succeeds_pure]
  exact Frame.call _ w

theorem readManifest_succeeds (h : Reliable o df) {m : Manifest}
    (hm : w.store[manifestKey base]? = some (.manifest m)) :
  Succeeds (readManifest o base) w (fun read w' => read = some m ∧ Frame (fun _ => False) w w')
  := by
  rw [readManifest, succeeds_bind]
  refine Succeeds.mono ((readManifestVersioned_succeeds h.store (m := some m) hm).with_after
    (readManifestVersioned_modifies o (fun _ => False) base w)) ?_
  rintro _ w₁ ⟨⟨rfl, -⟩, hframe⟩
  rw [succeeds_pure]
  exact ⟨rfl, hframe⟩

theorem listFiles_succeeds (h : Reliable o df) {m : Manifest}
    (hm : w.store[manifestKey base]? = some (.manifest m)) :
  Succeeds (listFiles o base) w (fun files w' =>
    files = m.files.map (fun entry => localKey (entry.key base)) ∧ Frame (fun _ => False) w w')
  := by
  rw [listFiles, succeeds_bind]
  refine Succeeds.mono (readManifest_succeeds h hm) ?_
  rintro _ w₁ ⟨rfl, hframe⟩
  dsimp only
  rw [succeeds_pure]
  exact ⟨rfl, hframe⟩

/-- The files that a reader of a readable table reads. -/
theorem filesToRead_succeeds (h : Reliable o df) (hreadable : Readable o session relation base w)
    {location : String} (hlocation : storeForLocation o location = .ok base) {m : Manifest}
    (hm : w.store[manifestKey base]? = some (.manifest m)) :
  Succeeds (filesToRead o df location) w (fun files w' =>
    files = m.files.map (fun entry => localKey (entry.key base)) ∧ Frame (fun _ => False) w w')
  := by
  have hcommitted : Succeeds (committedFiles o location) w (fun files w' =>
      files = m.files.map (fun entry => localKey (entry.key base))
        ∧ Frame (fun _ => False) w w') := by
    rw [committedFiles, hlocation]
    dsimp only
    rw [succeeds_bind]
    obtain ⟨files, hfiles, hlisted⟩ := listFiles_succeeds h hm
    refine ⟨.ok files, ?_, ?_⟩
    · rw [exec_attempt, hfiles]
    · rw [exec_attempt]
      exact (succeeds_pure _ _ _).mpr hlisted
  rw [filesToRead, succeeds_bind]
  refine Succeeds.mono hcommitted ?_
  rintro _ w₁ ⟨rfl, hframe⟩
  rw [succeeds_ite]
  constructor
  · intro hempty
    rw [List.isEmpty_iff] at hempty
    rw [hlocation, orBail, pure_bind, succeeds_ite]
    refine ⟨fun hremote => absurd hreadable.isLocal hremote, fun _ => ?_⟩
    rw [succeeds_bind, succeeds_get, succeeds_pure, hempty, hframe.store_eq]
    exact ⟨directoryFiles_eq_nil h hreadable.directory, hframe⟩
  · intro _
    rw [succeeds_pure]
    exact ⟨rfl, hframe⟩

/-- A scan of a readable table yields its committed rows. -/
theorem scanTable_succeeds (h : Reliable o df) (hreadable : Readable o session relation base w)
    {batches : List RecordBatch} (hcommitted : CommittedAs w.store base batches) :
  Succeeds (scanTable o df session relation) w (fun scan w' =>
    scan = (providerColumns relation, batches.flatMap (·.rowsOver (providerColumns relation)))
      ∧ Frame (fun _ => False) w w')
  := by
  obtain ⟨m, hm, hstored⟩ := hcommitted
  obtain ⟨location, hlocation, hbase⟩ := location_of_base hreadable.located
  have hfound : Succeeds (findRelation { session with database := relation.database }
      (some relation.database) (some relation.schema) relation.name) w (fun found w' =>
        found = relation ∧ w' = w) := by
    rw [findRelation, succeeds_bind, succeeds_readState, succeeds_bind, succeeds_orBail]
    refine ⟨_, hreadable.session, ?_⟩
    have hkey := hreadable.found
    unfold CatalogRelation.key at hkey
    simp only [Option.getD_some, hkey]
    rw [succeeds_pure]
    exact ⟨rfl, rfl⟩
  rw [scanTable, succeeds_bind]
  refine Succeeds.mono hfound ?_
  rintro _ w ⟨rfl, rfl⟩
  rw [succeeds_ite]
  refine ⟨fun hkind => absurd hreadable.kind hkind, fun _ => ?_⟩
  rw [succeeds_bind, readTable, hlocation]
  dsimp only
  rw [succeeds_bind]
  refine Succeeds.mono (filesToRead_succeeds h hreadable hbase hm) ?_
  rintro _ w₁ ⟨rfl, hframe₁⟩
  rw [succeeds_bind]
  refine Succeeds.mono (queryFault_succeeds h w₁) ?_
  rintro - w₂ hframe₂
  have hstore : w₂.store = w.store := hframe₂.store_eq.trans hframe₁.store_eq
  rw [succeeds_ite]
  refine ⟨fun hdistinct => ?_, fun _ => ?_⟩
  · rw [Bool.not_eq_true', decide_eq_false_iff_not] at hdistinct
    exact absurd hreadable.distinct hdistinct
  · rw [succeeds_bind, succeeds_get, succeeds_orBail, hstore,
      readFiles_eq hreadable.isLocal hstored]
    refine ⟨_, rfl, ?_⟩
    rw [succeeds_pure, h.presented]
    exact ⟨rfl, hframe₁.trans hframe₂⟩

/-- The cells of some columns in a row over the columns of a file. -/
theorem pick_rowsOver {batch : RecordBatch} {columns wanted : List String}
    (hwanted : ∀ column ∈ wanted, column ∈ columns) :
  (batch.rowsOver columns).map (pick columns wanted) = batch.rowsOver wanted
  := by
  unfold RecordBatch.rowsOver
  rw [List.map_map]
  apply List.map_congr_left
  intro row _
  apply List.map_congr_left
  intro column hcolumn
  have hlookup : ∀ names : List String, column ∈ names →
      (names.zip (names.map (cellAt batch.schema row))).lookup column
        = some (cellAt batch.schema row column) := by
    intro names hmem
    induction names with
    | nil => cases hmem
    | cons name names ih =>
        rw [List.map_cons, List.zip_cons_cons, List.lookup_cons]
        by_cases hname : column = name
        · subst hname
          simp
        · rw [beq_eq_false_iff_ne.mpr hname]
          exact ih ((List.mem_cons.mp hmem).resolve_left hname)
  rw [hlookup columns (hwanted column hcolumn)]
  rfl

/-- The key of an entry. -/
theorem rowsOver_take {batch : RecordBatch} {columns : List String} (others : List String) :
  (batch.rowsOver (columns ++ others)).map (·.take columns.length) = batch.rowsOver columns
  := by
  unfold RecordBatch.rowsOver
  rw [List.map_map]
  apply List.map_congr_left
  intro row _
  simp [List.map_append]

theorem indexEntries_take (index : CatalogIndex) (batches : List RecordBatch) :
  (indexEntriesOf index batches).map (·.take index.columns.length) = indexKeysOf index batches
  := by
  unfold indexEntriesOf indexKeysOf
  rw [List.map_flatMap]
  simp only [rowsOver_take]

/-! ### Building a snapshot -/

/-- The objects of an index. -/
def OneIndexKey (base : OPath) (name : String) (key : OPath) : Prop := indexKey base name <+: key

/-- An index whose keys are to be distinct and are not. -/
def CatalogIndex.Violated (index : CatalogIndex) (batches : List RecordBatch) : Prop :=
  index.unique = true ∧ ¬ (indexKeysOf index batches).Nodup

theorem mem_providerColumns_rowId (relation : CatalogRelation) :
  "_row_id" ∈ providerColumns relation
  := by
  unfold providerColumns
  dsimp only
  split
  · rename_i hcontains
    exact List.contains_iff_mem.mp hcontains
  · simp

theorem ReadyIndex.entries_known {index : CatalogIndex} (h : ReadyIndex relation index) :
  ∀ column ∈ index.columns ++ ["_row_id"], column ∈ providerColumns relation
  := by
  intro column hcolumn
  rcases List.mem_append.mp hcolumn with hcolumn | hcolumn
  · exact h.known column hcolumn
  · rw [List.mem_singleton.mp hcolumn]
    exact mem_providerColumns_rowId relation

/-- The entries that are made of what a scan yields. -/
theorem scanned_entries {index : CatalogIndex} (hready : ReadyIndex relation index)
    (batches : List RecordBatch) :
  (batches.flatMap (·.rowsOver (providerColumns relation))).map (fun row =>
      (index.columns ++ ["_row_id"]).map (fun column =>
        (((providerColumns relation).zip row).lookup column).join))
    = indexEntriesOf index batches
  := by
  unfold indexEntriesOf
  rw [List.map_flatMap]
  simp only [← pick_rowsOver hready.entries_known]
  rfl

/-- Publishing a version of a snapshot. -/
theorem publish_succeeds (h : Reliable o df) {index : CatalogIndex} (version : String)
    (entries : List Row) (w : World) :
  Succeeds (do
    orStoreError (← storePut o (indexKey base index.name ++ ["versions", version]
      ++ ["data.parquet"]) (.parquet { schema := snapshotSchema index, rows := entries })
        .overwrite)
    orStoreError (← storePut o (indexKey base index.name ++ ["versions", version]
      ++ ["metadata.json"]) (.other version) .overwrite)
    orStoreError (← storePut o (indexKey base index.name ++ ["manifest.json"]) (.other version)
      .overwrite) : Op Unit) w (fun _ w' => Published w'.store base index entries
        ∧ Frame (OneIndexKey base index.name) w w')
  := by
  have hput : ∀ (rest : OPath) (obj : Obj) (w : World),
      Succeeds (do orStoreError (← storePut o (indexKey base index.name ++ rest) obj .overwrite) :
        Op Unit) w (fun _ w' => w'.store = w.store.insert (indexKey base index.name ++ rest) obj
          ∧ Frame (OneIndexKey base index.name) w w') := by
    intro rest obj w
    rw [succeeds_bind]
    refine Succeeds.mono ((storePut_overwrite_succeeds h.store _ obj w).with_after
      (storePut_modifies o _ _ _ w)) ?_
    rintro _ w₁ ⟨⟨rfl, hstore⟩, hframe⟩
    rw [orStoreError, succeeds_pure]
    refine ⟨hstore, hframe.mono ?_⟩
    rintro _ rfl
    exact List.prefix_append _ _
  simp only [List.append_assoc, List.cons_append, List.nil_append] at *
  have hfirst := hput ["versions", version, "data.parquet"]
    (.parquet { schema := snapshotSchema index, rows := entries }) w
  rw [succeeds_bind] at hfirst ⊢
  refine Succeeds.mono hfirst ?_
  intro outcome w₁ hfirst
  rw [succeeds_bind]
  refine Succeeds.mono hfirst ?_
  rintro _ w₂ ⟨hstore₂, hframe₂⟩
  have hsecond := hput ["versions", version, "metadata.json"] (.other version) w₂
  rw [succeeds_bind] at hsecond ⊢
  refine Succeeds.mono hsecond ?_
  intro outcome w₃ hsecond
  rw [succeeds_bind]
  refine Succeeds.mono hsecond ?_
  rintro _ w₄ ⟨hstore₄, hframe₄⟩
  refine Succeeds.mono (hput ["manifest.json"] (.other version) w₄) ?_
  rintro _ w₅ ⟨hstore₅, hframe₅⟩
  refine ⟨⟨version, version, ?_, ?_, ?_⟩, (hframe₂.trans hframe₄).trans hframe₅⟩
  · rw [hstore₅, ObjectStore.get_insert, if_pos rfl]
  · rw [hstore₅, ObjectStore.get_insert, if_neg, hstore₄, ObjectStore.get_insert, if_pos]
    · simp
    · simp
  · rw [hstore₅, ObjectStore.get_insert, if_neg, hstore₄, ObjectStore.get_insert, if_neg, hstore₂,
      ObjectStore.get_insert, if_pos]
    · simp
    · simp
    · simp

/-- A snapshot is built unless a key would be there twice. -/
theorem after_rebuildIndexSnapshot (h : Reliable o df)
    (hreadable : Readable o session relation base w) {batches : List RecordBatch}
    (hcommitted : CommittedAs w.store base batches) {index : CatalogIndex}
    (hready : ReadyIndex relation index) :
  After (rebuildIndexSnapshot o df session relation base index) w (fun r w' =>
    index.Violated batches ∧ (∃ e, r = .error e) ∧ Frame (fun _ => False) w w'
      ∨ ¬ index.Violated batches ∧ r = .ok ()
        ∧ Published w'.store base index (indexEntriesOf index batches)
        ∧ Frame (OneIndexKey base index.name) w w')
  := by
  rw [rebuildIndexSnapshot, after_bind, after_outsideCall, resume_ok]
  dsimp only
  have hcall := Frame.call (fun _ => False) w
  have hcommitted₁ : CommittedAs ({ w with calls := w.calls + 1 } : World).store base batches :=
    hcommitted
  have hreadable₁ : Readable o session relation base { w with calls := w.calls + 1 } :=
    ⟨hreadable.session, hreadable.found, hreadable.kind, hreadable.located, hreadable.isLocal,
      hreadable.distinct, hreadable.directory⟩
  rw [after_bind]
  refine After.mono (scanTable_succeeds h hreadable₁ hcommitted₁) ?_
  rintro _ w₁ ⟨_, rfl, rfl, hframe₁⟩
  replace hframe₁ := hcall.trans hframe₁
  rw [resume_ok]
  dsimp only
  rw [scanned_entries hready, indexEntries_take, after_ite]
  constructor
  · intro hbad
    refine absurd hbad ?_
    simp only [Bool.or_eq_true, List.isEmpty_iff, Bool.not_eq_true', decide_eq_false_iff_not,
      not_or, not_not]
    refine ⟨⟨hready.columns, hready.distinct⟩, ?_⟩
    rw [Bool.not_eq_false, List.all_eq_true]
    intro column hcolumn
    exact List.contains_iff_mem.mpr (hready.entries_known column hcolumn)
  · intro _
    rw [after_ite]
    have hviolated : ((index.isUnique || index.isPrimary)
        && hasDuplicates (indexKeysOf index batches)) = true
        ↔ index.Violated batches := by
      rw [Bool.and_eq_true, hasDuplicates, Bool.not_eq_true', decide_eq_false_iff_not,
        CatalogIndex.Violated, CatalogIndex.unique]
    rw [hviolated]
    constructor
    · intro hdouble
      exact .inl ⟨hdouble, ⟨_, rfl⟩, hframe₁⟩
    · intro hdistinct
      refine After.mono (publish_succeeds h (o.uuid w.calls) (indexEntriesOf index batches) w₁) ?_
      rintro _ w₂ ⟨_, rfl, hpublished, hframe₂⟩
      exact .inr ⟨hdistinct, rfl, hpublished,
        (hframe₁.mono (fun _ hfalse => hfalse.elim)).trans hframe₂⟩

theorem indexKey_of_one {name : String} {key : OPath} (h : OneIndexKey base name key) :
  IndexKey base key
  := by
  refine List.IsPrefix.trans ?_ h
  exact ⟨[name], by simp [indexKey]⟩

theorem Readable.of_indexFrame {w' : World} (h : Readable o session relation base w)
    (hframe : Frame (IndexKey base) w w') :
  Readable o session relation base w'
  := by
  refine ⟨?_, ?_, h.kind, h.located, h.isLocal, h.distinct, ?_⟩
  · rw [hframe.catalog]
    exact h.session
  · rw [hframe.catalog]
    exact h.found
  · intro fileName hname
    rw [hframe.store]
    · exact h.directory fileName hname
    · simp only [IndexKey, List.prefix_append_right_inj, List.cons_prefix_cons]
      rintro ⟨rfl, -⟩
      exact absurd hname (by decide)

/-- A snapshot is not affected by the objects of other indexes. -/
theorem Published.of_frame {w' : World} {index : CatalogIndex} {entries : List Row}
    (h : Published w.store base index entries) {touched : OPath → Prop}
    (hframe : Frame touched w w')
    (huntouched : ∀ rest, ¬ touched (indexKey base index.name ++ rest)) :
  Published w'.store base index entries
  := by
  obtain ⟨version, metadata, hmanifest, hmetadata, hdata⟩ := h
  refine ⟨version, metadata, ?_, ?_, ?_⟩
  · rw [hframe.store _ (huntouched _), hmanifest]
  · rw [List.append_assoc] at hmetadata ⊢
    rw [hframe.store _ (huntouched _), hmetadata]
  · rw [List.append_assoc] at hdata ⊢
    rw [hframe.store _ (huntouched _), hdata]

theorem not_oneIndexKey_other {name other : String} (hne : other ≠ name) (rest : OPath) :
  ¬ OneIndexKey base other (indexKey base name ++ rest)
  := by
  intro hone
  unfold OneIndexKey indexKey at hone
  rw [List.append_assoc, List.prefix_append_right_inj] at hone
  have h := hone.getElem (i := 1) (by simp)
  simp only [List.getElem_cons_succ, List.getElem_cons_zero, List.cons_append,
    List.nil_append] at h
  exact hne h

/-- Whether an index of a list has a duplicate key that it must not have. -/
def AnyViolated (indexes : List CatalogIndex) (batches : List RecordBatch) : Prop :=
  ∃ index ∈ indexes, index.Violated batches

/-- The objects of some indexes. -/
def IndexesKey (base : OPath) (indexes : List CatalogIndex) (key : OPath) : Prop :=
  ∃ index ∈ indexes, OneIndexKey base index.name key

theorem indexKey_of_indexes {indexes : List CatalogIndex} {key : OPath}
    (h : IndexesKey base indexes key) :
  IndexKey base key
  := by
  obtain ⟨index, -, hkey⟩ := h
  exact indexKey_of_one hkey

theorem not_indexKey_manifestKey (base : OPath) :
  ¬ IndexKey base (manifestKey base)
  := by
  simp [IndexKey, manifestKey]

theorem not_indexKey_dataKey (base : OPath) (fileName : String) :
  ¬ IndexKey base (dataKey base fileName)
  := by
  simp [IndexKey, dataKey]

/-- The snapshots are all built, unless a key would be twice in one of them. -/
theorem after_rebuildIndexSnapshots (h : Reliable o df)
    (hreadable : Readable o session relation base w) {batches : List RecordBatch}
    (hcommitted : CommittedAs w.store base batches) {indexes : List CatalogIndex}
    (hready : ∀ index ∈ indexes, ReadyIndex relation index)
    (hnames : (indexes.map (·.name)).Nodup) :
  After (rebuildIndexSnapshots o df session relation base indexes) w (fun r w' =>
    Frame (IndexesKey base indexes) w w'
      ∧ (AnyViolated indexes batches ∧ (∃ e, r = .error e)
        ∨ ¬ AnyViolated indexes batches ∧ r = .ok () ∧ ∀ index ∈ indexes,
          Published w'.store base index (indexEntriesOf index batches)))
  := by
  induction indexes generalizing w with
  | nil =>
      refine ⟨Frame.refl _ _, .inr ⟨?_, rfl, fun _ hindex => by cases hindex⟩⟩
      rintro ⟨_, hindex, -⟩
      cases hindex
  | cons index indexes ih =>
      rw [List.map_cons, List.nodup_cons] at hnames
      have hhead : ∀ key, OneIndexKey base index.name key →
          IndexesKey base (index :: indexes) key :=
        fun key hkey => ⟨index, List.mem_cons_self, hkey⟩
      rw [rebuildIndexSnapshots, after_bind]
      refine After.mono (after_rebuildIndexSnapshot h hreadable hcommitted
        (hready index List.mem_cons_self)) ?_
      rintro r w₁ (⟨hviolated, ⟨e, rfl⟩, hframe⟩ | ⟨hdistinct, rfl, hpublished, hframe⟩)
      · exact ⟨hframe.mono (fun _ hfalse => hfalse.elim),
          .inl ⟨⟨index, List.mem_cons_self, hviolated⟩, e, rfl⟩⟩
      · have hindexFrame : Frame (IndexKey base) w w₁ := hframe.mono (fun _ => indexKey_of_one)
        rw [resume_ok]
        refine After.mono (ih (hreadable.of_indexFrame hindexFrame)
          (hcommitted.of_indexFrame hindexFrame)
          (fun other hother => hready other (List.mem_cons_of_mem _ hother)) hnames.2) ?_
        rintro r w₂ ⟨hframe₂, hrest⟩
        refine ⟨(hframe.mono hhead).trans (hframe₂.mono ?_), ?_⟩
        · rintro key ⟨other, hother, hkey⟩
          exact ⟨other, List.mem_cons_of_mem _ hother, hkey⟩
        rcases hrest with ⟨⟨other, hother, hviolated⟩, herror⟩ | ⟨hnone, rfl, hothers⟩
        · exact .inl ⟨⟨other, List.mem_cons_of_mem _ hother, hviolated⟩, herror⟩
        · refine .inr ⟨?_, rfl, ?_⟩
          · rintro ⟨other, hother, hviolated⟩
            rcases List.mem_cons.mp hother with rfl | hother
            · exact hdistinct hviolated
            · exact hnone ⟨other, hother, hviolated⟩
          · intro other hother
            rcases List.mem_cons.mp hother with rfl | hother
            · apply hpublished.of_frame hframe₂
              rintro rest ⟨later, hlater, hkey⟩
              refine not_oneIndexKey_other ?_ rest hkey
              intro hsame
              exact hnames.1 (hsame ▸ List.mem_map_of_mem hlater)
            · exact hothers other hother

/-- The snapshots of a table. -/
theorem after_rebuildAllIndexSnapshots (h : Reliable o df)
    (hreadable : Readable o session relation base w) {batches : List RecordBatch}
    (hcommitted : CommittedAs w.store base batches)
    (hready : ∀ index ∈ relation.indexes, ReadyIndex relation index)
    (hnames : (relation.indexes.map (·.name)).Nodup) :
  After (rebuildAllIndexSnapshots o df session relation) w (fun r w' =>
    Frame (IndexesKey base relation.indexes) w w'
      ∧ (AnyViolated relation.indexes batches ∧ (∃ e, r = .error e)
        ∨ ¬ AnyViolated relation.indexes batches ∧ r = .ok () ∧ ∀ index ∈ relation.indexes,
          Published w'.store base index (indexEntriesOf index batches)))
  := by
  obtain ⟨location, hlocation, hbase⟩ := location_of_base hreadable.located
  unfold rebuildAllIndexSnapshots tableStorePrefix
  rw [hlocation]
  dsimp only
  rw [hbase, orBail, pure_bind]
  exact after_rebuildIndexSnapshots h hreadable hcommitted hready hnames

/-! ### Reading a snapshot -/

theorem storeGet_succeeds (h : Reliable o df) {key : OPath} {obj : Obj}
    (hkey : w.store[key]? = some obj) :
  Succeeds (storeGet o key) w (fun got w' => got = .ok obj ∧ Frame (fun _ => False) w w')
  := by
  have hgot : Succeeds (storeGet o key) w (fun got _ => got = .ok obj) := by
    rw [storeGet, succeeds_bind, succeeds_storeFault h.store]
    dsimp only
    rw [succeeds_bind, succeeds_get]
    simp only [hkey]
    rw [succeeds_pure]
  exact hgot.with_after (storeGet_modifies o (fun _ => False) key w)

theorem readJson_succeeds (h : Reliable o df) {key : OPath} {text : String}
    (hkey : w.store[key]? = some (.other text)) :
  Succeeds (readJson o key) w (fun read w' => read = some text ∧ Frame (fun _ => False) w w')
  := by
  have hread : Succeeds (readJson o key) w (fun read _ => read = some text) := by
    rw [readJson, succeeds_bind]
    refine Succeeds.mono (storeGet_succeeds h hkey) ?_
    rintro _ w₁ ⟨rfl, -⟩
    dsimp only
    rw [succeeds_bind, succeeds_storeFault h.store]
    dsimp only
    rw [succeeds_pure]
  exact hread.with_after (readJson_modifies o (fun _ => False) key w)

/-- The published snapshot of an index is read. -/
theorem readIndexSnapshot_succeeds (h : Reliable o df) {index : CatalogIndex} {entries : List Row}
    (hpublished : Published w.store base index entries) :
  Succeeds (readIndexSnapshot o base index) w (fun read w' =>
    read = some { schema := snapshotSchema index, rows := entries }
      ∧ Frame (fun _ => False) w w')
  := by
  obtain ⟨version, metadata, hmanifest, hmetadata, hdata⟩ := hpublished
  rw [readIndexSnapshot, succeeds_bind]
  refine Succeeds.mono (readJson_succeeds h hmanifest) ?_
  rintro _ w₁ ⟨rfl, hframe₁⟩
  dsimp only
  rw [succeeds_bind]
  rw [← hframe₁.store_eq] at hmetadata
  refine Succeeds.mono (readJson_succeeds h hmetadata) ?_
  rintro _ w₂ ⟨rfl, hframe₂⟩
  dsimp only
  rw [← hframe₁.store_eq, ← hframe₂.store_eq] at hdata
  rw [succeeds_bind]
  refine Succeeds.mono (storeGet_succeeds h hdata) ?_
  rintro _ w₃ ⟨rfl, hframe₃⟩
  dsimp only
  rw [succeeds_pure]
  exact ⟨rfl, (hframe₁.trans hframe₂).trans hframe₃⟩

/-! ### Checking a batch -/

/-- The keys of a snapshot. -/
theorem batchKeys_snapshot {index : CatalogIndex} {batches : List RecordBatch}
    {entries : List Row} (hperm : entries.Perm (indexEntriesOf index batches)) :
  (batchKeys index { schema := snapshotSchema index, rows := entries }).Perm
    (indexKeysOf index batches)
  := by
  have hkeys : batchKeys index
      { schema := snapshotSchema index, rows := indexEntriesOf index batches }
      = indexKeysOf index batches := by
    unfold batchKeys indexEntriesOf indexKeysOf
    rw [List.map_flatMap]
    congr 1
    funext batch
    unfold RecordBatch.rowsOver
    rw [List.map_map]
    apply List.map_congr_left
    intro row _
    apply List.map_congr_left
    intro column hcolumn
    dsimp only [Function.comp, snapshotSchema]
    rw [cellAt_map]
    have hfind : (index.columns ++ ["_row_id"]).find?
        (fun item => ({ rowIdField with name := item } : ArrowField).name = column)
        = some column := by
      have hsome : ∃ item, (index.columns ++ ["_row_id"]).find? (fun item => item = column)
          = some item := by
        rw [← Option.isSome_iff_exists, List.find?_isSome]
        exact ⟨column, List.mem_append_left _ hcolumn, by simp⟩
      obtain ⟨item, hitem⟩ := hsome
      have heq := List.find?_some hitem
      rw [decide_eq_true_eq] at heq
      rw [heq] at hitem
      exact hitem
    rw [hfind]
    rfl
  rw [← hkeys]
  exact hperm.map _

/-- A batch that an index refuses: it lacks a column, or has a key twice, or one without NULL that
a row already has. -/
def CatalogIndex.Refuses (index : CatalogIndex) (batches : List RecordBatch)
    (batch : RecordBatch) : Prop :=
  hasIndexColumns index batch = false ∨ ¬ (batchKeys index batch).Nodup
    ∨ ∃ key ∈ batchKeys index batch, none ∉ key ∧ key ∈ indexKeysOf index batches

def AnyRefuses (indexes : List CatalogIndex) (batches : List RecordBatch) (batch : RecordBatch) :
    Prop :=
  ∃ index ∈ indexes, index.unique = true ∧ index.Refuses batches batch

theorem meetsSnapshot_iff {index : CatalogIndex} {batches : List RecordBatch} {entries : List Row}
    (hperm : entries.Perm (indexEntriesOf index batches)) (keys : List Row) :
  meetsSnapshot index { schema := snapshotSchema index, rows := entries } keys = true
    ↔ ∃ key ∈ keys, none ∉ key ∧ key ∈ indexKeysOf index batches
  := by
  unfold meetsSnapshot
  rw [List.any_eq_true]
  apply exists_congr
  intro key
  rw [Bool.and_eq_true, List.contains_iff_mem, (batchKeys_snapshot hperm).mem_iff, List.all_eq_true]
  have hnone : (∀ cell ∈ key, cell.isSome = true) ↔ none ∉ key := by
    constructor
    · intro hall hmem
      exact absurd (hall none hmem) (by simp)
    · intro hno cell hcell
      cases cell with
      | none => exact absurd hcell hno
      | some value => rfl
  rw [hnone]

/-- A batch is checked against the snapshot of an index. -/
theorem after_validateBatchAgainstIndex (h : Reliable o df) {index : CatalogIndex}
    {batches : List RecordBatch} {entries : List Row}
    (hpublished : Published w.store base index entries)
    (hperm : entries.Perm (indexEntriesOf index batches)) (batch : RecordBatch) :
  After (validateBatchAgainstIndex o df relation base batch index) w (fun r w' =>
    Frame (fun _ => False) w w'
      ∧ (index.Refuses batches batch ∧ (∃ e, r = .error e)
        ∨ ¬ index.Refuses batches batch ∧ r = .ok ()))
  := by
  rw [validateBatchAgainstIndex, after_bind]
  refine After.mono (readIndexSnapshot_succeeds h hpublished) ?_
  rintro _ w₁ ⟨_, rfl, rfl, hframe₁⟩
  rw [resume_ok]
  dsimp only
  rw [after_bind]
  refine After.mono (queryFault_succeeds h w₁) ?_
  rintro _ w₂ ⟨_, rfl, hframe₂⟩
  have hframe := hframe₁.trans hframe₂
  rw [resume_ok, after_ite]
  unfold CatalogIndex.Refuses
  refine ⟨fun hlacks => ⟨hframe, .inl ⟨.inl (by simpa using hlacks), _, rfl⟩⟩, fun hhas => ?_⟩
  rw [after_ite]
  refine ⟨fun htwice => ⟨hframe, .inl ⟨.inr (.inl ?_), _, rfl⟩⟩, fun honce => ?_⟩
  · simpa [hasDuplicates] using htwice
  · rw [after_ite, meetsSnapshot_iff hperm]
    refine ⟨fun hmeets => ⟨hframe, .inl ⟨.inr (.inr hmeets), _, rfl⟩⟩, fun hno => ?_⟩
    refine ⟨hframe, .inr ⟨?_, rfl⟩⟩
    rintro (hlacks | htwice | hmeets)
    · exact hhas (by simpa using hlacks)
    · exact honce (by simpa [hasDuplicates] using htwice)
    · exact hno hmeets

/-- A batch is checked against the snapshots of the unique indexes. -/
theorem after_validateBatchAgainstTableUniqueness (h : Reliable o df)
    {indexes : List CatalogIndex} {batches : List RecordBatch}
    (hpublished : ∀ index ∈ indexes, index.unique = true →
      ∃ entries, Published w.store base index entries
        ∧ entries.Perm (indexEntriesOf index batches)) (batch : RecordBatch) :
  After (validateBatchAgainstTableUniqueness o df relation base batch indexes) w (fun r w' =>
    Frame (fun _ => False) w w'
      ∧ (AnyRefuses indexes batches batch ∧ (∃ e, r = .error e)
        ∨ ¬ AnyRefuses indexes batches batch ∧ r = .ok ()))
  := by
  induction indexes generalizing w with
  | nil =>
      refine ⟨Frame.refl _ _, .inr ⟨?_, rfl⟩⟩
      rintro ⟨_, hindex, -⟩
      cases hindex
  | cons index indexes ih =>
      have hothers := fun other hother => hpublished other (List.mem_cons_of_mem _ hother)
      have hnext : ∀ w₁, Frame (fun _ => False) w w₁ →
          ¬ (index.unique = true ∧ index.Refuses batches batch) →
          After (validateBatchAgainstTableUniqueness o df relation base batch indexes) w₁
            (fun r w' => Frame (fun _ => False) w w'
              ∧ (AnyRefuses (index :: indexes) batches batch ∧ (∃ e, r = .error e)
                ∨ ¬ AnyRefuses (index :: indexes) batches batch ∧ r = .ok ())) := by
        intro w₁ hframe haccepts
        rw [← hframe.store_eq] at hothers
        refine After.mono (ih hothers) ?_
        rintro r w₂ ⟨hframe₂, hrest⟩
        refine ⟨hframe.trans hframe₂, ?_⟩
        rcases hrest with ⟨⟨other, hother, hrefuses⟩, herror⟩ | ⟨hnone, rfl⟩
        · exact .inl ⟨⟨other, List.mem_cons_of_mem _ hother, hrefuses⟩, herror⟩
        · refine .inr ⟨?_, rfl⟩
          rintro ⟨other, hother, hrefuses⟩
          rcases List.mem_cons.mp hother with rfl | hother
          · exact haccepts hrefuses
          · exact hnone ⟨other, hother, hrefuses⟩
      unfold validateBatchAgainstTableUniqueness
      by_cases hunique : index.unique = true
      · have hcondition : (index.isUnique || index.isPrimary) = true := hunique
        rw [if_pos hcondition, after_bind]
        obtain ⟨entries, hentries, hperm⟩ := hpublished index List.mem_cons_self hunique
        refine After.mono (after_validateBatchAgainstIndex h hentries hperm batch) ?_
        rintro r w₁ ⟨hframe, ⟨hrefuses, e, rfl⟩ | ⟨haccepts, rfl⟩⟩
        · exact ⟨hframe, .inl ⟨⟨index, List.mem_cons_self, hunique, hrefuses⟩, e, rfl⟩⟩
        · rw [resume_ok]
          exact hnext w₁ hframe (fun hboth => haccepts hboth.2)
      · have hcondition : ¬ (index.isUnique || index.isPrimary) = true := hunique
        rw [if_neg hcondition, pure_bind]
        exact hnext w (Frame.refl _ _) (fun hboth => hunique hboth.1)

end
