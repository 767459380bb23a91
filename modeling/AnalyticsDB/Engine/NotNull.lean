import AnalyticsDB.Engine.ColumnDdl
import AnalyticsDB.Engine.InsertValues

/-!
# NOT NULL columns

A column of the catalogue may be NOT NULL.  An `INSERT` of values refuses NULL there.  An `INSERT`
of a query result and an `UPDATE` write what their query yields, and `ALTER TABLE` changes the
flag, or adds a column, without a look at the rows that are stored.  A run whose statements bring
no NULL into such a column by these ways stores none.
-/

/-- The names of the columns that are NOT NULL. -/
def CatalogRelation.notNullColumns (relation : CatalogRelation) : List String :=
  (relation.columns.filter (fun column => !column.nullable)).map (·.name)

/-- The rows of a batch have no NULL in the columns. -/
def RecordBatch.NoNulls (batch : RecordBatch) (columns : List String) : Prop :=
  ∀ row ∈ batch.rows, ∀ column ∈ columns, cellAt batch.schema row column ≠ none

section

variable (columns : List String) (base : OPath)

/-- The entries list data files, and those that are there have no NULL in the columns. -/
def EntriesNoNulls (store : ObjectStore) (entries : List ManifestEntry) : Prop :=
  ∀ entry ∈ entries, (∃ fileName, entry.path = ["data", fileName])
    ∧ ∀ batch, store[entry.key base]? = some (.parquet batch) → batch.NoNulls columns

/-- The files that the manifest of the table at `base` lists have no NULL in the columns. -/
def NoNulls (store : ObjectStore) : Prop :=
  ∀ m, store[manifestKey base]? = some (.manifest m) → EntriesNoNulls columns base store m.files

end

section

variable {columns : List String} {base : OPath} {store : ObjectStore}

theorem RecordBatch.NoNulls.mono {batch : RecordBatch} {others : List String}
    (h : batch.NoNulls columns) (hsub : ∀ column ∈ others, column ∈ columns) :
  batch.NoNulls others
  := fun row hrow column hcolumn => h row hrow column (hsub column hcolumn)

theorem NoNulls.mono {others : List String} (h : NoNulls columns base store)
    (hsub : ∀ column ∈ others, column ∈ columns) :
  NoNulls others base store
  := by
  intro m hm entry hentry
  obtain ⟨hdata, hbatch⟩ := h m hm entry hentry
  exact ⟨hdata, fun batch hbatch' => (hbatch batch hbatch').mono hsub⟩

theorem NoNulls.append {others : List String} (h : NoNulls columns base store)
    (h' : NoNulls others base store) :
  NoNulls (columns ++ others) base store
  := by
  intro m hm entry hentry
  obtain ⟨hdata, hbatch⟩ := h m hm entry hentry
  obtain ⟨-, hbatch'⟩ := h' m hm entry hentry
  refine ⟨hdata, ?_⟩
  intro batch hget row hrow column hcolumn
  rcases List.mem_append.mp hcolumn with hcolumn | hcolumn
  · exact hbatch batch hget row hrow column hcolumn
  · exact hbatch' batch hget row hrow column hcolumn

/-- The rows of the table have no NULL in the columns. -/
theorem NoNulls.rows (h : NoNulls columns base store) {column : String}
    (hcolumn : column ∈ columns) :
  [none] ∉ committedRows [column] store base
  := by
  unfold committedRows
  split
  · rename_i m hm
    intro hmem
    obtain ⟨entry, hentry, hrow⟩ := List.mem_flatMap.mp hmem
    unfold fileRows at hrow
    split at hrow
    · rename_i batch hbatch
      obtain ⟨row, hrow, hcell⟩ := List.mem_map.mp hrow
      simp only [List.map_cons, List.map_nil, List.cons.injEq, and_true] at hcell
      exact (h m hm entry hentry).2 batch hbatch row hrow column hcolumn hcell
    · cases hrow
  · simp

/-- What the property depends on. -/
theorem NoNulls.congr {store' : ObjectStore}
    (hmanifest : store'[manifestKey base]? = store[manifestKey base]?)
    (hdata : ∀ fileName, store'[dataKey base fileName]? = store[dataKey base fileName]?)
    (h : NoNulls columns base store) :
  NoNulls columns base store'
  := by
  intro m hm entry hentry
  rw [hmanifest] at hm
  obtain ⟨⟨fileName, hpath⟩, hbatch⟩ := h m hm entry hentry
  refine ⟨⟨fileName, hpath⟩, ?_⟩
  intro batch hget
  have hkey : entry.key base = dataKey base fileName := by
    rw [ManifestEntry.key, hpath, dataKey]
  rw [hkey] at hget hbatch
  rw [hdata] at hget
  exact hbatch batch hget

theorem NoNulls.of_frame {touched : OPath → Prop} {w w' : World}
    (h : NoNulls columns base w.store) (hframe : Frame touched w w')
    (hmanifest : ¬ touched (manifestKey base))
    (hdata : ∀ fileName, ¬ touched (dataKey base fileName)) :
  NoNulls columns base w'.store
  := NoNulls.congr (hframe.store _ hmanifest) (fun fileName => hframe.store _ (hdata fileName)) h

/-- An object that is not listed, or has no NULL in the columns. -/
theorem NoNulls.insert (h : NoNulls columns base store) {key : OPath} {obj : Obj}
    (hkey : key ≠ manifestKey base)
    (hobj : ∀ batch, obj = .parquet batch →
      (∀ m entry, store[manifestKey base]? = some (.manifest m) → entry ∈ m.files →
        entry.key base ≠ key) ∨ batch.NoNulls columns) :
  NoNulls columns base (store.insert key obj)
  := by
  intro m hm entry hentry
  rw [ObjectStore.get_insert, if_neg hkey] at hm
  obtain ⟨hdata, hbatch⟩ := h m hm entry hentry
  refine ⟨hdata, ?_⟩
  intro batch hget
  rw [ObjectStore.get_insert] at hget
  split at hget
  · rename_i hsame
    rcases hobj batch (Option.some.inj hget) with hother | hgood
    · exact absurd hsame.symm (hother m entry hm hentry)
    · exact hgood
  · exact hbatch batch hget

theorem NoNulls.erase (h : NoNulls columns base store) (key : OPath) :
  NoNulls columns base (store.erase key)
  := by
  intro m hm entry hentry
  rw [ObjectStore.get_erase] at hm
  split at hm
  · cases hm
  · obtain ⟨hdata, hbatch⟩ := h m hm entry hentry
    refine ⟨hdata, ?_⟩
    intro batch hget
    rw [ObjectStore.get_erase] at hget
    split at hget
    · cases hget
    · exact hbatch batch hget

/-- A manifest is no data file. -/
theorem EntriesNoNulls.insert_manifest {entries : List ManifestEntry}
    (h : EntriesNoNulls columns base store entries) (m : Manifest) :
  EntriesNoNulls columns base (store.insert (manifestKey base) (.manifest m)) entries
  := by
  intro entry hentry
  obtain ⟨hdata, hbatch⟩ := h entry hentry
  refine ⟨hdata, ?_⟩
  intro batch hget
  rw [ObjectStore.get_insert, if_neg (entry_key_ne_manifestKey hdata).symm] at hget
  exact hbatch batch hget

theorem NoNulls.insert_manifest {entries : List ManifestEntry}
    (h : EntriesNoNulls columns base store entries) {m : Manifest} (hm : m.files = entries) :
  NoNulls columns base (store.insert (manifestKey base) (.manifest m))
  := by
  intro m' hm'
  rw [ObjectStore.get_insert, if_pos rfl] at hm'
  cases hm'
  rw [hm]
  exact h.insert_manifest m

end

/-! ### Writers -/

section

open Eff

variable {o : Outside} {columns : List String} {base : OPath}

/-- A manifest write keeps what the entries of manifests have, when the update keeps it: the
entries it starts from are those of the manifest, or none. -/
theorem casManifest_entries {I : ObjectStore → Prop} {G : ObjectStore → List ManifestEntry → Prop}
    {update : List ManifestEntry → List ManifestEntry}
    (hI : ∀ store m, I store → I (store.insert (manifestKey base) (.manifest m)))
    (hG : ∀ store m entries, G store entries →
      G (store.insert (manifestKey base) (.manifest m)) entries)
    (hnil : ∀ store, G store [])
    (hupdate : ∀ store entries, I store → G store entries → G store (update entries))
    (attempts : Nat) :
  KeepsObjects (fun store => I store
    ∧ ∀ m, store[manifestKey base]? = some (.manifest m) → G store m.files)
    (casManifest o base update attempts)
  := by
  induction attempts with
  | zero => apply KeepsObjects.of_modifies (ModifiesOnly.pure _)
  | succ attempts ih =>
      intro w hJ
      rw [casManifest, after_bind]
      refine After.mono ((readManifestVersioned_modifies o (fun _ => False) base w).and
        (readManifestVersioned_returns o base w)) ?_
      rintro r w₁ ⟨hframe, hread⟩
      have hstore := hframe.store_eq
      rw [← hstore] at hJ hread
      cases r with
      | error e => exact hJ
      | ok read =>
          obtain ⟨existing, eTag⟩ := read
          have hexisting : G w₁.store ((existing.map (·.files)).getD []) := by
            cases existing with
            | none => exact hnil w₁.store
            | some m => exact hJ.2 m (hread _ rfl m rfl)
          -- every manifest that is put lists the updated entries
          have hput : ∀ m : Manifest, m.files = update ((existing.map (·.files)).getD []) →
              ∀ mode, KeepsObjects (fun store => (I store
                ∧ ∀ m, store[manifestKey base]? = some (.manifest m) → G store m.files)
                ∧ G store ((existing.map (·.files)).getD []))
                (storePut o (manifestKey base) (.manifest m) mode) := by
            intro m hm mode
            apply storePut_keepsObjects
            rintro store ⟨⟨hI', -⟩, hG'⟩
            refine ⟨⟨hI store m hI', ?_⟩, hG store m _ hG'⟩
            intro m' hm'
            rw [ObjectStore.get_insert, if_pos rfl] at hm'
            cases hm'
            rw [hm]
            exact hG store m _ (hupdate store _ hI' hG')
          rw [resume_ok]
          simp only [newManifest, after_bind, after_outsideCall, resume_ok, after_pure]
          refine After.mono (hput _ rfl _ _ ⟨hJ, hexisting⟩) ?_
          rintro r w₂ hJ₂
          cases r with
          | error e => exact hJ₂.1
          | ok outcome =>
              rw [resume_ok]
              split
              · exact hJ₂.1
              · rw [after_ite]
                exact ⟨fun _ => hJ₂.1, fun _ => ih w₂ hJ₂.1⟩
              · rw [after_ite]
                exact ⟨fun _ => hJ₂.1, fun _ => ih w₂ hJ₂.1⟩
              · rw [after_bind]
                refine After.mono (hput _ rfl _ _ hJ₂) ?_
                rintro r w₃ hJ₃
                cases r with
                | error e => exact hJ₃.1
                | ok outcome =>
                    rw [resume_ok]
                    refine After.mono (orStoreError_modifies (fun _ => False) outcome w₃) ?_
                    intro r w₄ hframe
                    rw [hframe.store_eq]
                    exact hJ₃.1
              · exact hJ₂.1

theorem dataKey_ne_manifestKey (base : OPath) (fileName : String) :
  dataKey base fileName ≠ manifestKey base
  := by
  simp [dataKey, manifestKey]

/-- Putting a file without NULL in the columns. -/
theorem storePut_noNulls {key : OPath} {batch : RecordBatch} (hkey : key ≠ manifestKey base)
    (hbatch : batch.NoNulls columns) (mode : PutMode) :
  KeepsObjects (NoNulls columns base) (storePut o key (.parquet batch) mode)
  := by
  apply storePut_keepsObjects
  intro store h
  refine h.insert hkey ?_
  rintro _ ⟨⟩
  exact .inr hbatch

/-- Replacing the list of files by files without NULL in the columns. -/
theorem replaceManifest_noNulls {entries : List ManifestEntry} :
  KeepsObjects (fun store => EntriesNoNulls columns base store entries
    ∧ NoNulls columns base store) (replaceManifest o base entries)
  := by
  apply casManifest_entries
  · intro store m h
    exact h.insert_manifest m
  · intro store m others h
    exact h.insert_manifest m
  · intro store entry hentry
    cases hentry
  · intro store _ h _
    exact h

/-- Appending a file without NULL in the columns to the list of files. -/
theorem appendToManifest_noNulls {entry : ManifestEntry} :
  KeepsObjects (fun store => EntriesNoNulls columns base store [entry]
    ∧ NoNulls columns base store) (appendToManifest o base entry)
  := by
  apply casManifest_entries
  · intro store m h
    exact h.insert_manifest m
  · intro store m others h
    exact h.insert_manifest m
  · intro store entry hentry
    cases hentry
  · intro store entries hentry hentries other hother
    rcases List.mem_append.mp hother with hother | hother
    · exact hentries other hother
    · exact hentry other hother

theorem deleteObjects_noNulls (keys : List OPath) :
  KeepsObjects (NoNulls columns base) (deleteObjects o keys)
  := by
  induction keys with
  | nil => apply KeepsObjects.of_modifies (ModifiesOnly.pure _)
  | cons key keys ih =>
      apply KeepsObjects.bind
      · intro w h
        unfold storeDelete
        rw [after_bind]
        refine After.mono (storeFault_modifies o (fun _ => False) w) ?_
        intro r w₁ hframe
        have h₁ : NoNulls columns base w₁.store := by
          rw [hframe.store_eq]
          exact h
        cases r with
        | error e => exact h₁
        | ok fault =>
            rw [resume_ok]
            split
            · exact h₁
            · exact h₁
            · exact h₁.erase key
      · intro _
        exact ih

theorem vacuumOrphans_noNulls :
  KeepsObjects (NoNulls columns base) (vacuumOrphans o base)
  := by
  apply KeepsObjects.bind (KeepsObjects.of_modifies (readManifest_modifies o _ base))
  intro read
  cases read with
  | none => apply KeepsObjects.of_modifies (ModifiesOnly.pure _)
  | some manifest =>
      apply KeepsObjects.bind (KeepsObjects.of_modifies (storeList_modifies o _ base))
      intro keys
      apply KeepsObjects.bind (deleteObjects_noNulls _)
      intro _
      apply KeepsObjects.of_modifies (ModifiesOnly.pure _)

/-- Appending a file without NULL in the columns to a table, once it is put. -/
theorem putListed_noNulls {fileName : String} {batch : RecordBatch} {size rowCount : Nat}
    (hbatch : batch.NoNulls columns) :
  KeepsObjects (NoNulls columns base) (do
    orStoreError (← storePut o (dataKey base fileName) (.parquet batch) .overwrite)
    appendToManifest o base
      { path := ["data", fileName], size := size, rowCount := rowCount } : Op Unit)
  := by
  intro w h
  rw [after_bind]
  refine After.mono ((storePut_noNulls (dataKey_ne_manifestKey base fileName) hbatch
    .overwrite w h).and (storePut_returns o _ _ _ w)) ?_
  rintro r w₁ ⟨h₁, hput⟩
  cases r with
  | error e => exact h₁
  | ok outcome =>
      rw [resume_ok, after_bind]
      cases outcome with
      | error e => exact h₁
      | ok _ =>
          rw [orStoreError, after_pure, resume_ok]
          have hentry : EntriesNoNulls columns base w₁.store
              [{ path := ["data", fileName], size := size, rowCount := rowCount }] := by
            intro entry hentry
            obtain rfl := List.mem_singleton.mp hentry
            refine ⟨⟨fileName, rfl⟩, ?_⟩
            intro stored hstored
            have hsame := hput _ rfl rfl
            rw [dataKey] at hsame
            rw [ManifestEntry.key, hsame] at hstored
            cases hstored
            exact hbatch
          refine After.mono (appendToManifest_noNulls w₁ ⟨hentry, h₁⟩) ?_
          intro r w₂ h₂
          exact h₂.2

theorem appendBatch_noNulls {batch : RecordBatch} (hbatch : batch.NoNulls columns) :
  KeepsObjects (NoNulls columns base) (appendBatch o base batch)
  := by
  apply KeepsObjects.bind (KeepsObjects.of_modifies ModifiesOnly.outsideCall)
  intro n
  exact putListed_noNulls hbatch

/-! ### Row ids -/

/-- The columns of a table besides the row id. -/
def withoutRowId (columns : List String) : List String := columns.filter (· ≠ "_row_id")

/-- A batch whose rows have a cell for each field, without NULL in the columns; a row id may be
missing as long as the batch has none at all. -/
structure Storable (columns : List String) (batch : RecordBatch) : Prop where
  widths : ∀ row ∈ batch.rows, row.length = batch.schema.length
  user : batch.NoNulls (withoutRowId columns)
  rowId : (∃ field ∈ batch.schema, field.name = "_row_id") → batch.NoNulls columns

theorem cellAt_rowId_set {schema : Schema} {row : Row} {i : Nat} (id : Cell)
    (hi : schema.findIdx? (·.name = "_row_id") = some i) (hlength : row.length = schema.length) :
  cellAt schema (row.set i id) "_row_id" = id
  := by
  obtain ⟨hlt, -, -⟩ := List.findIdx?_eq_some_iff_getElem.mp hi
  unfold cellAt
  rw [hi]
  dsimp only
  rw [List.getElem?_set_self (hlength ▸ hlt)]
  rfl

theorem cellAt_rowId_append {schema : Schema} {row : Row} (id : Cell)
    (hnone : schema.findIdx? (·.name = "_row_id") = none) (hlength : row.length = schema.length) :
  cellAt (schema ++ [rowIdField]) (row ++ [id]) "_row_id" = id
  := by
  unfold cellAt
  rw [List.findIdx?_append, hnone]
  simp [rowIdField, ← hlength]

/-- A batch that is prepared for storage has no NULL in the columns. -/
theorem prepareBatchForStorage_noNulls {batch : RecordBatch} (h : Storable columns batch)
    (w : World) :
  Returns (prepareBatchForStorage o batch) w (fun prepared _ => prepared.NoNulls columns)
  := by
  have hid : ∀ (put : Row → Cell → Row) (schema : Schema),
      (∀ row ∈ batch.rows, ∀ id : Value, ∀ column ∈ columns,
        cellAt schema (put row (some id)) column ≠ none) →
      ∀ rows w, (∀ row ∈ rows, row ∈ batch.rows) →
        Returns (withRowIds o put rows) w (fun rows' _ =>
          (⟨schema, rows'⟩ : RecordBatch).NoNulls columns) := by
    intro put schema hput rows
    induction rows with
    | nil =>
        intro w _
        rw [withRowIds, returns_pure]
        intro row hrow
        cases hrow
    | cons row rows ih =>
        intro w hrows
        rw [withRowIds, returns_bind, returns_outsideCall, returns_bind]
        refine Returns.mono (ih _ (fun other hother => hrows other (List.mem_cons_of_mem _ hother)))
          ?_
        intro rest w' hrest
        rw [returns_pure]
        intro other hother column hcolumn
        rcases List.mem_cons.mp hother with rfl | hother
        · exact hput row (hrows row List.mem_cons_self) _ column hcolumn
        · exact hrest other hother column hcolumn
  have huser : ∀ row ∈ batch.rows, ∀ column ∈ columns, column ≠ "_row_id" →
      cellAt batch.schema row column ≠ none := by
    intro row hrow column hcolumn hne
    exact h.user row hrow column (List.mem_filter.mpr ⟨hcolumn, by simpa using hne⟩)
  unfold prepareBatchForStorage
  split
  · rename_i i hi
    split
    · rw [returns_bind]
      refine Returns.mono (hid _ batch.schema ?_ batch.rows w (fun _ hrow => hrow)) ?_
      · intro row hrow id column hcolumn
        by_cases hrowId : column = "_row_id"
        · rw [hrowId, cellAt_rowId_set _ hi (h.widths row hrow)]
          simp
        · rw [cellAt_set_rowId _ hi hrowId]
          exact huser row hrow column hcolumn hrowId
      · intro rows w₁ hrows
        rw [returns_pure]
        exact hrows
    · rw [returns_pure]
      apply h.rowId
      obtain ⟨hlt, hname, -⟩ := List.findIdx?_eq_some_iff_getElem.mp hi
      exact ⟨batch.schema[i], List.getElem_mem hlt, by simpa using hname⟩
  · rename_i hnone
    rw [returns_bind]
    refine Returns.mono (hid _ (batch.schema ++ [rowIdField]) ?_ batch.rows w
      (fun _ hrow => hrow)) ?_
    · intro row hrow id column hcolumn
      by_cases hrowId : column = "_row_id"
      · rw [hrowId, cellAt_rowId_append _ hnone (h.widths row hrow)]
        simp
      · rw [cellAt_append_rowId _ (h.widths row hrow) hrowId]
        exact huser row hrow column hcolumn hrowId
    · intro rows w₁ hrows
      rw [returns_pure]
      exact hrows

theorem prepareBatches_noNulls {batches : List RecordBatch}
    (h : ∀ batch ∈ batches, Storable columns batch) (w : World) :
  Returns (prepareBatches o batches) w (fun prepared _ =>
    ∀ batch ∈ prepared, batch.NoNulls columns)
  := by
  induction batches generalizing w with
  | nil => simp [prepareBatches]
  | cons batch batches ih =>
      rw [prepareBatches, returns_bind]
      refine Returns.mono (prepareBatchForStorage_noNulls (h batch List.mem_cons_self) w) ?_
      intro prepared w₁ hprepared
      rw [returns_bind]
      refine Returns.mono (ih (fun other hother => h other (List.mem_cons_of_mem _ hother)) w₁) ?_
      intro rest w₂ hrest
      rw [returns_pure]
      intro other hother
      rcases List.mem_cons.mp hother with rfl | hother
      · exact hprepared
      · exact hrest other hother

/-! ### Snapshots and appended files -/

theorem putBatches_noNulls {batches : List RecordBatch}
    (h : ∀ batch ∈ batches, batch.NoNulls columns) :
  KeepsObjects (NoNulls columns base) (putBatches o base batches)
  := by
  induction batches with
  | nil => apply KeepsObjects.of_modifies (ModifiesOnly.pure _)
  | cons batch batches ih =>
      apply KeepsObjects.bind (KeepsObjects.of_modifies ModifiesOnly.outsideCall)
      intro n
      apply KeepsObjects.bind (storePut_noNulls (dataKey_ne_manifestKey base _)
        (h batch List.mem_cons_self) _)
      intro outcome
      apply KeepsObjects.bind (KeepsObjects.of_modifies (orStoreError_modifies _ outcome))
      intro _
      apply KeepsObjects.bind (ih (fun other hother => h other (List.mem_cons_of_mem _ hother)))
      intro entries
      apply KeepsObjects.of_modifies (ModifiesOnly.pure _)

/-- Files that hold batches without NULL in the columns. -/
theorem StoredAs.entriesNoNulls {store : ObjectStore} {entries : List ManifestEntry}
    {batches : List RecordBatch} (h : StoredAs store base entries batches)
    (hbatches : ∀ batch ∈ batches, batch.NoNulls columns) :
  EntriesNoNulls columns base store entries
  := by
  unfold StoredAs at h
  induction h with
  | nil =>
      intro entry hentry
      cases hentry
  | cons hentry _ ih =>
      intro other hother
      rcases List.mem_cons.mp hother with rfl | hother
      · refine ⟨hentry.1, ?_⟩
        intro batch hbatch
        rw [hentry.2] at hbatch
        cases hbatch
        exact hbatches _ List.mem_cons_self
      · exact ih (fun batch hbatch => hbatches batch (List.mem_cons_of_mem _ hbatch)) other hother

/-- A snapshot of rows without NULL in the columns. -/
theorem writeDataframeToTableSnapshot_noNulls {df : DataFusion} {schema : Schema}
    {rows : List Row} (h : Storable columns ⟨schema, rows⟩) :
  KeepsObjects (NoNulls columns base) (writeDataframeToTableSnapshot o df schema rows base)
  := by
  intro w hstore
  unfold writeDataframeToTableSnapshot
  rw [after_bind]
  refine After.mono (KeepsObjects.of_modifies (queryFault_modifies df _) w hstore) ?_
  intro r w₁ h₁
  cases r with
  | error e => exact h₁
  | ok _ =>
      simp only [resume_ok, after_bind, after_outsideCall]
      have hbatches : ∀ batch ∈ (df.batches w₁.calls rows).map
          (fun rows => ({ schema := schema, rows := rows } : RecordBatch)),
          Storable columns batch := by
        intro batch hbatch
        obtain ⟨part, hpart, rfl⟩ := List.mem_map.mp hbatch
        have hsub : ∀ row ∈ part, row ∈ rows := fun row hrow =>
          (df.batches_perm w₁.calls rows).mem_iff.mp (List.mem_flatten_of_mem hpart hrow)
        exact ⟨fun row hrow => h.widths row (hsub row hrow),
          fun row hrow => h.user row (hsub row hrow),
          fun hfield row hrow => h.rowId hfield row (hsub row hrow)⟩
      refine After.mono ((KeepsObjects.of_modifies (prepareBatches_modifies o _ _)
        { w₁ with calls := w₁.calls + 1 } h₁).and (prepareBatches_noNulls hbatches _)) ?_
      rintro r w₂ ⟨h₂, hprepared⟩
      cases r with
      | error e => exact h₂
      | ok prepared =>
          have hprepared := hprepared prepared rfl
          simp only [resume_ok, after_bind]
          refine After.mono ((putBatches_noNulls hprepared w₂ h₂).and
            (putBatches_returns o base prepared w₂)) ?_
          rintro r w₃ ⟨h₃, hstored⟩
          cases r with
          | error e => exact h₃
          | ok entries =>
              simp only [resume_ok, after_bind]
              refine After.mono (replaceManifest_noNulls w₃
                ⟨(hstored entries rfl).entriesNoNulls hprepared, h₃⟩) ?_
              rintro r w₄ ⟨-, h₄⟩
              cases r with
              | error e => exact h₄
              | ok _ =>
                  simp only [resume_ok, after_bind]
                  refine After.mono (vacuumOrphans_noNulls w₄ h₄) ?_
                  intro r w₅ h₅
                  cases r with
                  | error e => exact h₅
                  | ok _ => exact h₅

/-- The snapshot without rows. -/
theorem persistEmptyTableSnapshot_noNulls {schema : Schema} :
  KeepsObjects (NoNulls columns base) (persistEmptyTableSnapshot o base schema)
  := by
  have hkey : base ++ ["empty.parquet"] ≠ manifestKey base := by
    simp [manifestKey]
  apply KeepsObjects.bind (storePut_noNulls hkey (fun row hrow => by cases hrow) _)
  intro outcome
  apply KeepsObjects.bind (KeepsObjects.of_modifies (orStoreError_modifies _ outcome))
  intro _
  apply KeepsObjects.bind
  · intro w h
    refine After.mono (replaceManifest_noNulls w ⟨fun entry hentry => (by cases hentry), h⟩) ?_
    intro r w' h'
    exact h'.2
  · intro _
    apply KeepsObjects.bind vacuumOrphans_noNulls
    intro _
    apply KeepsObjects.of_modifies (ModifiesOnly.pure _)

/-- The file that batches are written as has no NULL in the columns. -/
theorem encodeParquetBatches_noNulls {schema : Schema} {batches : List RecordBatch}
    {file : RecordBatch} (h : encodeParquetBatches schema batches = .ok file)
    (hbatches : ∀ batch ∈ batches, batch.NoNulls columns) :
  file.NoNulls columns
  := by
  unfold encodeParquetBatches at h
  split at h
  · rename_i hschema
    cases h
    intro row hrow column hcolumn
    obtain ⟨batch, hbatch, hrow⟩ := List.mem_flatMap.mp hrow
    have hsame : batch.schema = schema := by
      simpa using List.all_eq_true.mp hschema batch hbatch
    have hcell := hbatches batch hbatch row hrow column hcolumn
    rw [hsame] at hcell
    exact hcell
  · cases h

theorem flushSelected_noNulls {batches : List RecordBatch}
    (h : ∀ batch ∈ batches, batch.NoNulls columns) :
  KeepsObjects (NoNulls columns base) (flushSelected o base batches)
  := by
  cases batches with
  | nil => apply KeepsObjects.of_modifies (ModifiesOnly.pure _)
  | cons first batches =>
      apply KeepsObjects.bind (KeepsObjects.of_modifies ModifiesOnly.outsideCall)
      intro n
      cases hfile : encodeParquetBatches first.schema (first :: batches) with
      | error message =>
          simp only [orBail]
          apply KeepsObjects.of_modifies
          intro w
          exact Frame.refl _ w
      | ok file =>
          simp only [orBail, pure_bind]
          exact putListed_noNulls (encodeParquetBatches_noNulls hfile h)

/-- Rows of a query without NULL in the columns, file by file. -/
theorem insertStream_noNulls {df : DataFusion} {relation : CatalogRelation}
    {aligned : List (ArrowField × Option Nat)} {stream : List (Except String (List Row))}
    (hstream : ∀ rows, .ok rows ∈ stream → Storable columns (alignedBatch aligned rows))
    {current : List RecordBatch} (hcurrent : ∀ batch ∈ current, batch.NoNulls columns)
    (currentRows inserted : Nat) :
  KeepsObjects (NoNulls columns base)
    (insertStream o df relation base aligned stream current currentRows inserted)
  := by
  induction stream generalizing current currentRows inserted with
  | nil =>
      apply KeepsObjects.bind (flushSelected_noNulls hcurrent)
      intro _
      apply KeepsObjects.of_modifies (ModifiesOnly.pure _)
  | cons item stream ih =>
      have hrest := fun rows hrows => hstream rows (List.mem_cons_of_mem _ hrows)
      cases item with
      | error message => apply KeepsObjects.of_modifies (ModifiesOnly.bail _)
      | ok rows =>
          intro w h
          unfold insertStream
          rw [after_bind]
          refine After.mono ((KeepsObjects.of_modifies (prepareBatchForStorage_modifies o _ _) w
            h).and (prepareBatchForStorage_noNulls (hstream rows List.mem_cons_self) w)) ?_
          rintro r w₁ ⟨h₁, hprepared⟩
          cases r with
          | error e => exact h₁
          | ok prepared =>
              have hprepared := hprepared prepared rfl
              have hnext : ∀ batch ∈ current ++ [prepared], batch.NoNulls columns := by
                intro batch hbatch
                rcases List.mem_append.mp hbatch with hbatch | hbatch
                · exact hcurrent batch hbatch
                · obtain rfl := List.mem_singleton.mp hbatch
                  exact hprepared
              rw [resume_ok, after_ite]
              refine ⟨fun _ => ih hrest hcurrent currentRows inserted w₁ h₁, fun _ => ?_⟩
              refine KeepsObjects.bind (KeepsObjects.of_modifies
                (validateBatchAgainstTableUniqueness_modifies o df _ relation _ _)) ?_ w₁ h₁
              intro _
              apply KeepsObjects.ite
              · apply KeepsObjects.bind (flushSelected_noNulls hnext)
                intro _
                exact ih hrest (fun batch hbatch => by cases hbatch) 0 _
              · exact ih hrest hnext _ _

end

/-! ### Inserted values -/

section

open Eff

variable {o : Outside} {x : Execution}

theorem insertTexts_length (columns : List CatalogColumn) (field : ArrowField)
    (position : Option Nat) (rows : List (List String)) (w : World) :
  Returns (insertTexts o x columns field position rows) w (fun texts _ =>
    texts.length = rows.length)
  := by
  induction rows generalizing w with
  | nil => simp [insertTexts]
  | cons row rows ih =>
      rw [insertTexts, returns_bind]
      refine Returns.of_forall ?_
      intro text w₁
      rw [returns_bind]
      refine Returns.mono (ih w₁) ?_
      intro rest w₂ hrest
      rw [returns_pure, List.length_cons, List.length_cons, hrest]

/-- The columns of the rows that are inserted, and their heights. -/
theorem insertColumns_lengths (columns : List CatalogColumn) (target : Option (List String))
    (rows : List (List String)) (fields : List (Nat × ArrowField)) (w : World) :
  Returns (insertColumns o x columns target rows fields) w (fun cells _ =>
    cells.length = fields.length ∧ ∀ column ∈ cells, column.length = rows.length)
  := by
  induction fields generalizing w with
  | nil => simp [insertColumns]
  | cons field fields ih =>
      obtain ⟨position, field⟩ := field
      rw [insertColumns, returns_bind]
      refine Returns.mono (insertTexts_length columns field _ rows w) ?_
      intro texts w₁ htexts
      rw [returns_bind, returns_orBail]
      intro cells hcells
      rw [returns_bind]
      refine Returns.mono (ih w₁) ?_
      rintro rest w₂ ⟨hlength, hrest⟩
      rw [returns_pure]
      refine ⟨by rw [List.length_cons, List.length_cons, hlength], ?_⟩
      intro column hcolumn
      rcases List.mem_cons.mp hcolumn with rfl | hcolumn
      · rw [← (List.mapM_ok_iff.mp hcells).length_eq, htexts]
      · exact hrest column hcolumn

theorem positioned_length (first : Nat) (schema : Schema) :
  (positioned first schema).length = schema.length
  := by
  induction schema generalizing first with
  | nil => rfl
  | cons field schema ih => rw [positioned, List.length_cons, List.length_cons, ih]

/-- The field of a NOT NULL column. -/
theorem notNull_field {columns : List CatalogColumn} (hnodup : (columns.map (·.name)).Nodup)
    {column : CatalogColumn} (hcolumn : column ∈ columns) {field : ArrowField}
    (hfield : field ∈ buildArrowSchemaFromDefinitions columns)
    (hname : field.name = column.name) :
  field = definitionField column
  := by
  have hmem : field ∈ columns.map definitionField := by
    unfold buildArrowSchemaFromDefinitions at hfield
    dsimp only at hfield
    split at hfield
    · exact hfield
    · rename_i hnone
      rcases List.mem_append.mp hfield with hfield | hfield
      · exact hfield
      · obtain rfl := List.mem_singleton.mp hfield
        refine absurd ?_ hnone
        rw [List.any_eq_true]
        exact ⟨definitionField column, List.mem_map_of_mem hcolumn, decide_eq_true hname.symm⟩
  obtain ⟨other, hother, rfl⟩ := List.mem_map.mp hmem
  rw [List.inj_on_of_nodup_map hnodup hother hcolumn hname]

theorem definitionField_mem {columns : List CatalogColumn} {column : CatalogColumn}
    (hcolumn : column ∈ columns) :
  definitionField column ∈ buildArrowSchemaFromDefinitions columns
  := by
  unfold buildArrowSchemaFromDefinitions
  dsimp only
  split
  · exact List.mem_map_of_mem hcolumn
  · exact List.mem_append_left _ (List.mem_map_of_mem hcolumn)

/-- A batch of values has no NULL in the columns that are NOT NULL. -/
theorem buildRecordBatchFromRows_noNulls {relation : CatalogRelation}
    (hnodup : (relation.columns.map (·.name)).Nodup) (target : Option (List String))
    (rows : List (List String)) (w : World) :
  Returns (buildRecordBatchFromRows o x (buildArrowSchemaFromDefinitions relation.columns)
      relation.columns target rows) w (fun batch _ =>
    (∀ row ∈ batch.rows, row.length = batch.schema.length)
      ∧ batch.NoNulls relation.notNullColumns)
  := by
  rw [buildRecordBatchFromRows, returns_bind]
  refine Returns.mono (insertColumns_lengths relation.columns target rows _ w) ?_
  rintro cells w₁ ⟨hlength, hheights⟩
  rw [positioned_length] at hlength
  split
  · apply returns_bail
  · rename_i hnone
    rw [returns_pure]
    constructor
    · intro row hrow
      unfold rowsOfColumns at hrow
      obtain ⟨i, -, rfl⟩ := List.mem_map.mp hrow
      rw [List.length_map, hlength]
    · intro row hrow name hcolumn
      obtain ⟨column, hmem, rfl⟩ := List.mem_map.mp hcolumn
      obtain ⟨hcolumn, hnotNull⟩ := List.mem_filter.mp hmem
      unfold rowsOfColumns at hrow
      obtain ⟨r, hr, rfl⟩ := List.mem_map.mp hrow
      -- the position of the column
      obtain ⟨j, hj⟩ : ∃ j, (buildArrowSchemaFromDefinitions relation.columns).findIdx?
          (·.name = column.name) = some j := by
        rw [← Option.isSome_iff_exists, List.findIdx?_isSome, List.any_eq_true]
        exact ⟨definitionField column, definitionField_mem hcolumn, decide_eq_true rfl⟩
      obtain ⟨hlt, hname, -⟩ := List.findIdx?_eq_some_iff_getElem.mp hj
      have hfield := notNull_field hnodup hcolumn (List.getElem_mem hlt) (by simpa using hname)
      have hltCells : j < cells.length := hlength ▸ hlt
      have hzip : ((buildArrowSchemaFromDefinitions relation.columns)[j], cells[j])
          ∈ (buildArrowSchemaFromDefinitions relation.columns).zip cells := by
        rw [List.mem_iff_getElem]
        refine ⟨j, by simp [hlt, hltCells], by simp⟩
      have hno : none ∉ cells[j] := by
        rw [List.find?_eq_none] at hnone
        have h := hnone _ hzip
        rw [hfield] at h
        simp only [definitionField, Bool.and_eq_true, not_and, List.contains_iff_mem] at h
        exact h hnotNull
      have hrow : r < cells[j].length := by
        rw [hheights _ (List.getElem_mem hltCells)]
        simpa using hr
      unfold cellAt
      rw [hj]
      simp only [List.getElem?_map, List.getElem?_eq_getElem hltCells, Option.map_some,
        List.getElem?_eq_getElem hrow, Option.join_some, ne_eq]
      intro hcell
      exact hno (hcell ▸ List.getElem_mem hrow)

end
