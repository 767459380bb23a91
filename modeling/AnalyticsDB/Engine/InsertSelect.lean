import AnalyticsDB.Engine.IndexSnapshots

/-!
# INSERT of a query result

The coordinator reads the rows of the query batch by batch.  Each batch is checked against the
snapshots that were published before the statement, and the rows are put in a file and listed
whenever there are enough of them.  The snapshots are built again at the end, from all rows.  So a
batch that is refused late leaves the rows before it, and a key that is in two batches is noticed
only when both are listed.
-/

/-- The objects that appending a file changes. -/
def AppendKey (base key : OPath) : Prop :=
  key = manifestKey base ∨ ∃ fileName, key = dataKey base fileName

/-- The manifest of a table lists files that hold some batches, under names that will not be given
again. -/
structure Listing (o : Outside) (base : OPath) (files : List ManifestEntry)
    (batches : List RecordBatch) (w : World) : Prop where
  manifest : ∃ m, w.store[manifestKey base]? = some (.manifest m) ∧ m.files = files
  stored : StoredAs w.store base files batches
  fresh : ∀ entry ∈ files, ∀ n, w.calls ≤ n → entry.path ≠ ["data", o.uuid n ++ ".parquet"]

section

open Eff

variable {o : Outside} {df : DataFusion} {x : Execution} {session : SessionContext}
  {relation : CatalogRelation} {base : OPath} {files : List ManifestEntry}
  {batches : List RecordBatch} {w w' : World}

theorem Listing.committed (h : Listing o base files batches w) :
  CommittedAs w.store base batches
  := by
  obtain ⟨m, hm, rfl⟩ := h.manifest
  exact ⟨m, hm, h.stored⟩

theorem Listing.entries (h : Listing o base files batches w) :
  manifestEntries w.store base = files
  := by
  obtain ⟨m, hm, rfl⟩ := h.manifest
  rw [manifestEntries, hm]

theorem Listing.rows (h : Listing o base files batches w) (columns : List String) :
  committedRows columns w.store base = batches.flatMap (·.rowsOver columns)
  := h.committed.rows columns

/-- A change of objects that a listing does not depend on. -/
theorem Listing.of_frame {touched : OPath → Prop} (h : Listing o base files batches w)
    (hframe : Frame touched w w') (hmanifest : ¬ touched (manifestKey base))
    (hdata : ∀ fileName, ¬ touched (dataKey base fileName)) :
  Listing o base files batches w'
  := by
  refine ⟨?_, ?_, ?_⟩
  · rw [hframe.store _ hmanifest]
    exact h.manifest
  · apply h.stored.of_frame hframe
    rintro entry - ⟨fileName, hpath⟩
    rw [ManifestEntry.key, hpath]
    exact hdata fileName
  · intro entry hentry n hn
    exact h.fresh entry hentry n (Nat.le_trans hframe.calls hn)

theorem Listing.of_untouched (h : Listing o base files batches w)
    (hframe : Frame (fun _ => False) w w') :
  Listing o base files batches w'
  := h.of_frame hframe not_false (fun _ => not_false)

/-- A file is put and listed. -/
theorem putListed_succeeds (h : Reliable o df) (hlisting : Listing o base files batches w)
    (file : RecordBatch) :
  Succeeds (do
    let n ← outsideCall
    orStoreError (← storePut o (dataKey base (o.uuid n ++ ".parquet")) (.parquet file) .overwrite)
    appendToManifest o base { path := ["data", o.uuid n ++ ".parquet"], size := o.encodedSize file
                              rowCount := file.rows.length } : Op Unit) w (fun _ w' =>
      (∃ entry, Listing o base (files ++ [entry]) (batches ++ [file]) w')
        ∧ Frame (AppendKey base) w w')
  := by
  rw [succeeds_bind, succeeds_outsideCall, succeeds_bind]
  refine Succeeds.mono ((storePut_overwrite_succeeds h.store _ _ _).with_after
    (storePut_modifies o _ _ _ _)) ?_
  rintro _ w₁ ⟨⟨rfl, hstore₁⟩, hframe₁⟩
  rw [orStoreError, pure_bind]
  obtain ⟨m, hm, hfiles⟩ := hlisting.manifest
  have hm₁ : w₁.store[manifestKey base]? = (some m).map .manifest := by
    rw [hstore₁, ObjectStore.get_insert, if_neg, Option.map_some]
    · exact hm
    · simp [dataKey, manifestKey]
  have hcas := @casManifest_succeeds o h.store base (fun files => files ++
    [{ path := ["data", o.uuid w.calls ++ ".parquet"], size := o.encodedSize file
       rowCount := file.rows.length }]) 9 w₁ (some m) hm₁
  refine Succeeds.mono (hcas.with_after (casManifest_modifies o base _ _ w₁)) ?_
  rintro _ w₂ ⟨⟨m', hfiles', hstore₂⟩, hframe₂⟩
  rw [Option.map_some, Option.getD_some, hfiles] at hfiles'
  have hframe : Frame (AppendKey base) w w₂ := by
    have hcall := Frame.call (AppendKey base) w
    refine (hcall.trans (hframe₁.mono ?_)).trans (hframe₂.mono ?_)
    · rintro key rfl
      exact .inr ⟨_, rfl⟩
    · rintro key rfl
      exact .inl rfl
  refine ⟨⟨_, ⟨m', ?_, hfiles'⟩, ?_, ?_⟩, hframe⟩
  · rw [hstore₂, ObjectStore.get_insert, if_pos rfl]
  · -- the files that were there, and the new one
    refine List.rel_append ?_ (List.Forall₂.cons ⟨⟨_, rfl⟩, ?_⟩ List.Forall₂.nil)
    · have hold := hlisting.stored.of_frame ((Frame.call (fun key => key
          = dataKey base (o.uuid w.calls ++ ".parquet")) w).trans hframe₁) (by
        rintro entry hentry ⟨fileName, hpath⟩ hkey
        rw [ManifestEntry.key, hpath, dataKey, List.append_cancel_left_eq] at hkey
        exact hlisting.fresh entry hentry w.calls (Nat.le_refl _) (hpath.trans hkey))
      apply hold.of_frame hframe₂
      rintro entry - hdata hkey
      exact entry_key_ne_manifestKey hdata hkey
    · rw [hstore₂, ObjectStore.get_insert, if_neg, hstore₁, ObjectStore.get_insert, if_pos]
      · rfl
      · simp [ManifestEntry.key, manifestKey]
  · intro entry hentry n hn
    rcases List.mem_append.mp hentry with hentry | hentry
    · exact hlisting.fresh entry hentry n (Nat.le_trans hframe.calls hn)
    · obtain rfl := List.mem_singleton.mp hentry
      intro hpath
      have hsame : w.calls = n := @dataKey_inj o base _ _ (congrArg (base ++ ·) hpath)
      have hcalls := Nat.le_trans hframe₁.calls (Nat.le_trans hframe₂.calls hn)
      dsimp only at hcalls
      omega

/-! ### Batches of a query -/

/-- The columns of the rows of a query, aligned with those of the table, have no row id. -/
def NoRowId (aligned : List (ArrowField × Option Nat)) : Prop :=
  ∀ field ∈ aligned, field.1.name ≠ "_row_id"

/-- A prepared batch of a query: the same but for the row ids. -/
structure PreparedAs (aligned : List (ArrowField × Option Nat)) (rows : List Row)
    (prepared : RecordBatch) : Prop where
  fields : prepared.schema = aligned.map (·.1) ++ [rowIdField]
  height : prepared.rows.length = rows.length
  cells : ∀ columns, "_row_id" ∉ columns →
    prepared.rowsOver columns = (alignedBatch aligned rows).rowsOver columns

theorem prepareBatchForStorage_preparedAs {aligned : List (ArrowField × Option Nat)}
    (haligned : NoRowId aligned) (rows : List Row) (w : World) :
  Succeeds (prepareBatchForStorage o (alignedBatch aligned rows)) w (fun prepared w' =>
    PreparedAs aligned rows prepared ∧ Frame (fun _ => False) w w')
  := by
  have hnone : (alignedBatch aligned rows).schema.findIdx? (·.name = "_row_id") = none := by
    rw [List.findIdx?_eq_none_iff]
    intro field hfield
    obtain ⟨entry, hentry, rfl⟩ := List.mem_map.mp hfield
    exact decide_eq_false (haligned entry hentry)
  have hshape : Returns (prepareBatchForStorage o (alignedBatch aligned rows)) w
      (fun prepared _ => prepared.schema = aligned.map (·.1) ++ [rowIdField]
        ∧ prepared.rows.length = rows.length) := by
    unfold prepareBatchForStorage
    rw [hnone]
    dsimp only
    rw [returns_bind]
    refine Returns.mono (withRowIds_returns o _ _ w) ?_
    intro rows' w' hrows
    rw [returns_pure]
    refine ⟨rfl, ?_⟩
    rw [← hrows.length_eq, alignedBatch, List.length_map]
  have hwidths : ∀ row ∈ (alignedBatch aligned rows).rows,
      row.length = (alignedBatch aligned rows).schema.length := by
    intro row hrow
    obtain ⟨_, -, rfl⟩ := List.mem_map.mp hrow
    simp [alignedBatch]
  refine Succeeds.mono ((((prepareBatchForStorage_succeeds _ w).with_returns hshape).with_returns
    (prepareBatchForStorage_returns o _ w hwidths)).with_after
    (prepareBatchForStorage_modifies o (fun _ => False) _ w)) ?_
  rintro prepared w₁ ⟨⟨⟨-, hfields, hheight⟩, hcells⟩, hframe⟩
  exact ⟨⟨hfields, hheight, hcells⟩, hframe⟩

theorem PreparedAs.batchKeys_eq {aligned : List (ArrowField × Option Nat)} {rows : List Row}
    {prepared : RecordBatch} (h : PreparedAs aligned rows prepared) {index : CatalogIndex}
    (hindex : "_row_id" ∉ index.columns) :
  batchKeys index prepared = batchKeys index (alignedBatch aligned rows)
  := h.cells index.columns hindex

/-- What an index says of a batch does not depend on the row ids. -/
theorem PreparedAs.refuses_iff {aligned : List (ArrowField × Option Nat)} {rows : List Row}
    {prepared : RecordBatch} (h : PreparedAs aligned rows prepared) {index : CatalogIndex}
    (hindex : "_row_id" ∉ index.columns) :
  index.Refuses batches prepared ↔ index.Refuses batches (alignedBatch aligned rows)
  := by
  have hcolumns : hasIndexColumns index prepared
      = hasIndexColumns index (alignedBatch aligned rows) := by
    unfold hasIndexColumns
    rw [h.fields]
    rw [Bool.eq_iff_iff, List.all_eq_true, List.all_eq_true]
    apply forall_congr'
    intro column
    apply forall_congr'
    intro hcolumn
    rw [List.any_append, Bool.or_eq_true]
    constructor
    · rintro (hold | hrowId)
      · exact hold
      · have hname : "_row_id" = column := by simpa [rowIdField] using hrowId
        exact absurd (hname ▸ hcolumn) hindex
    · exact .inl
  unfold CatalogIndex.Refuses
  rw [hcolumns, h.batchKeys_eq hindex]

theorem ReadyIndex.noRowId {index : CatalogIndex} (h : ReadyIndex relation index) :
  "_row_id" ∉ index.columns
  := by
  intro hmem
  have hdistinct := h.distinct
  rw [List.nodup_append] at hdistinct
  exact hdistinct.2.2 _ hmem _ List.mem_cons_self rfl

theorem PreparedAs.anyRefuses_iff {aligned : List (ArrowField × Option Nat)} {rows : List Row}
    {prepared : RecordBatch} (h : PreparedAs aligned rows prepared) {indexes : List CatalogIndex}
    (hready : ∀ index ∈ indexes, ReadyIndex relation index) :
  AnyRefuses indexes batches prepared ↔ AnyRefuses indexes batches (alignedBatch aligned rows)
  := by
  unfold AnyRefuses
  apply exists_congr
  intro index
  apply and_congr_right
  intro hindex
  rw [h.refuses_iff (hready index hindex).noRowId]

/-- The batches collected so far are put in a file that is listed. -/
theorem flushSelected_succeeds (h : Reliable o df) (hlisting : Listing o base files batches w)
    {fields : Schema} {current : List RecordBatch} (hcurrent : current ≠ [])
    (hfields : ∀ batch ∈ current, batch.schema = fields) :
  Succeeds (flushSelected o base current) w (fun _ w' =>
    (∃ entry file, Listing o base (files ++ [entry]) (batches ++ [file]) w'
      ∧ ∀ columns, file.rowsOver columns = current.flatMap (·.rowsOver columns))
      ∧ Frame (AppendKey base) w w')
  := by
  cases current with
  | nil => exact absurd rfl hcurrent
  | cons first current =>
      have hfirst := hfields first List.mem_cons_self
      have hfile : encodeParquetBatches first.schema (first :: current)
          = .ok { schema := fields, rows := (first :: current).flatMap (·.rows) } := by
        rw [encodeParquetBatches, hfirst, if_pos]
        rw [List.all_eq_true]
        intro batch hbatch
        exact decide_eq_true (hfields batch hbatch)
      unfold flushSelected
      simp only [hfile, orBail, pure_bind]
      refine Succeeds.mono (putListed_succeeds h hlisting _) ?_
      rintro _ w₁ ⟨⟨entry, hlisting₁⟩, hframe⟩
      refine ⟨⟨entry, _, hlisting₁, ?_⟩, hframe⟩
      intro columns
      rw [RecordBatch.rowsOver, List.map_flatMap]
      dsimp only
      rw [List.flatMap_def, List.flatMap_def]
      congr 1
      apply List.map_congr_left
      intro batch hbatch
      rw [RecordBatch.rowsOver, hfields batch hbatch]

/-! ### The rows of a query -/

/-- The number of rows that are read before the first item that fails, if one does: an error of the
query, or a batch that is refused. -/
def failsAfter (refuses : List Row → Prop) [DecidablePred refuses] :
    List (Except String (List Row)) → Option Nat
  | [] => none
  | .error _ :: _ => some 0
  | .ok rows :: stream =>
    if rows.isEmpty then failsAfter refuses stream
    else if refuses rows then some 0
    else (failsAfter refuses stream).map (rows.length + ·)

/-- The batches of a query with the columns of the table. -/
def sourceBatches (aligned : List (ArrowField × Option Nat))
    (stream : List (Except String (List Row))) : List RecordBatch :=
  stream.filterMap (fun item => item.toOption.map (alignedBatch aligned))

instance CatalogIndex.decidableRefuses (index : CatalogIndex) (batches : List RecordBatch)
    (batch : RecordBatch) : Decidable (index.Refuses batches batch) :=
  inferInstanceAs (Decidable (hasIndexColumns index batch = false
    ∨ ¬ (batchKeys index batch).Nodup
    ∨ ∃ key ∈ batchKeys index batch, none ∉ key ∧ key ∈ indexKeysOf index batches))

instance decidableAnyRefuses (indexes : List CatalogIndex) (batches : List RecordBatch)
    (batch : RecordBatch) : Decidable (AnyRefuses indexes batches batch) :=
  inferInstanceAs (Decidable (∃ index ∈ indexes, index.unique = true
    ∧ index.Refuses batches batch))

/-- What is left of the rows of a query that are inserted into a table with the batches `old`,
after `currentRows` rows that are not yet put in a file: `files` are the new files. -/
def StreamOutcome (relation : CatalogRelation) (aligned : List (ArrowField × Option Nat))
    (old : List RecordBatch) (stream : List (Except String (List Row)))
    (current : List RecordBatch) (currentRows : Nat) (files : List ManifestEntry)
    (batches : List RecordBatch) (r : Except Failure Nat) : Prop :=
  match failsAfter (fun rows => AnyRefuses relation.indexes old (alignedBatch aligned rows))
      stream with
  | some n => (∃ e, r = .error e)
    ∧ (files = [] ↔ currentRows + n < INSERT_SELECT_PARQUET_ROW_GROUP_SIZE)
  | none => (∃ count, r = .ok count) ∧ ∀ columns, "_row_id" ∉ columns →
    batches.flatMap (·.rowsOver columns)
      = (current ++ sourceBatches aligned stream).flatMap (·.rowsOver columns)

/-- The objects of indexes are not among those that appending changes. -/
theorem not_appendKey_indexKey (name : String) (rest : OPath) :
  ¬ AppendKey base (indexKey base name ++ rest)
  := by
  rintro (h | ⟨fileName, h⟩)
  · simp [indexKey, manifestKey] at h
  · simp [indexKey, dataKey] at h

/-- The snapshots of the unique indexes of a table hold the entries of some batches. -/
def UniquePublished (store : ObjectStore) (base : OPath) (indexes : List CatalogIndex)
    (batches : List RecordBatch) : Prop :=
  ∀ index ∈ indexes, index.unique = true → ∃ entries, Published store base index entries
    ∧ entries.Perm (indexEntriesOf index batches)

theorem UniquePublished.of_frame {indexes : List CatalogIndex} {touched : OPath → Prop}
    (h : UniquePublished w.store base indexes batches) (hframe : Frame touched w w')
    (huntouched : ∀ name rest, ¬ touched (indexKey base name ++ rest)) :
  UniquePublished w'.store base indexes batches
  := by
  intro index hindex hunique
  obtain ⟨entries, hpublished, hperm⟩ := h index hindex hunique
  exact ⟨entries, hpublished.of_frame hframe (huntouched index.name), hperm⟩

/-- A batch without rows changes nothing. -/
theorem StreamOutcome.skip {aligned : List (ArrowField × Option Nat)} {old : List RecordBatch}
    {stream : List (Except String (List Row))} {current newBatches : List RecordBatch}
    {currentRows : Nat} {newFiles : List ManifestEntry} {r : Except Failure Nat}
    (h : StreamOutcome relation aligned old stream current currentRows newFiles newBatches r)
    {rows : List Row} (hrows : rows = []) :
  StreamOutcome relation aligned old (.ok rows :: stream) current currentRows newFiles newBatches r
  := by
  subst hrows
  unfold StreamOutcome at h ⊢
  rw [failsAfter, if_pos List.isEmpty_nil]
  cases hfails : failsAfter (fun rows => AnyRefuses relation.indexes old
      (alignedBatch aligned rows)) stream with
  | some n =>
      rw [hfails] at h
      exact h
  | none =>
      rw [hfails] at h
      refine ⟨h.1, ?_⟩
      intro columns hcolumns
      rw [h.2 columns hcolumns]
      simp [sourceBatches, alignedBatch, RecordBatch.rowsOver, Except.toOption]

/-- A batch that is accepted goes to the rows that are not yet in a file. -/
theorem StreamOutcome.take {aligned : List (ArrowField × Option Nat)} {old : List RecordBatch}
    {stream : List (Except String (List Row))} {current newBatches : List RecordBatch}
    {currentRows : Nat} {newFiles : List ManifestEntry} {r : Except Failure Nat} {rows : List Row}
    {prepared : RecordBatch} (hprepared : PreparedAs aligned rows prepared)
    (hsome : ¬ rows.isEmpty = true)
    (haccepts : ¬ AnyRefuses relation.indexes old (alignedBatch aligned rows))
    (h : StreamOutcome relation aligned old stream (current ++ [prepared])
      (currentRows + rows.length) newFiles newBatches r) :
  StreamOutcome relation aligned old (.ok rows :: stream) current currentRows newFiles newBatches r
  := by
  unfold StreamOutcome at h ⊢
  rw [failsAfter, if_neg hsome, if_neg haccepts]
  cases hfails : failsAfter (fun rows => AnyRefuses relation.indexes old
      (alignedBatch aligned rows)) stream with
  | some n =>
      rw [hfails] at h
      dsimp only [Option.map_some] at h ⊢
      rw [← Nat.add_assoc]
      exact h
  | none =>
      rw [hfails] at h
      refine ⟨h.1, ?_⟩
      intro columns hcolumns
      rw [h.2 columns hcolumns]
      simp [sourceBatches, Except.toOption, hprepared.cells columns hcolumns]

/-- A batch that is accepted fills a file, which is listed. -/
theorem StreamOutcome.flush {aligned : List (ArrowField × Option Nat)} {old : List RecordBatch}
    {stream : List (Except String (List Row))} {current newBatches : List RecordBatch}
    {currentRows : Nat} {newFiles : List ManifestEntry} {r : Except Failure Nat} {rows : List Row}
    {prepared file : RecordBatch} (hprepared : PreparedAs aligned rows prepared)
    (hsome : ¬ rows.isEmpty = true)
    (haccepts : ¬ AnyRefuses relation.indexes old (alignedBatch aligned rows))
    (hfull : INSERT_SELECT_PARQUET_ROW_GROUP_SIZE ≤ currentRows + rows.length)
    (hfile : ∀ columns, file.rowsOver columns
      = (current ++ [prepared]).flatMap (·.rowsOver columns))
    (h : StreamOutcome relation aligned old stream [] 0 newFiles newBatches r)
    (entry : ManifestEntry) :
  StreamOutcome relation aligned old (.ok rows :: stream) current currentRows (entry :: newFiles)
    (file :: newBatches) r
  := by
  unfold StreamOutcome at h ⊢
  rw [failsAfter, if_neg hsome, if_neg haccepts]
  cases hfails : failsAfter (fun rows => AnyRefuses relation.indexes old
      (alignedBatch aligned rows)) stream with
  | some n =>
      rw [hfails] at h
      dsimp only [Option.map_some] at h ⊢
      refine ⟨h.1, ?_⟩
      simp only [reduceCtorEq, false_iff, Nat.not_lt]
      omega
  | none =>
      rw [hfails] at h
      refine ⟨h.1, ?_⟩
      intro columns hcolumns
      rw [List.flatMap_cons, h.2 columns hcolumns, hfile]
      simp [sourceBatches, Except.toOption, hprepared.cells columns hcolumns]

/-- The rows of a query are checked batch by batch, and listed file by file. -/
theorem after_insertStream (h : Reliable o df) {aligned : List (ArrowField × Option Nat)}
    (haligned : NoRowId aligned)
    (hready : ∀ index ∈ relation.indexes, ReadyIndex relation index) {old : List RecordBatch}
    (hpublished : UniquePublished w.store base relation.indexes old)
    (hlisting : Listing o base files batches w) (stream : List (Except String (List Row)))
    {current : List RecordBatch}
    (hcurrent : ∀ batch ∈ current, batch.schema = aligned.map (·.1) ++ [rowIdField])
    {currentRows : Nat} (hrows : currentRows < INSERT_SELECT_PARQUET_ROW_GROUP_SIZE)
    (inserted : Nat) :
  After (insertStream o df relation base aligned stream current currentRows inserted) w
    (fun r w' => Frame (AppendKey base) w w' ∧ ∃ newFiles newBatches,
      Listing o base (files ++ newFiles) (batches ++ newBatches) w'
        ∧ StreamOutcome relation aligned old stream current currentRows newFiles newBatches r)
  := by
  have hlisting₀ : Listing o base (files ++ []) (batches ++ []) w := by simpa using hlisting
  induction stream generalizing w files batches current currentRows inserted with
  | nil =>
      unfold insertStream
      rw [after_bind]
      cases current with
      | nil =>
          exact ⟨Frame.refl _ _, [], [], hlisting₀, ⟨inserted, rfl⟩, fun _ _ => rfl⟩
      | cons first current =>
          refine After.mono (flushSelected_succeeds h hlisting (by simp) hcurrent) ?_
          rintro _ w₁ ⟨_, rfl, ⟨entry, file, hlisting₁, hcells⟩, hframe⟩
          refine ⟨hframe, [entry], [file], hlisting₁, ⟨inserted, rfl⟩, ?_⟩
          intro columns _
          simp [sourceBatches, hcells]
  | cons item stream ih =>
      cases item with
      | error message =>
          refine ⟨Frame.refl _ _, [], [], hlisting₀, ⟨_, rfl⟩, ?_⟩
          simp [hrows]
      | ok rows =>
          unfold insertStream
          rw [after_bind]
          refine After.mono (prepareBatchForStorage_preparedAs haligned rows w) ?_
          rintro _ w₁ ⟨prepared, rfl, hprepared, hframe₁⟩
          have hlisting₁ := hlisting.of_untouched hframe₁
          have hpublished₁ := hpublished.of_frame hframe₁ (fun _ _ => not_false)
          have hempty : prepared.rows.isEmpty = rows.isEmpty := by
            rw [Bool.eq_iff_iff, List.isEmpty_iff, List.isEmpty_iff, ← List.length_eq_zero_iff,
              ← List.length_eq_zero_iff, hprepared.height]
          rw [resume_ok, after_ite, hempty]
          replace hframe₁ : Frame (AppendKey base) w w₁ := hframe₁.mono (fun _ h => h.elim)
          constructor
          · intro hnone
            refine After.mono (ih hpublished₁ hlisting₁ hcurrent hrows inserted
              (by simpa using hlisting₁)) ?_
            rintro r w₂ ⟨hframe₂, newFiles, newBatches, hlisting₂, houtcome⟩
            exact ⟨hframe₁.trans hframe₂, newFiles, newBatches, hlisting₂,
              houtcome.skip (List.isEmpty_iff.mp hnone)⟩
          · intro hsome
            rw [after_bind]
            refine After.mono (after_validateBatchAgainstTableUniqueness h hpublished₁ prepared) ?_
            rintro r w₂ ⟨hframe₂, ⟨hrefuses, e, rfl⟩ | ⟨haccepts, rfl⟩⟩
            · rw [hprepared.anyRefuses_iff hready] at hrefuses
              have hlisting₂ := (hlisting₁.of_untouched hframe₂)
              refine ⟨hframe₁.trans (hframe₂.mono (fun _ h => h.elim)), [], [],
                by simpa using hlisting₂, ?_⟩
              unfold StreamOutcome failsAfter
              rw [if_neg hsome, if_pos hrefuses]
              exact ⟨⟨e, rfl⟩, by simp [hrows]⟩
            · rw [hprepared.anyRefuses_iff hready] at haccepts
              have hframe₀ : Frame (AppendKey base) w w₂ :=
                hframe₁.trans (hframe₂.mono (fun _ h => h.elim))
              have hlisting₂ := hlisting₁.of_untouched hframe₂
              have hpublished₂ := hpublished₁.of_frame hframe₂ (fun _ _ => not_false)
              have hnext : ∀ batch ∈ current ++ [prepared],
                  batch.schema = aligned.map (·.1) ++ [rowIdField] := by
                intro batch hbatch
                rcases List.mem_append.mp hbatch with hbatch | hbatch
                · exact hcurrent batch hbatch
                · rw [List.mem_singleton.mp hbatch]
                  exact hprepared.fields
              rw [resume_ok]
              dsimp only
              rw [hprepared.height, after_ite]
              constructor
              · intro hfull
                rw [after_bind]
                refine After.mono (flushSelected_succeeds h hlisting₂ (by simp) hnext) ?_
                rintro _ w₃ ⟨_, rfl, ⟨entry, file, hlisting₃, hcells⟩, hframe₃⟩
                rw [resume_ok]
                refine After.mono
                  (ih (hpublished₂.of_frame hframe₃ not_appendKey_indexKey) hlisting₃
                  (fun batch hbatch => by cases hbatch) (by decide) _ (by simpa using hlisting₃)) ?_
                rintro r w₄ ⟨hframe₄, newFiles, newBatches, hlisting₄, houtcome⟩
                refine ⟨(hframe₀.trans hframe₃).trans hframe₄, entry :: newFiles,
                  file :: newBatches, by simpa using hlisting₄, ?_⟩
                exact houtcome.flush hprepared hsome haccepts hfull hcells entry
              · intro hfew
                refine After.mono (ih hpublished₂ hlisting₂ hnext (by omega) _
                  (by simpa using hlisting₂)) ?_
                rintro r w₃ ⟨hframe₃, newFiles, newBatches, hlisting₃, houtcome⟩
                exact ⟨hframe₀.trans hframe₃, newFiles, newBatches, hlisting₃,
                  houtcome.take hprepared hsome haccepts⟩

/-! ### The statement -/

section

variable (o : Outside) (df : DataFusion) (x : Execution) (session : SessionContext)

/-- An INSERT of a query that the coordinator executes alone, into a table whose unique keys are
distinct and without NULL, and are those of the published snapshots.  The query yields `stream`,
whose columns are aligned with those of the table. -/
structure InsertSetting (insert : InsertSelect) (s : EngineState) (relation : CatalogRelation)
    (base : OPath) (files : List ManifestEntry) (old : List RecordBatch)
    (aligned : List (ArrowField × Option Nat)) (stream : List (Except String (List Row))) :
    Prop where
  reliable : Reliable o df
  alone : After (tryDistributedInsert o df x session insert) s (fun r s₁ => r = .ok none
    ∧ Frame (fun _ => False) s.world s₁.world
    ∧ ∃ source, x.executeStream s₁.world.calls insert.querySql s₁.world.catalog s₁.world.store
        = .ok (source, stream) ∧ alignColumns relation insert.columns source = .ok aligned)
  valid : validateSession s.world.catalog session = .ok ()
  target : insert.targetKey session = relation.key
  readable : Readable o session relation base s.world
  listing : Listing o base files old s.world
  ready : ∀ index ∈ relation.indexes, ReadyIndex relation index
  names : (relation.indexes.map (·.name)).Nodup
  published : UniquePublished s.world.store base relation.indexes old
  distinct : ∀ index ∈ relation.indexes, index.unique = true →
    (indexKeysOf index old).Nodup ∧ ∀ key ∈ indexKeysOf index old, none ∉ key

end

/-- What the insert of the batches `new` into a table with the batches `old` in `files` is to
leave: all rows, with distinct keys where they are not NULL, or the files as they were. -/
def InsertAtomic (relation : CatalogRelation) (base : OPath) (files : List ManifestEntry)
    (old new : List RecordBatch) (r : Except Failure DmlOutcome) (w' : World) : Prop :=
  (∀ outcome, r = .ok outcome →
    committedRows relation.userColumns w'.store base
      = (old ++ new).flatMap (·.rowsOver relation.userColumns)
    ∧ ∀ index ∈ relation.indexes, index.unique = true →
      ((committedRows index.columns w'.store base).filter (fun key => none ∉ key)).Nodup)
  ∧ ∀ e, r = .error e → manifestEntries w'.store base = files

/-- The query fails, or a batch of it is refused, before a file is full; or nothing of this
happens, and all keys are distinct. -/
def StreamAccepted (relation : CatalogRelation) (old : List RecordBatch)
    (aligned : List (ArrowField × Option Nat)) (stream : List (Except String (List Row))) : Prop :=
  match failsAfter (fun rows => AnyRefuses relation.indexes old (alignedBatch aligned rows))
      stream with
  | some n => n < INSERT_SELECT_PARQUET_ROW_GROUP_SIZE
  | none => ∀ index ∈ relation.indexes, index.unique = true →
    (indexKeysOf index (old ++ sourceBatches aligned stream)).Nodup

/-- How a statement ends: an item fails, or all rows are listed and the snapshots are built unless
a key is there twice. -/
def InsertOutcome (relation : CatalogRelation) (old : List RecordBatch)
    (aligned : List (ArrowField × Option Nat)) (stream : List (Except String (List Row)))
    (newFiles : List ManifestEntry) (newBatches : List RecordBatch)
    (r : Except Failure DmlOutcome) : Prop :=
  match failsAfter (fun rows => AnyRefuses relation.indexes old (alignedBatch aligned rows))
      stream with
  | some n => (∃ e, r = .error e) ∧ (newFiles = [] ↔ n < INSERT_SELECT_PARQUET_ROW_GROUP_SIZE)
  | none => (∀ columns, "_row_id" ∉ columns → newBatches.flatMap (·.rowsOver columns)
      = (sourceBatches aligned stream).flatMap (·.rowsOver columns))
    ∧ (AnyViolated relation.indexes (old ++ newBatches) ∧ (∃ e, r = .error e)
      ∨ ¬ AnyViolated relation.indexes (old ++ newBatches) ∧ ∃ outcome, r = .ok outcome)

theorem not_appendKey_directory {fileName : String} :
  ¬ AppendKey base (base ++ [fileName])
  := by
  rintro (h | ⟨name, h⟩)
  · simp [manifestKey] at h
  · simp [dataKey] at h

theorem Readable.of_frame {touched : OPath → Prop} (h : Readable o session relation base w)
    (hframe : Frame touched w w') (huntouched : ∀ fileName, ¬ touched (base ++ [fileName])) :
  Readable o session relation base w'
  := by
  refine ⟨?_, ?_, h.kind, h.located, h.isLocal, h.distinct, ?_⟩
  · rw [hframe.catalog]
    exact h.session
  · rw [hframe.catalog]
    exact h.found
  · intro fileName hname
    rw [hframe.store _ (huntouched fileName)]
    exact h.directory fileName hname

theorem tableRelation_succeeds {database schema : Option String} {name : String}
    (hsession : validateSession w.catalog session = .ok ())
    (hfound : w.catalog.relations[namedKey session database schema name]? = some relation)
    (hkind : relation.kind = .table) :
  Succeeds (tableRelation session database schema name) w (fun found w' =>
    found = relation ∧ w' = w)
  := by
  unfold namedKey at hfound
  rw [tableRelation, succeeds_bind, findRelation, succeeds_bind, succeeds_readState, succeeds_bind,
    succeeds_orBail]
  refine ⟨_, hsession, ?_⟩
  simp only [hfound]
  rw [succeeds_pure, succeeds_ite]
  refine ⟨fun hother => absurd hkind hother, fun _ => ?_⟩
  rw [succeeds_pure]
  exact ⟨rfl, rfl⟩

theorem tableStorePrefix_succeeds (hbase : relation.base? o = some base) (w : World) :
  Succeeds (tableStorePrefix o relation) w (fun path w' => path = base ∧ w' = w)
  := by
  obtain ⟨location, hlocation, hstore⟩ := location_of_base hbase
  unfold tableStorePrefix
  rw [hlocation]
  dsimp only
  rw [succeeds_orBail]
  exact ⟨base, hstore, rfl, rfl⟩

/-- The rows of a query are inserted. -/
theorem after_insertSelected (h : Reliable o df)
    (hready : ∀ index ∈ relation.indexes, ReadyIndex relation index) {old : List RecordBatch}
    (hpublished : UniquePublished w.store base relation.indexes old)
    (hlisting : Listing o base files old w) {target : Option (List String)} {querySql : String}
    {source : Schema} {stream : List (Except String (List Row))}
    (hstream : x.executeStream w.calls querySql w.catalog w.store = .ok (source, stream))
    {aligned : List (ArrowField × Option Nat)}
    (haligned : alignColumns relation target source = .ok aligned) :
  After (insertSelected o df x relation base target querySql) w (fun r w' =>
    Frame (AppendKey base) w w' ∧ ∃ newFiles newBatches,
      Listing o base (files ++ newFiles) (old ++ newBatches) w'
        ∧ StreamOutcome relation aligned old stream [] 0 newFiles newBatches r)
  := by
  have hcall := Frame.call (fun _ => False) w
  unfold insertSelected
  rw [after_bind, after_outsideCall, resume_ok, after_bind, after_get, resume_ok]
  simp only [hstream, haligned, orBail, pure_bind]
  refine After.mono (after_insertStream h (alignColumns_ne_rowId haligned) hready
    (hpublished.of_frame hcall (fun _ _ => not_false)) (hlisting.of_untouched hcall) stream
    (fun batch hbatch => by cases hbatch) (by decide) 0) ?_
  rintro r w₁ ⟨hframe, hrest⟩
  exact ⟨(hcall.mono (fun _ h => h.elim)).trans hframe, hrest⟩

/-- What an INSERT of a query leaves and returns. -/
theorem after_executeInsertSelect_alone {insert : InsertSelect} {s : EngineState}
    {old : List RecordBatch} {aligned : List (ArrowField × Option Nat)}
    {stream : List (Except String (List Row))}
    (h : InsertSetting o df x session insert s relation base files old aligned stream) :
  After (executeInsertSelect o df x session insert) s (fun r s' => ∃ newFiles newBatches,
    Listing o base (files ++ newFiles) (old ++ newBatches) s'.world
      ∧ InsertOutcome relation old aligned stream newFiles newBatches r)
  := by
  rw [executeInsertSelect, after_bind, insertSelectRows, after_bind]
  refine After.mono h.alone ?_
  rintro r s₁ ⟨rfl, hframe₁, source, hstream, haligned⟩
  have hlisting₁ := h.listing.of_untouched hframe₁
  have hpublished₁ := h.published.of_frame hframe₁ (fun _ _ => not_false)
  have hreadable₁ := h.readable.of_frame hframe₁ (fun _ => not_false)
  rw [resume_ok]
  dsimp only
  rw [after_bind, after_onWorld]
  have hvalid₁ : validateSession s₁.world.catalog session = .ok () := by
    rw [hframe₁.catalog]
    exact h.valid
  have hfound₁ : s₁.world.catalog.relations[namedKey session insert.database insert.schema
      insert.name]? = some relation := by
    have htarget := h.target
    unfold InsertSelect.targetKey at htarget
    rw [hframe₁.catalog, htarget]
    exact h.readable.found
  refine After.mono (tableRelation_succeeds hvalid₁ hfound₁ h.readable.kind) ?_
  rintro _ _ ⟨relation, rfl, rfl, rfl⟩
  rw [resume_ok, after_bind, after_onWorld]
  refine After.mono (tableStorePrefix_succeeds h.readable.located s₁.world) ?_
  rintro _ _ ⟨base, rfl, rfl, rfl⟩
  rw [resume_ok, after_bind, after_onWorld]
  refine After.mono (after_insertSelected h.reliable h.ready hpublished₁ hlisting₁ hstream
    haligned) ?_
  rintro r w₂ ⟨hframe₂, newFiles, newBatches, hlisting₂, houtcome⟩
  unfold StreamOutcome at houtcome
  unfold InsertOutcome
  cases hfails : failsAfter (fun rows => AnyRefuses relation.indexes old
      (alignedBatch aligned rows)) stream with
  | some n =>
      rw [hfails] at houtcome
      obtain ⟨⟨e, rfl⟩, hfiles⟩ := houtcome
      rw [Nat.zero_add] at hfiles
      exact ⟨newFiles, newBatches, hlisting₂, ⟨e, rfl⟩, hfiles⟩
  | none =>
      rw [hfails] at houtcome
      obtain ⟨⟨count, rfl⟩, hcells⟩ := houtcome
      rw [resume_ok, after_bind, invalidateFileList, after_modify, resume_ok, after_pure,
        resume_ok]
      dsimp only
      rw [after_bind, after_onWorld]
      have hreadable₂ := hreadable₁.of_frame hframe₂ (fun _ => not_appendKey_directory)
      refine After.mono (after_rebuildAllIndexSnapshots h.reliable hreadable₂ hlisting₂.committed
        h.ready h.names) ?_
      rintro r w₃ ⟨hframe₃, hrebuilt⟩
      have hlisting₃ : Listing o base (files ++ newFiles) (old ++ newBatches) w₃ :=
        hlisting₂.of_frame (hframe₃.mono (fun _ => indexKey_of_indexes))
          (not_indexKey_manifestKey base) (not_indexKey_dataKey base)
      rcases hrebuilt with ⟨hviolated, e, rfl⟩ | ⟨hdistinct, rfl, -⟩
      · exact ⟨newFiles, newBatches, hlisting₃, hcells, .inl ⟨hviolated, e, rfl⟩⟩
      · exact ⟨newFiles, newBatches, hlisting₃, hcells, .inr ⟨hdistinct, _, rfl⟩⟩

theorem userColumns_noRowId (relation : CatalogRelation) :
  "_row_id" ∉ relation.userColumns
  := by
  simp [CatalogRelation.userColumns]

/-- The keys of old and new batches, in whichever files the new rows are. -/
theorem indexKeysOf_append_congr {index : CatalogIndex} {old newBatches source : List RecordBatch}
    (hcells : newBatches.flatMap (·.rowsOver index.columns)
      = source.flatMap (·.rowsOver index.columns)) :
  indexKeysOf index (old ++ newBatches) = indexKeysOf index (old ++ source)
  := by
  unfold indexKeysOf
  rw [List.flatMap_append, List.flatMap_append, hcells]

/-- An INSERT of a query is atomic and keeps unique keys distinct exactly when a failing batch comes
before a file is full, or no batch fails and all keys are distinct. -/
theorem executeInsertSelect_atomic_iff {insert : InsertSelect} {s : EngineState}
    {old : List RecordBatch} {aligned : List (ArrowField × Option Nat)}
    {stream : List (Except String (List Row))}
    (h : InsertSetting o df x session insert s relation base files old aligned stream) :
  After (executeInsertSelect o df x session insert) s (fun r s' =>
      InsertAtomic relation base files old (sourceBatches aligned stream) r s'.world)
    ↔ StreamAccepted relation old aligned stream
  := by
  refine After.mono (after_executeInsertSelect_alone h) (R := fun r s' =>
    (InsertAtomic relation base files old (sourceBatches aligned stream) r s'.world
      ↔ StreamAccepted relation old aligned stream)) ?_
  rintro r s' ⟨newFiles, newBatches, hlisting, houtcome⟩
  unfold InsertOutcome at houtcome
  unfold StreamAccepted
  have hsame : ∀ e, r = .error e →
      (InsertAtomic relation base files old (sourceBatches aligned stream) r s'.world
        ↔ newFiles = []) := by
    rintro e rfl
    unfold InsertAtomic
    rw [hlisting.entries]
    constructor
    · rintro ⟨-, hfiles⟩
      simpa using hfiles e rfl
    · rintro rfl
      refine ⟨fun _ h => (by cases h), fun _ _ => List.append_nil files⟩
  cases hfails : failsAfter (fun rows => AnyRefuses relation.indexes old
      (alignedBatch aligned rows)) stream with
  | some n =>
      rw [hfails] at houtcome
      obtain ⟨⟨e, rfl⟩, hfiles⟩ := houtcome
      rw [hsame e rfl, hfiles]
  | none =>
      rw [hfails] at houtcome
      obtain ⟨hcells, hend⟩ := houtcome
      have hkeys : ∀ index ∈ relation.indexes, indexKeysOf index (old ++ newBatches)
          = indexKeysOf index (old ++ sourceBatches aligned stream) := by
        intro index hindex
        exact indexKeysOf_append_congr (hcells _ (h.ready index hindex).noRowId)
      dsimp only
      rcases hend with ⟨⟨index, hindex, hunique, hdouble⟩, e, rfl⟩ | ⟨hdistinct, outcome, rfl⟩
      · -- a key is there twice, so that there is a new row
        rw [hkeys index hindex] at hdouble
        rw [hsame e rfl]
        constructor
        · rintro rfl
          have hlength := hlisting.stored.length_eq
          have hbefore := h.listing.stored.length_eq
          have hnone : newBatches = [] := by
            rw [← List.length_eq_zero_iff]
            simp only [List.append_nil, List.length_append] at hlength
            omega
          subst hnone
          rw [← hkeys index hindex, List.append_nil] at hdouble
          exact absurd (h.distinct index hindex hunique).1 hdouble
        · intro hall
          exact absurd (hall index hindex hunique) hdouble
      · have hnodup : ∀ index ∈ relation.indexes, index.unique = true →
            (indexKeysOf index (old ++ sourceBatches aligned stream)).Nodup := by
          intro index hindex hunique
          by_contra hdouble
          rw [← hkeys index hindex] at hdouble
          exact hdistinct ⟨index, hindex, hunique, hdouble⟩
        refine ⟨fun _ => hnodup, fun _ => ⟨?_, fun _ h => by cases h⟩⟩
        intro _ _
        constructor
        · rw [hlisting.rows, List.flatMap_append, List.flatMap_append,
            hcells _ (userColumns_noRowId relation)]
        · intro index hindex hunique
          rw [hlisting.rows]
          have hcommitted := hnodup index hindex hunique
          rw [← hkeys index hindex] at hcommitted
          exact hcommitted.filter _

end

/-! ### A table with a primary key -/

section

open Eff

/-- The files of a directory are read when nothing fails. -/
theorem reliable_faultless (evalExpr : String → NamedRow → Except String Cell) :
  Reliable Outside.faultless (DataFusion.faultless evalExpr)
  := by
  refine ⟨fun _ => rfl, fun _ => rfl, ?_, fun _ _ => rfl⟩
  intro store base key hkey
  obtain ⟨hmem, hname⟩ := List.mem_filter.mp hkey
  obtain ⟨⟨_, obj⟩, hbelow, rfl⟩ := List.mem_map.mp hmem
  obtain ⟨hobj, ⟨rest, rfl⟩, -⟩ := ObjectStore.mem_below.mp hbelow
  simp only [List.drop_left] at hname
  split at hname
  · rename_i fileName
    refine ⟨fileName, rfl, hname, ?_⟩
    rw [hobj]
    simp
  · cases hname

/-- The query of an insert that reads more than one table is executed by the coordinator. -/
theorem tryDistributedInsert_other {o : Outside} {df : DataFusion} {x : Execution}
    {session : SessionContext} {insert : InsertSelect} (hsource : insert.source = .other)
    (s : EngineState) :
  After (tryDistributedInsert o df x session insert) s (fun r s₁ => r = .ok none ∧ s₁ = s)
  := by
  unfold tryDistributedInsert
  rw [after_bind, after_onWorld, after_attempt]
  refine After.mono (after_tableRelation insert.database insert.schema insert.name) ?_
  rintro r w₁ ⟨rfl, -⟩
  rw [resume_ok]
  cases r with
  | error e => exact ⟨rfl, rfl⟩
  | ok relation =>
      dsimp only
      split
      · exact ⟨rfl, rfl⟩
      · rw [hsource]
        exact ⟨rfl, rfl⟩

/-- The index of the primary key `k`. -/
def keyIndex : CatalogIndex :=
  { name := "t_pkey", columns := ["k"], isUnique := true, isPrimary := true }

/-- The sample table with a primary key. -/
def keyedTable : CatalogRelation := { sampleTable with indexes := [keyIndex] }

/-- The row with the key 1. -/
def keyedBatch : RecordBatch :=
  { schema := [⟨"k", .int64, true⟩, rowIdField], rows := [[some (.integer 1), some (.text "a")]] }

/-- A first install with that table, and the snapshot of its index. -/
def keyedWorld : World :=
  let w := World.bootstrap.withTable keyedTable ["file://", "m", "t"] keyedBatch
  let index := indexKey ["file://", "m", "t"] "t_pkey"
  { w with
    store := ((w.store.insert (index ++ ["manifest.json"]) (.other "v")).insert
      (index ++ ["versions", "v"] ++ ["metadata.json"]) (.other "v")).insert
      (index ++ ["versions", "v"] ++ ["data.parquet"])
      (.parquet { schema := snapshotSchema keyIndex
                  rows := indexEntriesOf keyIndex [keyedBatch] }) }

def keyedEngine : EngineState := { world := keyedWorld, fileListCache := .new }

/-- `INSERT INTO t` of a query over two tables. -/
def keyedInsert : InsertSelect :=
  { database := none, schema := none, name := "t", columns := none
    querySql := "SELECT a.k FROM a JOIN b ON a.k = b.k", source := .other, attempts := [] }

/-- An execution whose queries yield the given batches of one column. -/
def yielding (stream : List (Except String (List Row))) : Execution :=
  { Execution.idle with
    executeStream := fun _ _ _ _ => .ok ([⟨"k", .int64, true⟩], stream) }

/-- The file of the table. -/
def keyedFile : ManifestEntry := { path := ["data", "0.parquet"], size := 0, rowCount := 0 }

/-- The column of the query. -/
def keyedAligned : List (ArrowField × Option Nat) := [(⟨"k", .int64, true⟩, some 0)]

/-- The table with the row 1 and the key index, whichever rows the query yields. -/
theorem keyedSetting (stream : List (Except String (List Row))) :
  InsertSetting Outside.faultless sampleDataFusion (yielding stream) {} keyedInsert keyedEngine
    keyedTable ["file://", "m", "t"] [keyedFile] [keyedBatch] keyedAligned stream
  := by
  refine ⟨reliable_faultless _, ?_, by decide, by decide, ?_, ?_, ?_, by decide, ?_,
    ?_⟩
  · refine After.mono (tryDistributedInsert_other rfl keyedEngine) ?_
    rintro r s₁ ⟨rfl, rfl⟩
    exact ⟨rfl, Frame.refl _ _, _, rfl, by decide⟩
  · refine ⟨by decide, by decide, rfl, by decide, rfl, by decide,
      ?_⟩
    intro fileName _
    simp [keyedEngine, keyedWorld, World.withTable, ObjectStore.get_insert, indexKey, manifestKey,
      ManifestEntry.key]
    exact Std.ExtTreeMap.not_mem_empty
  · refine ⟨⟨{ snapshotId := "", createdAtMs := 0, files := [keyedFile] }, by decide, rfl⟩,
      ?_, ?_⟩
    · exact List.Forall₂.cons ⟨⟨_, rfl⟩, by decide⟩ List.Forall₂.nil
    · intro entry hentry n _
      obtain rfl := List.mem_singleton.mp hentry
      intro hpath
      have hname : "0.parquet".toList = List.replicate n 'u' ++ ".parquet".toList := by
        have h := congrArg String.toList (List.cons.inj (List.cons.inj hpath).2).1
        simpa [Outside.faultless] using h
      cases n with
      | zero => cases hname
      | succ n => cases hname
  · intro index hindex
    obtain rfl := List.mem_singleton.mp hindex
    exact ⟨by decide, by decide, by decide⟩
  · intro index hindex _
    obtain rfl := List.mem_singleton.mp hindex
    exact ⟨_, ⟨"v", "v", by decide, by decide, by decide⟩, List.Perm.refl _⟩
  · intro index hindex _
    obtain rfl := List.mem_singleton.mp hindex
    exact ⟨by decide, by decide⟩

/-- Batches with the keys 2 and 3. -/
theorem executeInsertSelect_atomic_iff_distinct :
  After (executeInsertSelect Outside.faultless sampleDataFusion
      (yielding [.ok [[some (.integer 2)]], .ok [[some (.integer 3)]]]) {} keyedInsert) keyedEngine
    (fun r s' => InsertAtomic keyedTable ["file://", "m", "t"] [keyedFile] [keyedBatch]
      (sourceBatches keyedAligned [.ok [[some (.integer 2)]], .ok [[some (.integer 3)]]]) r
        s'.world)
  := by
  apply (executeInsertSelect_atomic_iff (keyedSetting
    [.ok [[some (.integer 2)]], .ok [[some (.integer 3)]]])).mpr
  have hnone : failsAfter (fun rows => AnyRefuses keyedTable.indexes [keyedBatch]
      (alignedBatch keyedAligned rows)) [.ok [[some (.integer 2)]], .ok [[some (.integer 3)]]]
      = none := by
    decide
  unfold StreamAccepted
  rw [hnone]
  intro index hindex _
  obtain rfl := List.mem_singleton.mp hindex
  decide

/-- Two batches with the key 2. -/
def twiceStream : List (Except String (List Row)) :=
  [.ok [[some (.integer 2)]], .ok [[some (.integer 2)]]]

/-- A key that is in two batches: the statement fails after both rows are listed. -/
theorem insert_of_key_in_two_batches :
  InsertSetting Outside.faultless sampleDataFusion (yielding twiceStream) {} keyedInsert keyedEngine
      keyedTable ["file://", "m", "t"] [keyedFile] [keyedBatch] keyedAligned twiceStream
    ∧ ¬ After (executeInsertSelect Outside.faultless sampleDataFusion (yielding twiceStream) {}
        keyedInsert) keyedEngine (fun r s' => InsertAtomic keyedTable ["file://", "m", "t"]
          [keyedFile] [keyedBatch] (sourceBatches keyedAligned twiceStream) r s'.world)
  := by
  refine ⟨keyedSetting twiceStream, ?_⟩
  intro h
  have herror : (exec (executeInsertSelect Outside.faultless sampleDataFusion
      (yielding twiceStream) {} keyedInsert) keyedEngine).1 = .error (.error
        "Unique index 't_pkey' on 'postgres.public.t' would contain duplicate keys") := by
    decide +kernel
  have hfiles := h.2 _ herror
  apply absurd (congrArg List.length hfiles)
  decide +kernel

end
