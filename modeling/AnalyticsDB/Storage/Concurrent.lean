import AnalyticsDB.Lib.Tasks
import AnalyticsDB.Storage.Manifest

/-!
# Writers of one table

The writers of a table, running at the same time: appending a batch, vacuuming, compacting, and
replacing the snapshot.  Each of them is the sequence of its calls to the object store, and any
two calls of different writers may follow each other.  The store honours conditional puts: every
write of the manifest gets an e-tag that no other had.
-/

abbrev ETag := String

/-- The objects of one table, their keys relative to its path.  The last three fields are the
history: the e-tags the manifest had, the keys ever used, and who wrote the manifest, in order. -/
structure TableStore (ι : Type) where
  manifest : Option (Manifest × ETag)
  objects : Std.ExtTreeMap OPath RecordBatch
  tags : List ETag
  used : List OPath
  commits : List ι

/-- What the world outside answers to a call: the error of the call, in which case it has no
effect, the error while the body of an object is read, the e-tag a write gets, a fresh
identifier, and the clock. -/
structure Answer where
  fault : Option String := none
  bodyFault : Option String := none
  eTag : ETag := ""
  uuid : String := ""
  now : Nat := 0

/-- The key of a data file with this identifier. -/
def dataFile (uuid : String) : OPath := ["data", uuid ++ ".parquet"]

/-- The e-tag and the identifier of an answer are new. -/
def Answer.Fresh {ι : Type} (answer : Answer) (store : TableStore ι) : Prop :=
  answer.eTag ∉ store.tags ∧ dataFile answer.uuid ∉ store.used

inductive ConditionalPut where
  | create
  | update (eTag : ETag)

/-- A query over a table that returns the rows it reads. -/
structure RowKeepingQuery where
  run : List RecordBatch → List RecordBatch
  keeps : ∀ files, ((run files).flatMap (·.rows)).Perm (files.flatMap (·.rows))

/-- A writer, by the call it makes next.  A writer that rewrites the table remembers the files it
read in `source`. -/
inductive TableWriter where
  -- `append_batch`
  | appendBatch (batch : RecordBatch)
  -- `append_to_manifest`
  | appendRead (entry : ManifestEntry) (attempt : Nat)
  | appendWrite (entry : ManifestEntry) (attempt : Nat) (manifest : Manifest)
      (eTag : Option ETag)
  -- `compact_table`
  | compactRead (targetFileBytes minFileCount : Nat)
  | compactGet (targetFileBytes : Nat) (manifest : Manifest) (rest : List ManifestEntry)
      (batches : List RecordBatch)
  -- `write_dataframe_to_table_snapshot`
  | snapshotExecute (query : RowKeepingQuery)
  -- the files both of them write
  | rewritePut (source : List ManifestEntry) (pending : List (Schema × List RecordBatch))
      (entries : List ManifestEntry)
  -- `replace_manifest`
  | replaceRead (source entries : List ManifestEntry) (attempt : Nat)
  | replaceWrite (source entries : List ManifestEntry) (attempt : Nat) (manifest : Manifest)
      (eTag : Option ETag)
  -- `vacuum_orphans`
  | vacuumRead
  | vacuumList (committed : List OPath)
  | vacuumDelete (orphans : List OPath)
  | returned (result : Except String Unit)

/-- The rows of a file in the batches the Parquet reader makes of them. -/
def chunks (size : Nat) : Nat → List Row → List (List Row)
  | 0, _ => []
  | _ + 1, [] => []
  | fuel + 1, row :: rows => (row :: rows).take size :: chunks size fuel ((row :: rows).drop size)

def parquetBatches (file : RecordBatch) : List RecordBatch :=
  (chunks 8192 file.rows.length file.rows).map (fun rows => { schema := file.schema, rows := rows })

/-- The writer takes batches of its own schema only. -/
def encodeParquetBatches (schema : Schema) (batches : List RecordBatch) :
    Except String RecordBatch :=
  if batches.all (·.schema = schema) then
    .ok { schema := schema, rows := batches.flatMap (·.rows) }
  else
    .error "Arrow: Incompatible type. Record batch schema does not match the writer's"

/-- Bin batches into files of about `rowBudget` rows. -/
def binBatches (rowBudget : Int) : List RecordBatch → Int → List RecordBatch →
    List (List RecordBatch)
  | currentBin, _, [] => if currentBin.isEmpty then [] else [currentBin]
  | currentBin, currentRows, batch :: batches =>
    if !currentBin.isEmpty && currentRows + batch.rows.length > rowBudget then
      currentBin :: binBatches rowBudget [batch] batch.rows.length batches
    else
      binBatches rowBudget (currentBin ++ [batch]) (currentRows + batch.rows.length) batches

section

variable {ι : Type}

/-- The files the manifest lists. -/
def TableStore.files (store : TableStore ι) : List ManifestEntry :=
  (store.manifest.map (·.1.files)).getD []

/-- Read the manifest with its e-tag.  An error of the call counts as no manifest. -/
def TableStore.readManifestVersioned (store : TableStore ι) (answer : Answer) :
    Except String (Option Manifest × Option ETag) :=
  match answer.fault, store.manifest with
  | some _, _ | none, none => .ok (none, none)
  | none, some (manifest, eTag) =>
    match answer.bodyFault with
    | some e => .error e
    | none => .ok (some manifest, some eTag)

/-- The store after `i` wrote the manifest. -/
def TableStore.commit (store : TableStore ι) (i : ι) (manifest : Manifest) (eTag : ETag) :
    TableStore ι :=
  { store with
    manifest := some (manifest, eTag)
    tags := eTag :: store.tags
    commits := store.commits ++ [i] }

/-- Put the manifest, when the condition holds. -/
def TableStore.putManifest (store : TableStore ι) (answer : Answer) (i : ι) (manifest : Manifest)
    (mode : ConditionalPut) : Except OsError (TableStore ι) :=
  match answer.fault, mode with
  | some e, _ => .error (.generic e)
  | none, .create =>
    if store.manifest.isSome then
      .error .alreadyExists
    else
      .ok (store.commit i manifest answer.eTag)
  | none, .update eTag =>
    if store.manifest.map (·.2) = some eTag then
      .ok (store.commit i manifest answer.eTag)
    else
      .error .precondition

/-- Put a data file under a key of its own. -/
def TableStore.putFile (store : TableStore ι) (key : OPath) (file : RecordBatch) : TableStore ι :=
  { store with
    objects := store.objects.insert key file
    used := key :: store.used }

/-- Delete a data file; a missing one is no error. -/
def TableStore.deleteFile (store : TableStore ι) (key : OPath) : TableStore ι :=
  { store with objects := store.objects.erase key }

/-- The mode of a conditional put after a read. -/
def putMode : Option ETag → ConditionalPut
  | some eTag => .update eTag
  | none => .create

section

variable (base : OPath) (encodedSize : RecordBatch → Nat) (rowBudget : Nat → Nat → Nat → Int)

/-- The outcome of a conditional put of the manifest: the next call after a success, another
attempt while another writer wins. -/
def afterPut (store : TableStore ι) (attempt : Nat) (success retry : TableWriter) :
    Except OsError (TableStore ι) → TableStore ι × TableWriter
  | .ok written => (written, success)
  | .error .alreadyExists | .error .precondition =>
    if attempt + 1 = MAX_CAS_RETRIES then
      (store, .returned (.error
        s!"manifest CAS failed after {MAX_CAS_RETRIES} retries for prefix {keyText base}"))
    else
      (store, retry)
  | .error e => (store, .returned (.error e.message))

/-- The next call after all the files a compaction reads were read. -/
def binFiles (targetFileBytes : Nat) (manifest : Manifest) (batches : List RecordBatch) :
    TableWriter :=
  match batches with
  | [] => .returned (.ok ())
  | first :: _ =>
    let totalRows := (batches.map (·.rows.length)).sum
    let totalSize := (manifest.files.map (·.size)).sum
    let budget := max (rowBudget targetFileBytes totalSize totalRows) 1
    .rewritePut manifest.files ((binBatches budget [] 0 batches).map (first.schema, ·)) []

/-- The next call after some of the files were read. -/
def nextGet (targetFileBytes : Nat) (manifest : Manifest) (rest : List ManifestEntry)
    (batches : List RecordBatch) : TableWriter :=
  if rest.isEmpty then
    binFiles rowBudget targetFileBytes manifest batches
  else
    .compactGet targetFileBytes manifest rest batches

/-- The entry of a file in the manifest. -/
def entryOf (key : OPath) (file : RecordBatch) : ManifestEntry :=
  { path := key, size := encodedSize file, rowCount := file.rows.length }

/-- The next call after some of the files were written. -/
def nextPut (source : List ManifestEntry) (pending : List (Schema × List RecordBatch))
    (entries : List ManifestEntry) : TableWriter :=
  if pending.isEmpty then
    .replaceRead source entries 0
  else
    .rewritePut source pending entries

/-- The next call of a vacuum after some of the orphans were deleted. -/
def nextDelete (orphans : List OPath) : TableWriter :=
  if orphans.isEmpty then
    .returned (.ok ())
  else
    .vacuumDelete orphans

/-- A writer makes its next call. -/
def moveWriter (answer : Answer) (i : ι) (store : TableStore ι) :
    TableWriter → TableStore ι × TableWriter
  | .appendBatch batch =>
    match answer.fault with
    | some e => (store, .returned (.error e))
    | none =>
      (store.putFile (dataFile answer.uuid) batch,
        .appendRead (entryOf encodedSize (dataFile answer.uuid) batch) 0)
  | .appendRead entry attempt =>
    match store.readManifestVersioned answer with
    | .error e => (store, .returned (.error e))
    | .ok (existing, eTag) =>
      (store, .appendWrite entry attempt
        { snapshotId := answer.uuid
          createdAtMs := answer.now
          files := (existing.map (·.files)).getD [] ++ [entry] } eTag)
  | .appendWrite entry attempt manifest eTag =>
    afterPut base store attempt (.returned (.ok ())) (.appendRead entry (attempt + 1))
      (store.putManifest answer i manifest (putMode eTag))
  | .compactRead targetFileBytes minFileCount =>
    match store.readManifestVersioned answer with
    | .error e => (store, .returned (.error e))
    | .ok (none, _) => (store, .returned (.ok ()))
    | .ok (some manifest, _) =>
      if manifest.files.length < minFileCount then
        (store, .returned (.ok ()))
      else
        (store, nextGet rowBudget targetFileBytes manifest manifest.files [])
  | .compactGet targetFileBytes manifest rest batches =>
    match rest, answer.fault with
    | [], _ => (store, binFiles rowBudget targetFileBytes manifest batches)
    | _ :: _, some e => (store, .returned (.error e))
    | entry :: rest, none =>
      match store.objects[entry.path]?, answer.bodyFault with
      | none, _ => (store, nextGet rowBudget targetFileBytes manifest rest batches)
      | some _, some e => (store, .returned (.error e))
      | some file, none =>
        (store, nextGet rowBudget targetFileBytes manifest rest (batches ++ parquetBatches file))
  | .snapshotExecute query =>
    match answer.fault with
    | some e => (store, .returned (.error e))
    | none =>
      let prepared := query.run (store.files.filterMap (fun entry => store.objects[entry.path]?))
      (store, nextPut store.files (prepared.map (fun batch => (batch.schema, [batch]))) [])
  | .rewritePut source pending entries =>
    match pending, answer.fault with
    | [], _ => (store, .replaceRead source entries 0)
    | (schema, bin) :: pending, fault =>
      match encodeParquetBatches schema bin, fault with
      | .error e, _ => (store, .returned (.error e))
      | .ok _, some e => (store, .returned (.error e))
      | .ok file, none =>
        (store.putFile (dataFile answer.uuid) file, nextPut source pending
          (entries ++ [entryOf encodedSize (dataFile answer.uuid) file]))
  | .replaceRead source entries attempt =>
    match store.readManifestVersioned answer with
    | .error e => (store, .returned (.error e))
    | .ok (_, eTag) =>
      (store, .replaceWrite source entries attempt
        { snapshotId := answer.uuid, createdAtMs := answer.now, files := entries } eTag)
  | .replaceWrite source entries attempt manifest eTag =>
    afterPut base store attempt .vacuumRead (.replaceRead source entries (attempt + 1))
      (store.putManifest answer i manifest (putMode eTag))
  | .vacuumRead =>
    match store.readManifestVersioned answer with
    | .error e => (store, .returned (.error e))
    | .ok (none, _) => (store, .returned (.ok ()))
    | .ok (some manifest, _) => (store, .vacuumList (manifest.files.map (·.path)))
  | .vacuumList committed =>
    match answer.fault with
    | some e => (store, .returned (.error e))
    | none =>
      (store, nextDelete (store.objects.keys.filter (fun key =>
        isVacuumCandidate key && !committed.contains key)))
  | .vacuumDelete orphans =>
    match orphans, answer.fault with
    | [], _ => (store, .returned (.ok ()))
    | _ :: _, some e => (store, .returned (.error e))
    | orphan :: orphans, none => (store.deleteFile orphan, nextDelete orphans)
  | .returned result => (store, .returned result)

end

/-- The steps of writers on a store that issues new e-tags and identifiers. -/
abbrev WriterStep [DecidableEq ι] (base : OPath) (encodedSize : RecordBatch → Nat)
    (rowBudget : Nat → Nat → Nat → Int) :
    Tasks.System ι (TableStore ι) TableWriter → Tasks.System ι (TableStore ι) TableWriter → Prop :=
  Tasks.Step (moveWriter base encodedSize rowBudget) (fun call s => call.2.Fresh s.shared)

instance (answer : Answer) (store : TableStore ι) : Decidable (answer.Fresh store) :=
  inferInstanceAs (Decidable (_ ∧ _))

/-! ### What a call does -/

/-- What is read of the manifest is what is there, or nothing. -/
theorem readManifestVersioned_cases {store : TableStore ι} {answer : Answer}
    {existing : Option Manifest} {eTag : Option ETag}
    (h : store.readManifestVersioned answer = .ok (existing, eTag)) :
  (existing = none ∧ eTag = none)
    ∨ ∃ manifest tag, store.manifest = some (manifest, tag) ∧ existing = some manifest
      ∧ eTag = some tag
  := by
  unfold TableStore.readManifestVersioned at h
  split at h
  · cases h
    exact .inl ⟨rfl, rfl⟩
  · cases h
    exact .inl ⟨rfl, rfl⟩
  · rename_i manifest tag _ hmanifest
    split at h
    · cases h
    · cases h
      exact .inr ⟨manifest, tag, hmanifest, rfl, rfl⟩

/-- The manifest is written only when its e-tag is the one read. -/
theorem putManifest_ok {store written : TableStore ι} {answer : Answer} {i : ι}
    {manifest : Manifest} {eTag : Option ETag}
    (h : store.putManifest answer i manifest (putMode eTag) = .ok written) :
  answer.fault = none ∧ store.manifest.map (·.2) = eTag
    ∧ written = store.commit i manifest answer.eTag
  := by
  unfold TableStore.putManifest at h
  cases eTag with
  | none =>
      cases hfault : answer.fault with
      | some e =>
          rw [hfault] at h
          cases h
      | none =>
          simp only [hfault, putMode] at h
          split at h
          · cases h
          · rename_i hnone
            cases h
            rw [Option.isSome_iff_ne_none, not_not] at hnone
            exact ⟨rfl, by rw [hnone]; rfl, rfl⟩
  | some tag =>
      cases hfault : answer.fault with
      | some e =>
          rw [hfault] at h
          cases h
      | none =>
          simp only [hfault, putMode] at h
          split at h
          · rename_i htag
            cases h
            exact ⟨rfl, htag, rfl⟩
          · cases h

/-- What follows a put of the manifest: the next call after it was written, or the store as it
was, with another attempt or an error. -/
theorem afterPut_cases (base : OPath) (store : TableStore ι) (attempt : Nat)
    (success retry : TableWriter) (result : Except OsError (TableStore ι)) :
  (∃ written, result = .ok written
      ∧ afterPut base store attempt success retry result = (written, success))
    ∨ afterPut base store attempt success retry result = (store, retry)
    ∨ ∃ e, afterPut base store attempt success retry result = (store, .returned (.error e))
  := by
  unfold afterPut
  split
  · exact .inl ⟨_, rfl, rfl⟩
  · split
    · exact .inr (.inr ⟨_, rfl⟩)
    · exact .inr (.inl rfl)
  · split
    · exact .inr (.inr ⟨_, rfl⟩)
    · exact .inr (.inl rfl)
  · exact .inr (.inr ⟨_, rfl⟩)

/-- What a writer that appends remembers of the manifest it read: the manifest it is about to
write extends the one that has this e-tag, if it is still there. -/
def Remembers (store : TableStore ι) (entry : ManifestEntry) (manifest : Manifest) :
    Option ETag → Prop
  | none => manifest.files = [entry]
  | some eTag => eTag ∈ store.tags
    ∧ ∀ current, store.manifest = some (current, eTag) → manifest.files = current.files ++ [entry]

/-- The e-tag of the manifest is among those issued. -/
def TableStore.TagKnown (store : TableStore ι) : Prop :=
  ∀ manifest eTag, store.manifest = some (manifest, eTag) → eTag ∈ store.tags

/-- What is remembered is not invalidated by the writes of others, which get new e-tags. -/
theorem Remembers.commit {store : TableStore ι} {entry : ManifestEntry} {manifest : Manifest}
    {eTag : Option ETag} (h : Remembers store entry manifest eTag) (i : ι) (written : Manifest)
    {tag : ETag} (htag : tag ∉ store.tags) :
  Remembers (store.commit i written tag) entry manifest eTag
  := by
  cases eTag with
  | none => exact h
  | some eTag =>
      obtain ⟨hknown, -⟩ := h
      refine ⟨List.mem_cons_of_mem _ hknown, ?_⟩
      intro current hcurrent
      injection hcurrent with hcurrent
      injection hcurrent with _ hsame
      rw [hsame] at htag
      exact absurd hknown htag

/-- A write that succeeds extends the files that are listed. -/
theorem Remembers.files_eq {store : TableStore ι} {entry : ManifestEntry} {manifest : Manifest}
    {eTag : Option ETag} (h : Remembers store entry manifest eTag)
    (htag : store.manifest.map (·.2) = eTag) :
  manifest.files = store.files ++ [entry]
  := by
  unfold TableStore.files
  cases hmanifest : store.manifest with
  | none =>
      rw [hmanifest] at htag
      cases htag
      exact h
  | some current =>
      rw [hmanifest] at htag
      cases htag
      exact h.2 current.1 hmanifest

/-- What is read is remembered. -/
theorem Remembers.of_read {store : TableStore ι} {answer : Answer} {existing : Option Manifest}
    {eTag : Option ETag} (hknown : store.TagKnown)
    (h : store.readManifestVersioned answer = .ok (existing, eTag)) (entry : ManifestEntry)
    {manifest : Manifest} (hfiles : manifest.files = (existing.map (·.files)).getD [] ++ [entry]) :
  Remembers store entry manifest eTag
  := by
  obtain ⟨rfl, rfl⟩ | ⟨current, tag, hmanifest, rfl, rfl⟩ := readManifestVersioned_cases h
  · exact hfiles
  · refine ⟨hknown current tag hmanifest, ?_⟩
    intro current' hcurrent'
    rw [hmanifest] at hcurrent'
    cases hcurrent'
    exact hfiles

end
