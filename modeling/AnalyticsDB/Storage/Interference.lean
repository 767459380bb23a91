import AnalyticsDB.Storage.Concurrent
import Mathlib.Algebra.BigOperators.Group.Finset.Basic
import Mathlib.Algebra.Order.Group.Multiset
import Mathlib.Data.Fintype.Basic

/-!
# Writers that rewrite and vacuum

Compaction, snapshot replacement and vacuum, running at the same time as writers that append.  A
rewriter replaces the manifest by files made of the rows it read a while ago, and a vacuum deletes
the files that a manifest it read a while ago does not list.  As long as no file in use is missing
from the manifest a vacuum read when it lists the objects, and no manifest is replaced by a
rewriter that read another one, every listed file exists, and the rows of the listed files are
those of the beginning and those of the batches that were appended.
-/

open Tasks

/-! ### Rows -/

/-- The rows of batches. -/
def rowsIn (batches : List RecordBatch) : Multiset Row := (batches.flatMap (·.rows) : List Row)

@[simp]
theorem rowsIn_nil :
  rowsIn [] = 0
  := rfl

@[simp]
theorem rowsIn_cons (batch : RecordBatch) (batches : List RecordBatch) :
  rowsIn (batch :: batches) = batch.rows + rowsIn batches
  := by
  simp [rowsIn]

@[simp]
theorem rowsIn_append (batches batches' : List RecordBatch) :
  rowsIn (batches ++ batches') = rowsIn batches + rowsIn batches'
  := by
  simp [rowsIn]

theorem flatten_chunks (size : Nat) (hsize : 0 < size) (fuel : Nat) (rows : List Row)
    (hfuel : rows.length ≤ fuel) :
  (chunks size fuel rows).flatten = rows
  := by
  induction fuel generalizing rows with
  | zero =>
      rw [Nat.le_zero, List.length_eq_zero_iff] at hfuel
      rw [hfuel]
      rfl
  | succ fuel ih =>
      cases rows with
      | nil => rfl
      | cons row rows =>
          rw [chunks, List.flatten_cons, ih, List.take_append_drop]
          rw [List.length_drop]
          simp only [List.length_cons] at hfuel ⊢
          omega

/-- The batches a file is read in have its rows. -/
theorem rowsIn_parquetBatches (file : RecordBatch) :
  rowsIn (parquetBatches file) = file.rows
  := by
  have hflatten := flatten_chunks 8192 (by decide) file.rows.length file.rows (Nat.le_refl _)
  unfold rowsIn parquetBatches
  rw [List.flatMap_map]
  change (((chunks 8192 file.rows.length file.rows).flatMap id : List Row) : Multiset Row) = _
  rw [List.flatMap_id, hflatten]

/-- The batches are distributed over the bins. -/
theorem rowsIn_binBatches (budget : Int) (batches current : List RecordBatch) (rows : Int) :
  rowsIn (binBatches budget current rows batches).flatten = rowsIn current + rowsIn batches
  := by
  induction batches generalizing current rows with
  | nil =>
      unfold binBatches
      split
      · rename_i hempty
        rw [List.isEmpty_iff.mp hempty]
        rfl
      · simp
  | cons batch batches ih =>
      unfold binBatches
      split
      · rw [List.flatten_cons, rowsIn_append, ih]
        simp
      · rw [ih]
        simp [add_assoc]

theorem encodeParquetBatches_rows {schema : Schema} {bin : List RecordBatch} {file : RecordBatch}
    (h : encodeParquetBatches schema bin = .ok file) :
  (file.rows : Multiset Row) = rowsIn bin
  := by
  unfold encodeParquetBatches at h
  split at h
  · cases h
    rfl
  · cases h

/-- The rows of the files a rewriter has still to write. -/
def pendingRows (pending : List (Schema × List RecordBatch)) : Multiset Row :=
  rowsIn (pending.flatMap (·.2))

@[simp]
theorem pendingRows_nil :
  pendingRows [] = 0
  := rfl

@[simp]
theorem pendingRows_cons (schema : Schema) (bin : List RecordBatch)
    (pending : List (Schema × List RecordBatch)) :
  pendingRows ((schema, bin) :: pending) = rowsIn bin + pendingRows pending
  := by
  simp [pendingRows]

section

variable {ι : Type}

/-- The rows of a file, if it is there. -/
def TableStore.rowsAt (store : TableStore ι) (key : OPath) : Multiset Row :=
  ((store.objects[key]?).map (fun file => (file.rows : Multiset Row))).getD 0

/-- The rows of the files of a list of entries. -/
def TableStore.rowsOf (store : TableStore ι) (entries : List ManifestEntry) : Multiset Row :=
  (entries.map (fun entry => store.rowsAt entry.path)).sum

/-- The rows of the files the manifest lists. -/
def TableStore.committedRows (store : TableStore ι) : Multiset Row := store.rowsOf store.files

@[simp]
theorem rowsOf_nil (store : TableStore ι) :
  store.rowsOf [] = 0
  := rfl

@[simp]
theorem rowsOf_append (store : TableStore ι) (entries entries' : List ManifestEntry) :
  store.rowsOf (entries ++ entries') = store.rowsOf entries + store.rowsOf entries'
  := by
  simp [TableStore.rowsOf]

@[simp]
theorem rowsOf_singleton (store : TableStore ι) (entry : ManifestEntry) :
  store.rowsOf [entry] = store.rowsAt entry.path
  := by
  simp [TableStore.rowsOf]

/-- Files that are the same have the same rows. -/
theorem rowsOf_congr {store store' : TableStore ι} {entries : List ManifestEntry}
    (h : ∀ entry ∈ entries, store'.objects[entry.path]? = store.objects[entry.path]?) :
  store'.rowsOf entries = store.rowsOf entries
  := by
  unfold TableStore.rowsOf TableStore.rowsAt
  congr 1
  apply List.map_congr_left
  intro entry hentry
  rw [h entry hentry]

/-! ### Files in use -/

/-- The files a writer has put and not yet listed. -/
def TableWriter.staged : TableWriter → List OPath
  | .appendRead entry _ | .appendWrite entry _ _ _ => [entry.path]
  | .rewritePut _ _ entries | .replaceRead _ entries _ | .replaceWrite _ entries _ _ _ =>
    entries.map (·.path)
  | _ => []

/-- The files a writer is about to delete. -/
def TableWriter.orphans : TableWriter → List OPath
  | .vacuumDelete orphans => orphans
  | _ => []

/-- The paths a vacuum found in the manifest, when it is about to list the objects. -/
def TableWriter.listing : TableWriter → Option (List OPath)
  | .vacuumList committed => some committed
  | _ => none

/-- The files a rewriter read and the e-tag it found, when it is about to write the manifest. -/
def TableWriter.replacing : TableWriter → Option (List ManifestEntry × Option ETag)
  | .replaceWrite source _ _ _ eTag => some (source, eTag)
  | _ => none

/-- A file is listed or put by a writer that has not returned. -/
def InUse (s : System ι (TableStore ι) TableWriter) (key : OPath) : Prop :=
  key ∈ s.shared.files.map (·.path) ∨ ∃ i, key ∈ (s.task i).staged

/-- A call that no other writer has overtaken: a vacuum that lists the objects had found every file
in use in the manifest, and a rewriter that writes the manifest had read the one it replaces. -/
def NotOvertaken (call : ι × Answer) (s : System ι (TableStore ι) TableWriter) : Prop :=
  call.2.fault = none →
    (∀ committed ∈ (s.task call.1).listing,
      (∀ entry ∈ s.shared.files, entry.path ∈ committed)
        ∧ ∀ i, ∀ key ∈ (s.task i).staged, key ∈ committed)
    ∧ ∀ read ∈ (s.task call.1).replacing,
      s.shared.manifest.map (·.2) = read.2 → s.shared.files = read.1

/-- The rows a writer appends. -/
def TableWriter.appended : TableWriter → Multiset Row
  | .appendBatch batch => batch.rows
  | _ => 0

/-- Whether a writer appends a batch. -/
def TableWriter.appends : TableWriter → Bool
  | .appendBatch _ => true
  | _ => false

/-- A writer at its beginning. -/
def TableWriter.Starts : TableWriter → Prop
  | .appendBatch _ | .compactRead .. | .snapshotExecute _ | .vacuumRead => True
  | _ => False

/-- As long as none of the files is missing, these are their rows. -/
def Rereads (store : TableStore ι) (source : List ManifestEntry) (rows : Multiset Row) : Prop :=
  (∀ entry ∈ source, entry.path ∈ store.used)
    ∧ ((∀ entry ∈ source, store.objects.contains entry.path = true) →
      store.rowsOf source = rows)

/-- What is known of a writer, given what it was at the beginning. -/
def Known (first : TableWriter) (i : ι) (store : TableStore ι) : TableWriter → Prop
  | .appendBatch batch => first = .appendBatch batch ∧ i ∉ store.commits
  | .appendRead entry _ =>
    first.appends = true ∧ i ∉ store.commits ∧ store.rowsAt entry.path = first.appended
  | .appendWrite entry _ manifest eTag =>
    first.appends = true ∧ i ∉ store.commits ∧ store.rowsAt entry.path = first.appended
      ∧ Remembers store entry manifest eTag
  | .compactRead .. | .snapshotExecute _ => first.appends = false ∧ i ∉ store.commits
  | .compactGet _ manifest rest batches =>
    first.appends = false ∧ i ∉ store.commits
      ∧ (∀ entry ∈ manifest.files, entry.path ∈ store.used)
      ∧ ∃ read, manifest.files = read ++ rest ∧ Rereads store read (rowsIn batches)
  | .rewritePut source pending entries =>
    first.appends = false ∧ i ∉ store.commits
      ∧ Rereads store source (store.rowsOf entries + pendingRows pending)
  | .replaceRead source entries _ =>
    first.appends = false ∧ i ∉ store.commits ∧ Rereads store source (store.rowsOf entries)
  | .replaceWrite source entries _ manifest _ =>
    first.appends = false ∧ i ∉ store.commits ∧ Rereads store source (store.rowsOf entries)
      ∧ manifest.files = entries
  | .vacuumRead | .vacuumList _ => first.appends = false
  | .vacuumDelete orphans => first.appends = false ∧ ∀ key ∈ orphans, key ∈ store.used
  | .returned (.ok _) => first.appends = true → i ∈ store.commits
  | .returned (.error _) => first.appends = true → i ∉ store.commits

/-- What is known stays known when files that were put and not listed stay, and no key is used
again. -/
theorem Rereads.of_kept {store store' : TableStore ι} {source : List ManifestEntry}
    {rows : Multiset Row} (h : Rereads store source rows)
    (hused : ∀ key ∈ store.used, key ∈ store'.used)
    (hkept : ∀ key ∈ store.used, store'.objects.contains key = true →
      store'.objects[key]? = store.objects[key]?) :
  Rereads store' source rows
  := by
  obtain ⟨hsource, hrows⟩ := h
  refine ⟨fun entry hentry => hused _ (hsource entry hentry), ?_⟩
  intro hthere
  have hsame : ∀ entry ∈ source, store'.objects[entry.path]? = store.objects[entry.path]? := by
    intro entry hentry
    exact hkept _ (hsource entry hentry) (hthere entry hentry)
  rw [rowsOf_congr hsame]
  apply hrows
  intro entry hentry
  rw [Std.ExtTreeMap.contains_eq_isSome_getElem?, ← hsame entry hentry,
    ← Std.ExtTreeMap.contains_eq_isSome_getElem?]
  exact hthere entry hentry

theorem Known.of_kept {first : TableWriter} {i : ι} {store store' : TableStore ι} {w : TableWriter}
    (h : Known first i store w) (hcommits : i ∈ store'.commits ↔ i ∈ store.commits)
    (hused : ∀ key ∈ store.used, key ∈ store'.used)
    (hkept : ∀ key ∈ store.used, store'.objects.contains key = true →
      store'.objects[key]? = store.objects[key]?)
    (hstaged : ∀ key ∈ w.staged, store'.objects[key]? = store.objects[key]?)
    (hremembers : ∀ entry manifest eTag, Remembers store entry manifest eTag →
      Remembers store' entry manifest eTag) :
  Known first i store' w
  := by
  have hrowsAt : ∀ key ∈ w.staged, store'.rowsAt key = store.rowsAt key := by
    intro key hkey
    unfold TableStore.rowsAt
    rw [hstaged key hkey]
  have hrowsOf : ∀ entries : List ManifestEntry, w.staged = entries.map (·.path) →
      store'.rowsOf entries = store.rowsOf entries := by
    intro entries hentries
    apply rowsOf_congr
    intro entry hentry
    apply hstaged
    rw [hentries]
    exact List.mem_map_of_mem hentry
  cases w with
  | appendBatch batch => exact ⟨h.1, hcommits.not.mpr h.2⟩
  | appendRead entry attempt =>
      obtain ⟨happends, hnot, hrows⟩ := h
      exact ⟨happends, hcommits.not.mpr hnot, (hrowsAt _ List.mem_cons_self).trans hrows⟩
  | appendWrite entry attempt manifest eTag =>
      obtain ⟨happends, hnot, hrows, hmanifest⟩ := h
      exact ⟨happends, hcommits.not.mpr hnot, (hrowsAt _ List.mem_cons_self).trans hrows,
        hremembers _ _ _ hmanifest⟩
  | compactRead | snapshotExecute => exact ⟨h.1, hcommits.not.mpr h.2⟩
  | compactGet target manifest rest batches =>
      obtain ⟨happends, hnot, hfiles, read, hread, hrows⟩ := h
      exact ⟨happends, hcommits.not.mpr hnot, fun entry hentry => hused _ (hfiles entry hentry),
        read, hread, hrows.of_kept hused hkept⟩
  | rewritePut source pending entries =>
      obtain ⟨happends, hnot, hrows⟩ := h
      rw [← hrowsOf entries rfl] at hrows
      exact ⟨happends, hcommits.not.mpr hnot, hrows.of_kept hused hkept⟩
  | replaceRead source entries attempt =>
      obtain ⟨happends, hnot, hrows⟩ := h
      rw [← hrowsOf entries rfl] at hrows
      exact ⟨happends, hcommits.not.mpr hnot, hrows.of_kept hused hkept⟩
  | replaceWrite source entries attempt manifest eTag =>
      obtain ⟨happends, hnot, hrows, hfiles⟩ := h
      rw [← hrowsOf entries rfl] at hrows
      exact ⟨happends, hcommits.not.mpr hnot, hrows.of_kept hused hkept, hfiles⟩
  | vacuumRead | vacuumList => exact h
  | vacuumDelete orphans => exact ⟨h.1, fun key hkey => hused _ (h.2 key hkey)⟩
  | returned result =>
      cases result with
      | ok _ => exact fun happends => hcommits.mpr (h happends)
      | error e => exact fun happends => hcommits.not.mpr (h happends)

/-! ### One call -/

/-- What the call of a writer does: nothing to the store; or it lists the files that a vacuum is
about to delete; or it puts a file under a new key; or it writes the manifest, and lists files
that were listed or that it had put, with the rows that were there and those it appends; or it
deletes an orphan. -/
inductive WriterMove (first : TableWriter) (answer : Answer) (i : ι) (store : TableStore ι)
    (w : TableWriter) : TableStore ι × TableWriter → Prop
  | quiet {w' : TableWriter} : (∀ key ∈ w'.staged, key ∈ w.staged) → w'.orphans = [] →
      WriterMove first answer i store w (store, w')
  | listed {w' : TableWriter} (committed : List OPath) : w.listing = some committed →
      answer.fault = none → w'.staged = [] →
      (∀ key ∈ w'.orphans, store.objects.contains key = true ∧ key ∉ committed) →
      WriterMove first answer i store w (store, w')
  | put {w' : TableWriter} (file : RecordBatch) :
      (∀ key ∈ w'.staged, key = dataFile answer.uuid ∨ key ∈ w.staged) → w'.orphans = [] →
      WriterMove first answer i store w (store.putFile (dataFile answer.uuid) file, w')
  | committed {w' : TableWriter} (manifest : Manifest) : i ∉ store.commits →
      (∀ entry ∈ manifest.files, entry ∈ store.files ∨ entry.path ∈ w.staged) →
      store.rowsOf manifest.files = store.committedRows + first.appended →
      w'.staged = [] → w'.orphans = [] →
      WriterMove first answer i store w (store.commit i manifest answer.eTag, w')
  | deleted {w' : TableWriter} (key : OPath) : key ∈ w.orphans → (∀ k ∈ w'.orphans, k ∈ w.orphans) →
      w'.staged = [] → WriterMove first answer i store w (store.deleteFile key, w')

/-- What holds of the store for every writer. -/
structure TableStore.Sound (store : TableStore ι) : Prop where
  tagKnown : store.TagKnown
  used : ∀ key, store.objects.contains key = true → key ∈ store.used
  listed : ∀ entry ∈ store.files, store.objects.contains entry.path = true

section

variable {first : TableWriter} {i : ι} {store : TableStore ι}

theorem appended_eq_zero (h : first.appends = false) :
  first.appended = 0
  := by
  cases first with
  | appendBatch batch => cases h
  | _ => rfl

/-- The rows of files that are all there. -/
theorem rowsOf_eq_rowsIn (store : TableStore ι) (entries : List ManifestEntry) :
  store.rowsOf entries = rowsIn (entries.filterMap (fun entry => store.objects[entry.path]?))
  := by
  induction entries with
  | nil => rfl
  | cons entry entries ih =>
      rw [← List.singleton_append, rowsOf_append, rowsOf_singleton, ih, TableStore.rowsAt]
      cases hfile : store.objects[entry.path]? with
      | none => simp [hfile]
      | some file => simp [hfile]

/-- A writer that stops with an error did not write the manifest, if it appends. -/
theorem Known.failed {w : TableWriter} (h : Known first i store w) (hw : ∀ r, w ≠ .returned r)
    (e : String) :
  Known first i store (.returned (.error e))
  := by
  intro happends
  cases w with
  | appendBatch batch => exact h.2
  | appendRead | appendWrite => exact h.2.1
  | compactRead | snapshotExecute | compactGet | rewritePut | replaceRead | replaceWrite
  | vacuumDelete =>
      rw [h.1] at happends
      cases happends
  | vacuumRead | vacuumList =>
      rw [h] at happends
      cases happends
  | returned r => exact absurd rfl (hw r)

/-- A rewriter or a vacuum may stop. -/
theorem Known.stopped (h : first.appends = false) :
  Known first i store (.returned (.ok ()))
  := by
  intro happends
  rw [h] at happends
  cases happends

theorem Known.afterGet (rowBudget : Nat → Nat → Nat → Int) {target : Nat} {manifest : Manifest}
    {rest : List ManifestEntry} {batches : List RecordBatch}
    (h : Known first i store (.compactGet target manifest rest batches)) :
  Known first i store (nextGet rowBudget target manifest rest batches)
    ∧ (nextGet rowBudget target manifest rest batches).staged = []
    ∧ (nextGet rowBudget target manifest rest batches).orphans = []
  := by
  unfold nextGet
  split
  · rename_i hempty
    obtain ⟨happends, hnot, hused, read, hread, hrows⟩ := h
    rw [List.isEmpty_iff.mp hempty, List.append_nil] at hread
    cases batches with
    | nil => exact ⟨Known.stopped happends, rfl, rfl⟩
    | cons batch batches =>
        refine ⟨⟨happends, hnot, ?_⟩, rfl, rfl⟩
        rw [hread, rowsOf_nil, zero_add, pendingRows, List.flatMap_map]
        change Rereads store read (rowsIn (List.flatMap id _))
        rw [List.flatMap_id, rowsIn_binBatches, rowsIn_nil, zero_add]
        exact hrows
  · exact ⟨h, rfl, rfl⟩

theorem Known.afterPut {source : List ManifestEntry} {pending : List (Schema × List RecordBatch)}
    {entries : List ManifestEntry} (h : Known first i store (.rewritePut source pending entries)) :
  Known first i store (nextPut source pending entries)
    ∧ (nextPut source pending entries).staged = entries.map (·.path)
    ∧ (nextPut source pending entries).orphans = []
  := by
  unfold nextPut
  split
  · rename_i hempty
    obtain ⟨happends, hnot, hrows⟩ := h
    rw [List.isEmpty_iff.mp hempty, pendingRows_nil, add_zero] at hrows
    exact ⟨⟨happends, hnot, hrows⟩, rfl, rfl⟩
  · exact ⟨h, rfl, rfl⟩

theorem Known.afterDelete {orphans : List OPath}
    (h : Known first i store (.vacuumDelete orphans)) :
  Known first i store (nextDelete orphans)
    ∧ (nextDelete orphans).staged = []
    ∧ (nextDelete orphans).orphans = orphans
  := by
  unfold nextDelete
  split
  · rename_i hempty
    exact ⟨Known.stopped h.1, rfl, (List.isEmpty_iff.mp hempty).symm⟩
  · exact ⟨h, rfl, rfl⟩

/-- A new file does not disturb the files there are. -/
theorem get_putFile {key : OPath} (hkey : key ∉ store.used) (file : RecordBatch) {other : OPath}
    (hother : other ∈ store.used) :
  (store.putFile key file).objects[other]? = store.objects[other]?
  := by
  have hne : key ≠ other := by
    rintro rfl
    exact hkey hother
  change (store.objects.insert key file)[other]? = _
  rw [Std.ExtTreeMap.getElem?_insert]
  simp [hne]

theorem rowsAt_putFile (key : OPath) (file : RecordBatch) :
  (store.putFile key file).rowsAt key = file.rows
  := by
  change (((store.objects.insert key file)[key]?).map
    (fun file => (file.rows : Multiset Row))).getD 0 = _
  rw [Std.ExtTreeMap.getElem?_insert_self]
  rfl

/-- What is known of a writer survives its putting a file. -/
theorem Rereads.putFile {source : List ManifestEntry} {rows : Multiset Row}
    (h : Rereads store source rows) {key : OPath} (hkey : key ∉ store.used) (file : RecordBatch) :
  Rereads (store.putFile key file) source rows
  := by
  apply h.of_kept
  · intro other hother
    exact List.mem_cons_of_mem _ hother
  · intro other hother _
    exact get_putFile hkey file hother

/-- A call does one of the moves, and what is to be known of the writer afterwards is true. -/
def Advances (first : TableWriter) (answer : Answer) (i : ι) (store : TableStore ι)
    (w : TableWriter)
    (next : TableStore ι × TableWriter) : Prop :=
  WriterMove first answer i store w next ∧ Known first i next.1 next.2

variable {answer : Answer} {w : TableWriter}

theorem Known.fails (h : Known first i store w) (hw : ∀ r, w ≠ .returned r) (e : String) :
  Advances first answer i store w (store, .returned (.error e))
  := ⟨.quiet nofun rfl, h.failed hw e⟩

theorem Known.stops (h : first.appends = false) :
  Advances first answer i store w (store, .returned (.ok ()))
  := ⟨.quiet nofun rfl, Known.stopped h⟩

variable (base : OPath) (encodedSize : RecordBatch → Nat) (rowBudget : Nat → Nat → Nat → Int)

/-- A writer that appends puts its batch. -/
theorem advances_appendBatch {batch : RecordBatch} (h : Known first i store (.appendBatch batch)) :
  Advances first answer i store (.appendBatch batch)
    (moveWriter base encodedSize rowBudget answer i store (.appendBatch batch))
  := by
  rw [moveWriter]
  cases answer.fault with
  | some e => exact h.fails nofun e
  | none =>
      obtain ⟨rfl, hnot⟩ := h
      constructor
      · apply WriterMove.put batch
        · intro key hkey
          exact .inl (List.mem_singleton.mp hkey)
        · rfl
      · exact ⟨rfl, hnot, rowsAt_putFile _ batch⟩

/-- A writer that appends reads the manifest. -/
theorem advances_appendRead {entry : ManifestEntry} {attempt : Nat}
    (h : Known first i store (.appendRead entry attempt)) (hsound : store.Sound) :
  Advances first answer i store (.appendRead entry attempt)
    (moveWriter base encodedSize rowBudget answer i store (.appendRead entry attempt))
  := by
  rw [moveWriter]
  cases hread : store.readManifestVersioned answer with
  | error e => exact h.fails nofun e
  | ok read =>
      obtain ⟨happends, hnot, hrows⟩ := h
      refine ⟨.quiet (fun _ hkey => hkey) rfl, happends, hnot, hrows, ?_⟩
      exact Remembers.of_read hsound.tagKnown hread entry rfl

/-- A writer that appends writes the manifest, or tries again. -/
theorem advances_appendWrite {entry : ManifestEntry} {attempt : Nat} {manifest : Manifest}
    {eTag : Option ETag} (h : Known first i store (.appendWrite entry attempt manifest eTag)) :
  Advances first answer i store (.appendWrite entry attempt manifest eTag)
    (moveWriter base encodedSize rowBudget answer i store
      (.appendWrite entry attempt manifest eTag))
  := by
  rw [moveWriter]
  obtain ⟨written, hput, hmove⟩ | hmove | ⟨e, hmove⟩ := afterPut_cases base store attempt
    (.returned (.ok ())) (.appendRead entry (attempt + 1))
    (store.putManifest answer i manifest (putMode eTag))
  · rw [hmove]
    obtain ⟨-, htag, rfl⟩ := putManifest_ok hput
    obtain ⟨happends, hnot, hrows, hremembers⟩ := h
    have hfiles := hremembers.files_eq htag
    constructor
    · apply WriterMove.committed manifest hnot
      · intro e he
        rw [hfiles, List.mem_append, List.mem_singleton] at he
        obtain he | rfl := he
        · exact .inl he
        · exact .inr List.mem_cons_self
      · rw [hfiles, rowsOf_append, rowsOf_singleton, hrows]
        rfl
      · rfl
      · rfl
    · intro _
      exact List.mem_append_right _ List.mem_cons_self
  · rw [hmove]
    obtain ⟨happends, hnot, hrows, -⟩ := h
    exact ⟨.quiet (fun _ hkey => hkey) rfl, happends, hnot, hrows⟩
  · rw [hmove]
    exact h.fails nofun e

/-- A compaction goes on reading the files, or has read them all. -/
theorem Known.gets {target : Nat} {manifest : Manifest} {rest : List ManifestEntry}
    {batches : List RecordBatch}
    (h : Known first i store (.compactGet target manifest rest batches)) :
  Advances first answer i store w (store, nextGet rowBudget target manifest rest batches)
  := by
  obtain ⟨hknown, hstaged, horphans⟩ := h.afterGet rowBudget
  refine ⟨.quiet ?_ horphans, hknown⟩
  rw [hstaged]
  nofun

/-- A compaction reads the manifest. -/
theorem advances_compactRead {target minFileCount : Nat}
    (h : Known first i store (.compactRead target minFileCount)) (hsound : store.Sound) :
  Advances first answer i store (.compactRead target minFileCount)
    (moveWriter base encodedSize rowBudget answer i store (.compactRead target minFileCount))
  := by
  rw [moveWriter]
  rcases hread : store.readManifestVersioned answer with e | ⟨existing, eTag⟩
  · exact h.fails nofun e
  · cases existing with
    | none => exact Known.stops h.1
    | some manifest =>
        dsimp only
        split
        · exact Known.stops h.1
        · obtain ⟨hnone, -⟩ | ⟨current, tag, hmanifest, hexisting, -⟩ :=
            readManifestVersioned_cases hread
          · cases hnone
          · cases hexisting
            have hfiles : store.files = manifest.files := by
              rw [TableStore.files, hmanifest]
              rfl
            have hget : Known first i store (.compactGet target manifest manifest.files []) := by
              refine ⟨h.1, h.2, ?_, [], rfl, nofun, fun _ => rfl⟩
              intro entry hentry
              apply hsound.used
              apply hsound.listed
              rw [hfiles]
              exact hentry
            exact hget.gets rowBudget

/-- A compaction reads a file. -/
theorem advances_compactGet {target : Nat} {manifest : Manifest} {rest : List ManifestEntry}
    {batches : List RecordBatch}
    (h : Known first i store (.compactGet target manifest rest batches)) :
  Advances first answer i store (.compactGet target manifest rest batches)
    (moveWriter base encodedSize rowBudget answer i store
      (.compactGet target manifest rest batches))
  := by
  cases rest with
  | nil => exact h.gets rowBudget
  | cons entry rest =>
      unfold moveWriter
      dsimp only
      cases answer.fault with
      | some e => exact h.fails nofun e
      | none =>
          obtain ⟨happends, hnot, hused, read, hread, hrows⟩ := id h
          have hread' : manifest.files = (read ++ [entry]) ++ rest := by
            rw [hread]
            simp
          have hentries : ∀ e ∈ read ++ [entry], e.path ∈ store.used := by
            intro e he
            apply hused
            rw [hread']
            exact List.mem_append_left _ he
          cases hfile : store.objects[entry.path]? with
          | none =>
              simp only [hfile]
              apply Known.gets
              refine ⟨happends, hnot, hused, read ++ [entry], hread', hentries, ?_⟩
              intro hthere
              have hmissing := hthere entry (List.mem_append_right _ List.mem_cons_self)
              rw [Std.ExtTreeMap.contains_eq_isSome_getElem?, hfile] at hmissing
              cases hmissing
          | some file =>
              simp only [hfile]
              cases answer.bodyFault with
              | some e => exact h.fails nofun e
              | none =>
                  apply Known.gets
                  refine ⟨happends, hnot, hused, read ++ [entry], hread', hentries, ?_⟩
                  intro hthere
                  rw [rowsOf_append, rowsOf_singleton, rowsIn_append, rowsIn_parquetBatches,
                    hrows.2 (fun e he => hthere e (List.mem_append_left _ he)),
                    TableStore.rowsAt, hfile]
                  rfl

/-- The files of the batches a snapshot consists of. -/
theorem pendingRows_singletons (batches : List RecordBatch) :
  pendingRows (batches.map (fun batch => (batch.schema, [batch]))) = rowsIn batches
  := by
  induction batches with
  | nil => rfl
  | cons batch batches ih => simp [ih]

/-- A snapshot is computed. -/
theorem advances_snapshotExecute {query : RowKeepingQuery}
    (h : Known first i store (.snapshotExecute query)) (hsound : store.Sound) :
  Advances first answer i store (.snapshotExecute query)
    (moveWriter base encodedSize rowBudget answer i store (.snapshotExecute query))
  := by
  unfold moveWriter
  dsimp only
  cases answer.fault with
  | some e => exact h.fails nofun e
  | none =>
      have hrewrite : Known first i store (.rewritePut store.files
          ((query.run (store.files.filterMap (fun entry => store.objects[entry.path]?))).map
            (fun batch => (batch.schema, [batch]))) []) := by
        refine ⟨h.1, h.2, fun entry hentry => hsound.used _ (hsound.listed entry hentry), ?_⟩
        intro _
        rw [rowsOf_nil, zero_add, pendingRows_singletons, rowsOf_eq_rowsIn]
        exact (Multiset.coe_eq_coe.mpr (query.keeps _)).symm
      obtain ⟨hknown, hstaged, horphans⟩ := hrewrite.afterPut
      refine ⟨.quiet ?_ horphans, hknown⟩
      rw [hstaged]
      nofun

/-- A rewriter puts a file. -/
theorem advances_rewritePut {source : List ManifestEntry}
    {pending : List (Schema × List RecordBatch)} {entries : List ManifestEntry}
    (h : Known first i store (.rewritePut source pending entries))
    (hstaged : ∀ key ∈ entries.map (·.path), key ∈ store.used)
    (hfresh : dataFile answer.uuid ∉ store.used) :
  Advances first answer i store (.rewritePut source pending entries)
    (moveWriter base encodedSize rowBudget answer i store (.rewritePut source pending entries))
  := by
  unfold moveWriter
  dsimp only
  cases pending with
  | nil =>
      obtain ⟨happends, hnot, hrows⟩ := h
      rw [pendingRows_nil, add_zero] at hrows
      exact ⟨.quiet (fun _ hkey => hkey) rfl, happends, hnot, hrows⟩
  | cons next pending =>
      obtain ⟨schema, bin⟩ := next
      cases hencode : encodeParquetBatches schema bin with
      | error e =>
          simp only [hencode]
          exact h.fails nofun e
      | ok file =>
          simp only [hencode]
          cases answer.fault with
          | some e => exact h.fails nofun e
          | none =>
              obtain ⟨happends, hnot, hrows⟩ := h
              have hentries : (store.putFile (dataFile answer.uuid) file).rowsOf entries
                  = store.rowsOf entries := by
                apply rowsOf_congr
                intro entry hentry
                exact get_putFile hfresh file (hstaged _ (List.mem_map_of_mem hentry))
              have hput : Known first i (store.putFile (dataFile answer.uuid) file)
                  (.rewritePut source pending
                    (entries ++ [entryOf encodedSize (dataFile answer.uuid) file])) := by
                refine ⟨happends, hnot, ?_⟩
                rw [rowsOf_append, rowsOf_singleton, hentries]
                change Rereads _ _ (store.rowsOf entries
                  + (store.putFile (dataFile answer.uuid) file).rowsAt (dataFile answer.uuid) + _)
                rw [rowsAt_putFile, encodeParquetBatches_rows hencode, add_assoc,
                  ← pendingRows_cons schema]
                exact hrows.putFile hfresh file
              obtain ⟨hknown, hnext, horphans⟩ := hput.afterPut
              refine ⟨.put file ?_ horphans, hknown⟩
              intro key hkey
              rw [hnext, List.map_append, List.mem_append] at hkey
              obtain hkey | hkey := hkey
              · exact .inr hkey
              · exact .inl (List.mem_singleton.mp hkey)

/-- A rewriter reads the manifest it is about to replace. -/
theorem advances_replaceRead {source entries : List ManifestEntry} {attempt : Nat}
    (h : Known first i store (.replaceRead source entries attempt)) :
  Advances first answer i store (.replaceRead source entries attempt)
    (moveWriter base encodedSize rowBudget answer i store (.replaceRead source entries attempt))
  := by
  unfold moveWriter
  dsimp only
  cases store.readManifestVersioned answer with
  | error e => exact h.fails nofun e
  | ok read =>
      obtain ⟨happends, hnot, hrows⟩ := h
      exact ⟨.quiet (fun _ hkey => hkey) rfl, happends, hnot, hrows, rfl⟩

/-- A rewriter replaces the manifest it had read, or tries again. -/
theorem advances_replaceWrite {source entries : List ManifestEntry} {attempt : Nat}
    {manifest : Manifest} {eTag : Option ETag}
    (h : Known first i store (.replaceWrite source entries attempt manifest eTag))
    (hsound : store.Sound)
    (hsource : answer.fault = none → store.manifest.map (·.2) = eTag → store.files = source) :
  Advances first answer i store (.replaceWrite source entries attempt manifest eTag)
    (moveWriter base encodedSize rowBudget answer i store
      (.replaceWrite source entries attempt manifest eTag))
  := by
  rw [moveWriter]
  obtain ⟨written, hput, hmove⟩ | hmove | ⟨e, hmove⟩ := afterPut_cases base store attempt
    .vacuumRead (.replaceRead source entries (attempt + 1))
    (store.putManifest answer i manifest (putMode eTag))
  · rw [hmove]
    obtain ⟨hfault, htag, rfl⟩ := putManifest_ok hput
    obtain ⟨happends, hnot, ⟨-, hrows⟩, rfl⟩ := h
    have hfiles := hsource hfault htag
    refine ⟨.committed manifest hnot ?_ ?_ rfl rfl, happends⟩
    · intro entry hentry
      exact .inr (List.mem_map_of_mem hentry)
    · rw [appended_eq_zero happends, add_zero, TableStore.committedRows, hfiles]
      apply (hrows ?_).symm
      rw [← hfiles]
      exact hsound.listed
  · rw [hmove]
    obtain ⟨happends, hnot, hrows, -⟩ := h
    exact ⟨.quiet (fun _ hkey => hkey) rfl, happends, hnot, hrows⟩
  · rw [hmove]
    exact h.fails nofun e

/-- A vacuum reads the manifest. -/
theorem advances_vacuumRead (h : Known first i store .vacuumRead) :
  Advances first answer i store .vacuumRead
    (moveWriter base encodedSize rowBudget answer i store .vacuumRead)
  := by
  unfold moveWriter
  dsimp only
  rcases store.readManifestVersioned answer with e | ⟨existing, eTag⟩
  · exact h.fails nofun e
  · cases existing with
    | none => exact Known.stops h
    | some manifest => exact ⟨.quiet nofun rfl, h⟩

/-- A vacuum lists the objects. -/
theorem advances_vacuumList {committed : List OPath}
    (h : Known first i store (.vacuumList committed)) (hsound : store.Sound) :
  Advances first answer i store (.vacuumList committed)
    (moveWriter base encodedSize rowBudget answer i store (.vacuumList committed))
  := by
  unfold moveWriter
  dsimp only
  cases hfault : answer.fault with
  | some e => exact h.fails nofun e
  | none =>
      have hstored : ∀ key ∈ store.objects.keys.filter (fun key =>
          isVacuumCandidate key && !committed.contains key),
          store.objects.contains key = true ∧ key ∉ committed := by
        intro key hkey
        rw [List.mem_filter, Std.ExtTreeMap.mem_keys, Bool.and_eq_true] at hkey
        refine ⟨Std.ExtTreeMap.contains_iff_mem.mpr hkey.1, ?_⟩
        simpa using hkey.2.2
      have hdelete : Known first i store (.vacuumDelete (store.objects.keys.filter (fun key =>
          isVacuumCandidate key && !committed.contains key))) :=
        ⟨h, fun key hkey => hsound.used key (hstored key hkey).1⟩
      obtain ⟨hknown, hstaged, horphans⟩ := hdelete.afterDelete
      refine ⟨.listed committed rfl hfault hstaged ?_, hknown⟩
      rw [horphans]
      exact hstored

/-- A vacuum deletes an orphan. -/
theorem advances_vacuumDelete {orphans : List OPath}
    (h : Known first i store (.vacuumDelete orphans)) :
  Advances first answer i store (.vacuumDelete orphans)
    (moveWriter base encodedSize rowBudget answer i store (.vacuumDelete orphans))
  := by
  unfold moveWriter
  dsimp only
  cases orphans with
  | nil => exact Known.stops h.1
  | cons orphan orphans =>
      cases answer.fault with
      | some e => exact h.fails nofun e
      | none =>
          have hdelete : Known first i (store.deleteFile orphan) (.vacuumDelete orphans) :=
            ⟨h.1, fun key hkey => h.2 key (List.mem_cons_of_mem _ hkey)⟩
          obtain ⟨hknown, hstaged, horphans⟩ := hdelete.afterDelete
          refine ⟨.deleted orphan List.mem_cons_self ?_ hstaged, hknown⟩
          rw [horphans]
          intro key hkey
          exact List.mem_cons_of_mem _ hkey

/-- What one call of a writer does. -/
theorem Known.move (h : Known first i store w) (hsound : store.Sound)
    (hstaged : ∀ key ∈ w.staged, store.objects.contains key = true)
    (hfresh : answer.Fresh store)
    (hsource : answer.fault = none → ∀ read ∈ w.replacing,
      store.manifest.map (·.2) = read.2 → store.files = read.1) :
  Advances first answer i store w (moveWriter base encodedSize rowBudget answer i store w)
  := by
  cases w with
  | appendBatch batch => exact advances_appendBatch base encodedSize rowBudget h
  | appendRead entry attempt => exact advances_appendRead base encodedSize rowBudget h hsound
  | appendWrite entry attempt manifest eTag =>
      exact advances_appendWrite base encodedSize rowBudget h
  | compactRead target minFileCount =>
      exact advances_compactRead base encodedSize rowBudget h hsound
  | compactGet target manifest rest batches =>
      exact advances_compactGet base encodedSize rowBudget h
  | snapshotExecute query => exact advances_snapshotExecute base encodedSize rowBudget h hsound
  | rewritePut source pending entries =>
      apply advances_rewritePut base encodedSize rowBudget h _ hfresh.2
      intro key hkey
      exact hsound.used key (hstaged key hkey)
  | replaceRead source entries attempt => exact advances_replaceRead base encodedSize rowBudget h
  | replaceWrite source entries attempt manifest eTag =>
      apply advances_replaceWrite base encodedSize rowBudget h hsound
      intro hfault htag
      exact hsource hfault _ rfl htag
  | vacuumRead => exact advances_vacuumRead base encodedSize rowBudget h
  | vacuumList committed => exact advances_vacuumList base encodedSize rowBudget h hsound
  | vacuumDelete orphans => exact advances_vacuumDelete base encodedSize rowBudget h
  | returned result => exact ⟨.quiet nofun rfl, h⟩

end

/-! ### Any number of calls -/

/-- What holds in every state writers reach that are not overtaken, given what they were at the
beginning and the rows that were committed then. -/
structure WritersInvariant (first : ι → TableWriter) (rows : Multiset Row)
    (s : System ι (TableStore ι) TableWriter) : Prop where
  sound : s.shared.Sound
  staged : ∀ i, ∀ key ∈ (s.task i).staged, s.shared.objects.contains key = true
  orphans : ∀ i, ∀ key ∈ (s.task i).orphans, ¬ InUse s key
  nodup : s.shared.commits.Nodup
  rows_eq : s.shared.committedRows
    = rows + (s.shared.commits.map (fun i => (first i).appended)).sum
  known : ∀ i, Known (first i) i s.shared (s.task i)

section

variable {first : ι → TableWriter} {rows : Multiset Row} {s : System ι (TableStore ι) TableWriter}

theorem Known.orphans_used {first : TableWriter} {i : ι} {store : TableStore ι} {w : TableWriter}
    (h : Known first i store w) :
  ∀ key ∈ w.orphans, key ∈ store.used
  := by
  cases w with
  | vacuumDelete orphans => exact h.2
  | _ => nofun

/-- A file in use is there. -/
theorem WritersInvariant.inUse (h : WritersInvariant first rows s) {key : OPath}
    (hkey : InUse s key) :
  s.shared.objects.contains key = true
  := by
  obtain hkey | ⟨i, hkey⟩ := hkey
  · obtain ⟨entry, hentry, rfl⟩ := List.mem_map.mp hkey
    exact h.sound.listed entry hentry
  · exact h.staged i key hkey

/-- The writers are at their beginning, and every listed file exists. -/
structure WritersStart (s : System ι (TableStore ι) TableWriter) : Prop where
  sound : s.shared.Sound
  commits_eq : s.shared.commits = []
  starts : ∀ i, (s.task i).Starts

theorem WritersStart.invariant (h : WritersStart s) :
  WritersInvariant s.task s.shared.committedRows s
  := by
  have hidle : ∀ i, (s.task i).staged = [] ∧ (s.task i).orphans = []
      ∧ Known (s.task i) i s.shared (s.task i) := by
    intro i
    have hnot : i ∉ s.shared.commits := by
      rw [h.commits_eq]
      exact List.not_mem_nil
    have hstarts := h.starts i
    revert hstarts
    cases s.task i with
    | appendBatch batch => exact fun _ => ⟨rfl, rfl, rfl, hnot⟩
    | compactRead target minFileCount => exact fun _ => ⟨rfl, rfl, rfl, hnot⟩
    | snapshotExecute query => exact fun _ => ⟨rfl, rfl, rfl, hnot⟩
    | vacuumRead => exact fun _ => ⟨rfl, rfl, rfl⟩
    | _ => nofun
  constructor
  · exact h.sound
  · intro i
    rw [(hidle i).1]
    nofun
  · intro i
    rw [(hidle i).2.1]
    nofun
  · rw [h.commits_eq]
    exact List.nodup_nil
  · rw [h.commits_eq]
    simp
  · intro i
    exact (hidle i).2.2

variable [DecidableEq ι] {i : ι}

/-- The files in use after a call are listed, put by the writer that made it, or in use by
another. -/
theorem InUse.cases {next : TableStore ι × TableWriter} {key : OPath}
    (h : InUse (s.after i next) key) :
  key ∈ next.1.files.map (·.path) ∨ key ∈ next.2.staged ∨ ∃ j, key ∈ (s.task j).staged
  := by
  obtain h | ⟨j, h⟩ := h
  · exact .inl h
  · by_cases hj : j = i
    · rw [hj, System.after_task_self] at h
      exact .inr (.inl h)
    · rw [System.after_task_other s next hj] at h
      exact .inr (.inr ⟨j, h⟩)

/-- A call that does not change the store. -/
theorem WritersInvariant.quiet (h : WritersInvariant first rows s) {w : TableWriter}
    (hknown : Known (first i) i s.shared w) (hstaged : ∀ key ∈ w.staged, key ∈ (s.task i).staged)
    (horphans : ∀ key ∈ w.orphans, ¬ InUse s key) :
  WritersInvariant first rows (s.after i (s.shared, w))
  := by
  have hinUse : ∀ key, InUse (s.after i (s.shared, w)) key → InUse s key := by
    intro key hkey
    obtain hkey | hkey | hkey := hkey.cases
    · exact .inl hkey
    · exact .inr ⟨i, hstaged key hkey⟩
    · exact .inr hkey
  constructor
  · exact h.sound
  · apply System.forall_after
      (fun _ w => ∀ key ∈ w.staged, s.shared.objects.contains key = true) s i
    · intro key hkey
      exact h.staged i key (hstaged key hkey)
    · intro j _
      exact h.staged j
  · apply System.forall_after (fun _ w => ∀ key ∈ w.orphans, ¬ InUse _ key) s i
    · intro key hkey
      exact mt (hinUse key) (horphans key hkey)
    · intro j _ key hkey
      exact mt (hinUse key) (h.orphans j key hkey)
  · exact h.nodup
  · exact h.rows_eq
  · apply System.forall_after (fun j w => Known (first j) j s.shared w) s i hknown
    intro j _
    exact h.known j

/-- A call that puts a file under a new key. -/
theorem WritersInvariant.put (h : WritersInvariant first rows s) {key : OPath}
    (hkey : key ∉ s.shared.used) {file : RecordBatch} {w : TableWriter}
    (hknown : Known (first i) i (s.shared.putFile key file) w)
    (hstaged : ∀ k ∈ w.staged, k = key ∨ k ∈ (s.task i).staged) (horphans : w.orphans = []) :
  WritersInvariant first rows (s.after i (s.shared.putFile key file, w))
  := by
  have hcontains : ∀ k, (s.shared.putFile key file).objects.contains k = true
      ↔ k = key ∨ s.shared.objects.contains k = true := by
    intro k
    change (s.shared.objects.insert key file).contains k = true ↔ _
    rw [Std.ExtTreeMap.contains_insert, Bool.or_eq_true, beq_iff_eq, Std.compare_eq_iff_eq, eq_comm]
  have hlisted : ∀ entry ∈ s.shared.files, entry.path ∈ s.shared.used := by
    intro entry hentry
    exact h.sound.used _ (h.sound.listed entry hentry)
  constructor
  · constructor
    · exact h.sound.tagKnown
    · intro k hk
      obtain rfl | hk := (hcontains k).mp hk
      · exact List.mem_cons_self
      · exact List.mem_cons_of_mem _ (h.sound.used k hk)
    · intro entry hentry
      exact (hcontains _).mpr (.inr (h.sound.listed entry hentry))
  · apply System.forall_after
      (fun _ w => ∀ k ∈ w.staged, (s.shared.putFile key file).objects.contains k = true) s i
    · intro k hk
      apply (hcontains k).mpr
      exact (hstaged k hk).imp id (h.staged i k)
    · intro j _ k hk
      exact (hcontains k).mpr (.inr (h.staged j k hk))
  · apply System.forall_after (fun _ w => ∀ key ∈ w.orphans, ¬ InUse _ key) s i
    · rw [horphans]
      nofun
    · intro j _ k hk hinUse
      have hused := (h.known j).orphans_used k hk
      obtain hinUse | hinUse | hinUse := hinUse.cases
      · exact h.orphans j k hk (.inl hinUse)
      · obtain rfl | hinUse := hstaged k hinUse
        · exact hkey hused
        · exact h.orphans j k hk (.inr ⟨i, hinUse⟩)
      · exact h.orphans j k hk (.inr hinUse)
  · exact h.nodup
  · refine Eq.trans ?_ h.rows_eq
    apply rowsOf_congr
    intro entry hentry
    exact get_putFile hkey file (hlisted entry hentry)
  · apply System.forall_after (fun j w => Known (first j) j (s.shared.putFile key file) w) s i
      hknown
    intro j _
    apply (h.known j).of_kept
    · exact Iff.rfl
    · intro k hk
      exact List.mem_cons_of_mem _ hk
    · intro k hk _
      exact get_putFile hkey file hk
    · intro k hk
      exact get_putFile hkey file (h.sound.used k (h.staged j k hk))
    · intro entry manifest eTag hremembers
      cases eTag with
      | none => exact hremembers
      | some eTag => exact hremembers

/-- A call that writes the manifest. -/
theorem WritersInvariant.commit (h : WritersInvariant first rows s) {manifest : Manifest}
    {eTag : ETag} (htag : eTag ∉ s.shared.tags) {w : TableWriter} (hnot : i ∉ s.shared.commits)
    (hknown : Known (first i) i (s.shared.commit i manifest eTag) w)
    (hfiles : ∀ entry ∈ manifest.files, entry ∈ s.shared.files ∨ entry.path ∈ (s.task i).staged)
    (hrows : s.shared.rowsOf manifest.files = s.shared.committedRows + (first i).appended)
    (hstaged : w.staged = []) (horphans : w.orphans = []) :
  WritersInvariant first rows (s.after i (s.shared.commit i manifest eTag, w))
  := by
  have hlisted : ∀ entry ∈ manifest.files, InUse s entry.path := by
    intro entry hentry
    obtain hentry | hentry := hfiles entry hentry
    · exact .inl (List.mem_map_of_mem hentry)
    · exact .inr ⟨i, hentry⟩
  constructor
  · constructor
    · intro current tag hcurrent
      cases hcurrent
      exact List.mem_cons_self
    · exact h.sound.used
    · intro entry hentry
      exact h.inUse (hlisted entry hentry)
  · apply System.forall_after
      (fun _ w => ∀ k ∈ w.staged, (s.shared.commit i manifest eTag).objects.contains k = true) s i
    · rw [hstaged]
      nofun
    · intro j _
      exact h.staged j
  · apply System.forall_after (fun _ w => ∀ key ∈ w.orphans, ¬ InUse _ key) s i
    · rw [horphans]
      nofun
    · intro j _ key hkey hinUse
      apply h.orphans j key hkey
      obtain hinUse | hinUse | hinUse := hinUse.cases
      · obtain ⟨entry, hentry, rfl⟩ := List.mem_map.mp hinUse
        exact hlisted entry hentry
      · rw [hstaged] at hinUse
        cases hinUse
      · exact .inr hinUse
  · change (s.shared.commits ++ [i]).Nodup
    rw [← List.concat_eq_append]
    exact h.nodup.concat hnot
  · change s.shared.rowsOf manifest.files
      = rows + ((s.shared.commits ++ [i]).map (fun i => (first i).appended)).sum
    rw [hrows, h.rows_eq]
    simp [add_assoc]
  · apply System.forall_after (fun j w => Known (first j) j (s.shared.commit i manifest eTag) w) s i
      hknown
    intro j hj
    apply (h.known j).of_kept
    · change j ∈ s.shared.commits ++ [i] ↔ _
      simp [hj]
    · exact fun _ hk => hk
    · exact fun _ _ _ => rfl
    · exact fun _ _ => rfl
    · intro entry written tag hremembers
      exact hremembers.commit i manifest htag

/-- A call that deletes a file nobody uses. -/
theorem WritersInvariant.delete (h : WritersInvariant first rows s) {key : OPath}
    (hkey : ¬ InUse s key) {w : TableWriter}
    (hknown : Known (first i) i (s.shared.deleteFile key) w)
    (horphans : ∀ k ∈ w.orphans, k ∈ (s.task i).orphans) (hstaged : w.staged = []) :
  WritersInvariant first rows (s.after i (s.shared.deleteFile key, w))
  := by
  have hget : ∀ k, k ≠ key →
      (s.shared.deleteFile key).objects[k]? = s.shared.objects[k]? := by
    intro k hk
    change (s.shared.objects.erase key)[k]? = _
    rw [Std.ExtTreeMap.getElem?_erase]
    simp [Ne.symm hk]
  have hcontains : ∀ k, InUse s k → (s.shared.deleteFile key).objects.contains k = true := by
    intro k hk
    have hne : k ≠ key := by
      rintro rfl
      exact hkey hk
    rw [Std.ExtTreeMap.contains_eq_isSome_getElem?, hget k hne,
      ← Std.ExtTreeMap.contains_eq_isSome_getElem?]
    exact h.inUse hk
  have hinUse : ∀ k, InUse (s.after i (s.shared.deleteFile key, w)) k → InUse s k := by
    intro k hk
    obtain hk | hk | hk := hk.cases
    · exact .inl hk
    · rw [hstaged] at hk
      cases hk
    · exact .inr hk
  constructor
  · constructor
    · exact h.sound.tagKnown
    · intro k hk
      apply h.sound.used
      change (s.shared.objects.erase key).contains k = true at hk
      rw [Std.ExtTreeMap.contains_erase, Bool.and_eq_true] at hk
      exact hk.2
    · intro entry hentry
      exact hcontains _ (.inl (List.mem_map_of_mem hentry))
  · apply System.forall_after
      (fun _ w => ∀ k ∈ w.staged, (s.shared.deleteFile key).objects.contains k = true) s i
    · rw [hstaged]
      nofun
    · intro j _ k hk
      exact hcontains k (.inr ⟨j, hk⟩)
  · apply System.forall_after (fun _ w => ∀ key ∈ w.orphans, ¬ InUse _ key) s i
    · intro k hk
      exact mt (hinUse k) (h.orphans i k (horphans k hk))
    · intro j _ k hk
      exact mt (hinUse k) (h.orphans j k hk)
  · exact h.nodup
  · refine Eq.trans ?_ h.rows_eq
    apply rowsOf_congr
    intro entry hentry
    apply hget
    rintro rfl
    exact hkey (.inl (List.mem_map_of_mem hentry))
  · apply System.forall_after (fun j w => Known (first j) j (s.shared.deleteFile key) w) s i hknown
    intro j _
    apply (h.known j).of_kept
    · exact Iff.rfl
    · exact fun _ hk => hk
    · intro k _ hk
      apply hget
      rintro rfl
      change (s.shared.objects.erase k).contains k = true at hk
      rw [Std.ExtTreeMap.contains_erase, Bool.and_eq_true] at hk
      simp at hk
    · intro k hk
      apply hget
      rintro rfl
      exact hkey (.inr ⟨j, hk⟩)
    · intro entry manifest eTag hremembers
      cases eTag with
      | none => exact hremembers
      | some eTag => exact hremembers

variable (base : OPath) (encodedSize : RecordBatch → Nat) (rowBudget : Nat → Nat → Nat → Int)

/-- The calls of writers on a store that issues new e-tags and identifiers, as far as they are
allowed. -/
abbrev AllowedCall (allowed : ι × Answer → System ι (TableStore ι) TableWriter → Prop) :
    System ι (TableStore ι) TableWriter → System ι (TableStore ι) TableWriter → Prop :=
  Step (moveWriter base encodedSize rowBudget)
    (fun call s => call.2.Fresh s.shared ∧ allowed call s)

/-- A call that is not overtaken keeps the invariant. -/
theorem WritersInvariant.step {t : System ι (TableStore ι) TableWriter}
    (h : WritersInvariant first rows s)
    (hstep : AllowedCall base encodedSize rowBudget NotOvertaken s t) :
  WritersInvariant first rows t
  := by
  obtain ⟨⟨i, answer⟩, ⟨hfresh, hnot⟩, rfl⟩ := hstep
  unfold perform
  obtain ⟨hmove, hknown⟩ := (h.known i).move base encodedSize rowBudget h.sound (h.staged i) hfresh
    (fun hfault => (hnot hfault).2)
  revert hmove hknown
  generalize moveWriter base encodedSize rowBudget answer i s.shared (s.task i) = next
  intro hmove hknown
  cases hmove with
  | quiet hstaged horphans =>
      apply h.quiet hknown hstaged
      rw [horphans]
      nofun
  | listed committed hlisting hfault hstaged horphans =>
      apply h.quiet hknown
      · rw [hstaged]
        nofun
      · intro key hkey hinUse
        obtain ⟨hfiles, hputs⟩ := (hnot hfault).1 committed hlisting
        apply (horphans key hkey).2
        obtain hinUse | ⟨j, hinUse⟩ := hinUse
        · obtain ⟨entry, hentry, rfl⟩ := List.mem_map.mp hinUse
          exact hfiles entry hentry
        · exact hputs j key hinUse
  | put file hstaged horphans => exact h.put hfresh.2 hknown hstaged horphans
  | committed manifest hnot hfiles hrows hstaged horphans =>
      exact h.commit hfresh.1 hnot hknown hfiles hrows hstaged horphans
  | deleted key hkey horphans hstaged =>
      exact h.delete (h.orphans i key hkey) hknown horphans hstaged

/-- The states writers reach that are not overtaken. -/
theorem reachable_invariant {start : System ι (TableStore ι) TableWriter}
    (hstart : WritersStart start)
    (h : Run.Reachable (· = start) (AllowedCall base encodedSize rowBudget NotOvertaken) s) :
  WritersInvariant start.task start.shared.committedRows s
  := by
  apply h.invariant
  · rintro _ rfl
    exact hstart.invariant
  · intro s t hs hstep
    exact hs.step base encodedSize rowBudget hstep

/-- In every state writers reach that are not overtaken, every listed file exists. -/
theorem notOvertaken_files_exist {start : System ι (TableStore ι) TableWriter}
    (hstart : WritersStart start)
    (h : Run.Reachable (· = start) (AllowedCall base encodedSize rowBudget NotOvertaken) s) :
  ∀ entry ∈ s.shared.files, s.shared.objects.contains entry.path = true
  := (reachable_invariant base encodedSize rowBudget hstart h).sound.listed

end

end

/-! ### Two writers -/

instance {ι : Type} [Fintype ι] (call : ι × Answer) (s : System ι (TableStore ι) TableWriter) :
    Decidable (NotOvertaken call s) :=
  inferInstanceAs (Decidable (_ → _))

/-- A file with one row. -/
def sampleFile₁ (n : Int) : RecordBatch :=
  { schema := [{ name := "v", dataType := .int64, nullable := false }]
    rows := [[some (.integer n)]] }

/-- A table with one file and an orphan, on which two writers are about to start. -/
def sampleTableWriters (first second : TableWriter) :
    System Bool (TableStore Bool) TableWriter :=
  { shared :=
      { manifest := some ({ snapshotId := "s", createdAtMs := 0,
                            files := [{ path := dataFile "a", size := 1, rowCount := 1 }] }, "1")
        objects := (∅ : Std.ExtTreeMap OPath RecordBatch).insert (dataFile "a") (sampleFile₁ 1)
          |>.insert (dataFile "b") (sampleFile₁ 2)
        tags := ["1"]
        used := [dataFile "a", dataFile "b"]
        commits := [] }
    task := fun i => if i then second else first }

theorem sampleTableWriters_start {first second : TableWriter} (hfirst : first.Starts)
    (hsecond : second.Starts) :
  WritersStart (sampleTableWriters first second)
  := by
  constructor
  · constructor
    · rintro manifest eTag hmanifest
      cases hmanifest
      exact List.mem_cons_self
    · intro key hkey
      simp only [sampleTableWriters, Std.ExtTreeMap.contains_insert, Bool.or_eq_true, beq_iff_eq,
        Std.compare_eq_iff_eq] at hkey
      obtain rfl | rfl | hkey := hkey
      · simp [sampleTableWriters]
      · simp [sampleTableWriters]
      · simp at hkey
    · intro entry hentry
      obtain rfl := List.mem_singleton.mp hentry
      simp [sampleTableWriters]
  · rfl
  · intro i
    cases i with
    | false => exact hfirst
    | true => exact hsecond

/-- The calls of sample writers one after another. -/
abbrev runSample (calls : List (Bool × Answer)) (s : System Bool (TableStore Bool) TableWriter) :
    System Bool (TableStore Bool) TableWriter :=
  Run.performAll (perform (moveWriter [] (fun _ => 1) (fun _ _ _ => 1))) calls s

/-- What the calls of sample writers lead to is reachable. -/
theorem runSample_reachable {start : System Bool (TableStore Bool) TableWriter}
    {allowed : Bool × Answer → System Bool (TableStore Bool) TableWriter → Prop}
    {calls : List (Bool × Answer)}
    (h : Run.AllAllowed (perform (moveWriter [] (fun _ => 1) (fun _ _ _ => 1)))
      (fun call s => call.2.Fresh s.shared ∧ allowed call s) calls start) :
  Run.Reachable (· = start) (AllowedCall [] (fun _ => 1) (fun _ _ _ => 1) allowed)
    (runSample calls start)
  := Run.Reachable.performAll (Run.Reachable.start rfl) h

/-- The calls of an append and then of a vacuum that deletes an orphan. -/
def appendThenVacuum : List (Bool × Answer) :=
  [(true, { uuid := "c" }), (true, {}), (true, { eTag := "2" }), (false, {}), (false, {}),
    (false, {})]

/-- A vacuum after an append. -/
theorem notOvertaken_files_exist_vacuum :
  (runSample appendThenVacuum
      (sampleTableWriters .vacuumRead (.appendBatch (sampleFile₁ 3)))).shared.files.all (fun entry =>
    (runSample appendThenVacuum
      (sampleTableWriters .vacuumRead (.appendBatch (sampleFile₁ 3)))).shared.objects.contains
        entry.path) = true
  := by
  have hstart := @sampleTableWriters_start .vacuumRead (.appendBatch (sampleFile₁ 3))
    trivial trivial
  rw [List.all_eq_true]
  apply notOvertaken_files_exist [] (fun _ => 1) (fun _ _ _ => 1) hstart
  apply runSample_reachable
  decide

/-- The calls of an append whose file is put between the read and the listing of a vacuum. -/
def appendWithinVacuum : List (Bool × Answer) :=
  [(false, {}), (true, { uuid := "c" }), (false, {}), (true, {}), (true, { eTag := "2" }),
    (false, {}), (false, {})]

/-- An append and a vacuum that both succeed, after which a listed file is missing. -/
theorem vacuum_deletes_listed_file :
  ∃ start s : System Bool (TableStore Bool) TableWriter,
    WritersStart start
      ∧ (∀ i, (start.task i).appends = true ∨ start.task i = .vacuumRead)
      ∧ Run.Reachable (· = start)
        (AllowedCall [] (fun _ => 1) (fun _ _ _ => 1) (fun _ _ => True)) s
      ∧ (∀ i, s.task i = .returned (.ok ()))
      ∧ ∃ entry ∈ s.shared.files, s.shared.objects.contains entry.path = false
  := by
  have hstart := @sampleTableWriters_start .vacuumRead (.appendBatch (sampleFile₁ 3))
    trivial trivial
  refine ⟨_, _, hstart, ?_, @runSample_reachable _ _ appendWithinVacuum ?_, ?_, ?_⟩
  · intro i
    cases i with
    | false => exact .inr rfl
    | true => exact .inl rfl
  · decide
  · intro i
    cases i with
    | false => rfl
    | true => rfl
  · refine ⟨{ path := dataFile "c", size := 1, rowCount := 1 }, ?_, ?_⟩
    · decide
    · decide

/-- The calls of an append and then of a compaction, which deletes the two files it replaced and
an orphan. -/
def appendThenCompact : List (Bool × Answer) :=
  [(true, { uuid := "c" }), (true, {}), (true, { eTag := "2" }), (false, {}), (false, {}),
    (false, {}), (false, { uuid := "d" }), (false, { uuid := "e" }), (false, {}),
    (false, { eTag := "3" }), (false, {}), (false, {}), (false, {}), (false, {}), (false, {})]

/-- The calls of an append that commits between the read of a compaction and its replacement of
the manifest. -/
def appendWithinCompact : List (Bool × Answer) :=
  [(false, {}), (true, { uuid := "c" }), (true, {}), (true, { eTag := "2" }), (false, {}),
    (false, { uuid := "d" }), (false, {}), (false, { eTag := "3" }), (false, {}), (false, {}),
    (false, {}), (false, {}), (false, {})]
