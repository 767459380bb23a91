import AnalyticsDB.Engine.Mutations
import AnalyticsDB.Storage.Interference

/-!
# Compaction

The files of a table are read batch by batch, the batches are put into bins one after the other, and
each bin is written as a new file.  Every file but those of one batch stays within the budget of
rows, and the table has the same rows in the same order before and after.
-/

namespace Compaction

open Eff

/-! ### What a table lists -/

/-- The file at a key. -/
def fileAt (store : ObjectStore) (key : OPath) : Option RecordBatch :=
  match store[key]? with
  | some (.parquet file) => some file
  | _ => none

/-- The rows of listed files, in their order. -/
def rowsOf (store : ObjectStore) (base : OPath) (entries : List ManifestEntry) : List Row :=
  entries.flatMap (fun entry => ((fileAt store (entry.key base)).map (·.rows)).getD [])

/-- The rows of a table. -/
def listedRows (store : ObjectStore) (base : OPath) : List Row :=
  rowsOf store base (manifestEntries store base)

/-- The batches listed files are read in. -/
def batchesOf (store : ObjectStore) (base : OPath) (entries : List ManifestEntry) :
    List RecordBatch :=
  entries.flatMap (fun entry => ((fileAt store (entry.key base)).map parquetBatches).getD [])

/-- The number of rows that a file of several batches has at most. -/
def budgetOf (x : Execution) (targetFileBytes : Nat) (entries : List ManifestEntry)
    (batches : List RecordBatch) : Int :=
  max (x.rowBudget targetFileBytes ((entries.map (·.size)).sum)
    ((batches.map (·.rows.length)).sum)) 1

theorem rows_parquetBatches (file : RecordBatch) :
  (parquetBatches file).flatMap (·.rows) = file.rows
  := by
  have hflatten := flatten_chunks 8192 (by decide) file.rows.length file.rows (Nat.le_refl _)
  rw [parquetBatches, List.flatMap_map]
  exact List.flatMap_id.trans hflatten

theorem rows_batchesOf (store : ObjectStore) (base : OPath) (entries : List ManifestEntry) :
  (batchesOf store base entries).flatMap (·.rows) = rowsOf store base entries
  := by
  rw [batchesOf, rowsOf, List.flatMap_assoc]
  apply List.flatMap_congr
  intro entry _
  cases fileAt store (entry.key base) with
  | none => rfl
  | some file => exact rows_parquetBatches file

/-! ### Bins -/

/-- A bin has one batch or stays within the budget. -/
def Fits (budget : Int) (bin : List RecordBatch) : Prop :=
  ((bin.flatMap (·.rows)).length : Int) ≤ budget ∨ bin.length = 1

/-- Bins hold the batches in their order, and each one fits. -/
theorem binBatches_spec (budget : Int) (batches current : List RecordBatch) (rows : Int)
    (hrows : rows = ((current.flatMap (·.rows)).length : Int))
    (hcurrent : current ≠ [] → Fits budget current) :
  (binBatches budget current rows batches).flatten = current ++ batches
    ∧ ∀ bin ∈ binBatches budget current rows batches, Fits budget bin
  := by
  induction batches generalizing current rows with
  | nil =>
      rw [binBatches]
      split
      · rename_i hempty
        rw [List.isEmpty_iff.mp hempty]
        simp
      · rename_i hne
        simpa using hcurrent (by simpa using hne)
  | cons batch batches ih =>
      rw [binBatches]
      split
      · rename_i hflush
        rw [Bool.and_eq_true] at hflush
        have hne : current ≠ [] := by simpa using hflush.1
        obtain ⟨hflatten, hfits⟩ := ih [batch] batch.rows.length (by simp) (fun _ => .inr rfl)
        refine ⟨by simp [hflatten], ?_⟩
        rw [List.forall_mem_cons]
        exact ⟨hcurrent hne, hfits⟩
      · rename_i hkeep
        obtain ⟨hflatten, hfits⟩ := ih (current ++ [batch]) (rows + batch.rows.length)
          (by simp [hrows]) (by
            intro _
            by_cases hempty : current = []
            · subst hempty
              exact .inr rfl
            · left
              simp [hempty] at hkeep
              simpa [hrows] using hkeep)
        exact ⟨by simp [hflatten], hfits⟩

/-! ### Reading and writing files -/

/-- Every listed file is there. -/
def Readable (store : ObjectStore) (base : OPath) (entries : List ManifestEntry) : Prop :=
  ∀ entry ∈ entries, ∃ file, store[entry.key base]? = some (.parquet file)

theorem fileAt_eq_some {store : ObjectStore} {key : OPath} {file : RecordBatch}
    (h : store[key]? = some (.parquet file)) :
  fileAt store key = some file
  := by
  rw [fileAt, h]

section

variable {o : Outside} (hfound : ∀ n, o.storeError n ≠ some .notFound)

include hfound

/-- Getting a file that is there yields it, or fails otherwise than by not finding it. -/
theorem storeGet_finds {key : OPath} {w : World} {obj : Obj} (hobj : w.store[key]? = some obj) :
  Returns (storeGet o key) w (fun got w' => w'.store = w.store
    ∧ (got = .ok obj ∨ ∃ e, got = .error e ∧ e ≠ .notFound))
  := by
  simp only [storeGet, returns_bind, storeFault, returns_outsideCall, returns_pure]
  cases hfault : o.storeError w.calls with
  | some e =>
      rw [returns_pure]
      exact ⟨rfl, .inr ⟨e, rfl, fun he => hfound w.calls (he ▸ hfault)⟩⟩
  | none =>
      simp only [returns_bind, returns_get, hobj, returns_pure, true_or, and_self]

/-- Reading listed files that are there yields their batches. -/
theorem readListedBatches_returns {base : OPath} {entries : List ManifestEntry} {w : World}
    (hreadable : Readable w.store base entries) :
  Returns (readListedBatches o base entries) w (fun batches w' =>
    w'.store = w.store ∧ batches = batchesOf w.store base entries)
  := by
  induction entries generalizing w with
  | nil =>
      rw [readListedBatches, returns_pure]
      exact ⟨rfl, rfl⟩
  | cons entry entries ih =>
      rw [Readable, List.forall_mem_cons] at hreadable
      obtain ⟨⟨file, hfile⟩, hrest⟩ := hreadable
      rw [readListedBatches, returns_bind]
      refine Returns.mono (storeGet_finds hfound hfile) ?_
      rintro _ w₁ ⟨hw₁, rfl | ⟨e, rfl, he⟩⟩
      · dsimp only
        rw [returns_bind]
        simp only [storeFault, returns_bind, returns_outsideCall, returns_pure]
        cases o.storeError w₁.calls with
        | some e => apply returns_bail
        | none =>
            dsimp only
            rw [returns_bind]
            have hrest₁ : Readable { w₁ with calls := w₁.calls + 1 }.store base entries := by
              rw [hw₁]
              exact hrest
            refine Returns.mono (ih hrest₁) ?_
            rintro batches w₂ ⟨hw₂, rfl⟩
            rw [returns_pure, hw₂]
            refine ⟨hw₁, ?_⟩
            rw [batchesOf, batchesOf, List.flatMap_cons, fileAt_eq_some hfile]
            dsimp only
            rw [hw₁]
            rfl
      · cases e with
        | notFound => exact absurd rfl he
        | _ => apply returns_bail

end

/-- A file of a bin is stored under its entry. -/
def BinStored (store : ObjectStore) (base : OPath) (entry : ManifestEntry)
    (bin : List RecordBatch) : Prop :=
  ∃ file, store[entry.key base]? = some (.parquet file) ∧ file.rows = bin.flatMap (·.rows)
    ∧ entry.rowCount = file.rows.length

/-- Putting bins touches only fresh data files, and those listed hold the bins. -/
theorem after_putBins (o : Outside) (base : OPath) (schema : Schema)
    (bins : List (List RecordBatch)) (w : World) :
  After (putBins o base schema bins) w (fun r w' =>
    Frame (FreshDataKey o base w.calls) w w'
      ∧ ∀ entries, r = .ok entries → List.Forall₂ (fun entry bin =>
          (∃ n, w.calls ≤ n ∧ entry.path = ["data", o.uuid n ++ ".parquet"])
            ∧ BinStored w'.store base entry bin) entries bins)
  := by
  induction bins generalizing w with
  | nil =>
      constructor
      · apply Frame.refl
      · rintro entries ⟨⟩
        apply List.Forall₂.nil
  | cons bin bins ih =>
      have hkey : FreshDataKey o base w.calls (dataKey base (o.uuid w.calls ++ ".parquet")) :=
        ⟨w.calls, Nat.le_refl _, rfl⟩
      have hcall := Frame.call (FreshDataKey o base w.calls) w
      simp only [putBins, after_bind, after_outsideCall, resume_ok]
      cases hfile : encodeParquetBatches schema bin with
      | error message =>
          constructor
          · apply hcall
          · intro entries h
            cases h
      | ok file =>
          rw [orBail, after_pure, resume_ok, after_bind]
          refine After.mono ((storePut_modifies o _ _ _ _).and (storePut_returns o _ _ _ _)) ?_
          rintro outcome w₁ ⟨hinner, hstored⟩
          have hput := Frame.trans hcall (hinner.mono (fun key h => h ▸ hkey))
          cases outcome with
          | error e =>
              constructor
              · apply hput
              · intro entries h
                cases h
          | ok outcome =>
              rw [resume_ok]
              cases outcome with
              | error e =>
                  constructor
                  · apply hput
                  · intro entries h
                    cases h
              | ok _ =>
                  rw [orStoreError, after_bind, after_pure, resume_ok, after_bind]
                  have hstored := hstored _ rfl rfl
                  refine After.mono (ih w₁) ?_
                  rintro r w₂ ⟨hrest, hentries⟩
                  -- the files put later have other names
                  have hkept : w₂.store[dataKey base (o.uuid w.calls ++ ".parquet")]?
                      = some (.parquet file) := by
                    rw [hrest.store _ _, hstored]
                    rintro ⟨n, hn, heq⟩
                    rw [← dataKey_inj o heq] at hn
                    exact Nat.not_le_of_lt (Nat.lt_of_lt_of_le (Nat.lt_succ_self _) hinner.calls) hn
                  have hrest := hput.trans (hrest.mono (by
                    rintro key ⟨n, hn, rfl⟩
                    exact ⟨n, Nat.le_trans hput.calls hn, rfl⟩))
                  cases r with
                  | error e =>
                      constructor
                      · apply hrest
                      · intro entries h
                        cases h
                  | ok entries =>
                      constructor
                      · apply hrest
                      · rintro entries' ⟨⟩
                        have hrows : file.rows = bin.flatMap (·.rows) := by
                          rw [encodeParquetBatches] at hfile
                          split at hfile
                          · cases hfile
                            rfl
                          · cases hfile
                        constructor
                        · exact ⟨⟨w.calls, Nat.le_refl _, rfl⟩, file, hkept, hrows, rfl⟩
                        · refine (hentries _ rfl).imp ?_
                          rintro entry bin' ⟨⟨n, hn, hpath⟩, hbin⟩
                          exact ⟨⟨n, Nat.le_trans hput.calls hn, hpath⟩, hbin⟩

/-! ### The whole of it -/

/-- A table was compacted into some files: its batches are in bins that fit, and the manifest lists
the files of the bins. -/
def Compacted (x : Execution) (targetFileBytes : Nat) (before after : ObjectStore) (base : OPath)
    (written : Nat) : Prop :=
  ∃ m bins, after[manifestKey base]? = some (.manifest m) ∧ m.files.length = written
    ∧ bins.flatten = batchesOf before base (manifestEntries before base)
    ∧ (∀ bin ∈ bins, Fits (budgetOf x targetFileBytes (manifestEntries before base)
        (batchesOf before base (manifestEntries before base))) bin)
    ∧ List.Forall₂ (BinStored after base) m.files bins

theorem rowsOf_stored {store : ObjectStore} {base : OPath} {entries : List ManifestEntry}
    {bins : List (List RecordBatch)} (h : List.Forall₂ (BinStored store base) entries bins) :
  rowsOf store base entries = bins.flatten.flatMap (·.rows)
  := by
  induction h with
  | nil => rfl
  | cons hentry _ ih =>
      obtain ⟨file, hfile, hrows, -⟩ := hentry
      rw [rowsOf, List.flatMap_cons, fileAt_eq_some hfile, List.flatten_cons, List.flatMap_append,
        ← ih, ← hrows]
      rfl

/-- A compacted table has the rows it had. -/
theorem Compacted.rows {x : Execution} {targetFileBytes written : Nat} {before after : ObjectStore}
    {base : OPath} (h : Compacted x targetFileBytes before after base written) :
  listedRows after base = listedRows before base
  := by
  obtain ⟨m, bins, hm, -, hflatten, -, hstored⟩ := h
  have hentries : manifestEntries after base = m.files := by rw [manifestEntries, hm]
  rw [listedRows, hentries, rowsOf_stored hstored, hflatten, rows_batchesOf, listedRows]

section

variable (o : Outside)

/-- Replacing a manifest leaves the one there was or one that lists the new files, and the latter
when it succeeds. -/
theorem after_replaceManifest (base : OPath) (entries : List ManifestEntry) (w : World) :
  After (replaceManifest o base entries) w (fun r w' =>
    Frame (· = manifestKey base) w w'
      ∧ ((∃ m, w'.store[manifestKey base]? = some (.manifest m) ∧ m.files = entries)
        ∨ ((∃ e, r = .error e) ∧ w'.store[manifestKey base]? = w.store[manifestKey base]?)))
  := by
  have hkeeps : KeepsObjects (fun store =>
      (∃ m, store[manifestKey base]? = some (.manifest m) ∧ m.files = entries)
        ∨ store[manifestKey base]? = w.store[manifestKey base]?) (replaceManifest o base entries) := by
    apply casManifest_keepsObjects
    intro store m existing hm _
    refine .inl ⟨m, ?_, hm⟩
    exact (ObjectStore.get_insert _ _ _ _).trans (if_pos rfl)
  have hreturns : Returns (replaceManifest o base entries) w (fun _ w' => ∃ m existing,
      w'.store[manifestKey base]? = some (.manifest m) ∧ m.files = (fun _ => entries) existing) :=
    casManifest_returns o base (fun _ => entries) (by decide) w
  have hframe := casManifest_modifies o base (fun _ => entries) MAX_CAS_RETRIES w
  refine ⟨hframe, ?_⟩
  obtain hnew | hold := hkeeps w (.inr rfl)
  · exact .inl hnew
  · cases hr : (exec (replaceManifest o base entries) w).1 with
    | error e => exact .inr ⟨⟨e, rfl⟩, hold⟩
    | ok u =>
        obtain ⟨m, existing, hm, hfiles⟩ := hreturns u hr
        exact .inl ⟨m, hm, hfiles⟩

/-- Files of bins stay stored when their objects are not touched. -/
theorem binsStored_frame {touched : OPath → Prop} {base : OPath} {entries : List ManifestEntry}
    {bins : List (List RecordBatch)} {w w' : World} (hframe : Frame touched w w')
    (huntouched : ∀ entry ∈ entries, ¬ touched (entry.key base))
    (h : List.Forall₂ (BinStored w.store base) entries bins) :
  List.Forall₂ (BinStored w'.store base) entries bins
  := by
  induction h with
  | nil => exact .nil
  | cons hentry _ ih =>
      rw [List.forall_mem_cons] at huntouched
      obtain ⟨file, hfile, hrows⟩ := hentry
      refine .cons ⟨file, ?_, hrows⟩ (ih huntouched.2)
      rw [hframe.store _ huntouched.1, hfile]

/-- Once the files of the bins are stored, the manifest lists them, or replacing it failed. -/
theorem after_commitBins {base : OPath} {entries : List ManifestEntry}
    {bins : List (List RecordBatch)} {w : World}
    (hpaths : ∀ entry ∈ entries, ∃ n, entry.path = ["data", o.uuid n ++ ".parquet"])
    (hstored : List.Forall₂ (BinStored w.store base) entries bins) :
  After (do
      replaceManifest o base entries
      let _ ← vacuumOrphans o base
      return entries.length) w (fun r w' =>
    (w'.store[manifestKey base]? = w.store[manifestKey base]? ∧ ∃ e, r = .error e)
      ∨ ((∃ m, w'.store[manifestKey base]? = some (.manifest m) ∧ m.files = entries)
        ∧ List.Forall₂ (BinStored w'.store base) entries bins
        ∧ ∀ k, r = .ok k → k = entries.length))
  := by
  have hdata : ∀ entry ∈ entries, entry.key base ≠ manifestKey base := by
    intro entry hentry heq
    obtain ⟨n, hn⟩ := hpaths entry hentry
    rw [ManifestEntry.key, hn] at heq
    simp [manifestKey] at heq
  rw [after_bind]
  refine After.mono (after_replaceManifest o base entries w) ?_
  rintro r w₁ ⟨hframe, ⟨m, hm, hfiles⟩ | ⟨⟨e, rfl⟩, hold⟩⟩
  · have hstored₁ := binsStored_frame hframe hdata hstored
    cases r with
    | error e => exact .inr ⟨⟨m, hm, hfiles⟩, hstored₁, fun k hk => by cases hk⟩
    | ok u =>
        rw [resume_ok, after_bind]
        refine After.mono (after_vacuumOrphans o base w₁) ?_
        intro r w₂ hvacuum
        have hm₂ : w₂.store[manifestKey base]? = some (.manifest m) := by
          rw [hvacuum.store _ (fun h => not_vacuumable_manifestKey base base h.1), hm]
        have hstored₂ : List.Forall₂ (BinStored w₂.store base) entries bins := by
          apply binsStored_frame hvacuum _ hstored₁
          rintro entry hentry ⟨-, hlisted⟩
          apply hlisted m hm
          rw [hfiles, ManifestEntry.key, List.drop_left]
          exact List.mem_map_of_mem hentry
        cases r with
        | error e => exact .inr ⟨⟨m, hm₂, hfiles⟩, hstored₂, fun k hk => by cases hk⟩
        | ok vacuumed =>
            refine .inr ⟨⟨m, hm₂, hfiles⟩, hstored₂, ?_⟩
            rintro k ⟨⟩
            rfl
  · exact .inl ⟨hold, e, rfl⟩

/-- A compaction leaves the manifest as it was, or leaves the table compacted. -/
theorem after_compactTable (x : Execution) (hfound : ∀ n, o.storeError n ≠ some .notFound)
    {base : OPath} (targetFileBytes minFileCount : Nat) {w : World}
    (hreadable : Readable w.store base (manifestEntries w.store base)) :
  After (compactTable o x base targetFileBytes minFileCount) w (fun r w' =>
    (w'.store[manifestKey base]? = w.store[manifestKey base]?
        ∧ ∀ n, r = .ok n → n = 0 ∧ w'.store = w.store)
      ∨ ∃ n, Compacted x targetFileBytes w.store w'.store base n ∧ ∀ k, r = .ok k → k = n)
  := by
  rw [compactTable, after_bind]
  refine After.mono ((readManifest_modifies o (fun _ => False) base w).and
    (readManifest_returns o base w)) ?_
  rintro r w₁ ⟨hframe, hread⟩
  have hunchanged := hframe.store_eq
  cases r with
  | error e => exact .inl ⟨by rw [hunchanged], fun n h => by cases h⟩
  | ok read =>
      rw [resume_ok]
      cases read with
      | none =>
          rw [after_pure]
          refine .inl ⟨by rw [hunchanged], ?_⟩
          rintro n ⟨⟩
          exact ⟨rfl, hunchanged⟩
      | some m =>
          have hm := hread _ rfl m rfl
          have hentries : manifestEntries w.store base = m.files := by rw [manifestEntries, hm]
          dsimp only
          rw [hentries, ← hunchanged] at hreadable
          rw [after_ite]
          refine ⟨fun _ => ?_, fun _ => ?_⟩
          · rw [after_pure]
            refine .inl ⟨by rw [hunchanged], ?_⟩
            rintro n ⟨⟩
            exact ⟨rfl, hunchanged⟩
          · rw [after_bind]
            have hread₂ := readListedBatches_returns hfound hreadable
            refine After.mono ((readListedBatches_modifies o (fun _ => False) m.files w₁).and
              hread₂) ?_
            rintro r w₂ ⟨hframe₂, hbatches⟩
            have hunchanged₂ := hframe₂.store_eq.trans hunchanged
            cases r with
            | error e => exact .inl ⟨by rw [hunchanged₂], fun n h => by cases h⟩
            | ok batches =>
                obtain ⟨-, rfl⟩ := hbatches batches rfl
                rw [resume_ok]
                rw [hunchanged]
                cases hbatches : batchesOf w.store base m.files with
                | nil =>
                    rw [after_pure]
                    refine .inl ⟨by rw [hunchanged₂], ?_⟩
                    rintro n ⟨⟩
                    exact ⟨rfl, hunchanged₂⟩
                | cons first rest =>
                    dsimp only
                    rw [← hbatches, after_bind]
                    refine After.mono (after_putBins o base first.schema _ w₂) ?_
                    rintro r w₃ ⟨hframe₃, hentries₃⟩
                    have hmanifest₃ : w₃.store[manifestKey base]? = w.store[manifestKey base]? := by
                      rw [hframe₃.store, hunchanged₂]
                      rintro ⟨n, -, heq⟩
                      simp [dataKey, manifestKey] at heq
                    cases r with
                    | error e => exact .inl ⟨hmanifest₃, fun n h => by cases h⟩
                    | ok entries =>
                        have hput := hentries₃ entries rfl
                        have hpaths : ∀ entry ∈ entries,
                            ∃ n, entry.path = ["data", o.uuid n ++ ".parquet"] := by
                          intro entry hentry
                          obtain ⟨bin, -, ⟨n, -, hpath⟩, -⟩ := hput.exists_mem hentry
                          exact ⟨n, hpath⟩
                        rw [resume_ok]
                        refine After.mono (after_commitBins o hpaths
                          (hput.imp (fun _ _ h => h.2))) ?_
                        rintro r w₄ (⟨hold, e, rfl⟩ | ⟨⟨m', hm', hfiles⟩, hstored, hlength⟩)
                        · exact .inl ⟨hold.trans hmanifest₃, fun n h => by cases h⟩
                        · have hspec := binBatches_spec (budgetOf x targetFileBytes m.files
                            (batchesOf w.store base m.files)) (batchesOf w.store base m.files) [] 0
                            rfl (fun h => absurd rfl h)
                          refine .inr ⟨entries.length, ⟨m',
                            binBatches (budgetOf x targetFileBytes m.files
                              (batchesOf w.store base m.files)) [] 0
                              (batchesOf w.store base m.files),
                            hm', by rw [hfiles], ?_, ?_, ?_⟩, hlength⟩
                          · rw [hentries]
                            exact hspec.1
                          · rw [hentries]
                            exact hspec.2
                          · rw [hfiles]
                            exact hstored

end

/-- A table of two files, with the row 1 in one and the row 2 in the other. -/
def twoFiles : World :=
  let entry (name : String) : ManifestEntry := { path := ["data", name], size := 0, rowCount := 1 }
  let file (k : Int) : Obj :=
    .parquet { schema := [⟨"k", .int64, true⟩], rows := [[some (.integer k)]] }
  { World.bootstrap with
    store := ((World.bootstrap.store.insert ["t", "data", "0.parquet"] (file 1)).insert
      ["t", "data", "1.parquet"] (file 2)).insert (manifestKey ["t"])
        (.manifest { snapshotId := "", createdAtMs := 0
                     files := [entry "0.parquet", entry "1.parquet"] }) }

end Compaction
