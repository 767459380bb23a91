import AnalyticsDB.Storage.Success
import AnalyticsDB.Engine.FileListCache

/-!
# Distributed inserts and the manifest

The workers of a distributed insert write their files directly below the path of the
table.  A table with a manifest has the files its manifest lists, so an insert is visible
when the manifest lists the files of the workers that were heard of.  The coordinator
never writes the manifest: what is listed after a distributed insert is what was listed
before, whether the insert succeeds or not.
-/

section

open Eff

/-- Listing the files of the table at `base`, when the store answers, gives `files`. -/
def ListsTo (w : World) (base : OPath) (files : List OPath) : Prop :=
  Succeeds (listFiles .faultless base) w (fun listed _ => listed = files)

/-- The files the workers of an attempt write. -/
def attemptFiles (workers : List WorkerRun) : List RecordBatch := workers.flatMap (·.files)

/-- The number of rows the workers of an attempt write. -/
def attemptRows (workers : List WorkerRun) : Nat :=
  ((attemptFiles workers).map (·.rows.length)).sum

/-- Whether the coordinator hears of every worker of an attempt. -/
def allAcknowledged (workers : List WorkerRun) : Bool := workers.all (·.acknowledged)

/-- The files at `keys` are those of an attempt whose workers were all heard of, each of them
once, with `rowCount` rows in total. -/
structure AcknowledgedFiles (attempts : List (Except String (List WorkerRun))) (w : World)
    (keys : List OPath) (rowCount : Nat) : Prop where
  attempt : ∃ workers, .ok workers ∈ attempts ∧ allAcknowledged workers
    ∧ attemptRows workers = rowCount
    ∧ List.Forall₂ (fun key file => w.store[key]? = some (.parquet file)) keys
        (attemptFiles workers)
  once : keys.Nodup

/-- A distributed insert is visible when it succeeds, and only then: the files of the workers are
listed besides those listed before, and those listed before are all when it does not succeed. -/
def InsertVisible (o : Outside) (df : DataFusion) (session : SessionContext)
    (relation : CatalogRelation) (base : OPath) (attempts : List (Except String (List WorkerRun)))
    (s : EngineState) : Prop :=
  ∀ before, ListsTo s.world base before →
    After (runDistributedInsert o df session relation base 3 1 attempts) s (fun r s' =>
      match r with
      | .ok (some outcome) => ∃ keys listed,
          AcknowledgedFiles attempts s'.world keys outcome.rowCount
            ∧ ListsTo s'.world base listed ∧ listed.Perm (before ++ keys.map localKey)
      | _ => ListsTo s'.world base before)

/-- The first attempt whose workers are all heard of, if there is one among those that are made,
has no file to write. -/
def NothingWritten : Nat → List (Except String (List WorkerRun)) → Prop
  | remaining + 1, .ok workers :: attempts =>
    if allAcknowledged workers then attemptFiles workers = []
    else NothingWritten remaining attempts
  | _, _ => True

/-- Every file of a worker has a row, as the workers write no other. -/
def FilesHaveRows (attempts : List (Except String (List WorkerRun))) : Prop :=
  ∀ workers, .ok workers ∈ attempts → ∀ file ∈ attemptFiles workers, file.rows ≠ []

/-- A table with a manifest has the files the manifest lists. -/
theorem lists_iff_of_manifest {w : World} {base : OPath} {manifest : Manifest}
    (h : w.store[manifestKey base]? = some (.manifest manifest)) (files : List OPath) :
  ListsTo w base files ↔ manifest.files.map (fun entry => localKey (entry.key base)) = files
  := by
  have hread : Succeeds (listFiles .faultless base) w (fun listed _ =>
      listed = manifest.files.map (fun entry => localKey (entry.key base))) := by
    rw [listFiles, readManifest, succeeds_bind, succeeds_bind]
    refine Succeeds.mono (readManifestVersioned_succeeds (m := some manifest) (fun _ => rfl) h) ?_
    rintro _ w' ⟨rfl, -⟩
    dsimp only
    rw [succeeds_pure, succeeds_pure]
  obtain ⟨listed, hlisted, rfl⟩ := hread
  constructor
  · rintro ⟨other, hother, rfl⟩
    rw [hlisted] at hother
    cases hother
    rfl
  · rintro rfl
    exact ⟨_, hlisted, rfl⟩

theorem ListsTo.of_manifest_eq {w w' : World} {base : OPath} {files : List OPath}
    {manifest : Manifest} (h : ListsTo w base files)
    (hmanifest : w.store[manifestKey base]? = some (.manifest manifest))
    (hsame : w'.store[manifestKey base]? = w.store[manifestKey base]?) :
  ListsTo w' base files
  := by
  rw [lists_iff_of_manifest hmanifest] at h
  rw [lists_iff_of_manifest (hsame.trans hmanifest)]
  exact h

/-- No file of a worker and no object of an index is the manifest. -/
theorem not_insertKey_manifestKey (base : OPath) :
  ¬ InsertKey base (manifestKey base)
  := by
  rintro (⟨fileName, h⟩ | ⟨rest, h⟩)
  · simp [manifestKey] at h
  · simp [manifestKey] at h

variable {o : Outside} {df : DataFusion} {session : SessionContext}

/-! ### One attempt -/

/-- The coordinator knows of a complete attempt only when it heard of every worker. -/
theorem dispatchWorkers_complete {base : OPath} {attempt : String} (workers : List WorkerRun)
    (w : World) :
  Returns (dispatchWorkers o base attempt workers) w (fun dispatched _ =>
    dispatched.2 = true → allAcknowledged workers = true)
  := by
  induction workers generalizing w with
  | nil => simp [dispatchWorkers, allAcknowledged]
  | cons worker workers ih =>
      rw [dispatchWorkers, returns_bind]
      apply Returns.of_forall
      intro written w₁
      rw [returns_bind]
      refine Returns.mono (ih w₁) ?_
      rintro ⟨keys, complete⟩ w₂ hcomplete
      dsimp only
      split
      · rename_i hacknowledged
        rw [returns_pure]
        intro h
        have hrest : workers.all (·.acknowledged) = true := hcomplete h
        rw [allAcknowledged, List.all_cons, hacknowledged, hrest]
        rfl
      · rw [returns_pure]
        intro h
        cases h

/-- Workers without files that are heard of complete their attempt. -/
theorem dispatchWorkers_nothing {base : OPath} {attempt : String} {workers : List WorkerRun}
    (hacknowledged : allAcknowledged workers = true) (hfiles : attemptFiles workers = [])
    (w : World) :
  Returns (dispatchWorkers o base attempt workers) w (fun dispatched _ => dispatched.2 = true)
  := by
  induction workers generalizing w with
  | nil => simp [dispatchWorkers]
  | cons worker workers ih =>
      simp only [attemptFiles, List.flatMap_cons, List.append_eq_nil_iff] at hfiles
      simp only [allAcknowledged, List.all_cons, Bool.and_eq_true] at hacknowledged
      rw [dispatchWorkers, hfiles.1, writeWorkerFiles, returns_bind, returns_pure, returns_bind]
      refine Returns.mono (ih hacknowledged.2 hfiles.2 w) ?_
      rintro ⟨keys, complete⟩ w' rfl
      simp [hacknowledged.1]

/-- An attempt that succeeds inserts the rows of its workers, which were all heard of. -/
theorem distributeInsert_returns (relation : CatalogRelation) (base : OPath) (attemptId : String)
    (workers : List WorkerRun) (w : World) :
  Returns (distributeInsert o df session relation base attemptId workers) w (fun r _ =>
    ∀ rowCount, r = some rowCount →
      allAcknowledged workers = true ∧ attemptRows workers = rowCount)
  := by
  rw [distributeInsert, returns_bind]
  refine Returns.mono (dispatchWorkers_complete workers w) ?_
  rintro ⟨written, complete⟩ w₁ hcomplete
  dsimp only
  rw [returns_ite]
  constructor
  · intro hdone
    rw [returns_bind, returns_attempt]
    refine After.mono (Q := fun _ _ => True) trivial ?_
    intro valid w₂ _
    cases valid with
    | error e =>
        dsimp only
        rw [returns_bind]
        exact Returns.of_forall (fun _ _ => returns_throw _ _ _)
    | ok _ =>
        dsimp only
        rw [returns_bind]
        apply Returns.of_forall
        intro _ w₃
        rw [returns_pure]
        rintro rowCount ⟨⟩
        exact ⟨hcomplete hdone, rfl⟩
  · intro _
    rw [returns_bind]
    apply Returns.of_forall
    intro _ w₂
    rw [returns_pure]
    intro rowCount h
    cases h

/-- An attempt with nothing to write is not tried again. -/
theorem distributeInsert_nothing (relation : CatalogRelation) (base : OPath) (attemptId : String)
    {workers : List WorkerRun} (hacknowledged : allAcknowledged workers = true)
    (hfiles : attemptFiles workers = []) (w : World) :
  Returns (distributeInsert o df session relation base attemptId workers) w (fun r _ => r ≠ none)
  := by
  rw [distributeInsert, returns_bind]
  refine Returns.mono (dispatchWorkers_nothing hacknowledged hfiles w) ?_
  rintro ⟨written, complete⟩ w₁ rfl
  dsimp only
  rw [if_pos rfl, returns_bind, returns_attempt]
  refine After.mono (Q := fun _ _ => True) trivial ?_
  intro valid w₂ _
  cases valid with
  | error e =>
      dsimp only
      rw [returns_bind]
      exact Returns.of_forall (fun _ _ => returns_throw _ _ _)
  | ok _ =>
      dsimp only
      rw [returns_bind]
      apply Returns.of_forall
      intro _ w₃
      rw [returns_pure]
      rintro ⟨⟩

/-- What an attempt leaves and returns: the manifest as it was, the rows of its workers, which were
all heard of, and nothing only when there was something to write or a worker failed. -/
theorem after_distributeInsert {relation : CatalogRelation} {base : OPath}
    (hbase : relation.base? o = some base) (attemptId : String) (workers : List WorkerRun)
    (w : World) :
  After (distributeInsert o df session relation base attemptId workers) w (fun r w' =>
    w'.store[manifestKey base]? = w.store[manifestKey base]?
      ∧ (∀ rowCount, r = .ok (some rowCount) →
          allAcknowledged workers = true ∧ attemptRows workers = rowCount)
      ∧ (r = .ok none → allAcknowledged workers = true → attemptFiles workers ≠ []))
  := by
  refine ⟨?_, ?_, ?_⟩
  · apply (distributeInsert_modifies hbase attemptId workers w).store
    apply not_insertKey_manifestKey
  · intro rowCount h
    exact distributeInsert_returns relation base attemptId workers w _ h rowCount rfl
  · intro h hacknowledged hfiles
    exact distributeInsert_nothing relation base attemptId hacknowledged hfiles w _ h rfl

/-! ### All attempts -/

/-- A distributed insert leaves the manifest as it is.  When no attempt with a file can succeed,
the rows it reports are those of an attempt without files. -/
theorem after_runDistributedInsert_manifest {relation : CatalogRelation} {base : OPath}
    (hbase : relation.base? o = some base) (remaining attemptNumber : Nat)
    (attempts : List (Except String (List WorkerRun))) (s : EngineState) :
  After (runDistributedInsert o df session relation base remaining attemptNumber attempts) s
    (fun r s' => s'.world.store[manifestKey base]? = s.world.store[manifestKey base]?
      ∧ (NothingWritten remaining attempts → ∀ outcome, r = .ok (some outcome) →
        ∃ workers, .ok workers ∈ attempts ∧ allAcknowledged workers = true
          ∧ attemptRows workers = outcome.rowCount ∧ attemptFiles workers = []))
  := by
  induction remaining generalizing s attemptNumber attempts with
  | zero =>
      unfold runDistributedInsert
      refine ⟨rfl, ?_⟩
      rintro - _ ⟨⟩
  | succ remaining ih =>
      rcases attempts with _ | ⟨message | _ | ⟨worker, workers⟩, attempts⟩
      · refine ⟨rfl, ?_⟩
        rintro - _ ⟨⟩
      · change After (onWorld (bail message)) s _
        rw [after_onWorld]
        refine ⟨rfl, ?_⟩
        rintro - _ ⟨⟩
      · refine ⟨rfl, ?_⟩
        rintro - _ ⟨⟩
      · rw [runDistributedInsert, after_bind, after_onWorld, after_outsideCall, resume_ok,
          after_bind, after_onWorld]
        apply After.mono (after_distributeInsert hbase _ _ _)
        rintro r w₁ ⟨hsame, hrows, hagain⟩
        rw [NothingWritten]
        cases r with
        | error e =>
            refine ⟨hsame, ?_⟩
            rintro - _ ⟨⟩
        | ok outcome =>
            rw [resume_ok]
            cases outcome with
            | none =>
                apply After.mono (ih _ _ _)
                rintro r s' ⟨hsame', hmade⟩
                refine ⟨hsame'.trans hsame, ?_⟩
                intro hnothing outcome houtcome
                -- an attempt that is tried again had a worker that was not heard of
                rw [if_neg] at hnothing
                · obtain ⟨made, hmem, hrest⟩ := hmade hnothing outcome houtcome
                  exact ⟨made, List.mem_cons_of_mem _ hmem, hrest⟩
                · intro hacknowledged
                  rw [if_pos hacknowledged] at hnothing
                  exact hagain rfl hacknowledged hnothing
            | some rowCount =>
                obtain ⟨hacknowledged, hcount⟩ := hrows rowCount rfl
                dsimp only
                rw [after_bind, invalidateFileList, after_modify, resume_ok, after_pure]
                refine ⟨hsame, ?_⟩
                rintro hnothing _ ⟨⟩
                rw [if_pos hacknowledged] at hnothing
                exact ⟨_, List.mem_cons_self, hacknowledged, hcount, hnothing⟩

/-- An insert with nothing to write is visible in every table with a manifest. -/
theorem insertVisible_of_nothingWritten {relation : CatalogRelation} {base : OPath}
    (hbase : relation.base? o = some base) {attempts : List (Except String (List WorkerRun))}
    (hnothing : NothingWritten 3 attempts) {s : EngineState} {manifest : Manifest}
    (hmanifest : s.world.store[manifestKey base]? = some (.manifest manifest)) :
  InsertVisible o df session relation base attempts s
  := by
  intro before hbefore
  apply After.mono (after_runDistributedInsert_manifest hbase 3 1 attempts s)
  rintro r s' ⟨hsame, hmade⟩
  have hafter : ListsTo s'.world base before := hbefore.of_manifest_eq hmanifest hsame
  rcases r with e | _ | outcome
  · exact hafter
  · exact hafter
  · obtain ⟨workers, hmem, hacknowledged, hcount, hfiles⟩ := hmade hnothing outcome rfl
    refine ⟨[], before, ⟨⟨workers, hmem, hacknowledged, hcount, ?_⟩, List.nodup_nil⟩, hafter, ?_⟩
    · rw [hfiles]
      exact .nil
    · simp

/-! ### Inserts in which no call fails -/

section

variable (hstore : ∀ n, o.storeError n = none)

include hstore

theorem writeWorkerFiles_succeeds (base : OPath) (attempt : String) (files : List RecordBatch)
    (w : World) :
  Succeeds (writeWorkerFiles o base attempt files) w (fun written _ => ∃ keys, written = .ok keys)
  := by
  induction files generalizing w with
  | nil =>
      rw [writeWorkerFiles, succeeds_pure]
      exact ⟨[], rfl⟩
  | cons file files ih =>
      rw [writeWorkerFiles, succeeds_bind, succeeds_outsideCall, succeeds_bind]
      refine Succeeds.mono (storePut_overwrite_succeeds hstore _ _ _) ?_
      rintro _ w₁ ⟨rfl, -⟩
      dsimp only
      rw [succeeds_bind]
      refine Succeeds.mono (ih w₁) ?_
      rintro _ w₂ ⟨keys, rfl⟩
      dsimp only
      rw [succeeds_pure]
      exact ⟨_, rfl⟩

theorem dispatchWorkers_succeeds (base : OPath) (attempt : String) (workers : List WorkerRun)
    (w : World) :
  Succeeds (dispatchWorkers o base attempt workers) w (fun dispatched _ =>
    dispatched.2 = allAcknowledged workers)
  := by
  induction workers generalizing w with
  | nil =>
      rw [dispatchWorkers, succeeds_pure]
      rfl
  | cons worker workers ih =>
      rw [dispatchWorkers, succeeds_bind]
      refine Succeeds.mono (writeWorkerFiles_succeeds hstore base attempt worker.files w) ?_
      rintro _ w₁ ⟨written, rfl⟩
      rw [succeeds_bind]
      refine Succeeds.mono (ih w₁) ?_
      rintro ⟨keys, complete⟩ w₂ hcomplete
      replace hcomplete : complete = allAcknowledged workers := hcomplete
      have hall : allAcknowledged (worker :: workers) = (worker.acknowledged && complete) := by
        rw [hcomplete]
        rfl
      rw [hall]
      cases worker.acknowledged with
      | true =>
          dsimp only
          rw [succeeds_pure]
          rfl
      | false =>
          dsimp only
          rw [succeeds_pure]
          rfl

/-- In a table without indexes, an attempt succeeds when its workers are heard of. -/
theorem distributeInsert_succeeds {relation : CatalogRelation} (hindexes : relation.indexes = [])
    (base : OPath) (attemptId : String) (workers : List WorkerRun) (w : World) :
  Succeeds (distributeInsert o df session relation base attemptId workers) w (fun r _ =>
    r = if allAcknowledged workers then some (attemptRows workers) else none)
  := by
  rw [distributeInsert, succeeds_bind]
  refine Succeeds.mono (dispatchWorkers_succeeds hstore base attemptId workers w) ?_
  rintro ⟨written, complete⟩ w₁ rfl
  dsimp only
  rw [succeeds_ite, hindexes, validateUniquenessAcrossNewFiles]
  constructor
  · intro hacknowledged
    rw [if_pos hacknowledged, refreshIndexSnapshotsAfterMutation, hindexes]
    exact ⟨_, rfl, rfl⟩
  · intro hacknowledged
    rw [if_neg hacknowledged]
    exact ⟨_, rfl, rfl⟩

/-- In a table without indexes, the first attempt whose workers are all heard of succeeds. -/
theorem runDistributedInsert_succeeds {relation : CatalogRelation}
    (hindexes : relation.indexes = [])
    (base : OPath) (remaining attemptNumber : Nat)
    (attempts : List (Except String (List WorkerRun)))
    (hwritten : ¬ NothingWritten remaining attempts) (s : EngineState) :
  Succeeds (runDistributedInsert o df session relation base remaining attemptNumber attempts) s
    (fun r _ => ∃ outcome workers, r = some outcome ∧ .ok workers ∈ attempts
      ∧ attemptRows workers = outcome.rowCount ∧ attemptFiles workers ≠ [])
  := by
  induction remaining generalizing s attemptNumber attempts with
  | zero => exact absurd trivial hwritten
  | succ remaining ih =>
      rcases attempts with _ | ⟨message | _ | ⟨worker, workers⟩, attempts⟩
      · exact absurd trivial hwritten
      · exact absurd trivial hwritten
      · exact absurd rfl hwritten
      · have hattempt := @distributeInsert_succeeds o df session hstore relation hindexes
          base (o.uuid s.world.calls) (worker :: workers)
          { s.world with calls := s.world.calls + 1 }
        rw [Succeeds, runDistributedInsert, after_bind, after_onWorld, after_outsideCall,
          resume_ok, after_bind, after_onWorld]
        apply After.mono hattempt
        rintro _ w₁ ⟨_, rfl, rfl⟩
        rw [resume_ok]
        rw [NothingWritten] at hwritten
        by_cases hacknowledged : allAcknowledged (worker :: workers) = true
        · rw [if_pos hacknowledged] at hwritten ⊢
          exact ⟨_, rfl, _, _, rfl, List.mem_cons_self, rfl, hwritten⟩
        · rw [if_neg hacknowledged] at hwritten ⊢
          obtain ⟨r, hr, outcome, made, rfl, hmem, hrest⟩ := ih (attemptNumber + 1) attempts
            hwritten { s with world := w₁ }
          exact ⟨_, hr, outcome, made, rfl, List.mem_cons_of_mem _ hmem, hrest⟩

/-- In a table without indexes, an insert with something to write is not visible. -/
theorem not_insertVisible_of_written {relation : CatalogRelation} {base : OPath}
    (hbase : relation.base? o = some base) (hindexes : relation.indexes = [])
    {attempts : List (Except String (List WorkerRun))} (hrows : FilesHaveRows attempts)
    (hwritten : ¬ NothingWritten 3 attempts) {s : EngineState} {manifest : Manifest}
    (hmanifest : s.world.store[manifestKey base]? = some (.manifest manifest)) :
  ¬ InsertVisible o df session relation base attempts s
  := by
  intro hvisible
  have hbefore := (lists_iff_of_manifest hmanifest _).mpr rfl
  have hsame := (@after_runDistributedInsert_manifest o df session relation base hbase 3 1 attempts
    s).1
  obtain ⟨_, hreturned, outcome, workers, rfl, hmem, hcount, hfiles⟩ :=
    @runDistributedInsert_succeeds o df session hstore relation hindexes base 3 1
      attempts hwritten s
  replace hvisible := hvisible _ hbefore
  rw [After, hreturned] at hvisible
  obtain ⟨keys, listed, ⟨⟨accepted, -, -, haccepted, hstored⟩, -⟩, hlisted, hperm⟩ := hvisible
  -- what is listed did not change, so the accepted attempt has no file
  rw [lists_iff_of_manifest (hsame.trans hmanifest)] at hlisted
  have hkeys : keys = [] := by
    have hlength := hperm.length_eq
    rw [← hlisted] at hlength
    simpa using hlength
  have hnone : attemptFiles accepted = [] := by
    rw [hkeys] at hstored
    exact List.forall₂_nil_left_iff.mp hstored
  -- but it has as many rows as the attempt that was made, which has a file
  obtain ⟨file, hfile⟩ := List.exists_mem_of_ne_nil _ hfiles
  have hpositive : 0 < attemptRows workers := by
    apply List.sum_pos_iff_exists_pos_nat.mpr
    exact ⟨_, List.mem_map_of_mem hfile,
      List.length_pos_of_ne_nil (hrows workers hmem file hfile)⟩
  rw [hcount, ← haccepted, attemptRows, hnone] at hpositive
  exact absurd hpositive (by simp)

end

theorem sampleEngine_manifest :
  ∃ manifest, sampleEngine.world.store[manifestKey
    ["file://", "d", "db=postgres", "schema=public", "table=t"]]? = some (.manifest manifest)
  := by
  simp only [sampleEngine, samplePlacedWorld, World.withTable, ObjectStore.get_insert, if_true]
  exact ⟨_, rfl⟩

/-- A worker's file with one row. -/
def workerFile : RecordBatch :=
  { schema := [⟨"k", .int64, true⟩, rowIdField]
    rows := [[some (.integer 7), some (.text "d")]] }

/-- A worker fails in the first attempt, and no worker is left in the second. -/
def failingAttempts : List (Except String (List WorkerRun)) :=
  [.ok [⟨[workerFile], true⟩, ⟨[workerFile], false⟩], .ok []]

/-- A worker inserts a row, and is heard of. -/
def workingAttempts : List (Except String (List WorkerRun)) := [.ok [⟨[workerFile], true⟩]]

end
