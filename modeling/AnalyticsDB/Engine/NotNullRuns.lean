import AnalyticsDB.Engine.ColumnTypes
import AnalyticsDB.Engine.DistributedInsert
import AnalyticsDB.Engine.NotNull
import AnalyticsDB.Storage.Interference

/-!
# Runs of statements that keep NOT NULL columns free of NULL

Every statement changes objects of the table it names, and keeps its NOT NULL columns free of
NULL, unless it brings one in: an `UPDATE` or an `INSERT` of a query whose rows have it, or an
`ALTER TABLE` that makes a column NOT NULL whose stored rows have it.
-/

section

variable (o : Outside) (df : DataFusion) (x : Execution)

/-- What a statement on the table with the key `key` keeps: the catalogue, the objects of other
tables, and that the NOT NULL columns of the table are free of NULL. -/
structure NullsKept (key : String) (w w' : World) : Prop where
  frame : Frame (fun object => ∃ relation base, TableAt o w key relation base ∧ base <+: object) w
    w'
  target : ∀ relation base, TableAt o w key relation base →
    NoNulls relation.notNullColumns base w.store → NoNulls relation.notNullColumns base w'.store

/-- The tables are apart, their columns have distinct names, and the NOT NULL columns are free of
NULL. -/
structure NullFree (w : World) : Prop where
  spread : (recorded o w.catalog.relations).Spread
  distinct : ∀ (key : String) (relation : CatalogRelation),
    w.catalog.relations[key]? = some relation → (relation.columns.map (·.name)).Nodup
  noNulls : ∀ key relation base, TableAt o w key relation base →
    NoNulls relation.notNullColumns base w.store

end

section

open Eff

variable {o : Outside} {df : DataFusion} {x : Execution} {session : SessionContext}
  {database schema : Option String} {name key : String} {w w' : World}

theorem NullsKept.refl (key : String) (w : World) :
  NullsKept o key w w
  := ⟨Frame.refl _ _, fun _ _ _ h => h⟩

theorem NullsKept.trans {w₁ w₂ : World} (h : NullsKept o key w w₁) (h' : NullsKept o key w₁ w₂) :
  NullsKept o key w w₂
  := by
  have hat : ∀ relation base, TableAt o w₁ key relation base ↔ TableAt o w key relation base := by
    intro relation base
    constructor
    · rintro ⟨hfound, hlocated⟩
      rw [h.frame.catalog] at hfound
      exact ⟨hfound, hlocated⟩
    · rintro ⟨hfound, hlocated⟩
      rw [← h.frame.catalog] at hfound
      exact ⟨hfound, hlocated⟩
  constructor
  · apply h.frame.trans
    apply h'.frame.mono
    rintro object ⟨relation, base, htable, hbelow⟩
    exact ⟨relation, base, (hat relation base).mp htable, hbelow⟩
  · intro relation base htable hbefore
    exact h'.target relation base ((hat relation base).mpr htable)
      (h.target relation base htable hbefore)

/-- A change of nothing that a table consists of. -/
theorem nullsKept_of_untouched (key : String) (h : Frame (fun _ => False) w w') :
  NullsKept o key w w'
  := by
  constructor
  · exact h.mono (fun _ hfalse => hfalse.elim)
  · intro relation base _ hbefore
    rw [h.store_eq]
    exact hbefore

/-- A change of the objects of a table that keeps its NOT NULL columns free of NULL. -/
theorem nullsKept_of_frame {relation : CatalogRelation} {base : OPath}
    (hat : TableAt o w key relation base) (hframe : Frame (base <+: ·) w w')
    (hkeeps : NoNulls relation.notNullColumns base w.store →
      NoNulls relation.notNullColumns base w'.store) :
  NullsKept o key w w'
  := by
  constructor
  · exact hframe.mono (fun object hbelow => ⟨relation, base, hat, hbelow⟩)
  · intro other path hother
    obtain ⟨rfl, rfl⟩ := hat.unique hother
    exact hkeeps

/-- The objects of a table besides its manifest and its data files. -/
theorem nullsKept_of_indexFrame {relation : CatalogRelation} {base : OPath}
    (hat : TableAt o w key relation base) (hframe : Frame (IndexKey base) w w') :
  NullsKept o key w w'
  := by
  apply nullsKept_of_frame hat (hframe.mono (fun _ => indexKey_below))
  intro h
  apply h.of_frame hframe
  · simp [IndexKey, manifestKey]
  · simp [IndexKey, dataKey]

theorem TableAt.of_kept {relation : CatalogRelation} {base : OPath} (h : NullsKept o key w w')
    (hat : TableAt o w key relation base) :
  TableAt o w' key relation base
  := by
  refine ⟨?_, hat.located⟩
  rw [h.frame.catalog]
  exact hat.found

/-- A statement keeps the invariant. -/
theorem NullFree.of_kept (h : NullFree o w) (hkept : NullsKept o key w w') :
  NullFree o w'
  := by
  have hcatalog := hkept.frame.catalog
  constructor
  · rw [hcatalog]
    exact h.spread
  · rw [hcatalog]
    exact h.distinct
  · rintro other relation base ⟨hfound, hlocated⟩
    rw [hcatalog] at hfound
    have hat : TableAt o w other relation base := ⟨hfound, hlocated⟩
    have hbefore := h.noNulls other relation base hat
    by_cases hkey : other = key
    · subst hkey
      exact hkept.target relation base hat hbefore
    · -- the objects of the other tables are not touched
      have hapart : ∀ rest, ¬ ∃ target path, TableAt o w key target path
          ∧ path <+: base ++ rest := by
        rintro rest ⟨target, path, htarget, hbelow⟩
        have h := h.spread other key base path hkey
          (by rw [recorded_of_found hfound, hlocated])
          (by rw [recorded_of_found htarget.found, htarget.located])
        exact h.not_below (List.prefix_append _ _) hbelow
      exact hbefore.of_frame hkept.frame (hapart _) (fun fileName => hapart _)

/-- A statement that resolves its table and then changes objects of it. -/
theorem onTable_kept {α : Type} {body : CatalogRelation → OPath → Op α}
    (hbody : ∀ relation base, TableAt o w (namedKey session database schema name) relation base →
      (exec (tableRelation session database schema name) w).1 = .ok relation →
      (exec (tableStorePrefix o relation) w).1 = .ok base →
      After (body relation base) w (fun _ w' =>
        NullsKept o (namedKey session database schema name) w w')) :
  After (do
    let relation ← tableRelation session database schema name
    let base ← tableStorePrefix o relation
    body relation base) w (fun _ w' =>
      NullsKept o (namedKey session database schema name) w w')
  := by
  rw [after_bind]
  refine After.mono ((after_tableRelation database schema name).and (After.outcome _ w)) ?_
  rintro r w₁ ⟨⟨rfl, hrelation⟩, hresolved⟩
  cases r with
  | error e => exact NullsKept.refl _ _
  | ok relation =>
      obtain ⟨-, hfound⟩ := hrelation relation rfl
      rw [resume_ok, after_bind]
      refine After.mono ((after_tableStorePrefix relation).and (After.outcome _ w₁)) ?_
      rintro r w₂ ⟨⟨rfl, hbase⟩, hplaced⟩
      cases r with
      | error e => exact NullsKept.refl _ _
      | ok base =>
          refine hbody relation base ⟨hfound, hbase base rfl⟩ ?_ ?_
          · rw [hresolved]
          · rw [hplaced]

/-- The end of a statement: the indexes of the table follow, and its result is returned. -/
theorem refreshed_kept {α : Type} {relation : CatalogRelation} {base : OPath} {a : α}
    (hat : TableAt o w key relation base) :
  After (do refreshIndexSnapshotsAfterMutation o df session relation; return a : Op α) w
    (fun _ w' => NullsKept o key w w')
  := by
  rw [after_bind]
  refine After.mono (refreshIndexSnapshotsAfterMutation_modifies o df session hat.located w) ?_
  intro r w₁ hframe
  cases r with
  | error e => exact nullsKept_of_indexFrame hat hframe
  | ok _ => exact nullsKept_of_indexFrame hat hframe

/-- A part of a statement that changes no objects. -/
theorem kept_bind {α β : Type} {m : Op α} {f : α → Op β} (hm : ModifiesOnly (fun _ => False) m)
    {Q : α → World → Prop} (hreturns : Returns m w Q)
    (hf : ∀ a w', Frame (fun _ => False) w w' → Q a w' →
      After (f a) w' (fun _ w'' => NullsKept o key w' w'')) :
  After (m >>= f) w (fun _ w' => NullsKept o key w w')
  := by
  rw [after_bind]
  refine After.mono ((hm w).and hreturns) ?_
  rintro r w₁ ⟨hframe, hQ⟩
  cases r with
  | error e => exact nullsKept_of_untouched key hframe
  | ok a =>
      rw [resume_ok]
      refine After.mono (hf a w₁ hframe (hQ a rfl)) ?_
      intro r w₂ h
      exact (nullsKept_of_untouched key hframe).trans h

/-- A part of a statement that changes the objects of its table. -/
theorem kept_write {α β : Type} {m : Op α} {f : α → Op β} {relation : CatalogRelation}
    {base : OPath} (hat : TableAt o w key relation base) (hm : ModifiesOnly (base <+: ·) m)
    (hkeeps : KeepsObjects (NoNulls relation.notNullColumns base) m)
    (hf : ∀ a w', TableAt o w' key relation base →
      After (f a) w' (fun _ w'' => NullsKept o key w' w'')) :
  After (m >>= f) w (fun _ w' => NullsKept o key w w')
  := by
  have hwritten : After m w (fun _ w' => NullsKept o key w w') := by
    by_cases hbefore : NoNulls relation.notNullColumns base w.store
    · refine After.mono ((hm w).and (hkeeps w hbefore)) ?_
      rintro r w₁ ⟨hframe, hafter⟩
      exact nullsKept_of_frame hat hframe (fun _ => hafter)
    · refine After.mono (hm w) ?_
      intro r w₁ hframe
      exact nullsKept_of_frame hat hframe (fun h => absurd h hbefore)
  rw [after_bind]
  refine After.mono hwritten ?_
  intro r w₁ hkept
  cases r with
  | error e => exact hkept
  | ok a =>
      rw [resume_ok]
      refine After.mono (hf a w₁ (hat.of_kept hkept)) ?_
      intro r w₂ h
      exact hkept.trans h

/-! ### INSERT of values -/

/-- An INSERT of values keeps NOT NULL columns free of NULL. -/
theorem executeInsertInto_kept (target : Option (List String)) (rows : List (List String))
    (hdistinct : ∀ relation : CatalogRelation,
      w.catalog.relations[namedKey session database schema name]? = some relation →
        (relation.columns.map (·.name)).Nodup) :
  After (executeInsertInto o df x session database schema name target rows) w (fun _ w' =>
    NullsKept o (namedKey session database schema name) w w')
  := by
  apply onTable_kept
  intro relation base hat _ _
  dsimp only
  split
  · exact NullsKept.refl _ _
  · apply kept_bind (buildRecordBatchFromRows_modifies o x _ _ _ _ _)
      (buildRecordBatchFromRows_noNulls (hdistinct relation hat.found) target rows w)
    rintro batch w₁ hframe₁ ⟨hwidths, hbatch⟩
    have hstorable : Storable relation.notNullColumns batch :=
      ⟨hwidths, hbatch.mono (fun column hcolumn => (List.mem_filter.mp hcolumn).1),
        fun _ => hbatch⟩
    apply kept_bind (prepareBatchForStorage_modifies o _ _)
      (prepareBatchForStorage_noNulls hstorable w₁)
    intro prepared w₂ hframe₂ hprepared
    apply kept_bind (validateBatchAgainstTableUniqueness_modifies o df _ relation _ _)
      (Returns.of_forall (Q := fun _ _ => True) (fun _ _ => trivial))
    intro _ w₃ hframe₃ _
    have hat₃ : TableAt o w₃ (namedKey session database schema name) relation base :=
      hat.of_kept (nullsKept_of_untouched _ ((hframe₁.trans hframe₂).trans hframe₃))
    apply kept_write hat₃ (appendBatch_below o prepared) (appendBatch_noNulls hprepared)
    intro _ w₄ hat₄
    exact refreshed_kept hat₄

/-! ### UPDATE -/

/-- The values an UPDATE gives the NOT NULL columns of the rows it writes are not NULL. -/
def UpdateFilled (o : Outside) (df : DataFusion) (session : SessionContext)
    (database schema : Option String) (name : String) (assignments : List (String × String))
    (selection : Option String) (w : World) : Prop :=
  ∀ relation base columns rows,
    DmlTarget o df session database schema name w relation base columns rows →
    ∀ row ∈ rows, holdsOn df (selection.map .sql) (columns.zip row) = true →
      none ∉ writtenRow df (updateItems o assignments relation) columns relation.notNullColumns row

/-- An UPDATE that gives NOT NULL columns no NULL keeps them free of it. -/
theorem executeUpdate_kept {assignments : List (String × String)} {selection : Option String}
    (hfilled : UpdateFilled o df session database schema name assignments selection w) :
  After (executeUpdate o df session database schema name assignments selection) w (fun _ w' =>
    NullsKept o (namedKey session database schema name) w w')
  := by
  apply onTable_kept
  intro relation base hat hresolved hplaced
  have hquery : Returns (queryFault df) w (fun _ w' => w' = { w with calls := w.calls + 1 }) := by
    rw [queryFault, returns_bind, returns_outsideCall]
    split
    · rw [returns_pure]
    · apply returns_bail
  apply kept_bind (queryFault_modifies df _) hquery
  rintro - _ hframe₁ rfl
  apply kept_bind (scanTable_modifies o df _ session relation) (Returns.outcome _ _)
  rintro ⟨columns, rows⟩ w₂ hframe₂ hscan
  have htarget : DmlTarget o df session database schema name w relation base columns rows := by
    refine ⟨hresolved, hplaced, ?_⟩
    rw [hscan]
  dsimp only
  rw [after_ite]
  refine ⟨fun _ => NullsKept.refl _ _, fun _ => ?_⟩
  rw [after_bind, after_orBail]
  refine ⟨fun _ _ => NullsKept.refl _ _, fun updated hupdated => ?_⟩
  rw [resume_ok, after_bind, after_orBail]
  refine ⟨fun _ _ => NullsKept.refl _ _, fun _ _ => ?_⟩
  rw [resume_ok]
  obtain ⟨-, hupdated⟩ := selectRows_ok df hupdated
  have hcells : RecordBatch.NoNulls
      ⟨(updateItems o assignments relation).map (itemField df columns), updated⟩
      relation.notNullColumns := by
    intro row hrow column hcolumn
    rw [hupdated] at hrow
    obtain ⟨old, hold, rfl⟩ := List.mem_map.mp hrow
    obtain ⟨hold, hholds⟩ := List.mem_filter.mp hold
    have hwritten := hfilled relation base columns rows htarget old hold (by simpa using hholds)
    intro hnone
    apply hwritten
    unfold writtenRow
    rw [List.mem_map]
    refine ⟨column, hcolumn, ?_⟩
    rw [← hnone]
    exact (cellAt_map (itemField df columns) _ _ column).symm
  have hstorable : Storable relation.notNullColumns
      ⟨(updateItems o assignments relation).map (itemField df columns), updated⟩ := by
    refine ⟨?_, hcells.mono (fun column hcolumn => (List.mem_filter.mp hcolumn).1),
      fun _ => hcells⟩
    intro row hrow
    rw [hupdated] at hrow
    obtain ⟨old, -, rfl⟩ := List.mem_map.mp hrow
    simp [selectedRow, updateItems]
  have hat₂ : TableAt o w₂ (namedKey session database schema name) relation base :=
    hat.of_kept (nullsKept_of_untouched _ (hframe₁.trans hframe₂))
  apply kept_write hat₂
    ((writeDataframeToTableSnapshot_modifies o df _ _ base).mono (fun _ => snapshotKey_below))
    (writeDataframeToTableSnapshot_noNulls hstorable)
  intro _ w₃ hat₃
  exact refreshed_kept hat₃

/-! ### INSERT of a query result -/

/-- An operation of an engine changes at most the given objects. -/
def EngineModifies {α : Type} (touched : OPath → Prop) (m : EngineOp α) : Prop :=
  ∀ s, After m s (fun _ s' => Frame touched s.world s'.world)

theorem EngineModifies.pure {α : Type} {touched : OPath → Prop} (a : α) :
  EngineModifies touched (Pure.pure a : EngineOp α)
  := fun s => Frame.refl _ s.world

theorem EngineModifies.onWorld {α : Type} {touched : OPath → Prop} {m : Op α}
    (h : ModifiesOnly touched m) :
  EngineModifies touched (onWorld m)
  := by
  intro s
  rw [after_onWorld]
  exact h s.world

theorem EngineModifies.bind {α β : Type} {touched : OPath → Prop} {m : EngineOp α}
    {f : α → EngineOp β} (hm : EngineModifies touched m) (hf : ∀ a, EngineModifies touched (f a)) :
  EngineModifies touched (m >>= f)
  := by
  intro s
  rw [after_bind]
  refine After.mono (hm s) ?_
  intro r s₁ hframe
  cases r with
  | error e => exact hframe
  | ok a =>
      rw [resume_ok]
      refine After.mono (hf a s₁) ?_
      intro r s₂ hframe'
      exact hframe.trans hframe'

theorem invalidateFileList_modifies (touched : OPath → Prop) (relation : CatalogRelation) :
  EngineModifies touched (invalidateFileList relation)
  := fun s => Frame.refl _ s.world

theorem getOrList_modifies (touched : OPath → Prop) (key : String) (base : OPath) :
  EngineModifies touched (getOrList o x key base)
  := by
  apply EngineModifies.bind
  · intro s
    exact Frame.refl _ s.world
  · intro s
    split
    · apply EngineModifies.pure
    · apply EngineModifies.bind (EngineModifies.onWorld (listFilesWithSizesAndRows_modifies _ _))
      intro files s
      exact Frame.refl _ s.world

theorem distributedFiles_modifies (touched : OPath → Prop) :
  EngineModifies touched (distributedFiles o x session database schema name)
  := by
  apply EngineModifies.bind
    (EngineModifies.onWorld (ModifiesOnly.attempt (tableRelation_modifies _ _ _ _ _)))
  intro resolved
  split
  · apply EngineModifies.pure
  · split
    · apply EngineModifies.pure
    · apply EngineModifies.bind (EngineModifies.onWorld (ModifiesOnly.orBail _))
      intro base
      apply EngineModifies.bind (getOrList_modifies _ _ _)
      intro files
      apply EngineModifies.pure

theorem runDistributedInsert_modifies {relation : CatalogRelation} {base : OPath}
    (hbase : relation.base? o = some base) (remaining attemptNumber : Nat)
    (attempts : List (Except String (List WorkerRun))) :
  EngineModifies (InsertKey base)
    (runDistributedInsert o df session relation base remaining attemptNumber attempts)
  := by
  induction remaining generalizing attemptNumber attempts with
  | zero =>
      unfold runDistributedInsert
      apply EngineModifies.pure
  | succ remaining ih =>
      rcases attempts with _ | ⟨message | _ | ⟨worker, workers⟩, attempts⟩
      · apply EngineModifies.pure
      · exact EngineModifies.onWorld (ModifiesOnly.bail message)
      · apply EngineModifies.pure
      · unfold runDistributedInsert
        apply EngineModifies.bind (EngineModifies.onWorld ModifiesOnly.outsideCall)
        intro n
        apply EngineModifies.bind (EngineModifies.onWorld (distributeInsert_modifies hbase _ _))
        intro outcome
        split
        · apply EngineModifies.bind (invalidateFileList_modifies _ _)
          intro _
          apply EngineModifies.pure
        · apply ih

/-- The rows that the query of an insert yields, in the states an attempt to distribute it can
leave, have no NULL for the NOT NULL columns of the table. -/
def SelectFilled (o : Outside) (x : Execution) (session : SessionContext) (insert : InsertSelect)
    (w : World) : Prop :=
  ∀ relation base w', TableAt o w (insert.targetKey session) relation base →
    Frame (InsertKey base) w w' → ∀ source stream aligned,
    x.executeStream w'.calls insert.querySql w'.catalog w'.store = .ok (source, stream) →
    alignColumns relation insert.columns source = .ok aligned → ∀ rows, .ok rows ∈ stream →
      (alignedBatch aligned rows).NoNulls (withoutRowId relation.notNullColumns)

/-- What an attempt to distribute an insert changes. -/
theorem tryDistributedInsert_frame {insert : InsertSelect} (s : EngineState) :
  After (tryDistributedInsert o df x session insert) s (fun _ s' =>
    Frame (fun object => ∃ relation base, TableAt o s.world (insert.targetKey session) relation base
      ∧ InsertKey base object) s.world s'.world)
  := by
  unfold tryDistributedInsert
  rw [after_bind, after_onWorld, after_attempt]
  refine After.mono (after_tableRelation insert.database insert.schema insert.name) ?_
  rintro r w₁ ⟨rfl, hrelation⟩
  rw [resume_ok]
  cases r with
  | error e => exact Frame.refl _ _
  | ok relation =>
      obtain ⟨-, hfound⟩ := hrelation relation rfl
      dsimp only
      cases hpath : relation.storagePath with
      | none => exact Frame.refl _ _
      | some location =>
          have hrun : EngineModifies (fun object => ∃ relation base,
              TableAt o s.world (insert.targetKey session) relation base ∧ InsertKey base object)
              (do
                let base ← onWorld (orBail (storeForLocation o location))
                runDistributedInsert o df session relation base 3 1 insert.attempts) := by
            intro s₁
            rw [after_bind, after_onWorld, after_orBail]
            refine ⟨fun _ _ => Frame.refl _ _, fun base hbase => ?_⟩
            have hat := tableAt_of_location hfound hpath hbase
            rw [resume_ok]
            refine After.mono (runDistributedInsert_modifies hat.located 3 1 insert.attempts s₁) ?_
            intro r s₂ hframe
            exact hframe.mono (fun object hobject => ⟨relation, base, hat, hobject⟩)
          dsimp only
          cases insert.source with
          | generateSeries => exact hrun s
          | other => exact Frame.refl _ _
          | table database schema name =>
              refine EngineModifies.bind (distributedFiles_modifies _) ?_ s
              intro files
              split
              · apply EngineModifies.pure
              · apply EngineModifies.pure
              · exact hrun

/-- What the workers of an insert write is not listed. -/
theorem tryDistributedInsert_kept {insert : InsertSelect} (s : EngineState) :
  After (tryDistributedInsert o df x session insert) s (fun _ s' =>
    NullsKept o (insert.targetKey session) s.world s'.world
      ∧ ∀ relation base, TableAt o s.world (insert.targetKey session) relation base →
        Frame (InsertKey base) s.world s'.world)
  := by
  refine After.mono (tryDistributedInsert_frame s) ?_
  intro r s₁ hframe
  have hkeys : ∀ relation base, TableAt o s.world (insert.targetKey session) relation base →
      Frame (InsertKey base) s.world s₁.world := by
    intro relation base hat
    apply hframe.mono
    rintro object ⟨other, path, hother, hobject⟩
    obtain ⟨rfl, rfl⟩ := hat.unique hother
    exact hobject
  refine ⟨⟨hframe.mono ?_, ?_⟩, hkeys⟩
  · rintro object ⟨relation, base, hat, hobject⟩
    exact ⟨relation, base, hat, insertKey_below hobject⟩
  · intro relation base hat hbefore
    apply hbefore.of_frame (hkeys relation base hat) (not_insertKey_manifestKey base)
    rintro fileName (⟨other, h⟩ | h)
    · simp [dataKey] at h
    · simp [IndexKey, dataKey] at h

/-- The rows of a query that fill the NOT NULL columns. -/
theorem insertSelected_kept {relation : CatalogRelation} {base : OPath}
    (hat : TableAt o w key relation base) {target : Option (List String)} {querySql : String}
    (hfilled : ∀ source stream aligned,
      x.executeStream w.calls querySql w.catalog w.store = .ok (source, stream) →
      alignColumns relation target source = .ok aligned → ∀ rows, .ok rows ∈ stream →
        (alignedBatch aligned rows).NoNulls (withoutRowId relation.notNullColumns)) :
  After (insertSelected o df x relation base target querySql) w (fun _ w' => NullsKept o key w w')
  := by
  unfold insertSelected
  rw [after_bind, after_outsideCall, resume_ok, after_bind, after_get, resume_ok, after_bind,
    after_orBail]
  have hcall : NullsKept o key w { w with calls := w.calls + 1 } :=
    nullsKept_of_untouched key (Frame.call (fun _ => False) w)
  refine ⟨fun _ _ => hcall, ?_⟩
  rintro ⟨source, stream⟩ hstream
  rw [resume_ok]
  dsimp only
  rw [after_bind, after_orBail]
  refine ⟨fun _ _ => hcall, fun aligned haligned => ?_⟩
  rw [resume_ok]
  have hstorable : ∀ rows, .ok rows ∈ stream →
      Storable relation.notNullColumns (alignedBatch aligned rows) := by
    intro rows hrows
    refine ⟨?_, hfilled source stream aligned hstream haligned rows hrows, ?_⟩
    · intro row hrow
      obtain ⟨_, -, rfl⟩ := List.mem_map.mp hrow
      simp [alignedBatch]
    · rintro ⟨field, hfield, hname⟩
      obtain ⟨entry, hentry, rfl⟩ := List.mem_map.mp hfield
      exact absurd hname (alignColumns_ne_rowId haligned entry hentry)
  have hinserted := @kept_write o key { w with calls := w.calls + 1 } Nat Nat
    (insertStream o df relation base aligned stream [] 0 0) pure relation base
    (hat.of_kept hcall) (insertStream_below o df relation aligned stream [] 0 0)
    (insertStream_noNulls hstorable (fun batch hbatch => by cases hbatch) 0 0)
    (fun _ w' _ => NullsKept.refl _ w')
  rw [bind_pure] at hinserted
  refine After.mono hinserted ?_
  intro r w' h
  exact hcall.trans h

/-- An INSERT of a query whose rows fill the NOT NULL columns keeps them free of NULL. -/
theorem executeInsertSelect_kept {insert : InsertSelect} {s : EngineState}
    (hfilled : SelectFilled o x session insert s.world) :
  After (executeInsertSelect o df x session insert) s (fun _ s' =>
    NullsKept o (insert.targetKey session) s.world s'.world)
  := by
  have hrows : After (insertSelectRows o df x session insert) s (fun r s' =>
      NullsKept o (insert.targetKey session) s.world s'.world
        ∧ ∀ outcome relation, r = .ok (outcome, some relation) →
          ∃ base, TableAt o s'.world (insert.targetKey session) relation base) := by
    rw [insertSelectRows, after_bind]
    refine After.mono (tryDistributedInsert_kept s) ?_
    rintro r s₁ ⟨hkept, hkeys⟩
    rcases r with e | _ | outcome
    · exact ⟨hkept, fun _ _ h => by cases h⟩
    · rw [resume_ok]
      dsimp only
      rw [after_bind, after_onWorld]
      refine After.mono (after_tableRelation insert.database insert.schema insert.name) ?_
      rintro r w₁ ⟨rfl, hrelation⟩
      rcases r with e | relation
      · exact ⟨hkept, fun _ _ h => by cases h⟩
      · obtain ⟨-, hfound⟩ := hrelation relation rfl
        rw [resume_ok, after_bind, after_onWorld]
        refine After.mono (after_tableStorePrefix relation) ?_
        rintro r w₁ ⟨rfl, hbase⟩
        rcases r with e | base
        · exact ⟨hkept, fun _ _ h => by cases h⟩
        · have hat₁ : TableAt o s₁.world (insert.targetKey session) relation base :=
            ⟨hfound, hbase base rfl⟩
          have hat : TableAt o s.world (insert.targetKey session) relation base := by
            rw [hkept.frame.catalog] at hfound
            exact ⟨hfound, hbase base rfl⟩
          rw [resume_ok, after_bind, after_onWorld]
          refine After.mono (insertSelected_kept hat₁
            (hfilled relation base s₁.world hat (hkeys relation base hat))) ?_
          intro r w₂ hinserted
          have hboth := hkept.trans hinserted
          rcases r with e | rowCount
          · exact ⟨hboth, fun _ _ h => by cases h⟩
          · rw [resume_ok, after_bind, invalidateFileList, after_modify, resume_ok, after_pure]
            refine ⟨hboth, ?_⟩
            rintro _ _ ⟨rfl, rfl⟩
            exact ⟨base, hat.of_kept hboth⟩
    · refine ⟨hkept, ?_⟩
      rintro _ _ ⟨rfl, h⟩
  rw [executeInsertSelect, after_bind]
  refine After.mono hrows ?_
  rintro r s₁ ⟨hkept, htable⟩
  rcases r with e | ⟨outcome, _ | relation⟩
  · exact hkept
  · exact hkept
  · obtain ⟨base, hat⟩ := htable outcome relation rfl
    rw [resume_ok]
    dsimp only
    rw [after_bind, after_onWorld]
    refine After.mono (rebuildAllIndexSnapshots_modifies o df session hat.located _) ?_
    intro r w' hframe
    have hboth := hkept.trans (nullsKept_of_indexFrame hat hframe)
    rcases r with e | _
    · exact hboth
    · exact hboth

/-! ### ALTER TABLE -/

/-- The column that a statement makes NOT NULL. -/
def ColumnStatement.newlyNotNull : ColumnStatement → List String
  | .addColumn column => if column.nullable then [] else [column.name]
  | .alterColumn columnName .setNotNull => [columnName]
  | .alterColumn _ _ | .dropColumn _ _ | .renameColumn _ _ => []

/-- The columns that are NOT NULL after a statement, which renames none. -/
theorem notNullColumns_edited {relation : CatalogRelation} {statement : ColumnStatement}
    (hrename : ∀ oldName newName, statement ≠ .renameColumn oldName newName) :
  ∀ column ∈ (statement.edited relation).notNullColumns,
    column ∈ relation.notNullColumns ++ statement.newlyNotNull
  := by
  have hmodify : ∀ (columnName : String) (operation : AlterColumnOperation)
      (columns : List CatalogColumn), ∀ column ∈ modifyFirst (·.name = columnName) operation.apply
        columns, column ∈ columns ∨ ∃ known ∈ columns, known.name = columnName
          ∧ column = operation.apply known := by
    intro columnName operation columns
    induction columns with
    | nil =>
        intro column hcolumn
        cases hcolumn
    | cons known columns ih =>
        intro column hcolumn
        unfold modifyFirst at hcolumn
        split at hcolumn
        · rename_i hname
          rcases List.mem_cons.mp hcolumn with rfl | hcolumn
          · exact .inr ⟨known, List.mem_cons_self, by simpa using hname, rfl⟩
          · exact .inl (List.mem_cons_of_mem _ hcolumn)
        · rcases List.mem_cons.mp hcolumn with rfl | hcolumn
          · exact .inl List.mem_cons_self
          · rcases ih column hcolumn with h | ⟨other, hother, h⟩
            · exact .inl (List.mem_cons_of_mem _ h)
            · exact .inr ⟨other, List.mem_cons_of_mem _ hother, h⟩
  have hold : ∀ column ∈ relation.columns, column.nullable = false →
      column.name ∈ relation.notNullColumns := by
    intro column hcolumn hnullable
    exact List.mem_map_of_mem (List.mem_filter.mpr ⟨hcolumn, by simp [hnullable]⟩)
  intro name hname
  obtain ⟨column, hmem, rfl⟩ := List.mem_map.mp hname
  obtain ⟨hcolumn, hnullable⟩ := List.mem_filter.mp hmem
  have hnullable : column.nullable = false := by simpa using hnullable
  rw [List.mem_append]
  cases statement with
  | renameColumn oldName newName => exact absurd rfl (hrename oldName newName)
  | dropColumn columnName ifExists =>
      exact .inl (hold column (List.mem_of_mem_eraseP hcolumn) hnullable)
  | addColumn added =>
      rcases List.mem_append.mp hcolumn with hcolumn | hcolumn
      · exact .inl (hold column hcolumn hnullable)
      · obtain rfl := List.mem_singleton.mp hcolumn
        refine .inr ?_
        rw [ColumnStatement.newlyNotNull, hnullable]
        exact List.mem_singleton_self _
  | alterColumn columnName operation =>
      rcases hmodify columnName operation relation.columns column hcolumn with
        hcolumn | ⟨known, hknown, hsame, rfl⟩
      · exact .inl (hold column hcolumn hnullable)
      · cases operation with
        | setNotNull => exact .inr (List.mem_singleton.mpr hsame)
        | dropNotNull => cases hnullable
        | setDataType dataType => exact .inl (hold known hknown hnullable)
        | setDefault value => exact .inl (hold known hknown hnullable)
        | dropDefault => exact .inl (hold known hknown hnullable)

/-- The names of columns stay distinct. -/
theorem distinct_edited {relation : CatalogRelation} {statement : ColumnStatement}
    (hrename : ∀ oldName newName, statement ≠ .renameColumn oldName newName)
    (haccepted : statement.Accepted relation) (h : (relation.columns.map (·.name)).Nodup) :
  ((statement.edited relation).columns.map (·.name)).Nodup
  := by
  cases statement with
  | renameColumn oldName newName => exact absurd rfl (hrename oldName newName)
  | dropColumn columnName ifExists =>
      exact h.sublist ((List.eraseP_sublist).map _)
  | addColumn added =>
      unfold ColumnStatement.edited
      rw [List.map_append, List.map_singleton, List.nodup_append]
      refine ⟨h, List.nodup_singleton _, ?_⟩
      intro name hname other hother
      obtain ⟨known, hknown, rfl⟩ := List.mem_map.mp hname
      obtain rfl := List.mem_singleton.mp hother
      exact haccepted known hknown
  | alterColumn columnName operation =>
      have hsame : ∀ columns : List CatalogColumn, (modifyFirst (·.name = columnName)
          operation.apply columns).map (·.name) = columns.map (·.name) := by
        intro columns
        induction columns with
        | nil => rfl
        | cons column columns ih =>
            unfold modifyFirst
            split
            · cases operation <;> rfl
            · rw [List.map_cons, List.map_cons, ih]
      unfold ColumnStatement.edited
      dsimp only
      rw [hsame]
      exact h

/-- The files of a table are listed in the local store. -/
theorem listFiles_local (base : OPath) (w : World) :
  Returns (listFiles o base) w (fun files _ => ∀ path ∈ files, path.head? = some "file://")
  := by
  rw [listFiles, returns_bind]
  refine Returns.of_forall ?_
  intro read w₁
  cases read with
  | some manifest =>
      rw [returns_pure]
      intro path hpath
      obtain ⟨entry, -, rfl⟩ := List.mem_map.mp hpath
      rfl
  | none =>
      rw [listParquetFiles, returns_bind]
      refine Returns.of_forall ?_
      intro keys w₂
      rw [returns_pure]
      intro path hpath
      obtain ⟨key, -, rfl⟩ := List.mem_map.mp hpath
      rfl

theorem migratedFile_returns (path : OPath) (w : World) :
  Returns (migratedFile df path) w (fun file w' => w'.store = w.store
    ∧ (w.store[path]? = some (.parquet file) ∨ file.rows = []))
  := by
  unfold migratedFile
  rw [returns_bind]
  refine Returns.of_after (After.mono (queryFault_modifies df (fun _ => False) w) ?_)
  intro r w₁ hframe _
  rw [returns_bind, returns_get]
  have hstore := hframe.store_eq
  split
  · rename_i file _ hfile
    rw [returns_pure]
    rw [hstore] at hfile
    exact ⟨hstore, .inl hfile⟩
  · apply returns_bail
  · rw [returns_pure]
    exact ⟨hstore, .inr rfl⟩
  · apply returns_bail

/-- A file under another schema has no NULL where it had none. -/
theorem withSchema_noNulls {columns : List String} {fields : Schema} {file migrated : RecordBatch}
    (h : withSchema fields file = .ok migrated) (hfile : file.NoNulls columns) :
  migrated.NoNulls columns
  := by
  apply encodeParquetBatches_noNulls h
  intro batch hbatch row hrow
  obtain ⟨rows, hrows, rfl⟩ := List.mem_map.mp hbatch
  apply hfile row
  rw [← flatten_chunks 8192 (by decide) file.rows.length file.rows (Nat.le_refl _)]
  exact List.mem_flatten_of_mem hrows hrow

/-- No manifest of the table at `base` lists the file at a path. -/
def Unlisted (base path : OPath) (store : ObjectStore) : Prop :=
  ∀ m entry, store[manifestKey base]? = some (.manifest m) → entry ∈ m.files →
    entry.key base ≠ path

/-- Files that are written anew under another schema have no NULL where they had none. -/
theorem migrateFiles_noNulls {columns : List String} {base : OPath} {fields : Schema}
    (hlocal : base.head? = some "file://") {files : List OPath}
    (hfiles : ∀ path ∈ files, path.head? = some "file://") :
  KeepsObjects (NoNulls columns base) (migrateFiles o df base (withSchema fields) files)
  := by
  induction files with
  | nil => apply KeepsObjects.of_modifies (ModifiesOnly.pure _)
  | cons path paths ih =>
      intro w h
      rw [migrateFiles, after_bind]
      refine After.mono ((migratedFile_modifies (fun _ => False) path w).and
        (migratedFile_returns path w)) ?_
      rintro r w₁ ⟨hframe, hread⟩
      have h₁ : NoNulls columns base w₁.store := by
        rw [hframe.store_eq]
        exact h
      cases r with
      | error e => exact h₁
      | ok file =>
          obtain ⟨hstore, hread⟩ := hread file rfl
          rw [← hstore] at hread
          -- the file is put where it was read
          have hkey : base.take 1 ++ path.drop 1 = path := by
            have hpath := hfiles path List.mem_cons_self
            cases base with
            | nil => cases hlocal
            | cons head base =>
                cases path with
                | nil => cases hpath
                | cons first path =>
                    cases hlocal
                    cases hpath
                    rfl
          rw [resume_ok, after_bind, after_orBail, hkey]
          refine ⟨fun _ _ => h₁, fun migrated hmigrated => ?_⟩
          rw [resume_ok]
          have hput : KeepsObjects (fun store => NoNulls columns base store
              ∧ (migrated.NoNulls columns ∨ Unlisted base path store))
              (storePut o path (.parquet migrated) .overwrite) := by
            apply storePut_keepsObjects
            rintro store ⟨hbefore, hcase⟩
            by_cases hmanifest : path = manifestKey base
            · subst hmanifest
              have hno : ∀ m, (store.insert (manifestKey base) (.parquet migrated))[
                  manifestKey base]? ≠ some (.manifest m) := by
                intro m
                rw [ObjectStore.get_insert, if_pos rfl]
                nofun
              exact ⟨fun m hm => absurd hm (hno m), .inr (fun m _ hm => absurd hm (hno m))⟩
            · refine ⟨hbefore.insert hmanifest ?_, ?_⟩
              · rintro _ ⟨⟩
                exact hcase.symm
              · refine hcase.imp_right ?_
                intro hunlisted m entry hm
                rw [ObjectStore.get_insert, if_neg hmanifest] at hm
                exact hunlisted m entry hm
          have hcase : migrated.NoNulls columns ∨ Unlisted base path w₁.store := by
            by_cases hfile : file.NoNulls columns
            · exact .inl (withSchema_noNulls hmigrated hfile)
            · refine .inr ?_
              rintro m entry hm hentry rfl
              rcases hread with hread | hempty
              · exact hfile ((h₁ m hm entry hentry).2 file hread)
              · refine hfile (fun row hrow => ?_)
                rw [hempty] at hrow
                cases hrow
          rw [after_bind]
          refine After.mono (hput w₁ ⟨h₁, hcase⟩) ?_
          rintro r w₂ ⟨h₂, -⟩
          cases r with
          | error e => exact h₂
          | ok outcome =>
              rw [resume_ok]
              refine KeepsObjects.bind (KeepsObjects.of_modifies
                (orStoreError_modifies _ outcome)) ?_ w₂ h₂
              intro _
              exact ih (fun other hother => hfiles other (List.mem_cons_of_mem _ hother))

/-- A migration under another schema leaves no NULL where there was none. -/
theorem migrateRelation_noNulls {columns : List String} {relation : CatalogRelation} {base : OPath}
    (hbase : relation.base? o = some base) (hlocal : base.head? = some "file://")
    (fields : Schema) :
  KeepsObjects (NoNulls columns base) (migrateRelation o df (withSchema fields) relation)
  := by
  obtain ⟨location, hlocation, hstore⟩ := location_of_base hbase
  unfold migrateRelation
  rw [hlocation]
  dsimp only
  rw [hstore]
  intro w h
  simp only [orBail, pure_bind]
  rw [after_bind]
  refine After.mono ((KeepsObjects.of_modifies (listFiles_modifies o _ base) w h).and
    (listFiles_local base w)) ?_
  rintro r w₁ ⟨h₁, hfiles⟩
  cases r with
  | error e => exact h₁
  | ok files =>
      rw [resume_ok]
      exact migrateFiles_noNulls hlocal (hfiles files rfl) w₁ h₁

/-- A statement on the columns of a table renames none; its table is in the local store, and
whatever it makes NOT NULL has no NULL in the rows that are stored. -/
structure AlterFilled (o : Outside) (session : SessionContext) (database schema : Option String)
    (name : String) (statement : ColumnStatement) (w : World) : Prop where
  noRename : ∀ oldName newName, statement ≠ .renameColumn oldName newName
  stored : ∀ relation base,
    TableAt o w (namedKey session database schema name) relation base →
      base.head? = some "file://" ∧ NoNulls statement.newlyNotNull base w.store

theorem migrateColumns_withSchema {statement : ColumnStatement} (relation : CatalogRelation)
    (hrename : ∀ oldName newName, statement ≠ .renameColumn oldName newName) :
  ∃ fields, migrateColumns o df statement relation
    = migrateRelation o df (withSchema fields) relation
  := by
  cases statement with
  | renameColumn oldName newName => exact absurd rfl (hrename oldName newName)
  | addColumn column => exact ⟨_, rfl⟩
  | dropColumn columnName ifExists => exact ⟨_, rfl⟩
  | alterColumn columnName operation => exact ⟨_, rfl⟩

/-- A statement on the columns of a table keeps the NOT NULL columns free of NULL. -/
theorem NullFree.alterColumns (h : NullFree o w) {statement : ColumnStatement}
    (hfilled : AlterFilled o session database schema name statement w) :
  After (executeAlterColumns o df session database schema name statement) w (fun _ w' =>
    NullFree o w')
  := by
  refine After.mono (after_executeAlterColumns statement w) ?_
  rintro r w' (⟨hrelations, hstore⟩ | ⟨relation, hfound, haccepted, hrelations, hstore⟩)
  · refine ⟨?_, ?_, ?_⟩
    · rw [hrelations]
      exact h.spread
    · rw [hrelations]
      exact h.distinct
    · rintro key other base ⟨hother, hlocated⟩
      rw [hrelations] at hother
      rw [hstore]
      exact h.noNulls key other base ⟨hother, hlocated⟩
  · have hbase : (statement.edited relation).base? o = relation.base? o := by
      cases statement <;> rfl
    have hrecorded : recorded o w'.catalog.relations = recorded o w.catalog.relations := by
      funext key
      rw [recorded, recorded, hrelations, KeyMap.get_insert]
      split
      · rename_i hkey
        rw [← hkey, hfound, Option.bind_some, Option.bind_some, hbase]
      · rfl
    -- the migration touches objects of the table only
    have huntouched : ∀ object, (∀ path, relation.base? o = some path → ¬ path <+: object) →
        w'.store[object]? = w.store[object]? := by
      intro object hobject
      rcases hstore with hstore | ⟨w₁, hw₁, hstore⟩
      · rw [hstore]
      · rw [hstore, ← hw₁]
        apply (migrateColumns_modifies statement (statement.edited relation) w₁).store
        rintro ⟨path, hpath, hbelow⟩
        rw [hbase] at hpath
        exact hobject path hpath hbelow
    constructor
    · rw [hrecorded]
      exact h.spread
    · intro key other hother
      rw [hrelations, KeyMap.get_insert] at hother
      split at hother
      · cases hother
        exact distinct_edited hfilled.noRename haccepted (h.distinct _ relation hfound)
      · exact h.distinct key other hother
    · rintro key other base ⟨hother, hlocated⟩
      rw [hrelations, KeyMap.get_insert] at hother
      split at hother
      · cases hother
        have hat : TableAt o w (namedKey session database schema name) relation base :=
          ⟨hfound, hbase ▸ hlocated⟩
        obtain ⟨hlocal, hnew⟩ := hfilled.stored relation base hat
        have hboth := ((h.noNulls _ relation base hat).append hnew).mono
          (notNullColumns_edited hfilled.noRename)
        rcases hstore with hstore | ⟨w₁, hw₁, hstore⟩
        · rw [hstore]
          exact hboth
        · obtain ⟨fields, hfields⟩ := @migrateColumns_withSchema o df _
            (statement.edited relation) hfilled.noRename
          rw [hfields] at hstore
          rw [hstore]
          rw [← hw₁] at hboth
          exact migrateRelation_noNulls hlocated hlocal fields w₁ hboth
      · rename_i hkey
        have hsame : ∀ rest, w'.store[base ++ rest]? = w.store[base ++ rest]? := by
          intro rest
          apply huntouched
          intro path hpath
          have hapart := h.spread key _ base path (Ne.symm hkey)
            (by rw [recorded_of_found hother, hlocated])
            (by rw [recorded_of_found hfound, hpath])
          exact hapart.not_below (List.prefix_append _ _)
        exact (h.noNulls key other base ⟨hother, hlocated⟩).congr (hsame _) (fun _ => hsame _)

/-! ### CREATE TABLE -/

/-- A table without files has no NULL. -/
theorem persistEmptyTableSnapshot_empties (base : OPath) (fields : Schema) (w : World) :
  Returns (persistEmptyTableSnapshot o base fields) w (fun _ w' => ∀ columns,
    NoNulls columns base w'.store)
  := by
  rw [persistEmptyTableSnapshot, returns_bind]
  refine Returns.of_forall ?_
  intro outcome w₁
  rw [returns_bind]
  refine Returns.of_forall ?_
  intro _ w₂
  rw [returns_bind]
  refine Returns.mono (casManifest_returns o base (fun _ => []) (by decide) w₂) ?_
  rintro - w₃ ⟨m, -, hm, hfiles⟩
  have hempty : ∀ columns, NoNulls columns base w₃.store := by
    intro columns m' hm'
    rw [hm] at hm'
    cases hm'
    rw [hfiles]
    intro entry hentry
    cases hentry
  have hvacuum : After (vacuumOrphans o base) w₃ (fun _ w' => ∀ columns,
      NoNulls columns base w'.store) := fun columns => vacuumOrphans_noNulls w₃ (hempty columns)
  rw [returns_bind]
  refine Returns.of_after (After.mono hvacuum ?_)
  intro r w₄ h _
  rw [returns_pure]
  exact h

/-- The columns of a new table have distinct names, and its path is apart from those of the other
tables. -/
structure CreateClear (o : Outside) (session : SessionContext) (database schema : Option String)
    (name : String) (columns : List CatalogColumn) (w : World) : Prop where
  distinct : (columns.map (·.name)).Nodup
  apart : ∀ base, createTarget o session database schema name w.catalog = .ok base →
    ∀ key path, recorded o w.catalog.relations key = some path →
      Apart base path ∨ key = namedKey session database schema name ∧ path = base

theorem distinct_catalogColumns {columns : List CatalogColumn}
    (h : (columns.map (·.name)).Nodup) :
  ((catalogColumnsFromSchema df (buildArrowSchemaFromDefinitions columns)).map (·.name)).Nodup
  := by
  have hnames : (columns.map definitionField).map (·.name) = columns.map (·.name) := by
    rw [List.map_map]
    rfl
  have hfields : ((buildArrowSchemaFromDefinitions columns).map (·.name)).Nodup := by
    unfold buildArrowSchemaFromDefinitions
    dsimp only
    split
    · exact hnames ▸ h
    · rename_i hnone
      rw [List.map_append, List.map_singleton, List.nodup_append]
      refine ⟨hnames ▸ h, List.nodup_singleton _, ?_⟩
      rintro field hfield _ hrowId rfl
      obtain rfl := List.mem_singleton.mp hrowId
      obtain ⟨column, hcolumn, hname⟩ := List.mem_map.mp hfield
      refine hnone ?_
      rw [List.any_eq_true]
      exact ⟨column, hcolumn, decide_eq_true hname⟩
  rw [catalogColumnsFromSchema, List.map_map]
  exact hfields

/-- What the writer of a definition leaves: no NULL where there was none, and no file when it
succeeds. -/
theorem writeDefinition_noNulls (columns : List CatalogColumn)
    (constraints : List TableConstraintDefinition) (base : OPath) (w : World) :
  After (writeDefinition o df columns constraints base) w (fun r w' =>
    (∀ known, NoNulls known base w.store → NoNulls known base w'.store)
      ∧ w'.catalog = w.catalog
      ∧ ∀ written, r = .ok written → (∀ known, NoNulls known base w'.store)
        ∧ written.1 = catalogColumnsFromSchema df (buildArrowSchemaFromDefinitions columns))
  := by
  have hkeeps : After (persistEmptyTableSnapshot o base (buildArrowSchemaFromDefinitions columns)) w
      (fun _ w' => ∀ known, NoNulls known base w.store → NoNulls known base w'.store) :=
    fun known h => persistEmptyTableSnapshot_noNulls w h
  rw [writeDefinition, after_bind]
  refine After.mono (hkeeps.and ((persistEmptyTableSnapshot_modifies o base _ w).and
    (persistEmptyTableSnapshot_empties base _ w))) ?_
  rintro r w₁ ⟨hknown, hframe, hempty⟩
  cases r with
  | error e => exact ⟨hknown, hframe.catalog, fun _ h => by cases h⟩
  | ok _ =>
      refine ⟨hknown, hframe.catalog, ?_⟩
      rintro _ ⟨⟩
      exact ⟨hempty () rfl, rfl⟩

/-- What a creation leaves at its target `base`: no NULL where there was none, and a table without
NULL when it is new. -/
structure CreatedEmpty (df : DataFusion) (key : String) (columns : List CatalogColumn)
    (base : OPath) (w w' : World) : Prop where
  kept : ∀ known, NoNulls known base w.store → NoNulls known base w'.store
  new : ∀ relation, w.catalog.relations[key]? = none → w'.catalog.relations[key]? = some relation →
    relation.columns = catalogColumnsFromSchema df (buildArrowSchemaFromDefinitions columns)
      ∧ ∀ known, NoNulls known base w'.store

theorem CreatedEmpty.of_indexFrame {columns : List CatalogColumn} {base : OPath} {w₁ w₂ : World}
    (h : CreatedEmpty df key columns base w w₁) (hframe : Frame (IndexKey base) w₁ w₂) :
  CreatedEmpty df key columns base w w₂
  := by
  have hkept : ∀ known, NoNulls known base w₁.store → NoNulls known base w₂.store := by
    intro known hknown
    apply hknown.of_frame hframe
    · simp [IndexKey, manifestKey]
    · simp [IndexKey, dataKey]
  refine ⟨fun known hknown => hkept known (h.kept known hknown), ?_⟩
  intro relation hnone hsome
  rw [hframe.catalog] at hsome
  obtain ⟨hcolumns, hempty⟩ := h.new relation hnone hsome
  exact ⟨hcolumns, fun known => hkept known (hempty known)⟩

theorem createManagedTable_createdEmpty (columns : List CatalogColumn)
    (constraints : List TableConstraintDefinition) (w : World) :
  After (createManagedTable o session database schema name
      (writeDefinition o df columns constraints)) w
    (fun _ w' => ∀ base, createTarget o session database schema name w.catalog = .ok base →
      CreatedEmpty df (namedKey session database schema name) columns base w w')
  := by
  rw [after_createManagedTable_iff]
  constructor
  · intro message hmessage base hbase
    rw [hmessage] at hbase
    cases hbase
  · intro base hbase
    refine After.mono (writeDefinition_noNulls columns constraints base w) ?_
    rintro r w₁ ⟨hknown, hcatalog, hwritten⟩
    -- as long as the table is not registered
    have hunregistered : ∀ path, createTarget o session database schema name w.catalog = .ok path →
        CreatedEmpty df (namedKey session database schema name) columns path w w₁ := by
      intro path hpath
      rw [hbase] at hpath
      cases hpath
      refine ⟨hknown, ?_⟩
      intro relation hnone hsome
      rw [hcatalog, hnone] at hsome
      cases hsome
    cases r with
    | error e => exact hunregistered
    | ok written =>
        obtain ⟨hempty, hcolumns⟩ := hwritten written rfl
        rw [resume_ok, after_bind]
        refine After.mono (after_registerManagedTable _ _ _) ?_
        rintro r w₂ (⟨⟨e, rfl⟩, rfl⟩ | ⟨hstore, hfree, relation, -, hnew, hrelations⟩)
        · exact hunregistered
        · have hregistered : ∀ path,
              createTarget o session database schema name w.catalog = .ok path →
                CreatedEmpty df (namedKey session database schema name) columns path w w₂ := by
            intro path hpath
            rw [hbase] at hpath
            cases hpath
            refine ⟨fun known _ => hstore ▸ hempty known, ?_⟩
            intro other _ hother
            rw [hrelations, namedKey, KeyMap.get_insert, if_pos rfl] at hother
            cases hother
            exact ⟨hnew.trans hcolumns, fun known => hstore ▸ hempty known⟩
          cases r with
          | error e => exact hregistered
          | ok message => exact hregistered

theorem executeCreate_createdEmpty (columns : List CatalogColumn)
    (constraints : List TableConstraintDefinition) (w : World) :
  After (executeCreate o df session database schema name (.createTable columns constraints)) w
    (fun _ w' => ∀ base, createTarget o session database schema name w.catalog = .ok base →
      CreatedEmpty df (namedKey session database schema name) columns base w w')
  := by
  rw [executeCreate, after_bind]
  refine After.mono ((createManagedTable_createdEmpty columns constraints w).and
    (after_createManagedTable_createdAt (fun base => After.mono
      (after_writeDefinition o df columns constraints base w) (fun _ _ h => h.touched)))) ?_
  rintro r w₁ ⟨hcreated, hat⟩
  rcases r with e | created
  · exact hcreated
  · rcases hat with ⟨⟨e, h⟩, -⟩ | ⟨base, htarget, -, -, hregistered⟩
    · cases h
    · obtain ⟨relation, hfound, hbase⟩ := hregistered created rfl
      rw [resume_ok, after_bind]
      refine After.mono (after_tableRelation database schema name) ?_
      rintro r w₂ ⟨rfl, hrelation⟩
      rcases r with e | other
      · exact hcreated
      · obtain ⟨-, hother⟩ := hrelation other rfl
        rw [hfound] at hother
        cases hother
        rw [resume_ok, after_bind]
        refine After.mono (rebuildAllIndexSnapshots_modifies o df session hbase w₂) ?_
        intro r w₃ hframe
        have hrebuilt : ∀ path, createTarget o session database schema name w.catalog = .ok path →
            CreatedEmpty df (namedKey session database schema name) columns path w w₃ := by
          intro path hpath
          have hsame := hpath
          rw [htarget] at hsame
          cases hsame
          exact (hcreated _ hpath).of_indexFrame hframe
        rcases r with e | _
        · exact hrebuilt
        · exact hrebuilt

/-- A creation keeps the NOT NULL columns free of NULL. -/
theorem NullFree.create (h : NullFree o w) {columns : List CatalogColumn}
    {constraints : List TableConstraintDefinition}
    (hclear : CreateClear o session database schema name columns w) :
  After (executeCreate o df session database schema name (.createTable columns constraints)) w
    (fun _ w' => NullFree o w')
  := by
  refine After.mono ((after_executeCreate_createdAt df (.createTable columns constraints)).and
    (executeCreate_createdEmpty columns constraints w)) ?_
  rintro r w' ⟨rfl | ⟨base, htarget, ⟨hobjects, -, hrelations⟩, hothers⟩, hempty⟩
  · exact h
  · have hapart := hclear.apart base htarget
    have hempty := hempty base htarget
    -- the tables that were there
    have hold : ∀ key relation path, TableAt o w key relation path →
        NoNulls relation.notNullColumns path w'.store := by
      intro key relation path hat
      have hbefore := h.noNulls key relation path hat
      have hpath : recorded o w.catalog.relations key = some path := by
        rw [recorded_of_found hat.found, hat.located]
      rcases hapart key path hpath with hapart | ⟨-, rfl⟩
      · have hsame : ∀ rest, w'.store[path ++ rest]? = w.store[path ++ rest]? := fun rest =>
          hobjects _ (hapart.symm.not_below (List.prefix_append _ _))
        exact hbefore.congr (hsame _) (fun _ => hsame _)
      · exact hempty.kept _ hbefore
    rcases hrelations with hrelations | ⟨new, relation, hnone, hrelations, hbase⟩
    · constructor
      · rw [hrelations]
        exact h.spread
      · rw [hrelations]
        exact h.distinct
      · rintro key other path ⟨hother, hlocated⟩
        rw [hrelations] at hother
        exact hold key other path ⟨hother, hlocated⟩
    · have hnew : new = namedKey session database schema name := by
        by_contra hne
        have hsame := hothers new hne
        rw [hrelations, KeyMap.get_insert, if_pos rfl, hnone] at hsame
        cases hsame
      subst hnew
      obtain ⟨hcolumns, hno⟩ := hempty.new relation hnone
        (by rw [hrelations, KeyMap.get_insert, if_pos rfl])
      constructor
      · have hrecorded : recorded o w'.catalog.relations = Function.update
            (recorded o w.catalog.relations) (namedKey session database schema name)
            (some base) := by
          funext key
          rw [recorded, hrelations, KeyMap.get_insert, Function.update_apply]
          by_cases hkey : key = namedKey session database schema name
          · rw [if_pos hkey, if_pos hkey.symm, Option.bind_some, hbase]
          · rw [if_neg hkey, if_neg (Ne.symm hkey)]
            rfl
        rw [hrecorded]
        refine spread_update ?_ h.spread
        intro key path hpath
        rcases hapart key path hpath with hapart | ⟨rfl, -⟩
        · exact hapart
        · rw [recorded, hnone] at hpath
          cases hpath
      · intro key other hother
        rw [hrelations, KeyMap.get_insert] at hother
        split at hother
        · cases hother
          rw [hcolumns]
          exact distinct_catalogColumns hclear.distinct
        · exact h.distinct key other hother
      · rintro key other path ⟨hother, hlocated⟩
        rw [hrelations, KeyMap.get_insert] at hother
        split at hother
        · cases hother
          rw [hbase] at hlocated
          cases hlocated
          exact hno _
        · exact hold key other path ⟨hother, hlocated⟩

/-! ### Values that are NULL -/

section

variable (x)

/-- The value of a row for a column is NULL: it is written so, or it cannot be read as a value of
the type, or it is left out and the column has no default. -/
def GivesNull (columns : List CatalogColumn) (field : ArrowField) (position : Option Nat)
    (row : List String) : Prop :=
  match position.bind (row[·]?) with
  | some text => eqIgnoreAsciiCase (trimWhiteSpace text) "NULL" = true
    ∨ x.castText field.dataType (some (normalizeInsertValue text)) = .ok none
  | none => ∀ column, columns.find? (·.name = field.name) = some column →
    trimWhiteSpace (column.defaultValue.getD
      (if eqIgnoreAsciiCase field.name "created_at" then "CURRENT_TIMESTAMP" else "")) = ""

end

/-- A row with NULL for a NOT NULL column is refused, or its text is read as NULL. -/
theorem insertText_givesNull {columns : List CatalogColumn} {field : ArrowField}
    (hnotNull : field.nullable = false) {position : Option Nat} {row : List String}
    (hnull : GivesNull x columns field position row) (w : World) :
  Returns (insertText o x columns field position row) w (fun text _ =>
    x.castText field.dataType text = .ok none)
  := by
  unfold insertText GivesNull at *
  dsimp only
  rw [hnotNull]
  cases hposition : position.bind (row[·]?) with
  | some text =>
      rw [hposition] at hnull
      dsimp only at hnull ⊢
      split
      · apply returns_bail
      · rename_i hwritten
        rw [returns_pure]
        exact hnull.resolve_left hwritten
  | none =>
      rw [hposition] at hnull
      dsimp only at hnull ⊢
      have hdefault : defaultValueForColumn o x columns field.name = pure none := by
        unfold defaultValueForColumn
        split
        · rfl
        · rename_i column hcolumn
          dsimp only
          rw [hnull column hcolumn]
          rfl
      rw [hdefault, pure_bind]
      apply returns_bail

theorem insertTexts_givesNull {columns : List CatalogColumn} {field : ArrowField}
    (hnotNull : field.nullable = false) (hname : field.name ≠ "_row_id") {position : Option Nat}
    {rows : List (List String)} {row : List String} (hrow : row ∈ rows)
    (hnull : GivesNull x columns field position row) (w : World) :
  Returns (insertTexts o x columns field position rows) w (fun texts _ =>
    ∃ text ∈ texts, x.castText field.dataType text = .ok none)
  := by
  induction rows generalizing w with
  | nil => cases hrow
  | cons first rows ih =>
      rw [insertTexts, returns_bind, if_neg hname]
      rcases List.mem_cons.mp hrow with rfl | hrow
      · refine Returns.mono (insertText_givesNull hnotNull hnull w) ?_
        intro text w₁ htext
        rw [returns_bind]
        refine Returns.of_forall ?_
        intro rest w₂
        rw [returns_pure]
        exact ⟨text, List.mem_cons_self, htext⟩
      · refine Returns.of_forall ?_
        intro text w₁
        rw [returns_bind]
        refine Returns.mono (ih hrow w₁) ?_
        rintro rest w₂ ⟨other, hother, hcast⟩
        rw [returns_pure]
        exact ⟨other, List.mem_cons_of_mem _ hother, hcast⟩

theorem insertColumns_givesNull {columns : List CatalogColumn} {target : Option (List String)}
    {rows : List (List String)} {row : List String} (hrow : row ∈ rows)
    {fields : List (Nat × ArrowField)} {i position : Nat} {field : ArrowField}
    (hfield : fields[i]? = some (position, field)) (hnotNull : field.nullable = false)
    (hname : field.name ≠ "_row_id")
    (hnull : GivesNull x columns field (valuePosition target position field.name) row)
    (w : World) :
  Returns (insertColumns o x columns target rows fields) w (fun cells _ =>
    ∃ column, cells[i]? = some column ∧ none ∈ column)
  := by
  induction fields generalizing i w with
  | nil => cases hfield
  | cons first fields ih =>
      obtain ⟨firstPosition, firstField⟩ := first
      rw [insertColumns, returns_bind]
      cases i with
      | zero =>
          cases hfield
          refine Returns.mono (insertTexts_givesNull hnotNull hname hrow hnull w) ?_
          rintro texts w₁ ⟨text, htext, hcast⟩
          rw [returns_bind, returns_orBail]
          intro cells hcells
          rw [returns_bind]
          refine Returns.of_forall ?_
          intro rest w₂
          rw [returns_pure]
          refine ⟨cells, rfl, ?_⟩
          obtain ⟨cell, hmem, hcell⟩ := (List.mapM_ok_iff.mp hcells).exists_mem htext
          rw [hcast] at hcell
          cases hcell
          exact hmem
      | succ i =>
          refine Returns.of_forall ?_
          intro texts w₁
          rw [returns_bind, returns_orBail]
          intro cells hcells
          rw [returns_bind]
          refine Returns.mono (ih hfield w₁) ?_
          rintro rest w₂ ⟨column, hcolumn, hnone⟩
          rw [returns_pure]
          exact ⟨column, hcolumn, hnone⟩

/-- Rows with NULL for a NOT NULL column make no batch. -/
theorem buildRecordBatchFromRows_refuses {columns : List CatalogColumn}
    {target : Option (List String)} {rows : List (List String)} {row : List String}
    (hrow : row ∈ rows) {fields : Schema} {i : Nat} {field : ArrowField}
    (hfield : fields[i]? = some field) (hnotNull : field.nullable = false)
    (hname : field.name ≠ "_row_id")
    (hnull : GivesNull x columns field (valuePosition target i field.name) row) (w : World) :
  Returns (buildRecordBatchFromRows o x fields columns target rows) w (fun _ _ => False)
  := by
  have hposition : (positioned 0 fields)[i]? = some (i, field) := by
    rw [positioned_getElem?, hfield]
    simp
  rw [buildRecordBatchFromRows, returns_bind]
  refine Returns.mono (insertColumns_givesNull hrow hposition hnotNull hname hnull w) ?_
  rintro cells w₁ ⟨column, hcolumn, hnone⟩
  split
  · apply returns_bail
  · rename_i hnot
    rw [List.find?_eq_none] at hnot
    have hzip : (field, column) ∈ fields.zip cells :=
      List.mem_of_getElem? (List.getElem?_zip_eq_some.mpr ⟨hfield, hcolumn⟩)
    exact absurd (by simp [hnotNull, hnone]) (hnot _ hzip)

/-- A row of values has NULL for a NOT NULL column of the table. -/
def BringsNull (o : Outside) (x : Execution) (session : SessionContext)
    (database schema : Option String) (name : String) (target : Option (List String))
    (rows : List (List String)) (w : World) : Prop :=
  ∀ relation base, TableAt o w (namedKey session database schema name) relation base →
    ∃ row ∈ rows, ∃ i field, (buildArrowSchemaFromDefinitions relation.columns)[i]? = some field
      ∧ field.nullable = false ∧ field.name ≠ "_row_id"
      ∧ GivesNull x relation.columns field (valuePosition target i field.name) row

/-- An INSERT of NULL into a NOT NULL column is refused, and changes nothing. -/
theorem executeInsertInto_refuses {target : Option (List String)} {rows : List (List String)}
    (hnull : BringsNull o x session database schema name target rows w) :
  After (executeInsertInto o df x session database schema name target rows) w (fun r w' =>
    (∃ e, r = .error e) ∧ w'.catalog = w.catalog ∧ w'.store = w.store)
  := by
  rw [executeInsertInto, after_bind]
  refine After.mono (after_tableRelation database schema name) ?_
  rintro r w₁ ⟨rfl, hrelation⟩
  cases r with
  | error e => exact ⟨⟨e, rfl⟩, rfl, rfl⟩
  | ok relation =>
      obtain ⟨-, hfound⟩ := hrelation relation rfl
      rw [resume_ok, after_bind]
      refine After.mono (after_tableStorePrefix relation) ?_
      rintro r w₂ ⟨rfl, hbase⟩
      cases r with
      | error e => exact ⟨⟨e, rfl⟩, rfl, rfl⟩
      | ok base =>
          obtain ⟨row, hrow, i, field, hfield, hnotNull, hname, hgives⟩ :=
            hnull relation base ⟨hfound, hbase base rfl⟩
          rw [resume_ok]
          dsimp only
          split
          · exact ⟨⟨_, rfl⟩, rfl, rfl⟩
          · rw [after_bind]
            refine After.mono ((buildRecordBatchFromRows_modifies o x (fun _ => False) _ _ _ _
              w₂).and (buildRecordBatchFromRows_refuses hrow hfield hnotNull hname hgives w₂)) ?_
            rintro r w₃ ⟨hframe, hreturned⟩
            cases r with
            | error e => exact ⟨⟨e, rfl⟩, hframe.catalog, hframe.store_eq⟩
            | ok batch => exact (hreturned batch rfl).elim

end

/-! ### Runs -/

/-- The statements that create tables, write rows and change columns. -/
inductive ColumnWrite where
  | createTable (database schema : Option String) (name : String) (columns : List CatalogColumn)
      (constraints : List TableConstraintDefinition)
  | insertInto (database schema : Option String) (name : String) (columns : Option (List String))
      (rows : List (List String))
  | insertSelect (insert : InsertSelect)
  | update (database schema : Option String) (name : String)
      (assignments : List (String × String)) (selection : Option String)
  | alterColumns (database schema : Option String) (name : String) (statement : ColumnStatement)

section

variable (o : Outside) (df : DataFusion) (x : Execution)

def executeColumnWrite (session : SessionContext) : ColumnWrite → EngineOp Unit
  | .createTable database schema name columns constraints => do
    let _ ← onWorld (executeCreate o df session database schema name
      (.createTable columns constraints))
  | .insertInto database schema name columns rows => do
    let _ ← onWorld (executeInsertInto o df x session database schema name columns rows)
  | .insertSelect insert => do
    let _ ← executeInsertSelect o df x session insert
  | .update database schema name assignments selection => do
    let _ ← onWorld (executeUpdate o df session database schema name assignments selection)
  | .alterColumns database schema name statement => do
    let _ ← onWorld (executeAlterColumns o df session database schema name statement)

/-- The state after a statement, whether it succeeds or not. -/
def afterColumnWrite (request : SessionContext × ColumnWrite) (s : EngineState) : EngineState :=
  (Eff.exec (executeColumnWrite o df x request.1 request.2) s).2

/-- A statement that brings no NULL into a NOT NULL column past the checks. -/
def Fills (request : SessionContext × ColumnWrite) (s : EngineState) : Prop :=
  match request.2 with
  | .createTable database schema name columns _ =>
    CreateClear o request.1 database schema name columns s.world
  | .insertInto _ _ _ _ _ => True
  | .insertSelect insert => SelectFilled o x request.1 insert s.world
  | .update database schema name assignments selection =>
    UpdateFilled o df request.1 database schema name assignments selection s.world
  | .alterColumns database schema name statement =>
    AlterFilled o request.1 database schema name statement s.world

/-- Statements that bring no NULL into NOT NULL columns past the checks. -/
abbrev FillingStep : EngineState → EngineState → Prop :=
  Run.byOps (afterColumnWrite o df x) (Fills o df x)

/-- A system without tables. -/
def NoTables (s : EngineState) : Prop :=
  ∀ key : String, s.world.catalog.relations[key]? = none

end

section

open Eff

variable {o : Outside} {df : DataFusion} {x : Execution} {s : EngineState}

/-- A statement at the world, and what it leaves. -/
theorem after_onWorld_discard {α : Type} {m : Op α} {P : World → Prop}
    (h : After m s.world (fun _ w' => P w')) :
  After (do let _ ← onWorld m; pure () : EngineOp Unit) s (fun _ s' => P s'.world)
  := by
  rw [after_bind, after_onWorld]
  refine After.mono h ?_
  intro r w' hafter
  cases r with
  | error e => exact hafter
  | ok _ => exact hafter

theorem NullFree.statement (h : NullFree o s.world) {request : SessionContext × ColumnWrite}
    (hfills : Fills o df x request s) :
  NullFree o (afterColumnWrite o df x request s).world
  := by
  change After (executeColumnWrite o df x request.1 request.2) s (fun _ s' => NullFree o s'.world)
  obtain ⟨session, statement⟩ := request
  cases statement with
  | createTable database schema name columns constraints =>
      exact after_onWorld_discard (h.create hfills)
  | insertInto database schema name columns rows =>
      refine after_onWorld_discard (After.mono (executeInsertInto_kept columns rows
        (fun relation hfound => h.distinct _ relation hfound)) ?_)
      intro r w' hkept
      exact h.of_kept hkept
  | insertSelect insert =>
      unfold executeColumnWrite
      rw [after_bind]
      refine After.mono (executeInsertSelect_kept hfills) ?_
      intro r s' hkept
      cases r with
      | error e => exact h.of_kept hkept
      | ok _ => exact h.of_kept hkept
  | update database schema name assignments selection =>
      refine after_onWorld_discard (After.mono (executeUpdate_kept hfills) ?_)
      intro r w' hkept
      exact h.of_kept hkept
  | alterColumns database schema name statement =>
      exact after_onWorld_discard (h.alterColumns hfills)

theorem reachable_nullFree (h : Run.Reachable NoTables (FillingStep o df x) s) :
  NullFree o s.world
  := by
  apply h.invariant
  · intro s hnone
    refine ⟨?_, ?_, ?_⟩
    · intro i j a b _ ha
      rw [recorded, hnone] at ha
      cases ha
    · intro key relation hfound
      rw [hnone] at hfound
      cases hfound
    · rintro key relation base ⟨hfound, -⟩
      rw [hnone] at hfound
      cases hfound
  · rintro s t hfree ⟨request, hfills, rfl⟩
    exact hfree.statement hfills

end

/-! ### A column made NOT NULL -/

section

open Eff

/-- A first install. -/
def firstEngine : EngineState :=
  { world := .bootstrap
    fileListCache := .new }

/-- A DataFusion that names types as Arrow prints them. -/
abbrev printingDataFusion : DataFusion :=
  { sampleDataFusion with typeText := DataType.debugText }

/-- The system after some statements. -/
abbrev runWrites (statements : List ColumnWrite) : EngineState :=
  Run.performAll (afterColumnWrite Outside.faultless printingDataFusion plainExecution)
    (statements.map (fun statement => (({} : SessionContext), statement))) firstEngine

/-- `CREATE TABLE t (k INT)`, NOT NULL or not. -/
abbrev createNumbers (nullable : Bool) : ColumnWrite :=
  .createTable none none "t" [⟨"k", "INT", nullable, none⟩] []

/-- The path of the table. -/
abbrev numbersBase : OPath :=
  ["file://", "data", "catalog.managed", "db=postgres", "schema=public", "table=t"]

theorem firstEngine_noTables :
  NoTables firstEngine
  := by
  intro key
  rfl

/-- The system after `CREATE TABLE t (k INT)` and `INSERT INTO t VALUES (NULL)`. -/
def nullNumbers : EngineState :=
  runWrites [createNumbers true, .insertInto none none "t" none [["NULL"]]]

/-- `ALTER TABLE t ALTER COLUMN k SET NOT NULL`. -/
def setNotNull : ColumnWrite := .alterColumns none none "t" (.alterColumn "k" .setNotNull)

/-- The system after that. -/
def notNullNumbers : EngineState :=
  afterColumnWrite Outside.faultless printingDataFusion plainExecution ({}, setNotNull) nullNumbers

end
