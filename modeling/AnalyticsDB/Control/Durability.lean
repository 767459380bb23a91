import AnalyticsDB.Control.Publishing

/-!
# The stored catalogue

An operation changes the catalogue in memory under the write lock, takes the lock again to bump
the version, and writes the catalogue it then sees to the file under the read lock.  While a write
is under way nobody changes the catalogue, unless the operation that started it was abandoned: its
lock is released, and the write goes on.  What is proved is when the file follows the memory.
-/

namespace Durability

/-- A catalogue, and how many changes of the memory led to it. -/
structure Moment where
  catalog : CatalogState
  changes : Nat

/-- What is left to do of an operation in progress, which made its change as the change of this
number.  An operation that renames a database writes the catalogue under the write lock. -/
inductive Work where
  | bumping (made : Nat)
  | waiting (made : Nat)
  | saving (made : Nat) (seen : Moment)
  | renaming (made : Nat) (seen : Moment)
  | sending (made : Nat)

/-- The catalogue that is being written. -/
def Work.seen? : Work → Option Moment
  | .saving _ seen | .renaming _ seen => some seen
  | .bumping _ | .waiting _ | .sending _ => none

def Work.made : Work → Nat
  | .bumping made | .waiting made | .saving made _ | .renaming made _ | .sending made => made

/-- The catalogue is not written yet. -/
def Work.unsaved : Work → Bool
  | .sending _ => false
  | _ => true

/-- A control plane with a file: the catalogue in memory, the operations in progress, the writes
that go on although their operations were abandoned, the catalogues the file has had, the current
one last, and the changes of the operations that succeeded. -/
structure Server where
  memory : Moment
  running : List Work
  detached : List Moment
  disk : List Moment
  returned : List Nat

/-- What a file holds of a catalogue: a SQLite file has no table for the storage policies. -/
def storedMoment (sqlite : Bool) (seen : Moment) : Moment :=
  if sqlite then
    { seen with
      catalog := { seen.catalog with storagePolicies := ∅ } }
  else
    seen

namespace Server

/-- A control plane that was just opened over its file. -/
structure Opened (sqlite : Bool) (s : Server) : Prop where
  idle : s.running = []
  detached_eq : s.detached = []
  disk_eq : s.disk = [s.memory]
  returned_eq : s.returned = []
  version_le : s.memory.catalog.catalogueVersion ≤ u64Max
  policies : sqlite = true → s.memory.catalog.storagePolicies = ∅

/-- Nobody holds the lock. -/
def Unlocked (s : Server) : Prop := ∀ work ∈ s.running, work.seen? = none

/-- Nobody holds the write lock. -/
def Readable (s : Server) : Prop := ∀ made seen, Work.renaming made seen ∉ s.running

/-- The memory after a change. -/
def changed (s : Server) (state : CatalogState) : Moment := ⟨state, s.memory.changes + 1⟩

/-- The versions in the file never go back, what succeeded is in it, and when no operation is in
progress it is what is in memory. -/
structure Durable (s : Server) : Prop where
  ordered : s.disk.Pairwise (fun earlier later =>
    earlier.catalog.catalogueVersion ≤ later.catalog.catalogueVersion)
  returned : ∀ made ∈ s.returned, ∃ stored, s.disk.getLast? = some stored ∧ made ≤ stored.changes
  current : s.running = [] → ∃ stored, s.disk.getLast? = some stored
    ∧ stored.catalog = s.memory.catalog

/-- The steps of a control plane.  An orderly step does not abandon an operation before its
catalogue is written, no write fails in it, and it changes nothing that is not written. -/
inductive Step (sqlite orderly : Bool) : Server → Server → Prop
  /-- An operation makes its change under the write lock. -/
  | change {s : Server} (session : SessionContext) (op : ControlOp) (state : CatalogState) :
      s.Unlocked → op.Effect session s.memory.catalog state →
      (orderly = true → sqlite = true →
        state.storagePolicies = s.memory.catalog.storagePolicies) →
      Step sqlite orderly s { s with
        memory := s.changed state
        running := .bumping (s.memory.changes + 1) :: s.running }
  /-- The configuration is changed in memory only. -/
  | configure {s : Server} (config : Option ClusterConfig) : s.Unlocked → orderly = false →
      Step sqlite orderly s { s with
        memory := s.changed { s.memory.catalog with config := config }
        returned := (s.memory.changes + 1) :: s.returned }
  /-- A database is renamed, and the write lock is held until the catalogue is written. -/
  | renameDatabase {s : Server} (name newName : String) (state : CatalogState) : s.Unlocked →
      RenamesDatabase s.memory.catalog name newName state →
      Step sqlite orderly s { s with
        memory := s.changed state
        running := .renaming (s.memory.changes + 1) (s.changed state) :: s.running }
  /-- An operation fails and leaves something behind. -/
  | spoil {s : Server} (session : SessionContext) (op : ControlOp) (o : Outside) (w : World)
      (state : CatalogState) : s.Unlocked → orderly = false → w.catalog = s.memory.catalog →
      op.Spoil session o w state → Step sqlite orderly s { s with memory := s.changed state }
  /-- An operation bumps the version under the write lock. -/
  | bump {s : Server} (made : Nat) (before after : List Work) : s.Unlocked →
      s.running = before ++ .bumping made :: after →
      Step sqlite orderly s { s with
        memory := s.changed s.memory.catalog.bump
        running := before ++ .waiting made :: after }
  /-- An operation takes the read lock and starts to write the catalogue. -/
  | startSave {s : Server} (made : Nat) (before after : List Work) : s.Readable →
      s.running = before ++ .waiting made :: after →
      Step sqlite orderly s { s with running := before ++ .saving made s.memory :: after }
  /-- The catalogue is written. -/
  | finishSave {s : Server} (made : Nat) (seen : Moment) (before after : List Work) :
      s.running = before ++ .saving made seen :: after →
      Step sqlite orderly s { s with
        running := before ++ .sending made :: after
        disk := s.disk ++ [storedMoment sqlite seen] }
  /-- The catalogue is written, and the database renamed. -/
  | finishRename {s : Server} (made : Nat) (seen : Moment) (before after : List Work) :
      s.running = before ++ .renaming made seen :: after →
      Step sqlite orderly s { s with
        running := before ++ after
        disk := s.disk ++ [storedMoment sqlite seen]
        returned := made :: s.returned }
  /-- The catalogue cannot be written, and the operation fails. -/
  | saveFails {s : Server} (work : Work) (before after : List Work) : orderly = false →
      s.running = before ++ work :: after → work.seen?.isSome = true →
      Step sqlite orderly s { s with running := before ++ after }
  /-- An operation sends its version and succeeds. -/
  | send {s : Server} (made : Nat) (before after : List Work) :
      s.running = before ++ .sending made :: after →
      Step sqlite orderly s { s with
        running := before ++ after
        returned := made :: s.returned }
  /-- An operation is abandoned where it waits.  A write that was started goes on. -/
  | abandon {s : Server} (work : Work) (before after : List Work) : orderly = false →
      s.running = before ++ work :: after → work.unsaved = true →
      Step sqlite orderly s { s with
        running := before ++ after
        detached := work.seen?.toList ++ s.detached }
  /-- A write ends whose operation was abandoned. -/
  | finishDetached {s : Server} (seen : Moment) (before after : List Moment) :
      s.detached = before ++ seen :: after →
      Step sqlite orderly s { s with
        detached := before ++ after
        disk := s.disk ++ [storedMoment sqlite seen] }
  /-- A write fails whose operation was abandoned. -/
  | detachedFails {s : Server} (seen : Moment) (before after : List Moment) :
      s.detached = before ++ seen :: after →
      Step sqlite orderly s { s with detached := before ++ after }

/-- What holds along every run of orderly steps. -/
structure Invariant (sqlite : Bool) (s : Server) : Prop where
  version_le : s.memory.catalog.catalogueVersion ≤ u64Max
  policies : sqlite = true → s.memory.catalog.storagePolicies = ∅
  detached_eq : s.detached = []
  /-- What is being written is what is in memory. -/
  seen_eq : ∀ work ∈ s.running, ∀ seen, work.seen? = some seen → seen = s.memory
  made_le : ∀ work ∈ s.running, work.made ≤ s.memory.changes
  disk_le : ∀ stored ∈ s.disk,
    stored.catalog.catalogueVersion ≤ s.memory.catalog.catalogueVersion
      ∧ stored.changes ≤ s.memory.changes
  ordered : s.disk.Pairwise (fun earlier later =>
    earlier.catalog.catalogueVersion ≤ later.catalog.catalogueVersion)
  /-- What succeeded or is about to is in the file, which is behind the memory only while some
  operation has yet to write it. -/
  last : ∃ stored, s.disk.getLast? = some stored
    ∧ (∀ made ∈ s.returned, made ≤ stored.changes)
    ∧ (∀ work ∈ s.running, work.unsaved = false → work.made ≤ stored.changes)
    ∧ (stored.catalog = s.memory.catalog ∨ ∃ work ∈ s.running, work.unsaved = true)

theorem Invariant.durable {sqlite : Bool} {s : Server} (h : s.Invariant sqlite) :
  s.Durable
  := by
  obtain ⟨stored, hlast, hreturned, -, hcurrent⟩ := h.last
  constructor
  · exact h.ordered
  · intro made hmade
    exact ⟨stored, hlast, hreturned made hmade⟩
  · intro hidle
    refine ⟨stored, hlast, hcurrent.resolve_right ?_⟩
    simp [hidle]

theorem Opened.invariant {sqlite : Bool} {s : Server} (h : s.Opened sqlite) :
  s.Invariant sqlite
  := by
  constructor
  · exact h.version_le
  · exact h.policies
  · exact h.detached_eq
  · simp [h.idle]
  · simp [h.idle]
  · simp [h.disk_eq]
  · simp [h.disk_eq]
  · exact ⟨s.memory, by simp [h.disk_eq], by simp [h.returned_eq], by simp [h.idle], .inl rfl⟩

/-- A file keeps all of a catalogue that has no storage policies. -/
theorem storedMoment_eq {sqlite : Bool} {seen : Moment}
    (h : sqlite = true → seen.catalog.storagePolicies = ∅) :
  storedMoment sqlite seen = seen
  := by
  unfold storedMoment
  split
  · rename_i hsqlite
    rw [← h hsqlite]
  · rfl

/-- A change of the memory that nobody writes meanwhile, by an operation that has yet to write
it. -/
theorem Invariant.change {sqlite : Bool} {s : Server} (h : s.Invariant sqlite)
    (state : CatalogState) (work : Work) {running : List Work}
    (hversion : s.memory.catalog.catalogueVersion ≤ state.catalogueVersion)
    (hmax : state.catalogueVersion ≤ u64Max)
    (hpolicies : sqlite = true → state.storagePolicies = ∅)
    (hseen : ∀ seen, work.seen? = some seen → seen = s.changed state)
    (hmade : work.made ≤ s.memory.changes + 1) (hunsaved : work.unsaved = true)
    (hwork : work ∈ running)
    (hunlocked : s.Unlocked) (hrunning : ∀ other ∈ running, other ∈ s.running ∨ other = work) :
  Invariant sqlite { s with
    memory := s.changed state
    running := running }
  := by
  obtain ⟨stored, hlast, hreturned, hsending, -⟩ := h.last
  constructor
  · exact hmax
  · exact hpolicies
  · exact h.detached_eq
  · intro other hother seen hother'
    rcases hrunning other hother with hold | rfl
    · rw [hunlocked other hold] at hother'
      cases hother'
    · exact hseen seen hother'
  · intro other hother
    rcases hrunning other hother with hold | rfl
    · exact (h.made_le other hold).trans (Nat.le_succ _)
    · exact hmade
  · intro stored hstored
    obtain ⟨hle, hchanges⟩ := h.disk_le stored hstored
    exact ⟨hle.trans hversion, hchanges.trans (Nat.le_succ _)⟩
  · exact h.ordered
  · refine ⟨stored, hlast, hreturned, ?_, .inr ⟨work, hwork, hunsaved⟩⟩
    intro other hother hsaved
    rcases hrunning other hother with hold | rfl
    · exact hsending other hold hsaved
    · rw [hunsaved] at hsaved
      cases hsaved

/-- The catalogue in memory is written, and the operation that wrote it goes on or succeeds. -/
theorem Invariant.write {sqlite : Bool} {s : Server} (h : s.Invariant sqlite)
    {seen : Moment} (work : Work) {running : List Work} {returned : List Nat}
    (hwork : work ∈ s.running) (hseen : work.seen? = some seen)
    (hrunning : ∀ other ∈ running,
      other ∈ s.running ∨ other.seen? = none ∧ other.made = work.made)
    (hreturned : ∀ made ∈ returned, made ∈ s.returned ∨ made = work.made) :
  Invariant sqlite { s with
    running := running
    disk := s.disk ++ [storedMoment sqlite seen]
    returned := returned }
  := by
  cases h.seen_eq work hwork seen hseen
  rw [storedMoment_eq h.policies]
  obtain ⟨stored, hlast, hold, -, -⟩ := h.last
  obtain ⟨-, hchanges⟩ := h.disk_le stored (List.mem_of_getLast? hlast)
  have hmade := h.made_le work hwork
  have hrunning_le : ∀ other ∈ running, other.made ≤ s.memory.changes := by
    intro other hother
    rcases hrunning other hother with hother' | ⟨-, heq⟩
    · exact h.made_le other hother'
    · rwa [heq]
  constructor
  · exact h.version_le
  · exact h.policies
  · exact h.detached_eq
  · intro other hother seen hother'
    rcases hrunning other hother with hold | ⟨hnone, -⟩
    · exact h.seen_eq other hold seen hother'
    · rw [hnone] at hother'
      cases hother'
  · exact hrunning_le
  · intro other hother
    rcases List.mem_append.mp hother with hdisk | hdisk
    · exact h.disk_le other hdisk
    · cases List.mem_singleton.mp hdisk
      exact ⟨Nat.le_refl _, Nat.le_refl _⟩
  · rw [List.pairwise_append]
    refine ⟨h.ordered, List.pairwise_singleton _ _, ?_⟩
    intro earlier hearlier later hlater
    cases List.mem_singleton.mp hlater
    exact (h.disk_le earlier hearlier).1
  · refine ⟨s.memory, List.getLast?_concat .., ?_, ?_, .inl rfl⟩
    · intro made hmem
      rcases hreturned made hmem with hmem | rfl
      · exact (hold made hmem).trans hchanges
      · exact hmade
    · intro other hother _
      exact hrunning_le other hother

theorem le_bump_version {state : CatalogState} (h : state.catalogueVersion ≤ u64Max) :
  state.catalogueVersion ≤ state.bump.catalogueVersion ∧ state.bump.catalogueVersion ≤ u64Max
  := by
  simp only [CatalogState.bump]
  omega

/-- Every orderly step keeps the invariant. -/
theorem Invariant.step {sqlite : Bool} {s s' : Server} (h : s.Invariant sqlite)
    (hstep : Step sqlite true s s') :
  s'.Invariant sqlite
  := by
  cases hstep with
  | change session op state hunlocked heffect hpolicies =>
      have hversion := heffect.rest.version_eq
      apply h.change state (.bumping (s.memory.changes + 1)) (by rw [hversion])
      · rw [hversion]
        exact h.version_le
      · intro hsqlite
        rw [hpolicies rfl hsqlite]
        exact h.policies hsqlite
      · intro seen hseen
        cases hseen
      · exact Nat.le_refl _
      · rfl
      · exact List.mem_cons_self ..
      · exact hunlocked
      · intro other hother
        exact (List.mem_cons.mp hother).symm
  | configure _ _ horderly => cases horderly
  | renameDatabase name newName state hunlocked hrenames =>
      obtain ⟨database, -, -, -, -, rfl⟩ := hrenames
      apply h.change (renameDatabaseState name newName database s.memory.catalog)
        (.renaming (s.memory.changes + 1) _) (Nat.le_refl _)
      · exact h.version_le
      · exact h.policies
      · intro seen hseen
        cases hseen
        rfl
      · exact Nat.le_refl _
      · rfl
      · exact List.mem_cons_self ..
      · exact hunlocked
      · intro other hother
        exact (List.mem_cons.mp hother).symm
  | spoil _ _ _ _ _ _ horderly => cases horderly
  | bump made before after hunlocked hrunning =>
      obtain ⟨hle, hmax⟩ := le_bump_version h.version_le
      apply h.change s.memory.catalog.bump (.waiting made) hle hmax
      · exact h.policies
      · intro seen hseen
        cases hseen
      · have hmade := h.made_le (.bumping made) (by simp [hrunning])
        exact Nat.le_succ_of_le hmade
      · rfl
      · simp
      · exact hunlocked
      · intro other hother
        simp only [List.mem_append, List.mem_cons, hrunning] at hother ⊢
        tauto
  | startSave made before after hreadable hrunning =>
      have hmem : ∀ other, other ∈ before ++ .saving made s.memory :: after →
          other ∈ s.running ∨ other = .saving made s.memory := by
        intro other hother
        simp only [List.mem_append, List.mem_cons, hrunning] at hother ⊢
        tauto
      obtain ⟨stored, hlast, hreturned, hsending, -⟩ := h.last
      constructor
      · exact h.version_le
      · exact h.policies
      · exact h.detached_eq
      · intro other hother seen hseen
        rcases hmem other hother with hold | rfl
        · exact h.seen_eq other hold seen hseen
        · cases hseen
          rfl
      · intro other hother
        rcases hmem other hother with hold | rfl
        · exact h.made_le other hold
        · exact h.made_le (.waiting made) (by simp [hrunning])
      · exact h.disk_le
      · exact h.ordered
      · refine ⟨stored, hlast, hreturned, ?_, .inr ⟨.saving made s.memory, by simp, rfl⟩⟩
        intro other hother hsaved
        rcases hmem other hother with hold | rfl
        · exact hsending other hold hsaved
        · cases hsaved
  | finishSave made seen before after hrunning =>
      apply h.write (.saving made seen) (by simp [hrunning]) rfl
      · intro other hother
        simp only [List.mem_append, List.mem_cons, hrunning] at hother ⊢
        rcases hother with hother | rfl | hother
        · exact .inl (.inl hother)
        · exact .inr ⟨rfl, rfl⟩
        · exact .inl (.inr (.inr hother))
      · intro other hother
        exact .inl hother
  | finishRename made seen before after hrunning =>
      apply h.write (.renaming made seen) (by simp [hrunning]) rfl
      · intro other hother
        simp only [List.mem_append, List.mem_cons, hrunning] at hother ⊢
        tauto
      · intro other hother
        exact (List.mem_cons.mp hother).symm
  | saveFails _ _ _ horderly => cases horderly
  | send made before after hrunning =>
      have hmem : ∀ other, other ∈ before ++ after → other ∈ s.running := by
        intro other hother
        simp only [List.mem_append, List.mem_cons, hrunning] at hother ⊢
        tauto
      obtain ⟨stored, hlast, hreturned, hsending, hcurrent⟩ := h.last
      have hsent := hsending (.sending made) (by simp [hrunning]) rfl
      constructor
      · exact h.version_le
      · exact h.policies
      · exact h.detached_eq
      · intro other hother
        exact h.seen_eq other (hmem other hother)
      · intro other hother
        exact h.made_le other (hmem other hother)
      · exact h.disk_le
      · exact h.ordered
      · refine ⟨stored, hlast, ?_, ?_, ?_⟩
        · intro other hother
          rcases List.mem_cons.mp hother with rfl | hother
          · exact hsent
          · exact hreturned other hother
        · intro other hother
          exact hsending other (hmem other hother)
        · rcases hcurrent with hcurrent | ⟨work, hwork, hunsaved⟩
          · exact .inl hcurrent
          · right
            refine ⟨work, ?_, hunsaved⟩
            simp only [List.mem_append, List.mem_cons, hrunning] at hwork ⊢
            rcases hwork with hwork | rfl | hwork
            · exact .inl hwork
            · cases hunsaved
            · exact .inr hwork
  | abandon _ _ _ horderly => cases horderly
  | finishDetached seen before after hdetached =>
      rw [h.detached_eq] at hdetached
      simp at hdetached
  | detachedFails seen before after hdetached =>
      rw [h.detached_eq] at hdetached
      simp at hdetached

/-- In every run in which no operation is abandoned before its catalogue is written, no write
fails, nothing is left behind by an operation that fails, and nothing is changed that is not
written, the file is up to date. -/
theorem reachable_durable (sqlite : Bool) {s : Server}
    (h : Run.Reachable (Opened sqlite) (Step sqlite true) s) :
  s.Durable
  := by
  have hinvariant := h.invariant (fun _ => Opened.invariant) (fun _ _ hs hstep => hs.step hstep)
  exact hinvariant.durable

/-! ### An operation alone -/

/-- The control plane of a system in which no operation is in progress. -/
def ofWorld (w : World) (changes : Nat) (disk : List Moment) (returned : List Nat) : Server :=
  { memory := ⟨w.catalog, changes⟩, running := [], detached := [], disk := disk
    returned := returned }

/-- An operation that nothing interferes with takes these steps, one after another. -/
theorem performOp_steps (sqlite : Bool) (o : Outside) (session : SessionContext) (op : ControlOp)
    (w : World) (changes : Nat) (disk : List Moment) (returned : List Nat) :
  Eff.After (performOp o session op) w (fun _ w' => ∃ changes' disk' returned',
    Relation.ReflTransGen (Step sqlite false) (ofWorld w changes disk returned)
      (ofWorld w' changes' disk' returned'))
  := by
  apply Eff.After.mono (performOp_performs o session w op)
  rintro r w' ⟨-, houtcome⟩
  have hunlocked : (ofWorld w changes disk returned).Unlocked := by
    intro work hwork
    cases hwork
  -- the change, and the bump
  have hbumped : ∀ {state}, op.Effect session w.catalog state → Relation.ReflTransGen
      (Step sqlite false) (ofWorld w changes disk returned)
        { memory := ⟨state.bump, changes + 1 + 1⟩, running := [.waiting (changes + 1)]
          detached := [], disk := disk, returned := returned } := by
    intro state heffect
    have hchange : Step sqlite false (ofWorld w changes disk returned) _ :=
      .change session op state hunlocked heffect (fun h => by cases h)
    refine (Relation.ReflTransGen.single hchange).tail (.bump _ [] [] ?_ rfl)
    intro work hwork
    cases List.mem_singleton.mp hwork
    rfl
  have hreadable : ∀ {memory : Moment}, Readable
      { memory := memory, running := [.waiting (changes + 1)], detached := [], disk := disk
        returned := returned } := by
    intro memory made seen hseen
    cases List.mem_singleton.mp hseen
  cases houtcome with
  | same hcatalog hpublished =>
      refine ⟨changes, disk, returned, ?_⟩
      rw [ofWorld, ofWorld, hcatalog]
  | saved state heffect hcatalog hpublished =>
      have hsaving := (hbumped heffect).tail (.startSave _ [] [] hreadable rfl)
      have hsaved := hsaving.tail (.finishSave _ _ [] [] rfl)
      have hsent := hsaved.tail (.send _ [] [] rfl)
      refine ⟨changes + 1 + 1, disk ++ [storedMoment sqlite ⟨state.bump, changes + 1 + 1⟩],
        (changes + 1) :: returned, ?_⟩
      rw [ofWorld, ofWorld, hcatalog]
      exact hsent
  | unsaved state heffect hcatalog hpublished hfails =>
      have hsaving := (hbumped heffect).tail (.startSave _ [] [] hreadable rfl)
      have hfailed := hsaving.tail (.saveFails _ [] [] rfl rfl rfl)
      refine ⟨changes + 1 + 1, disk, returned, ?_⟩
      rw [ofWorld, ofWorld, hcatalog]
      exact hfailed
  | quiet hquiet hpublished hfails =>
      cases op with
      | setTlsPaths | setJwtSecret | setStorageRoot =>
          obtain ⟨config, hconfig⟩ := hquiet
          refine ⟨changes + 1, disk, (changes + 1) :: returned, ?_⟩
          rw [ofWorld, ofWorld, hconfig]
          exact .single (.configure config hunlocked rfl)
      | alterDatabase name operation =>
          cases operation with
          | rename newName =>
              have hrenames : Step sqlite false (ofWorld w changes disk returned) _ :=
                .renameDatabase name newName w'.catalog hunlocked hquiet
              cases r with
              | ok message =>
                  exact ⟨_, _, _, (Relation.ReflTransGen.single hrenames).tail
                    (.finishRename _ _ [] [] rfl)⟩
              | error e =>
                  exact ⟨_, _, _, (Relation.ReflTransGen.single hrenames).tail
                    (.saveFails _ [] [] rfl rfl rfl)⟩
          | ownerTo | setParam => cases hquiet
      | _ => cases hquiet
  | spoiled hspoil hpublished =>
      refine ⟨_, _, _, .single (.spoil session op o w w'.catalog hunlocked rfl rfl hspoil)⟩

/-! ### Operations that are abandoned -/

/-- A first install. -/
def sample : Server := ofWorld World.bootstrap 0 [⟨World.bootstrap.catalog, 0⟩] []

theorem sample_opened (sqlite : Bool) :
  sample.Opened sqlite
  := by
  constructor
  · rfl
  · rfl
  · rfl
  · rfl
  · decide
  · intro _
    rfl

/-- A database is created. -/
theorem reachable_durable_createDatabase :
  ∃ s : Server, s.Durable ∧ s.running = [] ∧ s.returned = [1]
    ∧ s.memory.catalog.databases.contains "a" = true
  := by
  have hopened : Run.Reachable (Opened true) (Step true true) sample :=
    .start (sample_opened true)
  have hchanged := hopened.step (.change {} (.createDatabase "a") _ (by simp [Unlocked, sample,
    ofWorld]) ⟨by decide, by decide, rfl⟩ (fun _ _ => rfl))
  have hbumped := hchanged.step (.bump 1 [] [] (by simp [Unlocked, sample, ofWorld, Work.seen?])
    rfl)
  have hsaving := hbumped.step (.startSave 1 [] [] (by simp [Readable]) rfl)
  have hsaved := hsaving.step (.finishSave 1 _ [] [] rfl)
  have hsent := hsaved.step (.send 1 [] [] rfl)
  refine ⟨_, reachable_durable true hsent, rfl, rfl, ?_⟩
  decide

/-- A statement that creates a database times out before the catalogue is written: the database is
there until the control plane is opened again.  When it times out while the catalogue is being
written, a later operation may be written first. -/
theorem abandoned_not_durable :
  (∃ s : Server, Run.Reachable (Opened true) (Step true false) s ∧ s.running = []
      ∧ s.memory.catalog.databases.contains "a" = true
      ∧ s.disk.map (fun stored => stored.catalog.databases.contains "a") = [false]
      ∧ ¬ s.Durable)
    ∧ ∃ s : Server, Run.Reachable (Opened true) (Step true false) s ∧ s.running = []
      ∧ s.returned = [3]
      ∧ s.disk.map (fun stored => stored.catalog.catalogueVersion) = [0, 2, 1]
  := by
  have hopened : Run.Reachable (Opened true) (Step true false) sample :=
    .start (sample_opened true)
  have hchanged := hopened.step (.change {} (.createDatabase "a") _ (by simp [Unlocked, sample,
    ofWorld]) ⟨by decide, by decide, rfl⟩ (fun h => by cases h))
  constructor
  · have habandoned := hchanged.step (.abandon (.bumping 1) [] [] rfl rfl rfl)
    refine ⟨_, habandoned, rfl, by decide, by decide, ?_⟩
    intro hdurable
    obtain ⟨stored, hlast, hcatalog⟩ := hdurable.current rfl
    cases hlast
    have hcontains := congrArg (fun state => state.databases.contains "a") hcatalog
    revert hcontains
    decide
  · have hbumped := hchanged.step (.bump 1 [] [] (by simp [Unlocked, sample, ofWorld, Work.seen?])
      rfl)
    have hsaving := hbumped.step (.startSave 1 [] [] (by simp [Readable]) rfl)
    have habandoned := hsaving.step (.abandon _ [] [] rfl rfl rfl)
    have hsecond := habandoned.step (.change {} (.createDatabase "b") _ (by simp [Unlocked])
      ⟨by decide, by decide, rfl⟩ (fun h => by cases h))
    have hsecondBumped := hsecond.step (.bump 3 [] [] (by simp [Unlocked, Work.seen?]) rfl)
    have hsecondSaving := hsecondBumped.step (.startSave 3 [] [] (by simp [Readable]) rfl)
    have hsecondSaved := hsecondSaving.step (.finishSave 3 _ [] [] rfl)
    have hsecondSent := hsecondSaved.step (.send 3 [] [] rfl)
    have hovertaken := hsecondSent.step (.finishDetached _ [] [] rfl)
    refine ⟨_, hovertaken, rfl, rfl, ?_⟩
    decide

end Server

end Durability
