import AnalyticsDB.Engine.FileListCache
import AnalyticsDB.Lib.Tasks

/-!
# Readers and writers of the cache of file lists

Any number of readers call `get_or_list` while writers change manifests and call `invalidate`.
A reader reads the epoch, reads the cache, lists the manifest, and stores its list; a writer
changes the manifest, reads the epoch, and writes the next one.  Any two of these steps of
different tasks may follow each other.

A reader that starts after a writer is done must obtain the change of the writer.  It does, as
long as no writer writes an epoch below the current one.
-/

/-- What a writer does to the files a manifest lists. -/
abbrev FileEdit := List ListedFile → List ListedFile

/-- The two maps of the cache and the manifests, by key.  A manifest is what it listed at first
and the changes made since, each with the writer that made it. -/
structure SharedLists (ι : Type) where
  cache : KeyMap (Nat × List ListedFile)
  epochs : KeyMap Nat
  listed : String → List ListedFile
  changes : String → List (ι × FileEdit)

/-- A reader or a writer, by the step it takes next. -/
inductive CacheTask where
  -- `get_or_list`
  | readEpoch (key : String)
  | readCache (key : String) (currentEpoch : Nat)
  | list (key : String) (currentEpoch : Nat)
  | store (key : String) (currentEpoch : Nat) (files : List ListedFile)
  | obtained (key : String) (result : Except String (List ListedFile))
  -- a change of the manifest, and `invalidate`
  | change (key : String) (edit : FileEdit)
  | readBump (key : String)
  | writeBump (key : String) (newEpoch : Nat)
  | invalidated (key : String)

namespace SharedLists

variable {ι : Type}

/-- The current epoch of a key. -/
def currentEpoch (s : SharedLists ι) (key : String) : Nat := s.epochs[key]?.getD 0

/-- The files of a manifest after some changes. -/
def filesAfter (s : SharedLists ι) (key : String) (changes : List (ι × FileEdit)) :
    List ListedFile :=
  changes.foldl (fun files change => change.2 files) (s.listed key)

/-- The list for the reader whose epoch is the one the cached list was made in. -/
def cachedIn (s : SharedLists ι) (key : String) (epoch : Nat) : Option (List ListedFile) :=
  match s.cache[key]? with
  | some (cachedEpoch, files) => if cachedEpoch = epoch then some files else none
  | none => none

/-- The files are the ones the manifest had at some time after the change of this writer. -/
def Includes (s : SharedLists ι) (key : String) (i : ι) (files : List ListedFile) : Prop :=
  ∃ seen, seen <+: s.changes key ∧ i ∈ seen.map (·.1) ∧ files = s.filesAfter key seen

/-- A list made now holds the changes made so far. -/
theorem includes_filesAfter {s : SharedLists ι} {key : String} {i : ι}
    (h : i ∈ (s.changes key).map (·.1)) :
  s.Includes key i (s.filesAfter key (s.changes key))
  := ⟨_, List.prefix_refl _, h, rfl⟩

end SharedLists

section

variable {ι : Type}

/-- One step of a reader or a writer.  `fault` is the error of a listing. -/
def cacheMove (fault : Option String) (i : ι) (s : SharedLists ι) :
    CacheTask → SharedLists ι × CacheTask
  | .readEpoch key => (s, .readCache key (s.currentEpoch key))
  | .readCache key currentEpoch =>
    match s.cachedIn key currentEpoch with
    | some files => (s, .obtained key (.ok files))
    | none => (s, .list key currentEpoch)
  | .list key currentEpoch =>
    match fault with
    | some e => (s, .obtained key (.error e))
    | none => (s, .store key currentEpoch (s.filesAfter key (s.changes key)))
  | .store key currentEpoch files =>
    ({ s with cache := s.cache.insert key (currentEpoch, files) }, .obtained key (.ok files))
  | .change key edit =>
    ({ s with changes := Function.update s.changes key (s.changes key ++ [(i, edit)]) },
      .readBump key)
  | .readBump key =>
    (s, .writeBump key (match s.epochs[key]? with
      | some epoch => epoch + 1
      | none => 1))
  | .writeBump key newEpoch =>
    ({ s with epochs := s.epochs.insert key newEpoch }, .invalidated key)
  | .obtained key result => (s, .obtained key result)
  | .invalidated key => (s, .invalidated key)

end

/-! ### Alone

Where nothing comes between its steps, a reader looks up and fills the cache as one operation,
and a writer begins the next epoch. -/

namespace FileListCache

variable {ι : Type} (c : FileListCache) (listed : String → List ListedFile)
  (changes : String → List (ι × FileEdit)) (i : ι) (key : String)

/-- The two maps of a cache, beside manifests. -/
def shared : SharedLists ι :=
  { cache := c.cache
    epochs := c.epochs
    listed := listed
    changes := changes }

/-- A task takes some steps, and no other task does. -/
def alone (steps : Nat) (task : CacheTask) : SharedLists ι × CacheTask :=
  (fun s => cacheMove none i s.1 s.2)^[steps] (c.shared listed changes, task)

theorem alone_hit {files : List ListedFile} (h : c.cached key = some files) :
  c.alone listed changes i 2 (.readEpoch key) = (c.shared listed changes, .obtained key (.ok files))
  := by
  have hcached : (c.shared listed changes).cachedIn key (c.currentEpoch key) = some files := h
  dsimp only [alone, Function.iterate_succ, Function.iterate_zero, Function.comp, id, cacheMove]
  rw [show (c.shared listed changes).currentEpoch key = c.currentEpoch key from rfl, hcached]

theorem alone_miss (h : c.cached key = none) :
  c.alone listed changes i 4 (.readEpoch key)
    = ((c.fill key ((c.shared listed changes).filesAfter key (changes key))).shared listed changes,
        .obtained key (.ok ((c.shared listed changes).filesAfter key (changes key))))
  := by
  have hcached : (c.shared listed changes).cachedIn key (c.currentEpoch key) = none := h
  dsimp only [alone, Function.iterate_succ, Function.iterate_zero, Function.comp, id, cacheMove]
  rw [show (c.shared listed changes).currentEpoch key = c.currentEpoch key from rfl, hcached]
  rfl

theorem alone_invalidate :
  c.alone listed changes i 2 (.readBump key)
    = ((c.invalidate key).shared listed changes, .invalidated key)
  := rfl

end FileListCache

/-! ### What one step can do -/

section

variable {ι : Type} {fault : Option String} {i : ι} {s : SharedLists ι} {task : CacheTask}
  {key : String} {epoch : Nat} {files : List ListedFile}

@[simp]
theorem cacheMove_listed : (cacheMove fault i s task).1.listed = s.listed
  := by
  fun_cases cacheMove fault i s task <;> rfl

theorem cacheMove_changes :
  s.changes key <+: (cacheMove fault i s task).1.changes key
  := by
  fun_cases cacheMove fault i s task
  case case7 key' edit =>
    by_cases hkey : key = key'
    · subst hkey
      simp
    · simp [Function.update_of_ne hkey]
  all_goals apply List.prefix_refl

/-- A list in the cache was there before, or a reader stored it. -/
theorem cacheMove_cache
    (h : (cacheMove fault i s task).1.cache[key]? = some (epoch, files)) :
  s.cache[key]? = some (epoch, files) ∨ task = .store key epoch files
  := by
  fun_cases cacheMove fault i s task
  case case6 key' epoch' files' =>
    dsimp only [cacheMove] at h
    rw [KeyMap.get_insert] at h
    by_cases hkey : key' = key
    · rw [if_pos hkey] at h
      obtain ⟨rfl, rfl⟩ := Prod.mk.inj (Option.some.inj h)
      subst hkey
      right
      rfl
    · rw [if_neg hkey] at h
      left
      apply h
  all_goals
    left
    simpa [cacheMove, *] using h

/-- An epoch was current before, or a writer wrote it. -/
theorem cacheMove_currentEpoch :
  (cacheMove fault i s task).1.currentEpoch key = s.currentEpoch key
    ∨ ∃ newEpoch, task = .writeBump key newEpoch
        ∧ (cacheMove fault i s task).1.currentEpoch key = newEpoch
  := by
  fun_cases cacheMove fault i s task
  case case9 key' newEpoch =>
    dsimp only [SharedLists.currentEpoch]
    rw [KeyMap.get_insert]
    by_cases hkey : key' = key
    · subst hkey
      right
      exact ⟨newEpoch, rfl, by rw [if_pos rfl, Option.getD_some]⟩
    · rw [if_neg hkey]
      left
      rfl
  all_goals
    left
    rfl

/-- A reader about to store a list has just made it. -/
theorem cacheMove_store (h : (cacheMove fault i s task).2 = .store key epoch files) :
  task = .list key epoch ∧ files = s.filesAfter key (s.changes key)
  := by
  fun_cases cacheMove fault i s task
  case case5 key' epoch' =>
    cases h
    exact ⟨rfl, rfl⟩
  all_goals simp_all [cacheMove]

/-- A reader about to read the cache has just read the epoch. -/
theorem cacheMove_readCache (h : (cacheMove fault i s task).2 = .readCache key epoch) :
  task = .readEpoch key ∧ epoch = s.currentEpoch key
  := by
  fun_cases cacheMove fault i s task
  case case1 key' =>
    cases h
    exact ⟨rfl, rfl⟩
  all_goals simp_all [cacheMove]

/-- A reader about to list has read the cache. -/
theorem cacheMove_list (h : (cacheMove fault i s task).2 = .list key epoch) :
  task = .readCache key epoch
  := by
  fun_cases cacheMove fault i s task
  case case3 key' epoch' hmiss =>
    simp only [cacheMove, hmiss] at h
    cases h
    rfl
  all_goals simp_all [cacheMove]

/-- A reader has the list that was cached in its epoch, or the one it stored. -/
theorem cacheMove_obtained (h : (cacheMove fault i s task).2 = .obtained key (.ok files)) :
  task = .obtained key (.ok files)
    ∨ (∃ epoch, task = .store key epoch files)
    ∨ ∃ epoch, task = .readCache key epoch ∧ s.cache[key]? = some (epoch, files)
  := by
  fun_cases cacheMove fault i s task
  case case2 key' epoch' files' hhit =>
    simp only [cacheMove, hhit] at h
    cases h
    right
    right
    use epoch'
    apply And.intro rfl
    unfold SharedLists.cachedIn at hhit
    split at hhit
    · split at hhit
      · rename_i hentry hepoch
        rw [hentry, hepoch, Option.some.inj hhit]
      · cases hhit
    · cases hhit
  case case6 key' epoch' files' =>
    cases h
    right
    left
    use epoch'
  all_goals simp_all [cacheMove]

/-- A writer about to read the epoch has just changed the manifest. -/
theorem cacheMove_readBump (h : (cacheMove fault i s task).2 = .readBump key) :
  i ∈ ((cacheMove fault i s task).1.changes key).map (·.1)
  := by
  fun_cases cacheMove fault i s task
  case case7 key' edit =>
    cases h
    simp
  all_goals simp_all [cacheMove]

theorem cacheMove_writeBump (h : (cacheMove fault i s task).2 = .writeBump key epoch) :
  task = .readBump key ∧ epoch = s.currentEpoch key + 1
  := by
  fun_cases cacheMove fault i s task
  case case8 key' =>
    cases h
    apply And.intro rfl
    unfold SharedLists.currentEpoch
    cases s.epochs[key]? <;> rfl
  all_goals simp_all [cacheMove]

theorem cacheMove_invalidated (h : (cacheMove fault i s task).2 = .invalidated key) :
  task = .invalidated key
    ∨ ∃ newEpoch, task = .writeBump key newEpoch
        ∧ (cacheMove fault i s task).1.currentEpoch key = newEpoch
  := by
  fun_cases cacheMove fault i s task
  case case9 key' newEpoch =>
    cases h
    right
    use newEpoch
    simp [SharedLists.currentEpoch]
  all_goals simp_all [cacheMove]

end

/-! ### The run of the readers and writers -/

section

variable {ι : Type}

/-- The readers and writers with what they share. -/
abbrev CacheSystem (ι : Type) := Tasks.System ι (SharedLists ι) CacheTask

/-- The engine was just started, and no task has taken a step. -/
structure CacheSystem.Started (s : CacheSystem ι) : Prop where
  cache : s.shared.cache = ∅
  epochs : s.shared.epochs = ∅
  changes : ∀ key, s.shared.changes key = []
  task : ∀ i, (∃ key, s.task i = .readEpoch key) ∨ ∃ key edit, s.task i = .change key edit

/-- A writer that is about to write an epoch does not write one below the current. -/
def KeepsEpoch (call : ι × Option String) (s : CacheSystem ι) : Prop :=
  match s.task call.1 with
  | .writeBump key newEpoch => s.shared.currentEpoch key ≤ newEpoch
  | _ => True

/-- The epoch a reader has read and still uses. -/
def CacheTask.Holds (task : CacheTask) (key : String) (epoch : Nat) : Prop :=
  task = .readCache key epoch ∨ task = .list key epoch ∨ ∃ files, task = .store key epoch files

/-- The lists made in this epoch of a key or later hold the change of a writer. -/
structure IncludedFrom (s : CacheSystem ι) (key : String) (i : ι) (epoch : Nat) : Prop where
  changed : i ∈ (s.shared.changes key).map (·.1)
  cached : ∀ e files, s.shared.cache[key]? = some (e, files) → epoch ≤ e →
    s.shared.Includes key i files
  storing : ∀ j e files, s.task j = .store key e files → epoch ≤ e →
    s.shared.Includes key i files

/-- No list was made in an epoch to come; and the lists made from the epoch a writer writes hold
its change. -/
structure CacheInvariant (s : CacheSystem ι) : Prop where
  cached : ∀ key epoch files, s.shared.cache[key]? = some (epoch, files) →
    epoch ≤ s.shared.currentEpoch key
  held : ∀ j key epoch, (s.task j).Holds key epoch → epoch ≤ s.shared.currentEpoch key
  changed : ∀ i key, s.task i = .readBump key → i ∈ (s.shared.changes key).map (·.1)
  pending : ∀ i key epoch, s.task i = .writeBump key epoch → IncludedFrom s key i epoch
  done : ∀ i key, s.task i = .invalidated key →
    IncludedFrom s key i (s.shared.currentEpoch key)

theorem IncludedFrom.mono {s : CacheSystem ι} {key : String} {i : ι} {epoch epoch' : Nat}
    (h : IncludedFrom s key i epoch) (hle : epoch ≤ epoch') :
  IncludedFrom s key i epoch'
  where
  changed := h.changed
  cached e files hfiles he := h.cached e files hfiles (hle.trans he)
  storing j e files hfiles he := h.storing j e files hfiles (hle.trans he)

variable {s : CacheSystem ι} {key : String} {i j : ι} {epoch : Nat} {files : List ListedFile}
  (call : ι × Option String)

/-- The epoch a reader uses is the current one when it reads it. -/
theorem CacheTask.holds_move (h : (cacheMove call.2 i s.shared (s.task i)).2.Holds key epoch) :
  (s.task i).Holds key epoch ∨ epoch = s.shared.currentEpoch key
  := by
  obtain hread | hlist | ⟨files, hstore⟩ := h
  · right
    apply (cacheMove_readCache hread).2
  · left
    left
    apply cacheMove_list hlist
  · left
    right
    left
    apply (cacheMove_store hstore).1

theorem CacheInvariant.start (h : s.Started) : CacheInvariant s
  where
  cached key epoch files hentry := by
    rw [h.cache] at hentry
    simp at hentry
  held j key epoch hholds := by
    obtain ⟨key', hj⟩ | ⟨key', edit, hj⟩ := h.task j <;> simp [CacheTask.Holds, hj] at hholds
  changed i key hi := by
    obtain ⟨key', hj⟩ | ⟨key', edit, hj⟩ := h.task i <;> simp [hj] at hi
  pending i key epoch hi := by
    obtain ⟨key', hj⟩ | ⟨key', edit, hj⟩ := h.task i <;> simp [hj] at hi
  done i key hi := by
    obtain ⟨key', hj⟩ | ⟨key', edit, hj⟩ := h.task i <;> simp [hj] at hi

/-- A writer that has read the epoch: no list is made yet in the one it is about to write. -/
theorem CacheInvariant.includedFrom_next (h : CacheInvariant s)
    (hchanged : i ∈ (s.shared.changes key).map (·.1)) :
  IncludedFrom s key i (s.shared.currentEpoch key + 1)
  where
  changed := hchanged
  cached e files hentry he := absurd (h.cached _ _ _ hentry) (by omega)
  storing j e files hstore he :=
    absurd (h.held j _ _ (.inr (.inr ⟨files, hstore⟩))) (by omega)

variable [DecidableEq ι]

/-- The steps of the readers and writers. -/
abbrev CacheSystem.perform (call : ι × Option String) (s : CacheSystem ι) : CacheSystem ι :=
  Tasks.perform cacheMove call s

theorem CacheSystem.perform_task (j : ι) :
  (s.perform call).task j = s.task j
    ∨ j = call.1 ∧ (s.perform call).task j = (cacheMove call.2 j s.shared (s.task j)).2
  := by
  by_cases hj : j = call.1
  · subst hj
    right
    exact ⟨rfl, Tasks.System.after_task_self ..⟩
  · left
    apply Tasks.System.after_task_other s _ hj

theorem CacheSystem.perform_changes :
  s.shared.changes key <+: (s.perform call).shared.changes key
  := cacheMove_changes

theorem CacheSystem.perform_filesAfter (seen : List (ι × FileEdit)) :
  (s.perform call).shared.filesAfter key seen = s.shared.filesAfter key seen
  := by
  unfold SharedLists.filesAfter
  rw [show (s.perform call).shared.listed = s.shared.listed from cacheMove_listed]

theorem CacheSystem.perform_includes (h : s.shared.Includes key i files) :
  (s.perform call).shared.Includes key i files
  := by
  obtain ⟨seen, hseen, hi, hfiles⟩ := h
  use seen, hseen.trans (perform_changes call), hi
  rw [hfiles, perform_filesAfter]

theorem CacheSystem.perform_changed (h : i ∈ (s.shared.changes key).map (·.1)) :
  i ∈ ((s.perform call).shared.changes key).map (·.1)
  := ((perform_changes call).map _).subset h

/-- From then on, every list made in the epoch or later holds the change. -/
theorem IncludedFrom.perform (h : IncludedFrom s key i epoch) :
  IncludedFrom (s.perform call) key i epoch
  where
  changed := CacheSystem.perform_changed call h.changed
  cached e files hfiles he := by
    apply CacheSystem.perform_includes
    obtain hbefore | hstore := cacheMove_cache hfiles
    · apply h.cached e files hbefore he
    · apply h.storing _ e files hstore he
  storing j e files hfiles he := by
    apply CacheSystem.perform_includes
    obtain hsame | ⟨-, hmoved⟩ := CacheSystem.perform_task call j
    · apply h.storing j e files (hsame ▸ hfiles) he
    · obtain ⟨-, rfl⟩ := cacheMove_store (hmoved ▸ hfiles)
      apply SharedLists.includes_filesAfter h.changed

/-- The epochs of the keys only grow. -/
theorem CacheSystem.currentEpoch_le_perform (hkeeps : KeepsEpoch call s) (key : String) :
  s.shared.currentEpoch key ≤ (s.perform call).shared.currentEpoch key
  := by
  obtain hsame | ⟨newEpoch, htask, hnew⟩ :=
    @cacheMove_currentEpoch _ call.2 call.1 s.shared (s.task call.1) key
  · exact hsame.ge
  · unfold KeepsEpoch at hkeeps
    rw [htask] at hkeeps
    exact hkeeps.trans hnew.ge

theorem CacheInvariant.perform (h : CacheInvariant s) (hkeeps : KeepsEpoch call s) :
  CacheInvariant (s.perform call)
  where
  cached key epoch files hentry := by
    have hgrows := CacheSystem.currentEpoch_le_perform call hkeeps key
    obtain hbefore | hstore := cacheMove_cache hentry
    · exact (h.cached _ _ _ hbefore).trans hgrows
    · exact (h.held _ _ _ (.inr (.inr ⟨files, hstore⟩))).trans hgrows
  held j key epoch hholds := by
    have hgrows := CacheSystem.currentEpoch_le_perform call hkeeps key
    obtain hsame | ⟨-, hmoved⟩ := CacheSystem.perform_task call j
    · exact (h.held j _ _ (hsame ▸ hholds)).trans hgrows
    · obtain hbefore | rfl := CacheTask.holds_move call (hmoved ▸ hholds)
      · exact (h.held j _ _ hbefore).trans hgrows
      · exact hgrows
  changed i key hi := by
    obtain hsame | ⟨rfl, hmoved⟩ := CacheSystem.perform_task call i
    · apply CacheSystem.perform_changed
      apply h.changed i key (hsame ▸ hi)
    · apply cacheMove_readBump (hmoved ▸ hi)
  pending i key epoch hi := by
    apply IncludedFrom.perform
    obtain hsame | ⟨-, hmoved⟩ := CacheSystem.perform_task call i
    · apply h.pending i key epoch (hsame ▸ hi)
    · obtain ⟨hread, rfl⟩ := cacheMove_writeBump (hmoved ▸ hi)
      apply h.includedFrom_next (h.changed i key hread)
  done i key hi := by
    obtain hsame | ⟨rfl, hmoved⟩ := CacheSystem.perform_task call i
    · apply IncludedFrom.perform
      apply (h.done i key (hsame ▸ hi)).mono
      apply CacheSystem.currentEpoch_le_perform call hkeeps
    · obtain hbefore | ⟨newEpoch, hwrite, hnew⟩ := cacheMove_invalidated (hmoved ▸ hi)
      · apply IncludedFrom.perform
        apply (h.done _ key hbefore).mono
        apply CacheSystem.currentEpoch_le_perform call hkeeps
      · -- The epoch it wrote is current now, and the lists made from it on hold its change.
        rw [show (s.perform call).shared.currentEpoch key = newEpoch from hnew]
        apply IncludedFrom.perform
        apply h.pending _ key newEpoch hwrite

/-- A reader that started after the epoch was reached obtains the change. -/
structure ReadsFrom (s : CacheSystem ι) (key : String) (i j : ι) (epoch : Nat) : Prop where
  included : IncludedFrom s key i epoch
  reached : epoch ≤ s.shared.currentEpoch key
  reading : ∀ e, s.task j = .readCache key e → epoch ≤ e
  storing : ∀ e files, s.task j = .store key e files → s.shared.Includes key i files
  obtained : ∀ files, s.task j = .obtained key (.ok files) → s.shared.Includes key i files

theorem ReadsFrom.perform (h : ReadsFrom s key i j epoch) (hkeeps : KeepsEpoch call s) :
  ReadsFrom (s.perform call) key i j epoch
  where
  included := h.included.perform call
  reached := h.reached.trans (CacheSystem.currentEpoch_le_perform call hkeeps key)
  reading e he := by
    obtain hsame | ⟨-, hmoved⟩ := CacheSystem.perform_task call j
    · apply h.reading e (hsame ▸ he)
    · obtain ⟨-, rfl⟩ := cacheMove_readCache (hmoved ▸ he)
      apply h.reached
  storing e files hstore := by
    apply CacheSystem.perform_includes
    obtain hsame | ⟨-, hmoved⟩ := CacheSystem.perform_task call j
    · apply h.storing e files (hsame ▸ hstore)
    · obtain ⟨-, rfl⟩ := cacheMove_store (hmoved ▸ hstore)
      apply SharedLists.includes_filesAfter h.included.changed
  obtained files hfiles := by
    apply CacheSystem.perform_includes
    obtain hsame | ⟨-, hmoved⟩ := CacheSystem.perform_task call j
    · apply h.obtained files (hsame ▸ hfiles)
    · obtain hbefore | ⟨e, hstore⟩ | ⟨e, hread, hentry⟩ := cacheMove_obtained (hmoved ▸ hfiles)
      · apply h.obtained files hbefore
      · apply h.storing e files hstore
      · apply h.included.cached e files hentry (h.reading e hread)

/-- The states reached by steps of the readers and writers, each allowed where it is taken. -/
abbrev CacheSystem.Reached (allowed : ι × Option String → CacheSystem ι → Prop)
    (init : CacheSystem ι → Prop) : CacheSystem ι → Prop :=
  Run.Reachable init (Tasks.Step cacheMove allowed)

theorem CacheSystem.Reached.cacheInvariant (h : Reached KeepsEpoch Started s) : CacheInvariant s
  := by
  apply Run.Reachable.invariant _ _ h
  · intro s hs
    apply CacheInvariant.start hs
  · rintro s _ hs ⟨call, hkeeps, rfl⟩
    apply hs.perform call hkeeps

/-- A reader that starts after a writer has invalidated the list of a key obtains the change of
the writer, when no writer ever writes an epoch below the current one. -/
theorem obtained_includes_invalidated {s t : CacheSystem ι} {key : String} {i j : ι}
    {files : List ListedFile} (hs : CacheSystem.Reached KeepsEpoch CacheSystem.Started s)
    (hi : s.task i = .invalidated key) (hj : s.task j = .readEpoch key)
    (ht : CacheSystem.Reached KeepsEpoch (· = s) t)
    (hfiles : t.task j = .obtained key (.ok files)) :
  t.shared.Includes key i files
  := by
  have hstart : ReadsFrom s key i j (s.shared.currentEpoch key) :=
    { included := hs.cacheInvariant.done i key hi
      reached := Nat.le_refl _
      reading := by simp [hj]
      storing := by simp [hj]
      obtained := by simp [hj] }
  have hreads : ReadsFrom t key i j (s.shared.currentEpoch key) := by
    apply Run.Reachable.invariant _ _ ht
    · rintro _ rfl
      exact hstart
    · rintro u _ hu ⟨call, hkeeps, rfl⟩
      apply hu.perform call hkeeps
  apply hreads.obtained files hfiles

end

/-- Writers `1`, `2` and `3` each add a file to the table `t`; the others read its list. -/
def sampleReaders : CacheSystem Nat :=
  { shared :=
      { cache := ∅
        epochs := ∅
        listed := fun _ => []
        changes := fun _ => [] }
    task := fun i =>
      if i = 1 ∨ i = 2 ∨ i = 3 then
        .change "t" (· ++ [([toString i], 0, 0)])
      else
        .readEpoch "t" }

theorem sampleReaders_started : sampleReaders.Started
  where
  cache := rfl
  epochs := rfl
  changes _ := rfl
  task i := by
    by_cases h : i = 1 ∨ i = 2 ∨ i = 3
    · right
      exact ⟨"t", _, if_pos h⟩
    · left
      exact ⟨"t", if_neg h⟩

/-- The system after these tasks took their steps, with no fault. -/
def afterTurns (turns : List Nat) (s : CacheSystem Nat) : CacheSystem Nat :=
  Run.performAll CacheSystem.perform (turns.map (·, none)) s

instance (call : Nat × Option String) (s : CacheSystem Nat) : Decidable (KeepsEpoch call s) :=
  match h : s.task call.1 with
  | .writeBump key newEpoch =>
    decidable_of_iff (s.shared.currentEpoch key ≤ newEpoch) (by simp [KeepsEpoch, h])
  | .readEpoch _ | .readCache .. | .list .. | .store .. | .obtained .. | .change .. | .readBump _
  | .invalidated _ => .isTrue (by simp [KeepsEpoch, h])

theorem afterTurns_reached {allowed : Nat × Option String → CacheSystem Nat → Prop}
    {init : CacheSystem Nat → Prop} {s : CacheSystem Nat} (turns : List Nat) (hs : init s)
    (h : Run.AllAllowed CacheSystem.perform allowed (turns.map (·, none)) s) :
  CacheSystem.Reached allowed init (afterTurns turns s)
  := (Run.Reachable.start hs).performAll h

theorem obtained_includes_invalidated_first :
  (afterTurns [1, 1, 1] sampleReaders).task 1 = .invalidated "t"
    ∧ (afterTurns [4, 4, 4, 4] (afterTurns [1, 1, 1] sampleReaders)).shared.Includes "t" 1
        [(["1"], 0, 0)]
  := by
  have hdone : (afterTurns [1, 1, 1] sampleReaders).task 1 = .invalidated "t" := by rfl
  apply And.intro hdone
  apply obtained_includes_invalidated (j := 4)
    (afterTurns_reached _ sampleReaders_started (by decide)) hdone rfl
  · apply afterTurns_reached
    · rfl
    · decide
  · rfl

/-- Writer `1` reads the epoch `0` and stops.  Writer `2` begins epoch `1`, in which reader `4`
stores a list; writer `3` begins epoch `2`.  Then writer `1` writes epoch `1`, and the list
without the file of writer `3` is current again for reader `5`. -/
theorem obtained_misses_invalidated :
  ¬ ∀ (s t : CacheSystem Nat) (key : String) (i j : Nat) (files : List ListedFile),
    CacheSystem.Reached (fun _ _ => True) CacheSystem.Started s →
    s.task i = .invalidated key → s.task j = .readEpoch key →
    CacheSystem.Reached (fun _ _ => True) (· = s) t →
    t.task j = .obtained key (.ok files) → t.shared.Includes key i files
  := by
  intro h
  let s := afterTurns [1, 1, 2, 2, 2, 4, 4, 4, 4, 3, 3, 3] sampleReaders
  obtain ⟨seen, hseen, hi, hfiles⟩ := h s (afterTurns [1, 5, 5] s) "t" 3 5
    [(["1"], 0, 0), (["2"], 0, 0)]
    (afterTurns_reached _ sampleReaders_started (Run.allAllowed_true _ _)) rfl rfl
    (@afterTurns_reached _ (· = s) s _ rfl (Run.allAllowed_true _ _)) rfl
  -- Only all three changes together include the one of writer `3`.
  have hchanges : (afterTurns [1, 5, 5] s).shared.changes "t"
      = [(1, (· ++ [(["1"], 0, 0)])), (2, (· ++ [(["2"], 0, 0)])), (3, (· ++ [(["3"], 0, 0)]))]
    := rfl
  simp only [hchanges, List.prefix_cons_iff, List.prefix_nil] at hseen
  obtain rfl | ⟨_, rfl, rfl | ⟨_, rfl, rfl | ⟨_, rfl, rfl⟩⟩⟩ := hseen
  · simp at hi
  · simp at hi
  · simp at hi
  · revert hfiles
    decide
