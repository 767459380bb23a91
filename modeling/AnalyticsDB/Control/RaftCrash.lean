import AnalyticsDB.Control.RaftReplay

/-!
# Crashes between the writes of a node

A node that crashes between two writes of an entry or of a snapshot starts again by applying the
entries after the last one it has marked.  The entry whose catalogue was written but not marked
is applied twice, and so are the entries a snapshot covers when it is written but not marked.
Every entry overwrites what it did before, but for one that adds a column; and entries overwrite
each other, but for those that add a column or rename a relation.
-/

namespace Raft

open Run Replay

/-! ### Entries that are applied twice -/

/-- An entry adds a column to a relation that is there. -/
def Entry.AddsColumn (entry : Entry) (state : CatalogState) : Prop :=
  match entry.payload with
  | .normal (.addColumn database schema tableName _) =>
    (state.relations[logRelationKey database schema tableName]?).isSome
  | _ => False

instance (entry : Entry) (state : CatalogState) : Decidable (entry.AddsColumn state) := by
  unfold Entry.AddsColumn
  split <;> infer_instance

/-- An entry neither adds a column nor renames a relation. -/
def Entry.overwrites (entry : Entry) : Bool :=
  match entry.payload with
  | .normal (.addColumn ..) | .normal (.renameRelation ..) => false
  | _ => true

/-- A change of one entry of one of the maps of the catalogue. -/
inductive CatalogChange where
  | none
  | databases (key : String) (change : Change CatalogDatabase)
  | users (key : String) (change : Change CatalogUser)
  | nodes (key : String) (change : Change ClusterNode)
  | relations (key : String) (change : Change CatalogRelation)

/-- The catalogue after a change. -/
def CatalogChange.perform (state : CatalogState) : CatalogChange → CatalogState
  | .none => state
  | .databases key change => { state with databases := change.perform key state.databases }
  | .users key change => { state with users := change.perform key state.users }
  | .nodes key change => { state with nodes := change.perform key state.nodes }
  | .relations key change => { state with relations := change.perform key state.relations }

/-- The change of an entry that overwrites what it changes. -/
def LogEntry.change : LogEntry → CatalogChange
  | .createDatabase name =>
    .databases name
      (.put (some { name := name, schemas := {"public"}, owner := "", parameters := ∅ }))
  | .createSchema database name =>
    .databases (database.getD "postgres")
      (.modify (fun db => { db with schemas := db.schemas.insert name }))
  | .registerRelation relation =>
    .relations (relationKey relation.database relation.schema relation.name) (.put (some relation))
  | .dropRelation database schema name _ =>
    .relations (logRelationKey database schema name) (.put none)
  | .updateRelationStoragePath database schema name newStoragePath =>
    .relations (logRelationKey database schema name)
      (.modify (fun rel => { rel with storagePath := some newStoragePath }))
  | .setUserPassword name password version rotatedAt =>
    .users name (.modify (fun user =>
      { user with
        password := some password
        passwordVersion := version
        passwordRotatedAtEpochMs := rotatedAt }))
  | .registerNode node => .nodes node.id (.put (some node))
  | .updateNodeStatus nodeId status lastHeartbeatAtEpochMs =>
    .nodes nodeId (.modify (fun node =>
      { node with status := status, lastHeartbeatAtEpochMs := lastHeartbeatAtEpochMs }))
  | .addColumn .. | .renameRelation .. => .none

def Entry.change (entry : Entry) : CatalogChange :=
  match entry.payload with
  | .normal data => data.change
  | .membership _ | .blank => .none

/-- An entry that overwrites what it changes does so by its change. -/
theorem applyTo_eq_change {entry : Entry} (h : entry.overwrites = true) (state : CatalogState) :
  entry.applyTo state = entry.change.perform state
  := by
  unfold Entry.overwrites at h
  unfold Entry.applyTo Entry.change
  cases hpayload : entry.payload with
  | blank => rfl
  | membership mem => rfl
  | normal data =>
      cases data
      case addColumn | renameRelation => simp [hpayload] at h
      all_goals rfl

/-- The schemas of a database after two more are created, in any order. -/
theorem insert_schemas (db : CatalogDatabase) (name name' : String) :
  ({ db with schemas := ((db.schemas.insert name).insert name').insert name } : CatalogDatabase)
    = { db with schemas := (db.schemas.insert name').insert name }
  := by
  congr 1
  apply Std.ExtTreeSet.ext_mem
  intro schema
  simp only [Std.ExtTreeSet.mem_insert, Std.compare_eq_iff_eq]
  tauto

/-- A change that takes away what it did before. -/
def CatalogChange.Idem : CatalogChange → Prop
  | .none => True
  | .databases _ change => ∀ value, change.entry (change.entry value) = change.entry value
  | .users _ change => ∀ value, change.entry (change.entry value) = change.entry value
  | .nodes _ change => ∀ value, change.entry (change.entry value) = change.entry value
  | .relations _ change => ∀ value, change.entry (change.entry value) = change.entry value

/-- A change that absorbs another one when both are changes of one map. -/
def CatalogChange.Absorbs : CatalogChange → CatalogChange → Prop
  | .databases _ change, .databases _ change' => change.Absorbs change'
  | .users _ change, .users _ change' => change.Absorbs change'
  | .nodes _ change, .nodes _ change' => change.Absorbs change'
  | .relations _ change, .relations _ change' => change.Absorbs change'
  | _, _ => True

theorem CatalogChange.perform_idem {change : CatalogChange} (h : change.Idem)
    (state : CatalogState) :
  change.perform (change.perform state) = change.perform state
  := by
  cases change with
  | none => rfl
  | databases key change => simp only [perform, Change.perform_idem h]
  | users key change => simp only [perform, Change.perform_idem h]
  | nodes key change => simp only [perform, Change.perform_idem h]
  | relations key change => simp only [perform, Change.perform_idem h]

/-- Changes of two maps do not touch each other, and those of one map absorb each other. -/
theorem CatalogChange.perform_absorbs {change change' : CatalogChange} (hself : change.Idem)
    (h : change.Absorbs change') (state : CatalogState) :
  change.perform (change'.perform (change.perform state))
    = change.perform (change'.perform state)
  := by
  cases change with
  | none => rfl
  | databases key change =>
      cases change' with
      | databases key' change' => simp only [perform, Change.perform_absorbs hself h]
      | none | users | nodes | relations => simp only [perform, Change.perform_idem hself]
  | users key change =>
      cases change' with
      | users key' change' => simp only [perform, Change.perform_absorbs hself h]
      | none | databases | nodes | relations => simp only [perform, Change.perform_idem hself]
  | nodes key change =>
      cases change' with
      | nodes key' change' => simp only [perform, Change.perform_absorbs hself h]
      | none | databases | users | relations => simp only [perform, Change.perform_idem hself]
  | relations key change =>
      cases change' with
      | relations key' change' => simp only [perform, Change.perform_absorbs hself h]
      | none | databases | users | nodes => simp only [perform, Change.perform_idem hself]

/-- A modification that takes away what it did before. -/
theorem modify_idem {β : Type} {f : β → β} (h : ∀ b, f (f b) = f b) (value : Option β) :
  (Change.modify f).entry ((Change.modify f).entry value) = (Change.modify f).entry value
  := by
  cases value with
  | none => rfl
  | some b => exact congrArg some (h b)

/-- The schemas of a database after one is created twice. -/
theorem insert_schema_idem (db : CatalogDatabase) (name : String) :
  ({ db with schemas := (db.schemas.insert name).insert name } : CatalogDatabase)
    = { db with schemas := db.schemas.insert name }
  := by
  congr 1
  apply Std.ExtTreeSet.ext_mem
  intro schema
  simp only [Std.ExtTreeSet.mem_insert, Std.compare_eq_iff_eq]
  tauto

theorem change_idem (data : LogEntry) : data.change.Idem
  := by
  cases data with
  | createSchema database name => exact modify_idem (fun db => insert_schema_idem db name)
  | updateRelationStoragePath => exact modify_idem (fun _ => rfl)
  | setUserPassword => exact modify_idem (fun _ => rfl)
  | updateNodeStatus => exact modify_idem (fun _ => rfl)
  | createDatabase | registerRelation | dropRelation | registerNode => exact fun _ => rfl
  | addColumn | renameRelation => trivial

/-- The changes of log entries absorb each other: what is put takes away all that was before it,
and the modifications of one map are of one kind. -/
theorem change_absorbs (data data' : LogEntry) : data.change.Absorbs data'.change
  := by
  cases data <;> cases data' <;>
    first
    | trivial
    | exact fun _ => rfl
    | exact Change.modify_absorbs (fun _ => rfl)
    | exact Change.modify_absorbs (fun db => insert_schemas db _ _)

theorem Entry.change_idem (entry : Entry) : entry.change.Idem
  := by
  unfold Entry.change
  cases entry.payload with
  | normal data => apply Raft.change_idem
  | membership mem => trivial
  | blank => trivial

theorem Entry.change_absorbs (entry entry' : Entry) : entry.change.Absorbs entry'.change
  := by
  unfold Entry.change
  cases entry.payload with
  | membership mem => trivial
  | blank => trivial
  | normal data =>
      cases entry'.payload with
      | normal data' => apply Raft.change_absorbs
      | membership mem => cases data <;> trivial
      | blank => cases data <;> trivial

/-- Entries that neither add a column nor rename a relation overwrite each other. -/
theorem overwrites_applyTo {entry entry' : Entry} (h : entry.overwrites = true)
    (h' : entry'.overwrites = true) :
  Overwrites Entry.applyTo entry entry'
  := by
  intro state
  simp only [applyTo_eq_change h, applyTo_eq_change h']
  apply CatalogChange.perform_absorbs entry.change_idem (entry.change_absorbs entry')

theorem not_addsColumn {entry : Entry} {state : CatalogState} (h : entry.overwrites = true) :
  ¬ entry.AddsColumn state
  := by
  unfold Entry.overwrites at h
  unfold Entry.AddsColumn
  split
  · rename_i hpayload
    simp [hpayload] at h
  · exact not_false

/-- Adding a column to a relation that is not there does nothing. -/
theorem addColumn_idem {state : CatalogState} {database schema : Option String}
    {tableName : String} {column : CatalogColumn}
    (h : state.relations[logRelationKey database schema tableName]? = none) :
  (LogEntry.addColumn database schema tableName column).apply
      ((LogEntry.addColumn database schema tableName column).apply state)
    = (LogEntry.addColumn database schema tableName column).apply state
  := by
  simp only [LogEntry.apply]
  congr 1
  apply Std.ExtTreeMap.ext_getElem?
  intro key
  simp only [KeyMap.get_modify]
  split
  · rename_i hkey
    subst hkey
    simp [h]
  · rfl

/-- A relation that was renamed is not there to be renamed again. -/
theorem renameRelation_idem (state : CatalogState) (database schema : Option String)
    (name newName : String) :
  (LogEntry.renameRelation database schema name newName).apply
      ((LogEntry.renameRelation database schema name newName).apply state)
    = (LogEntry.renameRelation database schema name newName).apply state
  := by
  simp only [LogEntry.apply]
  cases hold : state.relations[logRelationKey database schema name]? with
  | none => simp only [hold]
  | some rel =>
      simp only [KeyMap.get_insert, KeyMap.get_erase]
      by_cases hkey : logRelationKey database schema newName = logRelationKey database schema name
      · simp only [hkey, if_true]
        congr 1
        apply Std.ExtTreeMap.ext_getElem?
        intro key
        simp only [KeyMap.get_insert, KeyMap.get_erase]
        split <;> rfl
      · simp only [hkey, if_true, if_false]

/-- An entry that adds no column takes away what it did before. -/
theorem applyTo_idem {entry : Entry} {state : CatalogState} (h : ¬ entry.AddsColumn state) :
  entry.applyTo (entry.applyTo state) = entry.applyTo state
  := by
  by_cases hoverwrites : entry.overwrites = true
  · simp only [applyTo_eq_change hoverwrites]
    apply CatalogChange.perform_idem entry.change_idem
  · unfold Entry.overwrites at hoverwrites
    unfold Entry.AddsColumn at h
    unfold Entry.applyTo
    cases hpayload : entry.payload with
    | blank => rfl
    | membership mem => rfl
    | normal data =>
        rw [hpayload] at h hoverwrites
        cases data
        case addColumn database schema tableName column =>
          apply addColumn_idem
          simpa using h
        case renameRelation database schema name newName =>
          apply renameRelation_idem
        all_goals simp at hoverwrites

/-- The last membership of a log is taken again when the log is replayed. -/
theorem follow_idem (entry : Entry) (membership : StoredMembership) :
  entry.follow (entry.follow membership) = entry.follow membership
  := by
  unfold Entry.follow
  cases entry.payload <;> rfl

/-! ### A node and its log -/

/-- The indexes of a log go up. -/
def Ascending (log : List Entry) : Prop := log.Pairwise (fun entry entry' =>
  entry.index < entry'.index)

instance (log : List Entry) : Decidable (Ascending log) :=
  inferInstanceAs (Decidable (log.Pairwise _))

/-- The entries of a log after the last one that is marked as applied. -/
def entriesAfter (log : List Entry) : Option LogId → List Entry
  | none => log
  | some logId => log.filter (fun entry => logId.index < entry.index)

/-- A restarted node applies the entries after the last one it has marked. -/
def CatalogStore.recover (log : List Entry) (store : CatalogStore) :
    Except String CatalogStore :=
  match store.lastAppliedState with
  | .error e => .error e
  | .ok (applied, _) => .ok (store.applyToStateMachine (entriesAfter log applied)).1

/-- The entry a node applies next. -/
def CatalogStore.nextEntry (log : List Entry) (store : CatalogStore) : Option Entry :=
  match store.lastAppliedState with
  | .error _ => none
  | .ok (applied, _) => (entriesAfter log applied).head?

/-- The snapshot of a node that has applied the first entries of a log. -/
def snapshotOf (log : List Entry) (upto : Nat) (uuid : String) : Except String
    CatalogStore.Snapshot :=
  (CatalogStore.new.applyToStateMachine (log.take upto)).1.buildSnapshot uuid

/-- What happens to a node: it applies its next entry or installs a snapshot of the log, or it
crashes after some of the writes of either and starts again. -/
inductive NodeStep where
  | applyNext
  | crashApply (puts : Nat)
  | install (upto : Nat) (uuid : String)
  | crashInstall (upto : Nat) (uuid : String) (puts : Nat)

def NodeStep.perform (log : List Entry) (step : NodeStep) (store : CatalogStore) :
    CatalogStore :=
  match step with
  | .applyNext =>
    match store.nextEntry log with
    | none => store
    | some entry => store.applyEntry entry
  | .crashApply puts =>
    match store.nextEntry log with
    | none => store
    | some entry => ((store.entryPuts entry).take puts).foldl CatalogStore.put store
  | .install upto uuid =>
    match snapshotOf log upto uuid with
    | .error _ => store
    | .ok snapshot => store.installSnapshot snapshot
  | .crashInstall upto uuid puts =>
    match snapshotOf log upto uuid with
    | .error _ => store
    | .ok snapshot => ((CatalogStore.installPuts snapshot).take puts).foldl CatalogStore.put store

/-- The last entry that is marked as applied. -/
def CatalogStore.marked (store : CatalogStore) : Option LogId := store.lastApplied.join

/-- A snapshot is not older than what a node has applied. -/
def CatalogStore.SnapshotMeta.Covers (metadata : CatalogStore.SnapshotMeta)
    (store : CatalogStore) : Prop :=
  ∀ logId ∈ store.marked, ∃ last ∈ metadata.lastLogId, logId.index ≤ last.index

/-- A snapshot is of some entries of the log. -/
def NodeStep.Possible (log : List Entry) (step : NodeStep) (_ : CatalogStore) : Prop :=
  match step with
  | .applyNext | .crashApply _ => True
  | .install upto _ | .crashInstall upto _ _ => log.take upto ≠ []

/-- A crash comes after the catalogue is written and before the entry is marked, and the entry
adds a column; or it comes after the catalogue of a snapshot is written and before its last entry
is marked, and the snapshot is older than what is applied or covers entries that do not overwrite
each other; or it comes before the membership of a snapshot is written, and there is a new one. -/
def NodeStep.Torn (log : List Entry) (step : NodeStep) (store : CatalogStore) : Prop :=
  match step with
  | .applyNext | .install .. => False
  | .crashApply puts =>
    ∃ entry, store.nextEntry log = some entry ∧ puts + 1 = (store.entryPuts entry).length
      ∧ entry.AddsColumn store.catalogState
  | .crashInstall upto uuid puts =>
    ∃ snapshot, snapshotOf log upto uuid = .ok snapshot
      ∧ (puts = 1 ∧ (¬ snapshot.metadata.Covers store
            ∨ ∃ entry ∈ entriesAfter (log.take upto) store.marked, entry.overwrites = false)
          ∨ puts = 2 ∧ store.membership ≠ snapshot.metadata.lastMembership)

/-- The steps in which no crash tears apart what belongs together. -/
def NodeStep.Whole (log : List Entry) (step : NodeStep) (store : CatalogStore) : Prop :=
  step.Possible log store ∧ ¬ step.Torn log store

/-- The stores a new node comes to with a log. -/
abbrev NodeReached (allowed : NodeStep → CatalogStore → Prop) (log : List Entry)
    (store : CatalogStore) : Prop :=
  Reachable (· = CatalogStore.new) (byOps (NodeStep.perform log) allowed) store

/-- A node has marked the entries `done` as applied, and the others lead from what it has to what
the whole log leads to. -/
structure ResumesAt (log done rest : List Entry) (store : CatalogStore) : Prop where
  split : log = done ++ rest
  lastApplied : store.lastApplied = done.getLast?.map (fun entry => some entry.logId)
  catalogState : performAll Entry.applyTo rest store.catalogState
    = performAll Entry.applyTo log CatalogState.default
  membership : performAll Entry.follow rest store.membership
    = performAll Entry.follow log StoredMembership.default

section

variable {log done rest : List Entry} {store : CatalogStore} {entry : Entry}

theorem entriesAfter_append (h : Ascending (done ++ rest)) :
  entriesAfter (done ++ rest) (done.getLast?.map (·.logId)) = rest
  := by
  cases hlast : done.getLast? with
  | none =>
      rw [List.getLast?_eq_none_iff.mp hlast]
      rfl
  | some last =>
      obtain ⟨before, rfl⟩ := List.getLast?_eq_some_iff.mp hlast
      obtain ⟨hdone, -, hacross⟩ := List.pairwise_append.mp h
      have hbefore : ∀ entry ∈ before ++ [last], ¬ last.index < entry.index := by
        intro entry hentry
        obtain hentry | hentry := List.mem_append.mp hentry
        · have := (List.pairwise_append.mp hdone).2.2 entry hentry last (by simp)
          exact UInt64.lt_asymm this
        · rw [List.mem_singleton.mp hentry]
          exact UInt64.lt_irrefl _
      change ((before ++ [last]) ++ rest).filter _ = rest
      rw [List.filter_append, List.filter_eq_nil_iff.mpr, List.nil_append, List.filter_eq_self]
      · intro entry hentry
        simpa using hacross last (by simp) entry hentry
      · intro entry hentry
        simpa using hbefore entry hentry

theorem ResumesAt.marked (h : ResumesAt log done rest store) :
  store.marked = done.getLast?.map (·.logId)
  := by
  rw [CatalogStore.marked, h.lastApplied]
  cases done.getLast? <;> rfl

theorem ResumesAt.lastAppliedState (h : ResumesAt log done rest store) :
  store.lastAppliedState = .ok (done.getLast?.map (·.logId), store.membership)
  := by
  rw [CatalogStore.lastAppliedState, h.lastApplied]
  cases done.getLast? <;> rfl

theorem ResumesAt.nextEntry (hlog : Ascending log) (h : ResumesAt log done rest store) :
  store.nextEntry log = rest.head?
  := by
  have hsplit := h.split
  subst hsplit
  rw [CatalogStore.nextEntry, h.lastAppliedState]
  dsimp only
  rw [entriesAfter_append hlog]

/-- A node that resumes comes to what the whole log leads to. -/
theorem ResumesAt.recover (hlog : Ascending log) (h : ResumesAt log done rest store) :
  ∃ recovered, store.recover log = .ok recovered
    ∧ recovered.catalogState = (CatalogStore.new.applyAll log).catalogState
    ∧ recovered.membership = (CatalogStore.new.applyAll log).membership
  := by
  refine ⟨store.applyAll rest, ?_, ?_, ?_⟩
  · have hsplit := h.split
    subst hsplit
    rw [CatalogStore.recover, h.lastAppliedState]
    dsimp only
    rw [entriesAfter_append hlog]
    rfl
  · rw [catalogState_applyAll, catalogState_applyAll]
    exact h.catalogState
  · rw [membership_applyAll, membership_applyAll]
    exact h.membership

theorem ResumesAt.start (log : List Entry) : ResumesAt log [] log CatalogStore.new
  := ⟨rfl, rfl, rfl, rfl⟩

/-! ### What the steps keep -/

theorem ResumesAt.applyEntry (h : ResumesAt log done (entry :: rest) store) :
  ResumesAt log (done ++ [entry]) rest (store.applyEntry entry)
  := by
  constructor
  · rw [h.split]
    simp
  · simp
  · rw [catalogState_applyEntry]
    exact h.catalogState
  · rw [membership_applyEntry]
    exact h.membership

/-- The writes of an entry, as far as they were done before a crash: none of them, its membership,
its catalogue, or all. -/
theorem crashApply_cases (store : CatalogStore) (entry : Entry) (puts : Nat) :
  ((store.entryPuts entry).take puts).foldl CatalogStore.put store = store
    ∨ ((store.entryPuts entry).take puts).foldl CatalogStore.put store
        = { store with lastMembership := some (entry.follow store.membership) }
    ∨ (puts + 1 = (store.entryPuts entry).length
        ∧ ∃ lastMembership, lastMembership.getD StoredMembership.default
            = entry.follow store.membership
          ∧ ((store.entryPuts entry).take puts).foldl CatalogStore.put store
            = { store with
                state := some (entry.applyTo store.catalogState)
                lastMembership := lastMembership })
    ∨ ((store.entryPuts entry).take puts).foldl CatalogStore.put store = store.applyEntry entry
  := by
  unfold CatalogStore.applyEntry CatalogStore.entryPuts Entry.follow
  cases entry.payload with
  | membership mem =>
      match puts with
      | 0 => exact .inl rfl
      | 1 => exact .inr (.inl rfl)
      | 2 => exact .inr (.inr (.inl ⟨rfl, some ⟨some entry.logId, mem⟩, rfl, rfl⟩))
      | puts + 3 => exact .inr (.inr (.inr (by simp)))
  | normal data =>
      match puts with
      | 0 => exact .inl rfl
      | 1 => exact .inr (.inr (.inl ⟨rfl, store.lastMembership, rfl, rfl⟩))
      | puts + 2 => exact .inr (.inr (.inr (by simp)))
  | blank =>
      match puts with
      | 0 => exact .inl rfl
      | 1 => exact .inr (.inr (.inl ⟨rfl, store.lastMembership, rfl, rfl⟩))
      | puts + 2 => exact .inr (.inr (.inr (by simp)))

/-- The node applies the entry again after a crash. -/
theorem ResumesAt.crashApply (h : ResumesAt log done (entry :: rest) store) (puts : Nat)
    (hwhole : puts + 1 = (store.entryPuts entry).length → ¬ entry.AddsColumn store.catalogState) :
  ∃ done' rest', ResumesAt log done' rest'
    (((store.entryPuts entry).take puts).foldl CatalogStore.put store)
  := by
  obtain hnone | hmembership | ⟨hputs, lastMembership, hmembership, hstate⟩ | hall :=
    crashApply_cases store entry puts
  · rw [hnone]
    exact ⟨_, _, h⟩
  · refine ⟨done, entry :: rest, h.split, ?_, ?_, ?_⟩
    · rw [hmembership]
      exact h.lastApplied
    · rw [hmembership]
      exact h.catalogState
    · rw [hmembership, performAll_cons]
      change performAll Entry.follow rest (entry.follow (entry.follow store.membership)) = _
      rw [follow_idem]
      exact h.membership
  · refine ⟨done, entry :: rest, h.split, ?_, ?_, ?_⟩
    · rw [hstate]
      exact h.lastApplied
    · rw [hstate, performAll_cons]
      change performAll Entry.applyTo rest (entry.applyTo (entry.applyTo store.catalogState)) = _
      rw [applyTo_idem (hwhole hputs)]
      exact h.catalogState
    · rw [hstate, performAll_cons]
      change performAll Entry.follow rest
        (entry.follow (lastMembership.getD StoredMembership.default)) = _
      rw [hmembership, follow_idem]
      exact h.membership
  · rw [hall]
    exact ⟨_, _, h.applyEntry⟩

/-- What a snapshot of a log holds. -/
theorem snapshotOf_ok {upto : Nat} {uuid : String} {snapshot : CatalogStore.Snapshot}
    (hupto : log.take upto ≠ []) (h : snapshotOf log upto uuid = .ok snapshot) :
  ∃ before last, log.take upto = before ++ [last]
    ∧ snapshot.catalogState = performAll Entry.applyTo (log.take upto) CatalogState.default
    ∧ snapshot.metadata.lastLogId = some last.logId
    ∧ snapshot.metadata.lastMembership
        = performAll Entry.follow (log.take upto) StoredMembership.default
  := by
  obtain ⟨before, last, hlast⟩ := (List.eq_nil_or_concat (log.take upto)).resolve_left hupto
  rw [List.concat_eq_append] at hlast
  have hmarked := marked_applyAll_concat CatalogStore.new before last
  rw [← hlast] at hmarked
  obtain ⟨snapshot', hbuild, -, hstate, hid, hmembership⟩ := hmarked.buildSnapshot uuid
  obtain rfl : snapshot' = snapshot := Except.ok.inj (hbuild.symm.trans h)
  exact ⟨before, last, hlast, hstate, hid, hmembership⟩

/-- A node that has installed a snapshot resumes after its last entry. -/
theorem ResumesAt.install {upto : Nat} {uuid : String} {snapshot : CatalogStore.Snapshot}
    (hupto : log.take upto ≠ []) (h : snapshotOf log upto uuid = .ok snapshot)
    (store : CatalogStore) :
  ResumesAt log (log.take upto) (log.drop upto) (store.installSnapshot snapshot)
  := by
  obtain ⟨before, last, hlast, hstate, hid, hmembership⟩ := snapshotOf_ok hupto h
  have hsplit := List.take_append_drop upto log
  constructor
  · exact hsplit.symm
  · rw [hlast, List.getLast?_concat]
    change some snapshot.metadata.lastLogId = _
    rw [hid]
    rfl
  · change performAll Entry.applyTo (log.drop upto) snapshot.catalogState = _
    rw [hstate, ← performAll_append, hsplit]
  · change performAll Entry.follow (log.drop upto) snapshot.metadata.lastMembership = _
    rw [hmembership, ← performAll_append, hsplit]

/-- The entries of the log before the last one of a snapshot begin with those a node has applied,
when the snapshot is not older. -/
theorem take_eq_of_covers {upto : Nat} {before : List Entry} {last : Entry}
    (hlog : Ascending log) (h : ResumesAt log done rest store)
    (hlast : log.take upto = before ++ [last])
    (hcovers : ∀ logId ∈ store.marked, logId.index ≤ last.index) :
  ∃ covered, log.take upto = done ++ covered ∧ rest = covered ++ log.drop upto
  := by
  have hlength : done.length ≤ upto := by
    by_contra hless
    -- The last entry of the snapshot would be before the last one that is applied.
    obtain ⟨applied, happlied⟩ : ∃ applied, applied ∈ (done.drop upto).getLast? := by
      have hne : done.drop upto ≠ [] := by
        rw [ne_eq, List.drop_eq_nil_iff]
        exact hless
      exact ⟨_, List.getLast?_eq_some_getLast hne⟩
    have hmarked : applied.logId ∈ store.marked := by
      have hsplit := List.take_append_drop upto done
      rw [h.marked, ← hsplit, List.getLast?_append, happlied]
      rfl
    have hlast' : last ∈ done.take upto := by
      have htake : log.take upto = done.take upto := by
        rw [h.split, List.take_append_of_le_length (by omega)]
      rw [← htake, hlast]
      simp
    rw [h.split, ← List.take_append_drop upto done] at hlog
    have hbefore := (List.pairwise_append.mp (List.pairwise_append.mp hlog).1).2.2 last hlast'
      applied (List.mem_of_getLast? happlied)
    exact UInt64.lt_irrefl _ (UInt64.lt_of_lt_of_le hbefore (hcovers _ hmarked))
  refine ⟨rest.take (upto - done.length), ?_, ?_⟩
  · rw [h.split, List.take_append, List.take_of_length_le hlength]
  · rw [h.split, List.drop_append, List.drop_of_length_le hlength, List.nil_append,
      List.take_append_drop]

/-- The node applies the entries of a snapshot again that it has not marked. -/
theorem ResumesAt.crashInstall {upto : Nat} {uuid : String} {snapshot : CatalogStore.Snapshot}
    (hlog : Ascending log) (hupto : log.take upto ≠ [])
    (hsnapshot : snapshotOf log upto uuid = .ok snapshot)
    (h : ResumesAt log done rest store) (puts : Nat)
    (hstate : puts = 1 → snapshot.metadata.Covers store
      ∧ ∀ entry ∈ entriesAfter (log.take upto) store.marked, entry.overwrites = true)
    (hmembership : puts = 2 → store.membership = snapshot.metadata.lastMembership) :
  ∃ done' rest', ResumesAt log done' rest'
    (((CatalogStore.installPuts snapshot).take puts).foldl CatalogStore.put store)
  := by
  have hinstalled := ResumesAt.install hupto hsnapshot store
  match puts with
  | 0 => exact ⟨_, _, h⟩
  | 1 =>
      obtain ⟨hcovers, hoverwrites⟩ := hstate rfl
      obtain ⟨before, last, hlast, hcatalog, hid, -⟩ := snapshotOf_ok hupto hsnapshot
      obtain ⟨covered, hcovered, hrest⟩ := take_eq_of_covers hlog h hlast (by
        intro logId hlogId
        obtain ⟨last', hlast', hle⟩ := hcovers logId hlogId
        rw [hid] at hlast'
        rwa [← Option.some.inj hlast'] at hle)
      have hascending : Ascending (done ++ covered) := by
        rw [← hcovered]
        exact hlog.sublist (List.take_sublist upto log)
      rw [hcovered, h.marked, entriesAfter_append hascending] at hoverwrites
      refine ⟨done, rest, h.split, h.lastApplied, ?_, h.membership⟩
      change performAll Entry.applyTo rest snapshot.catalogState = _
      -- What the snapshot covers overwrites what it did.
      have hagain : performAll Entry.applyTo covered snapshot.catalogState
          = snapshot.catalogState := by
        rw [hcatalog, hcovered, performAll_append]
        apply performAll_idem
        · intro entry hentry entry' hentry'
          exact overwrites_applyTo (hoverwrites entry hentry) (hoverwrites entry' hentry')
        · intro entry hentry state
          apply applyTo_idem
          exact not_addsColumn (hoverwrites entry hentry)
      rw [hrest, performAll_append, hagain]
      exact hinstalled.catalogState
  | 2 =>
      refine ⟨_, _, hinstalled.split, hinstalled.lastApplied, hinstalled.catalogState, ?_⟩
      change performAll Entry.follow (log.drop upto) store.membership = _
      rw [hmembership rfl]
      exact hinstalled.membership
  | puts + 3 =>
      have hall : (CatalogStore.installPuts snapshot).take (puts + 3)
          = CatalogStore.installPuts snapshot := by simp [CatalogStore.installPuts]
      rw [hall]
      exact ⟨_, _, hinstalled⟩

/-- A step in which nothing is torn apart leaves a node that resumes. -/
theorem ResumesAt.perform (hlog : Ascending log) (h : ResumesAt log done rest store)
    {step : NodeStep} (hstep : step.Whole log store) :
  ∃ done' rest', ResumesAt log done' rest' (step.perform log store)
  := by
  obtain ⟨hpossible, hwhole⟩ := hstep
  cases step with
  | applyNext =>
      simp only [NodeStep.perform, h.nextEntry hlog]
      cases rest with
      | nil => exact ⟨_, _, h⟩
      | cons entry rest => exact ⟨_, _, h.applyEntry⟩
  | crashApply puts =>
      simp only [NodeStep.perform, h.nextEntry hlog]
      cases rest with
      | nil => exact ⟨_, _, h⟩
      | cons entry rest =>
          apply h.crashApply
          intro hputs hadds
          exact hwhole ⟨entry, h.nextEntry hlog, hputs, hadds⟩
  | install upto uuid =>
      simp only [NodeStep.perform]
      split
      · exact ⟨_, _, h⟩
      · rename_i snapshot hsnapshot
        exact ⟨_, _, ResumesAt.install hpossible hsnapshot store⟩
  | crashInstall upto uuid puts =>
      simp only [NodeStep.perform]
      split
      · exact ⟨_, _, h⟩
      · rename_i snapshot hsnapshot
        apply h.crashInstall hlog hpossible hsnapshot puts
        · intro hputs
          by_contra htorn
          apply hwhole
          refine ⟨snapshot, hsnapshot, .inl ⟨hputs, ?_⟩⟩
          rw [Classical.not_and_iff_not_or_not] at htorn
          simpa using htorn
        · intro hputs
          by_contra htorn
          exact hwhole ⟨snapshot, hsnapshot, .inr ⟨hputs, htorn⟩⟩

end

/-- A node that crashed only where nothing is torn apart comes, by applying the entries after the
last one it has marked, to the catalogue and the membership of a node that never crashed. -/
theorem recovers_of_reached {log : List Entry} (hlog : Ascending log) {store : CatalogStore}
    (h : NodeReached (NodeStep.Whole log) log store) :
  ∃ recovered, store.recover log = .ok recovered
    ∧ recovered.catalogState = (CatalogStore.new.applyAll log).catalogState
    ∧ recovered.membership = (CatalogStore.new.applyAll log).membership
  := by
  have hresumes : ∃ done rest, ResumesAt log done rest store := by
    apply Reachable.invariant _ _ h
    · rintro _ rfl
      exact ⟨_, _, ResumesAt.start log⟩
    · rintro s _ ⟨done, rest, hs⟩ ⟨step, hstep, rfl⟩
      exact hs.perform hlog hstep
  obtain ⟨done, rest, hresumes⟩ := hresumes
  exact hresumes.recover hlog

/-- A table without columns. -/
def sampleTable : CatalogRelation :=
  { database := "sales"
    schema := "public"
    name := "t"
    kind := .table
    definitionSql := none
    storagePath := none
    externalFormat := none
    columns := []
    constraints := []
    indexes := [] }

/-- A log that registers a table and adds a column to it. -/
def sampleLog : List Entry :=
  [sampleEntry 0 (.normal (.registerRelation sampleTable)),
   sampleEntry 1 (.normal (.addColumn (some "sales") none "t" ⟨"c", "TEXT", true, none⟩))]

theorem nodeReached_new (allowed : NodeStep → CatalogStore → Prop) (log : List Entry) :
  NodeReached allowed log CatalogStore.new
  := .start rfl

/-- The node crashes when the table is written and not marked. -/
theorem recovers_of_reached_table :
  ∃ recovered,
    (NodeStep.perform sampleLog (.crashApply 1) CatalogStore.new).recover sampleLog = .ok recovered
    ∧ recovered.catalogState = (CatalogStore.new.applyAll sampleLog).catalogState
    ∧ recovered.membership = (CatalogStore.new.applyAll sampleLog).membership
  := by
  apply recovers_of_reached (by decide)
  apply (nodeReached_new _ sampleLog).step
  refine ⟨.crashApply 1, ⟨trivial, ?_⟩, rfl⟩
  rintro ⟨entry, hentry, -, hadds⟩
  obtain rfl : sampleEntry 0 (.normal (.registerRelation sampleTable)) = entry :=
    Option.some.inj hentry
  exact hadds

/-- The node crashes when the column is written and not marked. -/
def tornStore : CatalogStore :=
  performAll (NodeStep.perform sampleLog) [.applyNext, .crashApply 1] CatalogStore.new

theorem not_recovers_of_reached :
  ¬ ∀ (log : List Entry) (store : CatalogStore), Ascending log →
    NodeReached (NodeStep.Possible log) log store →
    ∃ recovered, store.recover log = .ok recovered
      ∧ recovered.catalogState = (CatalogStore.new.applyAll log).catalogState
      ∧ recovered.membership = (CatalogStore.new.applyAll log).membership
  := by
  intro h
  have hreached : NodeReached (NodeStep.Possible sampleLog) sampleLog tornStore := by
    apply (nodeReached_new _ sampleLog).performAll
    exact ⟨trivial, trivial, trivial⟩
  obtain ⟨recovered, hrecovered, hcatalog, -⟩ := h sampleLog tornStore (by decide) hreached
  have hcolumns := congrArg
    (fun state => (state.relations["sales.public.t"]?).map (·.columns.length)) hcatalog
  obtain rfl : tornStore.applyAll (entriesAfter sampleLog (some (sampleEntry 0 .blank).logId))
      = recovered := Except.ok.inj hrecovered
  revert hcolumns
  decide

end Raft
