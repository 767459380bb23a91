import AnalyticsDB.Control.RaftStore
import AnalyticsDB.Lib.Run
import Mathlib.Data.List.Chain

/-!
# The log of a node

The rows of the log are in the order of the indexes, because their keys are.  What the calls on
the log leave is compared with the entries that were appended, less those that were deleted as
conflicting and those that were purged.
-/

namespace Raft

open Run CatalogStore

/-! ### Calls on the log -/

/-- A call on the log. -/
inductive LogCall where
  | append (entries : List Entry)
  | deleteConflictSince (logId : LogId)
  | purgeUpto (logId : LogId)

def LogCall.performStore : LogCall → CatalogStore → CatalogStore
  | .append entries, store => store.appendToLog entries
  | .deleteConflictSince logId, store => store.deleteConflictLogsSince logId
  | .purgeUpto logId, store => (store.purgeLogsUpto logId).2

/-- The entries that are to be stored, and the ids up to which entries were purged. -/
structure LogHistory where
  stored : List Entry
  purged : List LogId

def LogCall.performHistory : LogCall → LogHistory → LogHistory
  | .append entries, history => { history with stored := history.stored ++ entries }
  | .deleteConflictSince logId, history =>
    { history with stored := history.stored.filter (fun entry => entry.index < logId.index) }
  | .purgeUpto logId, history =>
    { stored := history.stored.filter (fun entry => logId.index < entry.index)
      purged := history.purged ++ [logId] }

/-- A store, and what was done to it. -/
structure LogRun where
  store : CatalogStore
  history : LogHistory

def LogCall.perform (call : LogCall) (run : LogRun) : LogRun :=
  { store := call.performStore run.store, history := call.performHistory run.history }

/-- A new store. -/
def LogRun.new : LogRun := { store := CatalogStore.new, history := { stored := [], purged := [] } }

/-- The index of an entry is the one after that of another. -/
def Next (entry entry' : Entry) : Prop := entry'.index.toNat = entry.index.toNat + 1

/-- Entries are appended with the indexes that follow those that are stored, and behind those that
were purged. -/
def LogCall.Consecutive (call : LogCall) (run : LogRun) : Prop :=
  match call with
  | .append entries =>
    (run.history.stored ++ entries).IsChain Next
      ∧ ∀ logId ∈ run.history.purged, ∀ entry ∈ entries, logId.index < entry.index
  | .deleteConflictSince _ | .purgeUpto _ => True

/-- What calls with consecutive indexes lead to. -/
abbrev LogRun.Reached (run : LogRun) : Prop :=
  Reachable (· = LogRun.new) (byOps LogCall.perform LogCall.Consecutive) run

/-! ### The order of the rows -/

section

variable {index index' : UInt64}

theorem toNat_lt_pow (index : UInt64) : index.toNat < 256 ^ 8
  := index.toNat_lt

/-- Keys are ordered as their indexes are. -/
theorem compare_logKey : compare (logKey index) (logKey index') = compare index.toNat index'.toNat
  := BigEndian.compare_toBytes (toNat_lt_pow index) (toNat_lt_pow index')

@[simp]
theorem logIndex_logKey (index : UInt64) : logIndex (logKey index) = .ok index
  := by
  rw [logIndex, logKey, if_pos (BigEndian.length_toBytes 8 _),
    BigEndian.ofBytes_toBytes (toNat_lt_pow index), UInt64.ofNat_toNat]

theorem logKey_inj : logKey index = logKey index' ↔ index = index'
  := by
  rw [logKey, logKey, BigEndian.toBytes_inj (toNat_lt_pow index) (toNat_lt_pow index'),
    UInt64.toNat_inj]

theorem isLE_compare_logKey :
  (compare (logKey index) (logKey index')).isLE = true ↔ index ≤ index'
  := by
  rw [compare_logKey, Nat.isLE_compare, UInt64.le_iff_toNat_le]

end

/-- The row of an entry. -/
def Entry.row (entry : Entry) : List UInt8 × Entry := (logKey entry.index, entry)

/-- Rows in the order of their keys. -/
def RowsAscend (rows : List (List UInt8 × Entry)) : Prop :=
  rows.Pairwise (fun row row' => compare row.1 row'.1 = .lt)

/-- The rows of a log are what is in it, in order. -/
theorem toList_eq {logs : Std.ExtTreeMap (List UInt8) Entry} {rows : List (List UInt8 × Entry)}
    (hrows : RowsAscend rows)
    (hmem : ∀ key entry, (key, entry) ∈ rows ↔ logs[key]? = some entry) :
  logs.toList = rows
  := by
  have hnodup : ∀ rows : List (List UInt8 × Entry), RowsAscend rows → rows.Nodup := by
    intro rows hrows
    apply List.Pairwise.imp _ hrows
    rintro row row' hlt rfl
    simp at hlt
  apply @List.Perm.eq_of_pairwise _ (fun row row' => compare row.1 row'.1 = .lt)
  · intro row row' _ _ hlt hgt
    exact absurd hgt (Std.OrientedCmp.not_lt_of_lt hlt)
  · exact logs.ordered_keys_toList
  · exact hrows
  · rw [List.perm_ext_iff_of_nodup (hnodup _ logs.ordered_keys_toList) (hnodup _ hrows)]
    rintro ⟨key, entry⟩
    rw [Std.ExtTreeMap.mem_toList_iff_getElem?_eq_some, hmem]

/-- Rows that are deleted by their keys are gone from the log, and the others stay. -/
theorem toList_eraseAll (keys : List (List UInt8)) (logs : Std.ExtTreeMap (List UInt8) Entry) :
  (keys.foldl Std.ExtTreeMap.erase logs).toList = logs.toList.filter (fun row => row.1 ∉ keys)
  := by
  have hget : ∀ key, (keys.foldl Std.ExtTreeMap.erase logs)[key]?
      = if key ∈ keys then none else logs[key]? := by
    intro key
    induction keys generalizing logs with
    | nil => simp
    | cons first keys ih =>
        rw [List.foldl_cons, ih, Std.ExtTreeMap.getElem?_erase]
        simp only [Std.compare_eq_iff_eq, List.mem_cons]
        by_cases hfirst : first = key
        · subst hfirst
          simp
        · simp [hfirst, Ne.symm hfirst]
  apply toList_eq
  · exact logs.ordered_keys_toList.filter _
  · intro key entry
    rw [hget, List.mem_filter, Std.ExtTreeMap.mem_toList_iff_getElem?_eq_some]
    by_cases hkey : key ∈ keys
    · simp [hkey]
    · simp [hkey]

/-- A row behind all the others is the last. -/
theorem toList_insert_last {logs : Std.ExtTreeMap (List UInt8) Entry} {key : List UInt8}
    (entry : Entry) (h : ∀ row ∈ logs.toList, compare row.1 key = .lt) :
  (logs.insert key entry).toList = logs.toList ++ [(key, entry)]
  := by
  apply toList_eq
  · apply List.pairwise_append.mpr
    refine ⟨logs.ordered_keys_toList, List.pairwise_singleton _ _, ?_⟩
    rintro row hrow _ hlast
    rw [List.mem_singleton.mp hlast]
    exact h row hrow
  · intro key' entry'
    rw [List.mem_append, List.mem_singleton, Prod.mk.injEq, Std.ExtTreeMap.getElem?_insert]
    simp only [Std.compare_eq_iff_eq]
    by_cases hkey : key = key'
    · subst hkey
      have hnot : (key, entry') ∉ logs.toList := by
        intro hmem
        simpa using h _ hmem
      simp [hnot, eq_comm]
    · simp [hkey, Ne.symm hkey, Std.ExtTreeMap.mem_toList_iff_getElem?_eq_some]

/-! ### What the calls leave -/

/-- The rows of a store are the entries that are to be stored, and its mark is the id up to which
entries were purged last. -/
structure Stores (run : LogRun) : Prop where
  rows : run.store.logs.toList = run.history.stored.map Entry.row
  lastPurged : run.store.lastPurgedLogId = run.history.purged.getLast?
  consecutive : run.history.stored.IsChain Next
  behind : ∀ logId ∈ run.history.purged, ∀ entry ∈ run.history.stored,
    logId.index < entry.index

/-- The indexes of entries go up. -/
def IndexesAscend (entries : List Entry) : Prop :=
  entries.Pairwise (fun entry entry' => entry.index < entry'.index)

theorem indexesAscend_of_consecutive {entries : List Entry} (h : entries.IsChain Next) :
  IndexesAscend entries
  := by
  have hlt : (entries.map (fun entry => entry.index.toNat)).IsChain (· < ·) := by
    apply (List.isChain_map _).mpr
    apply h.imp
    intro entry entry' hnext
    rw [hnext]
    apply Nat.lt_succ_self
  apply (List.pairwise_map.mp (List.isChain_iff_pairwise.mp hlt)).imp
  intro entry entry' hless
  exact UInt64.lt_iff_toNat_lt.mpr hless

/-- The entries below an index are the first ones. -/
theorem filter_lt_prefix {entries : List Entry} (h : IndexesAscend entries) (index : UInt64) :
  entries.filter (fun entry => entry.index < index) <+: entries
  := by
  induction entries with
  | nil => simp
  | cons entry entries ih =>
      obtain ⟨hfirst, hrest⟩ := List.pairwise_cons.mp h
      by_cases hless : entry.index < index
      · simp only [List.filter_cons, hless, decide_true, if_true, List.prefix_cons_inj]
        exact ih hrest
      · have hnone : (entry :: entries).filter (fun entry => entry.index < index) = [] := by
          rw [List.filter_eq_nil_iff]
          intro entry' hentry'
          obtain rfl | hentry' := List.mem_cons.mp hentry'
          · simpa using hless
          · have := hfirst entry' hentry'
            simp only [decide_eq_true_eq]
            exact fun hless' => hless (UInt64.lt_trans this hless')
        rw [hnone]
        apply List.nil_prefix

/-- The entries above an index are the last ones. -/
theorem filter_gt_suffix {entries : List Entry} (h : IndexesAscend entries) (index : UInt64) :
  entries.filter (fun entry => index < entry.index) <:+ entries
  := by
  induction entries with
  | nil => simp
  | cons entry entries ih =>
      obtain ⟨hfirst, hrest⟩ := List.pairwise_cons.mp h
      by_cases hless : index < entry.index
      · have hall : (entry :: entries).filter (fun entry => index < entry.index)
            = entry :: entries := by
          rw [List.filter_eq_self]
          intro entry' hentry'
          obtain rfl | hentry' := List.mem_cons.mp hentry'
          · simpa using hless
          · simpa using UInt64.lt_trans hless (hfirst entry' hentry')
        exact hall.symm ▸ List.suffix_refl _
      · simp only [List.filter_cons, hless, decide_false, Bool.false_eq_true, if_false]
        exact (ih hrest).trans (List.suffix_cons entry entries)

theorem Stores.new : Stores LogRun.new
  where
  rows := rfl
  lastPurged := rfl
  consecutive := List.IsChain.nil
  behind := by simp [LogRun.new]

/-- One entry is appended behind the others. -/
theorem Stores.append_one {store : CatalogStore} {history : LogHistory} {entry : Entry}
    (h : Stores ⟨store, history⟩) (hnext : (history.stored ++ [entry]).IsChain Next)
    (hbehind : ∀ logId ∈ history.purged, logId.index < entry.index) :
  Stores ⟨{ store with logs := store.logs.insert (logKey entry.index) entry },
    { history with stored := history.stored ++ [entry] }⟩
  := by
  constructor
  · change (store.logs.insert (logKey entry.index) entry).toList = _
    rw [toList_insert_last, h.rows, List.map_append]
    · rfl
    · rw [h.rows]
      rintro row hrow
      obtain ⟨entry', hentry', rfl⟩ := List.mem_map.mp hrow
      have hless := (List.pairwise_append.mp (indexesAscend_of_consecutive hnext)).2.2 entry'
        hentry' entry (by simp)
      change compare (logKey entry'.index) (logKey entry.index) = .lt
      rw [compare_logKey, Nat.compare_eq_lt]
      exact UInt64.lt_iff_toNat_lt.mp hless
  · exact h.lastPurged
  · exact hnext
  · intro logId hlogId entry' hentry'
    obtain hentry' | hentry' := List.mem_append.mp hentry'
    · exact h.behind logId hlogId entry' hentry'
    · rw [List.mem_singleton.mp hentry']
      exact hbehind logId hlogId

theorem Stores.append {run : LogRun} (h : Stores run) (entries : List Entry)
    (hnext : (run.history.stored ++ entries).IsChain Next)
    (hbehind : ∀ logId ∈ run.history.purged, ∀ entry ∈ entries, logId.index < entry.index) :
  Stores (LogCall.perform (.append entries) run)
  := by
  obtain ⟨store, history⟩ := run
  induction entries generalizing store history with
  | nil => simpa [LogCall.perform, LogCall.performStore, LogCall.performHistory, appendToLog] using h
  | cons entry entries ih =>
      have hsplit : history.stored ++ entry :: entries = history.stored ++ [entry] ++ entries := by
        simp
      simp only [hsplit] at hnext
      have hone := h.append_one (List.IsChain.left_of_append hnext)
        (fun logId hlogId => hbehind logId hlogId entry List.mem_cons_self)
      have hall := ih _ _ hone hnext
        (fun logId hlogId entry' hentry' => hbehind logId hlogId entry' (.tail _ hentry'))
      simpa [LogCall.perform, LogCall.performStore, LogCall.performHistory, appendToLog] using hall

theorem mem_rowsFrom {store : CatalogStore} {start : List UInt8} {row : List UInt8 × Entry} :
  row ∈ store.rowsFrom start ↔ row ∈ store.logs.toList ∧ (compare start row.1).isLE = true
  := by
  rw [rowsFrom, List.mem_filter]

/-- Rows are deleted by their keys. -/
theorem foldl_erase (rows : List (List UInt8 × Entry)) (store : CatalogStore) :
  rows.foldl (fun store row => { store with logs := store.logs.erase row.1 }) store
    = { store with logs := (rows.map Prod.fst).foldl Std.ExtTreeMap.erase store.logs }
  := by
  induction rows generalizing store with
  | nil => rfl
  | cons row rows ih =>
      rw [List.foldl_cons, ih]
      rfl

/-- What stays in the log after the entries with a property are deleted. -/
theorem Stores.erase {run : LogRun} (h : Stores run) {keys : List (List UInt8)}
    {p : Entry → Bool}
    (hkeys : ∀ entry ∈ run.history.stored, logKey entry.index ∉ keys ↔ p entry = true) :
  (keys.foldl Std.ExtTreeMap.erase run.store.logs).toList
    = (run.history.stored.filter p).map Entry.row
  := by
  rw [toList_eraseAll, h.rows, List.filter_map]
  congr 1
  apply List.filter_congr
  intro entry hentry
  rw [Bool.eq_iff_iff, ← hkeys entry hentry]
  exact decide_eq_true_iff

theorem Stores.deleteConflictSince {run : LogRun} (h : Stores run) (logId : LogId) :
  Stores (LogCall.perform (.deleteConflictSince logId) run)
  := by
  have hascend := indexesAscend_of_consecutive h.consecutive
  have hfirst := filter_lt_prefix hascend logId.index
  constructor
  · change (deleteConflictLogsSince run.store logId).logs.toList = _
    rw [deleteConflictLogsSince, foldl_erase]
    apply h.erase
    intro entry hentry
    have hrow : entry.row ∈ run.store.logs.toList := by
      rw [h.rows]
      exact List.mem_map_of_mem hentry
    rw [List.mem_map, decide_eq_true_iff, ← UInt64.not_le]
    apply not_congr
    constructor
    · rintro ⟨row, hrow, hkey⟩
      rw [← isLE_compare_logKey, ← hkey]
      exact (mem_rowsFrom.mp hrow).2
    · intro hle
      exact ⟨entry.row, mem_rowsFrom.mpr ⟨hrow, isLE_compare_logKey.mpr hle⟩, rfl⟩
  · change (deleteConflictLogsSince run.store logId).lastPurgedLogId = _
    rw [deleteConflictLogsSince, foldl_erase]
    exact h.lastPurged
  · exact h.consecutive.infix hfirst.isInfix
  · intro purged hpurged entry hentry
    exact h.behind purged hpurged entry (hfirst.subset hentry)

/-- The rows up to an index are deleted one after another. -/
theorem deleteRowsUpto_rows (upto : UInt64) {entries : List Entry} (h : IndexesAscend entries)
    (store : CatalogStore) :
  deleteRowsUpto upto (entries.map Entry.row) store
    = (.ok (), { store with
        logs := ((entries.filter (fun entry => entry.index ≤ upto)).map
          (fun entry => logKey entry.index)).foldl Std.ExtTreeMap.erase store.logs })
  := by
  induction entries generalizing store with
  | nil => rfl
  | cons entry entries ih =>
      obtain ⟨hfirst, hrest⟩ := List.pairwise_cons.mp h
      simp only [List.map_cons, deleteRowsUpto, Entry.row, logIndex_logKey]
      by_cases hless : upto < entry.index
      · have hnone : (entry :: entries).filter (fun entry => entry.index ≤ upto) = [] := by
          rw [List.filter_eq_nil_iff]
          intro entry' hentry'
          simp only [decide_eq_true_eq, UInt64.not_le]
          obtain rfl | hentry' := List.mem_cons.mp hentry'
          · exact hless
          · exact UInt64.lt_trans hless (hfirst entry' hentry')
        rw [if_pos hless, hnone]
        rfl
      · have hle : entry.index ≤ upto := UInt64.not_lt.mp hless
        rw [if_neg hless, List.filter_cons_of_pos (by simpa using hle)]
        exact ih hrest _

theorem Stores.purgeUpto {run : LogRun} (h : Stores run) (logId : LogId) :
  Stores (LogCall.perform (.purgeUpto logId) run)
  := by
  have hascend := indexesAscend_of_consecutive h.consecutive
  have hlast := filter_gt_suffix hascend logId.index
  have hpurge : (purgeLogsUpto run.store logId).2
      = { run.store with
          logs := ((run.history.stored.filter (fun entry => entry.index ≤ logId.index)).map
            (fun entry => logKey entry.index)).foldl Std.ExtTreeMap.erase run.store.logs
          lastPurgedLogId := some logId } := by
    rw [purgeLogsUpto, h.rows, deleteRowsUpto_rows _ hascend]
  constructor
  · change (purgeLogsUpto run.store logId).2.logs.toList = _
    rw [hpurge]
    apply h.erase
    intro entry hentry
    simp only [List.mem_map, List.mem_filter, logKey_inj, decide_eq_true_eq, ← UInt64.not_le]
    apply not_congr
    constructor
    · rintro ⟨entry', ⟨-, hle⟩, hindex⟩
      rw [← hindex]
      exact hle
    · intro hle
      exact ⟨entry, ⟨hentry, hle⟩, rfl⟩
  · change (purgeLogsUpto run.store logId).2.lastPurgedLogId = _
    rw [hpurge]
    exact List.getLast?_concat.symm
  · exact h.consecutive.infix hlast.isInfix
  · intro purged hpurged entry hentry
    obtain hpurged | hpurged := List.mem_append.mp hpurged
    · exact h.behind purged hpurged entry (hlast.subset hentry)
    · rw [List.mem_singleton.mp hpurged]
      simpa using (List.mem_filter.mp hentry).2

theorem Stores.perform {run : LogRun} (h : Stores run) {call : LogCall}
    (hcall : call.Consecutive run) :
  Stores (call.perform run)
  := by
  cases call with
  | append entries => exact h.append entries hcall.1 hcall.2
  | deleteConflictSince logId => exact h.deleteConflictSince logId
  | purgeUpto logId => exact h.purgeUpto logId

/-- Every run of calls leaves the entries that are to be stored. -/
theorem stores_of_reached {run : LogRun} (h : run.Reached) : Stores run
  := by
  apply Reachable.invariant _ _ h
  · rintro _ rfl
    exact Stores.new
  · rintro run _ hrun ⟨call, hcall, rfl⟩
    exact hrun.perform hcall

/-! ### Reading the log -/

/-- The index after which nothing can be. -/
def lastIndex : UInt64 := UInt64.ofNat (2 ^ 64 - 1)

/-- Whether an index is not before the start of a range. -/
def CatalogStore.Bound.isReached : Bound → UInt64 → Bool
  | .included first, index => first ≤ index
  | .excluded first, index => first < index
  | .unbounded, _ => true

def CatalogStore.IndexRange.contains (range : IndexRange) (index : UInt64) : Bool :=
  range.startBound.isReached index && !range.endBound.isBehind index

/-- What is behind the end of a range stays behind it. -/
theorem isBehind_mono {endBound : Bound} {index index' : UInt64} (hless : index < index')
    (h : endBound.isBehind index = true) :
  endBound.isBehind index' = true
  := by
  cases endBound with
  | unbounded => exact h
  | included last =>
      simp only [Bound.isBehind, decide_eq_true_eq] at h ⊢
      exact UInt64.lt_trans h hless
  | excluded last =>
      simp only [Bound.isBehind, decide_eq_true_eq] at h ⊢
      exact UInt64.le_of_lt (UInt64.lt_of_le_of_lt h hless)

/-- The rows up to the end of a range are read as their entries. -/
theorem readRows_rows (endBound : Bound) {entries : List Entry} (h : IndexesAscend entries) :
  readRows endBound (entries.map Entry.row)
    = .ok (entries.filter (fun entry => !endBound.isBehind entry.index))
  := by
  induction entries with
  | nil => rfl
  | cons entry entries ih =>
      obtain ⟨hfirst, hrest⟩ := List.pairwise_cons.mp h
      simp only [List.map_cons, readRows, Entry.row, logIndex_logKey]
      cases hbehind : endBound.isBehind entry.index with
      | true =>
          have hnone : (entry :: entries).filter (fun entry => !endBound.isBehind entry.index)
              = [] := by
            rw [List.filter_eq_nil_iff]
            intro entry' hentry'
            obtain rfl | hentry' := List.mem_cons.mp hentry'
            · simpa using hbehind
            · simpa using isBehind_mono (hfirst entry' hentry') hbehind
          rw [hnone]
          rfl
      | false =>
          rw [List.filter_cons_of_pos (by simpa using hbehind)]
          simp only [Bool.false_eq_true, if_false, ih hrest]

/-- The rows from the key of an index on are those of the entries from it on. -/
theorem Stores.rowsFrom {run : LogRun} (h : Stores run) (start : UInt64) :
  run.store.rowsFrom (logKey start)
    = (run.history.stored.filter (fun entry => start ≤ entry.index)).map Entry.row
  := by
  rw [CatalogStore.rowsFrom, h.rows, List.filter_map]
  congr 1
  apply List.filter_congr
  intro entry hentry
  rw [Bool.eq_iff_iff, decide_eq_true_iff]
  exact isLE_compare_logKey

/-- What is read from the log from an index on. -/
theorem Stores.readFrom {run : LogRun} (h : Stores run) (start : UInt64) (endBound : Bound) :
  readRows endBound (run.store.rowsFrom (logKey start))
    = .ok (run.history.stored.filter (fun entry =>
        decide (start ≤ entry.index) && !endBound.isBehind entry.index))
  := by
  have hascend := indexesAscend_of_consecutive h.consecutive
  rw [h.rowsFrom, readRows_rows _ (hascend.filter _), List.filter_filter]
  congr 1
  apply List.filter_congr
  intro entry hentry
  apply Bool.and_comm

theorem toNat_add_one {index : UInt64} (h : index ≠ lastIndex) :
  (index + 1).toNat = index.toNat + 1
  := by
  have hlast : index.toNat ≠ 2 ^ 64 - 1 := fun h' => h (UInt64.toNat_inj.mp h')
  have hbound := index.toNat_lt
  rw [UInt64.toNat_add]
  apply Nat.mod_eq_of_lt
  change index.toNat + 1 < 2 ^ 64
  omega

/-- The key a range is read from. -/
theorem startKey_eq {overflowChecks : Bool} {startBound : Bound}
    (h : startBound ≠ .excluded lastIndex) :
  ∃ start, startKey overflowChecks startBound = .ok (logKey start)
    ∧ ∀ index, startBound.isReached index = decide (start ≤ index)
  := by
  cases startBound with
  | included first => exact ⟨first, rfl, fun _ => rfl⟩
  | unbounded => exact ⟨0, rfl, fun index => by simp [Bound.isReached]⟩
  | excluded first =>
      have hfirst : first ≠ lastIndex := fun h' => h (congrArg Bound.excluded h')
      refine ⟨first + 1, ?_, ?_⟩
      · have hnot : ¬ (overflowChecks && first = UInt64.ofNat (2 ^ 64 - 1)) = true := by
          intro hlast
          rw [Bool.and_eq_true, decide_eq_true_iff] at hlast
          exact hfirst hlast.2
        rw [startKey, if_neg hnot]
      · intro index
        rw [Bool.eq_iff_iff, Bound.isReached, decide_eq_true_iff, decide_eq_true_iff,
          UInt64.lt_iff_toNat_lt, UInt64.le_iff_toNat_le, toNat_add_one hfirst]
        apply Iff.rfl

/-- A range that starts after the last index of all cannot be read where overflow is checked, and
is read from the beginning elsewhere. -/
theorem startKey_last (overflowChecks : Bool) :
  startKey overflowChecks (.excluded lastIndex)
    = if overflowChecks then .error "attempt to add with overflow" else .ok (logKey 0)
  := by
  cases overflowChecks <;> rfl

/-- Nothing comes after the last index of all. -/
theorem not_lastIndex_lt (index : UInt64) : ¬ lastIndex < index
  := by
  have hbound := index.toNat_lt
  rw [UInt64.lt_iff_toNat_lt]
  change ¬ 2 ^ 64 - 1 < index.toNat
  omega

/-- A range that starts after the last index of all is read as empty only where overflow is not
checked and everything that is stored is behind its end. -/
def Readable (overflowChecks : Bool) (range : IndexRange) (stored : List Entry) : Prop :=
  range.startBound = .excluded lastIndex →
    overflowChecks = false ∧ ∀ entry ∈ stored, range.endBound.isBehind entry.index = true

theorem Stores.tryGetLogEntries_iff {run : LogRun} (h : Stores run) (overflowChecks : Bool)
    (range : IndexRange) :
  tryGetLogEntries overflowChecks run.store range
      = .ok (run.history.stored.filter (fun entry => range.contains entry.index))
    ↔ Readable overflowChecks range run.history.stored
  := by
  by_cases hstart : range.startBound = .excluded lastIndex
  · have hnone : run.history.stored.filter (fun entry => range.contains entry.index) = [] := by
      rw [List.filter_eq_nil_iff]
      intro entry hentry
      simp [IndexRange.contains, hstart, Bound.isReached, not_lastIndex_lt]
    rw [hnone, Readable, tryGetLogEntries, hstart, startKey_last]
    cases overflowChecks with
    | true => simp
    | false =>
        simp only [Bool.false_eq_true, if_false, h.readFrom, Except.ok.injEq,
          List.filter_eq_nil_iff]
        simp
  · obtain ⟨start, hkey, hreached⟩ := @startKey_eq overflowChecks _ hstart
    have hreadable : Readable overflowChecks range run.history.stored :=
      fun h' => absurd h' hstart
    simp only [hreadable, iff_true, tryGetLogEntries, hkey, h.readFrom]
    congr 1
    apply List.filter_congr
    intro entry hentry
    rw [IndexRange.contains, hreached]

/-! ### The contract of the log -/

/-- The greatest of some ids, when there are any. -/
def Greatest (ids : List LogId) : Option LogId → Prop
  | none => ids = []
  | some logId => IsGreatest { logId | logId ∈ ids } logId

/-- What the consensus relies on: a range is read as the stored entries in it, in order; the
stored entries are consecutive and behind those that were purged; and the state of the log names
the greatest id up to which entries were purged, and the last entry that is stored or, when there
is none, that id. -/
structure LogContract (overflowChecks : Bool) (run : LogRun) (range : IndexRange) : Prop where
  stored : run.store.logs.toList.map Prod.snd = run.history.stored
  entries : tryGetLogEntries overflowChecks run.store range
    = .ok (run.history.stored.filter (fun entry => range.contains entry.index))
  ascending : IndexesAscend run.history.stored
  consecutive : run.history.stored.IsChain Next
  behind : ∀ logId ∈ run.store.getLogState.lastPurgedLogId, ∀ entry ∈ run.history.stored,
    logId.index < entry.index
  lastPurged : Greatest run.history.purged run.store.getLogState.lastPurgedLogId
  lastLogId : run.store.getLogState.lastLogId
    = (run.history.stored.getLast?.map (·.logId)).or run.store.getLogState.lastPurgedLogId

/-- The range does not start after the last index of all, entries were not purged up to an id that
is less than one before, and something is stored if anything was purged. -/
structure LogCondition (overflowChecks : Bool) (history : LogHistory) (range : IndexRange) :
    Prop where
  readable : Readable overflowChecks range history.stored
  ordered : ∀ last ∈ history.purged.getLast?, ∀ logId ∈ history.purged, logId ≤ last
  kept : history.purged ≠ [] → history.stored ≠ []

theorem greatest_getLast? (ids : List LogId) :
  Greatest ids ids.getLast? ↔ ∀ last ∈ ids.getLast?, ∀ logId ∈ ids, logId ≤ last
  := by
  cases hlast : ids.getLast? with
  | none => simp [Greatest, List.getLast?_eq_none_iff.mp hlast]
  | some last =>
      simp only [Greatest, Option.mem_some, forall_eq']
      constructor
      · intro h logId hlogId
        exact h.2 hlogId
      · intro h
        exact ⟨List.mem_of_getLast? hlast, fun logId hlogId => h logId hlogId⟩

/-- The log does what the consensus relies on exactly under this condition. -/
theorem logContract_iff {run : LogRun} (h : run.Reached) (overflowChecks : Bool)
    (range : IndexRange) :
  LogContract overflowChecks run range ↔ LogCondition overflowChecks run.history range
  := by
  have hstores := stores_of_reached h
  have hlastLogId : run.store.getLogState.lastLogId
      = run.history.stored.getLast?.map (·.logId) := by
    rw [getLogState, hstores.rows, List.getLast?_map, Option.map_map]
    rfl
  have hlastPurged : run.store.getLogState.lastPurgedLogId = run.history.purged.getLast? :=
    hstores.lastPurged
  constructor
  · intro hcontract
    constructor
    · exact (hstores.tryGetLogEntries_iff overflowChecks range).mp hcontract.entries
    · rw [← greatest_getLast?, ← hlastPurged]
      exact hcontract.lastPurged
    · intro hpurged hstored
      have hlast := hcontract.lastLogId
      rw [hlastLogId, hlastPurged, hstored] at hlast
      exact hpurged (List.getLast?_eq_none_iff.mp hlast.symm)
  · intro hcondition
    constructor
    · rw [hstores.rows, List.map_map]
      exact List.map_id _
    · exact (hstores.tryGetLogEntries_iff overflowChecks range).mpr hcondition.readable
    · exact indexesAscend_of_consecutive hstores.consecutive
    · exact hstores.consecutive
    · intro logId hlogId
      rw [hlastPurged] at hlogId
      exact hstores.behind logId (List.mem_of_getLast? hlogId)
    · rw [hlastPurged, greatest_getLast?]
      exact hcondition.ordered
    · rw [hlastLogId, hlastPurged]
      cases hlast : run.history.stored.getLast? with
      | some last => rfl
      | none =>
          have hstored := List.getLast?_eq_none_iff.mp hlast
          have hpurged : run.history.purged = [] := by
            by_contra hpurged
            exact hcondition.kept hpurged hstored
          rw [hpurged]
          rfl

/-- An entry without payload, of the first term. -/
def blankEntry (index : UInt64) : Entry :=
  { logId := { leaderId := { term := 1, nodeId := 1 }, index := index }, payload := .blank }

/-- Two entries are appended, and the log is purged up to an index. -/
def purgedRun (upto : UInt64) : LogRun :=
  performAll LogCall.perform
    [.append [blankEntry 0, blankEntry 1], .purgeUpto (blankEntry upto).logId] LogRun.new

theorem purgedRun_reached (upto : UInt64) : (purgedRun upto).Reached
  := by
  have hnew : LogRun.new.Reached := .start rfl
  apply hnew.performAll
  refine ⟨⟨?_, by simp [LogRun.new]⟩, trivial, trivial⟩
  simp only [LogRun.new, List.nil_append, List.isChain_cons_cons, List.isChain_singleton, and_true]
  rfl

theorem logContract_purged :
  LogContract true (purgedRun 0) ⟨.included 0, .unbounded⟩
  := by
  apply (logContract_iff (purgedRun_reached 0) true ⟨.included 0, .unbounded⟩).mpr
  have hpurged : (purgedRun 0).history.purged = [(blankEntry 0).logId] := rfl
  have hstored : (purgedRun 0).history.stored = [blankEntry 1] := by decide
  constructor
  · intro hstart
    cases hstart
  · simp [hpurged]
  · simp [hstored]

/-- When all entries are purged, the log has no last entry, not even the one it was purged up
to. -/
theorem not_logContract_purged :
  ¬ ∀ run : LogRun, run.Reached → ∀ overflowChecks range, LogContract overflowChecks run range
  := by
  intro h
  have hlast := (h _ (purgedRun_reached 1) true ⟨.included 0, .unbounded⟩).lastLogId
  revert hlast
  decide

end Raft
