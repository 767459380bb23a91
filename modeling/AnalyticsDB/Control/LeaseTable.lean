import AnalyticsDB.Catalog.State
import AnalyticsDB.Lib.Run
import Mathlib

/-!
# The table of the leases

A SQLite catalogue has one row for each relation that a node has leased: the node and the time at
which the lease ends, a signed number of 64 bits.  A node is granted a lease that no other node
has, or that has ended; and the lease it has itself is renewed.
-/

namespace SqliteCatalogStore

open Run

/-- A row of `table_leases`. -/
structure LeaseRow where
  holderNodeId : String
  expiresMs : Int
  deriving DecidableEq, Repr

/-- A number as SQLite stores it. -/
def asI64 (n : UInt64) : Int := n.toInt64.toInt

/-- Insert the row of a lease, or update the one that is there where it ended or is of the same
node; and whether a row was written. -/
def tryAcquireLease (table : KeyMap LeaseRow) (relationKey holderNodeId : String)
    (ttlMs nowMs : UInt64) : KeyMap LeaseRow × Bool :=
  let expiresMs := nowMs + ttlMs
  let row : LeaseRow := { holderNodeId := holderNodeId, expiresMs := asI64 expiresMs }
  match table[relationKey]? with
  | none => (table.insert relationKey row, true)
  | some old =>
    if old.expiresMs < asI64 nowMs ∨ old.holderNodeId = holderNodeId then
      (table.insert relationKey row, true)
    else
      (table, false)

/-- Delete the rows of this relation and this node. -/
def releaseLease (table : KeyMap LeaseRow) (relationKey holderNodeId : String) :
    KeyMap LeaseRow :=
  table.filter (fun key row => !(key = relationKey && row.holderNodeId = holderNodeId))

/-- The time of expiry is stored as the sum of the time and the duration. -/
def NoOverflow (ttlMs nowMs : UInt64) : Prop :=
  asI64 (nowMs + ttlMs) = nowMs.toNat + ttlMs.toNat

/-- A call on the table, with the time it reads from the clock. -/
inductive LeaseCall where
  | tryAcquire (relationKey holderNodeId : String) (ttlMs nowMs : UInt64)
  | release (relationKey holderNodeId : String)
  deriving DecidableEq, Repr

def LeaseCall.perform : LeaseCall → KeyMap LeaseRow → KeyMap LeaseRow
  | .tryAcquire relationKey holderNodeId ttlMs nowMs, table =>
    (tryAcquireLease table relationKey holderNodeId ttlMs nowMs).1
  | .release relationKey holderNodeId, table => releaseLease table relationKey holderNodeId

/-- The time a call reads. -/
def LeaseCall.reading : LeaseCall → Option UInt64
  | .tryAcquire _ _ _ nowMs => some nowMs
  | .release .. => none

def LeaseCall.NoOverflow : LeaseCall → Prop
  | .tryAcquire _ _ ttlMs nowMs => SqliteCatalogStore.NoOverflow ttlMs nowMs
  | .release .. => True

/-- A call by which a node gives up a lease before a time: it releases it, or renews it for less
long. -/
def LeaseCall.EndsBefore (relationKey holderNodeId : String) (time : Nat) : LeaseCall → Prop
  | .tryAcquire key nodeId ttlMs nowMs =>
    key = relationKey ∧ nodeId = holderNodeId ∧ nowMs.toNat + ttlMs.toNat < time
  | .release key nodeId => key = relationKey ∧ nodeId = holderNodeId

/-- A node has the lease of a relation at least until a time. -/
def HasLease (table : KeyMap LeaseRow) (relationKey holderNodeId : String) (time : Nat) : Prop :=
  ∃ row, table[relationKey]? = some row ∧ row.holderNodeId = holderNodeId
    ∧ (time : Int) ≤ row.expiresMs

section

variable {table : KeyMap LeaseRow} {relationKey holderNodeId : String} {ttlMs nowMs : UInt64}

/-! ### What the calls do -/

/-- A request is granted when no lease is in the table, or one that ended, or one of the same
node. -/
theorem tryAcquireLease_granted :
  (tryAcquireLease table relationKey holderNodeId ttlMs nowMs).2 = true
    ↔ ∀ row, table[relationKey]? = some row →
        row.expiresMs < asI64 nowMs ∨ row.holderNodeId = holderNodeId
  := by
  cases hold : table[relationKey]? with
  | none => simp [tryAcquireLease, hold]
  | some old =>
      simp only [tryAcquireLease, hold, Option.some.injEq, forall_eq']
      split
      · rename_i hfree
        simp [hfree]
      · rename_i hheld
        simp [hheld]

/-- The table after a request: the row of the relation is the one that is granted, or the one that
was there. -/
theorem get_tryAcquireLease (key : String) :
  (tryAcquireLease table relationKey holderNodeId ttlMs nowMs).1[key]?
    = if relationKey = key
          ∧ (tryAcquireLease table relationKey holderNodeId ttlMs nowMs).2 = true then
        some ⟨holderNodeId, asI64 (nowMs + ttlMs)⟩
      else
        table[key]?
  := by
  cases hold : table[relationKey]? with
  | none => simp [tryAcquireLease, hold, KeyMap.get_insert]
  | some old =>
      simp only [tryAcquireLease, hold]
      split
      · simp [KeyMap.get_insert]
      · simp

theorem get_releaseLease (key : String) :
  (releaseLease table relationKey holderNodeId)[key]?
    = table[key]?.filter (fun row => !(key = relationKey && row.holderNodeId = holderNodeId))
  := by
  rw [releaseLease, Std.ExtTreeMap.getElem?_filter']

/-- A lease of another node is left alone. -/
theorem releaseLease_other
    (h : ∀ row, table[relationKey]? = some row → row.holderNodeId ≠ holderNodeId) :
  releaseLease table relationKey holderNodeId = table
  := by
  apply Std.ExtTreeMap.ext_getElem?
  intro key
  rw [get_releaseLease]
  cases hrow : table[key]? with
  | none => rfl
  | some row =>
      apply Option.filter_eq_some_iff.mpr
      refine ⟨rfl, ?_⟩
      by_cases hkey : key = relationKey
      · subst hkey
        simp [h row hrow]
      · simp [hkey]

/-- The lease of the holder is gone when it releases it. -/
theorem releaseLease_holder {row : LeaseRow} (h : table[relationKey]? = some row) :
  (releaseLease table relationKey row.holderNodeId)[relationKey]? = none
  := by
  rw [get_releaseLease, h]
  simp [Option.filter]

/-! ### Who has a lease -/

/-- A time that is read before the end of a lease that did not overflow is stored as it is. -/
theorem asI64_of_lt {n : UInt64} (h : n.toNat < 2 ^ 63) : asI64 n = n.toNat
  := by
  have hmsb : 2 * n.toBitVec.toNat < 2 ^ 64 := by
    change 2 * n.toNat < 2 ^ 64
    omega
  exact BitVec.toInt_eq_toNat_of_lt hmsb

/-- A time of expiry that did not overflow is below `2 ^ 63`. -/
theorem NoOverflow.lt (h : NoOverflow ttlMs nowMs) : nowMs.toNat + ttlMs.toNat < 2 ^ 63
  := by
  have hbound : asI64 (nowMs + ttlMs) < 2 ^ 63 := Int64.toInt_lt _
  rw [h] at hbound
  omega

/-- A node that was granted a lease has it until its end. -/
theorem hasLease_of_granted (hoverflow : NoOverflow ttlMs nowMs)
    (h : (tryAcquireLease table relationKey holderNodeId ttlMs nowMs).2 = true) :
  HasLease (tryAcquireLease table relationKey holderNodeId ttlMs nowMs).1 relationKey holderNodeId
    (nowMs.toNat + ttlMs.toNat)
  := by
  refine ⟨⟨holderNodeId, asI64 (nowMs + ttlMs)⟩, ?_, rfl, ?_⟩
  · rw [get_tryAcquireLease, if_pos ⟨rfl, h⟩]
  · rw [hoverflow]
    simp

/-- No other node is granted the lease before its end. -/
theorem HasLease.not_granted {time : Nat} {nodeId : String}
    (h : HasLease table relationKey holderNodeId time) (htime : time < 2 ^ 63)
    (hnow : nowMs.toNat ≤ time) (hnode : nodeId ≠ holderNodeId) :
  (tryAcquireLease table relationKey nodeId ttlMs nowMs).2 = false
  := by
  obtain ⟨row, hrow, hholder, hexpires⟩ := h
  rw [Bool.eq_false_iff, ne_eq, tryAcquireLease_granted]
  intro hfree
  obtain hended | hsame := hfree row hrow
  · rw [asI64_of_lt (by omega)] at hended
    omega
  · exact hnode (hsame.symm.trans hholder)

/-- A node that has a lease has it after a call that comes before its end and that does not give
it up. -/
theorem HasLease.perform {time : Nat} (h : HasLease table relationKey holderNodeId time)
    (htime : time < 2 ^ 63) {call : LeaseCall} (hoverflow : call.NoOverflow)
    (hreading : ∀ nowMs ∈ call.reading, nowMs.toNat ≤ time)
    (hkept : ¬ call.EndsBefore relationKey holderNodeId time) :
  HasLease (call.perform table) relationKey holderNodeId time
  := by
  cases call with
  | tryAcquire key nodeId ttlMs nowMs =>
      by_cases hgranted : key = relationKey
          ∧ (tryAcquireLease table key nodeId ttlMs nowMs).2 = true
      · obtain ⟨rfl, hgranted⟩ := hgranted
        by_cases hnode : nodeId = holderNodeId
        · -- The holder renews the lease, and not for less long.
          subst hnode
          have hlong : time ≤ nowMs.toNat + ttlMs.toNat :=
            Nat.le_of_not_lt (fun hless => hkept ⟨rfl, rfl, hless⟩)
          obtain ⟨row, hrow, hholder, hexpires⟩ := hasLease_of_granted hoverflow hgranted
          refine ⟨row, hrow, hholder, ?_⟩
          omega
        · have hnot : (tryAcquireLease table key nodeId ttlMs nowMs).2 = false :=
            h.not_granted htime (hreading nowMs rfl) hnode
          rw [hgranted] at hnot
          cases hnot
      · obtain ⟨row, hrow, hheld⟩ := h
        refine ⟨row, ?_, hheld⟩
        rw [LeaseCall.perform, get_tryAcquireLease, if_neg hgranted]
        exact hrow
  | release key nodeId =>
      obtain ⟨row, hrow, hholder, hexpires⟩ := h
      refine ⟨row, ?_, hholder, hexpires⟩
      rw [LeaseCall.perform, get_releaseLease, hrow]
      apply Option.filter_eq_some_iff.mpr
      refine ⟨rfl, ?_⟩
      by_cases hkey : relationKey = key
      · have hnode : nodeId ≠ holderNodeId := fun hnode => hkept ⟨hkey.symm, hnode⟩
        simp [hholder, Ne.symm hnode]
      · simp [hkey]

end

/-- A node that has a lease has it after calls that come before its end and that do not give it
up. -/
theorem HasLease.performAll {table : KeyMap LeaseRow} {relationKey holderNodeId : String}
    {time : Nat} (h : HasLease table relationKey holderNodeId time) (htime : time < 2 ^ 63)
    {calls : List LeaseCall} (hoverflow : ∀ call ∈ calls, call.NoOverflow)
    (hreading : ∀ call ∈ calls, ∀ nowMs ∈ call.reading, nowMs.toNat ≤ time)
    (hkept : ∀ call ∈ calls, ¬ call.EndsBefore relationKey holderNodeId time) :
  HasLease (performAll LeaseCall.perform calls table) relationKey holderNodeId time
  := by
  induction calls generalizing table with
  | nil => exact h
  | cons call calls ih =>
      apply ih
      · apply h.perform htime (hoverflow call List.mem_cons_self)
          (hreading call List.mem_cons_self) (hkept call List.mem_cons_self)
      · exact fun call' hcall' => hoverflow call' (.tail _ hcall')
      · exact fun call' hcall' => hreading call' (.tail _ hcall')
      · exact fun call' hcall' => hkept call' (.tail _ hcall')

/-- The leases of a table are safe: a node is granted a lease until the sum of the time and the
duration; from the call that grants a node a lease until its end, no
other node is granted it unless the node gives it up before; a release by a node that is not the
holder changes nothing; and the next request is granted to any node when the lease ended or when
the holder has released it. -/
structure LeasesSafe (table : KeyMap LeaseRow) : Prop where
  granted : ∀ (relationKey nodeId : String) (ttlMs nowMs : UInt64),
    (tryAcquireLease table relationKey nodeId ttlMs nowMs).2 = true → NoOverflow ttlMs nowMs →
    (tryAcquireLease table relationKey nodeId ttlMs nowMs).1[relationKey]?
      = some ⟨nodeId, nowMs.toNat + ttlMs.toNat⟩
  exclusive : ∀ (relationKey nodeId otherId : String) (ttlMs nowMs ttlMs' nowMs' : UInt64)
    (calls : List LeaseCall),
    (tryAcquireLease table relationKey nodeId ttlMs nowMs).2 = true →
    NoOverflow ttlMs nowMs → (∀ call ∈ calls, call.NoOverflow) →
    (nowMs :: calls.filterMap LeaseCall.reading ++ [nowMs']).Pairwise (· ≤ ·) →
    nowMs'.toNat ≤ nowMs.toNat + ttlMs.toNat → otherId ≠ nodeId →
    (∀ call ∈ calls, ¬ call.EndsBefore relationKey nodeId (nowMs.toNat + ttlMs.toNat)) →
    (tryAcquireLease
      (performAll LeaseCall.perform (.tryAcquire relationKey nodeId ttlMs nowMs :: calls) table)
      relationKey otherId ttlMs' nowMs').2 = false
  release_other : ∀ relationKey nodeId : String,
    (∀ row, table[relationKey]? = some row → row.holderNodeId ≠ nodeId) →
    releaseLease table relationKey nodeId = table
  after_expiry : ∀ (relationKey otherId : String) (ttlMs nowMs : UInt64) (row : LeaseRow),
    table[relationKey]? = some row → row.expiresMs < asI64 nowMs →
    (tryAcquireLease table relationKey otherId ttlMs nowMs).2 = true
  after_release : ∀ (relationKey otherId : String) (ttlMs nowMs : UInt64) (row : LeaseRow),
    table[relationKey]? = some row →
    (tryAcquireLease (releaseLease table relationKey row.holderNodeId) relationKey otherId ttlMs
      nowMs).2 = true

theorem leasesSafe (table : KeyMap LeaseRow) : LeasesSafe table
  := by
  constructor
  · intro relationKey nodeId ttlMs nowMs hgranted hoverflow
    rw [get_tryAcquireLease, if_pos ⟨rfl, hgranted⟩, hoverflow]
  · intro relationKey nodeId otherId ttlMs nowMs ttlMs' nowMs' calls hgranted hoverflow hcalls hclock
      hnow hother hkept
    have htime := hoverflow.lt
    have hlease := hasLease_of_granted hoverflow hgranted
    have hreading : ∀ call ∈ calls, ∀ read ∈ call.reading,
        read.toNat ≤ nowMs.toNat + ttlMs.toNat := by
      intro call hcall read hread
      have hmem : read ∈ calls.filterMap LeaseCall.reading :=
        List.mem_filterMap.mpr ⟨call, hcall, hread⟩
      have hle := (List.pairwise_append.mp hclock).2.2 read (.tail _ hmem) nowMs' (by simp)
      have := UInt64.le_iff_toNat_le.mp hle
      omega
    exact (hlease.performAll htime hcalls hreading hkept).not_granted htime hnow hother
  · intro relationKey nodeId hholder
    exact releaseLease_other hholder
  · intro relationKey otherId ttlMs nowMs row hrow hended
    rw [tryAcquireLease_granted]
    intro row' hrow'
    rw [← Option.some.inj (hrow.symm.trans hrow')]
    exact .inl hended
  · intro relationKey otherId ttlMs nowMs row hrow
    rw [tryAcquireLease_granted]
    intro row' hrow'
    rw [releaseLease_holder hrow] at hrow'
    cases hrow'

end SqliteCatalogStore
