import AnalyticsDB.Catalog.State
import AnalyticsDB.Lib.BigEndian
import Mathlib.Data.Prod.Lex

/-!
# The store of a replicated catalogue

A node of the consensus keeps its log, its copy of the catalogue, and the marks of how far both
have come in one RocksDB with three column families.  Values are kept here as what they are read
back as; the keys of the log are the big-endian bytes of the indexes.  The catalogue of a node is
what the entries of the log make of it, one after another.
-/

/-- The catalogue with nothing in it. -/
def CatalogState.default : CatalogState :=
  { databases := ∅
    users := ∅
    nodes := ∅
    relations := ∅
    aggregates := ∅
    collations := ∅
    conversions := ∅
    functions := ∅
    config := none
    catalogueVersion := 0
    storagePolicies := ∅ }

namespace Raft

/-! ### Log entries -/

/-- The leader under which an entry was proposed. -/
structure LeaderId where
  term : UInt64
  nodeId : UInt64
  deriving DecidableEq, Repr

/-- The place of an entry in the log, and the leader it was proposed under. -/
structure LogId where
  leaderId : LeaderId
  index : UInt64
  deriving DecidableEq, Repr

/-- Log ids are ordered by term, then by leader, then by index. -/
def LogId.rank (id : LogId) : ℕ ×ₗ ℕ ×ₗ ℕ :=
  toLex (id.leaderId.term.toNat, toLex (id.leaderId.nodeId.toNat, id.index.toNat))

theorem LogId.rank_injective : Function.Injective LogId.rank
  := by
  rintro ⟨⟨term, nodeId⟩, index⟩ ⟨⟨term', nodeId'⟩, index'⟩ h
  have h' := toLex.injective h
  simp only [Prod.mk.injEq, toLex_inj] at h'
  obtain ⟨hterm, hnode, hindex⟩ := h'
  rw [UInt64.toNat_inj.mp hterm, UInt64.toNat_inj.mp hnode, UInt64.toNat_inj.mp hindex]

instance : LinearOrder LogId := LinearOrder.lift' LogId.rank LogId.rank_injective

/-- The nodes that vote, one set for each of the configurations between which a change of the
membership is going on, and the addresses of the nodes. -/
structure Membership where
  configs : List (List UInt64)
  nodes : List (UInt64 × ClusterNode)
  deriving DecidableEq, Repr

structure StoredMembership where
  logId : Option LogId
  membership : Membership
  deriving DecidableEq, Repr

/-- The membership of a node that has seen none. -/
def StoredMembership.default : StoredMembership :=
  { logId := none, membership := { configs := [], nodes := [] } }

/-- A change of the catalogue that is replicated. -/
inductive LogEntry where
  | registerNode (node : ClusterNode)
  | updateNodeStatus (nodeId : String) (status : NodeStatus) (lastHeartbeatAtEpochMs : Nat)
  | createDatabase (name : String)
  | createSchema (database : Option String) (name : String)
  | registerRelation (relation : CatalogRelation)
  | dropRelation (database schema : Option String) (name : String) (kind : CatalogRelationKind)
  | addColumn (database schema : Option String) (tableName : String) (column : CatalogColumn)
  | renameRelation (database schema : Option String) (name newName : String)
  | updateRelationStoragePath (database schema : Option String) (name newStoragePath : String)
  | setUserPassword (name password : String) (version : Nat) (rotatedAt : Option Nat)
  deriving DecidableEq, Repr

inductive EntryPayload where
  | blank
  | normal (data : LogEntry)
  | membership (membership : Membership)
  deriving DecidableEq, Repr

/-- An entry of the log. -/
structure Entry where
  logId : LogId
  payload : EntryPayload
  deriving DecidableEq, Repr

/-- The index of an entry. -/
abbrev Entry.index (entry : Entry) : UInt64 := entry.logId.index

/-- The key of a relation from the names in a log entry, with the defaults of the log. -/
def logRelationKey (database schema : Option String) (name : String) : String :=
  relationKey (database.getD "postgres") (schema.getD "public") name

/-- What an entry makes of the catalogue. -/
def LogEntry.apply (state : CatalogState) : LogEntry → CatalogState
  | .createDatabase name =>
    { state with
      databases := state.databases.insert name
        { name := name, schemas := {"public"}, owner := "", parameters := ∅ } }
  | .createSchema database name =>
    { state with
      databases := state.databases.modify (database.getD "postgres") (fun db =>
        { db with schemas := db.schemas.insert name }) }
  | .registerRelation relation =>
    { state with
      relations := state.relations.insert
        (relationKey relation.database relation.schema relation.name) relation }
  | .dropRelation database schema name _ =>
    { state with relations := state.relations.erase (logRelationKey database schema name) }
  | .addColumn database schema tableName column =>
    { state with
      relations := state.relations.modify (logRelationKey database schema tableName) (fun rel =>
        { rel with columns := rel.columns ++ [column] }) }
  | .renameRelation database schema name newName =>
    match state.relations[logRelationKey database schema name]? with
    | some rel =>
      { state with
        relations := (state.relations.erase (logRelationKey database schema name)).insert
          (logRelationKey database schema newName) { rel with name := newName } }
    | none => state
  | .updateRelationStoragePath database schema name newStoragePath =>
    { state with
      relations := state.relations.modify (logRelationKey database schema name) (fun rel =>
        { rel with storagePath := some newStoragePath }) }
  | .setUserPassword name password version rotatedAt =>
    { state with
      users := state.users.modify name (fun user =>
        { user with
          password := some password
          passwordVersion := version
          passwordRotatedAtEpochMs := rotatedAt }) }
  | .registerNode node => { state with nodes := state.nodes.insert node.id node }
  | .updateNodeStatus nodeId status lastHeartbeatAtEpochMs =>
    { state with
      nodes := state.nodes.modify nodeId (fun node =>
        { node with status := status, lastHeartbeatAtEpochMs := lastHeartbeatAtEpochMs }) }

/-- What an entry makes of the catalogue; only the changes of the catalogue do something. -/
def Entry.applyTo (entry : Entry) (state : CatalogState) : CatalogState :=
  match entry.payload with
  | .normal data => data.apply state
  | .membership _ | .blank => state

/-! ### The store -/

/-- The column families `logs`, `sm` and `meta`.  What is stored as `last_applied` is the text of
a log id, or `null`. -/
structure CatalogStore where
  logs : Std.ExtTreeMap (List UInt8) Entry
  state : Option CatalogState
  lastPurgedLogId : Option LogId
  lastApplied : Option (Option LogId)
  lastMembership : Option StoredMembership

namespace CatalogStore

/-- A store that was just created. -/
def new : CatalogStore :=
  { logs := ∅, state := none, lastPurgedLogId := none, lastApplied := none, lastMembership := none }

/-! ### The log -/

/-- The key under which the entry of an index is stored. -/
def logKey (index : UInt64) : List UInt8 := BigEndian.toBytes 8 index.toNat

/-- The index of a key. -/
def logIndex (key : List UInt8) : Except String UInt64 :=
  if key.length = 8 then .ok (UInt64.ofNat (BigEndian.ofBytes key)) else .error "invalid log key"

inductive Bound where
  | included (index : UInt64)
  | excluded (index : UInt64)
  | unbounded
  deriving DecidableEq, Repr

/-- A range of indexes. -/
structure IndexRange where
  startBound : Bound
  endBound : Bound
  deriving DecidableEq, Repr

/-- The key a range is read from.  Where overflow is not checked, the index after the last one
is `0`. -/
def startKey (overflowChecks : Bool) : Bound → Except String (List UInt8)
  | .included index => .ok (logKey index)
  | .excluded index =>
    if overflowChecks && index = UInt64.ofNat (2 ^ 64 - 1) then
      .error "attempt to add with overflow"
    else
      .ok (logKey (index + 1))
  | .unbounded => .ok (logKey 0)

/-- Whether an index is behind the end of a range. -/
def Bound.isBehind : Bound → UInt64 → Bool
  | .included last, index => last < index
  | .excluded last, index => last ≤ index
  | .unbounded, _ => false

/-- The rows of the log from a key on, in the order of the keys. -/
def rowsFrom (store : CatalogStore) (start : List UInt8) : List (List UInt8 × Entry) :=
  store.logs.toList.filter (fun row => (compare start row.1).isLE)

/-- Read the rows up to the end of a range. -/
def readRows (endBound : Bound) : List (List UInt8 × Entry) → Except String (List Entry)
  | [] => .ok []
  | (key, entry) :: rows =>
    match logIndex key with
    | .error e => .error e
    | .ok index =>
      if endBound.isBehind index then
        .ok []
      else
        match readRows endBound rows with
        | .error e => .error e
        | .ok entries => .ok (entry :: entries)

def tryGetLogEntries (overflowChecks : Bool) (store : CatalogStore) (range : IndexRange) :
    Except String (List Entry) :=
  match startKey overflowChecks range.startBound with
  | .error e => .error e
  | .ok start => readRows range.endBound (store.rowsFrom start)

/-- How far the log reaches. -/
structure LogState where
  lastPurgedLogId : Option LogId
  lastLogId : Option LogId
  deriving DecidableEq, Repr

def getLogState (store : CatalogStore) : LogState :=
  { lastPurgedLogId := store.lastPurgedLogId
    lastLogId := store.logs.toList.getLast?.map (fun row => row.2.logId) }

def appendToLog (store : CatalogStore) (entries : List Entry) : CatalogStore :=
  entries.foldl (fun store entry =>
    { store with logs := store.logs.insert (logKey entry.index) entry }) store

def deleteConflictLogsSince (store : CatalogStore) (logId : LogId) : CatalogStore :=
  (store.rowsFrom (logKey logId.index)).foldl (fun store row =>
    { store with logs := store.logs.erase row.1 }) store

/-- Delete the rows up to an index. -/
def deleteRowsUpto (upto : UInt64) :
    List (List UInt8 × Entry) → CatalogStore → Except String Unit × CatalogStore
  | [], store => (.ok (), store)
  | (key, _) :: rows, store =>
    match logIndex key with
    | .error e => (.error e, store)
    | .ok index =>
      if upto < index then
        (.ok (), store)
      else
        deleteRowsUpto upto rows { store with logs := store.logs.erase key }

def purgeLogsUpto (store : CatalogStore) (logId : LogId) : Except String Unit × CatalogStore :=
  match deleteRowsUpto logId.index store.logs.toList store with
  | (.error e, store) => (.error e, store)
  | (.ok (), store) => (.ok (), { store with lastPurgedLogId := some logId })

/-! ### The state machine -/

/-- One write to the database. -/
inductive Put where
  | state (state : CatalogState)
  | lastApplied (logId : Option LogId)
  | lastMembership (membership : StoredMembership)

def put (store : CatalogStore) : Put → CatalogStore
  | .state state => { store with state := some state }
  | .lastApplied logId => { store with lastApplied := some logId }
  | .lastMembership membership => { store with lastMembership := some membership }

/-- The catalogue as it is stored. -/
def catalogState (store : CatalogStore) : CatalogState := store.state.getD CatalogState.default

/-- The membership as it is stored. -/
def membership (store : CatalogStore) : StoredMembership :=
  store.lastMembership.getD StoredMembership.default

def lastAppliedState (store : CatalogStore) : Except String (Option LogId × StoredMembership) :=
  match store.lastApplied with
  | none => .ok (none, store.membership)
  | some (some logId) => .ok (some logId, store.membership)
  | some none => .error "invalid type: null, expected struct LogId"

/-- The writes for one entry, in their order. -/
def entryPuts (store : CatalogStore) (entry : Entry) : List Put :=
  let catalogState := entry.applyTo store.catalogState
  (match entry.payload with
    | .membership mem => [.lastMembership { logId := some entry.logId, membership := mem }]
    | .normal _ | .blank => [])
    ++ [.state catalogState, .lastApplied (some entry.logId)]

def applyEntry (store : CatalogStore) (entry : Entry) : CatalogStore :=
  (store.entryPuts entry).foldl put store

/-- Apply entries one after another, and answer each. -/
def applyToStateMachine (store : CatalogStore) (entries : List Entry) :
    CatalogStore × List String :=
  (entries.foldl applyEntry store, entries.map (fun _ => "Applied"))

structure SnapshotMeta where
  lastLogId : Option LogId
  lastMembership : StoredMembership
  snapshotId : String
  deriving DecidableEq, Repr

/-- A snapshot, with the catalogue its text is read back as. -/
structure Snapshot where
  metadata : SnapshotMeta
  catalogState : CatalogState

/-- The writes of an installation, in their order. -/
def installPuts (snapshot : Snapshot) : List Put :=
  [.state snapshot.catalogState,
   .lastApplied snapshot.metadata.lastLogId,
   .lastMembership snapshot.metadata.lastMembership]

def installSnapshot (store : CatalogStore) (snapshot : Snapshot) : CatalogStore :=
  (installPuts snapshot).foldl put store

/-- The index of the last entry of a snapshot and a fresh id. -/
def snapshotId (lastApplied : Option LogId) (uuid : String) : String :=
  toString ((lastApplied.map LogId.index).getD 0).toNat ++ "-" ++ uuid

def getCurrentSnapshot (uuid : String) (store : CatalogStore) : Except String (Option Snapshot) :=
  match store.lastAppliedState with
  | .error e => .error e
  | .ok (none, _) => .ok none
  | .ok (some logId, lastMembership) =>
    match store.state with
    | none => .ok none
    | some state =>
      .ok (some
        { metadata :=
            { lastLogId := some logId
              lastMembership := lastMembership
              snapshotId := snapshotId (some logId) uuid }
          catalogState := state })

def buildSnapshot (uuid : String) (store : CatalogStore) : Except String Snapshot :=
  match store.lastAppliedState with
  | .error e => .error e
  | .ok (lastApplied, lastMembership) =>
    .ok
      { metadata :=
          { lastLogId := lastApplied
            lastMembership := lastMembership
            snapshotId := snapshotId lastApplied uuid }
        catalogState := store.catalogState }

end CatalogStore

end Raft
