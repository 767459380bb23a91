import Std.Data.ExtTreeMap
import Std.Data.ExtTreeSet

/-!
# The catalogue

The data model of the control plane: databases, users and groups, relations with their
columns, constraints and indexes, aggregates, collations, conversions and functions, the nodes
of the cluster, and the catalogue state that holds them.  The maps of the catalogue are ordered
by key.
-/

/-- A map keyed by strings, iterated in key order. -/
abbrev KeyMap (β : Type) := Std.ExtTreeMap String β

namespace KeyMap

variable {β : Type} (m : KeyMap β)

theorem get_insert (k a : String) (v : β) :
  (m.insert k v)[a]? = if k = a then some v else m[a]?
  := by
  rw [Std.ExtTreeMap.getElem?_insert]
  simp only [Std.compare_eq_iff_eq]

theorem get_erase (k a : String) :
  (m.erase k)[a]? = if k = a then none else m[a]?
  := by
  rw [Std.ExtTreeMap.getElem?_erase]
  simp only [Std.compare_eq_iff_eq]

theorem get_modify (k a : String) (f : β → β) :
  (m.modify k f)[a]? = if k = a then m[a]?.map f else m[a]?
  := by
  rw [Std.ExtTreeMap.getElem?_modify]
  simp only [Std.compare_eq_iff_eq]
  split
  · rename_i h
    rw [h]
  · rfl

theorem get_eq_none {k : String} (h : m.contains k = false) :
  m[k]? = none
  := by
  rw [Std.ExtTreeMap.contains_eq_isSome_getElem?] at h
  cases hk : m[k]? with
  | none => rfl
  | some v =>
      rw [hk] at h
      cases h

end KeyMap

/-- A set of names, iterated in order. -/
abbrev NameSet := Std.ExtTreeSet String

/-- A database: its schemas, its owner and its parameters. -/
structure CatalogDatabase where
  name : String
  schemas : NameSet
  owner : String
  parameters : KeyMap String

/-- A user or a group.  A group is a user entry whose `members` are its members. -/
structure CatalogUser where
  name : String
  isAdmin : Bool
  password : Option String
  passwordVersion : Nat
  passwordRotatedAtEpochMs : Option Nat
  members : NameSet
  scramSaltB64 : Option String
  scramSaltedPasswordB64 : Option String

inductive CatalogRelationKind where
  | table
  | view
  deriving DecidableEq, Repr

inductive ExternalStorageFormat where
  | parquet
  deriving DecidableEq, Repr

structure CatalogColumn where
  name : String
  dataType : String
  nullable : Bool
  defaultValue : Option String
  deriving DecidableEq, Repr

inductive CatalogTableConstraintKind where
  | primaryKey
  | foreignKey
  | unique
  deriving DecidableEq, Repr

structure CatalogTableConstraint where
  name : String
  kind : CatalogTableConstraintKind
  columns : List String
  referencedDatabase : Option String
  referencedSchema : Option String
  referencedTable : Option String
  referencedColumns : List String
  deriving DecidableEq, Repr

structure CatalogIndex where
  name : String
  columns : List String
  isUnique : Bool
  isPrimary : Bool
  deriving DecidableEq, Repr

/-- A table or a view.  A table with an `externalFormat` points to storage the system does
not manage. -/
structure CatalogRelation where
  database : String
  schema : String
  name : String
  kind : CatalogRelationKind
  definitionSql : Option String
  storagePath : Option String
  externalFormat : Option ExternalStorageFormat
  columns : List CatalogColumn
  constraints : List CatalogTableConstraint
  indexes : List CatalogIndex
  deriving DecidableEq, Repr

structure CatalogAggregate where
  database : String
  schema : String
  name : String
  owner : String
  deriving DecidableEq, Repr

structure CatalogCollation where
  database : String
  schema : String
  name : String
  deriving DecidableEq, Repr

structure CatalogConversion where
  database : String
  schema : String
  name : String
  deriving DecidableEq, Repr

structure CatalogFunction where
  database : String
  schema : String
  name : String
  owner : String
  definitionSql : String
  deriving DecidableEq, Repr

inductive NodeRole where
  | control
  | compute
  | storage
  | gateway
  deriving DecidableEq, Repr

inductive NodeStatus where
  | ready
  | unavailable
  deriving DecidableEq, Repr

/-- A node of the cluster, with the endpoints it serves. -/
structure ClusterNode where
  id : String
  role : NodeRole
  endpoint : String
  internalEndpoint : Option String
  status : NodeStatus
  lastHeartbeatAtEpochMs : Nat
  deriving DecidableEq, Repr

inductive StoragePolicyType where
  | managed
  | external
  deriving DecidableEq, Repr

structure StoragePolicy where
  database : String
  schema : String
  tableName : String
  policyType : StoragePolicyType
  autoSelect : Bool
  reason : String
  deriving DecidableEq, Repr

/-- The part of the cluster configuration that the placement of managed tables, the signing of
tokens and the joining of nodes read. -/
structure ClusterConfig where
  basePostgresPort : UInt16
  baseFlightSqlPort : UInt16
  baseNodePort : UInt16
  catalogPath : String
  tlsCertPath : Option String
  tlsKeyPath : Option String
  nextAvailablePortOffset : UInt16
  storageRoot : Option String
  clusterId : Option String
  jwtSecret : Option String
  deriving DecidableEq, Repr

/-- The catalogue: databases, users, relations and the other objects, the nodes and the
configuration of the cluster, and the version that every persisted write bumps. -/
structure CatalogState where
  databases : KeyMap CatalogDatabase
  users : KeyMap CatalogUser
  nodes : KeyMap ClusterNode
  relations : KeyMap CatalogRelation
  aggregates : KeyMap CatalogAggregate
  collations : KeyMap CatalogCollation
  conversions : KeyMap CatalogConversion
  functions : KeyMap CatalogFunction
  config : Option ClusterConfig
  catalogueVersion : Nat
  storagePolicies : KeyMap StoragePolicy

inductive Protocol where
  | embedded
  | postgreSql
  | arrowFlightSql
  deriving DecidableEq, Repr

inductive TransactionStatus where
  | idle
  | inTransaction
  | aborted
  deriving DecidableEq, Repr

/-- The identity and the defaults under which a statement runs. -/
structure SessionContext where
  user : String := "postgres"
  role : String := "postgres"
  database : String := "postgres"
  schema : String := "public"
  authMethod : String := "embedded-prototype"
  protocol : Protocol := .embedded
  transactionStatus : TransactionStatus := .idle
  statementTimeoutMs : Nat := 0
  idleInTransactionTimeoutMs : Nat := 0
  deriving DecidableEq, Repr

/-- Name of the built-in group whose members are granted administrator rights. -/
def ADMINISTRATORS_GROUP : String := "Administrators"

/-- Name of the primary administrator account of a freshly initialised cluster. -/
def PRIMARY_ADMIN_USER : String := "analyticsdb_admin"

/-- Where the catalogue is when nothing else is configured. -/
def DEFAULT_CATALOG_PATH : String := "analyticsdb-catalog.db"

/-- Whether `userName` has effective administrator privileges: its own flag is set, or it
is a member of the administrators group. -/
def userIsAdmin (state : CatalogState) (userName : String) : Bool :=
  (state.users[userName]?.map (·.isAdmin)).getD false
    || (state.users[ADMINISTRATORS_GROUP]?.map (·.members.contains userName)).getD false

/-- The key under which a relation is stored. -/
def relationKey (database schema table : String) : String :=
  database ++ "." ++ schema ++ "." ++ table

/-- The characters `validateIdentifier` allows: ASCII letters, digits and the underscore. -/
def isIdentifierChar (c : Char) : Bool := c.isAlphanum || c == '_'
