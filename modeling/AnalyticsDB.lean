import AnalyticsDB.Lib.Effect
import AnalyticsDB.Lib.Run
import AnalyticsDB.Lib.Dotted
import AnalyticsDB.Lib.Tasks
import AnalyticsDB.Lib.Deep
import AnalyticsDB.Lib.Text
import AnalyticsDB.Lib.Grouping
import AnalyticsDB.Lib.SqlValue
import AnalyticsDB.Lib.SqlSelect
import AnalyticsDB.Lib.TopN
import AnalyticsDB.Lib.SqlOrder
import AnalyticsDB.Lib.RoundRobin
import AnalyticsDB.Lib.Scanner
import AnalyticsDB.Lib.PostgresLexer
import AnalyticsDB.Lib.Template
import AnalyticsDB.Catalog.State
import AnalyticsDB.Storage.Object
import AnalyticsDB.Control.Basic
import AnalyticsDB.Control.Accounts
import AnalyticsDB.Storage.Location
import AnalyticsDB.Storage.Manifest
import AnalyticsDB.Storage.Concurrent
import AnalyticsDB.Storage.Appends
import AnalyticsDB.Storage.Interference
import AnalyticsDB.Storage.Success
import AnalyticsDB.Control.Databases
import AnalyticsDB.Control.Relations
import AnalyticsDB.Control.Objects
import AnalyticsDB.Control.Cluster
import AnalyticsDB.Control.Grants
import AnalyticsDB.Control.CatalogFile
import AnalyticsDB.Control.Effects
import AnalyticsDB.Control.Statements
import AnalyticsDB.Control.Versions
import AnalyticsDB.Control.Credentials
import AnalyticsDB.Control.Publishing
import AnalyticsDB.Control.Edits
import AnalyticsDB.Control.Namespace
import AnalyticsDB.Control.Protection
import AnalyticsDB.Engine.Select
import AnalyticsDB.Engine.Snapshot
import AnalyticsDB.Engine.Provider
import AnalyticsDB.Engine.Dml
import AnalyticsDB.Engine.Create
import AnalyticsDB.Storage.Move
import AnalyticsDB.Storage.Placement
import AnalyticsDB.Engine.Rename
import AnalyticsDB.Engine.Coherence
import AnalyticsDB.Engine.RenameRuns
import AnalyticsDB.Engine.Mutations
import AnalyticsDB.Engine.Privileges
import AnalyticsDB.Engine.GrantStatements
import AnalyticsDB.Engine.FileListCache
import AnalyticsDB.Engine.CacheFreshness
import AnalyticsDB.Engine.Authorization
import AnalyticsDB.Engine.RelationLock
import AnalyticsDB.Protocol.FlightSql
import AnalyticsDB.Protocol.Parameters
import AnalyticsDB.Engine.DispatchPlan
import AnalyticsDB.Engine.DispatchAggregate
import AnalyticsDB.Engine.DispatchOrder
import AnalyticsDB.Engine.DispatchTwice
import AnalyticsDB.Engine.DispatchStream
import AnalyticsDB.Engine.DistributedInsert
import AnalyticsDB.Engine.ContextCache
import AnalyticsDB.Control.Ports
import AnalyticsDB.Control.Routing
import AnalyticsDB.Engine.ColumnTypes
import AnalyticsDB.Engine.TextColumns
import AnalyticsDB.Engine.InsertValues
import AnalyticsDB.Engine.ColumnDdl
import AnalyticsDB.Engine.NotNull
import AnalyticsDB.Engine.NotNullRuns
import AnalyticsDB.Engine.IndexSnapshots
import AnalyticsDB.Engine.InsertSelect
import AnalyticsDB.Lib.Elementwise
import AnalyticsDB.Engine.MetadataSelect
import AnalyticsDB.Control.AccountGuards
import AnalyticsDB.Control.Durability
import AnalyticsDB.Control.VolatileSettings
import AnalyticsDB.Control.TableEdits
import AnalyticsDB.Control.Relocations
import AnalyticsDB.Control.ColumnReferences
import AnalyticsDB.Control.BackingIndexes
import AnalyticsDB.Control.IndexNames
import AnalyticsDB.Control.SchemaObjects
import AnalyticsDB.Engine.ActiveQueries
import AnalyticsDB.Engine.SystemCatalog
import AnalyticsDB.Engine.ViewExpansion
import AnalyticsDB.Engine.ViewRuns
import AnalyticsDB.Control.RaftStore
import AnalyticsDB.Control.RaftReplay
import AnalyticsDB.Control.RaftCrash
import AnalyticsDB.Control.RaftCatalog
import AnalyticsDB.Control.RaftLog
import AnalyticsDB.Control.FreshCluster
import AnalyticsDB.Protocol.SessionStatements
import AnalyticsDB.Client.Failover
import AnalyticsDB.Gateway.Proxy
import AnalyticsDB.Gateway.Sessions
import AnalyticsDB.Control.AccountChanges
import AnalyticsDB.Control.AccountTexts
import AnalyticsDB.Gateway.Admin
import AnalyticsDB.Engine.SliceRange
import AnalyticsDB.Engine.GenerateSeries
import AnalyticsDB.Engine.PartitionFiles
import AnalyticsDB.Engine.IndexLiterals
import AnalyticsDB.Engine.IndexPredicates
import AnalyticsDB.Lib.Best
import AnalyticsDB.Engine.IndexMatch
import AnalyticsDB.Engine.Compaction
import AnalyticsDB.Engine.IndexDdl
import AnalyticsDB.Storage.Overlap
import AnalyticsDB.Engine.MetadataRows
import AnalyticsDB.Engine.InsertSelectText
import AnalyticsDB.Engine.Wildcards
import AnalyticsDB.Control.DroppedConstraints
import AnalyticsDB.Lib.Csv
import AnalyticsDB.Client.CsvOutput
import AnalyticsDB.Control.SqlFragments
import AnalyticsDB.Engine.IntervalFunctions
import AnalyticsDB.Client.Interactive
import AnalyticsDB.Engine.ProjectionNames
import AnalyticsDB.Protocol.SettingTexts
import AnalyticsDB.Protocol.SearchPath
import AnalyticsDB.Protocol.Timeouts
