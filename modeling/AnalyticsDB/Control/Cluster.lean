import AnalyticsDB.Control.Basic
import Mathlib.Data.List.Perm.Subperm
import Std.Data.String.ToNat

/-!
# Nodes, storage policies and configuration

The operations of the control plane on the nodes of the cluster, on the storage policies of
tables and on the configuration.  Whether a node is alive is not part of the catalogue.
-/

/-- What a node that joins the cluster is told. -/
structure JoinResponse where
  nodeId : String
  postgresPort : UInt16
  flightSqlPort : UInt16
  nodePort : UInt16
  config : ClusterConfig
  deriving DecidableEq, Repr

/-- The first name of the form `node-i` that no node has, from `idx` on.  Among one more names
than there are nodes one is free. -/
def freeNodeId (nodes : KeyMap ClusterNode) : Nat → Nat → String
  | 0, idx => "node-" ++ idx.repr
  | tries + 1, idx =>
    if nodes.contains ("node-" ++ idx.repr) then
      freeNodeId nodes tries (idx + 1)
    else
      "node-" ++ idx.repr

/-- The identifier of a node that joins. -/
def joiningNodeId (nodes : KeyMap ClusterNode) : Option String → String
  | some id => id
  | none => freeNodeId nodes nodes.size (nodes.size + 1)

section

variable (o : Outside)

def setStoragePolicy (policy : StoragePolicy) : Op Unit := do
  writeState (fun state => { state with
    storagePolicies := state.storagePolicies.insert
      (relationKey policy.database policy.schema policy.tableName) policy })
  persist o

def registerNode (node : ClusterNode) : Op Unit := do
  writeState (fun state => { state with nodes := state.nodes.insert node.id node })
  persist o

/-- Remove the compute nodes of a previous run. -/
def clearComputeNodes : Op Unit := do
  writeState (fun state => { state with
    nodes := state.nodes.filter (fun _ node => node.role ≠ .compute) })
  persist o

/-- Enter a compute node with the next ports.  The ports are `u16` and wrap around. -/
def joinCluster (requestedNodeId advertiseHost : Option String) : Op JoinResponse := do
  let host := advertiseHost.getD "127.0.0.1"
  let n ← outsideCall
  let state ← readState
  match state.config with
  | none => bail "Cluster config not initialized"
  | some config =>
    let nodeId := joiningNodeId state.nodes requestedNodeId
    let offset := config.nextAvailablePortOffset + 1
    let postgresPort := config.basePostgresPort + offset
    let flightSqlPort := config.baseFlightSqlPort + offset
    let nodePort := config.baseNodePort + offset
    let newConfig := { config with nextAvailablePortOffset := offset }
    let scheme := if config.tlsCertPath.isSome && config.tlsKeyPath.isSome then "https" else "http"
    let node : ClusterNode :=
      { id := nodeId
        role := .compute
        endpoint := s!"{scheme}://{host}:{flightSqlPort}"
        internalEndpoint := some s!"http://{host}:{nodePort}"
        status := .ready
        lastHeartbeatAtEpochMs := o.now n }
    writeState (fun state => { state with
      config := some newConfig
      nodes := state.nodes.insert nodeId node })
    persist o
    let responseConfig := match o.catalogPath with
      | some path => { newConfig with catalogPath := path }
      | none => newConfig
    return { nodeId := nodeId, postgresPort := postgresPort, flightSqlPort := flightSqlPort
             nodePort := nodePort, config := responseConfig }

/-- Change the configuration in memory only. -/
def setConfig (f : ClusterConfig → ClusterConfig) : Op Unit :=
  writeState (fun state => { state with config := state.config.map f })

def setTlsPaths (certPath keyPath : Option String) : Op Unit :=
  setConfig (fun config => { config with tlsCertPath := certPath, tlsKeyPath := keyPath })

def setJwtSecret (jwtSecret : Option String) : Op Unit :=
  setConfig (fun config => { config with jwtSecret := jwtSecret })

def setStorageRoot (storageRoot : Option String) : Op Unit :=
  setConfig (fun config => { config with storageRoot := storageRoot })

def updateClusterConfig (config : ClusterConfig) : Op Unit := do
  writeState (fun state => { state with config := some config })
  persist o

end

/-! ### A node that joins gets a free name -/

/-- When every name that is tried is taken, there are more nodes than tries. -/
theorem contains_freeNodeId {nodes : KeyMap ClusterNode} {tries idx : Nat}
    (h : nodes.contains (freeNodeId nodes tries idx) = true) :
  ∀ i ≤ tries, nodes.contains ("node-" ++ (idx + i).repr) = true
  := by
  induction tries generalizing idx with
  | zero =>
      intro i hi
      obtain rfl : i = 0 := by omega
      exact h
  | succ tries ih =>
      rw [freeNodeId] at h
      split at h
      · rename_i hidx
        intro i hi
        cases i with
        | zero => exact hidx
        | succ i =>
            have hrest := ih h i (by omega)
            rwa [Nat.add_right_comm] at hrest
      · rename_i hidx
        exact absurd h hidx

theorem nodeName_injective {i j : Nat} (h : "node-" ++ i.repr = "node-" ++ j.repr) :
  i = j
  := by
  apply Nat.repr_injective
  have hlist := congrArg String.toList h
  rw [String.toList_append, String.toList_append] at hlist
  exact String.toList_inj.mp (List.append_cancel_left hlist)

/-- The name a node gets when it asks for none is free. -/
theorem joiningNodeId_free (nodes : KeyMap ClusterNode) :
  nodes.contains (joiningNodeId nodes none) = false
  := by
  apply Bool.eq_false_iff.mpr
  intro h
  have htaken := contains_freeNodeId h
  have hsubset : (List.range (nodes.size + 1)).map (fun i => "node-" ++ (nodes.size + 1 + i).repr)
      ⊆ nodes.keys := by
    intro name hname
    obtain ⟨i, hi, rfl⟩ := List.mem_map.mp hname
    rw [List.mem_range] at hi
    apply Std.ExtTreeMap.mem_keys.mpr
    apply htaken i (by omega)
  have hnodup : ((List.range (nodes.size + 1)).map
      (fun i => "node-" ++ (nodes.size + 1 + i).repr)).Nodup := by
    apply List.Nodup.map_on _ List.nodup_range
    intro i _ j _ hij
    have := nodeName_injective hij
    omega
  have hlength := (hnodup.subperm hsubset).length_le
  rw [List.length_map, List.length_range, Std.ExtTreeMap.length_keys] at hlength
  omega
