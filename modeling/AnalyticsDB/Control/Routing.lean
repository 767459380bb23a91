import AnalyticsDB.Control.Accounts
import AnalyticsDB.Control.Cluster
import AnalyticsDB.Lib.RoundRobin
import AnalyticsDB.Lib.Run

/-!
# Liveness of the nodes and the routing of queries

The status of a node exists twice: in the catalogue, as it was when the node was entered, and in
a map in memory that heartbeats and failures update.  `list_nodes` reports the second, and
`admit_query` routes by the first, in turns counted by a `usize`.
-/

open Eff

/-- What is known of a node since the control plane was started. -/
structure NodeLiveness where
  status : NodeStatus := .ready
  lastHeartbeatAtEpochMs : Nat := 0
  deriving DecidableEq, Repr

/-- A control plane: the state of the system, the liveness of the nodes, and the counter of the
turns. -/
structure ControlPlane where
  world : World
  liveness : KeyMap NodeLiveness
  nextRoundRobinIndex : Nat

/-- An operation of a control plane. -/
abbrev ControlPlaneOp (α : Type) := Eff ControlPlane Failure α

/-- The identifier every control plane has. -/
def COORDINATOR_NODE_ID : String := "control-1"

/-- The number of values of a `usize`. -/
def usizeValues : Nat := 2 ^ 64

/-- Where a query is routed to. -/
structure QueryAdmission where
  queryId : String
  coordinatorNodeId : String
  deriving DecidableEq, Repr

/-- An operation on the catalogue only. -/
def onCatalog {α : Type} (m : Op α) : ControlPlaneOp α :=
  Eff.zoom (·.world) (fun w s => { s with world := w }) m

def setLiveness (f : KeyMap NodeLiveness → KeyMap NodeLiveness) : ControlPlaneOp Unit :=
  modify (fun s => { s with liveness := f s.liveness })

/-- Return an outcome or fail with it. -/
def orFail {α : Type} : Except Failure α → ControlPlaneOp α
  | .ok a => pure a
  | .error e => throw e

/-- Overlay the liveness of a node onto its entry in the catalogue. -/
def applyLiveness (node : ClusterNode) (liveness : KeyMap NodeLiveness) : ClusterNode :=
  match liveness[node.id]? with
  | some live =>
    { node with status := live.status, lastHeartbeatAtEpochMs := live.lastHeartbeatAtEpochMs }
  | none => { node with status := .unavailable, lastHeartbeatAtEpochMs := 0 }

namespace ControlPlane

/-- The nodes of the catalogue, in the order of their identifiers. -/
def nodes (s : ControlPlane) : List ClusterNode := s.world.catalog.nodes.toList.map (·.2)

def listNodes (s : ControlPlane) : List ClusterNode := s.nodes.map (applyLiveness · s.liveness)

/-- The nodes that are reported as ready. -/
def reportedReady (s : ControlPlane) : List String :=
  (s.listNodes.filter (·.status = .ready)).map (·.id)

/-- The nodes that the catalogue has as ready. -/
def recordedReady (s : ControlPlane) : List ClusterNode :=
  s.nodes.filter (·.status = .ready)

section

variable (o : Outside)

/-- Enter a node, and count it as alive. -/
def enterNode (node : ClusterNode) : ControlPlaneOp Unit := do
  let now ← onCatalog outsideCall
  -- the liveness is set before the catalogue is saved, so also when that fails
  let entered ← Eff.attempt (onCatalog (registerNode o node))
  setLiveness (·.insert node.id { status := .ready, lastHeartbeatAtEpochMs := o.now now })
  orFail entered

def heartbeat (nodeId : String) : ControlPlaneOp Unit := do
  if !(← get).world.catalog.nodes.contains nodeId then
    onCatalog (bail s!"Node '{nodeId}' not found")
  let now ← onCatalog outsideCall
  setLiveness (·.insert nodeId { status := .ready, lastHeartbeatAtEpochMs := o.now now })

def markNodeUnavailable (nodeId : String) : ControlPlaneOp Unit :=
  setLiveness (fun liveness =>
    liveness.insert nodeId { liveness[nodeId]?.getD {} with status := .unavailable })

/-- Whether a node that counts as alive has not been heard of for too long. -/
def isOverdue (now thresholdMs : Nat) (live : NodeLiveness) : Bool :=
  live.status = .ready && decide (thresholdMs < now - live.lastHeartbeatAtEpochMs)

def pruneUnhealthyNodes (thresholdMs : Nat) : ControlPlaneOp Unit := do
  let now ← onCatalog outsideCall
  setLiveness (·.map (fun _ live =>
    if isOverdue (o.now now) thresholdMs live then { live with status := .unavailable } else live))

/-- Remove the compute nodes, and what is known of them. -/
def removeComputeNodes : ControlPlaneOp Unit := do
  let nodes := (← get).world.catalog.nodes
  let removed ← Eff.attempt (onCatalog (clearComputeNodes o))
  setLiveness (·.filter (fun id _ => match nodes[id]? with
    | some node => node.role ≠ .compute
    | none => true))
  orFail removed

/-- Enter a node that joins, and count it as alive. -/
def joinNode (requestedNodeId advertiseHost : Option String) : ControlPlaneOp JoinResponse := do
  let state := (← get).world.catalog
  match state.config with
  | none => onCatalog (bail "Cluster config not initialized")
  | some _ =>
    let joined ← Eff.attempt (onCatalog (joinCluster o requestedNodeId advertiseHost))
    let now ← onCatalog outsideCall
    setLiveness (·.insert (joiningNodeId state.nodes requestedNodeId)
      { status := .ready, lastHeartbeatAtEpochMs := o.now now })
    orFail joined

/-- The next of the nodes that the catalogue has as ready, and the coordinator when it has
none. -/
def nextReadyNode : ControlPlaneOp String := do
  let s ← get
  if hempty : s.recordedReady = [] then
    return COORDINATOR_NODE_ID
  else
    set { s with nextRoundRobinIndex := (s.nextRoundRobinIndex + 1) % usizeValues }
    return (s.recordedReady.get ⟨s.nextRoundRobinIndex % s.recordedReady.length,
      Nat.mod_lt _ (List.length_pos_of_ne_nil hempty)⟩).id

/-- Admit a query of a valid session, and route it. -/
def admitQuery (session : SessionContext) : ControlPlaneOp QueryAdmission := do
  let state := (← get).world.catalog
  onCatalog (orBail (validateSession state session))
  let coordinatorNodeId ← nextReadyNode
  let n ← onCatalog outsideCall
  return { queryId := "q-" ++ o.uuid n, coordinatorNodeId := coordinatorNodeId }

/-- Admit queries one after another. -/
def admitQueries : List SessionContext → ControlPlaneOp (List QueryAdmission)
  | [] => pure []
  | session :: sessions => do
    let admission ← admitQuery o session
    let admissions ← admitQueries sessions
    return admission :: admissions

/-- The calls that change the nodes. -/
inductive NodeCall where
  | registerNode (node : ClusterNode)
  | joinCluster (requestedNodeId advertiseHost : Option String)
  | heartbeat (nodeId : String)
  | markNodeUnavailable (nodeId : String)
  | pruneUnhealthyNodes (thresholdMs : Nat)
  | clearComputeNodes
  | admitQuery (session : SessionContext)

/-- The control plane after a call, whether it succeeds or not. -/
def afterCall (call : NodeCall) (s : ControlPlane) : ControlPlane :=
  match call with
  | .registerNode node => (exec (enterNode o node) s).2
  | .joinCluster requestedNodeId advertiseHost =>
    (exec (joinNode o requestedNodeId advertiseHost) s).2
  | .heartbeat nodeId => (exec (heartbeat o nodeId) s).2
  | .markNodeUnavailable nodeId => (exec (markNodeUnavailable nodeId) s).2
  | .pruneUnhealthyNodes thresholdMs => (exec (pruneUnhealthyNodes o thresholdMs) s).2
  | .clearComputeNodes => (exec (removeComputeNodes o) s).2
  | .admitQuery session => (exec (admitQuery o session) s).2

end

end ControlPlane

/-! ### Admissions -/

section

variable {o : Outside}

@[simp]
theorem after_onCatalog {α : Type} {m : Op α} {s : ControlPlane}
    {Q : Except Failure α → ControlPlane → Prop} :
  After (onCatalog m) s Q ↔ After m s.world (fun r w => Q r { s with world := w })
  := by
  unfold After onCatalog
  rw [exec_zoom]

@[simp]
theorem succeeds_onCatalog {α : Type} {m : Op α} {s : ControlPlane} {Q : α → ControlPlane → Prop} :
  Succeeds (onCatalog m) s Q ↔ Succeeds m s.world (fun a w => Q a { s with world := w })
  := after_onCatalog

namespace ControlPlane

/-- The identifiers of the nodes that the catalogue has as ready. -/
def recordedIds (s : ControlPlane) : List String := s.recordedReady.map (·.id)

/-- The turns of the nodes that the catalogue has as ready. -/
def routed (s : ControlPlane) (v n : Nat) : List String :=
  RoundRobin.turns s.recordedIds COORDINATOR_NODE_ID usizeValues v n

/-- Two control planes with the same nodes, as they are recorded and as they are reported. -/
structure SameNodes (s s' : ControlPlane) : Prop where
  catalog : s'.world.catalog = s.world.catalog
  liveness : s'.liveness = s.liveness

theorem SameNodes.routed {s s' : ControlPlane} (h : SameNodes s s') : s'.routed = s.routed
  := by
  unfold ControlPlane.routed recordedIds recordedReady nodes
  rw [h.catalog]

theorem routed_one (s : ControlPlane) (v : Nat) :
  s.routed v 1 = [s.recordedIds.getD (v % usizeValues % s.recordedIds.length) COORDINATOR_NODE_ID]
  := by
  simp [routed, RoundRobin.turns, RoundRobin.turn]

/-- The node whose turn it is, and the turn passes on. -/
theorem nextReadyNode_succeeds {s : ControlPlane} (hcounter : s.nextRoundRobinIndex < usizeValues) :
  Succeeds nextReadyNode s (fun id s' =>
    s.routed s.nextRoundRobinIndex 1 = [id] ∧ SameNodes s s'
      ∧ s'.nextRoundRobinIndex < usizeValues
      ∧ ∀ v n, s.routed (s'.nextRoundRobinIndex + v) n = s.routed (s.nextRoundRobinIndex + 1 + v) n)
  := by
  rw [nextReadyNode, succeeds_bind, succeeds_get]
  by_cases hempty : s.recordedReady = []
  · rw [dif_pos hempty, succeeds_pure]
    refine ⟨?_, ⟨rfl, rfl⟩, hcounter, ?_⟩
    · rw [routed_one]
      simp [recordedIds, hempty]
    · intro v n
      unfold routed recordedIds
      rw [hempty, List.map_nil, RoundRobin.turns_nil, RoundRobin.turns_nil]
  · rw [dif_neg hempty]
    have hlength : s.recordedIds.length = s.recordedReady.length := List.length_map ..
    have hindex : s.nextRoundRobinIndex % s.recordedReady.length < s.recordedReady.length :=
      Nat.mod_lt _ (List.length_pos_of_ne_nil hempty)
    refine ⟨_, rfl, ?_, ⟨rfl, rfl⟩, Nat.mod_lt _ (by decide), ?_⟩
    · rw [routed_one, Nat.mod_eq_of_lt hcounter, hlength, List.getD_eq_getElem _ _ (by omega)]
      simp [recordedIds]
    · intro v n
      apply RoundRobin.turns_mod_add

/-- A query of a valid session is routed to the node whose turn it is. -/
theorem admitQuery_succeeds {session : SessionContext} {s : ControlPlane}
    (hvalid : validateSession s.world.catalog session = .ok ())
    (hcounter : s.nextRoundRobinIndex < usizeValues) :
  Succeeds (admitQuery o session) s (fun admission s' =>
    s.routed s.nextRoundRobinIndex 1 = [admission.coordinatorNodeId] ∧ SameNodes s s'
      ∧ s'.nextRoundRobinIndex < usizeValues
      ∧ ∀ v n, s.routed (s'.nextRoundRobinIndex + v) n = s.routed (s.nextRoundRobinIndex + 1 + v) n)
  := by
  rw [admitQuery, succeeds_bind, succeeds_get, succeeds_bind, succeeds_onCatalog, hvalid, orBail,
    succeeds_pure, succeeds_bind]
  refine Succeeds.mono (nextReadyNode_succeeds hcounter) ?_
  rintro id s₁ ⟨hid, hsame, hcounter₁, hnext⟩
  rw [succeeds_bind, succeeds_onCatalog, succeeds_outsideCall, succeeds_pure]
  exact ⟨hid, ⟨hsame.catalog, hsame.liveness⟩, hcounter₁, hnext⟩

/-- Queries of valid sessions are routed to the nodes whose turns it is. -/
theorem admitQueries_succeeds {sessions : List SessionContext} {s : ControlPlane}
    (hvalid : ∀ session ∈ sessions, validateSession s.world.catalog session = .ok ())
    (hcounter : s.nextRoundRobinIndex < usizeValues) :
  Succeeds (admitQueries o sessions) s (fun admissions s' =>
    admissions.map (·.coordinatorNodeId) = s.routed s.nextRoundRobinIndex sessions.length
      ∧ SameNodes s s' ∧ s'.nextRoundRobinIndex < usizeValues
      ∧ ∀ v n, s.routed (s'.nextRoundRobinIndex + v) n
        = s.routed (s.nextRoundRobinIndex + sessions.length + v) n)
  := by
  induction sessions generalizing s with
  | nil =>
      rw [admitQueries, succeeds_pure]
      exact ⟨rfl, ⟨rfl, rfl⟩, hcounter, fun _ _ => rfl⟩
  | cons session sessions ih =>
      rw [admitQueries, succeeds_bind]
      refine Succeeds.mono (admitQuery_succeeds (hvalid _ List.mem_cons_self) hcounter) ?_
      rintro admission s₁ ⟨hfirst, hsame, hcounter₁, hnext⟩
      rw [succeeds_bind]
      have hvalid₁ : ∀ session ∈ sessions,
          validateSession s₁.world.catalog session = .ok () := by
        rw [hsame.catalog]
        intro session hsession
        exact hvalid session (List.mem_cons_of_mem _ hsession)
      refine Succeeds.mono (ih hvalid₁ hcounter₁) ?_
      rintro admissions s₂ ⟨hrest, hsame₂, hcounter₂, hnext₂⟩
      rw [hsame.routed] at hrest hnext₂
      rw [succeeds_pure]
      refine ⟨?_, ⟨hsame₂.catalog.trans hsame.catalog, hsame₂.liveness.trans hsame.liveness⟩,
        hcounter₂, ?_⟩
      · have hrest' := hnext 0 sessions.length
        rw [Nat.add_zero, Nat.add_zero] at hrest'
        rw [List.map_cons, hrest, hrest', List.length_cons, Nat.add_comm sessions.length]
        unfold routed at hfirst ⊢
        rw [RoundRobin.turns_add, hfirst]
        rfl
      · intro v n
        rw [hnext₂, Nat.add_assoc, hnext, List.length_cons]
        congr 1
        omega

/-! ### Routing to live nodes -/

/-- While nothing but admissions happens, any as many admissions as nodes are reported as ready
visit each of these nodes exactly once.  `sessions` are those of the queries admitted from now
on. -/
def RoutesLive (o : Outside) (sessions : Nat → SessionContext) (s : ControlPlane) : Prop :=
  s.reportedReady ≠ [] → ∀ k,
    Succeeds (admitQueries o ((List.range k).map sessions)) s (fun _ s' =>
      Succeeds (admitQueries o
          ((List.range s.reportedReady.length).map (fun j => sessions (k + j)))) s'
        (fun admissions _ => (admissions.map (·.coordinatorNodeId)).Perm s.reportedReady))

/-- The nodes that the catalogue has as ready are those that are reported as ready, and their
number divides that of the values of the counter (which reaches no more nodes than it has values);
or the catalogue has none, and the coordinator alone is reported. -/
def RecordsReported (s : ControlPlane) : Prop :=
  s.recordedIds = [] ∧ s.reportedReady = [COORDINATOR_NODE_ID]
    ∨ s.recordedIds ≠ [] ∧ (s.recordedIds.take usizeValues).Perm s.reportedReady
      ∧ s.reportedReady.length ∣ usizeValues

/-- Every node is entered under its identifier. -/
def ById (nodes : KeyMap ClusterNode) : Prop :=
  ∀ key (node : ClusterNode), nodes[key]? = some node → node.id = key

/-- Every node is entered under its identifier, and the counter is a `usize`. -/
structure Sound (s : ControlPlane) : Prop where
  byId : ById s.world.catalog.nodes
  counter : s.nextRoundRobinIndex < usizeValues

theorem Sound.nodup_ids {s : ControlPlane} (h : s.Sound) : (s.nodes.map (·.id)).Nodup
  := by
  have hkeys : s.nodes.map (·.id) = s.world.catalog.nodes.keys := by
    rw [nodes, List.map_map, ← Std.ExtTreeMap.map_fst_toList_eq_keys]
    apply List.map_congr_left
    rintro ⟨key, node⟩ hmem
    apply h.byId key node
    exact Std.ExtTreeMap.mem_toList_iff_getElem?_eq_some.mp hmem
  rw [hkeys]
  exact Std.ExtTreeMap.nodup_keys

theorem Sound.nodup_recordedIds {s : ControlPlane} (h : s.Sound) : s.recordedIds.Nodup
  := h.nodup_ids.sublist (List.filter_sublist.map _)

@[simp]
theorem applyLiveness_id (node : ClusterNode) (liveness : KeyMap NodeLiveness) :
  (applyLiveness node liveness).id = node.id
  := by
  unfold applyLiveness
  split
  · rfl
  · rfl

theorem Sound.nodup_reportedReady {s : ControlPlane} (h : s.Sound) : s.reportedReady.Nodup
  := by
  have hids : s.listNodes.map (·.id) = s.nodes.map (·.id) := by
    rw [listNodes, List.map_map]
    apply List.map_congr_left
    intro node _
    exact applyLiveness_id node s.liveness
  have hnodup : (s.listNodes.map (·.id)).Nodup := by
    rw [hids]
    exact h.nodup_ids
  exact hnodup.sublist (List.filter_sublist.map _)

/-- Queries are routed to the nodes that are reported as ready, each in its turn, if and only if
the catalogue has these as ready and no others, and the counter wraps at a multiple of their
number. -/
theorem Sound.routesLive_iff {s : ControlPlane} (h : s.Sound) {sessions : Nat → SessionContext}
    (hvalid : ∀ k, validateSession s.world.catalog (sessions k) = .ok ()) :
  RoutesLive o sessions s ↔ s.reportedReady = [] ∨ RecordsReported s
  := by
  by_cases hempty : s.reportedReady = []
  · simp [RoutesLive, hempty]
  simp only [RoutesLive, hempty, ne_eq, not_false_eq_true, forall_true_left, false_or]
  have hturns := RoundRobin.turns_perm_iff (d := COORDINATOR_NODE_ID) (m := usizeValues)
    (by decide) h.nodup_recordedIds h.nodup_reportedReady hempty s.nextRoundRobinIndex
  rw [RecordsReported, ← hturns]
  apply forall_congr'
  intro k
  have hvalid' : ∀ f : Nat → Nat, ∀ n, ∀ session ∈ (List.range n).map (fun j => sessions (f j)),
      validateSession s.world.catalog session = .ok () := by
    intro f n session hsession
    obtain ⟨j, -, rfl⟩ := List.mem_map.mp hsession
    exact hvalid (f j)
  apply Succeeds.congr_const
  refine Succeeds.mono (admitQueries_succeeds (hvalid' id k) h.counter) ?_
  rintro _ s₁ ⟨-, hsame, hcounter, hnext⟩
  apply Succeeds.congr_const
  have hvalid₁ := hvalid' (k + ·) s.reportedReady.length
  rw [← hsame.catalog] at hvalid₁
  refine Succeeds.mono (admitQueries_succeeds hvalid₁ hcounter) ?_
  rintro admissions _ ⟨hrouted, -⟩
  have hthere := hnext 0 s.reportedReady.length
  rw [Nat.add_zero, Nat.add_zero, List.length_map, List.length_range] at hthere
  rw [hrouted, List.length_map, List.length_range, hsame.routed, hthere, routed]

/-! ### Runs -/

theorem ById.insert {nodes : KeyMap ClusterNode} (h : ById nodes) {key : String}
    {node : ClusterNode} (hid : node.id = key) :
  ById (nodes.insert key node)
  := by
  intro other node' hother
  rw [KeyMap.get_insert] at hother
  split at hother
  · rename_i hkey
    cases hother
    rw [hid, hkey]
  · exact h other node' hother

theorem ById.filter {nodes : KeyMap ClusterNode} (h : ById nodes) (p : ClusterNode → Bool) :
  ById (nodes.filter (fun _ node => p node))
  := by
  intro key node hnode
  rw [Std.ExtTreeMap.getElem?_filter', Option.filter_eq_some_iff] at hnode
  exact h key node hnode.1

theorem after_registerNode (node : ClusterNode) (w : World) (h : ById w.catalog.nodes) :
  After (registerNode o node) w (fun _ w' => ById w'.catalog.nodes)
  := by
  apply After.mono (after_write o _ w)
  rintro _ w' ⟨-, hcatalog⟩
  rw [hcatalog]
  exact h.insert rfl

theorem after_clearComputeNodes (w : World) (h : ById w.catalog.nodes) :
  After (clearComputeNodes o) w (fun _ w' => ById w'.catalog.nodes)
  := by
  apply After.mono (after_write o _ w)
  rintro _ w' ⟨-, hcatalog⟩
  rw [hcatalog]
  exact h.filter (fun node => node.role ≠ .compute)

theorem after_joinCluster (requestedNodeId advertiseHost : Option String) (w : World)
    (h : ById w.catalog.nodes) :
  After (joinCluster o requestedNodeId advertiseHost) w (fun _ w' => ById w'.catalog.nodes)
  := by
  rw [joinCluster, after_bind, after_outsideCall, resume_ok, after_bind, after_readState,
    resume_ok]
  dsimp only
  split
  · exact h
  · apply After.mono (after_edit o _ _ _)
    rintro _ w' ⟨-, hcatalog⟩
    rw [hcatalog]
    exact h.insert rfl

/-- An operation on the catalogue, after which the liveness of a node is set whatever its
outcome. -/
theorem after_attempt_setLiveness {α : Type} {m : Op α} {s : ControlPlane}
    {f : KeyMap NodeLiveness → KeyMap NodeLiveness} {Q : ControlPlane → Prop}
    (h : After m s.world (fun _ w => Q { s with world := w, liveness := f s.liveness })) :
  After (Eff.attempt (onCatalog m) >>= fun r => setLiveness f >>= fun _ => orFail r) s
    (fun _ s' => Q s')
  := by
  rw [after_bind, after_attempt, after_onCatalog]
  apply After.mono h
  intro r w hQ
  rw [resume_ok, setLiveness, after_bind, after_modify, resume_ok]
  cases r with
  | ok a => exact hQ
  | error e => exact hQ

/-- What a call leaves of the nodes and the counter. -/
theorem Sound.afterCall {s : ControlPlane} (h : s.Sound) (call : NodeCall) :
  (afterCall o call s).Sound
  := by
  cases call with
  | registerNode node =>
      change After (enterNode o node) s (fun _ s' => s'.Sound)
      rw [enterNode, after_bind, after_onCatalog, after_outsideCall, resume_ok]
      apply after_attempt_setLiveness
      apply After.mono (after_registerNode node { s.world with calls := s.world.calls + 1 } h.byId)
      intro _ w hid
      exact ⟨hid, h.counter⟩
  | joinCluster requestedNodeId advertiseHost =>
      change After (joinNode o requestedNodeId advertiseHost) s (fun _ s' => s'.Sound)
      rw [joinNode, after_bind, after_get, resume_ok]
      dsimp only
      split
      · rw [after_onCatalog]
        exact h
      · rw [after_bind, after_attempt, after_onCatalog]
        apply After.mono (after_joinCluster requestedNodeId advertiseHost _ h.byId)
        intro r w hid
        rw [resume_ok, after_bind, after_onCatalog, after_outsideCall, resume_ok, setLiveness,
          after_bind, after_modify, resume_ok]
        cases r with
        | ok response => exact ⟨hid, h.counter⟩
        | error e => exact ⟨hid, h.counter⟩
  | heartbeat nodeId =>
      change After (heartbeat o nodeId) s (fun _ s' => s'.Sound)
      rw [heartbeat, after_bind, after_get, resume_ok]
      dsimp only
      split
      · exact ⟨h.byId, h.counter⟩
      · exact ⟨h.byId, h.counter⟩
  | markNodeUnavailable nodeId => exact ⟨h.byId, h.counter⟩
  | pruneUnhealthyNodes thresholdMs => exact ⟨h.byId, h.counter⟩
  | clearComputeNodes =>
      change After (removeComputeNodes o) s (fun _ s' => s'.Sound)
      rw [removeComputeNodes, after_bind, after_get, resume_ok]
      apply after_attempt_setLiveness
      apply After.mono (after_clearComputeNodes _ h.byId)
      intro _ w hid
      exact ⟨hid, h.counter⟩
  | admitQuery session =>
      change After (admitQuery o session) s (fun _ s' => s'.Sound)
      cases hvalid : validateSession s.world.catalog session with
      | error message =>
          rw [admitQuery, after_bind, after_get, resume_ok, after_bind, after_onCatalog, hvalid]
          exact h
      | ok _ =>
          obtain ⟨_, -, -, hsame, hcounter, -⟩ := admitQuery_succeeds (o := o) hvalid h.counter
          refine ⟨?_, hcounter⟩
          rw [hsame.catalog]
          exact h.byId

/-- A control plane that was just started, with the nodes of its catalogue entered under their
identifiers. -/
structure Started (s : ControlPlane) : Prop where
  byId : ById s.world.catalog.nodes
  liveness : s.liveness = ∅
  counter : s.nextRoundRobinIndex = 0

/-- The control plane after some calls. -/
def afterCalls (o : Outside) (calls : List NodeCall) (s : ControlPlane) : ControlPlane :=
  Run.performAll (ControlPlane.afterCall o) calls s

theorem Sound.afterCalls {s : ControlPlane} (h : s.Sound) (calls : List NodeCall) :
  (ControlPlane.afterCalls o calls s).Sound
  := by
  induction calls generalizing s with
  | nil => exact h
  | cons call calls ih => exact ih (h.afterCall call)

theorem Started.sound {s : ControlPlane} (h : s.Started) : s.Sound
  := by
  refine ⟨h.byId, ?_⟩
  rw [h.counter]
  decide

/-- After every sequence of calls, queries are routed to the nodes that are reported as ready,
each in its turn, if and only if no node is reported, or the catalogue has the nodes that are
reported as ready and no others, and the counter wraps at a multiple of their number. -/
theorem routesLive_iff_recordsReported {s : ControlPlane} (h : s.Started)
    (calls : List NodeCall) {sessions : Nat → SessionContext}
    (hvalid : ∀ k, validateSession (afterCalls o calls s).world.catalog (sessions k) = .ok ()) :
  RoutesLive o sessions (afterCalls o calls s)
    ↔ (afterCalls o calls s).reportedReady = [] ∨ RecordsReported (afterCalls o calls s)
  := (h.sound.afterCalls calls).routesLive_iff hvalid

/-- A first install. -/
def sampleControlPlane : ControlPlane :=
  { world := World.bootstrap
    liveness := ∅
    nextRoundRobinIndex := 0 }

theorem sampleControlPlane_started : sampleControlPlane.Started
  where
  byId := by
    intro key node h
    simp [sampleControlPlane, World.bootstrap, bootstrapState, initialState] at h
  liveness := rfl
  counter := rfl

/-- Two nodes join. -/
def twoNodes : List NodeCall := [.joinCluster (some "a") none, .joinCluster (some "b") none]

theorem routesLive_iff_recordsReported_twoNodes :
  (afterCalls .faultless twoNodes sampleControlPlane).reportedReady = ["a", "b"]
    ∧ RoutesLive .faultless (fun _ => {}) (afterCalls .faultless twoNodes sampleControlPlane)
  := by
  have hreported : (afterCalls .faultless twoNodes sampleControlPlane).reportedReady
      = ["a", "b"] := by decide
  have hrecorded : (afterCalls .faultless twoNodes sampleControlPlane).recordedIds
      = ["a", "b"] := by decide
  refine ⟨hreported, (routesLive_iff_recordsReported sampleControlPlane_started twoNodes ?_).mpr ?_⟩
  · intro _
    decide
  · right
    right
    rw [hreported, hrecorded]
    refine ⟨by simp, ?_, by decide⟩
    rw [List.take_of_length_le (by decide)]

/-- Two nodes join, and one of them fails. -/
def failedNode : List NodeCall := twoNodes ++ [.markNodeUnavailable "a"]

/-- The next query is routed to the node that failed. -/
theorem routed_to_failedNode :
  (afterCalls .faultless failedNode sampleControlPlane).reportedReady = ["b"]
    ∧ (exec (admitQuery .faultless {})
        (afterCalls .faultless failedNode sampleControlPlane)).1.toOption.map
          (·.coordinatorNodeId) = some "a"
    ∧ ¬ RoutesLive .faultless (fun _ => {}) (afterCalls .faultless failedNode sampleControlPlane)
  := by
  have hreported : (afterCalls .faultless failedNode sampleControlPlane).reportedReady = ["b"] := by
    decide
  have hrecorded : (afterCalls .faultless failedNode sampleControlPlane).recordedIds
      = ["a", "b"] := by decide
  refine ⟨hreported, by decide, ?_⟩
  rw [(sampleControlPlane_started.sound.afterCalls failedNode).routesLive_iff
    (fun _ => by decide), RecordsReported, hreported, hrecorded]
  rintro (hnone | ⟨hnone, -⟩ | ⟨-, hperm, -⟩)
  · cases hnone
  · cases hnone
  · have hlength := hperm.length_eq
    rw [List.take_of_length_le (by decide)] at hlength
    cases hlength

end ControlPlane

end
