import AnalyticsDB.Control.Effects
import AnalyticsDB.Lib.Run

/-!
# Settings that are not to be stored

The paths of the TLS files, the secret that signs tokens and the storage root are set in the
configuration when a node starts, in memory only.  Every operation that persists writes the whole
catalogue, so what is proved is when the file has the settings that were last stored on purpose.
-/

/-- The settings of a configuration that a node is given when it starts. -/
structure VolatileSettings where
  tlsCertPath : Option String
  tlsKeyPath : Option String
  jwtSecret : Option String
  storageRoot : Option String
  deriving DecidableEq, Repr

def ClusterConfig.volatile (config : ClusterConfig) : VolatileSettings :=
  ⟨config.tlsCertPath, config.tlsKeyPath, config.jwtSecret, config.storageRoot⟩

def CatalogState.volatile (state : CatalogState) : Option VolatileSettings :=
  state.config.map ClusterConfig.volatile

@[simp]
theorem CatalogState.volatile_bump (state : CatalogState) :
  state.bump.volatile = state.volatile
  := rfl

/-- The settings an operation makes of those it finds. -/
def ControlOp.volatile : ControlOp → Option VolatileSettings → Option VolatileSettings
  | setTlsPaths certPath keyPath, found =>
    found.map (fun settings => { settings with tlsCertPath := certPath, tlsKeyPath := keyPath })
  | setJwtSecret jwtSecret, found =>
    found.map (fun settings => { settings with jwtSecret := jwtSecret })
  | setStorageRoot storageRoot, found =>
    found.map (fun settings => { settings with storageRoot := storageRoot })
  | updateClusterConfig config, _ => some config.volatile
  | _, found => found

/-- The operation stores the settings it is given. -/
def ControlOp.settles : ControlOp → Bool
  | updateClusterConfig _ => true
  | _ => false

/-! ### What the operations do to the settings -/

/-- An effect on the catalogue changes the settings only as the operation asks for.  What a node
that joins leaves of the configuration is not part of its effect. -/
theorem ControlOp.Effect.volatile_eq {session : SessionContext} {state state' : CatalogState}
    {op : ControlOp} (h : op.Effect session state state')
    (hop : ∀ requestedNodeId advertiseHost, op ≠ .joinCluster requestedNodeId advertiseHost) :
  state'.volatile = op.volatile state.volatile
  := by
  cases op with
  | createDatabase | dropDatabase | dropSchema =>
      obtain ⟨-, -, rfl⟩ := h
      rfl
  | alterDatabase name operation =>
      cases operation with
      | rename newName => cases h
      | ownerTo newOwner =>
          cases h
          rfl
      | setParam parameter value =>
          cases h
          rfl
  | createSchema =>
      obtain ⟨-, rfl⟩ := h
      rfl
  | renameSchema =>
      obtain ⟨_, -, -, -, -, rfl⟩ := h
      rfl
  | registerView | registerManagedTable | registerExternalTable =>
      rw [AddsRelation.rest_eq h]
      rfl
  | renameRelation =>
      obtain ⟨_, -, -, rfl⟩ := h
      rfl
  | addColumn | dropColumn | renameColumn | alterColumn | addConstraint | dropConstraint
  | createIndex | dropIndex | renameIndex | updateRelationStoragePath =>
      rw [RelationEdit.rest_eq h]
      rfl
  | createAggregate | createCollation | createFunction =>
      obtain ⟨-, -, rfl⟩ := h
      rfl
  | alterAggregate | alterCollation | alterFunction =>
      obtain ⟨_, _, -, -, -, rfl⟩ := h
      rfl
  | createConversion | dropFunction =>
      obtain ⟨-, rfl⟩ := h
      rfl
  | alterConversion =>
      obtain ⟨_, -, rfl⟩ := h
      rfl
  | createUser =>
      obtain ⟨_, _, -, -, rfl⟩ := h
      rfl
  | rotateUserPassword | resetAdminPassword =>
      obtain ⟨_, _, rfl⟩ := h
      rfl
  | dropUser =>
      obtain ⟨-, -, -, rfl⟩ := h
      rfl
  | createGroup =>
      obtain ⟨-, -, rfl⟩ := h
      rfl
  | alterGroup name operation =>
      cases operation with
      | addUser userName =>
          obtain ⟨_, -, -, rfl⟩ := h
          rfl
      | dropUser userName =>
          obtain ⟨_, -, -, rfl⟩ := h
          rfl
      | rename newName =>
          obtain ⟨_, -, -, -, rfl⟩ := h
          rfl
  | dropGroup =>
      obtain ⟨_, -, -, rfl⟩ := h
      rfl
  | dropRelation | setStoragePolicy | registerNode | clearComputeNodes | updateClusterConfig =>
      cases h
      rfl
  | joinCluster requestedNodeId advertiseHost => exact absurd rfl (hop _ _)
  | setTlsPaths | setJwtSecret | setStorageRoot => cases h

theorem RenamesDatabase.volatile_eq {state state' : CatalogState} {name newName : String}
    (h : RenamesDatabase state name newName state') :
  state'.volatile = state.volatile
  := by
  obtain ⟨_, -, -, -, -, rfl⟩ := h
  rfl

/-- What a failing operation leaves has the settings it found. -/
theorem ControlOp.Spoil.volatile_eq {o : Outside} {session : SessionContext} {w : World}
    {state' : CatalogState} {op : ControlOp} (h : op.Spoil session o w state') :
  state'.volatile = w.catalog.volatile
  := by
  cases op with
  | alterDatabase name operation =>
      cases operation with
      | rename newName => exact h.1.volatile_eq
      | ownerTo newOwner => cases h
      | setParam parameter value => cases h
  | alterAggregate | alterCollation | alterFunction =>
      obtain ⟨-, _, -, ⟨_, -, rfl⟩ | ⟨_, -, -, rfl⟩⟩ := h
      · rfl
      · rfl
  | _ => cases h

section

open Eff

variable (o : Outside) (session : SessionContext) (w : World)

/-- An operation and what it does to the settings. -/
abbrev PerformsVolatile {α : Type} (op : ControlOp) (m : Op α) : Prop :=
  Performs o
    (fun state => op.Effect session w.catalog state ∧ state.volatile
      = op.volatile w.catalog.volatile)
    (fun state => op.Quiet w.catalog state ∧ state.volatile = op.volatile w.catalog.volatile)
    (op.Spoil session o w) m w

theorem joinCluster_volatile (requestedNodeId advertiseHost : Option String) :
  PerformsVolatile o session w (.joinCluster requestedNodeId advertiseHost)
    (joinCluster o requestedNodeId advertiseHost)
  := by
  rw [PerformsVolatile, joinCluster, performs_outsideCall, performs_readState]
  cases hconfig : w.catalog.config with
  | none =>
      apply performs_bail
  | some config =>
      apply performs_persist
      refine ⟨⟨_, _, _, rfl⟩, ?_⟩
      simp only [CatalogState.volatile, ControlOp.volatile, hconfig]
      rfl

/-- A change of the configuration in memory changes the settings as it says. -/
theorem setConfig_volatile (op : ControlOp) (f : ClusterConfig → ClusterConfig)
    (g : VolatileSettings → VolatileSettings)
    (hf : ∀ config, (f config).volatile = g config.volatile)
    (hquiet : ∀ config, op.Quiet w.catalog { w.catalog with config := config })
    (hop : op.volatile w.catalog.volatile = w.catalog.volatile.map g) :
  PerformsVolatile o session w op (setConfig f)
  := by
  refine ⟨rfl, .quiet ⟨hquiet _, ?_⟩ rfl ?_⟩
  · have hconfig : (exec (setConfig f) w).2.catalog.config = w.catalog.config.map f := rfl
    rw [hop, CatalogState.volatile, CatalogState.volatile, hconfig]
    cases w.catalog.config with
    | none => rfl
    | some config =>
        rw [Option.map_some, Option.map_some, Option.map_some, Option.map_some, hf]
  · intro e he
    cases he

/-- Every operation changes the settings only as it asks for. -/
theorem performOp_volatile (op : ControlOp) :
  PerformsVolatile o session w op (performOp o session op)
  := by
  cases op with
  | joinCluster requestedNodeId advertiseHost =>
      apply performs_map
      apply joinCluster_volatile
  | setTlsPaths certPath keyPath =>
      apply performs_map
      exact setConfig_volatile o session w _ _ _ (fun _ => rfl) (fun _ => ⟨_, rfl⟩) rfl
  | setJwtSecret jwtSecret =>
      apply performs_map
      exact setConfig_volatile o session w _ _ _ (fun _ => rfl) (fun _ => ⟨_, rfl⟩) rfl
  | setStorageRoot storageRoot =>
      apply performs_map
      exact setConfig_volatile o session w _ _ _ (fun _ => rfl) (fun _ => ⟨_, rfl⟩) rfl
  | alterDatabase name operation =>
      apply (performOp_performs o session w (.alterDatabase name operation)).mono
      · intro state h
        exact ⟨h, h.volatile_eq (fun _ _ h => by cases h)⟩
      · intro state h
        cases operation with
        | rename newName => exact ⟨h, RenamesDatabase.volatile_eq h⟩
        | ownerTo | setParam => cases h
      · intro state h
        exact h
  | _ =>
      apply (performOp_performs o session w _).mono
      · intro state h
        exact ⟨h, h.volatile_eq (fun _ _ h => by cases h)⟩
      · intro state h
        cases h
      · intro state h
        exact h

end

/-! ### The settings in the file -/

/-- A catalogue in memory, the one in its file, and the settings that were last stored on purpose:
when the control plane was initialised, or by an update of the configuration. -/
structure Settings where
  memory : CatalogState
  stored : CatalogState
  settled : Option VolatileSettings

namespace Settings

/-- A control plane that was just opened over its file. -/
structure Opened (s : Settings) : Prop where
  memory_eq : s.memory = s.stored
  settled_eq : s.settled = s.stored.volatile

/-- The settings in memory are those last stored on purpose: they were not set since, or set to
what they were. -/
def Unset (s : Settings) : Prop := s.memory.volatile = s.settled

/-- The settings after an operation was written to the file. -/
def saved (op : ControlOp) (state : CatalogState) (s : Settings) : Settings :=
  { memory := state
    stored := state
    settled := if op.settles then state.volatile else s.settled }

/-- The operations of a control plane one after another.  An orderly step writes the file only
while the settings are not set, unless it is given the settings to store. -/
inductive Step (o : Outside) (orderly : Bool) : Settings → Settings → Prop
  /-- An operation makes its effect, and the catalogue is written. -/
  | save {s : Settings} (session : SessionContext) (op : ControlOp) (state : CatalogState) :
      op.Effect session s.memory state → state.volatile = op.volatile s.memory.volatile →
      (orderly = true → op.settles = true ∨ s.Unset) → Step o orderly s (s.saved op state.bump)
  /-- An operation makes its effect, and the catalogue cannot be written. -/
  | saveFails {s : Settings} (session : SessionContext) (op : ControlOp) (state : CatalogState) :
      op.Effect session s.memory state → state.volatile = op.volatile s.memory.volatile →
      Step o orderly s { s with memory := state.bump }
  /-- A database is renamed, and the catalogue is written. -/
  | renameDatabase {s : Settings} (name newName : String) (state : CatalogState) :
      RenamesDatabase s.memory name newName state → (orderly = true → s.Unset) →
      Step o orderly s (s.saved (.alterDatabase name (.rename newName)) state)
  /-- The settings are set in memory, or a database is renamed and the catalogue cannot be
  written. -/
  | quiet {s : Settings} (op : ControlOp) (state : CatalogState) : op.Quiet s.memory state →
      state.volatile = op.volatile s.memory.volatile → Step o orderly s { s with memory := state }
  /-- An operation fails and leaves something behind. -/
  | spoil {s : Settings} (session : SessionContext) (op : ControlOp) (w : World)
      (state : CatalogState) : w.catalog = s.memory → op.Spoil session o w state →
      Step o orderly s { s with memory := state }

/-- The file has the settings last stored on purpose after it is written exactly when they are
given to the operation, or the settings were not set. -/
theorem saved_volatile_iff {op : ControlOp} {s : Settings} {state : CatalogState}
    (hstate : state.volatile = op.volatile s.memory.volatile)
    (hop : op.volatile s.memory.volatile = s.memory.volatile ∨ op.settles = true) :
  (s.saved op state).stored.volatile = (s.saved op state).settled
    ↔ op.settles = true ∨ s.Unset
  := by
  unfold saved Unset
  cases hsettles : op.settles with
  | true => simp
  | false =>
      rw [hsettles] at hop
      simp [hstate, hop.resolve_right Bool.false_ne_true]

/-- An effect that is written does not set the settings, or is given those to store. -/
theorem volatile_of_effect {session : SessionContext} {state state' : CatalogState}
    {op : ControlOp} (h : op.Effect session state state') (found : Option VolatileSettings) :
  op.volatile found = found ∨ op.settles = true
  := by
  cases op with
  | setTlsPaths | setJwtSecret | setStorageRoot => cases h
  | updateClusterConfig => exact .inr rfl
  | _ => exact .inl rfl

/-- Every orderly step keeps the settings in the file. -/
theorem Step.stored_eq {o : Outside} {s s' : Settings} (h : s.stored.volatile = s.settled)
    (hstep : Step o true s s') :
  s'.stored.volatile = s'.settled
  := by
  cases hstep with
  | save session op state heffect hvolatile horderly =>
      rw [← state.volatile_bump] at hvolatile
      exact (saved_volatile_iff hvolatile (volatile_of_effect heffect _)).mpr (horderly rfl)
  | renameDatabase name newName state hrenames horderly =>
      exact (saved_volatile_iff hrenames.volatile_eq (.inl rfl)).mpr (.inr (horderly rfl))
  | saveFails | quiet | spoil => exact h

/-- In every run in which the catalogue is written only while the settings in memory are those
last stored on purpose, or by an operation that is given the settings to store, the file has the
settings last stored on purpose. -/
theorem reachable_stored_eq (o : Outside) {s : Settings}
    (h : Run.Reachable Opened (Step o true) s) :
  s.stored.volatile = s.settled
  := by
  apply h.invariant
  · intro s hs
    exact hs.settled_eq.symm
  · intro s s' hs hstep
    exact hstep.stored_eq hs

/-- An operation takes one of these steps, or changes nothing. -/
theorem performOp_steps (o : Outside) (session : SessionContext) (op : ControlOp) (w : World)
    (stored : CatalogState) (settled : Option VolatileSettings) :
  Eff.After (performOp o session op) w (fun _ w' => ∃ stored' settled',
    Relation.ReflGen (Step o false) ⟨w.catalog, stored, settled⟩ ⟨w'.catalog, stored', settled'⟩)
  := by
  apply Eff.After.mono (performOp_volatile o session w op)
  rintro r w' ⟨-, houtcome⟩
  have hdisorderly : ∀ {p : Prop}, false = true → p := fun h => by cases h
  cases houtcome with
  | same hcatalog _ =>
      rw [hcatalog]
      exact ⟨stored, settled, .refl⟩
  | saved state heffect hcatalog _ =>
      rw [hcatalog]
      exact ⟨_, _, .single (.save session op state heffect.1 heffect.2 hdisorderly)⟩
  | unsaved state heffect hcatalog _ _ =>
      rw [hcatalog]
      exact ⟨stored, settled, .single (.saveFails session op state heffect.1 heffect.2)⟩
  | spoiled hspoil _ =>
      exact ⟨stored, settled, .single (.spoil session op w w'.catalog rfl hspoil)⟩
  | quiet hquiet _ _ =>
      obtain ⟨hquiet, hvolatile⟩ := hquiet
      cases op with
      | alterDatabase name operation =>
          cases operation with
          | rename newName =>
              cases r with
              | ok message =>
                  exact ⟨_, _, .single (.renameDatabase name newName _ hquiet hdisorderly)⟩
              | error e => exact ⟨stored, settled, .single (.quiet _ _ hquiet hvolatile)⟩
          | ownerTo | setParam => cases hquiet
      | setTlsPaths | setJwtSecret | setStorageRoot =>
          exact ⟨stored, settled, .single (.quiet _ _ hquiet hvolatile)⟩
      | _ => cases hquiet

/-! ### A secret that is stored -/

/-- A first install. -/
def sample : Settings :=
  ⟨World.bootstrap.catalog, World.bootstrap.catalog, World.bootstrap.catalog.volatile⟩

theorem sample_opened :
  sample.Opened
  := ⟨rfl, rfl⟩

/-- The configuration a node stores. -/
def sampleConfig : ClusterConfig :=
  { basePostgresPort := 5432, baseFlightSqlPort := 50051, baseNodePort := 60051
    catalogPath := "/data/catalog.db", tlsCertPath := none, tlsKeyPath := none
    nextAvailablePortOffset := 0, storageRoot := some "/data", clusterId := none
    jwtSecret := none }

/-- A database is created, the configuration is updated, and the secret set. -/
theorem reachable_stored_eq_updated :
  ∃ s : Settings, s.stored.volatile = s.settled ∧ s.settled = some sampleConfig.volatile
    ∧ s.memory.volatile = some { sampleConfig.volatile with jwtSecret := some "key" }
  := by
  have hopened : Run.Reachable Opened (Step Outside.faultless true) sample := .start sample_opened
  have hcreated := hopened.step (.save {} (.createDatabase "a") _
    ⟨by decide, by decide, rfl⟩ rfl (fun _ => .inr rfl))
  have hupdated := hcreated.step (.save {} (.updateClusterConfig sampleConfig) _ rfl rfl
    (fun _ => .inl rfl))
  have hset := hupdated.step (.quiet (.setJwtSecret (some "key")) _
    ⟨some { sampleConfig with jwtSecret := some "key" }, rfl⟩ rfl)
  exact ⟨_, reachable_stored_eq Outside.faultless hset, rfl, rfl⟩

/-- The secret that signs tokens is set in memory, and written to the file when a database is
created. -/
theorem secret_stored :
  ∃ s : Settings, Run.Reachable Opened (Step Outside.faultless false) s
    ∧ s.settled.map VolatileSettings.jwtSecret = some none
    ∧ s.stored.volatile.map VolatileSettings.jwtSecret = some (some "key")
    ∧ s.stored.volatile ≠ s.settled
  := by
  have hopened : Run.Reachable Opened (Step Outside.faultless false) sample :=
    .start sample_opened
  have hset := hopened.step (.quiet (.setJwtSecret (some "key")) _
    ⟨sample.memory.config.map (fun config => { config with jwtSecret := some "key" }), rfl⟩ rfl)
  have hcreated := hset.step (.save {} (.createDatabase "a") _
    ⟨by decide, by decide, rfl⟩ rfl (fun h => by cases h))
  refine ⟨_, hcreated, rfl, rfl, ?_⟩
  decide

end Settings
