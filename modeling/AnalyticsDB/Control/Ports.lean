import AnalyticsDB.Control.Cluster
import AnalyticsDB.Control.Accounts
import AnalyticsDB.Lib.Run

/-!
# The ports of the nodes that join

A node that joins the cluster is given three ports, each of them a base of the configuration
plus an offset that grows by one with every join.  The sums are of `u16`, and nothing checks them.
The ports of the joins of a run are distinct sums as long as none of them overflows and every
join is saved; a join that is not saved has used up its ports and entered its node although it
fails.
-/

open Eff

/-- A call of `join_cluster`: the requested identifier and the advertised host. -/
structure JoinCall where
  requestedNodeId : Option String
  advertiseHost : Option String

/-- The three families of ports. -/
inductive PortFamily where
  | postgres
  | flightSql
  | node

/-- The base of the ports of a family. -/
def ClusterConfig.basePort (config : ClusterConfig) : PortFamily → UInt16
  | .postgres => config.basePostgresPort
  | .flightSql => config.baseFlightSqlPort
  | .node => config.baseNodePort

/-- The port of a family that a join assigned. -/
def JoinResponse.port (response : JoinResponse) : PortFamily → UInt16
  | .postgres => response.postgresPort
  | .flightSql => response.flightSqlPort
  | .node => response.nodePort

section

variable (o : Outside)

/-- The outcome of a join, and the system after it. -/
def joined (call : JoinCall) (w : World) : Except Failure JoinResponse × World :=
  exec (joinCluster o call.requestedNodeId call.advertiseHost) w

/-- A join assigned ports that are sums without overflow and that no earlier join has, and an
identifier of its own making was free. -/
structure AssignsPorts (call : JoinCall) (w : World) (earlier : List JoinResponse)
    (response : JoinResponse) : Prop where
  exact : ∀ config, w.catalog.config = some config → ∀ family,
    (response.port family).toNat
      = (config.basePort family).toNat + (config.nextAvailablePortOffset.toNat + 1)
  distinct : ∀ other ∈ earlier, ∀ family, response.port family ≠ other.port family
  free : call.requestedNodeId = none → w.catalog.nodes.contains response.nodeId = false

/-- Each of the calls fails and leaves the configuration and the nodes, or assigns ports that are
right beside those of the earlier joins. -/
def JoinsProperly : List JoinCall → World → List JoinResponse → Prop
  | [], _, _ => True
  | call :: calls, w, earlier =>
    match joined o call w with
    | (.error _, w') =>
      w'.catalog.config = w.catalog.config ∧ w'.catalog.nodes = w.catalog.nodes
        ∧ JoinsProperly calls w' earlier
    | (.ok response, w') =>
      AssignsPorts call w earlier response ∧ JoinsProperly calls w' (response :: earlier)

/-- The next ports of a configuration are `u16`. -/
def ClusterConfig.PortsFit (config : ClusterConfig) : Prop :=
  ∀ family, (config.basePort family).toNat + (config.nextAvailablePortOffset.toNat + 1) < 2 ^ 16

/-- A join that finds a configuration has ports left, and the catalogue can be saved. -/
def JoinFits (w : World) : Prop :=
  ∀ config, w.catalog.config = some config →
    config.PortsFit ∧ o.saved (w.calls + 1) = .ok ()

/-- Every join of a run fits where it is made. -/
def JoinsFit : List JoinCall → World → Prop :=
  Run.AllAllowed (fun call w => (joined o call w).2) (fun _ w => JoinFits o w)

end

/-! ### One join -/

section

variable {o : Outside} {call : JoinCall} {w : World} {config : ClusterConfig}

/-- Without a configuration a join fails and changes nothing of the catalogue. -/
theorem joined_of_no_config (h : w.catalog.config = none) :
  ∃ e w', joined o call w = (.error e, w') ∧ w'.catalog = w.catalog
  := by
  have hafter : After (joinCluster o call.requestedNodeId call.advertiseHost) w
      (fun r w' => (∃ e, r = .error e) ∧ w'.catalog = w.catalog) := by
    rw [joinCluster, after_bind, after_outsideCall, resume_ok, after_bind, after_readState,
      resume_ok]
    simp only [h]
    exact ⟨⟨_, rfl⟩, rfl⟩
  obtain ⟨⟨e, he⟩, hcatalog⟩ := hafter
  exact ⟨e, _, Prod.ext he rfl, hcatalog⟩

/-- A join that finds a configuration uses up the next offset, and succeeds when the catalogue can
be saved. -/
theorem joined_of_config (h : w.catalog.config = some config) :
  (joined o call w).2.catalog.config
      = some { config with nextAvailablePortOffset := config.nextAvailablePortOffset + 1 }
    ∧ match o.saved (w.calls + 1) with
      | .error e => (joined o call w).1 = .error e
      | .ok _ => ∃ response, (joined o call w).1 = .ok response
          ∧ (∀ family, response.port family
              = config.basePort family + (config.nextAvailablePortOffset + 1))
          ∧ response.nodeId = joiningNodeId w.catalog.nodes call.requestedNodeId
  := by
  change After (joinCluster o call.requestedNodeId call.advertiseHost) w (fun r w' =>
    w'.catalog.config
      = some { config with nextAvailablePortOffset := config.nextAvailablePortOffset + 1 }
    ∧ match o.saved (w.calls + 1) with
      | .error e => r = .error e
      | .ok _ => ∃ response, r = .ok response
          ∧ (∀ family, response.port family
              = config.basePort family + (config.nextAvailablePortOffset + 1))
          ∧ response.nodeId = joiningNodeId w.catalog.nodes call.requestedNodeId)
  rw [joinCluster, after_bind, after_outsideCall, resume_ok, after_bind, after_readState,
    resume_ok]
  simp only [h]
  rw [after_bind, after_writeState, resume_ok, after_bind, after_persist]
  cases o.saved (w.calls + 1) with
  | error e =>
      rw [resume_error, resume_error, Outside.afterSave_catalog]
      exact ⟨rfl, rfl⟩
  | ok _ =>
      rw [resume_ok, after_modify, resume_ok, after_pure, Outside.afterSave_catalog]
      refine ⟨rfl, _, rfl, ?_, rfl⟩
      rintro (_ | _ | _) <;> rfl

/-- A sum of three `u16` that fits is the sum of the numbers. -/
theorem toNat_port (base offset : UInt16) :
  (base + (offset + 1)).toNat = base.toNat + (offset.toNat + 1)
    ↔ base.toNat + (offset.toNat + 1) < 2 ^ 16
  := by
  rw [UInt16.toNat_add, UInt16.toNat_add]
  have hbase := base.toNat_lt
  have hoffset := offset.toNat_lt
  simp only [UInt16.toNat_one]
  omega

theorem toNat_offset {base offset : UInt16} (h : base.toNat + (offset.toNat + 1) < 2 ^ 16) :
  (offset + 1).toNat = offset.toNat + 1
  := by
  rw [UInt16.toNat_add]
  simp only [UInt16.toNat_one]
  omega

end

/-! ### The joins of a run -/

section

variable {o : Outside}

/-- The earlier joins have ports below the next ones. -/
def PortsUsed (w : World) (earlier : List JoinResponse) : Prop :=
  ∀ response ∈ earlier, ∃ config, w.catalog.config = some config ∧ ∀ family,
    (response.port family).toNat
      < (config.basePort family).toNat + (config.nextAvailablePortOffset.toNat + 1)

/-- The ports of a join are right exactly when they are sums without overflow. -/
theorem assignsPorts_iff {call : JoinCall} {w : World} {config : ClusterConfig}
    {earlier : List JoinResponse} {response : JoinResponse}
    (hconfig : w.catalog.config = some config) (hused : PortsUsed w earlier)
    (hports : ∀ family, response.port family
      = config.basePort family + (config.nextAvailablePortOffset + 1))
    (hid : response.nodeId = joiningNodeId w.catalog.nodes call.requestedNodeId) :
  AssignsPorts call w earlier response ↔ config.PortsFit
  := by
  constructor
  · intro h family
    have hexact := h.exact config hconfig family
    rw [hports family] at hexact
    exact (toNat_port _ _).mp hexact
  · intro hfit
    have hexact : ∀ family, (response.port family).toNat
        = (config.basePort family).toNat + (config.nextAvailablePortOffset.toNat + 1) := by
      intro family
      rw [hports family]
      exact (toNat_port _ _).mpr (hfit family)
    refine ⟨?_, ?_, ?_⟩
    · intro config' hconfig' family
      rw [hconfig] at hconfig'
      cases hconfig'
      exact hexact family
    · -- the earlier ports are below the new one
      intro other hother family hsame
      obtain ⟨config', hconfig', hbelow⟩ := hused other hother
      rw [hconfig] at hconfig'
      cases hconfig'
      have hless := hbelow family
      rw [← hsame, hexact family] at hless
      exact Nat.lt_irrefl _ hless
    · intro hnone
      rw [hid, hnone]
      exact joiningNodeId_free _

/-- After a join with ports left, its ports are below the next ones too. -/
theorem PortsUsed.join {w w' : World} {config : ClusterConfig} {earlier : List JoinResponse}
    {response : JoinResponse} (hused : PortsUsed w earlier)
    (hconfig : w.catalog.config = some config) (hfit : config.PortsFit)
    (hconfig' : w'.catalog.config
      = some { config with nextAvailablePortOffset := config.nextAvailablePortOffset + 1 })
    (hports : ∀ family, response.port family
      = config.basePort family + (config.nextAvailablePortOffset + 1)) :
  PortsUsed w' (response :: earlier)
  := by
  intro other hother
  refine ⟨_, hconfig', ?_⟩
  intro family
  have hbase : ({ config with
      nextAvailablePortOffset := config.nextAvailablePortOffset + 1 } : ClusterConfig).basePort
        family = config.basePort family := by
    cases family <;> rfl
  rw [hbase, toNat_offset (hfit family)]
  obtain rfl | hother := List.mem_cons.mp hother
  · rw [hports family, (toNat_port _ _).mpr (hfit family)]
    exact Nat.lt_succ_self _
  · obtain ⟨config₀, hconfig₀, hbelow⟩ := hused other hother
    rw [hconfig] at hconfig₀
    cases hconfig₀
    exact Nat.lt_succ_of_lt (hbelow family)

/-- In a run, each join fits where it is made if and only if each fails without a trace or
assigns ports that are right beside those that are used. -/
theorem joinsProperly_iff_of_used (calls : List JoinCall) (w : World)
    (earlier : List JoinResponse) (hused : PortsUsed w earlier) :
  JoinsProperly o calls w earlier ↔ JoinsFit o calls w
  := by
  induction calls generalizing w earlier with
  | nil => exact Iff.rfl
  | cons call calls ih =>
      rw [JoinsProperly, JoinsFit, Run.AllAllowed]
      change _ ↔ JoinFits o w ∧ JoinsFit o calls (joined o call w).2
      cases hconfig : w.catalog.config with
      | none =>
          obtain ⟨e, w', hjoined, hcatalog⟩ := @joined_of_no_config o call w hconfig
          have hfits : JoinFits o w := by
            intro config h
            rw [hconfig] at h
            cases h
          have hused' : PortsUsed w' earlier := by
            unfold PortsUsed
            rw [hcatalog]
            exact hused
          simp only [hjoined, hcatalog, hconfig, true_and, hfits, ih w' earlier hused']
      | some config =>
          obtain ⟨hconfig', hsave⟩ := @joined_of_config o call w config hconfig
          rcases hjoined : joined o call w with ⟨r, w'⟩
          rw [hjoined] at hconfig' hsave
          cases hsaved : o.saved (w.calls + 1) with
          | error e =>
              -- the offset is used up although the join fails
              rw [hsaved] at hsave
              obtain rfl : r = .error e := hsave
              constructor
              · rintro ⟨hkept, -⟩
                rw [hconfig', Option.some.injEq] at hkept
                have hoffset := congrArg ClusterConfig.nextAvailablePortOffset hkept
                have hne : config.nextAvailablePortOffset + 1 ≠ config.nextAvailablePortOffset := by
                  simp
                exact absurd hoffset hne
              · rintro ⟨hfits, -⟩
                have hok := (hfits config hconfig).2
                rw [hsaved] at hok
                cases hok
          | ok _ =>
              rw [hsaved] at hsave
              obtain ⟨response, hok, hports, hid⟩ := hsave
              obtain rfl : r = .ok response := hok
              have hassigns := assignsPorts_iff hconfig hused hports hid
              have hfits : JoinFits o w ↔ config.PortsFit := by
                constructor
                · intro h
                  exact (h config hconfig).1
                · intro h config₀ hconfig₀
                  rw [hconfig] at hconfig₀
                  cases hconfig₀
                  exact ⟨h, hsaved⟩
              dsimp only
              rw [hassigns, hfits]
              apply and_congr_right
              intro hfit
              apply ih
              exact hused.join hconfig hfit hconfig' hports

end

/-- For every catalogue and every sequence of joins: each join fails without a trace or assigns
ports that are sums without overflow, distinct from those of the joins before, if and only if each
join that finds a configuration has ports left and is saved. -/
theorem joinsProperly_iff (o : Outside) (calls : List JoinCall) (w : World) :
  JoinsProperly o calls w [] ↔ JoinsFit o calls w
  := by
  apply joinsProperly_iff_of_used
  intro response hresponse
  cases hresponse

/-- A first install to which 5483 nodes have joined, so that one node port is left. -/
def lastPortWorld : World :=
  { World.bootstrap with
    catalog.config := World.bootstrap.catalog.config.map (fun config =>
      { config with nextAvailablePortOffset := 5483 }) }

/-- Two nodes join; the node port of the second is 60051 + 5485 - 65536 = 0. -/
theorem second_join_overflows :
  ((joined Outside.faultless ⟨none, none⟩ lastPortWorld).1.toOption.map
      (fun response => response.nodePort)) = some 65535
    ∧ ((joined Outside.faultless ⟨none, none⟩
        (joined Outside.faultless ⟨none, none⟩ lastPortWorld).2).1.toOption.map
      (fun response => response.nodePort)) = some 0
    ∧ ¬ JoinsProperly Outside.faultless [⟨none, none⟩, ⟨none, none⟩] lastPortWorld []
  := by
  refine ⟨by decide, by decide, ?_⟩
  rw [joinsProperly_iff_of_used _ _ _ (fun _ h => by cases h)]
  rintro ⟨-, hsecond, -⟩
  have hconfig := (@joined_of_config Outside.faultless ⟨none, none⟩ lastPortWorld _ rfl).1
  have hfit := (hsecond _ hconfig).1 .node
  revert hfit
  decide
