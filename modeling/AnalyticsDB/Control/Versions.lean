import AnalyticsDB.Control.Effects

/-!
# The version of the catalogue

Every operation that changes the catalogue should bump its version and publish it, so that a
snapshot of the catalogue that differs from the current one has another version.
-/

open Eff

/-- The objects of the catalogue are the same; the configuration and the version may differ. -/
structure CatalogState.SameObjects (state state' : CatalogState) : Prop where
  databases : state'.databases = state.databases
  users : state'.users = state.users
  nodes : state'.nodes = state.nodes
  relations : state'.relations = state.relations
  aggregates : state'.aggregates = state.aggregates
  collations : state'.collations = state.collations
  conversions : state'.conversions = state.conversions
  functions : state'.functions = state.functions
  storagePolicies : state'.storagePolicies = state.storagePolicies

/-- The version grew, and the new one was sent to the subscribers. -/
structure Bumped (w w' : World) : Prop where
  newer : w.catalog.catalogueVersion < w'.catalog.catalogueVersion
  published : w'.published = w'.catalog.catalogueVersion

/-- What is persisted has a greater version, unless the version is the greatest there is. -/
theorem lt_bump {state : CatalogState} (h : state.catalogueVersion < u64Max) :
  state.catalogueVersion < state.bump.catalogueVersion
  := by
  simp only [CatalogState.bump]
  omega

/-- The only operation that changes the objects of the catalogue quietly renames a database. -/
theorem ControlOp.Quiet.sameObjects {state state' : CatalogState} {op : ControlOp}
    (h : op.Quiet state state') (hop : ∀ name newName, op ≠ .alterDatabase name (.rename newName)) :
  state.SameObjects state'
  := by
  cases op with
  | alterDatabase name operation =>
      cases operation with
      | rename newName => exact absurd rfl (hop name newName)
      | ownerTo newOwner => cases h
      | setParam parameter value => cases h
  | setTlsPaths | setJwtSecret | setStorageRoot =>
      obtain ⟨_, rfl⟩ := h
      exact ⟨rfl, rfl, rfl, rfl, rfl, rfl, rfl, rfl, rfl⟩
  | _ => cases h

/-- An operation that returns and changes an object of the catalogue bumps the version and
publishes it exactly when it is not the renaming of a database. -/
theorem performOp_bumps_iff (o : Outside) (session : SessionContext) (op : ControlOp) (w : World)
    (hversion : w.catalog.catalogueVersion < u64Max) (message : String)
    (hok : (exec (performOp o session op) w).1 = .ok message)
    (hchanged : ¬ w.catalog.SameObjects (exec (performOp o session op) w).2.catalog) :
  Bumped w (exec (performOp o session op) w).2
    ↔ ∀ name newName, op ≠ .alterDatabase name (.rename newName)
  := by
  obtain ⟨-, houtcome⟩ := performOp_performs o session w op
  generalize exec (performOp o session op) w = result at hok hchanged houtcome ⊢
  obtain ⟨r, w'⟩ := result
  cases hok
  cases houtcome with
  | same hcatalog hpublished =>
      apply absurd _ hchanged
      dsimp only
      rw [hcatalog]
      exact ⟨rfl, rfl, rfl, rfl, rfl, rfl, rfl, rfl, rfl⟩
  | saved state heffect hcatalog hpublished =>
      have hbumped : Bumped w w' := by
        constructor
        · rw [hcatalog, ← heffect.rest.version_eq]
          apply lt_bump
          rwa [heffect.rest.version_eq]
        · rw [hpublished, hcatalog]
      refine iff_of_true hbumped ?_
      rintro name newName rfl
      cases heffect
  | quiet hquiet hpublished hfails =>
      refine iff_of_false ?_ ?_
      · intro hbumped
        have hnewer := hbumped.newer
        rw [hquiet.rest.1.version_eq] at hnewer
        exact Nat.lt_irrefl _ hnewer
      · intro hop
        exact hchanged (hquiet.sameObjects hop)

theorem performOp_bumps_createDatabase :
  Bumped World.bootstrap
    (exec (performOp Outside.faultless {} (.createDatabase "sales")) World.bootstrap).2
  := by
  have hafter : ∃ message w', exec (performOp Outside.faultless {} (.createDatabase "sales"))
      World.bootstrap = (.ok message, w')
        ∧ w'.catalog.databases.contains "sales" = true := ⟨_, _, rfl, by decide⟩
  obtain ⟨message, w', hrun, hsales⟩ := hafter
  apply (performOp_bumps_iff Outside.faultless {} (.createDatabase "sales") World.bootstrap
    (by decide) message (by rw [hrun]) _).mpr
  · intro name newName h
    cases h
  · intro hsame
    have hdatabases := hsame.databases
    rw [hrun] at hdatabases
    rw [hdatabases] at hsales
    revert hsales
    decide

/-- Renaming a database keeps the version. -/
theorem performOp_rename_keeps_version :
  ∃ message w', exec (performOp Outside.faultless {} (.alterDatabase "postgres" (.rename "sales")))
      World.bootstrap = (.ok message, w')
    ∧ World.bootstrap.catalog.catalogueVersion < u64Max
    ∧ ¬ World.bootstrap.catalog.SameObjects w'.catalog
    ∧ ¬ Bumped World.bootstrap w'
  := by
  have hafter : ∃ message w', exec (performOp Outside.faultless {}
      (.alterDatabase "postgres" (.rename "sales"))) World.bootstrap = (.ok message, w')
        ∧ w'.catalog.databases.contains "sales" = true
        ∧ w'.catalog.catalogueVersion = 0 := ⟨_, _, rfl, by decide⟩
  obtain ⟨message, w', hrun, hsales, hsame⟩ := hafter
  refine ⟨message, w', hrun, by decide, ?_, ?_⟩
  · intro h
    rw [h.databases] at hsales
    revert hsales
    decide
  · intro h
    have hnewer := h.newer
    rw [hsame] at hnewer
    exact Nat.not_lt_zero _ hnewer
