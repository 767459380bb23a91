import AnalyticsDB.Storage.Manifest

/-!
# The store when no call fails

What the operations on the object store and on manifests return, and what they leave, when
no call to a store fails.
-/

section

open Eff

variable {o : Outside} (hstore : ∀ n, o.storeError n = none)

include hstore

theorem succeeds_storeFault (w : World) (Q : Option OsError → World → Prop) :
  Succeeds (storeFault o) w Q ↔ Q none { w with calls := w.calls + 1 }
  := by
  rw [storeFault, succeeds_bind, succeeds_outsideCall, succeeds_pure, hstore]

theorem storePut_succeeds {key : OPath} {obj : Obj} {mode : PutMode} {w : World}
    (hmode : putError o w.store key mode = none) :
  Succeeds (storePut o key obj mode) w (fun outcome w' =>
    outcome = .ok () ∧ w'.store = w.store.insert key obj)
  := by
  rw [storePut, succeeds_bind, succeeds_storeFault hstore]
  dsimp only
  rw [succeeds_bind, succeeds_get]
  simp only [hmode]
  exact ⟨_, rfl, rfl, rfl⟩

/-- Putting an object over whatever is there. -/
theorem storePut_overwrite_succeeds (key : OPath) (obj : Obj) (w : World) :
  Succeeds (storePut o key obj .overwrite) w (fun outcome w' =>
    outcome = .ok () ∧ w'.store = w.store.insert key obj)
  := storePut_succeeds hstore rfl

theorem storeDelete_succeeds (key : OPath) (w : World) :
  Succeeds (storeDelete o key) w (fun _ w' => w'.store = w.store.erase key)
  := by
  rw [storeDelete, succeeds_bind, succeeds_storeFault hstore]
  exact ⟨_, rfl, rfl⟩

theorem storeList_succeeds (base : OPath) (w : World) :
  Succeeds (storeList o base) w (fun keys w' =>
    keys = (w.store.below base).map (·.1) ∧ w'.store = w.store)
  := by
  rw [storeList, succeeds_bind, succeeds_storeFault hstore]
  dsimp only
  rw [succeeds_bind, succeeds_get, succeeds_pure]
  exact ⟨rfl, rfl⟩

/-- Reading a manifest that is there or missing. -/
theorem readManifestVersioned_succeeds {base : OPath} {w : World} {m : Option Manifest}
    (hm : w.store[manifestKey base]? = m.map .manifest) :
  Succeeds (readManifestVersioned o base) w (fun read w' =>
    read = (m, m.isSome) ∧ w'.store = w.store)
  := by
  rw [readManifestVersioned, storeGet, succeeds_bind, succeeds_bind, succeeds_storeFault hstore]
  dsimp only
  rw [succeeds_bind, succeeds_get]
  simp only [hm]
  rcases m with - | m
  · dsimp only [Option.map_none]
    rw [succeeds_pure]
    dsimp only
    rw [succeeds_pure]
    exact ⟨rfl, rfl⟩
  · dsimp only [Option.map_some]
    rw [succeeds_pure]
    dsimp only
    rw [succeeds_bind, succeeds_storeFault hstore]
    dsimp only
    rw [succeeds_pure]
    exact ⟨rfl, rfl⟩

/-- A put that the store does not implement changes nothing. -/
theorem storePut_refused {key : OPath} {obj : Obj} {mode : PutMode} {e : OsError} {w : World}
    (hmode : putError o w.store key mode = some e) :
  Succeeds (storePut o key obj mode) w (fun outcome w' =>
    outcome = .error e ∧ w'.store = w.store)
  := by
  rw [storePut, succeeds_bind, succeeds_storeFault hstore]
  dsimp only
  rw [succeeds_bind, succeeds_get]
  simp only [hmode]
  exact ⟨_, rfl, rfl, rfl⟩

/-- Writing a manifest over one that is there or missing. -/
theorem casManifest_succeeds {base : OPath} {update : List ManifestEntry → List ManifestEntry}
    {attempts : Nat} {w : World} {m : Option Manifest}
    (hm : w.store[manifestKey base]? = m.map .manifest) :
  Succeeds (casManifest o base update (attempts + 1)) w (fun _ w' => ∃ m',
    m'.files = update ((m.map (·.files)).getD [])
      ∧ w'.store = w.store.insert (manifestKey base) (.manifest m'))
  := by
  rw [casManifest, succeeds_bind]
  refine Succeeds.mono (readManifestVersioned_succeeds hstore hm) ?_
  rintro _ w₁ ⟨rfl, hw₁⟩
  simp only [newManifest, succeeds_bind, succeeds_outsideCall, succeeds_pure]
  have hput : putError o w₁.store (manifestKey base) (if m.isSome then .update else .create) = none
      ∨ putError o w₁.store (manifestKey base) (if m.isSome then .update else .create)
        = some .notImplemented := by
    have hcontains : w₁.store.contains (manifestKey base) = m.isSome := by
      rw [hw₁, Std.ExtTreeMap.contains_eq_isSome_getElem?, hm, Option.isSome_map]
    rcases m with - | m
    · left
      simp only [Option.isSome_none, Bool.false_eq_true, if_false, putError] at hcontains ⊢
      rw [hcontains]
      rfl
    · cases hconditional : o.conditionalPut with
      | false =>
          right
          simp [putError, hconditional]
      | true =>
          left
          simp only [Option.isSome_some, if_true, putError, hconditional] at hcontains ⊢
          rw [hcontains]
          rfl
  rcases hput with hput | hput
  · refine Succeeds.mono (storePut_succeeds hstore hput) ?_
    rintro _ w₂ ⟨rfl, hw₂⟩
    dsimp only
    rw [succeeds_pure, hw₂, hw₁]
    exact ⟨_, rfl, rfl⟩
  · refine Succeeds.mono (storePut_refused hstore hput) ?_
    rintro _ w₂ ⟨rfl, hw₂⟩
    dsimp only
    rw [succeeds_bind]
    refine Succeeds.mono (storePut_overwrite_succeeds hstore _ _ _) ?_
    rintro _ w₃ ⟨rfl, hw₃⟩
    rw [orStoreError, succeeds_pure, hw₃, hw₂, hw₁]
    exact ⟨_, rfl, rfl⟩

theorem deleteObjects_succeeds (keys : List OPath) (w : World) :
  Succeeds (deleteObjects o keys) w (fun _ w' => ∀ key, w'.store[key]?
    = if key ∈ keys then none else w.store[key]?)
  := by
  induction keys generalizing w with
  | nil => simp [deleteObjects]
  | cons key keys ih =>
      rw [deleteObjects, succeeds_bind]
      refine Succeeds.mono (storeDelete_succeeds hstore key w) ?_
      intro _ w₁ hw₁
      refine Succeeds.mono (ih w₁) ?_
      intro _ w₂ hw₂ other
      rw [hw₂ other, hw₁, ObjectStore.get_erase]
      by_cases hkeys : other ∈ keys
      · simp [hkeys]
      · by_cases hkey : key = other
        · simp [hkey]
        · simp [hkeys, hkey, Ne.symm hkey]

/-- A vacuum deletes every Parquet file that the manifest does not list. -/
theorem vacuumOrphans_succeeds {base : OPath} {w : World} {m : Manifest}
    (hm : w.store[manifestKey base]? = some (.manifest m)) :
  Succeeds (vacuumOrphans o base) w (fun _ w' => ∀ key, Vacuumable base key →
    key.drop base.length ∉ m.files.map (·.path) → w'.store[key]? = none)
  := by
  rw [vacuumOrphans, readManifest, succeeds_bind, succeeds_bind]
  refine Succeeds.mono (readManifestVersioned_succeeds hstore (m := some m) hm) ?_
  rintro _ w₁ ⟨rfl, hw₁⟩
  rw [succeeds_pure]
  dsimp only
  rw [succeeds_bind]
  refine Succeeds.mono (storeList_succeeds hstore base w₁) ?_
  rintro _ w₂ ⟨rfl, hw₂⟩
  rw [succeeds_bind]
  refine Succeeds.mono (deleteObjects_succeeds hstore _ w₂) ?_
  intro _ w₃ hw₃
  rw [succeeds_pure]
  intro key hkey hlisted
  rw [hw₃ key]
  cases hobj : w.store[key]? with
  | none =>
      rw [hw₂, hw₁, hobj, ite_self]
  | some obj =>
      rw [if_pos]
      have hne : key ≠ base := by
        rintro rfl
        obtain ⟨-, hcandidate⟩ := hkey
        rw [List.drop_length] at hcandidate
        cases hcandidate
      have hbelow : (key, obj) ∈ w₁.store.below base := by
        rw [ObjectStore.mem_below, hw₁]
        exact ⟨hobj, hkey.1, hne⟩
      rw [List.mem_filter]
      constructor
      · apply List.mem_map_of_mem hbelow
      · simp [hkey.2, hlisted]

end
