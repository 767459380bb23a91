import AnalyticsDB.Control.Basic

/-!
# Table manifests

The operations on the object store, and the manifest of a table: the object that lists the
data files of its committed snapshot.  Writers put their files first and then replace or
extend the manifest; files that are not listed are orphans, which the vacuum deletes.
-/

inductive PutMode where
  | overwrite
  | create
  | update
  deriving DecidableEq, Repr

/-- The message of a store error. -/
def OsError.message : OsError → String
  | .notFound => "Object not found"
  | .alreadyExists => "Object already exists"
  | .precondition => "Request precondition failure"
  | .notImplemented => "Operation not yet implemented"
  | .generic message => message

/-- The key of the manifest of the table at `base`. -/
def manifestKey (base : OPath) : OPath := base ++ ["meta", "manifest.json"]

/-- The key of a data file of the table at `base`. -/
def dataKey (base : OPath) (fileName : String) : OPath := base ++ ["data", fileName]

/-- Whether a file name ends in `.parquet`. -/
def isParquetName (fileName : String) : Bool := ".parquet".toList.isSuffixOf fileName.toList

/-- The key of a file listed in a manifest. -/
def ManifestEntry.key (base : OPath) (entry : ManifestEntry) : OPath := base ++ entry.path

/-- The text of a key in its store. -/
def keyText (path : OPath) : String := "/".intercalate path.tail

/-- Fail with the error of a store operation. -/
def orStoreError {α : Type} : Except OsError α → Op α
  | .ok a => pure a
  | .error e => bail e.message

/-- The number of times a manifest write is tried. -/
def MAX_CAS_RETRIES : Nat := 10

/-- The files a vacuum may delete: Parquet files directly below the table or in its `data`
directory. -/
def isVacuumCandidate (relative : OPath) : Bool :=
  match relative with
  | [fileName] => isParquetName fileName
  | ["data", fileName] => isParquetName fileName
  | _ => false

section

variable (o : Outside)

/-- The error, if any, of a store operation made now. -/
def storeFault : Op (Option OsError) := do
  let n ← outsideCall
  return o.storeError n

/-- Get an object. -/
def storeGet (key : OPath) : Op (Except OsError Obj) := do
  match ← storeFault o with
  | some e => return .error e
  | none =>
    match (← get).store[key]? with
    | some obj => return .ok obj
    | none => return .error .notFound

/-- The error a write meets in a store that holds the objects of `store`. -/
def putError (store : ObjectStore) (key : OPath) : PutMode → Option OsError
  | .overwrite => none
  | .create => if store.contains key then some .alreadyExists else none
  | .update =>
    if !o.conditionalPut then some .notImplemented
    else if store.contains key then none
    else some .precondition

/-- Put an object. -/
def storePut (key : OPath) (obj : Obj) (mode : PutMode) : Op (Except OsError Unit) := do
  match ← storeFault o with
  | some e => return .error e
  | none =>
    let w ← get
    match putError o w.store key mode with
    | some e => return .error e
    | none =>
      set { w with store := w.store.insert key obj }
      return .ok ()

/-- Delete an object; a missing one is no error. -/
def storeDelete (key : OPath) : Op Unit := do
  match ← storeFault o with
  | some .notFound => pure ()
  | some e => bail e.message
  | none => modify (fun w => { w with store := w.store.erase key })

/-- The keys below `base`; a missing directory has none. -/
def storeList (base : OPath) : Op (List OPath) := do
  match ← storeFault o with
  | some .notFound => return []
  | some e => bail e.message
  | none => return ((← get).store.below base).map (·.1)

/-- Read the manifest of a table, with whether it has an e-tag.  Whatever error keeps the
object from being got, the table counts as one without a manifest. -/
def readManifestVersioned (base : OPath) : Op (Option Manifest × Bool) := do
  match ← storeGet o (manifestKey base) with
  | .error _ => return (none, false)
  | .ok obj =>
    match ← storeFault o with
    | some e => bail e.message
    | none =>
      match obj with
      | .manifest m => return (some m, true)
      | _ => bail "expected value at line 1 column 1"

def readManifest (base : OPath) : Op (Option Manifest) := do
  let (manifest, _) ← readManifestVersioned o base
  return manifest

/-- A fresh manifest that lists the given files. -/
def newManifest (files : List ManifestEntry) : Op Manifest := do
  let n ← outsideCall
  return { snapshotId := o.uuid n, createdAtMs := o.now n, files := files }

/-- Write a manifest made from the one read, retrying while another writer wins. -/
def casManifest (base : OPath) (update : List ManifestEntry → List ManifestEntry) :
    Nat → Op Unit
  | 0 => pure ()
  | attempts + 1 => do
    let (existing, eTag) ← readManifestVersioned o base
    let manifest ← newManifest o (update ((existing.map (·.files)).getD []))
    match ← storePut o (manifestKey base) (.manifest manifest)
        (if eTag then .update else .create) with
    | .ok _ => pure ()
    | .error .alreadyExists | .error .precondition =>
      if attempts = 0 then
        bail s!"manifest CAS failed after {MAX_CAS_RETRIES} retries for prefix {keyText base}"
      else
        casManifest base update attempts
    | .error .notImplemented => do
      orStoreError (← storePut o (manifestKey base) (.manifest manifest) .overwrite)
    | .error e => bail e.message

/-- Append a file to the manifest of a table. -/
def appendToManifest (base : OPath) (entry : ManifestEntry) : Op Unit :=
  casManifest o base (fun files => files ++ [entry]) MAX_CAS_RETRIES

/-- Replace the manifest of a table by one that lists the given files. -/
def replaceManifest (base : OPath) (entries : List ManifestEntry) : Op Unit :=
  casManifest o base (fun _ => entries) MAX_CAS_RETRIES

/-- Delete a list of objects. -/
def deleteObjects : List OPath → Op Unit
  | [] => pure ()
  | key :: keys => do
    storeDelete o key
    deleteObjects keys

/-- Delete the Parquet files of a table that its manifest does not list. -/
def vacuumOrphans (base : OPath) : Op Nat := do
  match ← readManifest o base with
  | none => return 0
  | some manifest =>
    let keys ← storeList o base
    let orphans := keys.filter (fun key =>
      isVacuumCandidate (key.drop base.length)
        && !(manifest.files.map (·.path)).contains (key.drop base.length))
    deleteObjects o orphans
    return orphans.length

end

/-! ### What the operations change -/

/-- Nothing of the system changed but the objects `touched` and the number of calls, which
grew. -/
structure Frame (touched : OPath → Prop) (w w' : World) : Prop where
  calls : w.calls ≤ w'.calls
  catalog : w'.catalog = w.catalog
  published : w'.published = w.published
  permissions : w'.permissions = w.permissions
  store : ∀ key, ¬ touched key → w'.store[key]? = w.store[key]?

/-- An operation that changes nothing but the objects `touched`, whatever its outcome. -/
def ModifiesOnly {α : Type} (touched : OPath → Prop) (m : Op α) : Prop :=
  ∀ w, Eff.After m w (fun _ w' => Frame touched w w')

namespace Frame

variable {touched touched' : OPath → Prop} {w w' w'' : World}

theorem refl (touched : OPath → Prop) (w : World) :
  Frame touched w w
  := ⟨Nat.le_refl _, rfl, rfl, rfl, fun _ _ => rfl⟩

/-- A call to the outside touches nothing. -/
theorem call (touched : OPath → Prop) (w : World) :
  Frame touched w { w with calls := w.calls + 1 }
  := ⟨Nat.le_succ _, rfl, rfl, rfl, fun _ _ => rfl⟩

theorem trans (h : Frame touched w w') (h' : Frame touched w' w'') :
  Frame touched w w''
  := by
  constructor
  · apply Nat.le_trans h.calls h'.calls
  · rw [h'.catalog, h.catalog]
  · rw [h'.published, h.published]
  · rw [h'.permissions, h.permissions]
  · intro key hkey
    rw [h'.store key hkey, h.store key hkey]

theorem mono (h : Frame touched w w') (hsub : ∀ key, touched key → touched' key) :
  Frame touched' w w'
  := by
  constructor
  · apply h.calls
  · apply h.catalog
  · apply h.published
  · apply h.permissions
  · intro key hkey
    apply h.store
    intro htouched
    apply hkey (hsub key htouched)

/-- A store of which nothing is touched stays as it is. -/
theorem store_eq (h : Frame (fun _ => False) w w') :
  w'.store = w.store
  := by
  apply Std.ExtTreeMap.ext_getElem?
  intro key
  apply h.store key not_false

end Frame

namespace ModifiesOnly

open Eff

variable {α β : Type} {touched touched' : OPath → Prop}

theorem pure (a : α) :
  ModifiesOnly touched (Pure.pure a : Op α)
  := fun w => Frame.refl touched w

theorem bail (message : String) :
  ModifiesOnly touched (bail message : Op α)
  := fun w => Frame.refl touched w

theorem orBail (x : Except String α) :
  ModifiesOnly touched (orBail x)
  := by
  cases x with
  | ok a => apply ModifiesOnly.pure
  | error message => apply ModifiesOnly.bail

theorem get :
  ModifiesOnly touched (MonadState.get : Op World)
  := fun w => Frame.refl touched w

theorem readState :
  ModifiesOnly touched readState
  := fun w => Frame.refl touched w

theorem outsideCall :
  ModifiesOnly touched outsideCall
  := Frame.call touched

theorem bind {m : Op α} {f : α → Op β} (hm : ModifiesOnly touched m)
    (hf : ∀ a, ModifiesOnly touched (f a)) :
  ModifiesOnly touched (m >>= f)
  := by
  intro w
  rw [after_bind]
  apply After.mono (hm w)
  intro r w' hframe
  cases r with
  | ok a =>
      rw [resume_ok]
      apply After.mono (hf a w')
      intro r' w'' hframe'
      apply hframe.trans hframe'
  | error e => apply hframe

theorem attempt {m : Op α} (hm : ModifiesOnly touched m) :
  ModifiesOnly touched (Eff.attempt m)
  := hm

theorem ite {c : Prop} [Decidable c] {m n : Op α} (hm : ModifiesOnly touched m)
    (hn : ModifiesOnly touched n) :
  ModifiesOnly touched (if c then m else n)
  := by
  split
  · apply hm
  · apply hn

/-- A check that fails before anything is done. -/
theorem guard {c : Prop} [Decidable c] {message : String} {f : β → Op α} {m : Op α}
    (hm : ModifiesOnly touched m) :
  ModifiesOnly touched (if c then (throw (.error message) : Op β) >>= f else m)
  := by
  split
  · exact fun w => Frame.refl touched w
  · apply hm

theorem mono {m : Op α} (hm : ModifiesOnly touched m)
    (hsub : ∀ key, touched key → touched' key) :
  ModifiesOnly touched' m
  := by
  intro w
  apply After.mono (hm w)
  intro r w' hframe
  apply hframe.mono hsub

end ModifiesOnly

/-- An operation that keeps a property of the objects, whatever its outcome. -/
def KeepsObjects {α : Type} (J : ObjectStore → Prop) (m : Op α) : Prop :=
  ∀ w, J w.store → Eff.After m w (fun _ w' => J w'.store)

namespace KeepsObjects

open Eff

variable {α β : Type} {J : ObjectStore → Prop}

theorem of_modifies {m : Op α} (hm : ModifiesOnly (fun _ => False) m) :
  KeepsObjects J m
  := by
  intro w hJ
  apply After.mono (hm w)
  intro r w' hframe
  rw [hframe.store_eq]
  apply hJ

theorem bind {m : Op α} {f : α → Op β} (hm : KeepsObjects J m) (hf : ∀ a, KeepsObjects J (f a)) :
  KeepsObjects J (m >>= f)
  := by
  intro w hJ
  rw [after_bind]
  apply After.mono (hm w hJ)
  intro r w' hJ'
  cases r with
  | ok a => apply hf a w' hJ'
  | error e => apply hJ'

theorem ite {c : Prop} [Decidable c] {m n : Op α} (hm : KeepsObjects J m)
    (hn : KeepsObjects J n) :
  KeepsObjects J (if c then m else n)
  := by
  split
  · apply hm
  · apply hn

end KeepsObjects

section

open Eff

variable (o : Outside)

/-- Asking for the fault of a store operation touches nothing. -/
theorem storeFault_modifies (touched : OPath → Prop) :
  ModifiesOnly touched (storeFault o)
  := by
  apply ModifiesOnly.bind ModifiesOnly.outsideCall
  intro n
  apply ModifiesOnly.pure

theorem storeGet_modifies (touched : OPath → Prop) (key : OPath) :
  ModifiesOnly touched (storeGet o key)
  := by
  apply ModifiesOnly.bind (storeFault_modifies o touched)
  intro fault
  cases fault with
  | some e => apply ModifiesOnly.pure
  | none =>
      apply ModifiesOnly.bind ModifiesOnly.get
      intro w
      split
      · apply ModifiesOnly.pure
      · apply ModifiesOnly.pure

theorem orStoreError_modifies {α : Type} (touched : OPath → Prop) (x : Except OsError α) :
  ModifiesOnly touched (orStoreError x)
  := by
  cases x with
  | ok a => apply ModifiesOnly.pure
  | error e => apply ModifiesOnly.bail

theorem storePut_modifies (key : OPath) (obj : Obj) (mode : PutMode) :
  ModifiesOnly (· = key) (storePut o key obj mode)
  := by
  apply ModifiesOnly.bind (storeFault_modifies o _)
  intro fault
  cases fault with
  | some e => apply ModifiesOnly.pure
  | none =>
      intro w
      rw [after_bind, after_get, resume_ok]
      cases putError o w.store key mode with
      | some e => apply Frame.refl
      | none =>
          constructor
          · apply Nat.le_refl
          · rfl
          · rfl
          · rfl
          · intro other hother
            exact (ObjectStore.get_insert _ _ _ _).trans (if_neg (Ne.symm hother))

theorem storeDelete_modifies (key : OPath) :
  ModifiesOnly (· = key) (storeDelete o key)
  := by
  apply ModifiesOnly.bind (storeFault_modifies o _)
  intro fault
  split
  · apply ModifiesOnly.pure
  · apply ModifiesOnly.bail
  · intro w
    constructor
    · apply Nat.le_refl
    · rfl
    · rfl
    · rfl
    · intro other hother
      exact (ObjectStore.get_erase _ _ _).trans (if_neg (Ne.symm hother))

theorem storeList_modifies (touched : OPath → Prop) (base : OPath) :
  ModifiesOnly touched (storeList o base)
  := by
  apply ModifiesOnly.bind (storeFault_modifies o touched)
  intro fault
  split
  · apply ModifiesOnly.pure
  · apply ModifiesOnly.bail
  · apply ModifiesOnly.bind ModifiesOnly.get
    intro w
    apply ModifiesOnly.pure

theorem readManifestVersioned_modifies (touched : OPath → Prop) (base : OPath) :
  ModifiesOnly touched (readManifestVersioned o base)
  := by
  apply ModifiesOnly.bind (storeGet_modifies o touched _)
  intro got
  cases got with
  | error e => apply ModifiesOnly.pure
  | ok obj =>
      apply ModifiesOnly.bind (storeFault_modifies o touched)
      intro fault
      cases fault with
      | some e => apply ModifiesOnly.bail
      | none =>
          cases obj with
          | manifest m => apply ModifiesOnly.pure
          | parquet batch => apply ModifiesOnly.bail
          | other bytes => apply ModifiesOnly.bail

theorem readManifest_modifies (touched : OPath → Prop) (base : OPath) :
  ModifiesOnly touched (readManifest o base)
  := by
  apply ModifiesOnly.bind (readManifestVersioned_modifies o touched base)
  intro read
  apply ModifiesOnly.pure

theorem newManifest_modifies (touched : OPath → Prop) (files : List ManifestEntry) :
  ModifiesOnly touched (newManifest o files)
  := by
  apply ModifiesOnly.bind ModifiesOnly.outsideCall
  intro n
  apply ModifiesOnly.pure

/-- Writing a manifest touches nothing but the manifest. -/
theorem casManifest_modifies (base : OPath) (update : List ManifestEntry → List ManifestEntry)
    (attempts : Nat) :
  ModifiesOnly (· = manifestKey base) (casManifest o base update attempts)
  := by
  induction attempts with
  | zero => apply ModifiesOnly.pure
  | succ attempts ih =>
      apply ModifiesOnly.bind (readManifestVersioned_modifies o _ base)
      intro read
      apply ModifiesOnly.bind (newManifest_modifies o _ _)
      intro manifest
      apply ModifiesOnly.bind (storePut_modifies o _ _ _)
      intro outcome
      split
      · apply ModifiesOnly.pure
      · apply ModifiesOnly.ite
        · apply ModifiesOnly.bail
        · apply ih
      · apply ModifiesOnly.ite
        · apply ModifiesOnly.bail
        · apply ih
      · apply ModifiesOnly.bind (storePut_modifies o _ _ _)
        intro overwritten
        apply orStoreError_modifies
      · apply ModifiesOnly.bail

theorem deleteObjects_modifies (keys : List OPath) :
  ModifiesOnly (· ∈ keys) (deleteObjects o keys)
  := by
  induction keys with
  | nil => apply ModifiesOnly.pure
  | cons key keys ih =>
      apply ModifiesOnly.bind
      · apply ModifiesOnly.mono (storeDelete_modifies o key)
        rintro other rfl
        apply List.mem_cons_self
      · intro _
        apply ModifiesOnly.mono ih
        intro other hother
        apply List.mem_cons_of_mem key hother

/-- A put that succeeds stores its object. -/
theorem storePut_returns (key : OPath) (obj : Obj) (mode : PutMode) (w : World) :
  Returns (storePut o key obj mode) w (fun outcome w' =>
    outcome = .ok () → w'.store[key]? = some obj)
  := by
  simp only [storePut, returns_bind, storeFault, returns_outsideCall, returns_pure]
  cases o.storeError w.calls with
  | some e => simp
  | none =>
      simp only [returns_bind, returns_get]
      split
      · simp
      · intro outcome _ _
        exact (ObjectStore.get_insert _ _ _ _).trans (if_pos rfl)

/-- Getting an object gets the one the store holds. -/
theorem storeGet_returns (key : OPath) (w : World) :
  Returns (storeGet o key) w (fun got _ => ∀ obj, got = .ok obj → w.store[key]? = some obj)
  := by
  simp only [storeGet, returns_bind, storeFault, returns_outsideCall, returns_pure]
  cases o.storeError w.calls with
  | some e => simp
  | none =>
      simp only [returns_bind, returns_get]
      split
      · rename_i obj hobj
        rw [returns_pure]
        rintro obj' ⟨⟩
        apply hobj
      · simp

/-- Reading a manifest reads the one the store holds. -/
theorem readManifestVersioned_returns (base : OPath) (w : World) :
  Returns (readManifestVersioned o base) w (fun read _ =>
    ∀ m, read.1 = some m → w.store[manifestKey base]? = some (.manifest m))
  := by
  rw [readManifestVersioned, returns_bind]
  refine Returns.mono (storeGet_returns o (manifestKey base) w) ?_
  intro got w' hgot
  cases got with
  | error e => simp
  | ok obj =>
      simp only [returns_bind, storeFault, returns_outsideCall, returns_pure]
      cases o.storeError w'.calls with
      | some e => simp
      | none =>
          cases obj with
          | manifest m =>
              rw [returns_pure]
              rintro m' ⟨⟩
              apply hgot _ rfl
          | parquet batch => simp
          | other bytes => simp

theorem readManifest_returns (base : OPath) (w : World) :
  Returns (readManifest o base) w (fun read _ =>
    ∀ m, read = some m → w.store[manifestKey base]? = some (.manifest m))
  := by
  rw [readManifest, returns_bind]
  refine Returns.mono (readManifestVersioned_returns o base w) ?_
  intro read w' hread
  rw [returns_pure]
  apply hread

/-- A manifest write that succeeds stores a manifest with the updated list of files. -/
theorem casManifest_returns (base : OPath) (update : List ManifestEntry → List ManifestEntry)
    {attempts : Nat} (hattempts : attempts ≠ 0) (w : World) :
  Returns (casManifest o base update attempts) w (fun _ w' =>
    ∃ m existing, w'.store[manifestKey base]? = some (.manifest m) ∧ m.files = update existing)
  := by
  induction attempts generalizing w with
  | zero => exact absurd rfl hattempts
  | succ attempts ih =>
      rw [casManifest, returns_bind]
      refine Returns.of_after ?_
      apply After.mono (readManifestVersioned_modifies o (fun _ => True) base w)
      rintro - w₁ - ⟨existing, eTag⟩
      simp only [newManifest, returns_bind, returns_outsideCall, returns_pure]
      refine Returns.mono (storePut_returns o _ _ _ _) ?_
      intro outcome w₂ hput
      split
      · rename_i u
        rw [returns_pure]
        refine ⟨_, _, hput rfl, rfl⟩
      · rw [returns_ite]
        constructor
        · intro _
          apply returns_bail
        · intro hne
          apply ih hne
      · rw [returns_ite]
        constructor
        · intro _
          apply returns_bail
        · intro hne
          apply ih hne
      · rw [returns_bind]
        refine Returns.mono (storePut_returns o _ _ _ _) ?_
        intro overwritten w₃ hput'
        cases overwritten with
        | ok u =>
            rw [orStoreError, returns_pure]
            refine ⟨_, _, hput' rfl, rfl⟩
        | error e => apply returns_bail
      · apply returns_bail

theorem storePut_keepsObjects {J : ObjectStore → Prop} {key : OPath} {obj : Obj} (mode : PutMode)
    (hput : ∀ store, J store → J (store.insert key obj)) :
  KeepsObjects J (storePut o key obj mode)
  := by
  apply KeepsObjects.bind (KeepsObjects.of_modifies (storeFault_modifies o _))
  intro fault
  cases fault with
  | some e => apply KeepsObjects.of_modifies (ModifiesOnly.pure _)
  | none =>
      intro w hJ
      rw [after_bind, after_get, resume_ok]
      cases putError o w.store key mode with
      | some e => apply hJ
      | none => exact hput _ hJ

/-- A manifest write keeps what every manifest with an updated list of files has. -/
theorem casManifest_keepsObjects {J : ObjectStore → Prop} {base : OPath}
    {update : List ManifestEntry → List ManifestEntry}
    (hput : ∀ store m existing, m.files = update existing → J store →
      J (store.insert (manifestKey base) (.manifest m)))
    (attempts : Nat) :
  KeepsObjects J (casManifest o base update attempts)
  := by
  induction attempts with
  | zero => apply KeepsObjects.of_modifies (ModifiesOnly.pure _)
  | succ attempts ih =>
      apply KeepsObjects.bind (KeepsObjects.of_modifies (readManifestVersioned_modifies o _ base))
      rintro ⟨existing, eTag⟩
      simp only [newManifest, bind_assoc, pure_bind]
      apply KeepsObjects.bind (KeepsObjects.of_modifies ModifiesOnly.outsideCall)
      intro n
      have hmanifest : ∀ mode, KeepsObjects J (storePut o (manifestKey base) (.manifest
          { snapshotId := o.uuid n, createdAtMs := o.now n
            files := update ((existing.map (·.files)).getD []) }) mode) := by
        intro mode
        apply storePut_keepsObjects
        intro store hJ
        apply hput store _ _ rfl hJ
      apply KeepsObjects.bind (hmanifest _)
      intro outcome
      split
      · apply KeepsObjects.of_modifies (ModifiesOnly.pure _)
      · apply KeepsObjects.ite
        · apply KeepsObjects.of_modifies (ModifiesOnly.bail _)
        · apply ih
      · apply KeepsObjects.ite
        · apply KeepsObjects.of_modifies (ModifiesOnly.bail _)
        · apply ih
      · apply KeepsObjects.bind (hmanifest _)
        intro overwritten
        apply KeepsObjects.of_modifies (orStoreError_modifies _ _)
      · apply KeepsObjects.of_modifies (ModifiesOnly.bail _)

/-- The keys a listing returns are those of objects below the listed path. -/
theorem storeList_returns (base : OPath) (w : World) :
  Returns (storeList o base) w (fun keys _ => ∀ key ∈ keys, base <+: key ∧ key ≠ base)
  := by
  simp only [storeList, returns_bind, storeFault, returns_outsideCall, returns_pure]
  split
  · simp
  · apply returns_bail
  · simp only [returns_bind, returns_get, returns_pure]
    intro key hkey
    obtain ⟨⟨key', obj⟩, hmem, rfl⟩ := List.mem_map.mp hkey
    exact (ObjectStore.mem_below.mp hmem).2

/-- The objects a vacuum of the table at `base` may delete. -/
def Vacuumable (base key : OPath) : Prop :=
  base <+: key ∧ isVacuumCandidate (key.drop base.length) = true

/-- A vacuum deletes Parquet files that the manifest does not list, and nothing else. -/
theorem after_vacuumOrphans (base : OPath) (w : World) :
  After (vacuumOrphans o base) w (fun _ w' => Frame (fun key => Vacuumable base key
    ∧ ∀ m, w.store[manifestKey base]? = some (.manifest m) →
      key.drop base.length ∉ m.files.map (·.path)) w w')
  := by
  rw [vacuumOrphans, after_bind]
  apply After.mono ((readManifest_modifies o _ base w).and (readManifest_returns o base w))
  rintro r w₁ ⟨hframe, hread⟩
  cases r with
  | error e => apply hframe
  | ok read =>
      cases read with
      | none => apply hframe
      | some m =>
          have hm := hread _ rfl m rfl
          rw [resume_ok, after_bind]
          apply After.mono ((storeList_modifies o _ base w₁).and (storeList_returns o base w₁))
          rintro r w₂ ⟨hframe', hkeys⟩
          cases r with
          | error e => apply hframe.trans hframe'
          | ok keys =>
              rw [resume_ok, after_bind]
              apply After.mono (deleteObjects_modifies o _ w₂)
              intro r w₃ hdelete
              have hdelete := hframe.trans (hframe'.trans (hdelete.mono (by
                intro key hkey
                obtain ⟨hmem, hcandidate⟩ := List.mem_filter.mp hkey
                rw [Bool.and_eq_true] at hcandidate
                obtain ⟨hcandidate, hlisted⟩ := hcandidate
                refine ⟨⟨(hkeys _ rfl key hmem).1, hcandidate⟩, ?_⟩
                intro m' hm'
                rw [hm] at hm'
                cases hm'
                simpa using hlisted)))
              cases r with
              | ok _ => apply hdelete
              | error e => apply hdelete

theorem vacuumOrphans_modifies (base : OPath) :
  ModifiesOnly (Vacuumable base) (vacuumOrphans o base)
  := by
  intro w
  apply After.mono (after_vacuumOrphans o base w)
  intro r w' hframe
  apply hframe.mono
  intro key hkey
  apply hkey.1

end

/-- The files the manifest of the table at `base` lists. -/
def manifestEntries (store : ObjectStore) (base : OPath) : List ManifestEntry :=
  match store[manifestKey base]? with
  | some (.manifest m) => m.files
  | _ => []

/-- A file that a vacuum may delete has the name of a Parquet file. -/
theorem getLast?_of_isVacuumCandidate {relative : OPath}
    (h : isVacuumCandidate relative = true) :
  ∃ fileName, relative.getLast? = some fileName ∧ isParquetName fileName = true
  := by
  unfold isVacuumCandidate at h
  split at h
  · rename_i fileName
    exact ⟨fileName, rfl, h⟩
  · rename_i fileName
    exact ⟨fileName, rfl, h⟩
  · cases h

/-- A vacuum deletes no manifest. -/
theorem not_vacuumable_manifestKey (base other : OPath) :
  ¬ Vacuumable base (manifestKey other)
  := by
  rintro ⟨⟨rest, hrest⟩, hcandidate⟩
  rw [← hrest, List.drop_left] at hcandidate
  obtain ⟨fileName, hlast, hparquet⟩ := getLast?_of_isVacuumCandidate hcandidate
  have hname : (manifestKey other).getLast? = some fileName := by
    rw [← hrest, List.getLast?_append, hlast]
    rfl
  have hmanifest : (manifestKey other).getLast? = some "manifest.json" := by
    simp [manifestKey, List.getLast?_append]
  rw [hmanifest] at hname
  cases hname
  revert hparquet
  decide

theorem manifestKey_inj {base other : OPath} (h : manifestKey base = manifestKey other) :
  base = other
  := List.append_cancel_right h

/-- The manifests whose keys are not touched list what they listed. -/
theorem Frame.entries_eq {touched : OPath → Prop} {w w' : World} {base : OPath}
    (h : Frame touched w w') (hkey : ¬ touched (manifestKey base)) :
  manifestEntries w'.store base = manifestEntries w.store base
  := by
  rw [manifestEntries, manifestEntries, h.store _ hkey]
