import Std.Data.ExtTreeMap
import Mathlib.Algebra.Order.Ring.Nat
import Mathlib.Data.List.Nodup

/-!
# Objects

What the object store holds: Parquet files with their schema and rows, table manifests, and
the other objects of the system (index metadata).  An object path is the list of its
segments; the first segment names the store the path belongs to, so that one map holds the
objects of every store.
-/

/-- The Arrow types a column has. -/
inductive DataType where
  | boolean
  | int16
  | int32
  | int64
  | float32
  | float64
  | decimal128 (precision scale : Nat)
  | utf8
  | date32
  | timestampMicrosecond (zone : Option String)
  | other (name : String)
  deriving DecidableEq, Repr

/-- A non-null cell.  Floating-point values are their bit patterns. -/
inductive Value where
  | boolean (b : Bool)
  | integer (i : Int)
  | float (bits : UInt64)
  | decimal (unscaled : Int)
  | text (s : String)
  | date (days : Int)
  | timestamp (micros : Int)
  deriving DecidableEq

/-- A cell; `none` is NULL. -/
abbrev Cell := Option Value

/-- A row, one cell for each field of its schema. -/
abbrev Row := List Cell

structure ArrowField where
  name : String
  dataType : DataType
  nullable : Bool
  deriving DecidableEq, Repr

/-- A schema, or the rows of a record batch or of a Parquet file with their schema. -/
abbrev Schema := List ArrowField

structure RecordBatch where
  schema : Schema
  rows : List Row
  deriving DecidableEq

/-- The path of an object: the store it lives in, then the segments of its key. -/
abbrev OPath := List String

structure ManifestEntry where
  /-- Path relative to the table's path, such as `["data", "7f3a.parquet"]`. -/
  path : OPath
  size : Nat
  rowCount : Nat
  deriving DecidableEq

structure Manifest where
  snapshotId : String
  createdAtMs : Nat
  files : List ManifestEntry
  deriving DecidableEq

/-- An object: a Parquet file, a manifest, or anything else, with its bytes. -/
inductive Obj where
  | parquet (batch : RecordBatch)
  | manifest (m : Manifest)
  | other (bytes : String)
  deriving DecidableEq

/-- The objects of all stores, by path. -/
abbrev ObjectStore := Std.ExtTreeMap OPath Obj

namespace ObjectStore

variable (store : ObjectStore)

theorem get_insert (key other : OPath) (obj : Obj) :
  (store.insert key obj)[other]? = if key = other then some obj else store[other]?
  := by
  rw [Std.ExtTreeMap.getElem?_insert]
  simp only [Std.compare_eq_iff_eq]

theorem get_erase (key other : OPath) :
  (store.erase key)[other]? = if key = other then none else store[other]?
  := by
  rw [Std.ExtTreeMap.getElem?_erase]
  simp only [Std.compare_eq_iff_eq]

end ObjectStore

/-- The paths strictly below `base`, in order, with their objects. -/
def ObjectStore.below (store : ObjectStore) (base : OPath) : List (OPath × Obj) :=
  store.toList.filter (fun entry => base.isPrefixOf entry.1 && entry.1 != base)

theorem ObjectStore.mem_below {store : ObjectStore} {base key : OPath} {obj : Obj} :
  (key, obj) ∈ store.below base ↔ store[key]? = some obj ∧ base <+: key ∧ key ≠ base
  := by
  simp only [below, List.mem_filter, Std.ExtTreeMap.mem_toList_iff_getElem?_eq_some,
    Bool.and_eq_true, List.isPrefixOf_iff_prefix, bne_iff_ne]

theorem ObjectStore.mem_below_keys {store : ObjectStore} {base key : OPath} :
  key ∈ (store.below base).map (·.1)
    ↔ (store[key]?).isSome = true ∧ base <+: key ∧ key ≠ base
  := by
  rw [List.mem_map, Option.isSome_iff_exists]
  constructor
  · rintro ⟨⟨_, obj⟩, hmem, rfl⟩
    obtain ⟨hobj, hbelow⟩ := mem_below.mp hmem
    exact ⟨⟨obj, hobj⟩, hbelow⟩
  · rintro ⟨⟨obj, hobj⟩, hbelow⟩
    exact ⟨(key, obj), mem_below.mpr ⟨hobj, hbelow⟩, rfl⟩

theorem ObjectStore.nodup_below_keys (store : ObjectStore) (base : OPath) :
  ((store.below base).map (·.1)).Nodup
  := by
  have hkeys : (store.toList.map (·.1)).Nodup := by
    rw [Std.ExtTreeMap.map_fst_toList_eq_keys]
    apply Std.ExtTreeMap.nodup_keys
  refine List.Nodup.sublist ?_ hkeys
  apply List.Sublist.map
  apply List.filter_sublist

/-- Stores that agree on what is below a path have the same objects there. -/
theorem ObjectStore.below_congr {store store' : ObjectStore} {base : OPath}
    (h : ∀ key, base <+: key → store'[key]? = store[key]?) :
  store'.below base = store.below base
  := by
  have hfilter : store'.filter (fun key _ => base.isPrefixOf key && key != base)
      = store.filter (fun key _ => base.isPrefixOf key && key != base) := by
    apply Std.ExtTreeMap.ext_getElem?
    intro key
    rw [Std.ExtTreeMap.getElem?_filter', Std.ExtTreeMap.getElem?_filter']
    by_cases hkey : base <+: key
    · rw [h key hkey]
    · rw [← List.isPrefixOf_iff_prefix, Bool.not_eq_true] at hkey
      simp [hkey]
  have hlists := congrArg Std.ExtTreeMap.toList hfilter
  rw [Std.ExtTreeMap.toList_filter, Std.ExtTreeMap.toList_filter] at hlists
  exact hlists

theorem ObjectStore.below_eq_nil_iff {store : ObjectStore} {base : OPath} :
  store.below base = [] ↔ ∀ rest, rest ≠ [] → store[base ++ rest]? = none
  := by
  constructor
  · intro hempty rest hrest
    apply Option.eq_none_iff_forall_ne_some.mpr
    intro obj hobj
    have hmem := mem_below.mpr ⟨hobj, List.prefix_append _ _, by simpa using hrest⟩
    rw [hempty] at hmem
    cases hmem
  · intro hnone
    apply List.eq_nil_iff_forall_not_mem.mpr
    rintro ⟨key, obj⟩ hmem
    obtain ⟨hobj, ⟨rest, rfl⟩, hne⟩ := mem_below.mp hmem
    rw [hnone rest (by simpa using hne)] at hobj
    cases hobj

/-- The keys below a path continue it by distinct rests. -/
theorem ObjectStore.below_keys (store : ObjectStore) (base : OPath) :
  ∃ rests : List OPath, rests.Nodup
    ∧ (store.below base).map (·.1) = rests.map (base ++ ·)
    ∧ ∀ rest, rest ∈ rests ↔ rest ≠ [] ∧ (store[base ++ rest]?).isSome = true
  := by
  have hkeys : ((store.below base).map (·.1)).map (fun key => base ++ key.drop base.length)
      = (store.below base).map (·.1) := by
    rw [List.map_congr_left, List.map_id]
    intro key hkey
    exact (List.prefix_iff_eq_append.mp (mem_below_keys.mp hkey).2.1)
  have hrests : (store.below base).map (·.1)
      = (((store.below base).map (·.1)).map (·.drop base.length)).map (base ++ ·) := by
    rw [List.map_map]
    exact hkeys.symm
  refine ⟨((store.below base).map (·.1)).map (·.drop base.length), ?_, hrests, ?_⟩
  · apply List.Nodup.of_map (base ++ ·)
    rw [← hrests]
    apply nodup_below_keys
  · intro rest
    have hmem : rest ∈ ((store.below base).map (·.1)).map (·.drop base.length)
        ↔ base ++ rest ∈ (store.below base).map (·.1) := by
      nth_rewrite 2 [hrests]
      rw [List.mem_map_of_injective (List.append_right_injective base)]
    rw [hmem, mem_below_keys]
    simp [and_comm]
