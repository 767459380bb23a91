import Mathlib.Data.Finset.Card
import Mathlib.Data.List.Dedup
import Mathlib.Data.List.Perm.Basic

/-!
# Grouping in two phases

The rows of a list in groups of equal keys, and a summary for each group.  The rows may be given
in parts: the groups of each part are summarized, the summaries are grouped by their keys, and
each of these groups is summarized again.  When the second summary of the first ones is the
summary of the rows together, the result is that of grouping all rows at once, in some order.
-/

namespace Grouping

variable {ρ ω κ α : Type} [DecidableEq κ]

/-- The rows in groups of equal keys. -/
def groups (key : ρ → κ) (rows : List ρ) : List (List ρ) :=
  (rows.map key).dedup.map (fun k => rows.filter (key · = k))

variable {key : ρ → κ} {rows : List ρ}

theorem mem_groups {group : List ρ} :
  group ∈ groups key rows ↔ ∃ row ∈ rows, group = rows.filter (key · = key row)
  := by
  simp only [groups, List.mem_map, List.mem_dedup]
  constructor
  · rintro ⟨k, ⟨row, hrow, rfl⟩, rfl⟩
    exact ⟨row, hrow, rfl⟩
  · rintro ⟨row, hrow, rfl⟩
    exact ⟨key row, ⟨row, hrow, rfl⟩, rfl⟩

/-- A group is not empty, and its rows have one key. -/
theorem exists_key_of_mem_groups {group : List ρ} (h : group ∈ groups key rows) :
  group ≠ [] ∧ ∃ k, ∀ row ∈ group, key row = k
  := by
  obtain ⟨row, hrow, rfl⟩ := mem_groups.mp h
  constructor
  · apply List.ne_nil_of_mem (a := row)
    simp [hrow]
  · use key row
    simp

theorem key_of_mem_filter {k : κ} {row : ρ} (h : row ∈ rows.filter (key · = k)) : key row = k
  := by
  simpa using (List.mem_filter.mp h).2

/-- Keys that tell the same rows apart give the same groups. -/
theorem groups_congr {μ : Type} [DecidableEq μ] {other : ρ → μ}
    (h : ∀ x ∈ rows, ∀ y ∈ rows, key x = key y ↔ other x = other y) :
  groups key rows = groups other rows
  := by
  -- The keys are those of some of the rows, the groups are of all of them.
  suffices hsome : ∀ some ⊆ rows,
      (some.map key).dedup.map (fun k => rows.filter (key · = k))
        = (some.map other).dedup.map (fun k => rows.filter (other · = k)) from
    hsome rows (List.Subset.refl rows)
  intro some
  induction some with
  | nil =>
      intro _
      rfl
  | cons x some ih =>
      intro hsubset
      have hx : x ∈ rows := hsubset List.mem_cons_self
      have hrest : some ⊆ rows := fun y hy => hsubset (List.mem_cons_of_mem x hy)
      have hmem : key x ∈ some.map key ↔ other x ∈ some.map other := by
        simp only [List.mem_map]
        constructor
        · rintro ⟨y, hy, heq⟩
          exact ⟨y, hy, (h y (hrest hy) x hx).mp heq⟩
        · rintro ⟨y, hy, heq⟩
          exact ⟨y, hy, (h y (hrest hy) x hx).mpr heq⟩
      have hfilter : rows.filter (key · = key x) = rows.filter (other · = other x) := by
        apply List.filter_congr
        intro y hy
        simp [h y hy x hx]
      rw [List.map_cons, List.map_cons]
      by_cases hk : key x ∈ some.map key
      · rw [List.dedup_cons_of_mem hk, List.dedup_cons_of_mem (hmem.mp hk), ih hrest]
      · rw [List.dedup_cons_of_notMem hk, List.dedup_cons_of_notMem (mt hmem.mpr hk),
          List.map_cons, List.map_cons, ih hrest, hfilter]

/-- Keys that are coarser and give as many groups are not coarser. -/
theorem key_eq_of_length {μ : Type} [DecidableEq μ] {other : ρ → μ}
    (hcoarse : ∀ x ∈ rows, ∀ y ∈ rows, key x = key y → other x = other y)
    (hlength : (rows.map key).dedup.length = (rows.map other).dedup.length) :
  ∀ x ∈ rows, ∀ y ∈ rows, other x = other y → key x = key y
  := by
  -- The coarser key as a function of the finer one.
  let coarse : κ → Option μ := fun k => (rows.find? (key · = k)).map other
  have hcoarse' : ∀ x ∈ rows, coarse (key x) = some (other x) := by
    intro x hx
    have hsome : (rows.find? (key · = key x)).isSome := by
      apply List.find?_isSome.mpr
      exact ⟨x, hx, by simp⟩
    obtain ⟨y, hy⟩ := Option.isSome_iff_exists.mp hsome
    have hkey : key y = key x := by simpa using List.find?_some hy
    simp only [coarse, hy, Option.map_some]
    rw [hcoarse y (List.mem_of_find?_eq_some hy) x hx hkey]
  have himage : (rows.map key).toFinset.image coarse = (rows.map other).toFinset.image some := by
    ext k
    simp only [Finset.mem_image, List.mem_toFinset, List.mem_map]
    constructor
    · rintro ⟨_, ⟨x, hx, rfl⟩, rfl⟩
      exact ⟨_, ⟨x, hx, rfl⟩, (hcoarse' x hx).symm⟩
    · rintro ⟨_, ⟨x, hx, rfl⟩, rfl⟩
      exact ⟨_, ⟨x, hx, rfl⟩, hcoarse' x hx⟩
  have hinj : Set.InjOn coarse (rows.map key).toFinset := by
    apply Finset.card_image_iff.mp
    rw [himage, Finset.card_image_of_injective _ (Option.some_injective μ), List.card_toFinset,
      List.card_toFinset, hlength]
  intro x hx y hy heq
  apply hinj
  · simpa using ⟨x, hx, rfl⟩
  · simpa using ⟨y, hy, rfl⟩
  · rw [hcoarse' x hx, hcoarse' y hy, heq]

theorem length_groups : (groups key rows).length = (rows.map key).dedup.length
  := List.length_map _

section TwoPhases

variable {key' : ω → κ} {partSummary : List ρ → ω} {merge : List ω → α} {summary : List ρ → α}

/-- The summaries of the groups of each part. -/
def partSummaries (key : ρ → κ) (partSummary : List ρ → ω) (parts : List (List ρ)) : List ω :=
  parts.flatMap (fun part => (groups key part).map partSummary)

/-- The keys of the summaries of a part are the keys of its rows. -/
theorem map_key_groups (part : List ρ)
    (hkey : ∀ group k, group ≠ [] → (∀ row ∈ group, key row = k) → key' (partSummary group) = k) :
  ((groups key part).map partSummary).map key' = (part.map key).dedup
  := by
  rw [groups, List.map_map, List.map_map]
  conv_rhs => rw [← List.map_id (part.map key).dedup]
  apply List.map_congr_left
  intro k hk
  obtain ⟨row, hrow, rfl⟩ := List.mem_map.mp (List.mem_dedup.mp hk)
  apply hkey
  · apply List.ne_nil_of_mem (a := row)
    simp [hrow]
  · intro other hother
    exact key_of_mem_filter hother

/-- Of the summaries of a part, those of a key are the one of the rows of the key, if there are
any. -/
theorem filter_partSummary (part : List ρ) (k : κ)
    (hkey : ∀ group k, group ≠ [] → (∀ row ∈ group, key row = k) → key' (partSummary group) = k) :
  ((groups key part).map partSummary).filter (key' · = k)
    = if k ∈ part.map key then [partSummary (part.filter (key · = k))] else []
  := by
  have hkeys : ∀ k' ∈ (part.map key).dedup,
      key' (partSummary (part.filter (key · = k'))) = k' := by
    intro k' hk'
    obtain ⟨row, hrow, rfl⟩ := List.mem_map.mp (List.mem_dedup.mp hk')
    apply hkey
    · apply List.ne_nil_of_mem (a := row)
      simp [hrow]
    · intro other hother
      exact key_of_mem_filter hother
  have hfilter : (part.map key).dedup.filter
        ((fun w => decide (key' w = k)) ∘ partSummary ∘ (fun k' => part.filter (key · = k')))
      = (part.map key).dedup.filter (· = k) := by
    apply List.filter_congr
    intro k' hk'
    simp [hkeys k' hk']
  rw [groups, List.map_map, List.filter_map, hfilter]
  split
  · rename_i hmem
    rw [List.filter_eq, List.count_eq_one_of_mem (List.nodup_dedup _) (List.mem_dedup.mpr hmem)]
    rfl
  · rename_i hmem
    rw [List.filter_eq_nil_iff.mpr]
    · rfl
    · intro k' hk' heq
      apply hmem
      simpa [of_decide_eq_true heq] using hk'

/-- The keys of the summaries of the parts are the keys of all rows. -/
theorem dedup_keys_perm (parts : List (List ρ))
    (hkey : ∀ group k, group ≠ [] → (∀ row ∈ group, key row = k) → key' (partSummary group) = k) :
  ((partSummaries key partSummary parts).map key').dedup.Perm (parts.flatten.map key).dedup
  := by
  apply (List.perm_ext_iff_of_nodup (List.nodup_dedup _) (List.nodup_dedup _)).mpr
  intro k
  have hpart : ∀ part, k ∈ ((groups key part).map partSummary).map key' ↔ k ∈ part.map key := by
    intro part
    rw [map_key_groups part hkey, List.mem_dedup]
  simp only [List.mem_dedup, partSummaries, List.map_flatMap, List.mem_flatMap, hpart,
    List.map_flatten, List.mem_flatten, List.mem_map]
  constructor
  · rintro ⟨part, hmem, row, hrow, rfl⟩
    exact ⟨_, ⟨part, hmem, rfl⟩, List.mem_map_of_mem hrow⟩
  · rintro ⟨_, ⟨part, hmem, rfl⟩, hk⟩
    exact ⟨part, hmem, List.mem_map.mp hk⟩

/-- The summaries of a key are those of its rows in the parts that have some. -/
theorem filter_partSummaries (parts : List (List ρ)) (k : κ)
    (hkey : ∀ group k, group ≠ [] → (∀ row ∈ group, key row = k) → key' (partSummary group) = k) :
  (partSummaries key partSummary parts).filter (key' · = k)
    = ((parts.map (·.filter (key · = k))).filter (· ≠ [])).map partSummary
  := by
  induction parts with
  | nil => rfl
  | cons part parts ih =>
      rw [partSummaries, List.flatMap_cons, List.filter_append, filter_partSummary part k hkey,
        List.map_cons, List.filter_cons]
      rw [partSummaries] at ih
      rw [ih]
      by_cases hmem : k ∈ part.map key
      · have hne : part.filter (key · = k) ≠ [] := by
          obtain ⟨row, hrow, rfl⟩ := List.mem_map.mp hmem
          apply List.ne_nil_of_mem (a := row)
          simp [hrow]
        simp [hmem, hne]
      · have hnil : part.filter (key · = k) = [] := by
          rw [List.filter_eq_nil_iff]
          intro row hrow heq
          exact hmem (List.mem_map.mpr ⟨row, hrow, of_decide_eq_true heq⟩)
        simp [hmem, hnil]

/-- Grouping in two phases is grouping at once, in some order. -/
theorem twoPhase_perm (parts : List (List ρ))
    (hkey : ∀ group k, group ≠ [] → (∀ row ∈ group, key row = k) → key' (partSummary group) = k)
    (hmerge : ∀ chunks : List (List ρ), chunks ≠ [] → (∀ chunk ∈ chunks, chunk ≠ []) →
      (∃ k, ∀ row ∈ chunks.flatten, key row = k) →
      merge (chunks.map partSummary) = summary chunks.flatten) :
  ((groups key' (partSummaries key partSummary parts)).map merge).Perm
    ((groups key parts.flatten).map summary)
  := by
  rw [groups, groups, List.map_map, List.map_map]
  have hsame : ∀ k ∈ (parts.flatten.map key).dedup,
      (merge ∘ fun k => (partSummaries key partSummary parts).filter (key' · = k)) k
        = (summary ∘ fun k => parts.flatten.filter (key · = k)) k := by
    intro k hk
    have hflatten : ((parts.map (·.filter (key · = k))).filter (· ≠ [])).flatten
        = parts.flatten.filter (key · = k) := by
      rw [List.filter_flatten]
      exact List.flatten_filter_ne_nil
    dsimp only [Function.comp]
    rw [filter_partSummaries parts k hkey, hmerge, hflatten]
    · intro hnil
      rw [hnil] at hflatten
      obtain ⟨row, hrow, rfl⟩ := List.mem_map.mp (List.mem_dedup.mp hk)
      have : row ∈ parts.flatten.filter (key · = key row) :=
        List.mem_filter.mpr ⟨hrow, by simp⟩
      rw [← hflatten] at this
      simp at this
    · intro chunk hchunk
      simpa using (List.mem_filter.mp hchunk).2
    · use k
      rw [hflatten]
      intro row hrow
      exact key_of_mem_filter hrow
  apply ((dedup_keys_perm parts hkey).map _).trans
  rw [List.map_congr_left hsame]

end TwoPhases

end Grouping
