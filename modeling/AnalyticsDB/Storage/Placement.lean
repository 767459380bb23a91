import AnalyticsDB.Storage.Move

/-!
# Where the tables are

A placement says at which path each table is.  Moving the objects of one table, or those of
a whole directory, changes the placement; what is proved is that every table keeps its
objects, and that the tables stay at paths of which none lies below another.
-/

/-- Where things are: each at a path below which its objects are, or at none. -/
abbrev Placement (κ : Type) := κ → Option OPath

section

variable {κ : Type}

/-- No thing is at or below the path of another. -/
def Placement.Spread (p : Placement κ) : Prop :=
  ∀ i j a b, i ≠ j → p i = some a → p j = some b → Apart a b

/-- Whatever object a thing placed by `p` has in `store`, it has in `store'` when placed by
`p'`. -/
def Carried (p p' : Placement κ) (store store' : ObjectStore) : Prop :=
  ∀ i base, p i = some base → ∃ base', p' i = some base'
    ∧ ∀ rest obj, rest ≠ [] → store[base ++ rest]? = some obj → store'[base' ++ rest]? = some obj

theorem Carried.refl (p : Placement κ) (store : ObjectStore) :
  Carried p p store store
  := fun _ base hbase => ⟨base, hbase, fun _ _ _ h => h⟩

theorem Carried.trans {p₁ p₂ p₃ : Placement κ} {store₁ store₂ store₃ : ObjectStore}
    (h₁ : Carried p₁ p₂ store₁ store₂) (h₂ : Carried p₂ p₃ store₂ store₃) :
  Carried p₁ p₃ store₁ store₃
  := by
  intro i base hbase
  obtain ⟨base₂, hbase₂, hobjects₂⟩ := h₁ i base hbase
  obtain ⟨base₃, hbase₃, hobjects₃⟩ := h₂ i base₂ hbase₂
  use base₃, hbase₃
  intro rest obj hrest hobj
  apply hobjects₃ rest obj hrest
  apply hobjects₂ rest obj hrest hobj

/-! ### One thing moves -/

section

variable [DecidableEq κ] {p : Placement κ} {i : κ} {old new : OPath}
  (hnew : ∀ j base, p j = some base → Apart new base)

include hnew

theorem spread_update (hspread : p.Spread) :
  Placement.Spread (Function.update p i (some new))
  := by
  intro j k a b hne ha hb
  rw [Function.update_apply] at ha hb
  split at ha
  · cases ha
    split at hb
    · rename_i hj hk
      exact absurd (hj.trans hk.symm) hne
    · apply hnew k b hb
  · split at hb
    · cases hb
      apply (hnew j a ha).symm
    · apply hspread j k a b hne ha hb

theorem carried_update (hspread : p.Spread) (hold : p i = some old) {store store' : ObjectStore}
    (hmove : Relocated old new store store') :
  Carried p (Function.update p i (some new)) store store'
  := by
  intro j base hbase
  by_cases hj : j = i
  · subst hj
    rw [hold] at hbase
    cases hbase
    use new
    rw [Function.update_self]
    exact ⟨rfl, hmove.moved⟩
  · use base
    rw [Function.update_of_ne hj]
    refine ⟨hbase, ?_⟩
    intro rest obj hrest hobj
    rw [hmove.kept, hobj]
    · intro h
      exact absurd h ((hspread j i base old hj hbase hold).not_below (List.prefix_append _ _))
    · intro h
      exact absurd h ((hnew j base hbase).symm.not_below (List.prefix_append _ _))

end

/-! ### A directory moves -/

/-- The path of what was at `path` after the directory `old` is renamed to `new`. -/
def redirectPath (old new path : OPath) : OPath :=
  if old <+: path then new ++ path.drop old.length else path

theorem redirectPath_append (old new rest : OPath) :
  redirectPath old new (old ++ rest) = new ++ rest
  := by
  rw [redirectPath, if_pos (List.prefix_append _ _), List.drop_left]

theorem redirectPath_of_apart {old new path : OPath} (h : Apart path old) :
  redirectPath old new path = path
  := by
  rw [redirectPath, if_neg h.2]

/-- The placement after a directory is renamed. -/
def Placement.redirect (p : Placement κ) (old new : OPath) : Placement κ :=
  fun i => (p i).map (redirectPath old new)

section

variable {p : Placement κ} {old new : OPath}
  (hsides : ∀ i base, p i = some base → old <+: base ∨ Apart base old)

include hsides

theorem carried_redirect {store store' : ObjectStore} (hempty : store.below new = [])
    (hmove : Relocated old new store store') :
  Carried p (p.redirect old new) store store'
  := by
  intro i base hbase
  use redirectPath old new base
  constructor
  · rw [Placement.redirect, hbase]
    rfl
  · intro rest obj hrest hobj
    rcases hsides i base hbase with ⟨rest', rfl⟩ | hapart
    · rw [redirectPath_append, List.append_assoc]
      rw [List.append_assoc] at hobj
      apply hmove.moved _ obj _ hobj
      simp [hrest]
    · rw [redirectPath_of_apart hapart, hmove.kept, hobj]
      · intro h
        exact absurd h (hapart.not_below (List.prefix_append _ _))
      · intro h
        by_contra hne
        have hmem := ObjectStore.mem_below.mpr ⟨hobj, h, hne⟩
        rw [hempty] at hmem
        cases hmem

/-- The things stay apart when those that move with the directory arrive apart from the
others. -/
theorem spread_redirect (hspread : p.Spread)
    (harrive : ∀ i j a b, p i = some a → old <+: a → p j = some b → Apart b old →
      Apart (redirectPath old new a) b) :
  (p.redirect old new).Spread
  := by
  intro i j a' b' hne ha' hb'
  obtain ⟨a, ha, rfl⟩ := Option.map_eq_some_iff.mp ha'
  obtain ⟨b, hb, rfl⟩ := Option.map_eq_some_iff.mp hb'
  rcases hsides i a ha with hbelow | hapart
  · rcases hsides j b hb with hbelow' | hapart'
    · obtain ⟨rest, rfl⟩ := hbelow
      obtain ⟨rest', rfl⟩ := hbelow'
      have hrests := hspread i j _ _ hne ha hb
      rw [redirectPath_append, redirectPath_append]
      rw [Apart, List.prefix_append_right_inj, List.prefix_append_right_inj] at hrests ⊢
      apply hrests
    · rw [redirectPath_of_apart hapart']
      apply harrive i j a b ha hbelow hb hapart'
  · rw [redirectPath_of_apart hapart]
    rcases hsides j b hb with hbelow' | hapart'
    · apply (harrive j i b a hb hbelow' ha hapart).symm
    · rw [redirectPath_of_apart hapart']
      apply hspread i j a b hne ha hb

end

end
