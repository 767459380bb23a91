import AnalyticsDB.Lib.Run
import Mathlib.Data.List.Induction
import Std.Data.ExtTreeMap

/-!
# Replaying a log

A log of operations is replayed over a state in which some of them, or all, were performed
before.  An operation that overwrites what it changes takes away what it did before, whatever was
done in between; a log of such operations may be replayed as a whole.  The operations that put,
delete and modify one entry of a map are of this kind as long as the modifications of an entry
overwrite each other.
-/

namespace Replay

open Run

variable {σ Op : Type} {step : Op → σ → σ}

@[simp]
theorem performAll_nil (s : σ) : performAll step [] s = s := rfl

@[simp]
theorem performAll_cons (op : Op) (ops : List Op) (s : σ) :
  performAll step (op :: ops) s = performAll step ops (step op s)
  := rfl

theorem performAll_append (ops ops' : List Op) (s : σ) :
  performAll step (ops ++ ops') s = performAll step ops' (performAll step ops s)
  := List.foldl_append

/-- Performing `op` a second time, after `op'`, gives what performing it once, after `op'`,
gives. -/
def Overwrites (step : Op → σ → σ) (op op' : Op) : Prop :=
  ∀ s, step op (step op' (step op s)) = step op (step op' s)

/-- An operation that overwrites each operation of a list overwrites the list. -/
theorem Overwrites.performAll {op : Op} {ops : List Op}
    (h : ∀ op' ∈ ops, Overwrites step op op') (hself : ∀ s, step op (step op s) = step op s)
    (s : σ) :
  step op (performAll step ops (step op s)) = step op (performAll step ops s)
  := by
  induction ops using List.reverseRecOn with
  | nil => apply hself
  | append_singleton ops op' ih =>
      have hlast := h op' (by simp)
      have hrest := ih (fun op'' hop'' => h op'' (by simp [hop'']))
      simp only [performAll_append, performAll_cons, performAll_nil]
      -- The last operation before `op` is overwritten by it, so `op` may be put in before it.
      rw [← hlast (Run.performAll step ops (step op s)), hrest, hlast]

/-- A log of operations that overwrite each other may be replayed over the state it has made. -/
theorem performAll_idem {ops : List Op}
    (h : ∀ op ∈ ops, ∀ op' ∈ ops, Overwrites step op op')
    (hself : ∀ op ∈ ops, ∀ s, step op (step op s) = step op s) (s : σ) :
  performAll step ops (performAll step ops s) = performAll step ops s
  := by
  induction ops using List.reverseRecOn generalizing s with
  | nil => rfl
  | append_singleton ops op ih =>
      have hops := ih (fun op₁ h₁ op₂ h₂ => h op₁ (by simp [h₁]) op₂ (by simp [h₂]))
        (fun op' hop' => hself op' (by simp [hop']))
      simp only [performAll_append, performAll_cons, performAll_nil]
      rw [Overwrites.performAll (fun op' hop' => h op (by simp) op' (by simp [hop']))
        (hself op (by simp)), hops]

/-! ### Changes of one entry of a map -/

/-- A change of one entry of a map: the entry is put or deleted, or modified where there is
one. -/
inductive Change (β : Type) where
  | put (value : Option β)
  | modify (f : β → β)

section

variable {κ β : Type} [Ord κ] [Std.TransOrd κ] [Std.LawfulEqOrd κ] [DecidableEq κ]

/-- The entry after a change. -/
def Change.entry : Change β → Option β → Option β
  | .put value, _ => value
  | .modify f, value => value.map f

/-- The map after a change of the entry of a key. -/
def Change.perform (key : κ) (map : Std.ExtTreeMap κ β) : Change β → Std.ExtTreeMap κ β
  | .put (some value) => map.insert key value
  | .put none => map.erase key
  | .modify f => map.modify key f

theorem Change.get_perform (key k : κ) (map : Std.ExtTreeMap κ β) (change : Change β) :
  (change.perform key map)[k]? = if key = k then change.entry map[k]? else map[k]?
  := by
  match change with
  | .put (some value) =>
      simp only [perform, entry, Std.ExtTreeMap.getElem?_insert, Std.compare_eq_iff_eq]
  | .put none =>
      simp only [perform, entry, Std.ExtTreeMap.getElem?_erase, Std.compare_eq_iff_eq]
  | .modify f =>
      simp only [perform, entry, Std.ExtTreeMap.getElem?_modify, Std.compare_eq_iff_eq]
      split
      · rename_i hkey
        rw [hkey]
      · rfl

/-- A change that overwrites another change of the same entry, when it comes after it. -/
def Change.Absorbs (change change' : Change β) : Prop :=
  ∀ value, change.entry (change'.entry (change.entry value)) = change.entry (change'.entry value)

theorem Change.put_absorbs (value : Option β) (change : Change β) : (put value).Absorbs change
  := fun _ => rfl

theorem Change.absorbs_put (value : Option β) (change : Change β) : change.Absorbs (put value)
  := fun _ => rfl

theorem Change.modify_absorbs {f g : β → β} (h : ∀ b, f (g (f b)) = f (g b)) :
  (modify f).Absorbs (modify g)
  := by
  intro value
  cases value with
  | none => rfl
  | some b => simp [entry, h]

/-- A change that absorbs the changes of its own entry overwrites the changes of every entry. -/
theorem Change.perform_absorbs {change change' : Change β} {key key' : κ}
    (hself : ∀ value, change.entry (change.entry value) = change.entry value)
    (h : change.Absorbs change') (map : Std.ExtTreeMap κ β) :
  change.perform key (change'.perform key' (change.perform key map))
    = change.perform key (change'.perform key' map)
  := by
  apply Std.ExtTreeMap.ext_getElem?
  intro k
  simp only [Change.get_perform]
  by_cases hkey : key = k
  · subst hkey
    by_cases hkey' : key' = key
    · simp only [hkey', if_true]
      apply h
    · simp only [hkey', if_true, if_false]
      apply hself
  · simp only [hkey, if_false]

theorem Change.perform_idem {change : Change β}
    (hself : ∀ value, change.entry (change.entry value) = change.entry value) (key : κ)
    (map : Std.ExtTreeMap κ β) :
  change.perform key (change.perform key map) = change.perform key map
  := by
  apply Std.ExtTreeMap.ext_getElem?
  intro k
  simp only [Change.get_perform]
  by_cases hkey : key = k
  · simp only [hkey, if_true]
    apply hself
  · simp only [hkey, if_false]

end

end Replay
