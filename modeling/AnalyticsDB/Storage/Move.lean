import AnalyticsDB.Control.Databases
import AnalyticsDB.Storage.Success

/-!
# Moving the objects of a table

A table moves to another path object by object: each is copied and then deleted.  What is
proved is where the objects are after a move during which no call fails, provided that
neither of the two paths lies below the other.
-/

section

variable (o : Outside)

/-- Copy an object. -/
def storeCopy (source target : OPath) : Op Unit := do
  match ← storeFault o with
  | some e => bail e.message
  | none =>
    let w ← get
    match w.store[source]? with
    | none => bail OsError.notFound.message
    | some obj => set { w with store := w.store.insert target obj }

/-- Copy objects to other keys and delete the originals, one after the other. -/
def moveObjects : List (OPath × OPath) → Op Unit
  | [] => pure ()
  | (source, target) :: moves => do
    storeCopy o source target
    storeDelete o source
    moveObjects moves

/-- Move the objects below `old` to the corresponding keys below `new`, in the store of
`old`. -/
def renamePrefix (old new : OPath) : Op Unit := do
  let keys ← storeList o old
  moveObjects o (keys.map (fun key => (key, old.take 1 ++ new.drop 1 ++ key.drop old.length)))

/-- Delete the objects below a path. -/
def deletePrefix (base : OPath) : Op Unit := do
  let keys ← storeList o base
  deleteObjects o keys

end

theorem storeCopy_modifies (o : Outside) (source target : OPath) :
  ModifiesOnly (· = target) (storeCopy o source target)
  := by
  apply ModifiesOnly.bind (storeFault_modifies o _)
  intro fault
  cases fault with
  | some e => apply ModifiesOnly.bail
  | none =>
      intro w
      dsimp only
      rw [Eff.after_bind, Eff.after_get, Eff.resume_ok]
      split
      · apply Frame.refl
      · refine ⟨Nat.le_refl _, rfl, rfl, rfl, ?_⟩
        intro key hkey
        rw [Eff.exec_set]
        exact (ObjectStore.get_insert _ _ _ _).trans (if_neg (Ne.symm hkey))

theorem moveObjects_modifies (o : Outside) (moves : List (OPath × OPath)) :
  ModifiesOnly (fun key => ∃ move ∈ moves, key = move.1 ∨ key = move.2) (moveObjects o moves)
  := by
  induction moves with
  | nil => apply ModifiesOnly.pure
  | cons move moves ih =>
      apply ModifiesOnly.bind
      · apply (storeCopy_modifies o move.1 move.2).mono
        rintro key rfl
        exact ⟨move, List.mem_cons_self, .inr rfl⟩
      · intro _
        apply ModifiesOnly.bind
        · apply (storeDelete_modifies o move.1).mono
          rintro key rfl
          exact ⟨move, List.mem_cons_self, .inl rfl⟩
        · intro _
          apply ih.mono
          rintro key ⟨other, hother, hkey⟩
          exact ⟨other, List.mem_cons_of_mem _ hother, hkey⟩

/-- A move of a table touches what is below its old path and below its new one, in the store of
the old one. -/
theorem renamePrefix_modifies (o : Outside) (old new : OPath) :
  ModifiesOnly (fun key => old <+: key ∨ old.take 1 ++ new.drop 1 <+: key)
    (renamePrefix o old new)
  := by
  intro w
  rw [renamePrefix, Eff.after_bind]
  apply Eff.After.mono ((storeList_modifies o _ old w).and (storeList_returns o old w))
  rintro r w₁ ⟨hframe, hkeys⟩
  cases r with
  | error e => exact hframe
  | ok keys =>
      rw [Eff.resume_ok]
      apply Eff.After.mono (moveObjects_modifies o _ w₁)
      intro r w₂ hmoved
      apply hframe.trans
      apply hmoved.mono
      rintro key ⟨move, hmove, hkey⟩
      obtain ⟨source, hsource, rfl⟩ := List.mem_map.mp hmove
      obtain hkey | hkey := hkey
      · rw [hkey]
        exact .inl (hkeys keys rfl source hsource).1
      · rw [hkey]
        exact .inr (List.prefix_append _ _)

theorem deletePrefix_modifies (o : Outside) (base : OPath) :
  ModifiesOnly (base <+: ·) (deletePrefix o base)
  := by
  intro w
  rw [deletePrefix, Eff.after_bind]
  apply Eff.After.mono ((storeList_modifies o _ base w).and (storeList_returns o base w))
  rintro r w₁ ⟨hframe, hkeys⟩
  cases r with
  | error e => exact hframe
  | ok keys =>
      rw [Eff.resume_ok]
      apply Eff.After.mono (deleteObjects_modifies o keys w₁)
      intro r w₂ hdelete
      apply hframe.trans
      apply hdelete.mono
      intro key hkey
      exact (hkeys keys rfl key hkey).1

/-! ### Paths of which neither lies below the other -/

/-- Neither of two paths is below the other. -/
def Apart (a b : OPath) : Prop := ¬ a <+: b ∧ ¬ b <+: a

theorem Apart.symm {a b : OPath} (h : Apart a b) :
  Apart b a
  := ⟨h.2, h.1⟩

/-- What is below one of two paths apart is not below the other. -/
theorem Apart.not_below {a b key : OPath} (h : Apart a b) (ha : a <+: key) :
  ¬ b <+: key
  := by
  intro hb
  rcases List.prefix_or_prefix_of_prefix ha hb with hab | hba
  · apply h.1 hab
  · apply h.2 hba

/-- The objects below `old` are below `new`, what was below `new` and is not among them is
still there, and all others are as they were. -/
structure Relocated (old new : OPath) (store store' : ObjectStore) : Prop where
  moved : ∀ rest obj, rest ≠ [] → store[old ++ rest]? = some obj →
    store'[new ++ rest]? = some obj
  left : ∀ rest, rest ≠ [] → store[old ++ rest]? = none →
    store'[new ++ rest]? = store[new ++ rest]?
  kept : ∀ key, (old <+: key → key = old) → (new <+: key → key = new) →
    store'[key]? = store[key]?

section

open Eff

variable {o : Outside} (hstore : ∀ n, o.storeError n = none)

include hstore

theorem storeCopy_succeeds {source target : OPath} {obj : Obj} {w : World}
    (hobj : w.store[source]? = some obj) :
  Succeeds (storeCopy o source target) w (fun _ w' =>
    w'.store = w.store.insert target obj ∧ w'.catalog = w.catalog)
  := by
  rw [storeCopy, succeeds_bind, succeeds_storeFault hstore]
  dsimp only
  rw [succeeds_bind, succeeds_get]
  simp only [hobj]
  exact ⟨_, rfl, rfl, rfl⟩

/-- Moving the objects with distinct relative keys `rests` from below `old` to below
`new`. -/
theorem moveObjects_succeeds {old new : OPath} (hapart : Apart old new) {rests : List OPath}
    (hnodup : rests.Nodup) {w : World}
    (hthere : ∀ rest ∈ rests, (w.store[old ++ rest]?).isSome = true) :
  Succeeds (moveObjects o (rests.map (fun rest => (old ++ rest, new ++ rest)))) w (fun _ w' =>
    w'.catalog = w.catalog
      ∧ (∀ rest ∈ rests, w'.store[new ++ rest]? = w.store[old ++ rest]?)
      ∧ ∀ key, (∀ rest ∈ rests, key ≠ old ++ rest ∧ key ≠ new ++ rest) →
        w'.store[key]? = w.store[key]?)
  := by
  have hne : ∀ rest rest', old ++ rest ≠ new ++ rest' := by
    intro rest rest' h
    apply hapart.not_below (List.prefix_append old rest)
    rw [h]
    apply List.prefix_append
  induction rests generalizing w with
  | nil => simp [moveObjects]
  | cons rest rests ih =>
      rw [List.nodup_cons] at hnodup
      rw [List.forall_mem_cons] at hthere
      obtain ⟨obj, hobj⟩ := Option.isSome_iff_exists.mp hthere.1
      rw [List.map_cons, moveObjects, succeeds_bind]
      refine Succeeds.mono (storeCopy_succeeds hstore hobj) ?_
      rintro _ w₁ ⟨hw₁, hcatalog₁⟩
      rw [succeeds_bind]
      refine Succeeds.mono ((storeDelete_succeeds hstore _ w₁).with_after
        (storeDelete_modifies o _ w₁)) ?_
      rintro _ w₂ ⟨hw₂, hframe⟩
      have hother : ∀ key, key ≠ old ++ rest → key ≠ new ++ rest →
          w₂.store[key]? = w.store[key]? := by
        intro key hold hnew
        rw [hw₂, ObjectStore.get_erase, if_neg hold.symm, hw₁, ObjectStore.get_insert,
          if_neg hnew.symm]
      have hdistinct : ∀ rest' ∈ rests, rest' ≠ rest := by
        rintro rest' hrest' rfl
        apply hnodup.1 hrest'
      have hkept : ∀ rest' ∈ rests, w₂.store[old ++ rest']? = w.store[old ++ rest']? := by
        intro rest' hrest'
        apply hother
        · intro h
          apply hdistinct rest' hrest' (List.append_cancel_left h)
        · apply hne
      refine Succeeds.mono (ih hnodup.2 ?_) ?_
      · intro rest' hrest'
        rw [hkept rest' hrest']
        apply hthere.2 rest' hrest'
      · rintro _ w₃ ⟨hcatalog₃, hmoved, hothers⟩
        refine ⟨?_, ?_, ?_⟩
        · rw [hcatalog₃, hframe.catalog, hcatalog₁]
        · rw [List.forall_mem_cons]
          constructor
          · rw [hothers, hw₂, ObjectStore.get_erase, if_neg (hne _ _), hw₁,
              ObjectStore.get_insert, if_pos rfl, hobj]
            intro rest' hrest'
            constructor
            · apply (hne _ _).symm
            · intro h
              apply hdistinct rest' hrest' (List.append_cancel_left h).symm
          · intro rest' hrest'
            rw [hmoved rest' hrest', hkept rest' hrest']
        · intro key hkey
          rw [List.forall_mem_cons] at hkey
          rw [hothers key hkey.2, hother key hkey.1.1 hkey.1.2]

/-- Moving a table between two paths apart of one store. -/
theorem renamePrefix_succeeds {old new : OPath} (hapart : Apart old new)
    (hsame : old.take 1 = new.take 1) (w : World) :
  Succeeds (renamePrefix o old new) w (fun _ w' =>
    w'.catalog = w.catalog ∧ Relocated old new w.store w'.store)
  := by
  obtain ⟨rests, hnodup, hkeys, hrests⟩ := ObjectStore.below_keys w.store old
  rw [renamePrefix, succeeds_bind]
  refine Succeeds.mono ((storeList_succeeds hstore old w).with_after
    (storeList_modifies o (fun _ => False) old w)) ?_
  rintro keys w₁ ⟨⟨rfl, hw₁⟩, hframe⟩
  have hmoves : ((w.store.below old).map (·.1)).map
        (fun key => (key, old.take 1 ++ new.drop 1 ++ key.drop old.length))
      = rests.map (fun rest => (old ++ rest, new ++ rest)) := by
    rw [hkeys, List.map_map, hsame, List.take_append_drop]
    apply List.map_congr_left
    intro rest _
    simp
  rw [hmoves]
  refine Succeeds.mono (moveObjects_succeeds hstore hapart hnodup ?_) ?_
  · intro rest hrest
    rw [hw₁]
    apply ((hrests rest).mp hrest).2
  · rintro _ w₂ ⟨hcatalog, hmoved, hothers⟩
    rw [hw₁] at hmoved hothers
    refine ⟨hcatalog.trans hframe.catalog, ?_, ?_, ?_⟩
    · intro rest obj hne hobj
      rw [hmoved rest, hobj]
      rw [hrests, hobj]
      exact ⟨hne, rfl⟩
    · intro rest hne hnone
      apply hothers
      intro rest' hrest'
      constructor
      · intro h
        apply hapart.not_below (List.prefix_append old rest')
        rw [← h]
        apply List.prefix_append
      · intro h
        obtain rfl := List.append_cancel_left h
        have hsome := ((hrests rest).mp hrest').2
        rw [hnone] at hsome
        cases hsome
    · intro key hold hnew
      apply hothers
      intro rest hrest
      have hne := ((hrests rest).mp hrest).1
      constructor
      · rintro rfl
        apply hne (List.append_right_eq_self.mp (hold (List.prefix_append _ _)))
      · rintro rfl
        apply hne (List.append_right_eq_self.mp (hnew (List.prefix_append _ _)))

/-- Nothing is left below a path that was deleted. -/
theorem deletePrefix_succeeds (base : OPath) (w : World) :
  Succeeds (deletePrefix o base) w (fun _ w' => ∀ key, base <+: key → key ≠ base →
    w'.store[key]? = none)
  := by
  rw [deletePrefix, succeeds_bind]
  refine Succeeds.mono (storeList_succeeds hstore base w) ?_
  rintro _ w₁ ⟨rfl, hw₁⟩
  refine Succeeds.mono (deleteObjects_succeeds hstore _ w₁) ?_
  intro _ w₂ hdeleted key hbelow hne
  rw [hdeleted, hw₁]
  split
  · rfl
  · rename_i hkeys
    rw [ObjectStore.mem_below_keys] at hkeys
    cases hobj : w.store[key]? with
    | none => rfl
    | some obj => exact absurd ⟨by rw [hobj]; rfl, hbelow, hne⟩ hkeys

/-- Moving a table that has no objects changes nothing. -/
theorem renamePrefix_empty {old new : OPath} {w : World} (hempty : w.store.below old = []) :
  Succeeds (renamePrefix o old new) w (fun _ w' =>
    w'.catalog = w.catalog ∧ w'.store = w.store)
  := by
  rw [renamePrefix, succeeds_bind]
  refine Succeeds.mono ((storeList_succeeds hstore old w).with_after
    (storeList_modifies o (fun _ => False) old w)) ?_
  rintro keys w₁ ⟨⟨rfl, hw₁⟩, hframe⟩
  rw [hempty, List.map_nil, List.map_nil, moveObjects, succeeds_pure]
  exact ⟨hframe.catalog, hw₁⟩

end

/-! ### Renaming a directory -/

/-- Objects with distinct keys moved from below `old` to below `new`, one after the other. -/
theorem foldl_moveDirectory {old new : OPath} (hapart : Apart old new)
    {entries : List (OPath × Obj)} (hbelow : ∀ entry ∈ entries, old <+: entry.1)
    (hnodup : (entries.map (·.1)).Nodup) (store : ObjectStore) :
  let store' := entries.foldl
    (fun store entry => (store.erase entry.1).insert (new ++ entry.1.drop old.length) entry.2) store
  (∀ rest obj, (old ++ rest, obj) ∈ entries →
      store'[new ++ rest]? = some obj ∧ store'[old ++ rest]? = none)
    ∧ ∀ key, (∀ rest obj, (old ++ rest, obj) ∈ entries → key ≠ old ++ rest ∧ key ≠ new ++ rest) →
      store'[key]? = store[key]?
  := by
  have hne : ∀ rest rest', old ++ rest ≠ new ++ rest' := by
    intro rest rest' h
    apply hapart.not_below (List.prefix_append old rest)
    rw [h]
    apply List.prefix_append
  induction entries generalizing store with
  | nil => simp
  | cons entry entries ih =>
      obtain ⟨key₀, obj₀⟩ := entry
      rw [List.forall_mem_cons] at hbelow
      obtain ⟨⟨rest₀, rfl⟩, hbelow⟩ := hbelow
      rw [List.map_cons, List.nodup_cons] at hnodup
      have hdistinct : ∀ rest obj, (old ++ rest, obj) ∈ entries → old ++ rest₀ ≠ old ++ rest := by
        intro rest obj hentry h
        apply hnodup.1
        rw [h]
        apply List.mem_map_of_mem hentry
      obtain ⟨hmoved, hkept⟩ := ih hbelow hnodup.2
        ((store.erase (old ++ rest₀)).insert (new ++ rest₀) obj₀)
      simp only [List.foldl_cons, List.drop_left]
      constructor
      · intro rest obj hentry
        rcases List.mem_cons.mp hentry with h | h
        · obtain ⟨hrest, rfl⟩ := Prod.ext_iff.mp h
          obtain rfl := List.append_cancel_left hrest
          constructor
          · rw [hkept, ObjectStore.get_insert, if_pos rfl]
            intro rest' obj' hentry'
            constructor
            · apply (hne _ _).symm
            · intro h'
              apply hdistinct rest' obj' hentry'
              rw [List.append_cancel_left h']
          · rw [hkept, ObjectStore.get_insert, if_neg (hne _ _).symm, ObjectStore.get_erase,
              if_pos rfl]
            intro rest' obj' hentry'
            exact ⟨hdistinct rest' obj' hentry', hne _ _⟩
        · apply hmoved rest obj h
      · intro key hkey
        obtain ⟨hold, hnew⟩ := hkey rest₀ obj₀ List.mem_cons_self
        rw [hkept, ObjectStore.get_insert, if_neg hnew.symm, ObjectStore.get_erase,
          if_neg hold.symm]
        intro rest obj hentry
        apply hkey rest obj (List.mem_cons_of_mem _ hentry)

/-- A renamed directory: what was below it is below the new one, and nothing is left. -/
theorem moveDirectory_relocated {old new : OPath} (hapart : Apart old new) (store : ObjectStore) :
  Relocated old new store (moveDirectory old new store)
    ∧ (moveDirectory old new store).below old = []
  := by
  obtain ⟨hmoved, hkept⟩ := foldl_moveDirectory hapart
    (fun entry hentry => (ObjectStore.mem_below.mp hentry).2.1)
    (ObjectStore.nodup_below_keys store old) store
  refine ⟨⟨?_, ?_, ?_⟩, ?_⟩
  · intro rest obj hne hobj
    apply (hmoved rest obj _).1
    apply ObjectStore.mem_below.mpr
    exact ⟨hobj, List.prefix_append _ _, by simpa using hne⟩
  · intro rest hne hnone
    apply hkept
    intro rest' obj hentry
    constructor
    · intro h
      apply hapart.not_below (List.prefix_append old rest')
      rw [← h]
      apply List.prefix_append
    · intro h
      obtain rfl := List.append_cancel_left h
      have hobj := (ObjectStore.mem_below.mp hentry).1
      rw [hnone] at hobj
      cases hobj
  · intro key hold hnew
    apply hkept
    intro rest obj hentry
    have hne : rest ≠ [] := by
      rintro rfl
      exact (ObjectStore.mem_below.mp hentry).2.2 (List.append_nil old)
    constructor
    · rintro rfl
      apply hne (List.append_right_eq_self.mp (hold (List.prefix_append _ _)))
    · rintro rfl
      apply hne (List.append_right_eq_self.mp (hnew (List.prefix_append _ _)))
  · apply List.eq_nil_iff_forall_not_mem.mpr
    rintro ⟨key, obj⟩ hentry
    obtain ⟨hobj, ⟨rest, rfl⟩, hne⟩ := ObjectStore.mem_below.mp hentry
    cases hold : store[old ++ rest]? with
    | some obj' =>
        have hgone := (hmoved rest obj'
          (ObjectStore.mem_below.mpr ⟨hold, List.prefix_append _ _, hne⟩)).2
        rw [moveDirectory, hgone] at hobj
        cases hobj
    | none =>
        rw [moveDirectory, hkept, hold] at hobj
        · cases hobj
        · intro rest' obj' hentry'
          constructor
          · intro h
            have hobj' := (ObjectStore.mem_below.mp hentry').1
            rw [← h, hold] at hobj'
            cases hobj'
          · intro h
            apply hapart.not_below (List.prefix_append old rest)
            rw [h]
            apply List.prefix_append
