import AnalyticsDB.Control.Accounts
import AnalyticsDB.Storage.Move

/-!
# Moving objects between any two paths

The objects below a path are listed, and then each is copied to its new key and deleted, one after
the other.  When one of the two paths lies below the other, or they are the same, an object may be
copied over one that is still to be moved.  A move is right when this does not happen.
-/

namespace Overlap

open Eff

/-- A key strictly below a path. -/
def Below (base key : OPath) : Prop := base <+: key ∧ key ≠ base

/-- What is below `old` is below `new` and nothing else is, and what is below neither is as it was; a
move that fails has lost nothing. -/
def Moved (old new : OPath) (w : World) (r : Except Failure Unit) (w' : World) : Prop :=
  match r with
  | .ok _ => (∀ rest, rest ≠ [] → w'.store[new ++ rest]? = w.store[old ++ rest]?)
    ∧ ∀ key, ¬ Below old key → ¬ Below new key → w'.store[key]? = w.store[key]?
  | .error _ => ∀ rest obj, rest ≠ [] → w.store[old ++ rest]? = some obj →
    w'.store[old ++ rest]? = some obj ∨ w'.store[new ++ rest]? = some obj

/-- No object is copied over one that is still to be moved, itself included. -/
def Orderly (old new : OPath) : List OPath → Prop
  | [] => True
  | rest :: rests =>
    (∀ later ∈ rest :: rests, new ++ rest ≠ old ++ later) ∧ Orderly old new rests

/-- The relative keys of the objects below a path, as the store lists them. -/
def listedRests (store : ObjectStore) (base : OPath) : List OPath :=
  (store.below base).map (fun entry => entry.1.drop base.length)

/-- The objects below `old` can be moved one after the other, and those below `new` are among them or
replaced by them. -/
def Movable (old new : OPath) (store : ObjectStore) : Prop :=
  Orderly old new (listedRests store old)
    ∧ ∀ rest, rest ≠ [] → store[old ++ rest]? = none → ¬ Below old (new ++ rest) →
      store[new ++ rest]? = none

theorem below_append {base rest : OPath} :
  Below base (base ++ rest) ↔ rest ≠ []
  := by
  simp [Below]

theorem exists_rest {base key : OPath} (h : Below base key) :
  ∃ rest, rest ≠ [] ∧ key = base ++ rest
  := by
  obtain ⟨⟨rest, rfl⟩, hne⟩ := h
  exact ⟨rest, by simpa using hne, rfl⟩

theorem listedRests_spec (store : ObjectStore) (base : OPath) :
  (listedRests store base).Nodup
    ∧ (store.below base).map (·.1) = (listedRests store base).map (base ++ ·)
    ∧ ∀ rest, rest ∈ listedRests store base
      ↔ rest ≠ [] ∧ (store[base ++ rest]?).isSome = true
  := by
  obtain ⟨rests, hnodup, hkeys, hrests⟩ := store.below_keys base
  have hlisted : listedRests store base = rests := by
    have hdrop := congrArg (List.map (fun key : OPath => key.drop base.length)) hkeys
    rw [List.map_map, List.map_map] at hdrop
    refine (show listedRests store base = _ from hdrop).trans ?_
    refine (List.map_congr_left ?_).trans (List.map_id rests)
    intro rest _
    simp
  rw [hlisted]
  exact ⟨hnodup, hkeys, hrests⟩

/-- Between paths of which neither lies below the other every order will do. -/
theorem orderly_of_apart {old new : OPath} (hapart : Apart old new) (rests : List OPath) :
  Orderly old new rests
  := by
  induction rests with
  | nil => trivial
  | cons rest rests ih =>
      refine ⟨fun later _ heq => ?_, ih⟩
      apply hapart.not_below (List.prefix_append old later)
      rw [← heq]
      exact List.prefix_append new rest

/-- A move to an empty path of which neither lies below the other is one that can be made. -/
theorem movable_of_apart {old new : OPath} (hapart : Apart old new) {store : ObjectStore}
    (hempty : store.below new = []) :
  Movable old new store
  := by
  refine ⟨orderly_of_apart hapart _, fun rest hne _ _ => ?_⟩
  cases hobj : store[new ++ rest]? with
  | none => rfl
  | some obj =>
      have hmem := ObjectStore.mem_below.mpr ⟨hobj, List.prefix_append new rest, by simpa using hne⟩
      rw [hempty] at hmem
      cases hmem

section

variable {o : Outside} {old new : OPath}

/-! ### A move that can be made -/

/-- What is left when objects are moved one after the other: all of them moved, or some of them. -/
structure Transferred (old new : OPath) (rests : List OPath) (r : Except Failure Unit)
    (store store' : ObjectStore) : Prop where
  others : ∀ key, (∀ rest ∈ rests, key ≠ old ++ rest ∧ key ≠ new ++ rest) →
    store'[key]? = store[key]?
  moved : ∀ rest ∈ rests, r = .ok () → store'[new ++ rest]? = store[old ++ rest]?
  gone : ∀ rest ∈ rests, r = .ok () → (∀ rest' ∈ rests, new ++ rest' ≠ old ++ rest) →
    store'[old ++ rest]? = none
  safe : ∀ rest ∈ rests, store'[old ++ rest]? = store[old ++ rest]?
    ∨ store'[new ++ rest]? = store[old ++ rest]?

theorem after_storeCopy (source target : OPath) (w : World) :
  After (storeCopy o source target) w (fun r w' =>
    (∃ e, r = .error e) ∧ w'.store = w.store
      ∨ r = .ok () ∧ ∃ obj, w.store[source]? = some obj ∧ w'.store = w.store.insert target obj)
  := by
  simp only [storeCopy, after_bind, storeFault, after_outsideCall, resume_ok, after_pure]
  cases o.storeError w.calls with
  | some e => exact .inl ⟨⟨_, rfl⟩, rfl⟩
  | none =>
      dsimp only
      rw [after_bind, after_get, resume_ok]
      dsimp only
      cases hobj : w.store[source]? with
      | none => exact .inl ⟨⟨_, rfl⟩, rfl⟩
      | some obj => exact .inr ⟨rfl, obj, rfl, rfl⟩

theorem after_storeDelete (hfound : ∀ n, o.storeError n ≠ some .notFound) (key : OPath)
    (w : World) :
  After (storeDelete o key) w (fun r w' =>
    (∃ e, r = .error e) ∧ w'.store = w.store ∨ r = .ok () ∧ w'.store = w.store.erase key)
  := by
  simp only [storeDelete, after_bind, storeFault, after_outsideCall, resume_ok, after_pure]
  have hn := hfound w.calls
  cases hfault : o.storeError w.calls with
  | none => exact .inr ⟨rfl, rfl⟩
  | some e =>
      rw [hfault] at hn
      cases e with
      | notFound => exact absurd rfl hn
      | _ => exact .inl ⟨⟨_, rfl⟩, rfl⟩

/-- Objects moved in an order in which none is copied over one that is still to be moved. -/
theorem after_moveObjects (hfound : ∀ n, o.storeError n ≠ some .notFound) {rests : List OPath}
    (hnodup : rests.Nodup) (horderly : Orderly old new rests) (w : World) :
  After (moveObjects o (rests.map (fun rest => (old ++ rest, new ++ rest)))) w (fun r w' =>
    Transferred old new rests r w.store w'.store)
  := by
  induction rests generalizing w with
  | nil =>
      constructor
      · intro key _
        rfl
      all_goals
        intro rest hrest
        cases hrest
  | cons rest rests ih =>
      rw [List.nodup_cons] at hnodup
      obtain ⟨hclear, horderly⟩ := horderly
      rw [List.forall_mem_cons] at hclear
      obtain ⟨hself, hclear⟩ := hclear
      have hdistinct : ∀ base : OPath, ∀ rest' ∈ rests, base ++ rest ≠ base ++ rest' := by
        intro base rest' hrest' heq
        rw [List.append_cancel_left heq] at hnodup
        exact hnodup.1 hrest'
      rw [List.map_cons, moveObjects, after_bind]
      refine After.mono (after_storeCopy (old ++ rest) (new ++ rest) w) ?_
      rintro r w₁ (⟨⟨e, rfl⟩, hstore₁⟩ | ⟨rfl, obj, hobj, hstore₁⟩)
      · rw [resume_error, hstore₁]
        exact ⟨fun _ _ => rfl, fun _ _ h => (by cases h), fun _ _ h => (by cases h),
          fun _ _ => .inl rfl⟩
      rw [resume_ok, after_bind]
      refine After.mono (after_storeDelete hfound (old ++ rest) w₁) ?_
      rintro r w₂ (⟨⟨e, rfl⟩, hstore₂⟩ | ⟨rfl, hstore₂⟩)
      · rw [resume_error]
        rw [hstore₁] at hstore₂
        refine ⟨fun key hkey => ?_, fun _ _ h => (by cases h), fun _ _ h => (by cases h), ?_⟩
        · rw [hstore₂, ObjectStore.get_insert, if_neg (hkey rest List.mem_cons_self).2.symm]
        · rw [List.forall_mem_cons]
          refine ⟨.inr ?_, fun rest' hrest' => .inl ?_⟩
          · rw [hstore₂, ObjectStore.get_insert, if_pos rfl, hobj]
          · rw [hstore₂, ObjectStore.get_insert, if_neg (hclear rest' hrest')]
      rw [resume_ok]
      have hget : ∀ key, w₂.store[key]? = if old ++ rest = key then none
          else if new ++ rest = key then some obj else w.store[key]? := by
        intro key
        rw [hstore₂, ObjectStore.get_erase, hstore₁, ObjectStore.get_insert]
      have hsource : ∀ rest' ∈ rests, w₂.store[old ++ rest']? = w.store[old ++ rest']? := by
        intro rest' hrest'
        rw [hget, if_neg (hdistinct old rest' hrest'), if_neg (hclear rest' hrest')]
      refine After.mono (ih hnodup.2 horderly w₂) ?_
      intro r w₃ h
      have hmoved : w₃.store[new ++ rest]? = w.store[old ++ rest]? := by
        rw [h.others, hget, if_neg hself.symm, if_pos rfl, hobj]
        intro rest' hrest'
        exact ⟨hclear rest' hrest', hdistinct new rest' hrest'⟩
      constructor
      · intro key hkey
        rw [List.forall_mem_cons] at hkey
        rw [h.others key hkey.2, hget, if_neg hkey.1.1.symm, if_neg hkey.1.2.symm]
      · rw [List.forall_mem_cons]
        refine ⟨fun _ => hmoved, fun rest' hrest' hr => ?_⟩
        rw [h.moved rest' hrest' hr, hsource rest' hrest']
      · rw [List.forall_mem_cons]
        refine ⟨fun _ hfree => ?_, fun rest' hrest' hr hfree => ?_⟩
        · rw [List.forall_mem_cons] at hfree
          rw [h.others, hget, if_pos rfl]
          intro rest' hrest'
          exact ⟨hdistinct old rest' hrest', (hfree.2 rest' hrest').symm⟩
        · rw [List.forall_mem_cons] at hfree
          exact h.gone rest' hrest' hr hfree.2
      · rw [List.forall_mem_cons]
        refine ⟨.inr hmoved, fun rest' hrest' => ?_⟩
        rw [← hsource rest' hrest']
        exact h.safe rest' hrest'

/-! ### A move that cannot be made -/

/-- One object is moved. -/
theorem moveObject_succeeds (hstore : ∀ n, o.storeError n = none) {source target : OPath} {obj : Obj}
    {w : World} (hobj : w.store[source]? = some obj) {moves : List (OPath × OPath)}
    {Q : Unit → World → Prop}
    (hrest : ∀ w', w'.store = (w.store.insert target obj).erase source →
      Succeeds (moveObjects o moves) w' Q) :
  Succeeds (moveObjects o ((source, target) :: moves)) w Q
  := by
  rw [moveObjects, succeeds_bind]
  refine Succeeds.mono (storeCopy_succeeds hstore hobj) ?_
  rintro _ w₁ ⟨hw₁, -⟩
  rw [succeeds_bind]
  refine Succeeds.mono (storeDelete_succeeds hstore source w₁) ?_
  intro _ w₂ hw₂
  rw [hw₁] at hw₂
  exact hrest w₂ hw₂

/-- The sources of the later moves are still there after one. -/
theorem sources_remain {rest : OPath} {rests : List OPath} {obj : Obj} {store store' : ObjectStore}
    (hnew : rest ∉ rests) (hthere : ∀ rest' ∈ rests, (store[old ++ rest']?).isSome = true)
    (hstore : store' = (store.insert (new ++ rest) obj).erase (old ++ rest)) :
  ∀ rest' ∈ rests, (store'[old ++ rest']?).isSome = true
  := by
  intro rest' hrest'
  have hne : old ++ rest ≠ old ++ rest' := by
    intro heq
    rw [List.append_cancel_left heq] at hnew
    exact hnew hrest'
  rw [hstore, ObjectStore.get_erase, if_neg hne, ObjectStore.get_insert]
  split
  · rfl
  · exact hthere rest' hrest'

/-- What is not there, or is there to be moved, is not there in the end when nothing is copied to
it. -/
theorem moveObjects_absent (hstore : ∀ n, o.storeError n = none) {rests : List OPath}
    (hnodup : rests.Nodup) (key : OPath) (hfree : ∀ rest ∈ rests, new ++ rest ≠ key) {w : World}
    (hthere : ∀ rest ∈ rests, (w.store[old ++ rest]?).isSome = true)
    (hkey : w.store[key]? = none ∨ ∃ rest ∈ rests, key = old ++ rest) :
  Succeeds (moveObjects o (rests.map (fun rest => (old ++ rest, new ++ rest)))) w (fun _ w' =>
    w'.store[key]? = none)
  := by
  induction rests generalizing w with
  | nil =>
      rw [List.map_nil, moveObjects, succeeds_pure]
      obtain hkey | ⟨rest, hrest, -⟩ := hkey
      · exact hkey
      · cases hrest
  | cons rest rests ih =>
      rw [List.nodup_cons] at hnodup
      rw [List.forall_mem_cons] at hfree hthere
      obtain ⟨obj, hobj⟩ := Option.isSome_iff_exists.mp hthere.1
      rw [List.map_cons]
      refine moveObject_succeeds hstore hobj (fun w₁ hw₁ => ?_)
      refine ih hnodup.2 hfree.2 (sources_remain hnodup.1 hthere.2 hw₁) ?_
      have hget : w₁.store[key]? = if old ++ rest = key then none else w.store[key]? := by
        rw [hw₁, ObjectStore.get_erase, ObjectStore.get_insert, if_neg hfree.1]
      obtain hkey | ⟨later, hlater, rfl⟩ := hkey
      · left
        rw [hget, hkey, ite_self]
      · rcases List.mem_cons.mp hlater with rfl | hlater
        · left
          rw [hget, if_pos rfl]
        · exact .inr ⟨later, hlater, rfl⟩

/-- When an object is copied over one that is still to be moved, it is not there in the end. -/
theorem moveObjects_loses (hstore : ∀ n, o.storeError n = none) {rests : List OPath}
    (hnodup : rests.Nodup) (hdisorderly : ¬ Orderly old new rests) {w : World}
    (hthere : ∀ rest ∈ rests, (w.store[old ++ rest]?).isSome = true) :
  Succeeds (moveObjects o (rests.map (fun rest => (old ++ rest, new ++ rest)))) w (fun _ w' =>
    ∃ rest ∈ rests, w'.store[new ++ rest]? = none)
  := by
  induction rests generalizing w with
  | nil => exact absurd trivial hdisorderly
  | cons rest rests ih =>
      rw [List.nodup_cons] at hnodup
      rw [List.forall_mem_cons] at hthere
      obtain ⟨obj, hobj⟩ := Option.isSome_iff_exists.mp hthere.1
      rw [List.map_cons]
      refine moveObject_succeeds hstore hobj (fun w₁ hw₁ => ?_)
      have hthere₁ := sources_remain hnodup.1 hthere.2 hw₁
      by_cases horderly : Orderly old new rests
      · obtain ⟨later, hlater, heq⟩ : ∃ later ∈ rest :: rests, new ++ rest = old ++ later := by
          by_contra hnone
          push Not at hnone
          exact hdisorderly ⟨hnone, horderly⟩
        refine Succeeds.mono (moveObjects_absent hstore hnodup.2 (new ++ rest) ?_ hthere₁ ?_)
          (fun _ _ hnone => ⟨rest, List.mem_cons_self, hnone⟩)
        · intro rest' hrest' hsame
          rw [List.append_cancel_left hsame] at hrest'
          exact hnodup.1 hrest'
        · rcases List.mem_cons.mp hlater with rfl | hlater
          · left
            rw [hw₁, ObjectStore.get_erase, if_pos heq.symm]
          · exact .inr ⟨later, hlater, heq⟩
      · refine Succeeds.mono (ih hnodup.2 horderly hthere₁) ?_
        rintro _ w₂ ⟨lost, hlost, hnone⟩
        exact ⟨lost, List.mem_cons_of_mem rest hlost, hnone⟩

/-- Objects that are there are moved when nothing fails. -/
theorem moveObjects_return (hstore : ∀ n, o.storeError n = none) {rests : List OPath}
    (hnodup : rests.Nodup) {w : World}
    (hthere : ∀ rest ∈ rests, (w.store[old ++ rest]?).isSome = true) :
  Succeeds (moveObjects o (rests.map (fun rest => (old ++ rest, new ++ rest)))) w (fun _ _ => True)
  := by
  induction rests generalizing w with
  | nil => exact ⟨(), rfl, trivial⟩
  | cons rest rests ih =>
      rw [List.nodup_cons] at hnodup
      rw [List.forall_mem_cons] at hthere
      obtain ⟨obj, hobj⟩ := Option.isSome_iff_exists.mp hthere.1
      rw [List.map_cons]
      refine moveObject_succeeds hstore hobj (fun w₁ hw₁ => ?_)
      exact ih hnodup.2 (sources_remain hnodup.1 hthere.2 hw₁)

/-! ### Any move -/

theorem renamePrefix_eq (hsame : old.take 1 = new.take 1) :
  renamePrefix o old new = storeList o old >>= fun keys =>
    moveObjects o (keys.map (fun key => (key, new ++ key.drop old.length)))
  := by
  rw [renamePrefix, hsame, List.take_append_drop]

/-- The moves of the listed keys. -/
theorem moves_eq (store : ObjectStore) :
  ((store.below old).map (·.1)).map (fun key => (key, new ++ key.drop old.length))
    = (listedRests store old).map (fun rest => (old ++ rest, new ++ rest))
  := by
  rw [(listedRests_spec store old).2.1, List.map_map]
  apply List.map_congr_left
  intro rest _
  simp

/-- After a listing, the objects listed are moved. -/
theorem after_renamePrefix (hfound : ∀ n, o.storeError n ≠ some .notFound)
    (hsame : old.take 1 = new.take 1) {w : World} {Q : Except Failure Unit → World → Prop}
    (herror : ∀ e w', w'.store = w.store → Q (.error e) w')
    (hmoves : ∀ w', w'.store = w.store →
      After (moveObjects o ((listedRests w.store old).map
        (fun rest => (old ++ rest, new ++ rest)))) w' Q) :
  After (renamePrefix o old new) w Q
  := by
  rw [renamePrefix_eq hsame, after_bind]
  simp only [storeList, after_bind, storeFault, after_outsideCall, resume_ok, after_pure]
  have hn := hfound w.calls
  cases hfault : o.storeError w.calls with
  | none =>
      dsimp only
      rw [after_bind, after_get, resume_ok, after_pure, resume_ok, moves_eq]
      exact hmoves _ rfl
  | some e =>
      rw [hfault] at hn
      cases e with
      | notFound => exact absurd rfl hn
      | _ => exact herror _ _ rfl

/-- A move that can be made has moved everything, or has failed without losing anything. -/
theorem moved_of_transferred {r : Except Failure Unit} {w w₁ w' : World}
    (hmovable : Movable old new w.store) (hw₁ : w₁.store = w.store)
    (h : Transferred old new (listedRests w.store old) r w₁.store w'.store) :
  Moved old new w r w'
  := by
  obtain ⟨-, -, hrests⟩ := listedRests_spec w.store old
  rw [hw₁] at h
  cases r with
  | error e =>
      intro rest obj hne hobj
      have hlisted : rest ∈ listedRests w.store old := (hrests rest).mpr ⟨hne, by rw [hobj]; rfl⟩
      rw [← hobj]
      exact h.safe rest hlisted
  | ok _ =>
      constructor
      · intro rest hne
        by_cases hlisted : rest ∈ listedRests w.store old
        · exact h.moved rest hlisted rfl
        · have hnone : w.store[old ++ rest]? = none := by
            rw [hrests, not_and, Bool.not_eq_true, Option.isSome_eq_false_iff] at hlisted
            exact Option.isNone_iff_eq_none.mp (hlisted hne)
          have htarget : ∀ rest' ∈ listedRests w.store old, new ++ rest' ≠ new ++ rest := by
            intro rest' hrest' heq
            rw [List.append_cancel_left heq] at hrest'
            exact hlisted hrest'
          rw [hnone]
          by_cases hbelow : Below old (new ++ rest)
          · obtain ⟨source, hsource, heq⟩ := exists_rest hbelow
            by_cases hmoved : source ∈ listedRests w.store old
            · rw [heq] at htarget ⊢
              exact h.gone source hmoved rfl htarget
            · rw [h.others]
              · rw [hrests, not_and, Bool.not_eq_true, Option.isSome_eq_false_iff] at hmoved
                rw [heq]
                exact Option.isNone_iff_eq_none.mp (hmoved hsource)
              · intro rest' hrest'
                refine ⟨fun hsame => ?_, (htarget rest' hrest').symm⟩
                rw [heq] at hsame
                rw [← List.append_cancel_left hsame] at hrest'
                exact hmoved hrest'
          · rw [h.others]
            · exact hmovable.2 rest hne hnone hbelow
            · intro rest' hrest'
              refine ⟨fun hsame => ?_, (htarget rest' hrest').symm⟩
              rw [hsame] at hbelow
              exact hbelow (below_append.mpr ((hrests rest').mp hrest').1)
      · intro key hold hnew
        apply h.others
        intro rest hrest
        have hne := ((hrests rest).mp hrest).1
        constructor
        · rintro rfl
          exact hold (below_append.mpr hne)
        · rintro rfl
          exact hnew (below_append.mpr hne)

theorem renamePrefix_lists (hstore : ∀ n, o.storeError n = none) (hsame : old.take 1 = new.take 1)
    {w : World} {Q : Unit → World → Prop}
    (hmoves : ∀ w', w'.store = w.store →
      Succeeds (moveObjects o ((listedRests w.store old).map
        (fun rest => (old ++ rest, new ++ rest)))) w' Q) :
  Succeeds (renamePrefix o old new) w Q
  := by
  rw [renamePrefix_eq hsame, succeeds_bind]
  refine Succeeds.mono (storeList_succeeds hstore old w) ?_
  rintro _ w₁ ⟨rfl, hw₁⟩
  rw [moves_eq]
  exact hmoves w₁ hw₁

/-- A move that has moved everything was one that could be made. -/
theorem movable_of_moved (hstore : ∀ n, o.storeError n = none) (hsame : old.take 1 = new.take 1)
    {w : World} (h : After (renamePrefix o old new) w (Moved old new w)) :
  Movable old new w.store
  := by
  obtain ⟨hnodup, -, hrests⟩ := listedRests_spec w.store old
  have hthere : ∀ w₁ : World, w₁.store = w.store → ∀ rest ∈ listedRests w.store old,
      (w₁.store[old ++ rest]?).isSome = true := by
    intro w₁ hw₁ rest hrest
    rw [hw₁]
    exact ((hrests rest).mp hrest).2
  have horderly : Orderly old new (listedRests w.store old) := by
    by_contra hdisorderly
    obtain ⟨_, hr, rest, hrest, hlost⟩ := renamePrefix_lists hstore hsame
      (fun w₁ hw₁ => moveObjects_loses hstore hnodup hdisorderly (hthere w₁ hw₁))
    rw [After, hr] at h
    have hsome := ((hrests rest).mp hrest).2
    rw [← h.1 rest ((hrests rest).mp hrest).1, hlost] at hsome
    cases hsome
  refine ⟨horderly, fun rest hne hnone hbelow => ?_⟩
  have hfound : ∀ n, o.storeError n ≠ some .notFound := by
    intro n
    rw [hstore n]
    simp
  have hothers : After (renamePrefix o old new) w (fun r w' => r = .ok () →
      w'.store[new ++ rest]? = w.store[new ++ rest]?) := by
    refine after_renamePrefix hfound hsame (fun _ _ _ hr => by cases hr) ?_
    intro w₁ hw₁
    refine After.mono (after_moveObjects hfound hnodup horderly w₁) ?_
    intro r w' htransferred _
    rw [htransferred.others, hw₁]
    intro rest' hrest'
    constructor
    · intro heq
      rw [heq] at hbelow
      exact hbelow (below_append.mpr ((hrests rest').mp hrest').1)
    · intro heq
      have hsome := ((hrests rest').mp hrest').2
      rw [← List.append_cancel_left heq, hnone] at hsome
      cases hsome
  obtain ⟨_, hr, -⟩ := renamePrefix_lists hstore hsame
    (fun w₁ hw₁ => moveObjects_return hstore hnodup (hthere w₁ hw₁))
  rw [After, hr] at h hothers
  rw [← hothers rfl, h.1 rest hne, hnone]

end

/-- A store with one object. -/
def oneObject : World :=
  { World.bootstrap with
    store := World.bootstrap.store.insert ["s3://m", "a", "data"] (.other "x") }

end Overlap
