import Mathlib

/-!
# Greedy assignment

Items with weights are put into buckets one after another, each into the first of the buckets that
weigh least.
-/

namespace Greedy

variable {α : Type} (weight : α → Nat)

/-- The first place of a least number. -/
def minIndex (loads : List Nat) : Nat :=
  loads.findIdx (fun load => loads.all (load ≤ ·))

/-- The weight of a bucket. -/
def load (bucket : List α) : Nat := (bucket.map weight).sum

/-- Put an item into the first of the buckets that weigh least. -/
def place (buckets : List (List α)) (item : α) : List (List α) :=
  buckets.modify (minIndex (buckets.map (load weight))) (· ++ [item])

/-- Put the items into the buckets, from the first on. -/
def assign (buckets : List (List α)) (items : List α) : List (List α) :=
  items.foldl (place weight) buckets

/-- Some buckets with nothing in them. -/
def emptyBuckets (n : Nat) : List (List α) := List.replicate n []

section

variable {weight} {before after : List (List α)} {bucket : List α} {buckets : List (List α)}

theorem load_append (bucket bucket' : List α) :
  load weight (bucket ++ bucket') = load weight bucket + load weight bucket'
  := by
  simp [load]

theorem minIndex_eq {before after : List Nat} {least : Nat} (hbefore : ∀ n ∈ before, least < n)
    (hafter : ∀ n ∈ after, least ≤ n) :
  minIndex (before ++ least :: after) = before.length
  := by
  rw [minIndex, List.findIdx_append, if_neg, List.findIdx_cons]
  · have hleast : (before ++ least :: after).all (least ≤ ·) = true := by
      simp only [List.all_append, List.all_cons, Bool.and_eq_true, List.all_eq_true,
        decide_eq_true_eq, le_refl, true_and]
      exact ⟨fun n hn => (hbefore n hn).le, hafter⟩
    simp [hleast]
  · rw [List.findIdx_lt_length, not_exists]
    rintro n ⟨hn, hall⟩
    have hle : n ≤ least := by simpa using (List.all_eq_true.mp hall) least (by simp)
    exact absurd (hbefore n hn) (by omega)

variable (weight) in
/-- The first of the buckets that weigh least. -/
theorem exists_least (hne : buckets ≠ []) :
  ∃ before bucket after, buckets = before ++ bucket :: after
    ∧ (∀ other ∈ before, load weight bucket < load weight other)
    ∧ ∀ other ∈ after, load weight bucket ≤ load weight other
  := by
  induction buckets with
  | nil => exact absurd rfl hne
  | cons first rest ih =>
      by_cases hrest : rest = []
      · subst hrest
        exact ⟨[], first, [], rfl, by simp, by simp⟩
      · obtain ⟨before, bucket, after, rfl, hbefore, hafter⟩ := ih hrest
        by_cases hle : load weight first ≤ load weight bucket
        · refine ⟨[], first, before ++ bucket :: after, rfl, by simp, ?_⟩
          intro other hother
          rw [List.mem_append, List.mem_cons] at hother
          obtain hother | rfl | hother := hother
          · exact hle.trans (hbefore other hother).le
          · exact hle
          · exact hle.trans (hafter other hother)
        · refine ⟨first :: before, bucket, after, rfl, ?_, hafter⟩
          rw [List.forall_mem_cons]
          exact ⟨by omega, hbefore⟩

theorem minIndex_loads (hbefore : ∀ other ∈ before, load weight bucket < load weight other)
    (hafter : ∀ other ∈ after, load weight bucket ≤ load weight other) :
  minIndex ((before ++ bucket :: after).map (load weight)) = before.length
  := by
  rw [List.map_append, List.map_cons, minIndex_eq]
  · exact List.length_map _
  · simpa using hbefore
  · simpa using hafter

/-- What is at the place after the first elements is changed. -/
theorem modify_length {β : Type} (f : β → β) (front : List β) (b : β) (rest : List β) :
  (front ++ b :: rest).modify front.length f = front ++ f b :: rest
  := by
  simp [List.modify_eq_take_cons_drop]

/-- An item is put into the first of the buckets that weigh least. -/
theorem place_eq (hbefore : ∀ other ∈ before, load weight bucket < load weight other)
    (hafter : ∀ other ∈ after, load weight bucket ≤ load weight other) (item : α) :
  place weight (before ++ bucket :: after) item = before ++ (bucket ++ [item]) :: after
  := by
  rw [place, minIndex_loads hbefore hafter, modify_length]

variable (weight) in
/-- An item is put at the end of a bucket that weighs least. -/
theorem place_cases (hne : buckets ≠ []) (item : α) :
  ∃ before bucket after, buckets = before ++ bucket :: after
    ∧ (∀ other ∈ before, load weight bucket < load weight other)
    ∧ (∀ other ∈ after, load weight bucket ≤ load weight other)
    ∧ place weight buckets item = before ++ (bucket ++ [item]) :: after
  := by
  obtain ⟨before, bucket, after, rfl, hbefore, hafter⟩ := exists_least weight hne
  exact ⟨before, bucket, after, rfl, hbefore, hafter, place_eq hbefore hafter item⟩

variable (weight) in
theorem length_place (buckets : List (List α)) (item : α) :
  (place weight buckets item).length = buckets.length
  := List.length_modify _ _ _

theorem length_assign (buckets : List (List α)) (items : List α) :
  (assign weight buckets items).length = buckets.length
  := by
  induction items generalizing buckets with
  | nil => rfl
  | cons item items ih =>
      rw [assign, List.foldl_cons]
      exact (ih _).trans (length_place weight _ _)

theorem place_ne_nil (hne : buckets ≠ []) (item : α) : place weight buckets item ≠ []
  := by
  rw [← List.length_pos_iff] at hne ⊢
  rwa [length_place weight]

/-- Every item is in one bucket, as often as it was given. -/
theorem assign_perm (hne : buckets ≠ []) (items : List α) :
  (assign weight buckets items).flatten.Perm (buckets.flatten ++ items)
  := by
  induction items generalizing buckets with
  | nil => simp [assign]
  | cons item items ih =>
      rw [assign, List.foldl_cons]
      apply (ih (place_ne_nil hne item)).trans
      obtain ⟨before, bucket, after, rfl, -, -, hplace⟩ := place_cases weight hne item
      have hitems : item :: items = [item] ++ items := rfl
      rw [hplace, hitems, ← List.append_assoc]
      apply List.Perm.append_right
      simp only [List.flatten_append, List.flatten_cons, List.append_assoc]
      apply List.Perm.append_left
      apply List.Perm.append_left
      exact List.perm_append_comm

/-! ### Balance -/

/-- The weight of all the buckets. -/
def total (weight : α → Nat) (buckets : List (List α)) : Nat := (buckets.map (load weight)).sum

theorem total_flatten (buckets : List (List α)) :
  total weight buckets = load weight buckets.flatten
  := by
  rw [total, load, List.map_flatten, List.sum_flatten, List.map_map]
  rfl

variable (weight) in
theorem total_place (hne : buckets ≠ []) (item : α) :
  total weight (place weight buckets item) = total weight buckets + weight item
  := by
  obtain ⟨before, bucket, after, rfl, -, -, hplace⟩ := place_cases weight hne item
  rw [hplace]
  simp only [total, List.map_append, List.map_cons, List.sum_append, List.sum_cons, load_append]
  simp only [load, List.map_nil, List.map_cons, List.sum_singleton]
  omega

/-- No bucket that weighs least weighs more than the average. -/
theorem load_mul_length_le {least : Nat} (h : ∀ other ∈ buckets, least ≤ load weight other) :
  least * buckets.length ≤ total weight buckets
  := by
  induction buckets with
  | nil => simp
  | cons bucket buckets ih =>
      rw [List.forall_mem_cons] at h
      have hrest := ih h.2
      have hfirst := h.1
      rw [List.length_cons, Nat.mul_succ, total, List.map_cons, List.sum_cons, ← total]
      omega

/-- A bucket weighs at most the average and one item. -/
theorem load_assign_le {most : Nat} (hne : buckets ≠ []) {items : List α}
    (hitems : ∀ item ∈ items, weight item ≤ most)
    (h : ∀ bucket ∈ buckets, load weight bucket ≤ total weight buckets / buckets.length + most) :
  ∀ bucket ∈ assign weight buckets items, load weight bucket
    ≤ total weight (assign weight buckets items) / buckets.length + most
  := by
  induction items generalizing buckets with
  | nil => exact h
  | cons item items ih =>
      rw [List.forall_mem_cons] at hitems
      rw [assign, List.foldl_cons, ← length_place weight buckets item]
      apply ih (place_ne_nil hne item) hitems.2
      obtain ⟨before, bucket, after, rfl, hbefore, hafter, hplace⟩ :=
        place_cases weight hne item
      have hlength := length_place weight (before ++ bucket :: after) item
      have hleast : load weight bucket * (before ++ bucket :: after).length
          ≤ total weight (before ++ bucket :: after) := by
        apply load_mul_length_le
        intro other hother
        rw [List.mem_append, List.mem_cons] at hother
        obtain hother | rfl | hother := hother
        · exact (hbefore other hother).le
        · exact le_rfl
        · exact hafter other hother
      have htotal := total_place weight hne item
      rw [hplace] at htotal
      have hmono : total weight (before ++ bucket :: after) / (before ++ bucket :: after).length
          ≤ total weight (before ++ (bucket ++ [item]) :: after)
            / (before ++ bucket :: after).length := by
        apply Nat.div_le_div_right
        omega
      rw [hlength, hplace]
      intro other hother
      rw [List.mem_append, List.mem_cons] at hother
      obtain hother | rfl | hother := hother
      · exact (h other (by simp [hother])).trans (by omega)
      · have hbucket : load weight bucket ≤ total weight (before ++ bucket :: after)
            / (before ++ bucket :: after).length := by
          exact (Nat.le_div_iff_mul_le (List.length_pos_iff.mpr hne)).mpr hleast
        rw [load_append]
        have hitem : load weight [item] ≤ most := by simpa [load] using hitems.1
        omega
      · exact (h other (by simp [hother])).trans (by omega)

/-! ### Buckets that are empty at first -/

theorem emptyBuckets_ne_nil {n : Nat} (hn : 0 < n) : (emptyBuckets n : List (List α)) ≠ []
  := by
  rw [← List.length_pos_iff, emptyBuckets, List.length_replicate]
  exact hn

theorem total_emptyBuckets (n : Nat) : total weight (emptyBuckets n) = 0
  := by
  simp [total, emptyBuckets, load]

variable (weight) in
theorem length_assign_emptyBuckets (n : Nat) (items : List α) :
  (assign weight (emptyBuckets n) items).length = n
  := by
  rw [length_assign, emptyBuckets, List.length_replicate]

variable (weight) in
theorem assign_emptyBuckets_perm {n : Nat} (hn : 0 < n) (items : List α) :
  (assign weight (emptyBuckets n) items).flatten.Perm items
  := by
  apply (assign_perm (emptyBuckets_ne_nil hn) items).trans
  simp [emptyBuckets]

/-- A bucket weighs at most what the items weigh on average, and one item. -/
theorem load_assign_emptyBuckets_le {n most : Nat} (hn : 0 < n) {items : List α}
    (hitems : ∀ item ∈ items, weight item ≤ most) :
  ∀ bucket ∈ assign weight (emptyBuckets n) items,
    load weight bucket ≤ load weight items / n + most
  := by
  intro bucket hbucket
  have hempty : ∀ bucket ∈ (emptyBuckets n : List (List α)), load weight bucket
      ≤ total weight (emptyBuckets n) / (emptyBuckets n : List (List α)).length + most := by
    intro bucket hbucket
    rw [(List.mem_replicate.mp hbucket).2]
    exact Nat.zero_le _
  have hload := load_assign_le (emptyBuckets_ne_nil hn) hitems hempty bucket hbucket
  have htotal : total weight (assign weight (emptyBuckets n) items) = load weight items := by
    rw [total_flatten]
    exact ((assign_emptyBuckets_perm weight hn items).map weight).sum_eq
  rw [htotal, emptyBuckets, List.length_replicate] at hload
  exact hload

/-! ### Buckets that stay empty -/

/-- The number of buckets with nothing in them. -/
def emptyCount (buckets : List (List α)) : Nat := buckets.countP (·.isEmpty)

/-- Only a bucket with nothing in it weighs nothing. -/
def WeighUnlessEmpty (weight : α → Nat) (buckets : List (List α)) : Prop :=
  ∀ bucket ∈ buckets, load weight bucket = 0 → bucket = []

/-- One bucket less is empty, if there is one, when something is put into the first of those that
weigh least. -/
theorem emptyCount_filled {filled : List α} (hweigh : WeighUnlessEmpty weight
      (before ++ bucket :: after))
    (hbefore : ∀ other ∈ before, load weight bucket < load weight other)
    (hafter : ∀ other ∈ after, load weight bucket ≤ load weight other) (hfilled : filled ≠ []) :
  emptyCount (before ++ filled :: after) = emptyCount (before ++ bucket :: after) - 1
  := by
  have hfilled' : filled.isEmpty = false := by simpa using hfilled
  simp only [emptyCount, List.countP_append, List.countP_cons, hfilled', Bool.false_eq_true,
    if_false]
  by_cases hbucket : bucket = []
  · simp [hbucket]
  · have hpos : 0 < load weight bucket := by
      apply Nat.pos_of_ne_zero
      exact fun hzero => hbucket (hweigh bucket (by simp) hzero)
    have hnone : ∀ buckets : List (List α), (∀ other ∈ buckets,
        load weight bucket ≤ load weight other) → buckets.countP (·.isEmpty) = 0 := by
      intro buckets hbuckets
      rw [List.countP_eq_zero]
      intro other hother hempty
      have hle := hbuckets other hother
      rw [List.isEmpty_iff.mp hempty] at hle
      simp [load] at hle hpos
      omega
    rw [hnone before (fun other hother => (hbefore other hother).le), hnone after hafter]
    simp [hbucket]

/-- An item that weighs something is put into an empty bucket, if there is one. -/
theorem emptyCount_place (hne : buckets ≠ []) (hweigh : WeighUnlessEmpty weight buckets)
    {item : α} (hitem : 0 < weight item) :
  emptyCount (place weight buckets item) = emptyCount buckets - 1
    ∧ WeighUnlessEmpty weight (place weight buckets item)
  := by
  obtain ⟨before, bucket, after, rfl, hbefore, hafter, hplace⟩ :=
    place_cases weight hne item
  rw [hplace]
  refine ⟨emptyCount_filled hweigh hbefore hafter (by simp), ?_⟩
  intro other hother hzero
  rw [List.mem_append, List.mem_cons] at hother
  obtain hother | rfl | hother := hother
  · exact hweigh other (by simp [hother]) hzero
  · rw [load_append] at hzero
    simp [load] at hzero
    omega
  · exact hweigh other (by simp [hother]) hzero

theorem emptyCount_assign (hne : buckets ≠ []) (hweigh : WeighUnlessEmpty weight buckets)
    {items : List α} (hitems : ∀ item ∈ items, 0 < weight item) :
  emptyCount (assign weight buckets items) = emptyCount buckets - items.length
    ∧ WeighUnlessEmpty weight (assign weight buckets items)
  := by
  induction items generalizing buckets with
  | nil => exact ⟨rfl, hweigh⟩
  | cons item items ih =>
      rw [List.forall_mem_cons] at hitems
      obtain ⟨hcount, hweigh'⟩ := emptyCount_place hne hweigh hitems.1
      obtain ⟨hcount', hweigh''⟩ := ih (place_ne_nil hne item) hweigh' hitems.2
      rw [assign, List.foldl_cons]
      refine ⟨hcount'.trans ?_, hweigh''⟩
      rw [hcount, List.length_cons]
      omega

/-- Items that weigh nothing are all put into one bucket. -/
theorem assign_weightless (hbefore : ∀ other ∈ before, load weight bucket < load weight other)
    (hafter : ∀ other ∈ after, load weight bucket ≤ load weight other) {items : List α}
    (hitems : ∀ item ∈ items, weight item = 0) :
  assign weight (before ++ bucket :: after) items = before ++ (bucket ++ items) :: after
  := by
  induction items generalizing bucket with
  | nil => simp [assign]
  | cons item items ih =>
      rw [List.forall_mem_cons] at hitems
      have hload : load weight (bucket ++ [item]) = load weight bucket := by
        simp [load, hitems.1]
      rw [assign, List.foldl_cons, place_eq hbefore hafter, ← assign, ih]
      · rw [List.append_assoc, List.singleton_append]
      · rw [hload]
        exact hbefore
      · rw [hload]
        exact hafter
      · exact hitems.2

theorem emptyCount_eq_zero_iff : emptyCount buckets = 0 ↔ ∀ bucket ∈ buckets, bucket ≠ []
  := by
  simp [emptyCount, List.countP_eq_zero]

theorem emptyCount_emptyBuckets (n : Nat) : emptyCount (emptyBuckets n : List (List α)) = n
  := by
  simp [emptyCount, emptyBuckets, List.countP_replicate]

theorem weighUnlessEmpty_emptyBuckets (n : Nat) : WeighUnlessEmpty weight (emptyBuckets n)
  := fun _ hbucket _ => (List.mem_replicate.mp hbucket).2

/-- In a list that is sorted by weight, the items that weigh something come first. -/
theorem sorted_split {items : List α} (hsorted : items.Pairwise (fun a b => weight b ≤ weight a)) :
  ∃ heavy light, items = heavy ++ light ∧ (∀ item ∈ heavy, 0 < weight item)
    ∧ ∀ item ∈ light, weight item = 0
  := by
  induction items with
  | nil => exact ⟨[], [], rfl, by simp, by simp⟩
  | cons item items ih =>
      rw [List.pairwise_cons] at hsorted
      by_cases hitem : 0 < weight item
      · obtain ⟨heavy, light, rfl, hheavy, hlight⟩ := ih hsorted.2
        refine ⟨item :: heavy, light, rfl, ?_, hlight⟩
        rw [List.forall_mem_cons]
        exact ⟨hitem, hheavy⟩
      · refine ⟨[], item :: items, rfl, by simp, ?_⟩
        rw [List.forall_mem_cons]
        refine ⟨by omega, ?_⟩
        intro other hother
        have hle := hsorted.1 other hother
        omega

/-- Items that are sorted by their weights leave no bucket empty just when all but one of the
buckets get an item that weighs something. -/
theorem assign_fills_iff {n : Nat} (hn : 0 < n) {items : List α} (hlength : n ≤ items.length)
    (hsorted : items.Pairwise (fun a b => weight b ≤ weight a)) :
  (∀ bucket ∈ assign weight (emptyBuckets n) items, bucket ≠ [])
    ↔ n ≤ items.countP (0 < weight ·) + 1
  := by
  obtain ⟨heavy, light, rfl, hheavy, hlight⟩ := sorted_split hsorted
  have hne : (emptyBuckets n : List (List α)) ≠ [] := emptyBuckets_ne_nil hn
  have hcount : (heavy ++ light).countP (0 < weight ·) = heavy.length := by
    rw [List.countP_append, List.countP_eq_length.mpr, List.countP_eq_zero.mpr, Nat.add_zero]
    · intro item hitem
      simp [hlight item hitem]
    · intro item hitem
      simpa using hheavy item hitem
  obtain ⟨hempty, hweigh⟩ := emptyCount_assign hne (weighUnlessEmpty_emptyBuckets n) hheavy
  rw [emptyCount_emptyBuckets] at hempty
  have hne' : assign weight (emptyBuckets n) heavy ≠ [] := by
    rw [← List.length_pos_iff] at hne ⊢
    rwa [length_assign]
  have hassign : assign weight (emptyBuckets n) (heavy ++ light)
      = assign weight (assign weight (emptyBuckets n) heavy) light := List.foldl_append
  rw [hcount, hassign, ← emptyCount_eq_zero_iff]
  by_cases hnone : light = []
  · subst hnone
    rw [List.append_nil] at hlength
    simp only [assign, List.foldl_nil] at hempty ⊢
    omega
  · obtain ⟨before, bucket, after, hbuckets, hbefore, hafter⟩ :=
      exists_least weight hne'
    rw [hbuckets] at hempty hweigh ⊢
    rw [assign_weightless hbefore hafter hlight,
      emptyCount_filled hweigh hbefore hafter (by simp [hnone]), hempty]
    omega

end

end Greedy
