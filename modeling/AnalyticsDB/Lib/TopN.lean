import Mathlib.Data.Finset.Card
import Mathlib.Data.List.Dedup
import Mathlib.Data.List.Forall2
import Mathlib.Data.List.Perm.Subperm
import Mathlib.Data.List.Sort
import Mathlib.Data.List.TakeWhile

/-!
# The first elements of an order

The elements of a list are arranged in an order that may leave some of them tied, the first one of
each key is kept, and the result is cut off.  The result is not unique: it is one for each
arrangement.  The elements may come in parts: the results of the parts, put together, have the same
results as all elements.
-/

namespace TopN

variable {α κ : Type} [DecidableEq κ] (key : α → Option κ)

/-- Keep an element, unless one of its key is there. -/
def keep (kept : List α) (x : α) : List α :=
  if (key x).isSome ∧ ∃ a ∈ kept, key a = key x then kept else kept ++ [x]

/-- The first element of each key, and every element that has none. -/
def firsts (l : List α) : List α := l.foldl (keep key) []

/-- The results of the first `n` elements in an order. -/
def Gives (le : α → α → Prop) (n : Nat) (l result : List α) : Prop :=
  ∃ arranged : List α, arranged.Perm l ∧ arranged.Pairwise le
    ∧ result = (firsts key arranged).take n

/-! ### First elements -/

section

variable {key}

theorem firsts_append (l l' : List α) :
  firsts key (l ++ l') = l'.foldl (keep key) (firsts key l)
  := List.foldl_append

theorem firsts_concat (l : List α) (x : α) : firsts key (l ++ [x]) = keep key (firsts key l) x
  := by
  rw [firsts_append]
  rfl

/-- What is kept stays at the front. -/
theorem isPrefix_foldl_keep (l kept : List α) : kept <+: l.foldl (keep key) kept
  := by
  induction l generalizing kept with
  | nil => exact List.prefix_refl kept
  | cons x l ih =>
      apply List.IsPrefix.trans _ (ih (keep key kept x))
      unfold keep
      split
      · exact List.prefix_refl kept
      · exact List.prefix_append kept [x]

theorem firsts_isPrefix (l l' : List α) : firsts key l <+: firsts key (l ++ l')
  := by
  rw [firsts_append]
  exact isPrefix_foldl_keep l' (firsts key l)

theorem firsts_sublist (l : List α) : (firsts key l).Sublist l
  := by
  induction l using List.reverseRecOn with
  | nil => exact List.Sublist.refl []
  | append_singleton l x ih =>
      rw [firsts_concat]
      unfold keep
      split
      · exact ih.trans (List.sublist_append_left l [x])
      · exact ih.append (List.Sublist.refl [x])

/-- Every key is kept. -/
theorem exists_mem_firsts {l : List α} {x : α} (h : x ∈ l) :
  x ∈ firsts key l ∨ (key x).isSome ∧ ∃ a ∈ firsts key l, key a = key x
  := by
  induction l using List.reverseRecOn with
  | nil => cases h
  | append_singleton l y ih =>
      rw [firsts_concat]
      unfold keep
      obtain h | h := List.mem_append.mp h
      · obtain hmem | ⟨hsome, a, ha, hkey⟩ := ih h
        · left
          split
          · exact hmem
          · exact List.mem_append_left _ hmem
        · right
          refine ⟨hsome, a, ?_, hkey⟩
          split
          · exact ha
          · exact List.mem_append_left _ ha
      · obtain rfl := List.mem_singleton.mp h
        split
        · rename_i hdouble
          exact .inr hdouble
        · exact .inl (List.mem_append_right _ List.mem_cons_self)

/-- First elements of an image with the same keys. -/
theorem firsts_map {β : Type} {key' : β → Option κ} {f : α → β} {l : List α}
    (h : ∀ a ∈ l, key' (f a) = key a) :
  firsts key' (l.map f) = (firsts key l).map f
  := by
  induction l using List.reverseRecOn with
  | nil => rfl
  | append_singleton l x ih =>
      have hl : ∀ a ∈ l, key' (f a) = key a := fun a ha => h a (List.mem_append_left _ ha)
      have hx : key' (f x) = key x := h x (List.mem_append_right _ List.mem_cons_self)
      have hsame : (∃ b ∈ (firsts key l).map f, key' b = key' (f x))
          ↔ ∃ a ∈ firsts key l, key a = key x := by
        constructor
        · rintro ⟨b, hb, hkey⟩
          obtain ⟨a, ha, rfl⟩ := List.mem_map.mp hb
          rw [hl a ((firsts_sublist l).subset ha), hx] at hkey
          exact ⟨a, ha, hkey⟩
        · rintro ⟨a, ha, hkey⟩
          refine ⟨f a, List.mem_map_of_mem ha, ?_⟩
          rw [hl a ((firsts_sublist l).subset ha), hx, hkey]
      rw [List.map_append, List.map_cons, List.map_nil, firsts_concat, firsts_concat, ih hl]
      unfold keep
      by_cases hdouble : (key x).isSome ∧ ∃ a ∈ firsts key l, key a = key x
      · rw [if_pos hdouble, if_pos ⟨by rw [hx]; exact hdouble.1, hsame.mpr hdouble.2⟩]
      · rw [if_neg hdouble, List.map_append, List.map_cons, List.map_nil]
        apply if_neg
        rintro ⟨hsome, hexists⟩
        exact hdouble ⟨by rwa [hx] at hsome, hsame.mp hexists⟩

/-- No two elements have one key. -/
def Fresh (key : α → Option κ) (l : List α) : Prop :=
  l.Pairwise (fun a b => (key b).isSome → key a ≠ key b)

theorem firsts_fresh (l : List α) : Fresh key (firsts key l)
  := by
  induction l using List.reverseRecOn with
  | nil => exact List.Pairwise.nil
  | append_singleton l x ih =>
      rw [firsts_concat]
      unfold keep
      split
      · exact ih
      · rename_i hnew
        apply List.pairwise_append.mpr
        refine ⟨ih, List.pairwise_singleton _ x, ?_⟩
        intro a ha b hb hsome hkey
        obtain rfl := List.mem_singleton.mp hb
        exact hnew ⟨hsome, a, ha, hkey⟩

/-- The number of keys, counting every element that has none. -/
def size (key : α → Option κ) (l : List α) : Nat :=
  (l.filterMap key).toFinset.card + l.countP (fun x => (key x).isNone)

theorem length_firsts (l : List α) : (firsts key l).length = size key l
  := by
  induction l using List.reverseRecOn with
  | nil => rfl
  | append_singleton l x ih =>
      have hmem : ∀ k, k ∈ l.filterMap key ↔ ∃ a ∈ firsts key l, key a = some k := by
        intro k
        rw [List.mem_filterMap]
        constructor
        · rintro ⟨a, ha, hk⟩
          obtain hfirst | ⟨-, b, hb, hkey⟩ := @exists_mem_firsts α κ _ key l a ha
          · exact ⟨a, hfirst, hk⟩
          · exact ⟨b, hb, hkey.trans hk⟩
        · rintro ⟨a, ha, hk⟩
          exact ⟨a, (firsts_sublist l).subset ha, hk⟩
      rw [firsts_concat, size, List.filterMap_append, List.countP_append]
      rw [size] at ih
      cases hx : key x with
      | none =>
          have hkeep : keep key (firsts key l) x = firsts key l ++ [x] := by simp [keep, hx]
          simp [hkeep, hx, ih]
          omega
      | some k =>
          by_cases hold : k ∈ l.filterMap key
          · have hkeep : keep key (firsts key l) x = firsts key l := by
              obtain ⟨a, ha, hk⟩ := (hmem k).mp hold
              exact if_pos ⟨by rw [hx]; rfl, a, ha, hk.trans hx.symm⟩
            have hinsert : (l.filterMap key ++ [k]).toFinset = (l.filterMap key).toFinset := by
              ext j
              simp only [List.mem_toFinset, List.mem_append, List.mem_singleton]
              constructor
              · rintro (hj | rfl)
                · exact hj
                · exact hold
              · exact .inl
            simp [hkeep, hx, hinsert, ih]
          · have hkeep : keep key (firsts key l) x = firsts key l ++ [x] := by
              apply if_neg
              rintro ⟨-, a, ha, hkey⟩
              exact hold ((hmem k).mpr ⟨a, ha, hkey.trans hx⟩)
            have hinsert : (insert k (l.filterMap key).toFinset).card
                = (l.filterMap key).toFinset.card + 1 := by
              apply Finset.card_insert_of_notMem
              rwa [List.mem_toFinset]
            simp [hkeep, hx, hinsert, ih]
            omega

theorem size_le_of_subperm {l l' : List α} (h : l.Subperm l') : size key l ≤ size key l'
  := by
  apply Nat.add_le_add
  · apply Finset.card_le_card
    intro k hk
    rw [List.mem_toFinset, List.mem_filterMap] at hk ⊢
    obtain ⟨a, ha, hk⟩ := hk
    exact ⟨a, h.subset ha, hk⟩
  · exact h.countP_le _

theorem firsts_eq_of_fresh {l : List α} (h : Fresh key l) : firsts key l = l
  := by
  induction l using List.reverseRecOn with
  | nil => rfl
  | append_singleton l x ih =>
      obtain ⟨hl, -, hx⟩ := List.pairwise_append.mp h
      rw [firsts_concat, ih hl]
      apply if_neg
      rintro ⟨hsome, a, ha, hkey⟩
      exact hx a ha x List.mem_cons_self hsome hkey

theorem size_of_fresh {l : List α} (h : Fresh key l) : size key l = l.length
  := by
  rw [← length_firsts, firsts_eq_of_fresh h]

end

/-! ### What is left out -/

section

variable {key} {le : α → α → Prop} {n : Nat}

/-- An element that what is kept leaves no place for: one of its key comes before it, or enough
others do. -/
def Dominated (key : α → Option κ) (le : α → α → Prop) (n : Nat) (kept : List α) (x : α) : Prop :=
  ((key x).isSome ∧ ∃ a ∈ kept, le a x ∧ key a = key x)
    ∨ kept.length = n ∧ ∀ a ∈ kept, le a x

/-- What is not among the first elements is dominated by them. -/
theorem exists_rest {l : List α} (hsorted : l.Pairwise le) (n : Nat) :
  ∃ rest, l.Perm ((firsts key l).take n ++ rest)
    ∧ ∀ x ∈ rest, Dominated key le n ((firsts key l).take n) x
  := by
  induction l using List.reverseRecOn with
  | nil => exact ⟨[], by simp [firsts], by simp⟩
  | append_singleton l x ih =>
      obtain ⟨hl, -, hx⟩ := List.pairwise_append.mp hsorted
      obtain ⟨rest, hperm, hrest⟩ := ih hl
      have hle : ∀ a ∈ firsts key l, le a x := by
        intro a ha
        exact hx a ((firsts_sublist l).subset ha) x List.mem_cons_self
      have hfull : n ≤ (firsts key l).length → Dominated key le n ((firsts key l).take n) x := by
        intro hn
        right
        exact ⟨by simpa using hn, fun a ha => hle a (List.mem_of_mem_take ha)⟩
      have hleft : (l ++ [x]).Perm ((firsts key l).take n ++ (rest ++ [x])) := by
        rw [← List.append_assoc]
        exact hperm.append_right [x]
      have hforall : Dominated key le n ((firsts key l).take n) x →
          ∀ y ∈ rest ++ [x], Dominated key le n ((firsts key l).take n) y := by
        intro hdominated y hy
        obtain hy | hy := List.mem_append.mp hy
        · exact hrest y hy
        · rwa [List.mem_singleton.mp hy]
      rw [firsts_concat]
      unfold keep
      split
      · rename_i hdouble
        obtain ⟨hsome, a, ha, hkey⟩ := hdouble
        refine ⟨rest ++ [x], hleft, hforall ?_⟩
        by_cases hn : n ≤ (firsts key l).length
        · exact hfull hn
        · left
          refine ⟨hsome, a, ?_, hle a ha, hkey⟩
          rwa [List.take_of_length_le (by omega)]
      · by_cases hn : n ≤ (firsts key l).length
        · rw [List.take_append_of_le_length hn]
          exact ⟨rest ++ [x], hleft, hforall (hfull hn)⟩
        · -- The element is kept, and nothing was left out for want of a place.
          rw [List.take_of_length_le (by simp; omega)]
          rw [List.take_of_length_le (by omega)] at hperm hrest
          refine ⟨rest, ?_, ?_⟩
          · apply (hperm.append_right [x]).trans
            rw [List.append_assoc, List.append_assoc]
            exact List.perm_append_comm.append_left _
          · intro y hy
            obtain ⟨hsome, a, ha, hay, hkey⟩ | ⟨hlength, -⟩ := hrest y hy
            · exact .inl ⟨hsome, a, List.mem_append_left _ ha, hay, hkey⟩
            · omega

variable [DecidableRel le]

/-- An element put after all that come before it or are tied with it. -/
def place (le : α → α → Prop) [DecidableRel le] (x : α) (l : List α) : List α :=
  l.takeWhile (fun a => le a x) ++ x :: l.dropWhile (fun a => le a x)

theorem place_perm (x : α) (l : List α) : (place le x l).Perm (x :: l)
  := by
  unfold place
  conv_rhs => rw [← List.takeWhile_append_dropWhile (p := fun a => decide (le a x)) (l := l)]
  exact List.perm_middle

variable (htrans : ∀ a b c, le a b → le b c → le a c)

include htrans

theorem takeWhile_eq_filter {l : List α} (hsorted : l.Pairwise le) (x : α) :
  l.takeWhile (fun a => le a x) = l.filter (fun a => le a x)
  := by
  induction l with
  | nil => rfl
  | cons a l ih =>
      obtain ⟨ha, hl⟩ := List.pairwise_cons.mp hsorted
      by_cases hax : le a x
      · simp [hax, ih hl]
      · have hnone : l.filter (fun a => le a x) = [] := by
          rw [List.filter_eq_nil_iff]
          intro b hb hbx
          exact hax (htrans a b x (ha b hb) (of_decide_eq_true hbx))
        simp [hax, hnone]

theorem place_sorted (htotal : ∀ a b, le a b ∨ le b a) {l : List α} (hsorted : l.Pairwise le)
    (x : α) :
  (place le x l).Pairwise le
  := by
  unfold place
  have hsplit : (l.takeWhile (fun a => le a x) ++ l.dropWhile (fun a => le a x)).Pairwise le := by
    rwa [List.takeWhile_append_dropWhile]
  obtain ⟨hbefore, hafter, hcross⟩ := List.pairwise_append.mp hsplit
  have hless : ∀ a ∈ l.takeWhile (fun a => le a x), le a x := by
    intro a ha
    simpa using List.mem_takeWhile_imp ha
  have hgreater : ∀ b ∈ l.dropWhile (fun a => le a x), le x b := by
    intro b hb
    cases hdrop : l.dropWhile (fun a => le a x) with
    | nil => rw [hdrop] at hb; cases hb
    | cons c rest =>
        have hc : le x c := by
          have hnot : ¬ le c x := by
            have := List.head_dropWhile_not (fun a => decide (le a x)) (l := l) (by simp [hdrop])
            simpa [hdrop] using this
          exact (htotal x c).resolve_right hnot
        rw [hdrop] at hb hafter
        obtain rfl | hb := List.mem_cons.mp hb
        · exact hc
        · exact htrans x c b hc ((List.pairwise_cons.mp hafter).1 b hb)
  apply List.pairwise_append.mpr
  refine ⟨hbefore, List.pairwise_cons.mpr ⟨hgreater, hafter⟩, ?_⟩
  intro a ha b hb
  obtain rfl | hb := List.mem_cons.mp hb
  · exact hless a ha
  · exact hcross a ha b hb

/-- A dominated element changes nothing. -/
theorem take_firsts_place {l kept : List α} {x : α} (hsorted : l.Pairwise le)
    (hkept : kept.Subperm l) (hfresh : Fresh key kept) (hdominated : Dominated key le n kept x) :
  (firsts key (place le x l)).take n = (firsts key l).take n
  := by
  have hbefore : ∀ a ∈ kept, le a x → a ∈ l.takeWhile (fun a => le a x) := by
    intro a ha hax
    rw [takeWhile_eq_filter htrans hsorted]
    exact List.mem_filter.mpr ⟨hkept.subset ha, by simpa using hax⟩
  have hsplit : firsts key l
      = (l.dropWhile (fun a => le a x)).foldl (keep key)
        (firsts key (l.takeWhile (fun a => le a x))) := by
    rw [← firsts_append, List.takeWhile_append_dropWhile]
  have hplace : firsts key (place le x l)
      = (l.dropWhile (fun a => le a x)).foldl (keep key)
        (keep key (firsts key (l.takeWhile (fun a => le a x))) x) := by
    rw [place, firsts_append]
    rfl
  obtain ⟨hsome, a, ha, hax, hkey⟩ | ⟨hlength, hall⟩ := hdominated
  · have hdouble : keep key (firsts key (l.takeWhile (fun a => le a x))) x
        = firsts key (l.takeWhile (fun a => le a x)) := by
      apply if_pos
      refine ⟨hsome, ?_⟩
      obtain hfirst | ⟨-, b, hb, hkey'⟩ := @exists_mem_firsts α κ _ key _ a (hbefore a ha hax)
      · exact ⟨a, hfirst, hkey⟩
      · exact ⟨b, hb, hkey'.trans hkey⟩
    rw [hplace, hdouble, ← hsplit]
  · -- There are enough elements before the new one.
    have hsubperm : kept.Subperm (l.takeWhile (fun a => le a x)) := by
      rw [takeWhile_eq_filter htrans hsorted]
      have hfilter : kept.filter (fun a => le a x) = kept := by
        apply List.filter_eq_self.mpr
        intro a ha
        simpa using hall a ha
      rw [← hfilter]
      exact hkept.filter _
    have hn : n ≤ (firsts key (l.takeWhile (fun a => le a x))).length := by
      rw [length_firsts, ← hlength, ← size_of_fresh hfresh]
      exact size_le_of_subperm hsubperm
    have htake : ∀ l', (firsts key (l.takeWhile (fun a => le a x)) <+: l') →
        l'.take n = (firsts key (l.takeWhile (fun a => le a x))).take n := by
      rintro _ ⟨rest, rfl⟩
      exact List.take_append_of_le_length hn
    rw [htake (firsts key l), htake (firsts key (place le x l))]
    · rw [place]
      exact firsts_isPrefix _ _
    · rw [hsplit]
      exact isPrefix_foldl_keep _ _

variable (htotal : ∀ a b, le a b ∨ le b a)

include htotal

/-- Elements that are dominated can be put into an arrangement. -/
theorem exists_arranged {kept rest : List α} (hsorted : kept.Pairwise le)
    (hrest : ∀ x ∈ rest, ∃ some, some.Subperm kept ∧ Fresh key some
      ∧ Dominated key le n some x) :
  ∃ arranged : List α, arranged.Perm (kept ++ rest) ∧ arranged.Pairwise le
    ∧ (firsts key arranged).take n = (firsts key kept).take n
  := by
  induction rest with
  | nil => exact ⟨kept, by simp, hsorted, rfl⟩
  | cons x rest ih =>
      obtain ⟨arranged, hperm, harranged, hfirsts⟩ := ih (fun y hy =>
        hrest y (List.mem_cons_of_mem x hy))
      obtain ⟨some, hsubperm, hfresh, hdominated⟩ := hrest x List.mem_cons_self
      have hsome : some.Subperm arranged :=
        (hsubperm.trans (List.sublist_append_left kept rest).subperm).trans hperm.symm.subperm
      refine ⟨place le x arranged, ?_, place_sorted htrans htotal harranged x, ?_⟩
      · apply (place_perm x arranged).trans
        apply (hperm.cons x).trans
        exact List.perm_middle.symm
      · rw [take_firsts_place htrans harranged hsome hfresh hdominated, hfirsts]

/-- The results of the results of the parts are results of all elements. -/
theorem gives_flatten {parts results : List (List α)} {result : List α}
    (hparts : List.Forall₂ (Gives key le n) parts results)
    (hresult : Gives key le n results.flatten result) :
  Gives key le n parts.flatten result
  := by
  have hrest : ∃ rest, parts.flatten.Perm (results.flatten ++ rest)
      ∧ ∀ x ∈ rest, ∃ some, some.Subperm results.flatten ∧ Fresh key some
        ∧ Dominated key le n some x := by
    clear hresult
    induction hparts with
    | nil => exact ⟨[], by simp, by simp⟩
    | @cons part kept parts results hpart _ ih =>
        obtain ⟨rest, hperm, hdominated⟩ := ih
        obtain ⟨arranged, harranged, hsorted, rfl⟩ := hpart
        obtain ⟨rest', hperm', hdominated'⟩ := @exists_rest α κ _ key le arranged hsorted n
        refine ⟨rest' ++ rest, ?_, ?_⟩
        · rw [List.flatten_cons, List.flatten_cons]
          apply ((harranged.symm.trans hperm').append hperm).trans
          rw [List.append_assoc, List.append_assoc]
          apply List.Perm.append_left
          rw [← List.append_assoc, ← List.append_assoc]
          exact List.perm_append_comm.append_right rest
        · intro x hx
          rw [List.flatten_cons]
          obtain hx | hx := List.mem_append.mp hx
          · refine ⟨_, (List.sublist_append_left _ _).subperm, ?_, hdominated' x hx⟩
            exact (firsts_fresh arranged).sublist (List.take_sublist n _)
          · obtain ⟨some, hsubperm, hfresh, hdom⟩ := hdominated x hx
            exact ⟨some, hsubperm.trans (List.sublist_append_right _ _).subperm, hfresh, hdom⟩
  obtain ⟨rest, hperm, hdominated⟩ := hrest
  obtain ⟨kept, hkept, hsorted, rfl⟩ := hresult
  obtain ⟨arranged, harranged, hsorted', hfirsts⟩ := @exists_arranged α κ _ key le n _
    htrans htotal kept rest hsorted (fun x hx => by
      obtain ⟨some, hsubperm, hfresh, hdom⟩ := hdominated x hx
      exact ⟨some, hsubperm.trans hkept.symm.subperm, hfresh, hdom⟩)
  refine ⟨arranged, ?_, hsorted', hfirsts.symm⟩
  exact (harranged.trans (hkept.append_right rest)).trans hperm.symm

end

/-! ### Elements that show the same -/

section

variable {β : Type} {le : α → α → Prop} [DecidableRel le] {shown : α → β}

theorem map_orderedInsert {x : α} {l : List α} (h : ∀ y ∈ l, le x y ∨ shown x = shown y) :
  (l.orderedInsert le x).map shown = (x :: l).map shown
  := by
  induction l with
  | nil => rfl
  | cons y l ih =>
      rw [List.orderedInsert_cons]
      split
      · rfl
      · rename_i hnot
        have heq : shown x = shown y := (h y List.mem_cons_self).resolve_left hnot
        rw [List.map_cons, ih fun z hz => h z (List.mem_cons_of_mem y hz), List.map_cons,
          List.map_cons, List.map_cons, heq]

/-- A list shows the same as one in order when its elements stand in order wherever they show
something different. -/
theorem map_insertionSort {l : List α} (h : l.Pairwise fun x y => le x y ∨ shown x = shown y) :
  (l.insertionSort le).map shown = l.map shown
  := by
  induction h with
  | nil => rfl
  | @cons x l hx _ ih =>
      rw [List.insertionSort_cons, map_orderedInsert, List.map_cons, ih, List.map_cons]
      intro y hy
      exact hx y ((List.mem_insertionSort le).mp hy)

end

end TopN
