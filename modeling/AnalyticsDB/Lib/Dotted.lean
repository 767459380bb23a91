import Mathlib.Data.List.Basic

/-!
# Names joined by a separator

Lists of symbols joined by a separator that none of them contains are determined by the
joined list, and so is the question which of them a joined list starts with.
-/

namespace Dotted

variable {α : Type}

/-- Splitting at the first separator is unique. -/
theorem append_cons_inj {sep : α} {a a' b b' : List α} (ha : sep ∉ a) (ha' : sep ∉ a')
    (h : a ++ sep :: b = a' ++ sep :: b') :
  a = a' ∧ b = b'
  := by
  induction a generalizing a' with
  | nil =>
      cases a' with
      | nil => simpa using h
      | cons x a' =>
          simp only [List.nil_append, List.cons_append, List.cons.injEq] at h
          simp [h.1] at ha'
  | cons x a ih =>
      cases a' with
      | nil =>
          simp only [List.nil_append, List.cons_append, List.cons.injEq] at h
          simp [h.1] at ha
      | cons x' a' =>
          simp only [List.cons_append, List.cons.injEq] at h
          simp only [List.mem_cons, not_or] at ha ha'
          obtain ⟨rfl, rfl⟩ := ih ha.2 ha'.2 h.2
          simp [h.1]

/-- A list of three joined parts determines them when those on one side have no
separator. -/
theorem join_three_inj [DecidableEq α] {sep : α} {a b c a' b' c' : List α}
    (ha' : sep ∉ a') (hb' : sep ∉ b') (hc' : sep ∉ c')
    (h : a ++ sep :: (b ++ sep :: c) = a' ++ sep :: (b' ++ sep :: c')) :
  a = a' ∧ b = b' ∧ c = c'
  := by
  have hcount := congrArg (List.count sep) h
  simp only [List.count_append, List.count_cons_self, List.count_eq_zero_of_not_mem ha',
    List.count_eq_zero_of_not_mem hb', List.count_eq_zero_of_not_mem hc'] at hcount
  have ha : sep ∉ a := List.count_eq_zero.mp (by omega)
  have hb : sep ∉ b := List.count_eq_zero.mp (by omega)
  obtain ⟨rfl, hrest⟩ := append_cons_inj ha ha' h
  obtain ⟨rfl, rfl⟩ := append_cons_inj hb hb' hrest
  exact ⟨rfl, rfl, rfl⟩

/-- A joined list starts with a part and a separator exactly when the part is its first
one. -/
theorem isPrefixOf_join_iff [DecidableEq α] {sep : α} {a b s : List α} (ha : sep ∉ a)
    (hs : sep ∉ s) :
  (s ++ [sep]).isPrefixOf (a ++ sep :: b) = true ↔ s = a
  := by
  rw [List.isPrefixOf_iff_prefix]
  constructor
  · rintro ⟨t, ht⟩
    rw [List.append_assoc, List.singleton_append] at ht
    apply (append_cons_inj hs ha ht).1
  · rintro rfl
    use b
    simp

/-- A list without the separator occurs in a joined list exactly when it occurs in a part. -/
theorem isInfix_append_cons_iff {sep : α} {s a b : List α} (hs : sep ∉ s) :
  s <:+: a ++ sep :: b ↔ s <:+: a ∨ s <:+: b
  := by
  constructor
  · rintro ⟨start, rest, h⟩
    rw [List.append_assoc, List.append_eq_append_iff] at h
    rcases h with ⟨before, rfl, h⟩ | ⟨after, rfl, h⟩
    · -- the occurrence starts in `a`, and the separator is not in it
      rw [List.append_eq_append_iff] at h
      rcases h with ⟨tail, rfl, -⟩ | ⟨tail, rfl, h⟩
      · exact .inl ⟨start, tail, by simp⟩
      · cases tail with
        | nil => exact .inl ⟨start, [], by simp⟩
        | cons x tail =>
            simp only [List.cons_append, List.cons.injEq] at h
            simp [h.1] at hs
    · cases after with
      | nil =>
          cases s with
          | nil => exact .inl List.nil_infix
          | cons x s =>
              simp only [List.nil_append, List.cons_append, List.cons.injEq] at h
              simp [h.1] at hs
      | cons x after =>
          simp only [List.cons_append, List.cons.injEq] at h
          exact .inr ⟨after, rest, by simp [h.2]⟩
  · rintro (h | h)
    · exact h.trans (List.infix_append' [] a _)
    · apply h.trans
      exact ⟨a ++ [sep], [], by simp⟩

section

variable [DecidableEq α] (sep : α)

/-- Splitting joined lists splits each of them. -/
theorem splitOn_intercalate_flatMap {lists : List (List α)} (h : lists ≠ []) :
  ([sep].intercalate lists).splitOn sep = lists.flatMap (List.splitOn sep)
  := by
  induction lists with
  | nil => exact absurd rfl h
  | cons first rest ih =>
      cases rest with
      | nil => simp
      | cons second rest =>
          rw [List.intercalate_cons_cons, List.append_assoc, List.singleton_append,
            List.splitOn_append_cons_self, ih (List.cons_ne_nil second rest)]
          rfl

/-- Lists are joined to the same when they are split to the same. -/
theorem intercalate_eq_iff {lists lists' : List (List α)} (h : lists ≠ []) (h' : lists' ≠ []) :
  [sep].intercalate lists = [sep].intercalate lists'
    ↔ lists.flatMap (List.splitOn sep) = lists'.flatMap (List.splitOn sep)
  := by
  rw [← splitOn_intercalate_flatMap sep h, ← splitOn_intercalate_flatMap sep h']
  constructor
  · exact congrArg (List.splitOn sep)
  · intro hsplit
    have hjoin := congrArg [sep].intercalate hsplit
    rwa [List.intercalate_splitOn, List.intercalate_splitOn] at hjoin

end

end Dotted
