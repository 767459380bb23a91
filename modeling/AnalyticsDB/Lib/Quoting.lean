import Mathlib.Data.List.Basic

/-!
# Quoting by doubling

A text is quoted by doubling each quote in it.  `double q s` is `s` with its quotes doubled, and
`undouble q` reads such a text back: it is `double q s` for at most one `s`, and for some `s`
exactly when it is a sequence of doubled quotes and other symbols.
-/

namespace Quoting

variable {α : Type} [DecidableEq α] (q : α)

/-- A text with its quotes doubled. -/
def double (s : List α) : List α := s.flatMap (fun c => if c = q then [q, q] else [c])

/-- A sequence of doubled quotes and symbols that are not quotes. -/
inductive Doubled : List α → Prop
  | nil : Doubled []
  | char {c : α} {s : List α} : c ≠ q → Doubled s → Doubled (c :: s)
  | pair {s : List α} : Doubled s → Doubled (q :: q :: s)

/-- Each doubled quote is read as one; there is no other quote. -/
def undouble : List α → Option (List α)
  | [] => some []
  | c :: rest =>
    if c = q then
      match rest with
      | [] => none
      | d :: rest => if d = q then (undouble rest).map (q :: ·) else none
    else
      (undouble rest).map (c :: ·)

variable {q}

@[simp]
theorem double_nil :
  double q ([] : List α) = []
  := rfl

theorem double_quote (s : List α) :
  double q (q :: s) = q :: q :: double q s
  := by
  rw [double, List.flatMap_cons, if_pos rfl]
  rfl

theorem double_char {c : α} (hc : c ≠ q) (s : List α) :
  double q (c :: s) = c :: double q s
  := by
  rw [double, List.flatMap_cons, if_neg hc]
  rfl

theorem double_append (s t : List α) :
  double q (s ++ t) = double q s ++ double q t
  := List.flatMap_append

/-- A text without quotes is not changed. -/
theorem double_eq_self {s : List α} (h : q ∉ s) :
  double q s = s
  := by
  induction s with
  | nil => rfl
  | cons c s ih =>
      rw [List.mem_cons, not_or] at h
      rw [double_char (Ne.symm h.1), ih h.2]

theorem length_le_double (s : List α) :
  s.length ≤ (double q s).length
  := by
  induction s with
  | nil => exact Nat.le_refl _
  | cons c s ih =>
      by_cases hc : c = q
      · rw [hc, double_quote, List.length_cons, List.length_cons, List.length_cons]
        exact Nat.le_succ_of_le (Nat.succ_le_succ ih)
      · rw [double_char hc, List.length_cons, List.length_cons]
        exact Nat.succ_le_succ ih

theorem undouble_char {c : α} (hc : c ≠ q) (s : List α) :
  undouble q (c :: s) = (undouble q s).map (c :: ·)
  := by
  simp [undouble.eq_def q (c :: s), hc]

theorem undouble_pair (s : List α) :
  undouble q (q :: q :: s) = (undouble q s).map (q :: ·)
  := by
  simp [undouble]

/-- Reading undoes doubling. -/
theorem undouble_double (s : List α) :
  undouble q (double q s) = some s
  := by
  induction s with
  | nil => rfl
  | cons c s ih =>
      by_cases hc : c = q
      · rw [hc, double_quote, undouble_pair, ih, Option.map_some]
      · rw [double_char hc, undouble_char hc, ih, Option.map_some]

/-- What is read is a text with its quotes doubled. -/
theorem eq_double_of_undouble {text s : List α} (h : undouble q text = some s) :
  text = double q s
  := by
  induction text using undouble.induct q generalizing s with
  | case1 =>
      cases h
      rfl
  | case2 => simp [undouble] at h
  | case3 rest ih =>
      rw [undouble_pair, Option.map_eq_some_iff] at h
      obtain ⟨t, ht, rfl⟩ := h
      rw [double_quote, ← ih ht]
  | case4 d rest hd => simp [undouble, hd] at h
  | case5 c rest hc ih =>
      rw [undouble_char hc, Option.map_eq_some_iff] at h
      obtain ⟨t, ht, rfl⟩ := h
      rw [double_char hc, ← ih ht]

theorem undouble_eq_some_iff {text s : List α} :
  undouble q text = some s ↔ text = double q s
  := by
  refine ⟨eq_double_of_undouble, ?_⟩
  rintro rfl
  apply undouble_double

theorem double_injective {s t : List α} (h : double q s = double q t) :
  s = t
  := by
  have hread := undouble_double (q := q) s
  rw [h, undouble_double] at hread
  exact (Option.some.inj hread).symm

/-- Doubling gives exactly the sequences of doubled quotes and other symbols. -/
theorem doubled_iff {text : List α} :
  Doubled q text ↔ ∃ s, text = double q s
  := by
  constructor
  · intro h
    induction h with
    | nil => exact ⟨[], rfl⟩
    | char hc _ ih =>
        obtain ⟨s, rfl⟩ := ih
        exact ⟨_ :: s, (double_char hc s).symm⟩
    | pair _ ih =>
        obtain ⟨s, rfl⟩ := ih
        exact ⟨q :: s, (double_quote s).symm⟩
  · rintro ⟨s, rfl⟩
    induction s with
    | nil => exact .nil
    | cons c s ih =>
        by_cases hc : c = q
        · rw [hc, double_quote]
          exact .pair ih
        · rw [double_char hc]
          exact .char hc ih

end Quoting
