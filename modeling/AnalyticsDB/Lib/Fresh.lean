import Mathlib.Data.Finset.Card
import Mathlib.Data.List.Nodup

/-!
# Names that are not taken

From a sequence of different candidates, `first` finds the first that is not taken.  The search ends
because no more candidates are taken than there are taken names.

Names are often kept in two spellings.  When two of them have the same first spelling exactly when
they have the same second one, then names that are different in one are different in the other.
-/

namespace Fresh

variable {α β : Type}

section Search

variable {candidate : ℕ → α}

/-- The candidates below the next number are taken, too. -/
theorem taken_succ {taken : List α} {i : ℕ} (h : ∀ j < i, candidate j ∈ taken)
    (hi : candidate i ∈ taken) :
  ∀ j < i + 1, candidate j ∈ taken
  := by
  intro j hj
  obtain rfl | hlt := Nat.eq_or_lt_of_le (Nat.le_of_lt_succ hj)
  · exact hi
  · exact h j hlt

/-- No more candidates are taken than there are taken names. -/
theorem le_length_of_taken (hdifferent : Function.Injective candidate) {taken : List α} {i : ℕ}
    (h : ∀ j < i, candidate j ∈ taken) :
  i ≤ taken.length
  := by
  classical
  have hsubset : (Finset.range i).image candidate ⊆ taken.toFinset := by
    intro name hname
    obtain ⟨j, hj, rfl⟩ := Finset.mem_image.mp hname
    exact List.mem_toFinset.mpr (h j (Finset.mem_range.mp hj))
  calc
    i = ((Finset.range i).image candidate).card := by
      rw [Finset.card_image_of_injective _ hdifferent, Finset.card_range]
    _ ≤ taken.toFinset.card := Finset.card_le_card hsubset
    _ ≤ taken.length := List.toFinset_card_le taken

variable [DecidableEq α]

/-- The number of the first candidate that is not taken, when those below `i` are. -/
def firstFrom (hdifferent : Function.Injective candidate) (taken : List α) (i : ℕ)
    (h : ∀ j < i, candidate j ∈ taken) : ℕ :=
  if hi : candidate i ∈ taken then firstFrom hdifferent taken (i + 1) (taken_succ h hi) else i
termination_by taken.length - i
decreasing_by
  have hle := le_length_of_taken hdifferent (taken_succ h hi)
  omega

/-- The number of the first candidate that is not taken. -/
def first (hdifferent : Function.Injective candidate) (taken : List α) : ℕ :=
  firstFrom hdifferent taken 0 (fun _ hj => absurd hj (Nat.not_lt_zero _))

theorem firstFrom_spec (hdifferent : Function.Injective candidate) (taken : List α) (i : ℕ)
    (h : ∀ j < i, candidate j ∈ taken) :
  candidate (firstFrom hdifferent taken i h) ∉ taken
    ∧ ∀ j < firstFrom hdifferent taken i h, candidate j ∈ taken
  := by
  induction i, h using firstFrom.induct hdifferent taken with
  | case1 i h hi ih =>
      rw [firstFrom, dif_pos hi]
      exact ih
  | case2 i h hi =>
      rw [firstFrom, dif_neg hi]
      exact ⟨hi, h⟩

/-- The candidate that is found is not taken. -/
theorem first_notMem (hdifferent : Function.Injective candidate) (taken : List α) :
  candidate (first hdifferent taken) ∉ taken
  := (firstFrom_spec hdifferent taken 0 _).1

/-- Not more candidates are passed over than there are taken names. -/
theorem first_le_length (hdifferent : Function.Injective candidate) (taken : List α) :
  first hdifferent taken ≤ taken.length
  := le_length_of_taken hdifferent (firstFrom_spec hdifferent taken 0 _).2

end Search

/-- Two of the names have the same first spelling exactly when they have the same second one. -/
def OneToOne (names : List (α × β)) : Prop :=
  ∀ p ∈ names, ∀ q ∈ names, p.1 = q.1 ↔ p.2 = q.2

instance [DecidableEq α] [DecidableEq β] (names : List (α × β)) : Decidable (OneToOne names) :=
  inferInstanceAs (Decidable (∀ p ∈ names, ∀ q ∈ names, p.1 = q.1 ↔ p.2 = q.2))

/-- Names that are different in the first spelling are different in the second one. -/
theorem OneToOne.nodup {all names : List (α × β)} (h : OneToOne all)
    (hsubset : ∀ p ∈ names, p ∈ all) (hnodup : (names.map Prod.fst).Nodup) :
  (names.map Prod.snd).Nodup
  := by
  rw [List.Nodup, List.pairwise_map] at hnodup ⊢
  apply hnodup.imp_of_mem
  intro p q hp hq hne heq
  exact hne ((h p (hsubset p hp) q (hsubset q hq)).mpr heq)

end Fresh
