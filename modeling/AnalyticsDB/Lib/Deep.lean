import Mathlib.Logic.Basic

/-!
# Computations of bounded depth

`Deep ε α` is a computation that returns an `α`, fails with an `ε`, or is given up because it went
too deep.  `Finishes m Q` says that `m` is not given up, and that `Q` holds of what it returns if it
returns something.
-/

/-- A computation that returns, fails, or goes too deep. -/
abbrev Deep (ε α : Type) := ExceptT ε Option α

namespace Deep

variable {ε α β : Type}

/-- Give up. -/
def tooDeep : Deep ε α := ExceptT.mk none

/-- The computation is not given up, and `Q` holds of what it returns. -/
def Finishes (m : Deep ε α) (Q : α → Prop) : Prop :=
  ∃ r, ExceptT.run m = some r ∧ ∀ a, r = .ok a → Q a

@[simp]
theorem finishes_pure (a : α) (Q : α → Prop) :
  Finishes (pure a : Deep ε α) Q ↔ Q a
  := by
  constructor
  · rintro ⟨r, hr, hQ⟩
    cases hr
    exact hQ a rfl
  · intro hQ
    refine ⟨.ok a, rfl, ?_⟩
    rintro _ ⟨⟩
    exact hQ

@[simp]
theorem finishes_throw (e : ε) (Q : α → Prop) :
  Finishes (throw e : Deep ε α) Q
  := by
  refine ⟨.error e, rfl, ?_⟩
  rintro _ ⟨⟩

@[simp]
theorem not_finishes_tooDeep (Q : α → Prop) :
  ¬ Finishes (tooDeep : Deep ε α) Q
  := by
  rintro ⟨r, hr, -⟩
  cases hr

/-- A sequence finishes when its first part does, and its second part after it. -/
@[simp]
theorem finishes_bind (m : Deep ε α) (f : α → Deep ε β) (Q : β → Prop) :
  Finishes (m >>= f) Q ↔ Finishes m (fun a => Finishes (f a) Q)
  := by
  simp only [Finishes, ExceptT.run_bind]
  rcases ExceptT.run m with _ | e | a
  · constructor
    · rintro ⟨r, ⟨⟩, -⟩
    · rintro ⟨r, ⟨⟩, -⟩
  · constructor
    · rintro ⟨r, -, -⟩
      exact ⟨.error e, rfl, by rintro _ ⟨⟩⟩
    · rintro ⟨r, -, -⟩
      exact ⟨.error e, rfl, by rintro _ ⟨⟩⟩
  · constructor
    · rintro ⟨r, hr, hQ⟩
      refine ⟨.ok a, rfl, ?_⟩
      rintro _ ⟨⟩
      exact ⟨r, hr, hQ⟩
    · rintro ⟨_, ⟨⟩, hQ⟩
      exact hQ a rfl

/-- A weaker property holds of what a computation returns when a stronger one does. -/
theorem Finishes.mono {m : Deep ε α} {Q R : α → Prop} (h : Finishes m Q) (hQR : ∀ a, Q a → R a) :
  Finishes m R
  := by
  obtain ⟨r, hr, hQ⟩ := h
  exact ⟨r, hr, fun a ha => hQR a (hQ a ha)⟩

/-- What holds of everything from some bound on for each element of a list holds from some bound
on for all of them. -/
theorem exists_bound {γ : Type} {P : γ → Nat → Prop} {l : List γ}
    (h : ∀ a ∈ l, ∃ bound, ∀ n ≥ bound, P a n) :
  ∃ bound, ∀ n ≥ bound, ∀ a ∈ l, P a n
  := by
  induction l with
  | nil =>
      refine ⟨0, ?_⟩
      intro n _ a ha
      cases ha
  | cons b l ih =>
      rw [List.forall_mem_cons] at h
      obtain ⟨⟨bound, hb⟩, h⟩ := h
      obtain ⟨bound', hl⟩ := ih h
      refine ⟨max bound bound', ?_⟩
      intro n hn
      rw [List.forall_mem_cons]
      exact ⟨hb n (Nat.le_trans (Nat.le_max_left ..) hn),
        hl n (Nat.le_trans (Nat.le_max_right ..) hn)⟩

/-- What a computation returns. -/
def Returns (m : Deep ε α) (a : α) : Prop := ExceptT.run m = some (.ok a)

@[simp]
theorem returns_pure (a b : α) : Returns (pure a : Deep ε α) b ↔ a = b
  := by
  constructor
  · intro h
    cases h
    rfl
  · rintro rfl
    rfl

@[simp]
theorem not_returns_tooDeep (a : α) : ¬ Returns (tooDeep : Deep ε α) a
  := by
  intro h
  cases h

@[simp]
theorem not_returns_throw (e : ε) (a : α) : ¬ Returns (throw e : Deep ε α) a
  := by
  intro h
  cases h

/-- A sequence returns what its second part does after the first. -/
@[simp]
theorem returns_bind (m : Deep ε α) (f : α → Deep ε β) (b : β) :
  Returns (m >>= f) b ↔ ∃ a, Returns m a ∧ Returns (f a) b
  := by
  simp only [Returns, ExceptT.run_bind]
  rcases ExceptT.run m with _ | e | a
  · constructor
    · intro h
      cases h
    · rintro ⟨a, ⟨⟩, -⟩
  · constructor
    · intro h
      cases h
    · rintro ⟨a, ⟨⟩, -⟩
  · constructor
    · intro h
      exact ⟨a, rfl, h⟩
    · rintro ⟨_, ⟨⟩, h⟩
      exact h

end Deep
